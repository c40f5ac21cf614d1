import CWebFramework.Http.Multipart

/-!
# Multipart payloads in blocks

The driver reads the payload in blocks and goes on to the next block when the
parser has found the closing boundary.  So the blocks do not matter as long as
the closing boundary ends in the last one.
-/

namespace CWebFramework.Http

namespace MultipartParser

variable (payload boundary : Bytes)

/-! ## Parts are only added -/

/-- What a byte does to the headers and the parts: headers are added, or become
those of a new part. -/
def Adds (parser : MultipartParser) : MultipartStep → Prop
  | .next after =>
    (after.parts = parser.parts ∧ parser.headers <+: after.headers) ∨
      ∃ part, after.parts = parser.parts ++ [part] ∧ part.fields = dispositionFields parser.headers
  | .failed after => after.parts = parser.parts
  | .closed after =>
    ∃ part, after.parts = parser.parts ++ [part] ∧ part.fields = dispositionFields parser.headers

theorem adds_fail (parser : MultipartParser) (error : String) : parser.Adds (parser.fail error) :=
  rfl

theorem adds_same {parser after : MultipartParser} (parts : after.parts = parser.parts)
    (headers : after.headers = parser.headers) :
    parser.Adds (.next after) :=
  .inl ⟨parts, headers ▸ List.prefix_rfl⟩

private theorem adds_valueByte (parser : MultipartParser) (letter : UInt8)
    (tooLong : String) : parser.Adds (parser.valueByte letter tooLong) := by
  unfold valueByte
  split
  · exact parser.adds_fail _
  · split
    · exact parser.adds_fail _
    · exact adds_same rfl rfl

private theorem adds_bodyByte (parser : MultipartParser) (letter : UInt8) :
    parser.Adds (parser.bodyByte boundary letter) := by
  unfold bodyByte
  split
  · exact parser.adds_fail _
  · exact adds_same rfl rfl
  · exact adds_same rfl rfl
  · exact .inr ⟨_, rfl, rfl⟩
  · exact ⟨_, rfl, rfl⟩

theorem adds_byte (parser : MultipartParser) (letter : UInt8) :
    parser.Adds (parser.byte payload boundary letter) := by
  unfold byte
  cases parser.stage with
  | firstSeparator =>
    simp only [firstSeparatorByte]
    split
    · exact parser.adds_fail _
    · exact adds_same rfl rfl
    · exact adds_same rfl rfl
  | headerKey =>
    simp only [headerKeyByte]
    split_ifs
    · exact adds_same rfl rfl
    · exact parser.adds_fail _
    · exact parser.adds_fail _
    · exact adds_same rfl rfl
  | headerSpace =>
    simp only [headerSpaceByte]
    split_ifs
    · exact adds_same rfl rfl
    · exact adds_same rfl rfl
    · exact parser.adds_valueByte letter _
  | headerValue =>
    simp only [headerValueByte]
    split_ifs
    · exact adds_same rfl rfl
    · exact parser.adds_valueByte letter _
  | headerEnd =>
    simp only [headerEndByte, createHeader]
    by_cases line : letter = Byte.lf
    · rw [if_pos line]
      by_cases many : 10 ≤ parser.headers.length
      · rw [if_pos many]
        exact parser.adds_fail _
      · rw [if_neg many]
        exact .inl ⟨rfl, List.prefix_append _ _⟩
    · rw [if_neg line]
      exact parser.adds_fail _
  | extraCr =>
    simp only [extraCrByte]
    split_ifs
    · exact adds_same rfl rfl
    · exact parser.adds_fail _
    · exact adds_same rfl rfl
  | extraLf =>
    simp only [extraLfByte]
    split_ifs
    · exact adds_same rfl rfl
    · exact parser.adds_fail _
  | body => exact parser.adds_bodyByte boundary letter

theorem Adds.parts_prefix {parser after : MultipartParser}
    (adds : parser.Adds (.next after)) : parser.parts <+: after.parts := by
  rcases adds with ⟨same, -⟩ | ⟨part, added, -⟩
  · exact same ▸ List.prefix_rfl
  · exact added ▸ List.prefix_append _ _

/-- A run keeps the parts it has found, and adds one if it finds the closing
boundary. -/
theorem loop_parts (buffer : Bytes) (parser : MultipartParser) :
    parser.parts <+: (loop payload boundary buffer parser).2.parts ∧
      ((loop payload boundary buffer parser).1 = .done → parser.parts.length <
          (loop payload boundary buffer parser).2.parts.length) := by
  induction buffer generalizing parser with
  | nil => exact ⟨List.prefix_rfl, fun impossible => by cases impossible⟩
  | cons letter buffer ih =>
    have adds := parser.adds_byte payload boundary letter
    unfold loop
    cases step : parser.byte payload boundary letter with
    | next after =>
      rw [step] at adds
      obtain ⟨kept, more⟩ := ih (after.advance letter)
      exact ⟨adds.parts_prefix.trans kept, fun isDone =>
        Nat.lt_of_le_of_lt adds.parts_prefix.length_le (more isDone)⟩
    | failed after =>
      rw [step] at adds
      exact ⟨Eq.symm adds ▸ List.prefix_rfl, fun impossible => by cases impossible⟩
    | closed after =>
      rw [step] at adds
      obtain ⟨part, added, -⟩ := adds
      refine ⟨added ▸ List.prefix_append _ _, fun _ => ?_⟩
      change _ < after.parts.length
      rw [added, List.length_append]
      exact Nat.lt_succ_self _

/-! ## Runs one after the other -/

theorem loop_append (first second : Bytes) (parser : MultipartParser) :
    loop payload boundary (first ++ second) parser =
      match loop payload boundary first parser with
      | (.pending, after) => loop payload boundary second after
      | result => result := by
  induction first generalizing parser with
  | nil => rfl
  | cons letter first ih =>
    rw [List.cons_append, loop, loop]
    cases step : parser.byte payload boundary letter with
    | next after => exact ih (after.advance letter)
    | failed after => rfl
    | closed after => rfl

end MultipartParser

/-! ## The driver -/

def multipartOutcome (result : MultipartRes × MultipartParser) : Option (List PayloadPart) :=
  if result.1 = .done then some result.2.parts else none

section Driver

variable (payload boundary : Bytes)

theorem multipartparserParse_eq {block : Bytes} (full : block ≠ []) (parser : MultipartParser) :
    multipartparserParse payload boundary parser block = parser.loop payload boundary block :=
  if_neg full

/-- Blocks behind the closing boundary lead to a failure or to a further
part. -/
theorem multipartReads_more {blocks : List Bytes} (some : blocks ≠ [])
    (res : MultipartRes) (parser : MultipartParser) :
    multipartOutcome (multipartReads payload boundary blocks res parser) ≠ .some parser.parts := by
  suffices more : ∀ parts, multipartOutcome (multipartReads payload boundary blocks res parser) =
        .some parts → parser.parts.length < parts.length by
    intro same
    exact Nat.lt_irrefl _ (more _ same)
  induction blocks generalizing res parser with
  | nil => exact absurd rfl some
  | cons block blocks ih =>
    intro parts found
    unfold multipartReads at found
    by_cases empty : block = []
    · rw [multipartparserParse, if_pos empty] at found
      cases found
    · rw [multipartparserParse_eq payload boundary empty] at found
      have grown := MultipartParser.loop_parts payload boundary block parser
      generalize parser.loop payload boundary block = result at found grown
      obtain ⟨blockRes, after⟩ := result
      cases blockRes with
      | error => cases found
      | pending =>
        by_cases last : blocks = []
        · subst last
          cases found
        · exact Nat.lt_of_le_of_lt grown.1.length_le (ih last .pending after parts found)
      | done =>
        by_cases last : blocks = []
        · subst last
          cases found
          exact grown.2 rfl
        · exact Nat.lt_of_le_of_lt grown.1.length_le (ih last .done after parts found)

/-- Reading in blocks and at once come to the same exactly if the closing
boundary is not found before the last block. -/
theorem multipartReads_flatten {blocks : List Bytes} (some : blocks ≠ [])
    (full : ∀ block ∈ blocks, block ≠ []) (res : MultipartRes)
    (parser : MultipartParser) :
    multipartOutcome (multipartReads payload boundary blocks res parser) =
        multipartOutcome (parser.loop payload boundary blocks.flatten) ↔
      (parser.loop payload boundary blocks.dropLast.flatten).1 ≠ .done := by
  induction blocks generalizing res parser with
  | nil => exact absurd rfl some
  | cons block blocks ih =>
    rw [List.forall_mem_cons] at full
    unfold multipartReads
    rw [multipartparserParse_eq payload boundary full.1]
    by_cases last : blocks = []
    · subst last
      rw [List.flatten_singleton]
      refine ⟨fun _ => nofun, fun _ => ?_⟩
      generalize parser.loop payload boundary block = result
      obtain ⟨blockRes, after⟩ := result
      cases blockRes <;> rfl
    · rw [List.dropLast_cons_of_ne_nil last, List.flatten_cons,
        List.flatten_cons, MultipartParser.loop_append,
        MultipartParser.loop_append]
      generalize parser.loop payload boundary block = result
      obtain ⟨blockRes, after⟩ := result
      cases blockRes with
      | error => exact ⟨fun _ => nofun, fun _ => rfl⟩
      | pending => exact ih last full.2 .pending after
      | done =>
        refine ⟨fun same => ?_, fun impossible => absurd rfl impossible⟩
        exact absurd same (multipartReads_more payload boundary last .done after)

def oneRead (file : Bytes) : List Bytes :=
  if file = [] then [] else [file]

theorem flatten_oneRead (file : Bytes) : (oneRead file).flatten = file := by
  unfold oneRead
  by_cases empty : file = []
  · rw [if_pos empty, empty]
    rfl
  · rw [if_neg empty, List.flatten_singleton]

theorem multipartReads_oneRead (file : Bytes) (parser : MultipartParser) : multipartOutcome
        (multipartReads payload boundary (oneRead file) .error parser) =
      multipartOutcome (parser.loop payload boundary file) := by
  by_cases empty : file = []
  · subst empty
    rfl
  · have single : oneRead file = [file] := if_neg empty
    have same := (multipartReads_flatten payload boundary
      (List.cons_ne_nil file []) (List.forall_mem_singleton.mpr empty) .error
      parser).mpr nofun
    rw [single, same, List.flatten_singleton]

private theorem multipartparserParse_done (buffer : Bytes) (parser : MultipartParser) :
    (multipartparserParse payload boundary parser buffer).1 = .done ↔
      (parser.loop payload boundary buffer).1 = .done := by
  by_cases empty : buffer = []
  · subst empty
    exact ⟨nofun, nofun⟩
  · rw [multipartparserParse_eq payload boundary empty]

end Driver

theorem httprequestPayloadParseMultipart_eq (headerValue : Bytes) (blocks : List Bytes) :
    httprequestPayloadParseMultipart headerValue blocks = (formdataparserFindField
        (formdataparserFields (ascii "multipart/form-data") headerValue)
        (ascii "boundary")).bind fun boundary =>
          multipartOutcome (multipartReads blocks.flatten (cstring boundary)
            blocks .error multipartparserInit) :=
  rfl

/-- The outcome of `httprequest_payload_parse_multipart` is that of a single read
of the file exactly if the parser does not find the closing boundary before the
last block. -/
theorem httprequestPayloadParseMultipart_blocks_iff (headerValue : Bytes)
    (blocks : List Bytes) (full : ∀ block ∈ blocks, block ≠ []) :
    httprequestPayloadParseMultipart headerValue blocks =
        httprequestPayloadParseMultipart headerValue (oneRead blocks.flatten) ↔
      ∀ boundary, formdataparserFindField
          (formdataparserFields (ascii "multipart/form-data") headerValue)
          (ascii "boundary") = some boundary →
        (multipartparserParse blocks.flatten (cstring boundary)
          multipartparserInit blocks.dropLast.flatten).1 ≠ .done := by
  rw [httprequestPayloadParseMultipart_eq, httprequestPayloadParseMultipart_eq]
  generalize formdataparserFindField
    (formdataparserFields (ascii "multipart/form-data") headerValue)
    (ascii "boundary") = found
  cases found with
  | none => exact ⟨fun _ _ => nofun, fun _ => rfl⟩
  | some boundary =>
    rw [Option.bind_some, Option.bind_some, flatten_oneRead, multipartReads_oneRead]
    by_cases none : blocks = []
    · subst none
      exact ⟨fun _ _ _ => nofun, fun _ => rfl⟩
    · rw [multipartReads_flatten _ _ none full]
      simp only [Option.some.injEq, forall_eq', ne_eq, multipartparserParse_done]

theorem formdataparserFindField_boundary : formdataparserFindField
      (formdataparserFields (ascii "multipart/form-data") (ascii "multipart/form-data; boundary=B"))
      (ascii "boundary") = some (ascii "B") := by
  decide +kernel

/-- A closing boundary that is cut in two. -/
theorem httprequestPayloadParseMultipart_blocks_cut : httprequestPayloadParseMultipart
        (ascii "multipart/form-data; boundary=B")
        [ascii "--B\r\nA: b\r\n\r\nx\r\n--", ascii "B--\r\n"] =
      httprequestPayloadParseMultipart (ascii "multipart/form-data; boundary=B")
        (oneRead (ascii "--B\r\nA: b\r\n\r\nx\r\n--B--\r\n")) :=
  (httprequestPayloadParseMultipart_blocks_iff (ascii "multipart/form-data; boundary=B")
    [ascii "--B\r\nA: b\r\n\r\nx\r\n--", ascii "B--\r\n"]
    (by decide)).mpr (by
      intro boundary found
      rw [formdataparserFindField_boundary] at found
      cases found
      decide +kernel)

theorem MultipartParser.loop_replicate (payload boundary : Bytes)
    {letter : UInt8} (plain : letter ≠ Byte.cr) (count : Nat)
    {parser : MultipartParser} (inBody : parser.stage = .body)
    (outside : parser.separatorIndex = 0) :
    ∃ prevCh, parser.loop payload boundary (List.replicate count letter) = (.pending, { parser with
        payloadOffset := parser.payloadOffset + count
        partSize := parser.partSize + count
        prevCh := prevCh }) := by
  induction count generalizing parser with
  | zero => exact ⟨parser.prevCh, rfl⟩
  | succ count ih =>
    have notSeparator : ∀ prevCh, intermediateSeparatorCheck boundary 0 prevCh letter =
          .notSeparator := by
      intro prevCh
      simp [intermediateSeparatorCheck, plain]
    have step : parser.byte payload boundary letter = .next parser := by
      rw [MultipartParser.byte, inBody]
      simp only [bodyByte, outside, notSeparator, reduceCtorEq, if_false]
      rw [← outside]
    obtain ⟨prevCh, rest⟩ := @ih (parser.advance letter) inBody outside
    refine ⟨prevCh, ?_⟩
    rw [List.replicate_succ, loop, step]
    dsimp only
    rw [rest]
    simp [advance, Nat.add_assoc, Nat.add_comm 1 count]

def atPlainBody (payload : Bytes) : MultipartParser :=
  (MultipartParser.loop payload (ascii "B")
    (ascii "--B\r\nA: b\r\n\r\n") multipartparserInit).2

private theorem loop_atPlainBody (payload : Bytes) : MultipartParser.loop payload (ascii "B")
      (ascii "--B\r\nA: b\r\n\r\n") multipartparserInit =
        (.pending, atPlainBody payload) ∧
      (atPlainBody payload).stage = .body ∧
      (atPlainBody payload).separatorIndex = 0 :=
  ⟨rfl, rfl, rfl⟩

theorem loop_atPlainBody_closes (payload : Bytes) (offset size : Nat) (prevCh : UInt8) : ∃ closed,
      MultipartParser.loop payload (ascii "B") (ascii "\r\n--B--")
        { atPlainBody payload with
          payloadOffset := offset, partSize := size, prevCh := prevCh } =
          (.done, closed) ∧
      (MultipartParser.loop payload (ascii "B") (ascii "\r\n") closed).1 =
        .pending :=
  ⟨_, rfl, rfl⟩

theorem loop_plainPart (payload : Bytes) (count : Nat) : ∃ closed,
      MultipartParser.loop payload (ascii "B")
        (ascii "--B\r\nA: b\r\n\r\n" ++ (List.replicate count 120 ++
          ascii "\r\n--B--")) multipartparserInit = (.done, closed) ∧
      (MultipartParser.loop payload (ascii "B") (ascii "\r\n") closed).1 =
        .pending := by
  obtain ⟨head, inBody, outside⟩ := loop_atPlainBody payload
  obtain ⟨prevCh, body⟩ := MultipartParser.loop_replicate payload (ascii "B")
    (show (120 : UInt8) ≠ Byte.cr by decide) count inBody outside
  obtain ⟨closed, ends, behind⟩ := loop_atPlainBody_closes payload
    ((atPlainBody payload).payloadOffset + count)
    ((atPlainBody payload).partSize + count) prevCh
  refine ⟨closed, ?_, behind⟩
  rw [MultipartParser.loop_append, head]
  dsimp only
  rw [MultipartParser.loop_append, body]
  exact ends

def closedAtBlock : List Bytes :=
  [ascii "--B\r\nA: b\r\n\r\n" ++ (List.replicate 16364 120 ++
      ascii "\r\n--B--"),
    ascii "\r\n"]

/-- It has a part in a single read, and is refused in blocks. -/
theorem closedAtBlock_differs : closedAtBlock.map List.length = [16384, 2] ∧
      (httprequestPayloadParseMultipart (ascii "multipart/form-data; boundary=B")
        (oneRead closedAtBlock.flatten)).isSome = true ∧
      httprequestPayloadParseMultipart
        (ascii "multipart/form-data; boundary=B") closedAtBlock = none := by
  have lengths : closedAtBlock.map List.length = [16384, 2] := by
    simp only [closedAtBlock, List.map_cons, List.length_append, List.length_replicate]
    rfl
  have cstringB : cstring (ascii "B") = ascii "B" := by decide
  refine ⟨lengths, ?_, ?_⟩
  all_goals
    rw [httprequestPayloadParseMultipart_eq, formdataparserFindField_boundary,
      Option.bind_some, cstringB]
  · obtain ⟨closed, found, behind⟩ := loop_plainPart closedAtBlock.flatten 16364
    rw [flatten_oneRead, multipartReads_oneRead]
    nth_rewrite 2 [closedAtBlock]
    rw [List.flatten_cons, MultipartParser.loop_append, found]
    rfl
  · obtain ⟨closed, found, behind⟩ := loop_plainPart closedAtBlock.flatten 16364
    generalize closedAtBlock.flatten = payload at found behind ⊢
    rw [closedAtBlock, multipartReads, multipartparserParse_eq _ _
      (List.append_ne_nil_of_left_ne_nil (by decide) _), found]
    dsimp only
    rw [multipartReads, multipartparserParse_eq _ _ (by decide)]
    generalize MultipartParser.loop payload (ascii "B") (ascii "\r\n") closed = result at behind ⊢
    obtain ⟨res, last⟩ := result
    cases behind
    rfl

end CWebFramework.Http
