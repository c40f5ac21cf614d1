import CWebFramework.Http.Urlencoded

/-!
# Urlencoded payloads of a client

`httprequest_append_urlencoded` fills the payload of a request with pairs of
strings.  It writes them as they are, so the parser finds them again only if
they have no separators and the decoding leaves them alone.
-/

namespace CWebFramework.Http

inductive PayloadType where
  | none
  | plain
  | multipart
  | urlencoded
  deriving DecidableEq, Repr

/-- `http_payload_t` of a request that a client fills: the content of the payload
file, if there is one, and the `Content-Type` that was set for it. -/
structure RequestPayload where
  type : PayloadType
  file : Option Bytes
  contentType : Option Bytes
  deriving DecidableEq, Repr

def httprequestInitPayload : RequestPayload where
  type := .none
  file := none
  contentType := none

def urlencodedPair (pair : PayloadField) : Bytes :=
  cstring pair.key ++ Byte.equal :: cstring pair.value

def httprequestAppendUrlencoded (payload : RequestPayload)
    (pair : PayloadField) : Option RequestPayload :=
  if payload.type ≠ .none ∧ payload.type ≠ .urlencoded then none
  else
    match payload.file with
    | none =>
      some {
        type := .urlencoded
        file := some (urlencodedPair pair)
        contentType := some (ascii "application/x-www-form-urlencoded") }
    | some content =>
      some { payload with
        type := .urlencoded
        file := some (content ++ Byte.ampersand :: urlencodedPair pair) }

def appendUrlencoded (pairs : List PayloadField) : Option RequestPayload :=
  pairs.foldlM httprequestAppendUrlencoded httprequestInitPayload

/-! ## The payload -/

theorem foldlM_append {content : Bytes} (pairs : List PayloadField)
    {contentType : Option Bytes} :
    pairs.foldlM httprequestAppendUrlencoded
        { type := .urlencoded
          file := some content
          contentType := contentType } =
      some {
        type := .urlencoded
        file := some (content ++ pairs.flatMap fun pair =>
          Byte.ampersand :: urlencodedPair pair)
        contentType := contentType } := by
  induction pairs generalizing content with
  | nil => simp
  | cons pair pairs ih =>
    have later := @ih (content ++ Byte.ampersand :: urlencodedPair pair)
    simpa [httprequestAppendUrlencoded] using later

private theorem appendUrlencoded_fields (pairs : List PayloadField) :
    ∃ payload, appendUrlencoded pairs = some payload ∧ urlencodedFields (payload.file.getD []) =
        pairs.flatMap fun pair => urlencodedFields (urlencodedPair pair) := by
  cases pairs with
  | nil => exact ⟨httprequestInitPayload, rfl, rfl⟩
  | cons first rest =>
    refine ⟨_, foldlM_append rest, ?_⟩
    rw [Option.getD_some, List.flatMap_cons]
    generalize urlencodedPair first = text
    induction rest generalizing text with
    | nil => simp
    | cons pair rest ih =>
      have later := ih (urlencodedPair pair)
      rw [List.flatMap_cons, List.cons_append, urlencodedFields_append, later, List.flatMap_cons]

/-! ## Pairs that are found again -/

/-- A pair of strings without separators, which the decoding leaves alone. -/
structure PayloadField.Plain (pair : PayloadField) : Prop where
  noEqual : Byte.equal ∉ pair.key
  keyWhole : Byte.ampersand ∉ pair.key
  valueWhole : Byte.ampersand ∉ pair.value
  keyDecoded : urldecodel pair.key = pair.key
  valueDecoded : urldecodel pair.value = pair.value

private theorem urlencodedField_length {part : Bytes} (isIn : Byte.equal ∈ part) :
    ∃ field, urlencodedField part = some field ∧
      field.key.length + field.value.length + 1 ≤ part.length := by
  obtain ⟨key, value, whole, plain⟩ := List.eq_append_cons_of_mem isIn
  refine ⟨_, whole ▸ urlencodedField_pair plain value, ?_⟩
  have keyLength := length_urldecodel_le key
  have valueLength := length_urldecodel_le value
  rw [whole, List.length_append, List.length_cons]
  dsimp only
  omega

/-- The first field of a text with `=` is shorter than the text, the more so if
the text has a separator. -/
theorem head_urlencodedFields {text : Bytes} (isIn : Byte.equal ∈ text) :
    ∃ field rest, urlencodedFields text = field :: rest ∧
      (field.key.length + field.value.length + 1 +
          (if Byte.ampersand ∈ text then 1 else 0) ≤ text.length ∨
        (field.value = [] ∧ field.key.length + 2 ≤ text.length)) := by
  by_cases split : Byte.ampersand ∈ text
  · rw [if_pos split]
    obtain ⟨before, rest, whole, plain⟩ := List.eq_append_cons_of_mem split
    have fields : urlencodedFields text =
        (urlencodedField before).toList ++ urlencodedFields rest := by
      rw [whole, urlencodedFields_append, urlencodedFields_plain plain]
    have length : text.length = before.length + (rest.length + 1) := by
      rw [whole, List.length_append, List.length_cons]
    by_cases first : Byte.equal ∈ before
    · obtain ⟨field, isField, short⟩ := urlencodedField_length first
      rw [isField] at fields
      exact ⟨field, _, fields, .inl (by omega)⟩
    · have later : Byte.equal ∈ rest := by
        rw [whole] at isIn
        simpa [first, show Byte.equal ≠ Byte.ampersand by decide] using isIn
      have restLength := List.length_pos_of_mem later
      by_cases empty : before = []
      · obtain ⟨field, more, isFirst, short⟩ := head_urlencodedFields later
        have nothing : urlencodedField before = none := by
          rw [empty]
          decide
        rw [nothing, isFirst] at fields
        refine ⟨field, more, fields, ?_⟩
        rcases short with short | ⟨noValue, short⟩
        · exact .inl (by omega)
        · exact .inr ⟨noValue, by omega⟩
      · have isField : urlencodedField before = some { key := urldecodel before, value := [] } := by
          rw [urlencodedField, if_neg first, if_neg empty]
        have keyLength := length_urldecodel_le before
        rw [isField] at fields
        exact ⟨_, _, fields, .inr ⟨rfl, by dsimp only; omega⟩⟩
  · rw [if_neg split]
    obtain ⟨field, isField, short⟩ := urlencodedField_length isIn
    refine ⟨field, [], ?_, .inl short⟩
    rw [urlencodedFields_plain split, isField]
    rfl
termination_by text.length

theorem PayloadField.Plain.fields {pair : PayloadField} (plain : pair.Plain)
    (keyText : 0 ∉ pair.key) (valueText : 0 ∉ pair.value) :
    urlencodedFields (urlencodedPair pair) = [pair] := by
  have whole : Byte.ampersand ∉ pair.key ++ Byte.equal :: pair.value := by
    simp [plain.keyWhole, plain.valueWhole,
      show Byte.ampersand ≠ Byte.equal by decide]
  rw [urlencodedPair, cstring_of_notMem keyText, cstring_of_notMem valueText,
    urlencodedFields_plain whole, urlencodedField_pair plain.noEqual,
    plain.keyDecoded, plain.valueDecoded]
  rfl

theorem plain_of_head {pair : PayloadField} (keyText : 0 ∉ pair.key)
    (valueText : 0 ∉ pair.value) {rest : List PayloadField}
    (found : urlencodedFields (urlencodedPair pair) = pair :: rest) :
    pair.Plain := by
  rw [urlencodedPair, cstring_of_notMem keyText, cstring_of_notMem valueText] at found
  have isIn : Byte.equal ∈ pair.key ++ Byte.equal :: pair.value := by simp
  have whole : Byte.ampersand ∉ pair.key ++ Byte.equal :: pair.value := by
    intro split
    obtain ⟨field, more, isFirst, short⟩ := head_urlencodedFields isIn
    rw [found] at isFirst
    obtain ⟨rfl, rfl⟩ := List.cons.inj isFirst
    rw [if_pos split, List.length_append, List.length_cons] at short
    rcases short with short | ⟨noValue, short⟩
    · omega
    · rw [noValue, List.length_nil] at short
      omega
  have noEqual : Byte.equal ∉ pair.key := by
    intro inKey
    obtain ⟨front, back, isKey, plain⟩ := List.eq_append_cons_of_mem inKey
    have again : pair.key ++ Byte.equal :: pair.value =
        front ++ Byte.equal :: (back ++ Byte.equal :: pair.value) := by
      rw [isKey, List.append_assoc]
      rfl
    rw [urlencodedFields_plain whole, again, urlencodedField_pair plain] at found
    have sameKey : urldecodel front = pair.key := congrArg PayloadField.key (List.cons.inj found).1
    have short := length_urldecodel_le front
    rw [sameKey, isKey, List.length_append, List.length_cons] at short
    omega
  rw [urlencodedFields_plain whole, urlencodedField_pair noEqual] at found
  have same := (List.cons.inj found).1
  simp only [List.mem_append, List.mem_cons, not_or] at whole
  exact ⟨noEqual, whole.1, whole.2.2, congrArg PayloadField.key same,
    congrArg PayloadField.value same⟩

theorem flatMap_fields_iff {pairs : List PayloadField}
    (texts : ∀ pair ∈ pairs, 0 ∉ pair.key ∧ 0 ∉ pair.value) :
    pairs.flatMap (fun pair => urlencodedFields (urlencodedPair pair)) = pairs ↔
      ∀ pair ∈ pairs, pair.Plain := by
  induction pairs with
  | nil => simp
  | cons pair pairs ih =>
    obtain ⟨keyText, valueText⟩ := texts pair (List.mem_cons_self ..)
    have later := ih fun pair isIn =>
      texts pair (List.mem_cons_of_mem _ isIn)
    rw [List.flatMap_cons, List.forall_mem_cons, ← later]
    constructor
    · intro found
      have isIn : Byte.equal ∈ urlencodedPair pair := by
        simp [urlencodedPair]
      obtain ⟨field, more, isFirst, -⟩ := head_urlencodedFields isIn
      rw [isFirst, List.cons_append] at found
      obtain ⟨rfl, tail⟩ := List.cons.inj found
      have plain := plain_of_head keyText valueText isFirst
      have alone := plain.fields keyText valueText
      rw [isFirst] at alone
      obtain ⟨-, rfl⟩ := List.cons.inj alone
      exact ⟨plain, tail⟩
    · rintro ⟨plain, tail⟩
      rw [plain.fields keyText valueText, tail]
      rfl

/-- The pairs that a client has appended are found by the parser, however the
payload is read, exactly if there are at most 256 of them and each one is
plain. -/
theorem appendUrlencoded_found_iff (pairs : List PayloadField)
    (texts : ∀ pair ∈ pairs, 0 ∉ pair.key ∧ 0 ∉ pair.value) :
    ∃ payload, appendUrlencoded pairs = some payload ∧
      ∀ blocks : List Bytes, (∀ block ∈ blocks, block ≠ []) →
        blocks.flatten = payload.file.getD [] →
          (httprequestPayloadParseUrlencoded blocks = .ok pairs ↔
            pairs.length ≤ 256 ∧ ∀ pair ∈ pairs, pair.Plain) := by
  obtain ⟨payload, appended, fields⟩ := appendUrlencoded_fields pairs
  refine ⟨payload, appended, fun blocks full whole => ?_⟩
  rw [httprequestPayloadParseUrlencoded_eq blocks full, whole, fields, ← flatMap_fields_iff texts]
  constructor
  · intro found
    split at found
    · rename_i few
      have same := Except.ok.inj found
      rw [same] at few
      exact ⟨few, same⟩
    · cases found
  · rintro ⟨few, same⟩
    rw [same]
    exact if_pos few

/-- The parser takes a pair with `&` for two. -/
theorem appendUrlencoded_ampersand : ∃ payload,
      appendUrlencoded [{ key := ascii "a", value := ascii "b&c" }] = some payload ∧
      httprequestPayloadParseUrlencoded [payload.file.getD []] =
        .ok [{ key := ascii "a", value := ascii "b" },
          { key := ascii "c", value := [] }] ∧
      httprequestPayloadParseUrlencoded [payload.file.getD []] ≠
        .ok [{ key := ascii "a", value := ascii "b&c" }] :=
  ⟨_, rfl, rfl, fun same => by
    have wrong := Except.ok.inj same
    revert wrong
    decide⟩

/-- Two plain pairs, read in two blocks. -/
theorem appendUrlencoded_found_plain :
    httprequestPayloadParseUrlencoded [ascii "a=1", ascii "&b="] =
      .ok [{ key := ascii "a", value := ascii "1" },
        { key := ascii "b", value := [] }] := by
  obtain ⟨payload, appended, found⟩ := appendUrlencoded_found_iff
    [{ key := ascii "a", value := ascii "1" },
      { key := ascii "b", value := [] }] (by decide)
  have isPayload : payload.file.getD [] = ascii "a=1&b=" := by
    cases appended
    rfl
  refine (found [ascii "a=1", ascii "&b="] (by decide) ?_).mpr ⟨by decide, ?_⟩
  · rw [isPayload]
    rfl
  · simp only [List.forall_mem_cons]
    refine ⟨⟨by decide, by decide, by decide, by decide, by decide⟩,
      ⟨by decide, by decide, by decide, by decide, by decide⟩, ?_⟩
    exact fun _ impossible => absurd impossible List.not_mem_nil

end CWebFramework.Http
