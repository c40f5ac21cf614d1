import CWebFramework.HttpClient.ChunkedFeatures

/-!
# Reading a chunked body

For each state of the transfer-encoding parser the texts that complete the body
are known, with the content that they add.  A pass over the front of a buffer
takes these texts to those of the next state, so the parser reports exactly the
bodies of its language, however they are cut into reads.  What the filter of
the server writes is such a body.
-/

namespace CWebFramework.HttpClient

open Http

variable {text content : Bytes}

/-! ## Passes -/

section Passes

variable {Response : Type} {append : Response → Bytes → Option Response}
  {given : Bytes → Response}

/-- What the buffer and the counters of the parser are at a stage. -/
def WellFormed (parser : TeParser Response) : Prop :=
  match parser.stage with
  | .chunksize =>
    parser.buf.length ≤ 9 ∧ ∀ byte ∈ parser.buf, IsOrdinary byte
  | .chunksizeNewline | .chunksizeExt =>
    parser.buf = [] ∧ parser.chunkSizeReaded = 0
  | .chunk =>
    parser.buf = [] ∧ parser.chunkSizeReaded ≤ parser.chunkSize
  | .chunkNewline | .trailerNewline => parser.buf = []
  | .trailer => parser.buf.length ≤ 8193 ∧ Byte.cr ∉ parser.buf
  | .trailerFinalNewline => True

/-- The texts that complete the body at a stage, with the content that they
add. -/
def Completes (parser : TeParser Response) (text content : Bytes) : Prop :=
  match parser.stage with
  | .chunksize => Body (parser.buf ++ text) content
  | .chunksizeNewline =>
    ∃ rest, text = Byte.lf :: rest ∧ After parser.chunkSize rest content
  | .chunksizeExt =>
    ∃ extension rest, Byte.cr ∉ extension ∧ text = extension ++ (chunkSep ++ rest) ∧
        After parser.chunkSize rest content
  | .chunk => Data (parser.chunkSize - parser.chunkSizeReaded) text content
  | .chunkNewline => ∃ rest, text = Byte.lf :: rest ∧ Body rest content
  | .trailer => Trailers (parser.buf ++ text) ∧ content = []
  | .trailerNewline =>
    ∃ rest, text = Byte.lf :: rest ∧ Trailers rest ∧ content = []
  | .trailerFinalNewline => text = [Byte.lf] ∧ content = []

/-- What a pass over the front of a buffer says about the texts that complete
the body; `front` is the content before it. -/
inductive Derives (given : Bytes → Response) (front : Bytes)
    (parser : TeParser Response) (ch : UInt8) (rest : Bytes) :
    TePass Response → Prop where
  | next {after : TeParser Response} {used left gained : Bytes} (wellFormed : WellFormed after)
      (isResponse : after.response = given (front ++ gained))
      (isText : ch :: rest = used ++ left) (nonempty : used ≠ [])
      (same : ∀ text content, Completes parser (used ++ text) content ↔
        ∃ more, content = gained ++ more ∧ Completes after text more)
      (long : ∀ text content, Completes parser text content → used.length ≤ text.length) :
      Derives given front parser ch rest (.next after left)
  | complete {after : TeParser Response} (isResponse : after.response = given front)
      (same : ∀ text content, Completes parser (ch :: text) content ↔ text = [] ∧ content = []) :
      Derives given front parser ch rest (.complete after rest)
  | error (none : ∀ text content, ¬Completes parser (ch :: text) content) :
      Derives given front parser ch rest .error

theorem Completes.ne_nil {parser : TeParser Response} (wellFormed : WellFormed parser)
    (completes : Completes parser text content) : text ≠ [] := by
  rintro rfl
  obtain ⟨stage, buf, size, readed, response⟩ := parser
  cases stage with
  | chunksize =>
    obtain ⟨_, ordinary⟩ := wellFormed
    obtain ⟨digits, _, line, rest, _, isLine, _, isText⟩ := body_iff.mp completes
    have isIn : ∀ {byte}, byte ∈ line → byte ∈ buf ++ [] := by
      intro byte member
      rw [isText]
      exact List.mem_append_right _ (List.mem_append_left _ member)
    rw [List.append_nil] at isIn
    cases isLine with
    | plain => exact not_ordinary_cr (ordinary _ (isIn List.mem_cons_self))
    | extended =>
      exact not_ordinary_semicolon (ordinary _ (isIn List.mem_cons_self))
  | chunksizeNewline =>
    obtain ⟨_, isText, _⟩ := completes
    cases isText
  | chunksizeExt =>
    obtain ⟨extension, rest, _, isText, _⟩ := completes
    refine List.append_ne_nil_of_right_ne_nil _ ?_ isText.symm
    exact List.cons_ne_nil _ _
  | chunk =>
    obtain ⟨data, junk, rest, _, _, _, _, isText, _⟩ := completes
    refine List.append_ne_nil_of_right_ne_nil _ ?_ isText.symm
    exact List.append_ne_nil_of_right_ne_nil _ (List.cons_ne_nil _ _)
  | chunkNewline =>
    obtain ⟨_, isText, _⟩ := completes
    cases isText
  | trailer =>
    obtain ⟨_, noReturn⟩ := wellFormed
    have isIn : Byte.cr ∈ buf ++ [] := completes.1.cr_mem
    rw [List.append_nil] at isIn
    exact noReturn isIn
  | trailerNewline =>
    obtain ⟨_, isText, _⟩ := completes
    cases isText
  | trailerFinalNewline => cases completes.1

/-- A pass that takes one character, none of the content. -/
theorem Derives.single {parser after : TeParser Response} {ch : UInt8}
    {front rest : Bytes} (before : WellFormed parser)
    (wellFormed : WellFormed after) (isResponse : after.response = given front)
    (same : ∀ text content, Completes parser (ch :: text) content ↔ Completes after text content) :
    Derives given front parser ch rest (.next after rest) := by
  refine @Derives.next _ _ _ _ _ _ after [ch] rest [] wellFormed ?_ rfl
    (List.cons_ne_nil _ _) (fun text content => ?_) ?_
  · rw [List.append_nil]
    exact isResponse
  · refine (same text content).trans ⟨fun completes => ?_, ?_⟩
    · exact ⟨content, rfl, completes⟩
    · rintro ⟨_, rfl, completes⟩
      exact completes
  · intro text content completes
    exact List.length_pos_of_ne_nil (completes.ne_nil before)

variable {buf front : Bytes} {size readed : Nat} {ch : UInt8} {rest : Bytes}

theorem chunksizePass_derives (wellFormed : WellFormed
      (⟨.chunksize, buf, size, readed, given front⟩ : TeParser Response)) :
    Derives given front ⟨.chunksize, buf, size, readed, given front⟩ ch rest
      (chunksizePass ⟨.chunksize, buf, size, readed, given front⟩ ch rest) := by
  obtain ⟨short, ordinary⟩ := wellFormed
  rw [chunksizePass, setChunkSize]
  split_ifs with isReturn isLong isSemicolon isLong
  · refine .error fun text content isBody => ?_
    rw [isReturn] at isBody
    obtain ⟨_, _, _, fits, _⟩ := (body_return_iff ordinary).mp isBody
    exact absurd fits (Nat.not_le.mpr isLong)
  · cases isSize : hexToDec buf with
    | none =>
      refine .error fun text content isBody => ?_
      rw [isReturn] at isBody
      obtain ⟨value, _, isValue, _⟩ := (body_return_iff ordinary).mp isBody
      cases isSize.symm.trans (hexToDec_eq_some_iff.mpr isValue)
    | some value =>
      refine .single ⟨short, ordinary⟩ ⟨rfl, rfl⟩ rfl fun text content => ?_
      rw [isReturn]
      refine (body_return_iff ordinary).trans ⟨?_, ?_⟩
      · rintro ⟨other, behind, isOther, _, isText, isAfter⟩
        cases isSize.symm.trans (hexToDec_eq_some_iff.mpr isOther)
        exact ⟨behind, isText, isAfter⟩
      · rintro ⟨behind, isText, isAfter⟩
        exact ⟨value, behind, hexToDec_eq_some_iff.mp isSize, Nat.not_lt.mp isLong, isText, isAfter⟩
  · cases isSize : hexToDec buf with
    | none =>
      refine .error fun text content isBody => ?_
      rw [isSemicolon] at isBody
      obtain ⟨value, _, _, isValue, _⟩ := (body_semicolon_iff ordinary).mp isBody
      cases isSize.symm.trans (hexToDec_eq_some_iff.mpr isValue)
    | some value =>
      refine .single ⟨short, ordinary⟩ ⟨rfl, rfl⟩ rfl fun text content => ?_
      rw [isSemicolon]
      refine (body_semicolon_iff ordinary).trans ⟨?_, ?_⟩
      · rintro ⟨other, extension, behind, isOther, _, isAll⟩
        cases isSize.symm.trans (hexToDec_eq_some_iff.mpr isOther)
        exact ⟨extension, behind, isAll⟩
      · rintro ⟨extension, behind, isAll⟩
        exact ⟨value, extension, behind, hexToDec_eq_some_iff.mp isSize, short, isAll⟩
  all_goals
    have extended : ∀ byte ∈ buf ++ [ch], IsOrdinary byte := by
      intro byte member
      cases List.mem_append.mp member with
      | inl before => exact ordinary byte before
      | inr here =>
        rw [List.mem_singleton.mp here]
        exact ⟨isReturn, isSemicolon⟩
  · refine .error fun text content isBody => ?_
    have isBody : Body (buf ++ ch :: text) content := isBody
    rw [List.append_cons] at isBody
    have fits := isBody.length_digits extended
    have long : 8 < buf.length := isLong
    rw [List.length_append, List.length_singleton] at fits
    omega
  · refine .single ⟨short, ordinary⟩ ⟨?_, extended⟩ rfl fun text content => ?_
    · rw [List.length_append, List.length_singleton]
      omega
    · exact iff_of_eq (congrArg (Body · content) (List.append_cons ..))

theorem trailerPass_derives (wellFormed : WellFormed
      (⟨.trailer, buf, size, readed, given front⟩ : TeParser Response)) :
    Derives given front ⟨.trailer, buf, size, readed, given front⟩ ch rest
      (trailerPass ⟨.trailer, buf, size, readed, given front⟩ ch rest) := by
  obtain ⟨short, noReturn⟩ := wellFormed
  have whole := fun text => @trailers_return_iff text buf noReturn short
  rw [trailerPass]
  split_ifs with isReturn isEmpty isLong
  · refine .single ⟨short, noReturn⟩ trivial rfl fun text content => ?_
    have isText := whole text
    rw [if_pos isEmpty, ← isReturn] at isText
    exact and_congr_left' isText
  · refine .single ⟨short, noReturn⟩ rfl rfl fun text content => ?_
    have isText := whole text
    rw [if_neg isEmpty, ← isReturn] at isText
    refine (and_congr_left' isText).trans ⟨?_, ?_⟩
    · rintro ⟨⟨behind, isBehind, isTrailers⟩, isNone⟩
      exact ⟨behind, isBehind, isTrailers, isNone⟩
    · rintro ⟨behind, isBehind, isTrailers, isNone⟩
      exact ⟨⟨behind, isBehind, isTrailers⟩, isNone⟩
  all_goals
    have without : Byte.cr ∉ buf ++ [ch] := by
      intro member
      cases List.mem_append.mp member with
      | inl before => exact noReturn before
      | inr here => exact isReturn (List.mem_singleton.mp here).symm
  · refine .error fun text content completes => ?_
    have isTrailers : Trailers (buf ++ ch :: text) := completes.1
    rw [List.append_cons] at isTrailers
    have fits := isTrailers.length_line without
    have long : 8192 < buf.length := isLong
    rw [List.length_append, List.length_singleton] at fits
    omega
  · refine .single ⟨short, noReturn⟩ ⟨?_, without⟩ rfl fun text content => ?_
    · rw [List.length_append, List.length_singleton]
      omega
    · exact iff_of_eq (congrArg (Trailers · ∧ content = []) (List.append_cons ..))

/-- The response takes whatever it is given; `given` is the response that has
got some content. -/
def Grows (append : Response → Bytes → Option Response) (given : Bytes → Response) : Prop :=
  ∀ front data, append (given front) data = some (given (front ++ data))

theorem readChunk_grows (grows : Grows append given) (buffer : Bytes) :
    readChunk append ⟨.chunk, [], size, readed, given front⟩ buffer =
      some (⟨.chunk, [], size, readed + (buffer.take (size - readed)).length,
        given (front ++ buffer.take (size - readed))⟩, buffer.drop (size - readed)) := by
  rw [readChunk]
  by_cases isEmpty : buffer.take (size - readed) = []
  · have all : buffer.drop (size - readed) = buffer := by
      have both := List.take_append_drop (size - readed) buffer
      rwa [isEmpty, List.nil_append] at both
    simp [isEmpty, all]
  · simp only [isEmpty, if_false, grows front]
    rw [List.length_take]
    rcases Nat.le_total (size - readed) buffer.length with fits | short
    · rw [Nat.min_eq_left fits]
      rfl
    · rw [Nat.min_eq_right short, List.drop_length, List.drop_of_length_le short]
      rfl

theorem chunkPass_derives (grows : Grows append given) (bounded : readed ≤ size) :
    Derives given front ⟨.chunk, [], size, readed, given front⟩ ch rest
      (chunkPass append ⟨.chunk, [], size, readed, given front⟩ (ch :: rest)) := by
  have parts := List.take_append_drop (size - readed) (ch :: rest)
  have length := List.length_take (i := size - readed) (l := ch :: rest)
  rw [chunkPass, readChunk_grows grows]
  generalize (ch :: rest).take (size - readed) = taken at parts length ⊢
  generalize (ch :: rest).drop (size - readed) = behind at parts ⊢
  have total := congrArg List.length parts
  rw [List.length_append, List.length_cons] at total
  rw [List.length_cons] at length
  have long : ∀ text content, Data (size - readed) text content →
      size - readed + 1 ≤ text.length := by
    rintro text content ⟨data, junk, behind, more, isLength, _, _, rfl, _⟩
    simp only [List.length_append, chunkSep, List.length_cons, isLength]
    omega
  cases behind with
  | nil =>
    rw [List.append_nil] at parts
    rw [List.length_nil] at total
    refine @Derives.next _ _ _ _ _ _ _ taken [] taken ⟨rfl, ?_⟩ rfl ?_ ?_
      (fun text content => ?_) ?_
    · dsimp only
      omega
    · rw [parts, List.append_nil]
    · rw [parts]
      exact List.cons_ne_nil _ _
    · have isLeft : size - readed = taken.length + (size - (readed + taken.length)) := by omega
      change Data (size - readed) (taken ++ text) content ↔ ∃ more, content = taken ++ more ∧
          Data (size - (readed + taken.length)) text more
      rw [isLeft]
      exact data_append_iff
    · intro text content isData
      have enough := long text content isData
      omega
  | cons next behind =>
    rw [List.length_cons] at total
    have isAll : taken.length = size - readed := by omega
    have isFull : size ≤ readed + taken.length := by omega
    have isText : ch :: rest = taken ++ [next] ++ behind := by
      rw [← parts, List.append_assoc, List.singleton_append]
    have first : ∀ text content, Data (size - readed) (taken ++ [next] ++ text) content ↔
          ∃ more, content = taken ++ more ∧ Data 0 (next :: text) more := by
      intro text content
      rw [List.append_assoc, List.singleton_append, ← isAll]
      exact @data_append_iff (next :: text) content taken 0
    have nonempty : taken ++ [next] ≠ [] := by simp
    have enough : ∀ text content, Data (size - readed) text content →
        (taken ++ [next]).length ≤ text.length := by
      intro text content isData
      rw [List.length_append, List.length_singleton, isAll]
      exact long text content isData
    dsimp only
    by_cases isReturn : next = Byte.cr
    · rw [if_pos ⟨isFull, isReturn⟩]
      refine .next rfl rfl isText nonempty (fun text content => ?_) enough
      refine (first text content).trans ?_
      rw [isReturn]
      simp only [data_return_iff]
      exact Iff.rfl
    · rw [if_neg fun both => isReturn both.2]
      refine .next ⟨rfl, ?_⟩ rfl isText nonempty (fun text content => ?_) enough
      · dsimp only
        omega
      · have isLeft : size - (readed + taken.length) = 0 := by omega
        refine (first text content).trans ?_
        simp only [data_junk_iff isReturn, Completes, isLeft]

/-- A character that has to be a line feed. -/
theorem newline_derives {parser after : TeParser Response}
    {language : Bytes → Bytes → Prop} (before : WellFormed parser)
    (wellFormed : WellFormed after) (isResponse : after.response = given front)
    (isNewline : ∀ text content, Completes parser text content ↔
      ∃ rest, text = Byte.lf :: rest ∧ language rest content)
    (isAfter : ∀ text content, language text content ↔ Completes after text content) :
    Derives given front parser ch rest (if ch = Byte.lf then .next after rest else .error) := by
  split_ifs with isLf
  · refine .single before wellFormed isResponse fun text content => ?_
    rw [isNewline, isLf, ← isAfter]
    exact ⟨fun ⟨_, same, holds⟩ => (List.cons.inj same).2 ▸ holds, fun holds => ⟨text, rfl, holds⟩⟩
  · refine .error fun text content completes => ?_
    obtain ⟨_, same, _⟩ := (isNewline _ _).mp completes
    exact isLf (List.cons.inj same).1

theorem extensionPass_derives (wellFormed : WellFormed
      (⟨.chunksizeExt, buf, size, readed, given front⟩ : TeParser Response)) :
    Derives given front ⟨.chunksizeExt, buf, size, readed, given front⟩ ch rest
      (tePass append ⟨.chunksizeExt, buf, size, readed, given front⟩ ch rest) := by
  simp only [tePass]
  split_ifs with isReturn
  · refine .single wellFormed wellFormed rfl fun text content => ⟨?_, ?_⟩
    · rintro ⟨extension, behind, noReturn, isText, isAfter⟩
      cases extension with
      | nil => exact ⟨behind, (List.cons.inj isText).2, isAfter⟩
      | cons byte extension =>
        rw [← (List.cons.inj isText).1, isReturn] at noReturn
        exact absurd List.mem_cons_self noReturn
    · rintro ⟨behind, isText, isAfter⟩
      refine ⟨[], behind, List.not_mem_nil, ?_, isAfter⟩
      rw [isReturn, isText]
      rfl
  · refine .single wellFormed wellFormed rfl fun text content => ⟨?_, ?_⟩
    · rintro ⟨extension, behind, noReturn, isText, isAfter⟩
      cases extension with
      | nil => exact absurd (List.cons.inj isText).1 isReturn
      | cons byte extension =>
        exact ⟨extension, behind, fun member => noReturn (List.mem_cons_of_mem _ member),
          (List.cons.inj isText).2, isAfter⟩
    · rintro ⟨extension, behind, noReturn, isText, isAfter⟩
      refine ⟨ch :: extension, behind, fun member => ?_, ?_, isAfter⟩
      · cases List.mem_cons.mp member with
        | inl same => exact isReturn same.symm
        | inr later => exact noReturn later
      · rw [isText]
        rfl

theorem tePass_derives (grows : Grows append given)
    {parser : TeParser Response} (wellFormed : WellFormed parser)
    (isResponse : parser.response = given front) (ch : UInt8) (rest : Bytes) :
    Derives given front parser ch rest (tePass append parser ch rest) := by
  obtain ⟨stage, buf, size, readed, response⟩ := parser
  dsimp only at isResponse
  subst isResponse
  cases stage with
  | chunksize => exact chunksizePass_derives wellFormed
  | chunksizeNewline =>
    obtain ⟨isEmpty, isStart⟩ := id wellFormed
    dsimp only at isEmpty isStart
    subst isEmpty isStart
    by_cases isZero : size = 0
    · refine newline_derives wellFormed ?_ rfl (fun _ _ => Iff.rfl) fun text content => ?_
      · simp only [isZero, if_true]
        exact ⟨Nat.zero_le _, List.not_mem_nil⟩
      · simp only [After, isZero, if_true]
        exact Iff.rfl
    · refine newline_derives wellFormed ?_ rfl (fun _ _ => Iff.rfl) fun text content => ?_
      · simp only [isZero, if_false]
        exact ⟨rfl, Nat.zero_le _⟩
      · simp only [After, isZero, if_false]
        exact Iff.rfl
  | chunksizeExt => exact extensionPass_derives wellFormed
  | chunk =>
    obtain ⟨isEmpty, bounded⟩ := wellFormed
    dsimp only at isEmpty
    subst isEmpty
    exact chunkPass_derives grows bounded
  | chunkNewline =>
    have isEmpty : buf = [] := wellFormed
    subst isEmpty
    exact @newline_derives _ _ _ _ _ ⟨.chunkNewline, [], size, readed, _⟩ _
      Body rfl ⟨Nat.zero_le _, List.forall_mem_nil _⟩ rfl
      (fun _ _ => Iff.rfl) fun _ _ => Iff.rfl
  | trailer => exact trailerPass_derives wellFormed
  | trailerNewline =>
    have isEmpty : buf = [] := wellFormed
    subst isEmpty
    exact @newline_derives _ _ _ _ _ ⟨.trailerNewline, [], size, readed, _⟩ _
      (fun text content => Trailers text ∧ content = []) rfl
      ⟨Nat.zero_le _, List.not_mem_nil⟩ rfl (fun _ _ => Iff.rfl)
      fun _ _ => Iff.rfl
  | trailerFinalNewline =>
    simp only [tePass]
    split_ifs with isLf
    · refine .complete rfl fun text content => ?_
      change ch :: text = [Byte.lf] ∧ content = [] ↔ text = [] ∧ content = []
      rw [isLf, List.cons.injEq]
      exact and_congr_left' ⟨And.right, And.intro rfl⟩
    · exact .error fun text content completes =>
        isLf (List.cons.inj completes.1).1

/-! ## Reads -/

/-- What reading a text says about the texts that complete the body; `front` is
the content before it. -/
inductive Outcome (given : Bytes → Response) (front : Bytes)
    (parser : TeParser Response) (buffer : Bytes) :
    TeResult Response → Prop where
  | next {after : TeParser Response} {gained : Bytes} (wellFormed : WellFormed after)
      (isResponse : after.response = given (front ++ gained))
      (same : ∀ text content, Completes parser (buffer ++ text) content ↔
        ∃ more, content = gained ++ more ∧ Completes after text more)
      (none : ∀ text content, Completes parser text content → ¬text <+: buffer) :
      Outcome given front parser buffer (.next after)
  | complete {after : TeParser Response} {used rest gained : Bytes}
      (isBuffer : buffer = used ++ rest)
      (isResponse : after.response = given (front ++ gained))
      (same : ∀ text content, Completes parser (used ++ text) content ↔
        text = [] ∧ content = gained) :
      Outcome given front parser buffer (.complete after rest)
  | error (none : ∀ text content, Completes parser text content →
      ¬(text <+: buffer ∨ buffer <+: text)) :
      Outcome given front parser buffer .error

variable {parser after : TeParser Response} {buffer later : Bytes}
  {result : TeResult Response}

theorem Outcome.nil (wellFormed : WellFormed parser) (isResponse : parser.response = given front) :
    Outcome given front parser [] (.next parser) := by
  refine @Outcome.next _ _ _ _ _ _ [] wellFormed ?_ (fun text content => ?_)
    fun text content completes isFront => ?_
  · rw [List.append_nil]
    exact isResponse
  · refine ⟨fun completes => ⟨content, rfl, completes⟩, ?_⟩
    rintro ⟨_, rfl, completes⟩
    exact completes
  · exact completes.ne_nil wellFormed (List.prefix_nil.mp isFront)

/-- Reading a text in two parts. -/
theorem Outcome.behind {gained : Bytes}
    (same : ∀ text content, Completes parser (buffer ++ text) content ↔
      ∃ more, content = gained ++ more ∧ Completes after text more)
    (none : ∀ text content, Completes parser text content → ¬text <+: buffer)
    (second : Outcome given (front ++ gained) after later result) :
    Outcome given front parser (buffer ++ later) result := by
  -- What completes the body goes beyond the first part.
  have beyond : ∀ {text content}, Completes parser text content →
      text <+: buffer ++ later ∨ buffer ++ later <+: text →
        ∃ rest more, text = buffer ++ rest ∧ Completes after rest more := by
    intro text content completes comparable
    have isFront : buffer <+: text := by
      cases comparable with
      | inl shorter =>
        cases List.prefix_or_prefix_of_prefix shorter (List.prefix_append buffer later) with
        | inl inside => exact absurd inside (none text content completes)
        | inr isFront => exact isFront
      | inr longer => exact (List.prefix_append _ _).trans longer
    obtain ⟨rest, rfl⟩ := isFront
    obtain ⟨more, _, isRest⟩ := (same rest content).mp completes
    exact ⟨rest, more, rfl, isRest⟩
  cases second with
  | @next last added wellFormed isLast again others =>
    rw [List.append_assoc] at isLast
    refine .next wellFormed isLast (fun text content => ?_) fun text content completes inside => ?_
    · rw [List.append_assoc, same]
      simp only [again, List.append_assoc]
      constructor
      · rintro ⟨_, rfl, more, rfl, completes⟩
        exact ⟨more, rfl, completes⟩
      · rintro ⟨more, rfl, completes⟩
        exact ⟨_, rfl, more, rfl, completes⟩
    · obtain ⟨rest, more, rfl, isRest⟩ := beyond completes (Or.inl inside)
      exact others rest more isRest ((List.prefix_append_right_inj buffer).mp inside)
  | @complete last used rest added isLater isLast again =>
    rw [List.append_assoc] at isLast
    refine @Outcome.complete _ _ _ _ _ _ (buffer ++ used) rest
      (gained ++ added) ?_ isLast fun text content => ?_
    · rw [isLater, List.append_assoc]
    · rw [List.append_assoc, same]
      simp only [again]
      constructor
      · rintro ⟨_, rfl, rfl, rfl⟩
        exact ⟨rfl, rfl⟩
      · rintro ⟨rfl, rfl⟩
        exact ⟨added, rfl, rfl, rfl⟩
  | error others =>
    refine .error fun text content completes comparable => ?_
    obtain ⟨rest, more, rfl, isRest⟩ := beyond completes comparable
    refine others rest more isRest ?_
    exact comparable.imp (List.prefix_append_right_inj buffer).mp
      (List.prefix_append_right_inj buffer).mp

theorem teLoop_outcome (grows : Grows append given) {fuel : Nat} (wellFormed : WellFormed parser)
    (isResponse : parser.response = given front)
    (enough : buffer.length ≤ fuel) :
    Outcome given front parser buffer (teLoop append fuel parser buffer) := by
  induction fuel generalizing parser buffer front with
  | zero =>
    rw [List.eq_nil_of_length_eq_zero (Nat.le_zero.mp enough)]
    exact .nil wellFormed isResponse
  | succ fuel ih =>
    cases buffer with
    | nil => exact .nil wellFormed isResponse
    | cons ch rest =>
      have derives := tePass_derives grows wellFormed isResponse ch rest
      rw [teLoop]
      generalize tePass append parser ch rest = pass at derives ⊢
      cases derives with
      | @next after used left gained stillFormed isNext isText nonempty same long =>
          have shorter : left.length ≤ fuel := by
            have lengths := congrArg List.length isText
            have positive := List.length_pos_of_ne_nil nonempty
            rw [List.length_append] at lengths
            rw [← Nat.lt_succ_iff]
            exact Nat.lt_of_lt_of_le (by omega) enough
          have none : ∀ text content, Completes parser text content → ¬text <+: used := by
            intro text content completes inside
            have isAll := inside.eq_of_length_le (long text content completes)
            rw [isAll, ← List.append_nil used, same] at completes
            obtain ⟨_, _, completes⟩ := completes
            exact completes.ne_nil stillFormed rfl
          rw [isText]
          exact Outcome.behind same none (ih stillFormed isNext shorter)
      | complete isLast same =>
        refine @Outcome.complete _ _ _ _ _ _ [ch] rest [] rfl ?_ same
        rw [List.append_nil]
        exact isLast
      | error none =>
        refine .error fun text content completes comparable => ?_
        cases text with
        | nil => exact completes.ne_nil wellFormed rfl
        | cons byte text =>
          have same : byte = ch := by
            cases comparable with
            | inl shorter =>
              exact (List.cons_prefix_cons.mp shorter).1
            | inr longer =>
              exact (List.cons_prefix_cons.mp longer).1.symm
          rw [same] at completes
          exact none text content completes

theorem teReads_outcome (grows : Grows append given) (reads : List Bytes)
    (wellFormed : WellFormed parser)
    (isResponse : parser.response = given front) :
    Outcome given front parser reads.flatten (teReads append parser reads) := by
  induction reads generalizing parser front with
  | nil => exact .nil wellFormed isResponse
  | cons buffer reads ih =>
    have first := @teLoop_outcome _ append _ _ _ buffer grows _ wellFormed
      isResponse (Nat.le_refl _)
    rw [teReads, httpteparserRun, List.flatten_cons]
    generalize teLoop append buffer.length parser buffer = result at first ⊢
    cases first with
    | next stillFormed isNext same none =>
      exact Outcome.behind same none (ih stillFormed isNext)
    | complete isBuffer isLast same =>
      refine .complete ?_ isLast same
      rw [isBuffer, List.append_assoc]
    | error none =>
      refine .error fun text content completes comparable => ?_
      refine none text content completes ?_
      cases comparable with
      | inl shorter =>
        exact List.prefix_or_prefix_of_prefix shorter (List.prefix_append _ _)
      | inr longer =>
        exact Or.inr ((List.prefix_append _ _).trans longer)

/-! ## Texts that no body begins with -/

/-- Some text completes the body, unless the digits of a size line have no
value. -/
theorem exists_completes (wellFormed : WellFormed parser) :
    (∃ text content, Completes parser text content) ∨
      parser.stage = .chunksize ∧ hexToDec parser.buf = none := by
  obtain ⟨stage, buf, size, readed, response⟩ := parser
  cases stage with
  | chunksize =>
    cases isSize : hexToDec buf with
    | none => exact Or.inr ⟨rfl, rfl⟩
    | some value =>
      obtain ⟨short, ordinary⟩ := wellFormed
      obtain ⟨rest, content, isAfter⟩ := exists_after value
      refine Or.inl ⟨Byte.semicolon :: ([] ++ (chunkSep ++ rest)), content, ?_⟩
      exact (body_semicolon_iff ordinary).mpr ⟨value, [], rest,
        hexToDec_eq_some_iff.mp isSize, short, List.not_mem_nil, rfl,
        isAfter⟩
  | chunksizeNewline =>
    obtain ⟨rest, content, isAfter⟩ := exists_after size
    exact Or.inl ⟨_, content, rest, rfl, isAfter⟩
  | chunksizeExt =>
    obtain ⟨rest, content, isAfter⟩ := exists_after size
    exact Or.inl ⟨_, content, [], rest, List.not_mem_nil, rfl, isAfter⟩
  | chunk => exact Or.inl (exists_data _)
  | chunkNewline =>
    obtain ⟨_, _, _, _, rest, content, _, _, isBody, _⟩ := exists_data 0
    exact Or.inl ⟨_, content, rest, rfl, isBody⟩
  | trailer =>
    obtain ⟨short, noReturn⟩ := wellFormed
    by_cases isEmpty : buf = []
    · refine Or.inl ⟨[Byte.cr, Byte.lf], [], (trailers_return_iff noReturn short).mpr ?_, rfl⟩
      rw [if_pos isEmpty]
    · refine Or.inl ⟨Byte.cr :: Byte.lf :: chunkSep, [],
        (trailers_return_iff noReturn short).mpr ?_, rfl⟩
      rw [if_neg isEmpty]
      exact ⟨chunkSep, rfl, .final⟩
  | trailerNewline => exact Or.inl ⟨_, _, chunkSep, rfl, .final, rfl⟩
  | trailerFinalNewline => exact Or.inl ⟨_, _, rfl, rfl⟩

theorem hexToDec_append_none {more : Bytes} (isNone : hexToDec buf = none) :
    hexToDec (buf ++ more) = none := by
  rw [hexToDec] at isNone
  rw [hexToDec, List.foldlM_append, isNone]
  rfl

/-- Digits without a value are collected until the line ends or is too long. -/
theorem teLoop_stuck {response : Response} {fuel : Nat} (isNone : hexToDec buf = none)
    (enough : buffer.length ≤ fuel) :
    teLoop append fuel ⟨.chunksize, buf, size, readed, response⟩ buffer = .error ∨
      teLoop append fuel ⟨.chunksize, buf, size, readed, response⟩ buffer =
        .next ⟨.chunksize, buf ++ buffer, size, readed, response⟩ := by
  induction fuel generalizing buf buffer with
  | zero =>
    rw [List.eq_nil_of_length_eq_zero (Nat.le_zero.mp enough), List.append_nil]
    exact Or.inr rfl
  | succ fuel ih =>
    cases buffer with
    | nil =>
      rw [List.append_nil]
      exact Or.inr rfl
    | cons ch rest =>
      have behind := @ih (buf ++ [ch]) rest (hexToDec_append_none isNone)
        (Nat.le_of_succ_le_succ enough)
      rw [List.append_assoc, List.singleton_append] at behind
      simp only [teLoop, tePass, chunksizePass, setChunkSize, isNone]
      split_ifs
      · exact Or.inl rfl
      · exact Or.inl rfl
      · exact Or.inl rfl
      · exact Or.inl rfl
      · exact behind

theorem teReads_stuck {response : Response} {reads : List Bytes} (isNone : hexToDec buf = none) :
    teReads append ⟨.chunksize, buf, size, readed, response⟩ reads = .error ∨
      teReads append ⟨.chunksize, buf, size, readed, response⟩ reads =
        .next ⟨.chunksize, buf ++ reads.flatten, size, readed, response⟩ := by
  induction reads generalizing buf with
  | nil =>
    rw [List.flatten_nil, List.append_nil]
    exact Or.inr rfl
  | cons buffer reads ih =>
    rw [teReads, httpteparserRun]
    rcases @teLoop_stuck _ append buf size readed buffer response _ isNone
        (Nat.le_refl _) with failed | next
    · rw [failed]
      exact Or.inl rfl
    · rw [next, List.flatten_cons, ← List.append_assoc]
      exact ih (hexToDec_append_none isNone)

private theorem teReads_append (reads more : List Bytes) : teReads append parser (reads ++ more) =
      match teReads append parser reads with
      | .next after => teReads append after more
      | .complete after rest => .complete after (rest ++ more.flatten)
      | .error => .error := by
  induction reads generalizing parser with
  | nil => rfl
  | cons buffer reads ih =>
    rw [List.cons_append, teReads, teReads]
    cases httpteparserRun append parser buffer with
    | next after => exact ih
    | complete after rest =>
      simp only [List.flatten_append, List.append_assoc]
    | error => rfl

/-! ## The language of the parser -/

def Reports (append : Response → Bytes → Option Response)
    (response : Response) (reads : List Bytes) : Prop :=
  ∃ after rest, teReads append (httpteparserInit response) reads = .complete after rest

/-- Reading ends with an error, at the latest when ten more bytes are read. -/
def LeadsToError (append : Response → Bytes → Option Response)
    (response : Response) (reads : List Bytes) : Prop :=
  ∀ more : List Bytes, 10 ≤ more.flatten.length →
    teReads append (httpteparserInit response) (reads ++ more) = .error

variable {reads : List Bytes}

theorem init_outcome (grows : Grows append given) (reads : List Bytes) :
    Outcome given [] (httpteparserInit (given [])) reads.flatten
      (teReads append (httpteparserInit (given [])) reads) :=
  teReads_outcome grows reads ⟨Nat.zero_le _, nofun⟩ rfl

theorem reports_iff (grows : Grows append given) :
    Reports append (given []) reads ↔ Begins IsBody reads.flatten := by
  have outcome := init_outcome grows reads
  constructor
  · rintro ⟨after, rest, isComplete⟩
    rw [isComplete] at outcome
    cases outcome with
    | @complete _ used _ gained isText _ same =>
      have completes := (same [] gained).mpr ⟨rfl, rfl⟩
      rw [List.append_nil] at completes
      exact ⟨used, ⟨gained, completes⟩, rest, isText.symm⟩
  · rintro ⟨body, ⟨content, isBody⟩, isFront⟩
    rw [Reports]
    generalize teReads append (httpteparserInit (given [])) reads = result at outcome ⊢
    cases outcome with
    | next _ _ _ none => exact absurd isFront (none body content isBody)
    | complete => exact ⟨_, _, rfl⟩
    | error none => exact absurd (Or.inl isFront) (none body content isBody)

theorem leadsToError_iff (grows : Grows append given) : LeadsToError append (given []) reads ↔
      ¬MayBegin IsBody reads.flatten := by
  constructor
  · rintro isError ⟨body, isBody, comparable⟩
    have enough : ∃ more, body <+: reads.flatten ++ more := by
      cases comparable with
      | inl shorter => exact ⟨[], by rwa [List.append_nil]⟩
      | inr longer =>
        obtain ⟨more, isMore⟩ := longer
        exact ⟨more, isMore ▸ List.prefix_rfl⟩
    obtain ⟨more, isFront⟩ := enough
    have failed := isError [more, List.replicate 10 0] (by
      simp only [List.flatten_cons, List.length_append, List.length_replicate]
      omega)
    have complete := (@reports_iff _ append given
      (reads ++ [more, List.replicate 10 0]) grows).mpr ⟨body, isBody, by
        rw [List.flatten_append, List.flatten_cons, ← List.append_assoc]
        exact isFront.trans (List.prefix_append _ _)⟩
    obtain ⟨after, rest, isComplete⟩ := complete
    cases failed.symm.trans isComplete
  · intro none more long
    have outcome := init_outcome grows reads
    rw [teReads_append]
    generalize teReads append (httpteparserInit (given [])) reads = result at outcome ⊢
    cases outcome with
    | error => rfl
    | @complete _ used rest gained isText _ same =>
      have completes := (same [] gained).mpr ⟨rfl, rfl⟩
      rw [List.append_nil] at completes
      refine absurd ⟨used, ⟨gained, completes⟩, Or.inl ?_⟩ none
      exact ⟨rest, isText.symm⟩
    | @next after gained wellFormed isResponse same _ =>
      rcases exists_completes wellFormed with ⟨text, content, completes⟩ | stuck
      · have isBody := (same text _).mpr ⟨content, rfl, completes⟩
        refine absurd ⟨_, ⟨_, isBody⟩, Or.inr ?_⟩ none
        exact List.prefix_append _ _
      · obtain ⟨stage, buf, size, readed, response⟩ := after
        obtain ⟨isStage, isNone⟩ := stuck
        dsimp only at isStage isNone
        subst isStage
        rcases @teReads_stuck _ append buf size readed response more isNone with failed | isNext
        · exact failed
        · have later := @teReads_outcome _ append _ _ _ grows more wellFormed isResponse
          rw [isNext] at later
          cases later with
          | next stillFormed =>
            have short := stillFormed.1
            rw [List.length_append] at short
            omega

/-- A body is complete with its last byte, and the response has its content. -/
theorem teReads_body (grows : Grows append given) (isBody : Body reads.flatten content) :
    ∃ after, teReads append (httpteparserInit (given [])) reads =
      .complete after [] ∧ after.response = given content := by
  have outcome := init_outcome grows reads
  generalize teReads append (httpteparserInit (given [])) reads = result at outcome ⊢
  cases outcome with
  | next _ _ _ none =>
    exact absurd List.prefix_rfl (none _ content isBody)
  | @complete after used rest gained isText isResponse same =>
    rw [isText] at isBody
    obtain ⟨rfl, rfl⟩ := (same rest content).mp isBody
    exact ⟨after, rfl, isResponse⟩
  | error none =>
    exact absurd (Or.inl List.prefix_rfl) (none _ content isBody)

/-- However a text and its fronts are read, the parser reports the chunked
bodies and leads to an error on what cannot be continued to one, exactly if the
text has none of the features. -/
theorem teReads_chunked_iff (grows : Grows append given) :
    (∀ reads : List Bytes, reads.flatten <+: text →
      (Reports append (given []) reads ↔ Begins Chunked reads.flatten) ∧
        (¬MayBegin Chunked reads.flatten → LeadsToError append (given []) reads)) ↔
      ¬Deviates text := by
  rw [← agree_iff_not_deviates]
  simp only [reports_iff grows, leadsToError_iff grows, not_imp_not]
  constructor
  · intro agree front isFront
    have single := agree [front]
    rw [List.flatten_singleton] at single
    exact single isFront
  · exact fun agree reads => agree reads.flatten

def appendPayload (payload data : Bytes) : Option Bytes := some (payload ++ data)

private theorem grows_appendPayload (payload : Bytes) :
    Grows appendPayload fun front => payload ++ front := by
  intro front data
  rw [appendPayload, List.append_assoc]

/-- The text `0 CR LF CR LF` has none of the features. -/
theorem teReads_chunked_zero : (Reports appendPayload [] [ascii "0\r", ascii "\n\r\n"] ↔
        Begins Chunked (ascii "0\r\n\r\n")) ∧
      (¬MayBegin Chunked (ascii "0\r\n\r\n") →
        LeadsToError appendPayload [] [ascii "0\r", ascii "\n\r\n"]) := by
  have isSize : Digits (ascii "0") 0 := ⟨forall_mem_of_all (by decide), by decide, by decide⟩
  have isChunked : Chunked (ascii "0\r\n\r\n") := .last (by decide) isSize
  have isBody : Body (ascii "0\r\n\r\n") [] := .last isSize (.plain (by decide)) .final
  refine (@teReads_chunked_iff (ascii "0\r\n\r\n") Bytes appendPayload id
    fun _ _ => rfl).mpr ?_ [ascii "0\r", ascii "\n\r\n"] List.prefix_rfl
  intro deviates
  obtain ⟨front, isPrefix, ⟨_, none⟩ | ⟨⟨body, isOther, isBegin⟩, none⟩⟩ := deviates.exists_front
  · exact none ⟨_, isChunked, .inr isPrefix⟩
  · obtain ⟨_, _, _, _, isDigits, rfl, isRest⟩ := isOther.sizeLine
    obtain ⟨rfl, rfl, _⟩ := byByte_front.sizeLine isDigits isSize (isBegin.trans isPrefix)
    rcases isRest with ⟨-, rfl⟩ | ⟨data, _, isLength, hasData, _⟩
    · exact none ⟨_, ⟨_, isBody⟩, isBegin⟩
    · exact hasData (List.eq_nil_of_length_eq_zero isLength.symm)

/-- A size line without digits ends the body. -/
theorem teReads_without_digits : Reports appendPayload [] [ascii "\r\n\r\n"] ∧
      ¬MayBegin Chunked (ascii "\r\n\r\n") := by
  refine ⟨⟨_, _, rfl⟩, ?_⟩
  have first : ∀ {digits rest : Bytes} {size : Nat}, digits ≠ [] → Digits digits size →
      ¬(digits ++ rest <+: ascii "\r\n\r\n" ∨ ascii "\r\n\r\n" <+: digits ++ rest) := by
    intro digits rest size nonempty isSize comparable
    cases digits with
    | nil => exact nonempty rfl
    | cons digit digits =>
      have isDigit := isSize.isHexadecimal digit List.mem_cons_self
      have isReturn : digit = Byte.cr := by
        cases comparable with
        | inl shorter => exact (List.cons_prefix_cons.mp shorter).1
        | inr longer => exact (List.cons_prefix_cons.mp longer).1.symm
      rw [isReturn] at isDigit
      cases isDigit
  rintro ⟨body, isBody, comparable⟩
  cases isBody with
  | last nonempty isSize => exact first nonempty isSize comparable
  | chunk nonempty isSize => exact first nonempty isSize comparable

end Passes

/-! ## Bodies of the filter -/

private theorem digits_hexadecimal {size : Nat} (small : size ≤ bufoMaxCapacity) :
    Digits (hexadecimal size) size :=
  ⟨hexadecimal_digits size, hexValue_hexadecimal size, small.trans (by decide)⟩

/-- What the filter writes for some buffers. -/
theorem body_frames {pieces : List Bytes} (sized : ∀ data ∈ pieces, data.length ≤ bufoMaxCapacity) :
    Body (pieces.flatMap (frameFrom 0) ++ chunkEnd) pieces.flatten := by
  induction pieces with
  | nil =>
    exact .last (digits_hexadecimal (Nat.zero_le _)) (.plain (by decide)) .final
  | cons data pieces ih =>
    obtain ⟨small, others⟩ := List.forall_mem_cons.mp sized
    rw [List.flatMap_cons, List.flatten_cons]
    by_cases isEmpty : data = []
    · rw [isEmpty]
      exact ih others
    · have short : (hexadecimal data.length).length ≤ 8 :=
        length_numeral_le (by decide) (by decide) (Nat.lt_of_le_of_lt small (by decide))
      have isBody := Body.chunk (digits_hexadecimal small) (.plain short)
        isEmpty List.not_mem_nil (ih others)
      rw [frameFrom, if_neg isEmpty, List.drop_zero, chunkHeadText]
      simp only [List.append_assoc, List.nil_append] at isBody ⊢
      exact isBody

section Transfer

variable {capacity : Nat} {init : List Bytes} {last : Bytes}
  {answers : List Nat} {reads : List Bytes}

/-- The client reads what the filter has written. -/
theorem chunkedFilter_received (positive : 0 < capacity) (filled : ∀ data ∈ init, data ≠ [])
    (sized : ∀ data ∈ init ++ [last], data.length ≤ bufoMaxCapacity)
    (finished : (Streaming.deliver (chunkedFill capacity) answers
      (chunkedSource (init ++ [last]))).ending = .finished)
    (isSent : reads.flatten = (Streaming.deliver (chunkedFill capacity) answers
      (chunkedSource (init ++ [last]))).sent) (payload : Bytes) :
    ∃ after, teReads appendPayload (httpteparserInit payload) reads = .complete after [] ∧
        after.response = payload ++ (written capacity init last).flatten := by
  have delivers := (chunkedFilter_delivers positive filled sized answers).1
  rw [delivers.whole finished] at isSent
  have sizedWritten : ∀ data ∈ written capacity init last, data.length ≤ bufoMaxCapacity := by
    intro data member
    rw [written] at member
    split_ifs at member
    · exact sized data member
    · exact sized data (List.mem_append_left _ member)
  have isBody := body_frames sizedWritten
  rw [← isSent] at isBody
  have read := teReads_body (grows_appendPayload payload) isBody
  rw [List.append_nil] at read
  exact read

/-- The client appends the whole body if and only if the filter has no line end
left over for the last buffer, or that buffer is empty. -/
theorem chunkedFilter_transfer (positive : 0 < capacity) (filled : ∀ data ∈ init, data ≠ [])
    (sized : ∀ data ∈ init ++ [last], data.length ≤ bufoMaxCapacity)
    (finished : (Streaming.deliver (chunkedFill capacity) answers
      (chunkedSource (init ++ [last]))).ending = .finished)
    (isSent : reads.flatten = (Streaming.deliver (chunkedFill capacity) answers
      (chunkedSource (init ++ [last]))).sent) (payload : Bytes) :
    (∃ after, teReads appendPayload (httpteparserInit payload) reads = .complete after [] ∧
          after.response = payload ++ (init ++ [last]).flatten) ↔
      lineEndsLeft capacity init = 0 ∨ last = [] := by
  obtain ⟨after, isComplete, isResponse⟩ :=
    chunkedFilter_received positive filled sized finished isSent payload
  have isPayload : (∃ after, teReads appendPayload (httpteparserInit payload) reads =
        .complete after [] ∧ after.response = payload ++ (init ++ [last]).flatten) ↔
      (written capacity init last).flatten = (init ++ [last]).flatten := by
    constructor
    · rintro ⟨other, isOther, same⟩
      cases isComplete.symm.trans isOther
      exact List.append_cancel_left (isResponse.symm.trans same)
    · intro same
      exact ⟨after, isComplete, same ▸ isResponse⟩
  rw [isPayload, written]
  split_ifs with isNone
  · exact iff_of_true rfl (Or.inl isNone)
  · rw [List.flatten_append, List.flatten_singleton, List.self_eq_append_right]
    exact ⟨Or.inr, fun either => either.resolve_left isNone⟩

theorem chunkedFilter_transfer_letters : ∃ after, teReads appendPayload (httpteparserInit [])
        [ascii "2\r\nab\r", ascii "\n1\r\nc\r\n0\r\n\r\n"] =
      .complete after [] ∧ after.response = ascii "abc" :=
  (@chunkedFilter_transfer 10 [ascii "ab"] (ascii "c") (List.replicate 20 100)
    [ascii "2\r\nab\r", ascii "\n1\r\nc\r\n0\r\n\r\n"] (by decide)
    (forall_mem_of_all (by decide)) (forall_mem_of_all (by decide))
    (by decide) (by decide) []).mpr (Or.inl (by decide))

/-- A socket that takes a byte at a time lets the filter come to its end. -/
theorem chunkedFilter_finishes (positive : 0 < capacity) (filled : ∀ data ∈ init, data ≠ [])
    (sized : ∀ data ∈ init ++ [last], data.length ≤ bufoMaxCapacity) :
    ∃ answers : List Nat, (Streaming.deliver (chunkedFill capacity) answers
      (chunkedSource (init ++ [last]))).ending = .finished := by
  have delivers := chunkedFilter_delivers positive filled sized
  generalize (written capacity init last).flatMap (frameFrom 0) ++ chunkEnd = text at delivers
  refine ⟨_, (delivers (List.replicate (text.length + 1) 1)).2 ?_ ?_⟩
  · intro taken member
    rw [List.eq_of_mem_replicate member]
    exact Nat.one_pos
  · rw [List.length_replicate]
    exact Nat.lt_succ_self _

/-- The last buffer does not reach the client. -/
theorem chunkedFilter_transfer_lost : ∃ answers : List Nat,
      let delivery := Streaming.deliver (chunkedFill chunkedBufSize) answers
        (chunkedSource [List.replicate 16377 97, ascii "c"])
      delivery.ending = .finished ∧
      ∃ after, teReads appendPayload (httpteparserInit []) [delivery.sent] = .complete after [] ∧
          after.response = List.replicate 16377 97 := by
  obtain ⟨answers, finished⟩ := @chunkedFilter_finishes chunkedBufSize
    [List.replicate 16377 97] (ascii "c") (by decide) longBuffer_ne_nil
    longBuffer_sized
  refine ⟨answers, finished, ?_⟩
  have received := chunkedFilter_received (by decide) longBuffer_ne_nil
    longBuffer_sized finished List.flatten_singleton []
  rw [written, lineEndsLeft_chunkedBufSize, if_neg Nat.one_ne_zero,
    List.flatten_singleton, List.nil_append] at received
  exact received

end Transfer

end CWebFramework.HttpClient
