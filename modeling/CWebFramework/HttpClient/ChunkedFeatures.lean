import CWebFramework.HttpClient.ChunkedGrammar

/-!
# Where the parser and the grammar of chunked bodies part

The features of a text that make the transfer-encoding parser accept what is no
chunked body, or refuse one: a size line without digits, with an extension or
with more than eight digits, bytes between the data of a chunk and its line end,
and lines behind the last chunk.  On the fronts of a text without them the two
agree, and only on these.
-/

namespace CWebFramework.HttpClient

open Http

variable {text content : Bytes}

/-- What the parser takes for a body, whatever its content is. -/
def IsBody (text : Bytes) : Prop := ∃ content, Body text content

/-- A text of a language is the front of a text. -/
def Begins (language : Bytes → Prop) (text : Bytes) : Prop := ∃ body, language body ∧ body <+: text

/-- A text has or may get a text of a language as its front. -/
def MayBegin (language : Bytes → Prop) (text : Bytes) : Prop :=
  ∃ body, language body ∧ (body <+: text ∨ text <+: body)

theorem exists_data (left : Nat) : ∃ text content, Data left text content := by
  have isBody : Body ([] ++ (chunkSep ++ chunkSep)) [] :=
    .last ⟨nofun, rfl, by decide⟩ (.plain (Nat.zero_le _)) .final
  exact ⟨_, _, List.replicate left 0, [], _, _, List.length_replicate,
    List.not_mem_nil, isBody, rfl, rfl⟩

theorem exists_after (size : Nat) : ∃ text content, After size text content := by
  by_cases isZero : size = 0
  · simp only [After, if_pos isZero]
    exact ⟨_, _, .final, rfl⟩
  · simp only [After, if_neg isZero]
    exact exists_data size

theorem ByByte.sizeLine {relates : Bytes → Bytes → Prop} (byByte : ByByte relates)
    {digits other rest behind : Bytes} {size left : Nat} (isSize : Digits digits size)
    (isOther : Digits other left)
    (related : relates (digits ++ (chunkSep ++ rest)) (other ++ (chunkSep ++ behind))) :
    digits = other ∧ size = left ∧ relates rest behind := by
  obtain ⟨rfl, -, isRest⟩ := byByte.split isSize.ordinary isOther.ordinary
    not_ordinary_cr not_ordinary_cr related
  exact ⟨rfl, isSize.isValue.symm.trans isOther.isValue, (byByte.mp isRest).2⟩

theorem Digits.nonempty {digits data : Bytes}
    (isSize : Digits digits data.length) (hasData : data ≠ []) :
    digits ≠ [] := by
  rintro rfl
  exact hasData (List.eq_nil_of_length_eq_zero isSize.isValue.symm)

structure ShortDigits (digits : Bytes) (size : Nat) : Prop extends Digits digits size where
  nonempty : digits ≠ []
  short : digits.length ≤ 8

/-- What makes the parser or the grammar refuse what the other one accepts, at
the beginning of a size line or behind some chunks. -/
inductive Deviates : Bytes → Prop where
  | noDigits {rest : Bytes} : Deviates (Byte.cr :: rest)
  | extension {digits rest : Bytes} {size : Nat} (isSize : Digits digits size)
      (short : digits.length ≤ 9) :
      Deviates (digits ++ Byte.semicolon :: rest)
  /-- The data of a chunk is not followed by a line end. -/
  | junk {digits data rest : Bytes} {byte : UInt8}
      (isSize : ShortDigits digits data.length) (hasData : data ≠ [])
      (notReturn : byte ≠ Byte.cr) :
      Deviates (digits ++ (chunkSep ++ (data ++ byte :: rest)))
  | trailer {digits rest : Bytes} {byte : UInt8}
      (isSize : ShortDigits digits 0) (notReturn : byte ≠ Byte.cr) :
      Deviates (digits ++ (chunkSep ++ byte :: rest))
  /-- A whole body with too many digits, leading zeros for instance. -/
  | longSize {digits behind rest : Bytes} {size : Nat}
      (isSize : Digits digits size) (long : 8 < digits.length)
      (isBody : Chunked (digits ++ (chunkSep ++ behind))) :
      Deviates (digits ++ (chunkSep ++ (behind ++ rest)))
  | behind {digits data rest : Bytes}
      (isSize : ShortDigits digits data.length) (hasData : data ≠ [])
      (isRest : Deviates rest) :
      Deviates (digits ++ (chunkSep ++ (data ++ (chunkSep ++ rest))))

theorem Deviates.of_front {front : Bytes} (deviates : Deviates front)
    (isFront : front <+: text) : Deviates text := by
  obtain ⟨more, rfl⟩ := isFront
  induction deviates with
  | noDigits => exact .noDigits
  | extension isSize short =>
    rw [List.append_assoc]
    exact .extension isSize short
  | junk isSize hasData notReturn =>
    simp only [List.append_assoc]
    exact .junk isSize hasData notReturn
  | trailer isSize notReturn =>
    simp only [List.append_assoc]
    exact .trailer isSize notReturn
  | longSize isSize long isBody =>
    simp only [List.append_assoc]
    exact .longSize isSize long isBody
  | behind isSize hasData _ ih =>
    simp only [List.append_assoc]
    exact .behind isSize hasData ih

/-- A body of the parser has a feature, or is a chunked body. -/
theorem Body.deviates_or_chunked (isBody : Body text content) : Deviates text ∨ Chunked text := by
  induction isBody with
  | @last digits line rest isSize isLine isRest =>
    cases isLine with
    | extended short _ => exact .inl (.extension isSize short)
    | plain short =>
      by_cases isEmpty : digits = []
      · rw [isEmpty]
        exact .inl .noDigits
      cases isRest with
      | final => exact .inr (.last isEmpty isSize)
      | @line line _ nonempty _ noReturn _ =>
        obtain ⟨byte, line, rfl⟩ := List.exists_cons_of_ne_nil nonempty
        exact .inl (.trailer ⟨isSize, isEmpty, short⟩ (Ne.symm (List.ne_of_not_mem_cons noReturn)))
  | @chunk digits line data junk rest content isSize isLine hasData noReturn isRest ih =>
      cases isLine with
      | extended short _ => exact .inl (.extension isSize short)
      | plain short =>
        have isShort : ShortDigits digits data.length := ⟨isSize, isSize.nonempty hasData, short⟩
        cases junk with
        | cons byte junk =>
          exact .inl (.junk isShort hasData (Ne.symm (List.ne_of_not_mem_cons noReturn)))
        | nil =>
          exact ih.imp (.behind isShort hasData) (.chunk isShort.nonempty isSize hasData)

/-- A chunked body has a feature, or is one of the parser. -/
theorem Chunked.deviates_or_isBody (isChunked : Chunked text) : Deviates text ∨ IsBody text := by
  have long {digits behind : Bytes} {size : Nat} (isSize : Digits digits size)
      (isLong : ¬digits.length ≤ 8)
      (isBody : Chunked (digits ++ (chunkSep ++ behind))) :
      Deviates (digits ++ (chunkSep ++ behind)) := by
    have deviates := @Deviates.longSize digits behind [] size isSize (Nat.not_le.mp isLong) isBody
    rwa [List.append_nil] at deviates
  induction isChunked with
  | @last digits nonempty isSize =>
    by_cases short : digits.length ≤ 8
    · exact .inr ⟨_, .last isSize (.plain short) .final⟩
    · exact .inl (long isSize short (.last nonempty isSize))
  | @chunk digits data rest nonempty isSize hasData isRest ih =>
    by_cases short : digits.length ≤ 8
    · refine ih.imp (.behind ⟨isSize, nonempty, short⟩ hasData) ?_
      rintro ⟨content, isBody⟩
      exact ⟨_, @Body.chunk _ _ data [] _ _ isSize (.plain short) hasData List.not_mem_nil isBody⟩
    · exact .inl (long isSize short (.chunk nonempty isSize hasData isRest))

private theorem exists_chunked {digits : Bytes} {size : Nat} (nonempty : digits ≠ [])
    (isSize : Digits digits size) :
    ∃ rest, Chunked (digits ++ (chunkSep ++ rest)) := by
  have zero : Chunked (ascii "0" ++ (chunkSep ++ chunkSep)) :=
    .last (by decide) ⟨forall_mem_of_all (by decide), by decide, by decide⟩
  by_cases isZero : size = 0
  · exact ⟨chunkSep, .last nonempty (isZero ▸ isSize)⟩
  · have isLength : (List.replicate size (0 : UInt8)).length = size := List.length_replicate
    refine ⟨_, .chunk nonempty (isLength.symm ▸ isSize) ?_ zero⟩
    exact List.length_pos_iff.mp (isLength.symm ▸ Nat.pos_of_ne_zero isZero)

/-- The front of a text either ends in front of its other part or has a front
of this. -/
theorem prefix_append_cases {front rest : Bytes} (isFront : text <+: front ++ rest) :
    text <+: front ∨ ∃ later, text = front ++ later ∧ later <+: rest := by
  rcases List.prefix_or_prefix_of_prefix isFront
      (List.prefix_append front rest) with shorter | ⟨later, rfl⟩
  · exact .inl shorter
  · exact .inr ⟨later, rfl, (List.prefix_append_right_inj front).mp isFront⟩

theorem MayBegin.of_front {body front : Bytes} (isChunked : Chunked body)
    (isFront : text <+: front) (isBody : front <+: body) :
    MayBegin Chunked text :=
  ⟨body, isChunked, .inr (isFront.trans isBody)⟩

/-- The case of a feature that one byte shows. -/
theorem deviates_or_mayBegin {front rest body : Bytes} {byte : UInt8} (isChunked : Chunked body)
    (isBody : front <+: body) (deviates : ∀ rest, Deviates (front ++ byte :: rest))
    (isFront : text <+: front ++ byte :: rest) :
    Deviates text ∨ MayBegin Chunked text := by
  rcases prefix_append_cases isFront with shorter | ⟨later, rfl, isLater⟩
  · exact .inr (.of_front isChunked shorter isBody)
  cases later with
  | nil =>
    rw [List.append_nil]
    exact .inr (.of_front isChunked List.prefix_rfl isBody)
  | cons other later =>
    obtain ⟨rfl, _⟩ := List.cons_prefix_cons.mp isLater
    exact .inl (deviates later)

/-- In front of its feature a text may go on to a chunked body. -/
theorem Deviates.front {body : Bytes} (deviates : Deviates body)
    (isFront : text <+: body) : Deviates text ∨ MayBegin Chunked text := by
  obtain ⟨_, zero⟩ := @exists_chunked (ascii "0") 0 (by decide)
    ⟨forall_mem_of_all (by decide), by decide, by decide⟩
  induction deviates generalizing text with
  | noDigits =>
    exact deviates_or_mayBegin zero List.nil_prefix (fun _ => .noDigits) isFront
  | @extension digits rest size isSize short =>
    by_cases isEmpty : digits = []
    · rw [isEmpty] at isFront isSize
      exact deviates_or_mayBegin zero List.nil_prefix
        (fun _ => .extension isSize (Nat.zero_le _)) isFront
    · obtain ⟨_, isChunked⟩ := exists_chunked isEmpty isSize
      exact deviates_or_mayBegin isChunked (List.prefix_append _ _)
        (fun _ => .extension isSize short) isFront
  | @junk digits data rest byte isSize hasData notReturn =>
    have isChunked := Chunked.chunk isSize.nonempty isSize.toDigits hasData zero
    have again (rest : Bytes) := @Deviates.junk _ _ rest _ isSize hasData notReturn
    simp only [← List.append_assoc] at isChunked again isFront
    exact deviates_or_mayBegin isChunked
      (by simp only [List.append_assoc, List.prefix_append_right_inj,
            List.prefix_append]) again isFront
  | @trailer digits rest byte isSize notReturn =>
    have isChunked := Chunked.last isSize.nonempty isSize.toDigits
    have again (rest : Bytes) := @Deviates.trailer _ rest _ isSize notReturn
    simp only [← List.append_assoc] at isChunked again isFront
    exact deviates_or_mayBegin isChunked (List.prefix_append _ _) again isFront
  | @longSize digits behind rest size isSize long isBody =>
    simp only [← List.append_assoc] at isFront
    rcases prefix_append_cases isFront with shorter | ⟨later, rfl, _⟩
    · rw [List.append_assoc] at shorter
      exact .inr (.of_front isBody shorter List.prefix_rfl)
    · simp only [List.append_assoc]
      exact .inl (.longSize isSize long isBody)
  | @behind digits data rest isSize hasData isRest ih =>
    have isChunked := Chunked.chunk isSize.nonempty isSize.toDigits hasData zero
    simp only [← List.append_assoc] at isFront
    rcases prefix_append_cases isFront with shorter | ⟨later, rfl, isLater⟩
    · simp only [List.append_assoc] at shorter
      refine .inr (.of_front isChunked shorter ?_)
      simp only [List.prefix_append_right_inj, List.prefix_append]
    · simp only [List.append_assoc]
      refine (ih isLater).imp (.behind isSize hasData) ?_
      rintro ⟨body, isBody, comparable⟩
      refine ⟨_, .chunk isSize.nonempty isSize.toDigits hasData isBody, ?_⟩
      simpa only [List.prefix_append_right_inj] using comparable

/-- Without a feature the parser and the grammar agree. -/
theorem agree_of_not_deviates (proper : ¬Deviates text) :
    (Begins IsBody text ↔ Begins Chunked text) ∧
      (MayBegin IsBody text → MayBegin Chunked text) := by
  have properFront {body : Bytes} (isFront : body <+: text) :
      ¬Deviates body := fun deviates => proper (deviates.of_front isFront)
  have begins : Begins IsBody text → Begins Chunked text := by
    rintro ⟨body, ⟨content, isBody⟩, isFront⟩
    exact ⟨body, isBody.deviates_or_chunked.resolve_left (properFront isFront), isFront⟩
  refine ⟨⟨begins, ?_⟩, ?_⟩
  · rintro ⟨body, isChunked, isFront⟩
    exact ⟨body, isChunked.deviates_or_isBody.resolve_left (properFront isFront), isFront⟩
  · rintro ⟨body, ⟨content, isBody⟩, isFront | isFront⟩
    · obtain ⟨other, isChunked, isOther⟩ := begins ⟨body, ⟨content, isBody⟩, isFront⟩
      exact ⟨other, isChunked, .inl isOther⟩
    · rcases isBody.deviates_or_chunked with deviates | isChunked
      · exact (deviates.front isFront).resolve_left proper
      · exact ⟨body, isChunked, .inr isFront⟩

/-! ## Features are read -/

theorem Chunked.sizeLine (isChunked : Chunked text) :
    ∃ digits size rest, digits ≠ [] ∧ Digits digits size ∧ text = digits ++ (chunkSep ++ rest) ∧
        (size = 0 ∧ rest = chunkSep ∨ ∃ data more, size = data.length ∧ data ≠ [] ∧ Chunked more ∧
            rest = data ++ (chunkSep ++ more)) := by
  cases isChunked with
  | last nonempty isSize =>
    exact ⟨_, 0, _, nonempty, isSize, rfl, .inl ⟨rfl, rfl⟩⟩
  | chunk nonempty isSize hasData isRest =>
    exact ⟨_, _, _, nonempty, isSize, rfl, .inr ⟨_, _, rfl, hasData, isRest, rfl⟩⟩

/-- What a text that begins with a size line has behind it. -/
theorem MayBegin.sizeLine {digits rest : Bytes} {size : Nat} (isSize : Digits digits size)
    (mayBegin : MayBegin Chunked (digits ++ (chunkSep ++ rest))) :
    (size = 0 ∧ Comparable chunkSep rest) ∨
      ∃ data more, size = data.length ∧ data ≠ [] ∧ Chunked more ∧
        Comparable (data ++ (chunkSep ++ more)) rest := by
  obtain ⟨_, isChunked, comparable⟩ := mayBegin
  obtain ⟨_, _, _, _, isOther, rfl, isRest⟩ := isChunked.sizeLine
  obtain ⟨-, rfl, isBehind⟩ := byByte_comparable.sizeLine isOther isSize comparable
  rcases isRest with ⟨isZero, rfl⟩ | ⟨data, more, isLength, hasData, isMore, rfl⟩
  · exact .inl ⟨isZero, isBehind⟩
  · exact .inr ⟨data, more, isLength, hasData, isMore, isBehind⟩

/-- A body in front of a text reads the size line of the text. -/
theorem Begins.sizeLine {digits rest : Bytes} {size : Nat} (isSize : Digits digits size)
    (begins : Begins IsBody (digits ++ (chunkSep ++ rest))) :
    digits.length ≤ 8 ∧ ∃ behind content, After size behind content ∧ behind <+: rest := by
  obtain ⟨_, ⟨content, isBody⟩, isFront⟩ := begins
  obtain ⟨other, _, _, behind, isOther, isLine, isAfter, rfl⟩ := body_iff.mp isBody
  cases isLine with
  | extended short noReturn =>
    obtain ⟨_, impossible, _⟩ := byByte_front.split isOther.ordinary
      isSize.ordinary not_ordinary_semicolon not_ordinary_cr isFront
    cases impossible
  | plain short =>
    obtain ⟨rfl, rfl, isBehind⟩ := byByte_front.sizeLine isOther isSize isFront
    exact ⟨short, behind, content, isAfter, isBehind⟩

theorem Begins.behind {digits data rest : Bytes}
    (isSize : Digits digits data.length) (hasData : data ≠ [])
    (begins : Begins IsBody (digits ++ (chunkSep ++ (data ++ (chunkSep ++ rest))))) :
    Begins IsBody rest := by
  obtain ⟨-, _, _, isAfter, isBehind⟩ := begins.sizeLine isSize
  rw [After, if_neg (mt List.eq_nil_of_length_eq_zero hasData)] at isAfter
  obtain ⟨_, junk, later, more, sameLength, noReturn, isLater, rfl, -⟩ := isAfter
  obtain ⟨-, isRest⟩ := byByte_front.append sameLength isBehind
  obtain ⟨-, -, isNext⟩ := @ByByte.split _ _ _ byByte_front (· ≠ Byte.cr)
    junk [] Byte.cr Byte.cr (fun _ isIn same => noReturn (same ▸ isIn))
    (List.forall_mem_nil _) (not_not_intro rfl) (not_not_intro rfl) isRest
  exact ⟨later, ⟨more, isLater⟩, (byByte_front.mp isNext).2⟩

theorem MayBegin.behind {digits data rest : Bytes}
    (isSize : Digits digits data.length) (hasData : data ≠ [])
    (mayBegin : MayBegin Chunked (digits ++ (chunkSep ++ (data ++ rest)))) :
    ∃ more, Chunked more ∧ Comparable (chunkSep ++ more) rest := by
  rcases mayBegin.sizeLine isSize with ⟨isZero, _⟩ | ⟨other, more, isLength, _, isMore, comparable⟩
  · exact absurd (List.eq_nil_of_length_eq_zero isZero) hasData
  · obtain ⟨-, isRest⟩ := byByte_comparable.append isLength.symm comparable
    exact ⟨more, isMore, isRest⟩

/-- One of the two goes on where the other one refuses the text. -/
def Parts (text : Bytes) : Prop :=
  MayBegin IsBody text ∧ ¬MayBegin Chunked text ∨ Begins Chunked text ∧ ¬Begins IsBody text

theorem parts_of_begun {front body content : Bytes} (isBody : Body body content)
    (isFront : front <+: body) (none : ¬MayBegin Chunked front) : Parts front :=
  .inl ⟨⟨body, ⟨content, isBody⟩, .inr isFront⟩, none⟩

private theorem body_final : Body ([] ++ (chunkSep ++ chunkSep)) [] :=
  .last ⟨List.forall_mem_nil _, rfl, by decide⟩ (.plain (by decide)) .final

theorem parts_return : Parts [Byte.cr] := by
  refine parts_of_begun body_final ⟨_, rfl⟩ ?_
  rintro ⟨_, isChunked, comparable⟩
  obtain ⟨_, _, _, nonempty, isSize, rfl, _⟩ := isChunked.sizeLine
  exact nonempty (@ByByte.split _ _ _ byByte_comparable _ _ [] _ _
    isSize.ordinary (List.forall_mem_nil _) not_ordinary_cr not_ordinary_cr comparable).1

theorem Digits.parts_semicolon {digits : Bytes} {size : Nat} (isSize : Digits digits size)
    (short : digits.length ≤ 9) : Parts (digits ++ [Byte.semicolon]) := by
  obtain ⟨behind, content, isAfter⟩ := exists_after size
  have isBody := body_iff.mpr ⟨digits, size, _, behind, isSize,
    .extended short List.not_mem_nil, isAfter, rfl⟩
  refine parts_of_begun isBody ((List.prefix_append_right_inj _).mpr ⟨_, rfl⟩) ?_
  rintro ⟨_, isChunked, comparable⟩
  obtain ⟨_, _, _, _, isOther, rfl, _⟩ := isChunked.sizeLine
  obtain ⟨_, impossible, _⟩ := byByte_comparable.split isOther.ordinary
    isSize.ordinary not_ordinary_cr not_ordinary_semicolon comparable
  cases impossible

theorem ShortDigits.parts_junk {digits data : Bytes} {byte : UInt8}
    (isSize : ShortDigits digits data.length) (hasData : data ≠ [])
    (notReturn : byte ≠ Byte.cr) : Parts (digits ++ (chunkSep ++ (data ++ [byte]))) := by
  have isBody := @Body.chunk digits chunkSep data [byte] _ _
    isSize.toDigits (.plain isSize.short) hasData
    (fun isIn => notReturn (List.mem_singleton.mp isIn).symm) body_final
  refine parts_of_begun isBody ?_ fun mayBegin => ?_
  · simp only [List.prefix_append_right_inj, List.prefix_append]
  · obtain ⟨_, _, comparable⟩ := mayBegin.behind isSize.toDigits hasData
    exact notReturn (byByte_comparable.mp comparable).1.symm

theorem ShortDigits.parts_trailer {digits : Bytes} {byte : UInt8}
    (isSize : ShortDigits digits 0) (notReturn : byte ≠ Byte.cr) :
    Parts (digits ++ (chunkSep ++ [byte])) := by
  have isBody := Body.last isSize.toDigits (.plain isSize.short)
    (@Trailers.line [byte] _ (List.cons_ne_nil _ _) (by simp)
      (fun isIn => notReturn (List.mem_singleton.mp isIn).symm) .final)
  refine parts_of_begun isBody ?_ fun mayBegin => ?_
  · simp only [List.prefix_append_right_inj, List.prefix_append]
  · rcases mayBegin.sizeLine isSize.toDigits with ⟨_, comparable⟩ |
      ⟨data, _, isLength, hasData, _⟩
    · exact notReturn (byByte_comparable.mp comparable).1.symm
    · exact hasData (List.eq_nil_of_length_eq_zero isLength.symm)

/-- Behind a chunk that both read they part where they do without it. -/
theorem Parts.behind {digits data front : Bytes} (parts : Parts front)
    (isSize : ShortDigits digits data.length) (hasData : data ≠ []) :
    Parts (digits ++ (chunkSep ++ (data ++ (chunkSep ++ front)))) := by
  obtain ⟨⟨body, ⟨content, isBody⟩, comparable⟩, none⟩ | ⟨⟨body, isBody, isBegin⟩, none⟩ := parts
  · refine .inl ⟨⟨_, ⟨_, @Body.chunk digits chunkSep data [] _ _ isSize.toDigits
      (.plain isSize.short) hasData List.not_mem_nil isBody⟩, ?_⟩, fun mayBegin => none ?_⟩
    · simpa only [List.prefix_append_right_inj, List.nil_append] using comparable
    · obtain ⟨more, isMore, comparable⟩ := mayBegin.behind isSize.toDigits hasData
      exact ⟨more, isMore, (byByte_comparable.mp (byByte_comparable.mp comparable).2).2⟩
  · refine .inr ⟨⟨_, .chunk isSize.nonempty isSize.toDigits hasData isBody, ?_⟩,
      fun begins => none (begins.behind isSize.toDigits hasData)⟩
    simpa only [List.prefix_append_right_inj] using isBegin

/-- A feature of the text is read by one of the two only. -/
theorem Deviates.exists_front (deviates : Deviates text) :
    ∃ front, front <+: text ∧ Parts front := by
  induction deviates with
  | @noDigits rest => exact ⟨_, ⟨rest, rfl⟩, parts_return⟩
  | extension isSize short =>
    exact ⟨_, (List.prefix_append_right_inj _).mpr ⟨_, rfl⟩, isSize.parts_semicolon short⟩
  | @junk digits data rest byte isSize hasData notReturn =>
    refine ⟨_, ?_, isSize.parts_junk hasData notReturn⟩
    simp only [List.prefix_append_right_inj]
    exact ⟨rest, rfl⟩
  | @trailer digits rest byte isSize notReturn =>
    refine ⟨_, ?_, isSize.parts_trailer notReturn⟩
    simp only [List.prefix_append_right_inj]
    exact ⟨rest, rfl⟩
  | @longSize digits behind rest size isSize long isBody =>
    refine ⟨digits ++ (chunkSep ++ behind), ?_, .inr ⟨⟨_, isBody, List.prefix_rfl⟩, ?_⟩⟩
    · simp only [List.prefix_append_right_inj, List.prefix_append]
    · exact fun begins => absurd long (Nat.not_lt.mpr (begins.sizeLine isSize).1)
  | behind isSize hasData isRest ih =>
    obtain ⟨front, isFront, parts⟩ := ih
    refine ⟨_, ?_, parts.behind isSize hasData⟩
    simpa only [List.prefix_append_right_inj] using isFront

/-- The parser and the grammar agree on all fronts of a text exactly if it has
none of the features. -/
theorem agree_iff_not_deviates : (∀ front, front <+: text →
      (Begins IsBody front ↔ Begins Chunked front) ∧
        (MayBegin IsBody front → MayBegin Chunked front)) ↔
      ¬Deviates text := by
  constructor
  · intro agree deviates
    obtain ⟨front, isFront, ⟨mayBegin, none⟩ | ⟨begins, none⟩⟩ := deviates.exists_front
    · exact none ((agree front isFront).2 mayBegin)
    · exact none ((agree front isFront).1.mpr begins)
  · intro proper front isFront
    exact agree_of_not_deviates fun deviates =>
      proper (deviates.of_front isFront)

end CWebFramework.HttpClient
