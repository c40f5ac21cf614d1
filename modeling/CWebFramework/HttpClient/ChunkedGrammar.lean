import CWebFramework.HttpClient.TransferDecoding

/-!
# What the transfer-encoding parser accepts

The texts for which `httpteparser_run` reports that the body is complete.  They
are more than the chunked bodies: a size line may have no digits or an
extension, any bytes but a carriage return may follow the data of a chunk, and
lines may follow the last chunk.
-/

namespace CWebFramework.HttpClient

open Http

/-! ## Bodies -/

/-- The digits of a size within the range of the parser. -/
structure Digits (digits : Bytes) (size : Nat) : Prop where
  isHexadecimal : ∀ digit ∈ digits, (hexCharToInt digit).isSome = true
  isValue : hexValue digits = size
  inRange : size ≤ 2147483647

/-- Chunked bodies without extensions and trailers. -/
inductive Chunked : Bytes → Prop where
  | last {digits : Bytes} (nonempty : digits ≠ []) (isSize : Digits digits 0) :
      Chunked (digits ++ (chunkSep ++ chunkSep))
  | chunk {digits data rest : Bytes} (nonempty : digits ≠ [])
      (isSize : Digits digits data.length) (hasData : data ≠ [])
      (isRest : Chunked rest) :
      Chunked (digits ++ (chunkSep ++ (data ++ (chunkSep ++ rest))))

/-- What the parser takes for the end of a size line. -/
inductive LineEnd (digits : Bytes) : Bytes → Prop where
  | plain (short : digits.length ≤ 8) : LineEnd digits chunkSep
  | extended {extension : Bytes} (short : digits.length ≤ 9) (noReturn : Byte.cr ∉ extension) :
      LineEnd digits (Byte.semicolon :: (extension ++ chunkSep))

inductive Trailers : Bytes → Prop where
  | final : Trailers chunkSep
  | line {line rest : Bytes} (nonempty : line ≠ [])
      (short : line.length ≤ 8193) (noReturn : Byte.cr ∉ line)
      (isRest : Trailers rest) : Trailers (line ++ (chunkSep ++ rest))

/-- What the parser takes for a body, with the content; `junk` is behind the
data of a chunk. -/
inductive Body : Bytes → Bytes → Prop where
  | last {digits line rest : Bytes} (isSize : Digits digits 0)
      (isLine : LineEnd digits line) (isRest : Trailers rest) :
      Body (digits ++ (line ++ rest)) []
  | chunk {digits line data junk rest content : Bytes}
      (isSize : Digits digits data.length) (isLine : LineEnd digits line)
      (hasData : data ≠ []) (noReturn : Byte.cr ∉ junk)
      (isRest : Body rest content) :
      Body (digits ++ (line ++ (data ++ (junk ++ (chunkSep ++ rest))))) (data ++ content)

/-- What follows when some bytes of a chunk are left. -/
def Data (left : Nat) (text content : Bytes) : Prop :=
  ∃ data junk rest more, data.length = left ∧ Byte.cr ∉ junk ∧
    Body rest more ∧ text = data ++ (junk ++ (chunkSep ++ rest)) ∧ content = data ++ more

/-- What follows a size line. -/
def After (size : Nat) (text content : Bytes) : Prop :=
  if size = 0 then Trailers text ∧ content = [] else Data size text content

variable {text content : Bytes}

theorem body_iff : Body text content ↔
    ∃ digits size line rest, Digits digits size ∧ LineEnd digits line ∧
      After size rest content ∧ text = digits ++ (line ++ rest) := by
  constructor
  · intro isBody
    cases isBody with
    | last isSize isLine isRest =>
      exact ⟨_, 0, _, _, isSize, isLine, ⟨isRest, rfl⟩, rfl⟩
    | @chunk digits line data junk rest content isSize isLine hasData noReturn isRest =>
        refine ⟨_, _, _, _, isSize, isLine, ?_, rfl⟩
        rw [After, if_neg (Nat.ne_of_gt (List.length_pos_of_ne_nil hasData))]
        exact ⟨data, junk, rest, content, rfl, noReturn, isRest, rfl, rfl⟩
  · rintro ⟨digits, size, line, rest, isSize, isLine, isAfter, rfl⟩
    rw [After] at isAfter
    split_ifs at isAfter with isZero
    · subst isZero
      obtain ⟨isRest, rfl⟩ := isAfter
      exact .last isSize isLine isRest
    · obtain ⟨data, junk, rest, more, rfl, noReturn, isRest, rfl, rfl⟩ := isAfter
      have hasData : data ≠ [] := by
        intro isEmpty
        rw [isEmpty] at isZero
        exact isZero rfl
      exact .chunk isSize isLine hasData noReturn isRest

/-! ## Size lines -/

theorem hexToDecStep_eq_some {value next : Nat} {digit : UInt8}
    (step : hexToDecStep value digit = some next) :
    (hexCharToInt digit).isSome = true ∧
      next = 16 * value + hexDigitValue digit ∧ next ≤ 2147483647 := by
  rw [hexToDecStep] at step
  cases isDigit : hexCharToInt digit with
  | none =>
    rw [isDigit] at step
    cases step
  | some result =>
    rw [isDigit] at step
    simp only [Option.bind_eq_bind, Option.bind_some] at step
    split_ifs at step with large
    cases step
    refine ⟨rfl, ?_, Nat.not_lt.mp large⟩
    rw [hexDigitValue, isDigit]
    rfl

theorem foldlM_hexToDecStep_eq_some {digits : Bytes} {start size : Nat} (small : start ≤ 2147483647)
    (read : digits.foldlM hexToDecStep start = some size) :
    (∀ digit ∈ digits, (hexCharToInt digit).isSome = true) ∧
      digits.foldl (fun value digit => 16 * value + hexDigitValue digit)
        start = size ∧ size ≤ 2147483647 := by
  induction digits generalizing start with
  | nil =>
    cases read
    exact ⟨nofun, rfl, small⟩
  | cons digit digits ih =>
    obtain ⟨next, step, rest⟩ := Option.bind_eq_some_iff.mp read
    obtain ⟨isDigit, isNext, bounded⟩ := hexToDecStep_eq_some step
    obtain ⟨others, isValue, inRange⟩ := ih bounded rest
    refine ⟨List.forall_mem_cons.mpr ⟨isDigit, others⟩, ?_, inRange⟩
    rw [List.foldl_cons, ← isNext]
    exact isValue

theorem hexToDec_eq_some_iff {digits : Bytes} {size : Nat} :
    hexToDec digits = some size ↔ Digits digits size := by
  constructor
  · intro read
    obtain ⟨isHexadecimal, isValue, inRange⟩ := foldlM_hexToDecStep_eq_some (by decide) read
    exact ⟨isHexadecimal, isValue, inRange⟩
  · intro isSize
    have read := @foldlM_hexToDecStep digits isSize.isHexadecimal 0
      (isSize.isValue.le.trans isSize.inRange)
    exact read.trans (congrArg some isSize.isValue)

/-- The characters that do not end the digits of a size line. -/
def IsOrdinary (byte : UInt8) : Prop := byte ≠ Byte.cr ∧ byte ≠ Byte.semicolon

theorem Digits.ordinary {digits : Bytes} {size : Nat}
    (isSize : Digits digits size) : ∀ byte ∈ digits, IsOrdinary byte := by
  intro byte member
  have isDigit := isSize.isHexadecimal byte member
  constructor
  · rintro rfl
    cases isDigit
  · rintro rfl
    cases isDigit

/-- One of two texts is the front of the other one. -/
def Comparable (text other : Bytes) : Prop := text <+: other ∨ other <+: text

/-- A relation of texts that is decided byte by byte. -/
def ByByte (relates : Bytes → Bytes → Prop) : Prop :=
  ∀ {byte other rest behind}, relates (byte :: rest) (other :: behind) ↔
      byte = other ∧ relates rest behind

theorem byByte_eq : ByByte (· = ·) := List.cons_eq_cons

theorem byByte_front : ByByte (· <+: ·) := List.cons_prefix_cons

theorem byByte_comparable : ByByte Comparable := by
  intro byte other rest behind
  rw [Comparable, List.cons_prefix_cons, List.cons_prefix_cons, eq_comm, ← and_or_left]
  rw [Comparable, eq_comm]

namespace ByByte

variable {relates : Bytes → Bytes → Prop} {rest behind : Bytes}

/-- The first character of a kind splits related texts in one way. -/
theorem split (byByte : ByByte relates) {kind : UInt8 → Prop} {front other : Bytes}
    {here there : UInt8} (isFront : ∀ byte ∈ front, kind byte) (isOther : ∀ byte ∈ other, kind byte)
    (notHere : ¬kind here) (notThere : ¬kind there)
    (related : relates (front ++ here :: behind) (other ++ there :: rest)) :
    front = other ∧ here = there ∧ relates behind rest := by
  induction front generalizing other with
  | nil =>
    cases other with
    | nil => exact ⟨rfl, byByte.mp related⟩
    | cons byte other =>
      obtain ⟨isHere, _⟩ := byByte.mp related
      exact absurd (isOther byte List.mem_cons_self) (isHere ▸ notHere)
  | cons byte front ih =>
    cases other with
    | nil =>
      obtain ⟨isThere, _⟩ := byByte.mp related
      exact absurd (isFront byte List.mem_cons_self) (isThere ▸ notThere)
    | cons second other =>
      obtain ⟨rfl, others⟩ := byByte.mp related
      obtain ⟨rfl, isHere, isBehind⟩ := ih (List.forall_mem_cons.mp isFront).2
        (List.forall_mem_cons.mp isOther).2 others
      exact ⟨rfl, isHere, isBehind⟩

theorem append (byByte : ByByte relates) {front other : Bytes}
    (sameLength : front.length = other.length)
    (related : relates (front ++ rest) (other ++ behind)) :
    front = other ∧ relates rest behind := by
  induction front generalizing other with
  | nil =>
    rw [List.eq_nil_of_length_eq_zero sameLength.symm] at related ⊢
    exact ⟨rfl, related⟩
  | cons byte front ih =>
    cases other with
    | nil => cases sameLength
    | cons second other =>
      obtain ⟨rfl, others⟩ := byByte.mp related
      obtain ⟨rfl, isRest⟩ := ih (Nat.succ.inj sameLength) others
      exact ⟨rfl, isRest⟩

end ByByte

theorem not_ordinary_cr : ¬IsOrdinary Byte.cr := fun isIt => isIt.1 rfl

theorem not_ordinary_semicolon : ¬IsOrdinary Byte.semicolon :=
  fun isIt => isIt.2 rfl

theorem body_return_iff {buf : Bytes} (ordinary : ∀ byte ∈ buf, IsOrdinary byte) :
    Body (buf ++ Byte.cr :: text) content ↔ ∃ size rest, Digits buf size ∧ buf.length ≤ 8 ∧
        text = Byte.lf :: rest ∧ After size rest content := by
  rw [body_iff]
  constructor
  · rintro ⟨digits, size, line, rest, isSize, isLine, isAfter, isText⟩
    cases isLine with
    | plain short =>
      obtain ⟨rfl, _, isRest⟩ := byByte_eq.split ordinary isSize.ordinary
        not_ordinary_cr not_ordinary_cr isText
      exact ⟨size, rest, isSize, short, isRest, isAfter⟩
    | extended short noReturn =>
      obtain ⟨_, impossible, _⟩ := byByte_eq.split ordinary isSize.ordinary
        not_ordinary_cr not_ordinary_semicolon isText
      cases impossible
  · rintro ⟨size, rest, isSize, short, rfl, isAfter⟩
    exact ⟨buf, size, _, rest, isSize, .plain short, isAfter, rfl⟩

theorem body_semicolon_iff {buf : Bytes} (ordinary : ∀ byte ∈ buf, IsOrdinary byte) :
    Body (buf ++ Byte.semicolon :: text) content ↔
      ∃ size extension rest, Digits buf size ∧ buf.length ≤ 9 ∧
        Byte.cr ∉ extension ∧ text = extension ++ (chunkSep ++ rest) ∧
          After size rest content := by
  rw [body_iff]
  constructor
  · rintro ⟨digits, size, line, rest, isSize, isLine, isAfter, isText⟩
    cases isLine with
    | plain short =>
      obtain ⟨_, impossible, _⟩ := byByte_eq.split ordinary isSize.ordinary
        not_ordinary_semicolon not_ordinary_cr isText
      cases impossible
    | @extended extension short noReturn =>
      obtain ⟨rfl, _, isRest⟩ := byByte_eq.split ordinary isSize.ordinary
        not_ordinary_semicolon not_ordinary_semicolon isText
      exact ⟨size, extension, rest, isSize, short, noReturn,
        isRest.trans (List.append_assoc _ _ _), isAfter⟩
  · rintro ⟨size, extension, rest, isSize, short, noReturn, rfl, isAfter⟩
    refine ⟨buf, size, _, rest, isSize, .extended short noReturn, isAfter, ?_⟩
    rw [List.cons_append, List.append_assoc]

/-- A size line with more characters in front of its end is none. -/
theorem Body.length_digits {buf : Bytes} (ordinary : ∀ byte ∈ buf, IsOrdinary byte)
    (isBody : Body (buf ++ text) content) : buf.length ≤ 9 := by
  obtain ⟨digits, size, line, rest, _, isLine, _, isText⟩ := body_iff.mp isBody
  have short : digits.length ≤ 9 := by
    cases isLine with
    | plain short => exact short.trans (by decide)
    | extended short _ => exact short
  rcases List.append_eq_append_iff.mp isText with
    ⟨more, isDigits, _⟩ | ⟨more, isBuf, isLineText⟩
  · rw [isDigits, List.length_append] at short
    exact (Nat.le_add_right _ _).trans short
  · cases more with
    | nil =>
      rw [isBuf, List.append_nil]
      exact short
    | cons byte more =>
      have isOrdinary := ordinary byte (isBuf ▸ List.mem_append_right _ List.mem_cons_self)
      cases isLine with
      | plain _ =>
        obtain ⟨rfl, _⟩ := List.cons.inj isLineText
        exact absurd isOrdinary not_ordinary_cr
      | extended _ _ =>
        obtain ⟨rfl, _⟩ := List.cons.inj isLineText
        exact absurd isOrdinary not_ordinary_semicolon

/-! ## Data and trailers -/

theorem data_append_iff {front : Bytes} {left : Nat} :
    Data (front.length + left) (front ++ text) content ↔
      ∃ more, content = front ++ more ∧ Data left text more := by
  constructor
  · rintro ⟨data, junk, rest, more, isLength, noReturn, isRest, isText, rfl⟩
    have isFront : data.take front.length = front := by
      have taken := congrArg (List.take front.length) isText
      rw [List.take_left, List.take_append_of_le_length (by omega)] at taken
      exact taken.symm
    have parts := List.take_append_drop front.length data
    rw [isFront] at parts
    rw [← parts, List.append_assoc] at isText ⊢
    refine ⟨_, rfl, data.drop front.length, junk, rest, more, ?_, noReturn,
      isRest, List.append_cancel_left isText, rfl⟩
    rw [List.length_drop]
    omega
  · rintro ⟨_, rfl, data, junk, rest, more, rfl, noReturn, isRest, rfl, rfl⟩
    refine ⟨front ++ data, junk, rest, more, List.length_append, noReturn, isRest, ?_, ?_⟩
    · rw [List.append_assoc]
    · rw [List.append_assoc]

theorem data_return_iff : Data 0 (Byte.cr :: text) content ↔
      ∃ rest, text = Byte.lf :: rest ∧ Body rest content := by
  constructor
  · rintro ⟨data, junk, rest, more, isEmpty, noReturn, isRest, isText, rfl⟩
    rw [List.eq_nil_of_length_eq_zero isEmpty] at isText ⊢
    cases junk with
    | nil =>
      obtain ⟨_, isBehind⟩ := List.cons.inj isText
      exact ⟨rest, isBehind, isRest⟩
    | cons byte junk =>
      obtain ⟨rfl, _⟩ := List.cons.inj isText
      exact absurd List.mem_cons_self noReturn
  · rintro ⟨rest, rfl, isRest⟩
    exact ⟨[], [], rest, content, rfl, List.not_mem_nil, isRest, rfl, rfl⟩

theorem data_junk_iff {ch : UInt8} (notReturn : ch ≠ Byte.cr) :
    Data 0 (ch :: text) content ↔ Data 0 text content := by
  constructor
  · rintro ⟨data, junk, rest, more, isEmpty, noReturn, isRest, isText, rfl⟩
    rw [List.eq_nil_of_length_eq_zero isEmpty] at isText ⊢
    cases junk with
    | nil =>
      obtain ⟨isReturn, _⟩ := List.cons.inj isText
      exact absurd isReturn notReturn
    | cons byte junk =>
      obtain ⟨_, isBehind⟩ := List.cons.inj isText
      exact ⟨[], junk, rest, more, rfl,
        fun member => noReturn (List.mem_cons_of_mem _ member), isRest,
        isBehind, rfl⟩
  · rintro ⟨data, junk, rest, more, isEmpty, noReturn, isRest, rfl, rfl⟩
    rw [List.eq_nil_of_length_eq_zero isEmpty]
    refine ⟨[], ch :: junk, rest, more, rfl, fun member => ?_, isRest, rfl, rfl⟩
    cases List.mem_cons.mp member with
    | inl same => exact notReturn same.symm
    | inr later => exact noReturn later

theorem trailers_return_iff {buf : Bytes} (noReturn : Byte.cr ∉ buf) (short : buf.length ≤ 8193) :
    Trailers (buf ++ Byte.cr :: text) ↔
      if buf = [] then text = [Byte.lf]
      else ∃ rest, text = Byte.lf :: rest ∧ Trailers rest := by
  have others : ∀ {line : Bytes}, Byte.cr ∉ line → ∀ byte ∈ line, byte ≠ Byte.cr := by
    intro line without byte member same
    exact without (same ▸ member)
  have isReturn : ¬Byte.cr ≠ Byte.cr := fun differs => differs rfl
  constructor
  · intro isTrailers
    generalize isText : buf ++ Byte.cr :: text = whole at isTrailers
    cases isTrailers with
    | final =>
      obtain ⟨rfl, _, isBehind⟩ := @ByByte.split _ _ _ byByte_eq
        (· ≠ Byte.cr) buf [] Byte.cr Byte.cr (others noReturn)
        (List.forall_mem_nil _) isReturn isReturn isText
      exact isBehind
    | @line line rest nonempty _ without isRest =>
      obtain ⟨rfl, _, isBehind⟩ := @ByByte.split _ _ _ byByte_eq
        (· ≠ Byte.cr) buf line Byte.cr Byte.cr (others noReturn)
        (others without) isReturn isReturn isText
      rw [if_neg nonempty]
      exact ⟨rest, isBehind, isRest⟩
  · intro isRest
    split_ifs at isRest with isEmpty
    · rw [isEmpty, isRest]
      exact .final
    · obtain ⟨rest, rfl, isRest⟩ := isRest
      exact .line isEmpty short noReturn isRest

theorem Trailers.cr_mem (isTrailers : Trailers text) : Byte.cr ∈ text := by
  cases isTrailers with
  | final => exact List.mem_cons_self
  | line =>
    apply List.mem_append_right
    exact List.mem_append_left _ List.mem_cons_self

/-- A line with more characters is none of a trailer. -/
theorem Trailers.length_line {buf : Bytes} (noReturn : Byte.cr ∉ buf)
    (isTrailers : Trailers (buf ++ text)) : buf.length ≤ 8193 := by
  generalize isText : buf ++ text = whole at isTrailers
  have shorter : ∀ {line rest : Bytes}, line.length ≤ 8193 →
      buf ++ text = line ++ Byte.cr :: rest → buf.length ≤ 8193 := by
    intro line rest short same
    rcases List.append_eq_append_iff.mp same with
      ⟨more, isLine, _⟩ | ⟨more, isBuf, isBehind⟩
    · rw [isLine, List.length_append] at short
      omega
    · cases more with
      | nil =>
        rw [isBuf, List.append_nil]
        exact short
      | cons byte more =>
        obtain ⟨rfl, _⟩ := List.cons.inj isBehind
        rw [isBuf] at noReturn
        exact absurd (List.mem_append_right _ List.mem_cons_self) noReturn
  cases isTrailers with
  | final => exact @shorter [] [Byte.lf] (Nat.zero_le _) isText
  | line _ short _ _ => exact shorter short isText

end CWebFramework.HttpClient
