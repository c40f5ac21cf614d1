import CWebFramework.Misc.Bytes
import Mathlib.Tactic.IntervalCases

/-!
# Base64

`misc/base64.c` without line wrapping, and the two functions of `misc/jwt.c`
that turn its texts into base64url and back.  A text is a C string without its
terminator.  Decoding the base64url text of some bytes gives the bytes.  The
lengths are computed in `int`; the counters of the loops are natural numbers,
for texts whose characters an `int` counts.
-/

namespace CWebFramework.Base64

/-! ## The functions -/

def basis64 (index : UInt8) : UInt8 :=
  (ascii "ABCDEFGHIJKLMNOPQRSTUVWXYZabcdefghijklmnopqrstuvwxyz0123456789+/").getD index.toNat 0

/-- The table `pr2six`. -/
def pr2six (byte : UInt8) : UInt8 :=
  if 65 ≤ byte ∧ byte ≤ 90 then byte - 65
  else if 97 ≤ byte ∧ byte ≤ 122 then byte - 71
  else if 48 ≤ byte ∧ byte ≤ 57 then byte + 4
  else if byte = 43 then 62
  else if byte = 47 then 63
  else 64

def base64Encode : Bytes → Bytes
  | first :: second :: third :: rest =>
    basis64 (first >>> 2 &&& 0x3F) :: basis64 ((first &&& 0x3) <<< 4 ||| (second &&& 0xF0) >>> 4) ::
      basis64 ((second &&& 0xF) <<< 2 ||| (third &&& 0xC0) >>> 6) ::
      basis64 (third &&& 0x3F) :: base64Encode rest
  | [first, second] =>
    [basis64 (first >>> 2 &&& 0x3F), basis64 ((first &&& 0x3) <<< 4 ||| (second &&& 0xF0) >>> 4),
      basis64 ((second &&& 0xF) <<< 2), Byte.equal]
  | [first] =>
    [basis64 (first >>> 2 &&& 0x3F), basis64 ((first &&& 0x3) <<< 4), Byte.equal, Byte.equal]
  | [] => []

/-- The characters that the loops of `base64_decode` skip. -/
def isLineBreak (byte : UInt8) : Bool := byte == Byte.cr || byte == Byte.lf

/-- `nprbytes` after the first loop of `base64_decode`. -/
def codedCount : Bytes → Nat
  | [] => 0
  | byte :: rest =>
    if isLineBreak byte then codedCount rest
    else if 63 < pr2six byte then 0
    else codedCount rest + 1

def sixAt (text : Bytes) (offset : Nat) : UInt8 := pr2six (text.getD offset 0)

def firstByte (text : Bytes) : UInt8 := sixAt text 0 <<< 2 ||| sixAt text 1 >>> 4

def secondByte (text : Bytes) : UInt8 := sixAt text 1 <<< 4 ||| sixAt text 2 >>> 2

def thirdByte (text : Bytes) : UInt8 := sixAt text 2 <<< 6 ||| sixAt text 3

/-- The second loop of `base64_decode` and the bytes behind it.  Line breaks
are skipped only in front of a group, and not in front of the last. -/
def decodeLoop (count : Nat) (text : Bytes) : Bytes :=
  if 4 < count then
    if isLineBreak (text.headD 0) then decodeLoop count text.tail
    else
      [firstByte text, secondByte text, thirdByte text] ++ decodeLoop (count - 4) (text.drop 4)
  else
    (if 1 < count then [firstByte text] else []) ++ (if 2 < count then [secondByte text] else []) ++
      (if 3 < count then [thirdByte text] else [])
termination_by count + text.length
decreasing_by
  · rename_i isBreak
    cases text with
    | nil => cases isBreak
    | cons byte rest =>
      simp only [List.tail_cons, List.length_cons]
      omega
  · simp only [List.length_drop]
    omega

def base64Decode (text : Bytes) : Bytes := decodeLoop (codedCount text) text

/-- `nprbytes` after the second loop. -/
def lastCount (count : Nat) : Nat :=
  if 4 < count then lastCount (count - 4) else count

/-- The return value of `base64_decode`. -/
def decodedSize (count : Nat) : Nat := (count + 3) / 4 * 3 - ((4 - lastCount count) &&& 3)

def base64EncodeIntenalLen (len wrap : Int) : Int :=
  let inlineLen := wrapInt (wrapInt ((wrapInt (len + 2)).tdiv 3 * 4) + 1)
  if 0 < wrap then
    let nl := wrapInt (inlineLen.tdiv wrap * 2)
    let nl := if 1 < nl ∧ inlineLen.tmod wrap = 0 then nl - 2 else nl
    wrapInt (inlineLen + nl)
  else inlineLen

def base64EncodeLen (len : Int) : Int := base64EncodeIntenalLen len 0

def base64DecodeLen (text : Bytes) : Int :=
  let nprbytes := wrapInt (codedCount text)
  wrapInt (wrapInt ((wrapInt (nprbytes + 3)).tdiv 4 * 3) + 1)

def base64ToBase64url (text : Bytes) : Bytes :=
  (text.filter (· != Byte.equal)).map fun byte =>
    if byte = 43 then 45 else if byte = 47 then 95 else byte

def base64urlToBase64 (text : Bytes) : Bytes :=
  (text.map fun byte =>
    if byte = 45 then 43 else if byte = 95 then 47 else byte) ++
    List.replicate ((4 - text.length % 4) % 4) Byte.equal

/-- The return value is the number of bytes that have been written. -/
theorem length_decodeLoop (count : Nat) (text : Bytes) :
    (decodeLoop count text).length = decodedSize count := by
  fun_induction decodeLoop count text with
  | case1 count text isMore isBreak ih =>
    exact ih
  | case2 count text isMore noBreak ih =>
    rw [List.length_append, ih, decodedSize, decodedSize, lastCount.eq_def count, if_pos isMore]
    have small : (4 - lastCount (count - 4)) &&& 3 ≤ 3 := Nat.and_le_right
    simp only [List.length_cons, List.length_nil]
    omega
  | case3 count text isLast =>
    have small : count = 0 ∨ count = 1 ∨ count = 2 ∨ count = 3 ∨ count = 4 := by omega
    rcases small with rfl | rfl | rfl | rfl | rfl <;>
      simp [decodedSize, lastCount]

/-! ## Bits -/

/-- Bytes with the same bits are equal. -/
theorem byte_ext {left right : UInt8} (same : ∀ index < 8,
      left.toBitVec.getLsbD index = right.toBitVec.getLsbD index) :
    left = right :=
  UInt8.toBitVec_inj.mp (BitVec.eq_of_getLsbD_eq same)

/-- The six bits of a group are joined to its bytes. -/
theorem joined_first (first second : UInt8) : (first >>> 2 &&& 0x3F) <<< 2 |||
      ((first &&& 0x3) <<< 4 ||| (second &&& 0xF0) >>> 4) >>> 4 = first := by
  apply byte_ext
  intro index small
  interval_cases index <;> simp

theorem joined_second (first second third : UInt8) :
    ((first &&& 0x3) <<< 4 ||| (second &&& 0xF0) >>> 4) <<< 4 |||
      ((second &&& 0xF) <<< 2 ||| (third &&& 0xC0) >>> 6) >>> 2 =
      second := by
  apply byte_ext
  intro index small
  interval_cases index <;> simp

private theorem joined_third (second third : UInt8) :
    ((second &&& 0xF) <<< 2 ||| (third &&& 0xC0) >>> 6) <<< 6 ||| (third &&& 0x3F) = third := by
  apply byte_ext
  intro index small
  interval_cases index <;> simp

def IsSix (value : UInt8) : Prop := value &&& 0x3F = value

theorem isSix_first (first : UInt8) : IsSix (first >>> 2 &&& 0x3F) := by
  apply byte_ext
  intro index small
  interval_cases index <;> simp

theorem isSix_second (first second : UInt8) :
    IsSix ((first &&& 0x3) <<< 4 ||| (second &&& 0xF0) >>> 4) := by
  apply byte_ext
  intro index small
  interval_cases index <;> simp

theorem isSix_third (second third : UInt8) :
    IsSix ((second &&& 0xF) <<< 2 ||| (third &&& 0xC0) >>> 6) := by
  apply byte_ext
  intro index small
  interval_cases index <;> simp

theorem isSix_fourth (third : UInt8) : IsSix (third &&& 0x3F) := by
  apply byte_ext
  intro index small
  interval_cases index <;> simp

/-! ## Characters -/

/-- A character of the alphabet has its value, is no line break and is changed
back by the functions for base64url. -/
theorem basis64_facts (value : UInt8) (isSix : IsSix value) :
    pr2six (basis64 value) = value ∧ isLineBreak (basis64 value) = false ∧
      ¬ 63 < value ∧ basis64 value ≠ Byte.equal ∧
      basis64 value ≠ 45 ∧ basis64 value ≠ 95 ∧ basis64 value ≠ 0 := by
  revert isSix
  revert value
  unfold IsSix
  exact forall_byte (by decide +kernel)

theorem sixAt_basis64 {value : UInt8} (isSix : IsSix value) (rest : Bytes) :
    sixAt (basis64 value :: rest) 0 = value :=
  (basis64_facts value isSix).1

theorem sixAt_cons (byte : UInt8) (rest : Bytes) (offset : Nat) :
    sixAt (byte :: rest) (offset + 1) = sixAt rest offset :=
  rfl

theorem codedCount_basis64 {value : UInt8} (isSix : IsSix value) (rest : Bytes) :
    codedCount (basis64 value :: rest) = codedCount rest + 1 := by
  obtain ⟨isValue, noBreak, small, -⟩ := basis64_facts value isSix
  rw [codedCount, noBreak, isValue, if_neg Bool.false_ne_true, if_neg small]

theorem codedCount_equal (rest : Bytes) : codedCount (Byte.equal :: rest) = 0 := by
  rw [codedCount, if_neg (by decide), if_pos (by decide)]

/-! ## Encoding and decoding -/

/-- A group of four characters is read as its three bytes. -/
theorem group_read (first second third : UInt8) (behind : Bytes) :
    codedCount (base64Encode [first, second, third] ++ behind) = codedCount behind + 4 ∧
    firstByte (base64Encode [first, second, third] ++ behind) = first ∧
    secondByte (base64Encode [first, second, third] ++ behind) = second ∧
    thirdByte (base64Encode [first, second, third] ++ behind) = third := by
  simp only [base64Encode, List.cons_append, List.nil_append]
  refine ⟨?_, ?_, ?_, ?_⟩
  · rw [codedCount_basis64 (isSix_first first), codedCount_basis64 (isSix_second first second),
      codedCount_basis64 (isSix_third second third),
      codedCount_basis64 (isSix_fourth third)]
  · simp only [firstByte, sixAt_cons, sixAt_basis64 (isSix_first first),
      sixAt_basis64 (isSix_second first second), joined_first]
  · simp only [secondByte, sixAt_cons, sixAt_basis64 (isSix_second first second),
      sixAt_basis64 (isSix_third second third), joined_second]
  · simp only [thirdByte, sixAt_cons, sixAt_basis64 (isSix_third second third),
      sixAt_basis64 (isSix_fourth third), joined_third]

/-- A group in front of what is decoded behind it. -/
theorem decodeLoop_group (first second third : UInt8) (count : Nat) (behind : Bytes) :
    decodeLoop (count + 4) (base64Encode [first, second, third] ++ behind) =
      [first, second, third] ++ decodeLoop count behind := by
  obtain ⟨-, isFirst, isSecond, isThird⟩ := group_read first second third behind
  have noBreak := (basis64_facts _ (isSix_first first)).2.1
  rw [decodeLoop, isFirst, isSecond, isThird]
  by_cases isLast : count = 0
  · rw [isLast, if_neg (by omega), decodeLoop.eq_def 0]
    simp
  · rw [if_pos (by omega), if_neg, Nat.add_sub_cancel]
    · rfl
    · simp only [base64Encode, List.cons_append, List.headD_cons, noBreak]
      exact Bool.false_ne_true

/-- What stands behind the text of some bytes is decoded only if the text has no
padding. -/
theorem base64Decode_append (bytes tail : Bytes) : base64Decode (base64Encode bytes ++ tail) =
      bytes ++ if bytes.length % 3 = 0 then base64Decode tail else [] := by
  unfold base64Decode
  match bytes with
  | [] =>
    rw [base64Encode]
    rfl
  | [first] =>
    have isSecond := isSix_second first 0
    have joined := joined_first first 0
    simp only [UInt8.zero_and, UInt8.zero_shiftRight, UInt8.or_zero] at isSecond joined
    simp only [base64Encode, List.cons_append, List.nil_append]
    rw [codedCount_basis64 (isSix_first first), codedCount_basis64 isSecond,
      codedCount_equal, decodeLoop]
    simp [firstByte, sixAt_cons, sixAt_basis64 (isSix_first first), sixAt_basis64 isSecond, joined]
  | [first, second] =>
    have isThird := isSix_third second 0
    have joined := joined_second first second 0
    simp only [UInt8.zero_and, UInt8.zero_shiftRight, UInt8.or_zero] at isThird joined
    simp only [base64Encode, List.cons_append, List.nil_append]
    rw [codedCount_basis64 (isSix_first first), codedCount_basis64 (isSix_second first second),
      codedCount_basis64 isThird, codedCount_equal, decodeLoop]
    simp [firstByte, secondByte, sixAt_cons, sixAt_basis64 (isSix_first first),
      sixAt_basis64 (isSix_second first second), sixAt_basis64 isThird,
      joined, joined_first]
  | first :: second :: third :: rest =>
    have ih := base64Decode_append rest tail
    unfold base64Decode at ih
    have grouped : base64Encode (first :: second :: third :: rest) ++ tail =
        base64Encode [first, second, third] ++ (base64Encode rest ++ tail) := rfl
    have sameRest : (rest.length + 1 + 1 + 1) % 3 = rest.length % 3 := by
      omega
    rw [grouped, (group_read first second third _).1, decodeLoop_group, ih]
    simp only [List.cons_append, List.nil_append, List.length_cons, sameRest]

theorem base64Decode_base64Encode (bytes : Bytes) : base64Decode (base64Encode bytes) = bytes := by
  have decoded := base64Decode_append bytes []
  have nothing : base64Decode [] = [] := by
    rw [base64Decode, codedCount, decodeLoop]
    rfl
  rw [List.append_nil, nothing, ite_self, List.append_nil] at decoded
  exact decoded

/-! ## Base64url -/

/-- The characters of a text without its padding. -/
theorem base64Encode_padded (bytes : Bytes) : ∃ chars padding, base64Encode bytes =
        chars ++ List.replicate padding Byte.equal ∧
      padding = (4 - chars.length % 4) % 4 ∧
      ∀ byte ∈ chars, byte ≠ Byte.equal ∧ byte ≠ 45 ∧ byte ≠ 95 ∧ byte ≠ 0 := by
  have plain : ∀ {value : UInt8}, IsSix value → basis64 value ≠ Byte.equal ∧ basis64 value ≠ 45 ∧
        basis64 value ≠ 95 ∧ basis64 value ≠ 0 :=
    fun isSix => (basis64_facts _ isSix).2.2.2
  match bytes with
  | [] => exact ⟨[], 0, rfl, rfl, nofun⟩
  | [first] =>
    have isSecond := isSix_second first 0
    simp only [UInt8.zero_and, UInt8.zero_shiftRight, UInt8.or_zero] at isSecond
    refine ⟨[_, _], 2, rfl, rfl, ?_⟩
    simp only [List.forall_mem_cons, List.not_mem_nil, false_imp_iff, implies_true, and_true]
    exact ⟨plain (isSix_first first), plain isSecond⟩
  | [first, second] =>
    have isThird := isSix_third second 0
    simp only [UInt8.zero_and, UInt8.zero_shiftRight, UInt8.or_zero] at isThird
    refine ⟨[_, _, _], 1, rfl, rfl, ?_⟩
    simp only [List.forall_mem_cons, List.not_mem_nil, false_imp_iff, implies_true, and_true]
    exact ⟨plain (isSix_first first), plain (isSix_second first second), plain isThird⟩
  | first :: second :: third :: rest =>
    obtain ⟨chars, padding, isText, isPadding, areChars⟩ := base64Encode_padded rest
    rw [base64Encode, isText]
    refine ⟨_ :: _ :: _ :: _ :: chars, padding, rfl, ?_, ?_⟩
    · rw [isPadding]
      simp only [List.length_cons]
      omega
    · simp only [List.forall_mem_cons]
      exact ⟨plain (isSix_first first), plain (isSix_second first second),
        plain (isSix_third second third), plain (isSix_fourth third),
        areChars⟩

private theorem noNul_base64Encode (bytes : Bytes) : 0 ∉ base64Encode bytes := by
  obtain ⟨chars, padding, isText, -, areChars⟩ := base64Encode_padded bytes
  rw [isText, List.mem_append, not_or]
  refine ⟨fun isIn => (areChars 0 isIn).2.2.2 rfl, fun isIn => ?_⟩
  cases List.eq_of_mem_replicate isIn

theorem length_base64Encode (bytes : Bytes) :
    (base64Encode bytes).length = 4 * ((bytes.length + 2) / 3) := by
  fun_induction base64Encode bytes <;> simp_all
  omega

theorem decodedSize_base64Encode (bytes : Bytes) :
    decodedSize (codedCount (base64Encode bytes)) = bytes.length := by
  rw [← length_decodeLoop _ (base64Encode bytes), ← base64Decode, base64Decode_base64Encode]

/-- Without an overflow the length on one line is the exact one. -/
theorem inlineLen_of_le {length : Nat} (small : 4 * ((length + 2) / 3) + 1 ≤ intMax) :
    wrapInt (wrapInt ((wrapInt (length + 2)).tdiv 3 * 4) + 1) =
      (4 * ((length + 2) / 3) + 1 : Nat) := by
  rw [intMax] at small
  have sum : wrapInt (length + 2) = length + 2 := wrapInt_of_le (by omega) (by rw [intMax]; omega)
  have product : wrapInt ((length + 2 : Int).tdiv 3 * 4) = 4 * ((length + 2) / 3) := by
    rw [Int.tdiv_eq_ediv_of_nonneg (by omega),
      wrapInt_of_le (by omega) (by rw [intMax]; omega), Int.mul_comm]
  rw [sum, product, wrapInt_of_le (by omega) (by rw [intMax]; omega)]
  omega

private theorem base64EncodeLen_le (len : Int) : base64EncodeLen len ≤ intMax := wrapInt_le _

private theorem length_base64Encode_le_iff (bytes : Bytes) :
    ((base64Encode bytes).length + 1 : Int) ≤ base64EncodeLen bytes.length ↔
      bytes.length ≤ 1610612733 := by
  have longest := base64EncodeLen_le bytes.length
  rw [intMax] at longest
  rw [length_base64Encode]
  constructor
  · omega
  · intro small
    have isLen := @inlineLen_of_le bytes.length (by rw [intMax]; omega)
    rw [base64EncodeLen, base64EncodeIntenalLen, if_neg (Int.lt_irrefl 0), isLen]
    omega

theorem length_base64Decode_le_iff {text : Bytes} (isInt : codedCount text ≤ intMax) :
    ((base64Decode text).length + 1 : Int) ≤ base64DecodeLen text ↔
      codedCount text ≤ intMax - 3 := by
  have fewer : (base64Decode text).length ≤ (codedCount text + 3) / 4 * 3 := by
    rw [base64Decode, length_decodeLoop, decodedSize]
    exact Nat.sub_le _ _
  have count : wrapInt (codedCount text) = codedCount text :=
    wrapInt_of_le (Int.natCast_nonneg _) (Int.ofNat_le.mpr isInt)
  rw [intMax] at isInt ⊢
  rw [base64DecodeLen, count]
  by_cases small : codedCount text ≤ 2147483644
  · have sum : wrapInt (codedCount text + 3) = codedCount text + 3 :=
      wrapInt_of_le (by omega) (by rw [intMax]; omega)
    rw [sum, Int.tdiv_eq_ediv_of_nonneg (by omega),
      @wrapInt_of_le (_ * 3) (by omega) (by rw [intMax]; omega),
      wrapInt_of_le (by omega) (by rw [intMax]; omega)]
    omega
  · have isCount : codedCount text = 2147483645 ∨
        codedCount text = 2147483646 ∨ codedCount text = 2147483647 := by
      omega
    have negative : wrapInt (wrapInt ((wrapInt (codedCount text + 3)).tdiv 4 * 3) + 1) < 0 := by
      rcases isCount with isCount | isCount | isCount <;> rw [isCount] <;>
        decide
    omega

/-- Within the lengths that an `int` announces, the bytes and their number come
back; and both functions write, with the terminating byte, no more than
announced exactly within these lengths. -/
theorem base64_roundTrip (bytes : Bytes) :
    (((base64Encode bytes).length + 1 : Int) ≤ base64EncodeLen bytes.length ↔
      bytes.length ≤ 1610612733) ∧
    (bytes.length ≤ 1610612733 → base64Decode (base64Encode bytes) = bytes ∧
      decodedSize (codedCount (base64Encode bytes)) = bytes.length) ∧
    ∀ text, codedCount text ≤ intMax →
      (((base64Decode text).length + 1 : Int) ≤ base64DecodeLen text ↔
        codedCount text ≤ intMax - 3) :=
  ⟨length_base64Encode_le_iff bytes,
    fun _ => ⟨base64Decode_base64Encode bytes, decodedSize_base64Encode bytes⟩,
    fun _ => length_base64Decode_le_iff⟩

/-- The announced length overflows. -/
theorem base64EncodeLen_overflow : base64EncodeLen (List.replicate 1610612734 (0 : UInt8)).length =
        -2147483647 ∧
      (base64Encode (List.replicate 1610612734 0)).length = 2147483648 := by
  rw [length_base64Encode, List.length_replicate]
  decide

/-- The characters behind `*`, without the semicolon, and the byte that is read
behind the end of the table. -/
def Plain (byte : UInt8) : Prop := byte = 0 ∨ 42 < byte ∧ byte ≠ Byte.semicolon

private theorem plain_basis64 : ∀ index, Plain (basis64 index) := by
  unfold Plain
  exact forall_byte (by decide +kernel)

/-- Base64 texts have no control characters, spaces and semicolons. -/
theorem base64Encode_plain {bytes : Bytes} {byte : UInt8} (isIn : byte ∈ base64Encode bytes) :
    42 < byte ∧ byte ≠ Byte.semicolon := by
  have padding : Plain Byte.equal := Or.inr (by decide)
  have plain : ∀ byte ∈ base64Encode bytes, Plain byte := by
    clear isIn
    fun_induction base64Encode bytes <;>
      simp_all [plain_basis64]
  exact (plain byte isIn).resolve_left fun isNul => noNul_base64Encode bytes (isNul ▸ isIn)

theorem base64urlToBase64_base64ToBase64url (bytes : Bytes) :
    base64urlToBase64 (base64ToBase64url (base64Encode bytes)) =
      base64Encode bytes := by
  obtain ⟨chars, padding, isText, isPadding, areChars⟩ := base64Encode_padded bytes
  have filtered : (base64Encode bytes).filter (· != Byte.equal) = chars := by
    rw [isText, List.filter_append, List.filter_eq_self.mpr,
      List.filter_eq_nil_iff.mpr, List.append_nil]
    · intro byte isIn
      rw [List.eq_of_mem_replicate isIn]
      decide
    · intro byte isIn
      exact bne_iff_ne.mpr (areChars byte isIn).1
  rw [base64urlToBase64, base64ToBase64url, filtered, List.length_map,
    ← isPadding, List.map_map, isText]
  congr 1
  conv_rhs => rw [← List.map_id chars]
  apply List.map_congr_left
  intro byte isIn
  obtain ⟨-, notDash, notLine, -⟩ := areChars byte isIn
  by_cases isPlus : byte = 43
  · rw [isPlus]
    rfl
  by_cases isSlash : byte = 47
  · rw [isSlash]
    rfl
  simp only [Function.comp_apply, if_neg isPlus, if_neg isSlash,
    if_neg notDash, if_neg notLine, id_eq]

/-- The bytes are read back from their base64url text. -/
theorem base64Decode_base64url (bytes : Bytes) : base64Decode (base64urlToBase64
      (base64ToBase64url (base64Encode bytes))) = bytes := by
  rw [base64urlToBase64_base64ToBase64url, base64Decode_base64Encode]

end CWebFramework.Base64
