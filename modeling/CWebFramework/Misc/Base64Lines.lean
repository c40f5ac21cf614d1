import CWebFramework.Misc.Base64

/-!
# Base64 in lines

`base64_encode_nl`: a line break follows every group that ends a line.  The
second loop of `base64_decode` stops in front of the last group, so a line
break that stands there is decoded as two characters of the group.
-/

namespace CWebFramework.Base64

/-! ## The functions -/

/-- What the loop of `__base64_encode_internal` writes behind a group; `pc`
counts the characters of the groups. -/
def lineBreak (wrap pc : Nat) : Bytes :=
  if 0 < wrap ∧ pc % wrap = 0 then [Byte.cr, Byte.lf] else []

/-- `__base64_encode_internal` from a group on. -/
def base64EncodeInternal (wrap pc : Nat) : Bytes → Bytes
  | first :: second :: third :: rest =>
    base64Encode [first, second, third] ++
      (lineBreak wrap (pc + 4) ++ base64EncodeInternal wrap (pc + 4) rest)
  | rest => base64Encode rest

def base64EncodeNl (wrap : Nat) (bytes : Bytes) : Bytes := base64EncodeInternal wrap 0 bytes

def base64EncodeNlLen (len wrap : Int) : Int := base64EncodeIntenalLen len wrap

/-- Without a width the text has no line breaks. -/
theorem base64EncodeInternal_zero (pc : Nat) (bytes : Bytes) :
    base64EncodeInternal 0 pc bytes = base64Encode bytes := by
  fun_induction base64EncodeInternal 0 pc bytes with
  | case1 pc first second third rest ih =>
    rw [ih, lineBreak, if_neg (fun both => Nat.lt_irrefl 0 both.1)]
    rfl
  | case2 pc rest => rfl

variable {wrap : Nat}

/-! ## Lengths -/

private theorem length_lineBreak (pc : Nat) :
    (lineBreak wrap pc).length = if 0 < wrap ∧ pc % wrap = 0 then 2 else 0 := by
  unfold lineBreak
  split <;> rfl

/-- The line breaks are counted by the lines that have been ended. -/
theorem length_base64EncodeInternal (width : Nat) (pos : 0 < width) (groups : Nat) (bytes : Bytes) :
    (base64EncodeInternal (4 * width) (4 * groups) bytes).length = 4 * ((bytes.length + 2) / 3) +
        2 * ((groups + bytes.length / 3) / width - groups / width) := by
  match bytes with
  | [] | [_] | [_, _] => simp [base64EncodeInternal, base64Encode]
  | first :: second :: third :: rest =>
    have ih := length_base64EncodeInternal width pos (groups + 1) rest
    have next : 4 * groups + 4 = 4 * (groups + 1) := by omega
    have whole : (first :: second :: third :: rest).length / 3 = rest.length / 3 + 1 := by
      simp only [List.length_cons]
      omega
    have more : groups + (rest.length / 3 + 1) = groups + 1 + rest.length / 3 := by omega
    have later : (groups + 1) / width ≤ (groups + 1 + rest.length / 3) / width :=
      Nat.div_le_div_right (Nat.le_add_right _ _)
    have ended : (groups + 1) / width =
        groups / width + if (groups + 1) % width = 0 then 1 else 0 := by
      rw [Nat.succ_div]
      simp only [Nat.dvd_iff_mod_eq_zero]
    rw [base64EncodeInternal, next, List.length_append, List.length_append,
      ih, length_lineBreak, Nat.mul_mod_mul_left, whole, more]
    simp only [length_base64Encode, List.length_cons, List.length_nil]
    split_ifs at ended ⊢ <;> omega

/-- The length that `base64_encode_nl_len` computes if no `int` overflows. -/
def wrappedLen (length width : Nat) : Nat :=
  4 * ((length + 2) / 3) + 1 + 2 * ((length + 2) / 3 / width)

/-- An odd length is never a number of whole lines. -/
theorem base64EncodeNlLen_eq {length width : Nat} (pos : 0 < width)
    (small : 4 * ((length + 2) / 3) + 1 ≤ intMax) :
    base64EncodeNlLen length (4 * width : Nat) = wrapInt (wrappedLen length width) := by
  have odd : (4 * ((length + 2) / 3) + 1) % (4 * width) ≠ 0 := by
    intro isZero
    have divides : 4 ∣ 4 * ((length + 2) / 3) + 1 :=
      Nat.dvd_trans (Nat.dvd_mul_right 4 width) (Nat.dvd_of_mod_eq_zero isZero)
    omega
  have lines : (4 * ((length + 2) / 3) + 1) / (4 * width) = (length + 2) / 3 / width := by
    rw [← Nat.div_div_eq_div_mul]
    congr 1
    omega
  rw [base64EncodeNlLen, base64EncodeIntenalLen, inlineLen_of_le small,
    if_pos (Int.natCast_pos.mpr (by omega))]
  dsimp only
  have breaks : ∀ count : Nat, count ≤ (length + 2) / 3 →
      wrapInt (count * 2) = (2 * count : Nat) := by
    intro count bounded
    rw [wrapInt_of_le (by omega) (by rw [intMax] at small ⊢; omega)]
    omega
  rw [← Int.ofNat_tdiv, ← Int.ofNat_tmod, lines, breaks _ (Nat.div_le_self _ _),
    if_neg (fun both => odd (Int.natCast_eq_zero.mp both.2)),
    ← Int.natCast_add, wrappedLen]

theorem length_base64EncodeNl_le_iff {width : Nat} (pos : 0 < width) (bytes : Bytes) :
    ((base64EncodeNl (4 * width) bytes).length + 1 : Int) ≤
        base64EncodeNlLen bytes.length (4 * width : Nat) ↔
      wrappedLen bytes.length width ≤ intMax := by
  have fewer : bytes.length / 3 / width ≤ (bytes.length + 2) / 3 / width :=
    Nat.div_le_div_right (by omega)
  have length := length_base64EncodeInternal width pos 0 bytes
  simp only [Nat.mul_zero, Nat.zero_add, Nat.zero_div, Nat.sub_zero] at length
  rw [base64EncodeNl, length]
  by_cases small : 4 * ((bytes.length + 2) / 3) + 1 ≤ intMax
  · rw [base64EncodeNlLen_eq pos small]
    by_cases fits : wrappedLen bytes.length width ≤ intMax
    · rw [wrapInt_of_le (by omega) (by omega), wrappedLen]
      rw [wrappedLen] at fits
      omega
    · rw [wrappedLen] at fits ⊢
      have shorter := Nat.div_le_self ((bytes.length + 2) / 3) width
      have negative := @wrapInt_neg (4 * ((bytes.length + 2) / 3) + 1 +
        2 * ((bytes.length + 2) / 3 / width) : Nat) (by omega)
        (by rw [intMax] at small; omega)
      omega
  · have longest : base64EncodeNlLen bytes.length (4 * width : Nat) ≤ intMax := by
      rw [base64EncodeNlLen, base64EncodeIntenalLen]
      split_ifs <;> exact wrapInt_le _
    rw [wrappedLen]
    omega

/-! ## Lines -/

def Unbroken (line : Bytes) : Prop := ∀ byte ∈ line, isLineBreak byte = false

/-- Lines of one width, each with its line break, and a last line. -/
def InLines (width : Nat) (text : Bytes) : Prop :=
  ∃ (lines : List Bytes) (last : Bytes), text =
      (lines.flatMap fun line => line ++ [Byte.cr, Byte.lf]) ++ last ∧
    (∀ line ∈ lines, line.length = width ∧ Unbroken line) ∧
    last.length ≤ width ∧ Unbroken last

private theorem unbroken_base64Encode (bytes : Bytes) : Unbroken (base64Encode bytes) := by
  intro byte isIn
  have large := (base64Encode_plain isIn).1
  rw [isLineBreak, Bool.or_eq_false_iff, beq_eq_false_iff_ne, beq_eq_false_iff_ne]
  constructor
  · rintro rfl
    exact absurd large (by decide)
  · rintro rfl
    exact absurd large (by decide)

theorem Unbroken.append {front behind : Bytes} (isFront : Unbroken front)
    (isBehind : Unbroken behind) : Unbroken (front ++ behind) := by
  intro byte isIn
  exact (List.mem_append.mp isIn).elim (isFront byte) (isBehind byte)

/-- `start` is the part of a line in front of a group. -/
theorem inLines_base64EncodeInternal (width : Nat) (pos : 0 < width)
    (groups : Nat) (bytes start : Bytes) (unbroken : Unbroken start)
    (length : start.length = 4 * (groups % width)) :
    InLines (4 * width) (start ++ base64EncodeInternal (4 * width) (4 * groups) bytes) := by
  have room : groups % width < width := Nat.mod_lt groups pos
  have last : ∀ rest : Bytes, rest.length ≤ 3 →
      InLines (4 * width) (start ++ base64Encode rest) := by
    intro rest short
    refine ⟨[], start ++ base64Encode rest, ?_, nofun, ?_,
      unbroken.append (unbroken_base64Encode rest)⟩
    · rw [List.flatMap_nil, List.nil_append]
    · rw [List.length_append, length, length_base64Encode]
      omega
  match bytes with
  | [] => exact last [] (by simp)
  | [first] => exact last [first] (by simp)
  | [first, second] => exact last [first, second] (by simp)
  | first :: second :: third :: rest =>
    have next : 4 * groups + 4 = 4 * (groups + 1) := by omega
    have joined := unbroken.append (unbroken_base64Encode [first, second, third])
    have joinedLength : (start ++ base64Encode [first, second, third]).length =
          4 * (groups % width + 1) := by
      rw [List.length_append, length, length_base64Encode]
      simp only [List.length_cons, List.length_nil]
      omega
    rw [base64EncodeInternal, next, lineBreak, Nat.mul_mod_mul_left, ← List.append_assoc]
    by_cases ends : (groups + 1) % width = 0
    · obtain ⟨lines, final, isText, areLines, isFinal⟩ :=
        inLines_base64EncodeInternal width pos (groups + 1) rest [] nofun (by rw [ends]; rfl)
      have full : groups % width + 1 = width := by
        by_contra notFull
        rw [Nat.add_mod, Nat.mod_eq_of_lt (a := 1) (by omega), Nat.mod_eq_of_lt (by omega)] at ends
        omega
      rw [full] at joinedLength
      refine ⟨(start ++ base64Encode [first, second, third]) :: lines, final, ?_, ?_, isFinal⟩
      · rw [if_pos ⟨by omega, by omega⟩]
        rw [List.nil_append] at isText
        rw [isText, List.flatMap_cons]
        simp only [List.append_assoc]
      · rw [List.forall_mem_cons]
        exact ⟨⟨joinedLength, joined⟩, areLines⟩
    · have goesOn : (groups + 1) % width = groups % width + 1 := by
        rw [← Nat.mod_add_mod] at ends ⊢
        apply Nat.mod_eq_of_lt
        by_contra notLess
        rw [show groups % width + 1 = width by omega, Nat.mod_self] at ends
        exact ends rfl
      rw [if_neg (fun both => ends (by omega)), List.nil_append]
      exact inLines_base64EncodeInternal width pos (groups + 1) rest _
        joined (by rw [joinedLength, goesOn])

/-! ## Decoding -/

theorem codedCount_lineBreak (pc : Nat) (behind : Bytes) :
    codedCount (lineBreak wrap pc ++ behind) = codedCount behind := by
  unfold lineBreak
  split
  · simp [codedCount, isLineBreak]
  · rfl

theorem codedCount_base64EncodeInternal (pc : Nat) (bytes : Bytes) :
    codedCount (base64EncodeInternal wrap pc bytes) = (4 * bytes.length + 2) / 3 := by
  match bytes with
  | [] => rfl
  | [first] =>
    have isSecond := isSix_second first 0
    simp only [UInt8.zero_and, UInt8.zero_shiftRight, UInt8.or_zero] at isSecond
    rw [base64EncodeInternal, base64Encode,
      codedCount_basis64 (isSix_first first), codedCount_basis64 isSecond,
      codedCount_equal]
    · simp
    · simp
  | [first, second] =>
    have isThird := isSix_third second 0
    simp only [UInt8.zero_and, UInt8.zero_shiftRight, UInt8.or_zero] at isThird
    rw [base64EncodeInternal, base64Encode, codedCount_basis64 (isSix_first first),
      codedCount_basis64 (isSix_second first second),
      codedCount_basis64 isThird, codedCount_equal]
    · simp
    · simp
  | first :: second :: third :: rest =>
    rw [base64EncodeInternal, (group_read first second third _).1,
      codedCount_lineBreak, codedCount_base64EncodeInternal (pc + 4) rest]
    simp only [List.length_cons]
    omega

/-- Line breaks are skipped in front of a group that is not the last. -/
theorem decodeLoop_lineBreak {count : Nat} (isMore : 4 < count) (pc : Nat) (behind : Bytes) :
    decodeLoop count (lineBreak wrap pc ++ behind) =
      decodeLoop count behind := by
  unfold lineBreak
  split
  · have feed : decodeLoop count (Byte.lf :: behind) =
        decodeLoop count behind := by
      rw [decodeLoop, if_pos isMore, List.headD_cons, if_pos (by decide), List.tail_cons]
    rw [← feed, decodeLoop, if_pos isMore, List.cons_append,
      List.headD_cons, if_pos (by decide), List.tail_cons]
    rfl
  · rfl

/-- The bytes that belong to the last group. -/
def lastGroup (bytes : Bytes) : Bytes := bytes.drop ((bytes.length - 1) / 3 * 3)

/-- A line ends in front of the last group; `pc` counts the characters of the
groups before. -/
def BreaksBeforeLast (wrap pc : Nat) (bytes : Bytes) : Prop :=
  0 < (bytes.length - 1) / 3 ∧ (pc + (bytes.length - 1) / 3 * 4) % wrap = 0

instance (wrap pc : Nat) (bytes : Bytes) : Decidable (BreaksBeforeLast wrap pc bytes) :=
  inferInstanceAs (Decidable (_ ∧ _))

/-- What is read in place of a group from a line break on. -/
theorem broken_read (behind : Bytes) : firstByte (Byte.cr :: Byte.lf :: behind) = 4 ∧
    secondByte (Byte.cr :: Byte.lf :: behind) = sixAt behind 0 >>> 2 ∧
    thirdByte (Byte.cr :: Byte.lf :: behind) = sixAt behind 0 <<< 6 ||| sixAt behind 1 := by
  refine ⟨?_, ?_, ?_⟩
  · have joined : pr2six Byte.cr <<< 2 ||| pr2six Byte.lf >>> 4 = 4 := by
      decide
    exact joined
  · have nothing : pr2six Byte.lf <<< 4 = 0 := by decide
    have isFeed : sixAt (Byte.lf :: behind) 0 = pr2six Byte.lf := rfl
    rw [secondByte, sixAt_cons, isFeed, nothing, sixAt_cons, sixAt_cons, UInt8.zero_or]
  · rw [thirdByte, sixAt_cons, sixAt_cons, sixAt_cons, sixAt_cons]

/-- Only few bytes are what is read in place of the last group. -/
theorem decodeLoop_broken {last : Bytes} (some : last ≠ []) (short : last.length ≤ 3) (pc : Nat) :
    decodeLoop ((4 * last.length + 2) / 3)
        (Byte.cr :: Byte.lf :: base64EncodeInternal wrap pc last) = last ↔
      last <+: [4, 0, 64] := by
  obtain ⟨isFirst, isSecond, isThird⟩ := broken_read (base64EncodeInternal wrap pc last)
  rw [decodeLoop, if_neg (by omega), isFirst, isSecond, isThird]
  clear isFirst isSecond isThird
  rcases last with _ | ⟨first, _ | ⟨second, _ | ⟨third, _ | _⟩⟩⟩
  · exact absurd rfl some
  · simp [eq_comm]
  · have pair : [(4 : UInt8), (first >>> 2 &&& 0x3F) >>> 2] =
        [first, second] ↔ [first, second] <+: [4, 0, 64] := by
      simp only [List.cons_prefix_cons, List.cons.injEq, List.nil_prefix, and_true]
      constructor
      · rintro ⟨rfl, rfl⟩
        decide
      · rintro ⟨rfl, rfl⟩
        decide
    rw [base64EncodeInternal, base64Encode, sixAt_basis64 (isSix_first first)]
    · rw [if_pos (by simp), if_pos (by simp), if_neg (by simp)]
      exact pair
    · simp
  · have triple : [(4 : UInt8), (first >>> 2 &&& 0x3F) >>> 2, (first >>> 2 &&& 0x3F) <<< 6 |||
            ((first &&& 0x3) <<< 4 ||| (second &&& 0xF0) >>> 4)] =
          [first, second, third] ↔
        [first, second, third] <+: [4, 0, 64] := by
      simp only [List.cons_prefix_cons, List.cons.injEq, List.nil_prefix, and_true]
      constructor
      · rintro ⟨rfl, rfl, rfl⟩
        decide
      · rintro ⟨rfl, rfl, rfl⟩
        decide
    rw [base64EncodeInternal, base64Encode]
    simp only [List.cons_append, sixAt_cons, sixAt_basis64 (isSix_first first),
      sixAt_basis64 (isSix_second first second)]
    rw [if_pos (by simp), if_pos (by simp), if_pos (by simp)]
    exact triple
  · simp only [List.length_cons] at short
    omega

private theorem breaksBeforeLast_short {bytes : Bytes} (short : bytes.length ≤ 3)
    (pc : Nat) : ¬ BreaksBeforeLast wrap pc bytes := by
  intro breaks
  have more := breaks.1
  omega

/-- The text is decoded if and only if no line ends in front of its last group,
apart from the bytes that are read there anyway. -/
theorem base64Decode_base64EncodeInternal (pos : 0 < wrap) (pc : Nat) (bytes : Bytes) :
    base64Decode (base64EncodeInternal wrap pc bytes) = bytes ↔
      ¬ BreaksBeforeLast wrap pc bytes ∨ lastGroup bytes <+: [4, 0, 64] := by
  match bytes with
  | [] | [_] | [_, _] =>
    exact iff_of_true (base64Decode_base64Encode _) (Or.inl (breaksBeforeLast_short (by simp) pc))
  | first :: second :: third :: rest =>
    have ih := base64Decode_base64EncodeInternal pos (pc + 4) rest
    rw [base64Decode, codedCount_base64EncodeInternal] at ih
    rw [base64Decode, base64EncodeInternal,
      (group_read first second third _).1, codedCount_lineBreak,
      codedCount_base64EncodeInternal, decodeLoop_group]
    simp only [List.cons_append, List.nil_append, List.cons.injEq, true_and]
    by_cases none : rest = []
    · rw [none]
      refine iff_of_true ?_ (Or.inl (breaksBeforeLast_short (by simp) pc))
      simp [decodeLoop]
    have some : 0 < rest.length := List.length_pos_iff.mpr none
    have groups : ((first :: second :: third :: rest).length - 1) / 3 =
        (rest.length - 1) / 3 + 1 := by
      simp only [List.length_cons]
      omega
    have sameLast : lastGroup (first :: second :: third :: rest) =
        lastGroup rest := by
      rw [lastGroup, groups, Nat.add_mul, lastGroup]
      rfl
    have count : pc + ((rest.length - 1) / 3 + 1) * 4 =
        pc + 4 + (rest.length - 1) / 3 * 4 := by omega
    by_cases isLast : rest.length ≤ 3
    · have alone : (rest.length - 1) / 3 = 0 := by omega
      have whole : lastGroup rest = rest := by
        rw [lastGroup, alone]
        rfl
      rw [sameLast, BreaksBeforeLast, groups, count, alone, lineBreak]
      by_cases ends : (pc + 4) % wrap = 0
      · rw [if_pos ⟨pos, ends⟩, whole]
        have broken := @decodeLoop_broken wrap _ none isLast (pc + 4)
        simpa [ends] using broken
      · rw [if_neg (fun both => ends both.2), List.nil_append]
        exact iff_of_true (ih.mpr (Or.inl (breaksBeforeLast_short isLast (pc + 4))))
          (Or.inl fun both => ends both.2)
    · have breaks : BreaksBeforeLast wrap pc (first :: second :: third :: rest) ↔
            BreaksBeforeLast wrap (pc + 4) rest := by
        rw [BreaksBeforeLast, groups, BreaksBeforeLast, count]
        exact and_congr_left' (by omega)
      rw [decodeLoop_lineBreak (by omega), sameLast, breaks, ih]

/-- The text is no longer than announced exactly if the announced length is an
`int`; it has lines of the width, and its bytes come back if no line ends in
front of its last group. -/
theorem base64EncodeNl_decoded (bytes : Bytes) (width : Nat) (pos : 0 < width) :
    (((base64EncodeNl (4 * width) bytes).length + 1 : Int) ≤
        base64EncodeNlLen bytes.length (4 * width : Nat) ↔
      wrappedLen bytes.length width ≤ intMax) ∧
    (wrappedLen bytes.length width ≤ intMax →
      InLines (4 * width) (base64EncodeNl (4 * width) bytes) ∧
      decodedSize (codedCount (base64EncodeNl (4 * width) bytes)) = bytes.length ∧
      (base64Decode (base64EncodeNl (4 * width) bytes) = bytes ↔
        ¬ BreaksBeforeLast (4 * width) 0 bytes ∨ lastGroup bytes <+: [4, 0, 64])) := by
  refine ⟨length_base64EncodeNl_le_iff pos bytes, fun _ => ⟨?_, ?_, ?_⟩⟩
  · exact inLines_base64EncodeInternal width pos 0 bytes [] nofun (by rw [Nat.zero_mod]; rfl)
  · rw [base64EncodeNl, codedCount_base64EncodeInternal,
      ← @codedCount_base64EncodeInternal 0 0 bytes,
      base64EncodeInternal_zero]
    exact decodedSize_base64Encode bytes
  · rw [base64EncodeNl]
    exact base64Decode_base64EncodeInternal (by omega) 0 bytes

theorem base64EncodeNl_decoded_line : base64Decode (base64EncodeNl (4 * 2) (ascii "abcdefghijkl")) =
      ascii "abcdefghijkl" :=
  ((base64EncodeNl_decoded (ascii "abcdefghijkl") 2 (by decide)).2
    (by decide)).2.2.mpr (Or.inl (by decide))

/-- Two groups in two lines. -/
theorem base64EncodeNl_broken : base64EncodeNl 4 (ascii "abcdef") = ascii "YWJj\r\nZGVm\r\n" ∧
    base64Decode (base64EncodeNl 4 (ascii "abcdef")) ≠ ascii "abcdef" := by
  have decoded := @base64Decode_base64EncodeInternal 4 (by decide) 0 (ascii "abcdef")
  constructor
  · decide +kernel
  · rw [base64EncodeNl, ne_eq, decoded]
    decide

end CWebFramework.Base64
