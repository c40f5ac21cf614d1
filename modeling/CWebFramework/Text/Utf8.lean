import Mathlib.Data.List.Basic

/-!
# UTF-8

A byte string is UTF-8 when it is the encoding of a list of scalar values.
`EncodedChar` says the same of one scalar value by the ranges of its bytes,
which is the form that validators check.
-/

namespace CWebFramework.Text

/-- The byte string is the encoding of some text. -/
def ValidUtf8 (bytes : List UInt8) : Prop :=
  ∃ text : List Char, bytes = text.flatMap String.utf8EncodeChar

/-- The range of the second byte behind a lead byte of a longer sequence. -/
def secondRange (lead : UInt8) : UInt8 × UInt8 :=
  if lead = 0xE0 then (0xA0, 0xBF)
  else if lead = 0xED then (0x80, 0x9F)
  else if lead = 0xF0 then (0x90, 0xBF)
  else if lead = 0xF4 then (0x80, 0x8F)
  else (0x80, 0xBF)

def Within (range : UInt8 × UInt8) (byte : UInt8) : Prop := range.1 ≤ byte ∧ byte ≤ range.2

def tailRange : UInt8 × UInt8 := (0x80, 0xBF)

/-- The range of the lead byte of a sequence with so many continuation
bytes. -/
def leadRange : Nat → UInt8 × UInt8
  | 1 => (0xC2, 0xDF)
  | 2 => (0xE0, 0xEF)
  | _ => (0xF0, 0xF4)

def Continues : Nat → UInt8 × UInt8 → List UInt8 → Prop
  | 0, _, tail => tail = []
  | count + 1, range, tail =>
    ∃ byte rest, tail = byte :: rest ∧ Within range byte ∧ Continues count tailRange rest

/-- The encoding of one scalar value, by the ranges of its bytes. -/
inductive EncodedChar : List UInt8 → Prop where
  | ascii {lead : UInt8} (fits : lead ≤ 0x7F) : EncodedChar [lead]
  | sequence {lead : UInt8} {tail : List UInt8} (count : Nat)
      (positive : 0 < count) (short : count ≤ 3)
      (leadFits : Within (leadRange count) lead)
      (tailFits : Continues count (secondRange lead) tail) :
      EncodedChar (lead :: tail)

theorem within_iff (range : UInt8 × UInt8) (byte : UInt8) : Within range byte ↔
      range.1.toNat ≤ byte.toNat ∧ byte.toNat ≤ range.2.toNat := by
  simp [Within, UInt8.le_iff_toNat_le]

theorem secondRange_toNat (lead second : UInt8) : Within (secondRange lead) second ↔
      0x80 ≤ second.toNat ∧ second.toNat ≤ 0xBF ∧ (lead.toNat = 0xE0 → 0xA0 ≤ second.toNat) ∧
        (lead.toNat = 0xED → second.toNat ≤ 0x9F) ∧
        (lead.toNat = 0xF0 → 0x90 ≤ second.toNat) ∧
        (lead.toNat = 0xF4 → second.toNat ≤ 0x8F) := by
  have isLead : ∀ code : UInt8, lead = code ↔ lead.toNat = code.toNat :=
    fun code => UInt8.toNat_inj.symm
  simp only [within_iff, secondRange, isLead]
  split_ifs <;> simp_all <;> omega

theorem encodedChar_of_utf8EncodeChar {bytes : List UInt8} {letter : Char}
    (encoded : String.utf8EncodeChar letter = bytes) : EncodedChar bytes := by
  subst encoded
  have valid : letter.val.toNat.isValidChar := letter.valid
  simp only [Nat.isValidChar] at valid
  generalize valueEq : letter.val.toNat = value at valid
  simp only [String.utf8EncodeChar, valueEq]
  split_ifs with isOne isTwo isThree
  · refine .ascii ?_
    simp [UInt8.le_iff_toNat_le]
    omega
  · refine .sequence 1 (by decide) (by decide) ?_ ⟨_, _, rfl, ?_, rfl⟩
    · simp [within_iff, leadRange]
      omega
    · simp [secondRange_toNat]
      omega
  · refine .sequence 2 (by decide) (by decide) ?_ ⟨_, _, rfl, ?_, _, _, rfl, ?_, rfl⟩
    · simp [within_iff, leadRange]
      omega
    · simp [secondRange_toNat]
      omega
    · simp [within_iff, tailRange]
      omega
  · refine .sequence 3 (by decide) (by decide) ?_ ⟨_, _, rfl, ?_, _, _, rfl, ?_, _, _, rfl, ?_, rfl⟩
    · simp [within_iff, leadRange]
      omega
    · simp [secondRange_toNat]
      omega
    · simp [within_iff, tailRange]
      omega
    · simp [within_iff, tailRange]
      omega

theorem exists_char (value : Nat) (valid : value.isValidChar) :
    ∃ letter : Char, letter.val.toNat = value :=
  ⟨Char.ofNatAux value valid, rfl⟩

theorem ofNat_eq_of_toNat {value : Nat} (byte : UInt8)
    (same : value = byte.toNat) : UInt8.ofNat value = byte := by
  rw [same, UInt8.ofNat_toNat]

variable {lead second : UInt8}

theorem exists_char_two (leadFits : Within (leadRange 1) lead)
    (secondFits : Within (secondRange lead) second) :
    ∃ letter : Char, String.utf8EncodeChar letter = [lead, second] := by
  have leadFacts := (within_iff _ _).mp leadFits
  have secondFacts := (secondRange_toNat _ _).mp secondFits
  simp only [leadRange, UInt8.reduceToNat] at leadFacts
  obtain ⟨letter, value⟩ := exists_char
    ((lead.toNat - 0xC0) * 64 + (second.toNat - 0x80)) (.inl (by omega))
  refine ⟨letter, ?_⟩
  simp only [String.utf8EncodeChar, value]
  rw [if_neg (by omega), if_pos (by omega),
    ofNat_eq_of_toNat lead (by omega), ofNat_eq_of_toNat second (by omega)]

theorem exists_char_three {third : UInt8} (leadFits : Within (leadRange 2) lead)
    (secondFits : Within (secondRange lead) second)
    (thirdFits : Within tailRange third) :
    ∃ letter : Char, String.utf8EncodeChar letter = [lead, second, third] := by
  have leadFacts := (within_iff _ _).mp leadFits
  have secondFacts := (secondRange_toNat _ _).mp secondFits
  have thirdFacts := (within_iff _ _).mp thirdFits
  simp only [leadRange, tailRange, UInt8.reduceToNat] at leadFacts thirdFacts
  obtain ⟨letter, value⟩ := exists_char ((lead.toNat - 0xE0) * 4096 + (second.toNat - 0x80) * 64 +
      (third.toNat - 0x80))
    (by simp only [Nat.isValidChar]; omega)
  refine ⟨letter, ?_⟩
  simp only [String.utf8EncodeChar, value]
  rw [if_neg (by omega), if_neg (by omega), if_pos (by omega),
    ofNat_eq_of_toNat lead (by omega), ofNat_eq_of_toNat second (by omega),
    ofNat_eq_of_toNat third (by omega)]

theorem exists_char_four {third fourth : UInt8} (leadFits : Within (leadRange 3) lead)
    (secondFits : Within (secondRange lead) second) (thirdFits : Within tailRange third)
    (fourthFits : Within tailRange fourth) :
    ∃ letter : Char, String.utf8EncodeChar letter = [lead, second, third, fourth] := by
  have leadFacts := (within_iff _ _).mp leadFits
  have secondFacts := (secondRange_toNat _ _).mp secondFits
  have thirdFacts := (within_iff _ _).mp thirdFits
  have fourthFacts := (within_iff _ _).mp fourthFits
  simp only [leadRange, UInt8.reduceToNat] at leadFacts
  simp only [tailRange, UInt8.reduceToNat] at thirdFacts fourthFacts
  obtain ⟨letter, value⟩ := exists_char
    ((lead.toNat - 0xF0) * 262144 + (second.toNat - 0x80) * 4096 +
      (third.toNat - 0x80) * 64 + (fourth.toNat - 0x80))
    (by simp only [Nat.isValidChar]; omega)
  refine ⟨letter, ?_⟩
  simp only [String.utf8EncodeChar, value]
  rw [if_neg (by omega), if_neg (by omega), if_neg (by omega),
    ofNat_eq_of_toNat lead (by omega), ofNat_eq_of_toNat second (by omega),
    ofNat_eq_of_toNat third (by omega), ofNat_eq_of_toNat fourth (by omega)]

theorem EncodedChar.exists_char {bytes : List UInt8} (encoded : EncodedChar bytes) :
    ∃ letter : Char, String.utf8EncodeChar letter = bytes := by
  cases encoded with
  | @ascii lead fits =>
    have small : lead.toNat ≤ 0x7F := UInt8.le_iff_toNat_le.mp fits
    obtain ⟨letter, value⟩ := Text.exists_char lead.toNat (.inl (by omega))
    refine ⟨letter, ?_⟩
    simp only [String.utf8EncodeChar, value, if_pos small, UInt8.ofNat_toNat]
  | sequence count positive short leadFits tailFits =>
    have counts : count = 1 ∨ count = 2 ∨ count = 3 := by omega
    rcases counts with rfl | rfl | rfl
    · obtain ⟨second, _, rfl, secondFits, rfl⟩ := tailFits
      exact exists_char_two leadFits secondFits
    · obtain ⟨second, _, rfl, secondFits, third, _, rfl, thirdFits, rfl⟩ := tailFits
      exact exists_char_three leadFits secondFits thirdFits
    · obtain ⟨second, _, rfl, secondFits, third, _, rfl, thirdFits,
        fourth, _, rfl, fourthFits, rfl⟩ := tailFits
      exact exists_char_four leadFits secondFits thirdFits fourthFits

@[simp]
theorem validUtf8_nil : ValidUtf8 [] := ⟨[], rfl⟩

theorem EncodedChar.append_valid {letter rest : List UInt8}
    (encoded : EncodedChar letter) (valid : ValidUtf8 rest) :
    ValidUtf8 (letter ++ rest) := by
  obtain ⟨first, rfl⟩ := encoded.exists_char
  obtain ⟨text, rfl⟩ := valid
  exact ⟨first :: text, rfl⟩

theorem ValidUtf8.split {bytes : List UInt8} (valid : ValidUtf8 bytes) (nonempty : bytes ≠ []) :
    ∃ letter rest, bytes = letter ++ rest ∧ EncodedChar letter ∧
      ValidUtf8 rest := by
  obtain ⟨text, rfl⟩ := valid
  cases text with
  | nil => exact absurd rfl nonempty
  | cons first text =>
    exact ⟨_, _, rfl, encodedChar_of_utf8EncodeChar rfl, text, rfl⟩

theorem EncodedChar.ne_nil {letter : List UInt8} (encoded : EncodedChar letter) : letter ≠ [] := by
  cases encoded <;> exact List.cons_ne_nil _ _

end CWebFramework.Text
