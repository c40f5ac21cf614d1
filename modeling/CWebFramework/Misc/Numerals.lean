import CWebFramework.Misc.Bytes
import Mathlib.Data.Nat.Digits.Lemmas

/-!
# Numbers in texts

The texts that `snprintf` makes of a number with `%zu`, `%ld` and `%zx`, and
what a reader finds in them.
-/

namespace CWebFramework

def digitChar (digit : Nat) : UInt8 :=
  if digit < 10 then (48 + digit).toUInt8 else (87 + digit).toUInt8

def numeral (base value : Nat) : Bytes :=
  if value = 0 then ascii "0"
  else (Nat.digits base value).reverse.map digitChar

def decimal (value : Nat) : Bytes := numeral 10 value

def longText (value : Int) : Bytes :=
  if value < 0 then 45 :: decimal value.natAbs else decimal value.natAbs

def hexadecimal (value : Nat) : Bytes := numeral 16 value

def hexDigitValue (byte : UInt8) : Nat := ((hexCharToInt byte).map UInt8.toNat).getD 0

def hexValue (digits : Bytes) : Nat :=
  digits.foldl (fun value digit => 16 * value + hexDigitValue digit) 0

theorem digitChar_decimal {digit : Nat} (small : digit < 10) :
    (digitChar digit - 48).toNat = digit ∧ isdigit (digitChar digit) = true := by
  interval_cases digit <;> decide

theorem digitChar_hexadecimal {digit : Nat} (small : digit < 16) :
    hexDigitValue (digitChar digit) = digit ∧ (hexCharToInt (digitChar digit)).isSome = true := by
  interval_cases digit <;> decide

/-- Reading the digits from the front is `Nat.ofDigits` on the reversed
list. -/
theorem foldl_digits (base : Nat) (value : UInt8 → Nat) (digits : List Nat) (start : Nat)
    (faithful : ∀ digit ∈ digits, value (digitChar digit) = digit) :
    (digits.map digitChar).foldl (fun total digit => base * total + value digit) start =
      Nat.ofDigits base (digits.reverse ++ [start]) := by
  induction digits generalizing start with
  | nil => simp
  | cons digit digits ih =>
    rw [List.map_cons, List.foldl_cons, ih _ fun other member =>
        faithful other (List.mem_cons_of_mem _ member),
      faithful digit List.mem_cons_self]
    simp only [List.reverse_cons, List.append_assoc, List.cons_append,
      List.nil_append, Nat.ofDigits_append, Nat.ofDigits_cons,
      Nat.ofDigits_nil]
    ring

variable {base : Nat}

theorem foldl_numeral (large : 1 < base) (value : UInt8 → Nat)
    (faithful : ∀ digit < base, value (digitChar digit) = digit)
    (number : Nat) :
    (numeral base number).foldl (fun total digit => base * total + value digit) 0 = number := by
  unfold numeral
  split
  · rename_i zero
    have zeroChar := faithful 0 (by omega)
    simpa [zero, ascii, digitChar] using zeroChar
  · rw [foldl_digits base value _ 0 fun digit member =>
        faithful digit (Nat.digits_lt_base large (List.mem_reverse.mp member)),
      List.reverse_reverse, Nat.ofDigits_append]
    simp [Nat.ofDigits_digits]

theorem digitsValue_decimal (number : Nat) : digitsValue (decimal number) = number :=
  foldl_numeral (by omega) (fun digit => (digit - 48).toNat)
    (fun _ small => (digitChar_decimal small).1) number

theorem hexValue_hexadecimal (number : Nat) : hexValue (hexadecimal number) = number :=
  foldl_numeral (by omega) hexDigitValue (fun _ small => (digitChar_hexadecimal small).1) number

theorem numeral_ne_nil (base value : Nat) : numeral base value ≠ [] := by
  unfold numeral
  split
  · decide
  · rename_i nonzero
    simp [Nat.digits_ne_nil_iff_ne_zero, nonzero]

theorem length_numeral_le {value count : Nat} (large : 1 < base)
    (positive : 0 < count) (small : value < base ^ count) :
    (numeral base value).length ≤ count := by
  unfold numeral
  split
  · exact positive
  · simp only [List.length_map, List.length_reverse]
    exact (Nat.digits_length_le_iff large value).mpr small

theorem forall_mem_numeral (large : 1 < base) {property : UInt8 → Prop}
    (digits : ∀ digit < base, property (digitChar digit)) (number : Nat) :
    ∀ byte ∈ numeral base number, property byte := by
  intro byte member
  unfold numeral at member
  split at member
  · have zeroChar := digits 0 (by omega)
    simp only [ascii, List.mem_map] at member
    obtain ⟨letter, isZero, rfl⟩ := member
    simp at isZero
    subst isZero
    exact zeroChar
  · obtain ⟨digit, isDigit, rfl⟩ := List.mem_map.mp member
    exact digits digit (Nat.digits_lt_base large (List.mem_reverse.mp isDigit))

theorem isdigit_decimal (number : Nat) : ∀ byte ∈ decimal number, isdigit byte = true := by
  refine forall_mem_numeral (by decide) ?_ number
  intro digit small
  exact (digitChar_decimal small).2

end CWebFramework
