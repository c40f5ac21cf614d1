import CWebFramework.Misc.Bytes

/-!
# Percent coding

`urlencodel` of `misc/helpers.c`, and that `urldecodel` reads back what it
writes.
-/

namespace CWebFramework

/-- `isalnum` in the C locale. -/
def isalnum (byte : UInt8) : Bool :=
  decide ((48 ≤ byte ∧ byte ≤ 57) ∨ (65 ≤ byte ∧ byte ≤ 90) ∨ (97 ≤ byte ∧ byte ≤ 122))

def byteToHex (code : UInt8) : UInt8 := (ascii "0123456789ABCDEF").getD (code &&& 0x0F).toNat 0

/-- The bytes that `urlencodel` leaves as they are. -/
def isUnreserved (byte : UInt8) : Bool :=
  isalnum byte || byte == 45 || byte == 95 || byte == Byte.dot || byte == 126

/-- What `urlencodel` writes for one byte. -/
def urlencodeByte (byte : UInt8) : Bytes :=
  if isUnreserved byte then [byte]
  else if byte = Byte.space then [Byte.plus]
  else [Byte.percent, byteToHex (byte >>> 4), byteToHex (byte &&& 15)]

def urlencodel (text : Bytes) : Bytes := text.flatMap urlencodeByte

theorem urlencodel_cons (byte : UInt8) (text : Bytes) :
    urlencodel (byte :: text) = urlencodeByte byte ++ urlencodel text :=
  rfl

/-- The two digits of an escape give the byte, and a byte without escape does
not look like one. -/
theorem urlencodeByte_facts : ∀ byte : UInt8,
    (isUnreserved byte = true → byte ≠ Byte.percent ∧ byte ≠ Byte.plus) ∧
      hexCharToInt (byteToHex (byte >>> 4)) = some (byte >>> 4) ∧
      hexCharToInt (byteToHex (byte &&& 15)) = some (byte &&& 15) ∧
      (byte >>> 4) <<< 4 ||| (byte &&& 15) = byte :=
  forall_byte (by decide +kernel)

theorem urldecodel_plain {byte : UInt8} (notPercent : byte ≠ Byte.percent)
    (notPlus : byte ≠ Byte.plus) (text : Bytes) :
    urldecodel (byte :: text) = byte :: urldecodel text := by
  rcases text with _ | ⟨first, _ | ⟨second, rest⟩⟩
  · simp [urldecodel, notPercent, notPlus]
  · simp [urldecodel, notPercent, notPlus]
  · simp [urldecodel, notPercent, notPlus]

private theorem urldecodel_plus (text : Bytes) :
    urldecodel (Byte.plus :: text) = Byte.space :: urldecodel text := by
  have notPercent : Byte.plus ≠ Byte.percent := by decide
  rcases text with _ | ⟨first, _ | ⟨second, rest⟩⟩
  · simp [urldecodel, notPercent]
  · simp [urldecodel, notPercent]
  · simp [urldecodel, notPercent]

private theorem urldecodel_escape {high low hi lo : UInt8}
    (isHigh : hexCharToInt high = some hi) (isLow : hexCharToInt low = some lo)
    (text : Bytes) :
    urldecodel (Byte.percent :: high :: low :: text) = (hi <<< 4 ||| lo) :: urldecodel text := by
  rw [urldecodel, if_pos rfl]
  simp only [isHigh, isLow]

private theorem urldecodel_urlencodeByte (byte : UInt8) (text : Bytes) :
    urldecodel (urlencodeByte byte ++ text) = byte :: urldecodel text := by
  obtain ⟨plain, high, low, together⟩ := urlencodeByte_facts byte
  unfold urlencodeByte
  by_cases unreserved : isUnreserved byte = true
  · rw [if_pos unreserved]
    exact urldecodel_plain (plain unreserved).1 (plain unreserved).2 text
  · rw [if_neg unreserved]
    by_cases space : byte = Byte.space
    · rw [if_pos space, space]
      exact urldecodel_plus text
    · rw [if_neg space]
      have escape := urldecodel_escape high low text
      rw [together] at escape
      exact escape

theorem urldecodel_urlencodel (text : Bytes) : urldecodel (urlencodel text) = text := by
  induction text with
  | nil => rfl
  | cons byte text ih =>
    rw [urlencodel_cons, urldecodel_urlencodeByte, ih]

theorem urlencodel_free (text : Bytes) : ∀ letter ∈ urlencodel text,
      letter ≠ 0 ∧ letter ≠ Byte.hash ∧ letter ≠ Byte.ampersand ∧
        letter ≠ Byte.equal ∧ letter ≠ Byte.question ∧
        letter ≠ Byte.slash ∧ letter ≠ Byte.space := by
  intro letter isIn
  obtain ⟨byte, -, isLetter⟩ := List.mem_flatMap.mp isIn
  clear isIn
  revert letter
  apply forall_mem_of_all
  revert byte
  exact forall_byte (by decide +kernel)

theorem length_urldecodel_le (text : Bytes) : (urldecodel text).length ≤ text.length := by
  fun_induction urldecodel text with
  | case1 => exact Nat.le_refl _
  | case2 high low tail hi lo isLow isHigh ih =>
    simp only [List.length_cons]
    omega
  | case3 high low tail notBoth ih =>
    exact Nat.succ_le_succ ih
  | case4 short isShort ih =>
    exact Nat.succ_le_succ ih
  | case5 rest notPercent ih =>
    exact Nat.succ_le_succ ih
  | case6 byte rest notPercent notPlus ih =>
    exact Nat.succ_le_succ ih

end CWebFramework
