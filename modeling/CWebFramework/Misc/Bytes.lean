import Mathlib.Algebra.Order.Ring.Nat
import Mathlib.Data.List.Basic
import Mathlib.Data.List.TakeWhile

/-!
# Byte strings

A `char*` with a length is modeled as a list of bytes.  The definitions of
this module are those of `misc/helpers.c` and `httpparsercommon.c` that the
protocol parsers share.  Memory allocation is assumed to succeed.
-/

namespace CWebFramework

abbrev Bytes := List UInt8

def ascii (text : String) : Bytes := text.toList.map fun letter => letter.toNat.toUInt8

def cstring (bytes : Bytes) : Bytes := bytes.takeWhile (· != 0)

theorem cstring_eq_self_iff (text : Bytes) : cstring text = text ↔ 0 ∉ text := by
  rw [cstring, List.takeWhile_eq_self_iff]
  constructor
  · intro plain isIn
    exact absurd (plain 0 isIn) (by decide)
  · intro plain byte isIn
    rw [bne_iff_ne]
    exact ne_of_mem_of_not_mem isIn plain

theorem cstring_of_notMem {text : Bytes} (plain : 0 ∉ text) : cstring text = text :=
  (cstring_eq_self_iff text).mpr plain

theorem cstring_append {front : Bytes} (noNul : 0 ∉ front) (behind : Bytes) :
    cstring (front ++ behind) = front ++ cstring behind := by
  apply List.takeWhile_append_of_pos
  intro byte isIn
  rw [bne_iff_ne]
  rintro rfl
  exact noNul isIn

theorem cstring_append_of_mem {front : Bytes} (isIn : 0 ∈ front)
    (behind : Bytes) : cstring (front ++ behind) = cstring front := by
  obtain ⟨before, rest, rfl, noNul⟩ := List.eq_append_cons_of_mem isIn
  rw [List.append_assoc, cstring_append noNul, cstring_append noNul]
  rfl

theorem length_cstring_append_lt {front : Bytes} (isIn : 0 ∈ front)
    (behind : Bytes) : (cstring (front ++ behind)).length < front.length := by
  obtain ⟨before, rest, rfl, noNul⟩ := List.eq_append_cons_of_mem isIn
  rw [List.append_assoc, cstring_append noNul]
  simp [cstring]

theorem zero_notMem_cstring (text : Bytes) : 0 ∉ cstring text := by
  intro isIn
  have nonzero := List.mem_takeWhile_imp isIn
  simp at nonzero

theorem forall_byte {property : UInt8 → Prop}
    (each : ∀ value : Fin 256, property (UInt8.ofNat value)) (byte : UInt8) :
    property byte := by
  have atByte := each ⟨byte.toNat, byte.toNat_lt⟩
  rwa [UInt8.ofNat_toNat] at atByte

theorem forall_mem_of_all {α : Type} {property : α → Prop} [DecidablePred property] {items : List α}
    (all : (items.all fun item => decide (property item)) = true) :
    ∀ item ∈ items, property item := by
  intro item isItem
  exact of_decide_eq_true (List.all_eq_true.mp all item isItem)

namespace Byte

abbrev ht : UInt8 := 9
abbrev lf : UInt8 := 10
abbrev cr : UInt8 := 13
abbrev space : UInt8 := 32
abbrev hash : UInt8 := 35
abbrev percent : UInt8 := 37
abbrev ampersand : UInt8 := 38
abbrev plus : UInt8 := 43
abbrev comma : UInt8 := 44
abbrev dot : UInt8 := 46
abbrev slash : UInt8 := 47
abbrev colon : UInt8 := 58
abbrev semicolon : UInt8 := 59
abbrev equal : UInt8 := 61
abbrev question : UInt8 := 63
abbrev openBracket : UInt8 := 91
abbrev closeBracket : UInt8 := 93

end Byte

/-- `tolower` in the C locale. -/
def tolower (byte : UInt8) : UInt8 :=
  if 65 ≤ byte ∧ byte ≤ 90 then byte + 32 else byte

/-- `isdigit` in the C locale. -/
def isdigit (byte : UInt8) : Bool :=
  decide (48 ≤ byte ∧ byte ≤ 57)

/-- `isspace` in the C locale. -/
def isspace (byte : UInt8) : Bool := byte == 32 || decide (9 ≤ byte ∧ byte ≤ 13)

def isTokenByte (byte : UInt8) : Bool :=
  33 ≤ byte && byte ≤ 126 && !(ascii "\"(),/:;<=>?@[\\]{}").contains byte

/-- `httpparser_is_ctl`. The `char` argument is signed, so a byte above 127
is negative there and not a control character. -/
def httpparserIsCtl (byte : UInt8) : Bool :=
  decide (byte ≤ 31 ∨ byte = 127)

/-- The space and tab test that the parsers write out for optional
whitespace. -/
def isOws (byte : UInt8) : Bool := byte == Byte.space || byte == Byte.ht

/-- `cmpstrn_lower`: equality up to ASCII case. -/
def cmpstrnLower (left right : Bytes) : Bool :=
  left.length == right.length && (left.zip right).all fun pair => tolower pair.1 == tolower pair.2

theorem cmpstrnLower_iff (left right : Bytes) : cmpstrnLower left right = true ↔
      left.map tolower = right.map tolower := by
  induction left generalizing right with
  | nil =>
    cases right with
    | nil => simp [cmpstrnLower]
    | cons head tail => simp [cmpstrnLower]
  | cons first rest ih =>
    cases right with
    | nil => simp [cmpstrnLower]
    | cons head tail =>
      have tailCase := ih tail
      simp only [cmpstrnLower, Bool.and_eq_true, beq_iff_eq] at tailCase
      simp only [cmpstrnLower, List.length_cons, List.zip_cons_cons,
        List.all_cons, Bool.and_eq_true, beq_iff_eq, List.map_cons,
        List.cons.injEq, ← tailCase, Nat.add_right_cancel_iff]
      tauto

def hexCharToInt (byte : UInt8) : Option UInt8 :=
  if 48 ≤ byte ∧ byte ≤ 57 then some (byte - 48)
  else if 97 ≤ byte ∧ byte ≤ 102 then some (byte - 97 + 10)
  else if 65 ≤ byte ∧ byte ≤ 70 then some (byte - 65 + 10)
  else none

/-- `urldecodel`. A `%` that does not start a complete escape stays as it
is, and `+` becomes a space. -/
def urldecodel : Bytes → Bytes
  | [] => []
  | byte :: rest =>
    if byte = Byte.percent then
      match rest with
      | high :: low :: tail =>
        match hexCharToInt high, hexCharToInt low with
        | some hi, some lo => (hi <<< 4 ||| lo) :: urldecodel tail
        | _, _ => Byte.percent :: urldecodel (high :: low :: tail)
      | short => Byte.percent :: urldecodel short
    else if byte = Byte.plus then
      Byte.space :: urldecodel rest
    else
      byte :: urldecodel rest

/-- The scan of `is_path_traversal` with its three remembered characters. -/
def pathTraversalScan (first second third : UInt8) : Bytes → Bool
  | [] =>
    first == Byte.slash && second == Byte.dot && third == Byte.dot
  | byte :: rest =>
    (first == Byte.slash && second == Byte.dot && third == Byte.dot && byte == Byte.slash) ||
      pathTraversalScan second third byte rest

/-- `is_path_traversal`: some segment of the path is `..`. -/
def isPathTraversal (path : Bytes) : Bool := pathTraversalScan 0 0 Byte.slash path

/-- The value that `strtoull` reads from a string of digits, before the range
check. -/
def digitsValue (digits : Bytes) : Nat :=
  digits.foldl (fun value digit => 10 * value + (digit - 48).toNat) 0

/-- `strtoull` on a string of digits: `none` stands for `ERANGE`. -/
def strtoull (digits : Bytes) : Option Nat :=
  if digitsValue digits < 2 ^ 64 then some (digitsValue digits) else none

/-! ## Numbers of type `int` -/

def intMax : Nat := 2147483647

/-- What an `int` computation gives in two's complement. -/
def wrapInt (value : Int) : Int := value.bmod 4294967296

theorem wrapInt_add (left right : Int) : wrapInt (wrapInt left + right) = wrapInt (left + right) :=
  Int.bmod_add_bmod

theorem wrapInt_le (value : Int) : wrapInt value ≤ intMax :=
  Int.le_of_lt_add_one (Int.bmod_lt (by decide))

theorem wrapInt_of_le {value : Int} (nonneg : 0 ≤ value)
    (small : value ≤ intMax) : wrapInt value = value := by
  rw [intMax] at small
  exact Int.bmod_eq_of_le (by omega) (by omega)

theorem wrapInt_neg {value : Int} (large : intMax < value)
    (below : value < 4294967296) : wrapInt value < 0 := by
  rw [intMax] at large
  rw [wrapInt, Int.bmod_def]
  split_ifs <;> omega

theorem wrapInt_eq_self_iff {value : Int} (nonneg : 0 ≤ value) :
    wrapInt value = value ↔ value ≤ intMax :=
  ⟨fun same => same ▸ wrapInt_le value, wrapInt_of_le nonneg⟩

end CWebFramework
