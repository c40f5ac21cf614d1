import CWebFramework.Misc.Bytes

/-!
# Quoted texts

A text between quotes in which a quote is written twice.
-/

namespace CWebFramework.Quoted

def double (quote : UInt8) (text : Bytes) : Bytes :=
  text.flatMap fun c => if c = quote then [quote, quote] else [c]

/-- A text behind its opening quote, and what follows the closing one. -/
def readQuoted (quote : UInt8) : Bytes → Option (Bytes × Bytes)
  | [] => none
  | [c] => if c = quote then some ([], []) else none
  | c :: next :: rest =>
    if c = quote then
      if next = quote then
        (readQuoted quote rest).map fun found => (quote :: found.1, found.2)
      else some ([], next :: rest)
    else
      (readQuoted quote (next :: rest)).map fun found =>
        (c :: found.1, found.2)

variable {quote : UInt8}

theorem double_cons (c : UInt8) (text : Bytes) : double quote (c :: text) =
      (if c = quote then [quote, quote] else [c]) ++ double quote text := by
  rw [double, List.flatMap_cons, ← double]

theorem readQuoted_pair (rest : Bytes) : readQuoted quote (quote :: quote :: rest) =
      (readQuoted quote rest).map fun found =>
        (quote :: found.1, found.2) := by
  rw [readQuoted, if_pos rfl, if_pos rfl]

theorem readQuoted_plain {c : UInt8} (plain : c ≠ quote) (rest : Bytes) :
    readQuoted quote (c :: rest) =
      (readQuoted quote rest).map fun found => (c :: found.1, found.2) := by
  cases rest with
  | nil => exact if_neg plain
  | cons next rest => rw [readQuoted, if_neg plain]

theorem readQuoted_end {rest : Bytes} (ends : rest.head? ≠ some quote) :
    readQuoted quote (quote :: rest) = some ([], rest) := by
  cases rest with
  | nil => rw [readQuoted, if_pos rfl]
  | cons next rest =>
    rw [readQuoted, if_pos rfl, if_neg fun isNext => ends (by rw [isNext]; rfl)]

/-- The doubled text is read to its end, whatever stands behind it. -/
theorem readQuoted_double (text : Bytes) {rest : Bytes} (ends : rest.head? ≠ some quote) :
    readQuoted quote (double quote text ++ quote :: rest) = some (text, rest) := by
  induction text with
  | nil => exact readQuoted_end ends
  | cons c text ih =>
    rw [double_cons, List.append_assoc]
    by_cases isQuote : c = quote
    · rw [if_pos isQuote, isQuote]
      simp only [List.cons_append, List.nil_append]
      rw [readQuoted_pair, ih]
      rfl
    · rw [if_neg isQuote, List.singleton_append, readQuoted_plain isQuote, ih]
      rfl

/-- What is read is the doubled text. -/
theorem readQuoted_eq {written text rest : Bytes}
    (isRead : readQuoted quote written = some (text, rest)) :
    written = double quote text ++ quote :: rest := by
  fun_induction readQuoted quote written generalizing text with
  | case1 => cases isRead
  | case2 =>
    cases isRead
    rfl
  | case3 c other => cases isRead
  | case4 behind ih =>
    obtain ⟨⟨found, after⟩, isFound, same⟩ := Option.map_eq_some_iff.mp isRead
    cases same
    rw [ih isFound, double_cons, if_pos rfl]
    rfl
  | case5 next behind other =>
    cases isRead
    rfl
  | case6 c next behind other ih =>
    obtain ⟨⟨found, after⟩, isFound, same⟩ := Option.map_eq_some_iff.mp isRead
    cases same
    rw [ih isFound, double_cons, if_neg other]
    rfl

end CWebFramework.Quoted
