import Mathlib.Data.List.Infix

/-!
# Splitting at a separator

`splitPair` cuts a word at the first occurrence of a separator such as CR LF.
Its result is characterized by what it puts together again: the part before the
separator is the one that does not contain the separator.  `splitText` does so
for a separator of any length.
-/

namespace CWebFramework.Text

universe u

variable {α : Type u}

variable {first second : α} {word : List α}

theorem pair_isInfix_cons_iff {letter : α} : [first, second] <:+: letter :: word ↔
      (letter = first ∧ word.head? = some second) ∨ [first, second] <:+: word := by
  rw [List.infix_cons_iff, List.cons_prefix_cons]
  cases word with
  | nil => simp
  | cons next rest =>
    simp only [List.cons_prefix_cons, List.nil_prefix, and_true, List.head?_cons, Option.some.injEq]
    rw [eq_comm, @eq_comm _ second]

theorem pair_isInfix_append_iff {front : List α} (absent : first ∉ front) :
    [first, second] <:+: front ++ word ↔ [first, second] <:+: word := by
  induction front with
  | nil => rfl
  | cons letter front ih =>
    simp only [List.mem_cons, not_or] at absent
    rw [List.cons_append, pair_isInfix_cons_iff, ih absent.2]
    simp [Ne.symm absent.1]

variable [DecidableEq α]

/-- The parts before and behind the first occurrence of the separator. -/
def splitPair (first second : α) : List α → Option (List α × List α)
  | left :: right :: rest =>
    if left = first ∧ right = second then some ([], rest)
    else (splitPair first second (right :: rest)).map fun parts =>
      (left :: parts.1, parts.2)
  | _ => none

theorem splitPair_append (distinct : first ≠ second)
    (free : ¬ [first, second] <:+: word) (rest : List α) :
    splitPair first second (word ++ first :: second :: rest) = some (word, rest) := by
  induction word with
  | nil => simp [splitPair]
  | cons letter word ih =>
    rw [pair_isInfix_cons_iff] at free
    simp only [not_or] at free
    have tail := ih free.2
    cases word with
    | nil => simp [splitPair, distinct]
    | cons next word =>
      have notHere : ¬ (letter = first ∧ next = second) := by
        simpa using free.1
      simp only [List.cons_append] at tail ⊢
      rw [splitPair, if_neg notHere, tail]
      rfl

/-- The parts make up the word, and the first one does not contain the
separator. -/
theorem splitPair_eq_some {before after : List α}
    (split : splitPair first second word = some (before, after)) :
    word = before ++ first :: second :: after ∧ ¬ [first, second] <:+: before := by
  induction word generalizing before with
  | nil => simp [splitPair] at split
  | cons letter word ih =>
    cases word with
    | nil => simp [splitPair] at split
    | cons next word =>
      rw [splitPair] at split
      split at split
      · rename_i here
        cases split
        exact ⟨by rw [here.1, here.2]; rfl, by simp⟩
      · rename_i notHere
        obtain ⟨parts, cut, same⟩ := Option.map_eq_some_iff.mp split
        cases same
        obtain ⟨whole, free⟩ := ih cut
        refine ⟨by rw [whole]; rfl, ?_⟩
        rw [pair_isInfix_cons_iff]
        rintro (⟨isFirst, follows⟩ | inside)
        · refine notHere ⟨isFirst, ?_⟩
          cases before : parts.1 with
          | nil => simp [before] at follows
          | cons head tail =>
            rw [before] at follows whole
            cases whole
            simpa using follows
        · exact free inside

def splitText (separator : List α) : List α → Option (List α × List α)
  | [] => if separator = [] then some ([], []) else none
  | letter :: rest =>
    if separator <+: letter :: rest then
      some ([], (letter :: rest).drop separator.length)
    else (splitText separator rest).map fun parts =>
      (letter :: parts.1, parts.2)

/-- A separator whose first letter does not come again cannot begin in a word
that does not contain it and end behind the word. -/
theorem splitText_append {others : List α} (once : first ∉ others)
    (free : ¬ first :: others <:+: word) (rest : List α) :
    splitText (first :: others) (word ++ (first :: others ++ rest)) = some (word, rest) := by
  induction word with
  | nil =>
    have isFront : first :: others <+: first :: (others ++ rest) := List.prefix_append _ _
    rw [List.nil_append, List.cons_append, splitText, if_pos isFront]
    exact congrArg (fun behind => some ([], behind)) List.drop_left
  | cons letter word ih =>
    rw [List.cons_append, splitText, if_neg, ih, Option.map_some]
    · exact fun inside => free (inside.trans (List.suffix_cons _ _).isInfix)
    rintro ⟨behind, isWhole⟩
    rw [← List.cons_append] at isWhole
    rcases List.append_eq_append_iff.mp isWhole with
      ⟨middle, isWord, -⟩ | ⟨middle, isSeparator, isRest⟩
    · exact free ⟨[], middle, isWord.symm⟩
    · cases middle with
      | nil => exact free ⟨[], [], by simpa using isSeparator⟩
      | cons next middle =>
        rw [(List.cons.inj isSeparator).2, (List.cons.inj isRest).1] at once
        exact once (List.mem_append_right word List.mem_cons_self)

end CWebFramework.Text
