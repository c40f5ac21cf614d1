import Mathlib.Data.List.Basic

/-!
# Format strings

A format is copied letter by letter up to a percent sign, where a directive
says what is written for the next values.  A directive without a value that it
needs has no defined result.  A text is expanded to itself without any values
exactly if it has no percent sign.
-/

namespace CWebFramework.Text

universe u v

structure Directives (Letter : Type u) (Value : Type v) where
  percent : Letter
  /-- What the directive at the front of a text writes, and the text and the
  values behind it; `none` where nothing is defined. -/
  directive : List Letter → List Value → Option (List Letter × List Letter × List Value)
  shorter : ∀ {text values output behind left},
    directive text values = some (output, behind, left) → behind.length < text.length
  /-- A second percent sign stands for itself. -/
  escaped : ∀ text values, directive (percent :: text) values = some ([percent], text, values)
  /-- All other directives need a value. -/
  missing : ∀ {text result}, directive text [] = some result → text.head? = some percent

namespace Directives

variable {Letter : Type u} {Value : Type v} [DecidableEq Letter]
  (directives : Directives Letter Value)

def expand : List Letter → List Value → Option (List Letter)
  | [], _ => some []
  | letter :: text, values =>
    if letter = directives.percent then
      match _found : directives.directive text values with
      | none => none
      | some (output, behind, left) =>
        (expand behind left).map (output ++ ·)
    else (expand text values).map (letter :: ·)
termination_by text => text.length
decreasing_by
  · have shorter := directives.shorter _found
    simp only [List.length_cons]
    omega
  · simp

theorem expand_cons_of_ne {letter : Letter}
    (plain : letter ≠ directives.percent) (text : List Letter)
    (values : List Value) :
    directives.expand (letter :: text) values =
      (directives.expand text values).map (letter :: ·) := by
  rw [expand, if_neg plain]

variable {text : List Letter}

theorem expand_directive {behind output : List Letter} {values left : List Value}
    (isDirective : directives.directive text values = some (output, behind, left)) :
    directives.expand (directives.percent :: text) values =
      (directives.expand behind left).map (output ++ ·) := by
  rw [expand, if_pos rfl]
  split
  · rename_i isNone
    rw [isNone] at isDirective
    cases isDirective
  · rename_i isSome
    rw [isSome] at isDirective
    cases isDirective
    rfl

theorem expand_nil (values : List Value) : directives.expand [] values = some [] := by
  rw [expand]

theorem expand_append {front : List Letter}
    (plain : directives.percent ∉ front) (text : List Letter)
    (values : List Value) :
    directives.expand (front ++ text) values =
      (directives.expand text values).map (front ++ ·) := by
  induction front with
  | nil => exact Option.map_id'.symm
  | cons letter front ih =>
    rw [List.mem_cons, not_or] at plain
    rw [List.cons_append, directives.expand_cons_of_ne (Ne.symm plain.1),
      ih plain.2, Option.map_map]
    rfl

theorem expand_plain (plain : directives.percent ∉ text) (values : List Value) :
    directives.expand text values = some text := by
  rw [← List.append_nil text, directives.expand_append plain, expand_nil]
  rfl

theorem length_expand {output : List Letter} (expanded : directives.expand text [] = some output) :
    output.length ≤ text.length ∧ (directives.percent ∈ text → output.length < text.length) := by
  induction length : text.length using Nat.strongRecOn generalizing text output with
  | ind length ih =>
    subst length
    cases text with
    | nil =>
      rw [expand_nil] at expanded
      cases expanded
      exact ⟨Nat.le_refl 0, nofun⟩
    | cons letter text =>
      by_cases isPercent : letter = directives.percent
      · subst isPercent
        cases isDirective : directives.directive text [] with
        | none =>
          rw [expand, if_pos rfl] at expanded
          split at expanded
          · cases expanded
          · rename_i isSome
            rw [isDirective] at isSome
            cases isSome
        | some result =>
          obtain ⟨text, rfl⟩ : ∃ behind, text = directives.percent :: behind := by
            cases text with
            | nil => cases directives.missing isDirective
            | cons first behind =>
              have same := directives.missing isDirective
              exact ⟨behind, by rw [Option.some.inj same]⟩
          rw [directives.expand_directive (directives.escaped text [])] at expanded
          obtain ⟨rest, isRest, rfl⟩ := Option.map_eq_some_iff.mp expanded
          have bound := (ih text.length (by simp only [List.length_cons]; omega) isRest rfl).1
          simp only [List.length_append, List.length_cons, List.length_nil]
          omega
      · rw [directives.expand_cons_of_ne isPercent] at expanded
        obtain ⟨rest, isRest, rfl⟩ := Option.map_eq_some_iff.mp expanded
        have bound := ih text.length (Nat.lt_succ_self _) isRest rfl
        simp only [List.length_cons, List.mem_cons]
        refine ⟨Nat.succ_le_succ bound.1, ?_⟩
        rintro (same | isIn)
        · exact absurd same.symm isPercent
        · exact Nat.succ_lt_succ (bound.2 isIn)

end Directives

end CWebFramework.Text
