import Mathlib.Data.List.Forall2

/-!
# Two partial computations

Two runs that may fail and whose results are related.  Under `strict` they
fail together; without it nothing is said when only one of them fails.
-/

namespace CWebFramework.Relation

universe u v w x

variable {α : Type u} {β : Type v} {γ : Type w} {δ : Type x}

/-- The results are related, and under `strict` both fail or none does. -/
def Together (strict : Prop) (related : α → β → Prop) : Option α → Option β → Prop
  | some left, some right => related left right
  | none, none => True
  | _, _ => ¬ strict

theorem Together.of_not_strict {strict : Prop} {related : α → β → Prop}
    {first : Option α} {second : Option β} (lax : ¬ strict)
    (both : ∀ left right, first = some left → second = some right → related left right) :
    Together strict related first second := by
  cases first with
  | none =>
    cases second with
    | none => trivial
    | some right => exact lax
  | some left =>
    cases second with
    | none => exact lax
    | some right => exact both left right rfl rfl

theorem Together.mono {strict lax : Prop} {related weaker : α → β → Prop} {first : Option α}
    {second : Option β} (together : Together strict related first second) (implies : lax → strict)
    (follows : ∀ left right, related left right → weaker left right) :
    Together lax weaker first second := by
  cases first with
  | none =>
    cases second with
    | none => trivial
    | some right => exact fun isLax => together (implies isLax)
  | some left =>
    cases second with
    | none => exact fun isLax => together (implies isLax)
    | some right => exact follows left right together

theorem Together.bind {strict : Prop} {related : α → β → Prop} {result : γ → δ → Prop}
    {first : Option α} {second : Option β} {left : α → Option γ} {right : β → Option δ}
    (together : Together strict related first second)
    (behind : ∀ one other, related one other → Together strict result (left one) (right other)) :
    Together strict result (first.bind left) (second.bind right) := by
  cases first with
  | none =>
    cases second with
    | none => trivial
    | some other =>
      rw [Option.bind_none, Option.bind_some]
      cases right other with
      | none => trivial
      | some found => exact together
  | some one =>
    cases second with
    | none =>
      rw [Option.bind_none, Option.bind_some]
      cases left one with
      | none => trivial
      | some found => exact together
    | some other => exact behind one other together

theorem Together.map {strict : Prop} {related : α → β → Prop} {result : γ → δ → Prop}
    {first : Option α} {second : Option β} {left : α → γ} {right : β → δ}
    (together : Together strict related first second)
    (behind : ∀ one other, related one other → result (left one) (right other)) :
    Together strict result (first.map left) (second.map right) := by
  cases first with
  | none =>
    cases second with
    | none => trivial
    | some other => exact together
  | some one =>
    cases second with
    | none => exact together
    | some other => exact behind one other together

/-- Under `strict`, runs with equal results are equal. -/
theorem Together.eq {strict : Prop} {first second : Option α}
    (together : Together strict Eq first second) (isStrict : strict) :
    first = second := by
  cases first with
  | none =>
    cases second with
    | none => rfl
    | some right => exact absurd isStrict together
  | some left =>
    cases second with
    | none => exact absurd isStrict together
    | some right => exact congrArg some together

end CWebFramework.Relation
