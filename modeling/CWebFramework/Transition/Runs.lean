import Mathlib.Algebra.Order.Ring.Nat

/-!
# Runs of systems with partial actions

A system performs an action in a state when the action is enabled there.  A run
is a list of actions.  `Meets` collects a condition on the single steps along a
run, and `exec_invariant` is the induction over runs: what every step that
meets the condition keeps holds in every state that such a run reaches.
-/

namespace CWebFramework.Transition

universe u v

structure System (State : Type u) (Action : Type v) where
  perform : State → Action → Option State

namespace System

variable {State : Type u} {Action : Type v} (system : System State Action)

/-- Perform a list of actions; `none` when one of them is not enabled. -/
def exec (state : State) : List Action → Option State
  | [] => some state
  | action :: actions =>
    (system.perform state action).bind fun next => exec next actions

variable {state reached : State} {action : Action} {actions : List Action}

theorem exec_cons_iff : system.exec state (action :: actions) = some reached ↔
      ∃ next, system.perform state action = some next ∧
        system.exec next actions = some reached := by
  simp [exec, Option.bind_eq_some_iff]

/-- Every step of a run meets the condition in the state in which it is
taken. -/
def Meets (condition : State → Action → Prop) (state : State) : List Action → Prop
  | [] => True
  | action :: actions =>
    condition state action ∧ ∀ next, system.perform state action = some next →
        Meets condition next actions

variable {condition : State → Action → Prop}

theorem meets_cons_of_none (stopped : system.perform state action = none) : condition state action ↔
      system.Meets condition state (action :: actions) := by
  refine ⟨fun holds => ⟨holds, fun next step => ?_⟩, And.left⟩
  rw [stopped] at step
  cases step

theorem meets_cons_of_some {next : State} (performed : system.perform state action = some next) :
    condition state action ∧ system.Meets condition next actions ↔
      system.Meets condition state (action :: actions) := by
  refine ⟨fun both => ⟨both.1, fun other step => ?_⟩, fun both => ⟨both.1, both.2 next performed⟩⟩
  rw [performed] at step
  cases step
  exact both.2

/-- Whether a run meets a condition can be evaluated. -/
instance decidableMeets (condition : State → Action → Prop)
    [∀ state action, Decidable (condition state action)] (state : State)
    (actions : List Action) :
    Decidable (system.Meets condition state actions) :=
  match actions with
  | [] => isTrue trivial
  | action :: actions =>
    match performed : system.perform state action with
    | none => decidable_of_iff _ (system.meets_cons_of_none performed)
    | some next =>
      have := decidableMeets condition next actions
      decidable_of_iff _ (system.meets_cons_of_some performed)

/-- Invariants of the runs whose steps meet a condition. -/
theorem exec_invariant {property : State → Prop}
    (kept : ∀ {state action next}, condition state action →
      system.perform state action = some next → property state →
        property next) (meets : system.Meets condition state actions)
    (run : system.exec state actions = some reached) (start : property state) :
    property reached := by
  induction actions generalizing state with
  | nil =>
    cases run
    exact start
  | cons action actions ih =>
    obtain ⟨next, step, rest⟩ := system.exec_cons_iff.mp run
    exact ih (meets.2 next step) rest (kept meets.1 step start)

/-- When a step keeps a property exactly under a condition, all states of a
run have it exactly when the steps meet the condition. -/
theorem exec_invariant_iff {property : State → Prop} {allowed : State → Action → Prop}
    (step : ∀ {state action}, property state → allowed state action →
      ((∃ next, system.perform state action = some next ∧ property next) ↔ condition state action))
    (start : property state)
    (areAllowed : system.Meets allowed state actions) :
    (∀ front, front <+: actions →
      ∃ reached, system.exec state front = some reached ∧ property reached) ↔
      system.Meets condition state actions := by
  induction actions generalizing state with
  | nil =>
    refine iff_of_true (fun front isFront => ?_) trivial
    rw [List.prefix_nil.mp isFront]
    exact ⟨state, rfl, start⟩
  | cons action actions ih =>
    constructor
    · intro reaches
      obtain ⟨reached, run, holds⟩ := reaches [action] (List.prefix_append [action] actions)
      obtain ⟨next, performed, isNext⟩ := system.exec_cons_iff.mp run
      cases isNext
      refine ⟨(step start areAllowed.1).mp ⟨reached, performed, holds⟩, ?_⟩
      intro other isOther
      obtain rfl := Option.some.inj (performed.symm.trans isOther)
      apply (ih holds (areAllowed.2 reached performed)).mp
      intro front isFront
      obtain ⟨last, run, holds⟩ := reaches (action :: front)
        (List.cons_prefix_cons.mpr ⟨rfl, isFront⟩)
      rw [exec, performed] at run
      exact ⟨last, run, holds⟩
    · intro meets front isFront
      cases front with
      | nil => exact ⟨state, rfl, start⟩
      | cons first front =>
        obtain ⟨rfl, isRest⟩ := List.cons_prefix_cons.mp isFront
        obtain ⟨next, performed, holds⟩ := (step start areAllowed.1).mpr meets.1
        obtain ⟨last, run, holds⟩ :=
          (ih holds (areAllowed.2 next performed)).mpr (meets.2 next performed) front isRest
        exact ⟨last, system.exec_cons_iff.mpr ⟨next, performed, run⟩, holds⟩

/-- What an invariant implies for a step is met along the run. -/
theorem meets_of_invariant {property : State → Prop} {other : State → Action → Prop}
    (kept : ∀ {state action next}, condition state action →
      system.perform state action = some next → property state → property next)
    (implies : ∀ {state action}, property state → other state action)
    (meets : system.Meets condition state actions) (start : property state) :
    system.Meets other state actions := by
  induction actions generalizing state with
  | nil => trivial
  | cons action actions ih =>
    exact ⟨implies start, fun next step =>
      ih (meets.2 next step) (kept meets.1 step start)⟩

/-- Every run meets the trivial condition. -/
theorem meets_true (state : State) (actions : List Action) :
    system.Meets (fun _ _ => True) state actions := by
  induction actions generalizing state with
  | nil => trivial
  | cons action actions ih =>
    exact ⟨trivial, fun next _ => ih next⟩

/-- Invariants of all runs. -/
theorem exec_invariant_all {property : State → Prop} (kept : ∀ {state action next},
      system.perform state action = some next → property state →
        property next) (run : system.exec state actions = some reached)
    (start : property state) : property reached :=
  system.exec_invariant (fun _ => kept) (system.meets_true state actions) run start

end System

end CWebFramework.Transition
