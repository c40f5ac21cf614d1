import Mathlib.Algebra.Order.Ring.Nat

/-!
# Machines that answer operations

A machine performs an operation in every state and answers it.  `answers` are
the answers along a list of operations, and `Meets` says that every operation
meets a condition in the state in which it is performed.

A machine simulates another when a relation of their states is kept by every
operation.  `answers_eq_iff` compares the answers of the two: when a step
answers as the other machine does exactly under a condition, so does a run.
Where the specification leaves a choice it is a relation that accepts answers;
`accepted` is the induction for it.
-/

namespace CWebFramework.Transition

universe u v w

structure Machine (State : Type u) (Operation : Type v) (Answer : Type w) where
  perform : State → Operation → State × Answer

namespace Machine

variable {State : Type u} {Operation : Type v} {Answer : Type w}

def after (machine : Machine State Operation Answer) (state : State)
    (operations : List Operation) : State :=
  operations.foldl (fun state operation => (machine.perform state operation).1) state

def answers (machine : Machine State Operation Answer) (state : State) :
    List Operation → List Answer
  | [] => []
  | operation :: operations =>
    (machine.perform state operation).2 ::
      machine.answers (machine.perform state operation).1 operations

/-- Every operation meets a condition in the state in which it is
performed. -/
def Meets (machine : Machine State Operation Answer)
    (condition : State → Operation → Prop) (state : State) :
    List Operation → Prop
  | [] => True
  | operation :: operations =>
    condition state operation ∧
      machine.Meets condition (machine.perform state operation).1 operations

instance decidableMeets (machine : Machine State Operation Answer)
    (condition : State → Operation → Prop)
    [∀ state operation, Decidable (condition state operation)]
    (state : State) (operations : List Operation) :
    Decidable (machine.Meets condition state operations) :=
  match operations with
  | [] => isTrue trivial
  | operation :: operations =>
    have := decidableMeets machine condition (machine.perform state operation).1 operations
    inferInstanceAs (Decidable (condition state operation ∧ _))

theorem after_append (machine : Machine State Operation Answer)
    (state : State) (first second : List Operation) :
    machine.after state (first ++ second) = machine.after (machine.after state first) second :=
  List.foldl_append ..

theorem meets_append_iff {machine : Machine State Operation Answer}
    {condition : State → Operation → Prop} {state : State}
    {first second : List Operation} :
    machine.Meets condition state (first ++ second) ↔ machine.Meets condition state first ∧
        machine.Meets condition (machine.after state first) second := by
  induction first generalizing state with
  | nil => exact (and_iff_right trivial).symm
  | cons operation first ih =>
    rw [List.cons_append, Meets, Meets, ih, and_assoc]
    rfl

section Simulation

universe s

variable {Abstract : Type s} {code : Machine State Operation Answer}
  {spec : Machine Abstract Operation Answer}
  {simulates : State → Abstract → Prop}
  {allowed : Abstract → Operation → Prop}
  {condition : State → Operation → Prop}

/-- A relation that every allowed operation keeps under a condition holds
behind a run that meets both. -/
theorem after_simulates (step : ∀ {state abstract operation}, simulates state abstract →
      allowed abstract operation → condition state operation →
      simulates (code.perform state operation).1 (spec.perform abstract operation).1)
    {state : State} {abstract : Abstract} (start : simulates state abstract)
    {operations : List Operation}
    (areAllowed : spec.Meets allowed abstract operations)
    (meets : code.Meets condition state operations) :
    simulates (code.after state operations) (spec.after abstract operations) := by
  induction operations generalizing state abstract with
  | nil => exact start
  | cons operation operations ih =>
    exact ih (step start areAllowed.1 meets.1) areAllowed.2 meets.2

/-- Two machines answer alike along a run exactly when the condition is met
along it. -/
theorem answers_eq_iff (step : ∀ {state abstract operation}, simulates state abstract →
      allowed abstract operation → condition state operation →
      simulates (code.perform state operation).1 (spec.perform abstract operation).1)
    (answer : ∀ {state abstract operation}, simulates state abstract → allowed abstract operation →
      ((code.perform state operation).2 = (spec.perform abstract operation).2 ↔
        condition state operation))
    {state : State} {abstract : Abstract} (start : simulates state abstract)
    {operations : List Operation}
    (areAllowed : spec.Meets allowed abstract operations) :
    code.answers state operations = spec.answers abstract operations ↔
      code.Meets condition state operations := by
  induction operations generalizing state abstract with
  | nil => exact iff_of_true rfl trivial
  | cons operation operations ih =>
    rw [answers, answers, List.cons.injEq, answer start areAllowed.1]
    apply and_congr_right
    intro holds
    exact ih (step start areAllowed.1 holds) areAllowed.2

/-- A relation accepts the answers along a list of operations. -/
inductive Accepted (accepts : Abstract → Operation → Answer → Abstract → Prop) :
    Abstract → List Operation → List Answer → Abstract → Prop where
  | nil (abstract : Abstract) : Accepted accepts abstract [] [] abstract
  | cons {abstract next last : Abstract} {operation : Operation}
      {answer : Answer} {operations : List Operation}
      {answers : List Answer} :
      accepts abstract operation answer next →
      Accepted accepts next operations answers last →
      Accepted accepts abstract (operation :: operations) (answer :: answers) last

theorem accepted {accepts : Abstract → Operation → Answer → Abstract → Prop}
    (step : ∀ {state abstract} operation, simulates state abstract →
      ∃ next, accepts abstract operation (code.perform state operation).2
          next ∧
        simulates (code.perform state operation).1 next)
    {state : State} {abstract : Abstract} (start : simulates state abstract)
    (operations : List Operation) :
    ∃ last, Accepted accepts abstract operations (code.answers state operations) last ∧
      simulates (code.after state operations) last := by
  induction operations generalizing state abstract with
  | nil => exact ⟨abstract, .nil abstract, start⟩
  | cons operation operations ih =>
    obtain ⟨next, isAccepted, simulated⟩ := step operation start
    obtain ⟨last, areAccepted, reached⟩ := ih simulated
    exact ⟨last, .cons isAccepted areAccepted, reached⟩

end Simulation

end Machine

end CWebFramework.Transition
