import Mathlib.Data.List.Basic

/-!
# Machines that read a stream in pieces

A machine reads one symbol at a time and may emit an event at each; some
events halt it.  A device reads the same stream in pieces, as a program does
that gets its input from a socket.  When every piece does to the device what
the symbols of the piece do to the machine, the events of the device depend on
the concatenation of the pieces only.

The agreement may need a condition on where a piece ends.  `Admissible` collects
that condition along a list of pieces.
-/

namespace CWebFramework.Streaming

universe u v w x

variable {State : Type u} {Symbol : Type v} {Event : Type w}
  {Device : Type x}

/-- The result of a run: where it ended, what it emitted, and whether it was
halted by its last event. -/
structure Outcome (State : Type u) (Event : Type w) where
  state : State
  events : List Event
  halted : Bool

namespace Outcome

def after (earlier : List Event) (later : Outcome State Event) : Outcome State Event :=
  { later with events := earlier ++ later.events }

@[simp]
theorem after_nil (later : Outcome State Event) : later.after [] = later := rfl

/-- Sequential composition: the continuation runs from the state that was
reached unless the first part was halted. -/
def andThen (outcome : Outcome State Event)
    (continuation : State → Outcome State Event) : Outcome State Event :=
  if outcome.halted then outcome
  else (continuation outcome.state).after outcome.events

@[simp]
theorem andThen_of_halted {outcome : Outcome State Event} (halted : outcome.halted = true)
    (continuation : State → Outcome State Event) :
    outcome.andThen continuation = outcome := by
  simp [andThen, halted]

@[simp]
theorem andThen_of_running {outcome : Outcome State Event} (running : outcome.halted = false)
    (continuation : State → Outcome State Event) :
    outcome.andThen continuation = (continuation outcome.state).after outcome.events := by
  simp [andThen, running]

theorem andThen_after (earlier : List Event) (outcome : Outcome State Event)
    (continuation : State → Outcome State Event) :
    (outcome.after earlier).andThen continuation =
      (outcome.andThen continuation).after earlier := by
  cases halted : outcome.halted with
  | true => simp [andThen, after, halted]
  | false => simp [andThen, after, halted, List.append_assoc]

end Outcome

/-- The outcomes of a device and of a machine agree: same events, both halted
or none, and related states. -/
structure Agrees (related : Device → State → Prop)
    (device : Outcome Device Event) (machine : Outcome State Event) :
    Prop where
  events : device.events = machine.events
  halted : device.halted = machine.halted
  states : related device.state machine.state

theorem Agrees.trans {Other : Type*} {related : Device → Other → Prop}
    {otherRelated : Other → State → Prop} {finallyRelated : Device → State → Prop}
    {device : Outcome Device Event} {other : Outcome Other Event} {machine : Outcome State Event}
    (first : Agrees related device other) (second : Agrees otherRelated other machine)
    (composed : ∀ {device other state}, related device other →
      otherRelated other state → finallyRelated device state) :
    Agrees finallyRelated device machine where
  events := first.events.trans second.events
  halted := first.halted.trans second.halted
  states := composed first.states second.states

theorem Agrees.after {related : Device → State → Prop}
    {device : Outcome Device Event} {machine : Outcome State Event}
    (agreement : Agrees related device machine) (earlier : List Event) :
    Agrees related (device.after earlier) (machine.after earlier) where
  events := congrArg (earlier ++ ·) agreement.events
  halted := agreement.halted
  states := agreement.states

/-- A machine that reads one symbol at a time. -/
structure Machine (State : Type u) (Symbol : Type v) (Event : Type w) where
  step : State → Symbol → State × Option Event
  halts : Event → Bool

namespace Machine

variable (machine : Machine State Symbol Event)

/-- Read a word, up to the first halting event. -/
def run (state : State) : List Symbol → Outcome State Event
  | [] => { state := state, events := [], halted := false }
  | symbol :: word =>
    match machine.step state symbol with
    | (next, none) => run next word
    | (next, some event) =>
      if machine.halts event then
        { state := next, events := [event], halted := true }
      else
        (run next word).after [event]

@[simp]
theorem run_nil (state : State) : machine.run state ([] : List Symbol) =
      { state := state, events := [], halted := false } := rfl

variable {state next : State} {symbol : Symbol}

theorem run_cons_silent (silent : machine.step state symbol = (next, none)) (word : List Symbol) :
    machine.run state (symbol :: word) = machine.run next word := by
  simp [run, silent]

theorem run_cons_event {event : Event} (emits : machine.step state symbol = (next, some event))
    (goesOn : machine.halts event = false) (word : List Symbol) :
    machine.run state (symbol :: word) = (machine.run next word).after [event] := by
  simp [run, emits, goesOn]

theorem run_cons_halt {event : Event} (emits : machine.step state symbol = (next, some event))
    (stops : machine.halts event = true) (word : List Symbol) :
    machine.run state (symbol :: word) =
      { state := next, events := [event], halted := true } := by
  simp [run, emits, stops]

theorem run_append (state : State) (first second : List Symbol) :
    machine.run state (first ++ second) = (machine.run state first).andThen
        fun reached => machine.run reached second := by
  induction first generalizing state with
  | nil => simp
  | cons symbol word ih =>
    rcases stepped : machine.step state symbol with ⟨next, _ | event⟩
    · rw [List.cons_append, machine.run_cons_silent stepped, machine.run_cons_silent stepped, ih]
    · cases halting : machine.halts event with
      | true =>
        rw [List.cons_append, machine.run_cons_halt stepped halting,
          machine.run_cons_halt stepped halting]
        simp
      | false =>
        rw [List.cons_append, machine.run_cons_event stepped halting,
          machine.run_cons_event stepped halting, ih,
          Outcome.andThen_after]

/-- A property of the states that every step keeps holds at the end of every
run. -/
theorem run_invariant (property : State → Prop) (kept : ∀ state symbol, property state →
      property (machine.step state symbol).1)
    (state : State) (start : property state) (word : List Symbol) :
    property (machine.run state word).state := by
  induction word generalizing state with
  | nil => simpa using start
  | cons symbol word ih =>
    have stepKept := kept state symbol start
    rcases stepped : machine.step state symbol with ⟨next, _ | event⟩
    · rw [machine.run_cons_silent stepped]
      rw [stepped] at stepKept
      exact ih next stepKept
    · rw [stepped] at stepKept
      cases halting : machine.halts event with
      | true => rwa [machine.run_cons_halt stepped halting]
      | false =>
        rw [machine.run_cons_event stepped halting]
        exact ih next stepKept

/-- A relation between states that emit the same events is kept by whole
runs. -/
theorem run_related (related : State → State → Prop)
    (respects : ∀ {first second} symbol, related first second →
      (machine.step first symbol).2 = (machine.step second symbol).2 ∧
        related (machine.step first symbol).1 (machine.step second symbol).1)
    {first second : State} (start : related first second)
    (word : List Symbol) :
    Agrees related (machine.run first word) (machine.run second word) := by
  induction word generalizing first second with
  | nil => exact ⟨rfl, rfl, start⟩
  | cons symbol word ih =>
    obtain ⟨sameEvent, next⟩ := respects symbol start
    rcases firstStep : machine.step first symbol with ⟨firstNext, event⟩
    rcases secondStep : machine.step second symbol with ⟨secondNext, same⟩
    rw [firstStep, secondStep] at sameEvent next
    cases sameEvent
    cases event with
    | none =>
      rw [machine.run_cons_silent firstStep, machine.run_cons_silent secondStep]
      exact ih next
    | some event =>
      cases halting : machine.halts event with
      | true =>
        rw [machine.run_cons_halt firstStep halting, machine.run_cons_halt secondStep halting]
        exact ⟨rfl, rfl, next⟩
      | false =>
        rw [machine.run_cons_event firstStep halting, machine.run_cons_event secondStep halting]
        exact (ih next).after [event]

end Machine

/-! ## Devices that read pieces -/

/-- Hand one piece after the other to a device, up to the first that halts
it. -/
def drive (feed : Device → List Symbol → Outcome Device Event)
    (device : Device) : List (List Symbol) → Outcome Device Event
  | [] => { state := device, events := [], halted := false }
  | piece :: pieces =>
    (feed device piece).andThen fun reached => drive feed reached pieces

/-- Every piece satisfies the condition in the state that the machine has
reached when the piece begins. -/
def Admissible (machine : Machine State Symbol Event)
    (condition : State → List Symbol → Prop) (state : State) :
    List (List Symbol) → Prop
  | [] => True
  | piece :: pieces =>
    condition state piece ∧ ((machine.run state piece).halted = false →
        Admissible machine condition (machine.run state piece).state pieces)

theorem drive_agrees_run (machine : Machine State Symbol Event)
    (feed : Device → List Symbol → Outcome Device Event) (related : Device → State → Prop)
    (condition : State → List Symbol → Prop)
    (piecewise : ∀ device state piece, related device state → condition state piece →
        Agrees related (feed device piece) (machine.run state piece))
    (device : Device) (state : State) (start : related device state)
    (pieces : List (List Symbol))
    (admissible : Admissible machine condition state pieces) :
    Agrees related (drive feed device pieces) (machine.run state pieces.flatten) := by
  induction pieces generalizing device state with
  | nil => exact ⟨rfl, rfl, start⟩
  | cons piece pieces ih =>
    obtain ⟨pieceCondition, restAdmissible⟩ := admissible
    have agreement := piecewise device state piece start pieceCondition
    rw [List.flatten_cons, machine.run_append, drive]
    cases halted : (machine.run state piece).halted with
    | true =>
      have deviceHalted := agreement.halted.trans halted
      rw [Outcome.andThen_of_halted halted, Outcome.andThen_of_halted deviceHalted]
      exact agreement
    | false =>
      have deviceRunning := agreement.halted.trans halted
      have tail := ih _ _ agreement.states (restAdmissible halted)
      rw [Outcome.andThen_of_running halted, Outcome.andThen_of_running deviceRunning]
      exact {
        events := by
          simp only [Outcome.after, agreement.events, tail.events]
        halted := tail.halted
        states := tail.states }

end CWebFramework.Streaming
