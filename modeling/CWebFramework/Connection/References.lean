import CWebFramework.Transition.Runs

/-!
# References to a connection

`connection_s_inc` and `connection_s_dec`: the event loop, each entry of the
global work queue and each worker that has taken one hold a reference.  The
event loop and the workers exclude each other by `connection_s_lock`; the
senders of broadcasts hold only the lock of a channel, which `broadcast_clear`
waits for.
-/

namespace CWebFramework.Connection

open Transition

/-- Who holds `ctx->locked`, and how far it has come. -/
inductive Lock where
  | free
  /-- A worker runs an item. -/
  | worker
  /-- A worker behind `connection_s_dec`, before `connection_s_unlock`. -/
  | workerDone
  /-- The event loop in a guarded read or write. -/
  | eventLoop
  /-- `connection_close` before `broadcast_clear`. -/
  | closing
  /-- `connection_close` behind `broadcast_clear`. -/
  | cleared
  /-- `connection_close` behind `connection_s_dec`. -/
  | closeDone
  deriving DecidableEq, Repr

/-- A connection with the threads that work on it. `waiting` counts the workers
between the pop of an entry and the lock, `sending` the senders that hold the
lock of a channel with the connection, and `freed` the calls of
`connection_free`. -/
structure Shared where
  refCount : Int
  destroyed : Bool
  lock : Lock
  isOpen : Bool
  entries : Nat
  waiting : Nat
  subscribed : Bool
  sending : Nat
  freed : Nat
  deriving DecidableEq, Repr

/-- The connection behind `connection_s_alloc`. -/
def Shared.initial : Shared where
  refCount := 1
  destroyed := false
  lock := .free
  isOpen := true
  entries := 0
  waiting := 0
  subscribed := false
  sending := 0
  freed := 0

/-- `connection_s_dec`, with the lock that is left if the connection is not
freed. -/
def Shared.connectionSDec (state : Shared) (lock : Lock) : Shared :=
  if state.refCount = 1 then
    { state with
      refCount := state.refCount - 1
      freed := state.freed + 1
      lock := .free }
  else { state with refCount := state.refCount - 1, lock := lock }

/-- `connection_queue_guard_append`; an append that fails gives the reference
back. -/
def Shared.connectionQueueGuardAppend (state : Shared) (appended : Bool) :
    Shared :=
  let counted := { state with refCount := state.refCount + 1 }
  if appended then { counted with entries := counted.entries + 1 }
  else counted.connectionSDec counted.lock

inductive Action where
  | beginEvent
  | enqueue (appended : Bool)
  | endEvent
  /-- A store to `destroyed` by a handler or by `connection_after_write`. -/
  | destroy
  | subscribe
  | unsubscribe
  | beginSend
  | sendEnqueue (appended : Bool)
  | endSend
  | pop
  /-- The lock behind `__connection_queue_pop`, with its test of `destroyed`. -/
  | acquire
  | complete
  | unlock
  | beginClose
  | clear
  | closeDec
  deriving DecidableEq, Repr

/-- Handlers run in a worker, and the event loop handles its events. -/
def Shared.Handles (state : Shared) : Prop :=
  state.lock = .worker ∨ state.lock = .eventLoop
  deriving Decidable

def Shared.Enabled (state : Shared) : Action → Prop
  | .beginEvent => state.isOpen = true ∧ state.lock = .free
  | .enqueue _ => state.lock = .eventLoop
  | .endEvent => state.lock = .eventLoop
  | .destroy => state.Handles
  | .subscribe => state.Handles
  | .unsubscribe => state.Handles
  | .beginSend => state.subscribed = true
  | .sendEnqueue _ => 0 < state.sending
  | .endSend => 0 < state.sending
  | .pop => 0 < state.entries
  | .acquire => 0 < state.waiting ∧ state.lock = .free
  | .complete => state.lock = .worker
  | .unlock => state.lock = .workerDone ∨ state.lock = .closeDone
  | .beginClose => state.isOpen = true ∧ state.lock = .free
  | .clear => state.lock = .closing ∧ state.sending = 0
  | .closeDec => state.lock = .cleared

instance Shared.decidableEnabled (state : Shared) :
    (action : Action) → Decidable (state.Enabled action)
  | .beginEvent => inferInstanceAs (Decidable (_ ∧ _))
  | .enqueue _ => inferInstanceAs (Decidable (_ = _))
  | .endEvent => inferInstanceAs (Decidable (_ = _))
  | .destroy => inferInstanceAs (Decidable (Shared.Handles _))
  | .subscribe => inferInstanceAs (Decidable (Shared.Handles _))
  | .unsubscribe => inferInstanceAs (Decidable (Shared.Handles _))
  | .beginSend => inferInstanceAs (Decidable (_ = _))
  | .sendEnqueue _ => inferInstanceAs (Decidable (_ < _))
  | .endSend => inferInstanceAs (Decidable (_ < _))
  | .pop => inferInstanceAs (Decidable (_ < _))
  | .acquire => inferInstanceAs (Decidable (_ ∧ _))
  | .complete => inferInstanceAs (Decidable (_ = _))
  | .unlock => inferInstanceAs (Decidable (_ ∨ _))
  | .beginClose => inferInstanceAs (Decidable (_ ∧ _))
  | .clear => inferInstanceAs (Decidable (_ ∧ _))
  | .closeDec => inferInstanceAs (Decidable (_ = _))

def Shared.effect (state : Shared) : Action → Shared
  | .beginEvent => { state with lock := .eventLoop }
  | .enqueue appended => state.connectionQueueGuardAppend appended
  | .endEvent => { state with lock := .free }
  | .destroy => { state with destroyed := true }
  | .subscribe => { state with subscribed := true }
  | .unsubscribe => { state with subscribed := false }
  | .beginSend => { state with sending := state.sending + 1 }
  | .sendEnqueue appended => state.connectionQueueGuardAppend appended
  | .endSend => { state with sending := state.sending - 1 }
  | .pop =>
    { state with
      entries := state.entries - 1
      waiting := state.waiting + 1 }
  | .acquire =>
    let taken := { state with waiting := state.waiting - 1 }
    if state.destroyed then taken.connectionSDec .workerDone
    else { taken with lock := .worker }
  | .complete => state.connectionSDec .workerDone
  | .unlock => { state with lock := .free }
  | .beginClose => { state with lock := .closing, destroyed := true }
  | .clear => { state with lock := .cleared, subscribed := false }
  | .closeDec =>
    { state with isOpen := false }.connectionSDec .closeDone

def references : System Shared Action where
  perform state action :=
    if state.Enabled action then some (state.effect action) else none

def Shared.holding (state : Shared) : Nat := state.waiting + if state.lock = .worker then 1 else 0

/-- The count is the number of holders, and who is inside of a step still has a
reference or is protected by the lock. -/
structure Shared.Counted (state : Shared) : Prop where
  count : state.refCount = (if state.isOpen then 1 else 0) + state.entries + state.holding
  freed : state.freed = if state.refCount = 0 then 1 else 0
  unlocking : state.lock = .workerDone ∨ state.lock = .closeDone → 0 < state.refCount
  opened : state.Handles ∨ state.lock = .closing ∨ state.lock = .cleared → state.isOpen = true
  silent : state.isOpen = false ∨ state.lock = .cleared →
    state.subscribed = false ∧ state.sending = 0
  late : state.isOpen = false ∨ state.lock = .closing ∨
    state.lock = .cleared → state.destroyed = true

private theorem counted_initial : Shared.initial.Counted := by
  constructor <;> decide

section Steps

variable {state : Shared}

/-- The reference of a holder goes back. -/
theorem counted_connectionSDec {lock : Lock} (isDone : lock = .workerDone ∨ lock = .closeDone)
    (count : state.refCount = (if state.isOpen then 1 else 0) + state.entries + state.waiting + 1)
    (alive : state.freed = 0)
    (silent : state.isOpen = false → state.subscribed = false ∧ state.sending = 0)
    (late : state.isOpen = false → state.destroyed = true) :
    (state.connectionSDec lock).Counted := by
  have notWorker : lock ≠ .worker ∧ lock ≠ .eventLoop ∧ lock ≠ .closing ∧ lock ≠ .cleared := by
    rcases isDone with rfl | rfl
    · decide
    · decide
  unfold Shared.connectionSDec
  split_ifs with isLast
  · constructor
    · simp [Shared.holding]
      omega
    · simp [alive, isLast]
    · exact nofun
    · simp [Shared.Handles]
    · rintro (isClosed | ⟨⟨⟩⟩)
      exact silent isClosed
    · rintro (isClosed | ⟨⟨⟩⟩ | ⟨⟨⟩⟩)
      exact late isClosed
  · constructor
    · simp [Shared.holding, notWorker]
      omega
    · have positive : state.refCount - 1 ≠ 0 := by omega
      simp [alive, positive]
    · intro _
      show 0 < state.refCount - 1
      split_ifs at count <;> omega
    · simp [Shared.Handles, notWorker]
    · simpa [notWorker] using silent
    · simpa [notWorker] using late

/-- With another reference in place, an append that fails changes nothing. -/
theorem connectionQueueGuardAppend_false (isHeld : state.refCount ≠ 0) :
    state.connectionQueueGuardAppend false = state := by
  unfold Shared.connectionQueueGuardAppend Shared.connectionSDec
  dsimp only
  rw [if_neg Bool.noConfusion, if_neg (by omega), Int.add_sub_cancel]

theorem Shared.Counted.append (counted : state.Counted)
    (isOpen : state.isOpen = true) (appended : Bool) :
    (state.connectionQueueGuardAppend appended).Counted := by
  have count := counted.count
  rw [if_pos isOpen] at count
  cases appended with
  | false =>
    rw [connectionQueueGuardAppend_false (by omega)]
    exact counted
  | true =>
    constructor
    · simp [connectionQueueGuardAppend, isOpen, count, holding]
      omega
    · have alive := counted.freed
      rw [if_neg (by omega)] at alive
      have positive : state.refCount + 1 ≠ 0 := by omega
      simp [connectionQueueGuardAppend, alive, positive]
    · intro _
      simp [connectionQueueGuardAppend]
      omega
    · exact counted.opened
    · exact counted.silent
    · exact counted.late

theorem Shared.Counted.setLock (counted : state.Counted) {lock : Lock}
    (isOther : state.lock ≠ .worker) (notDone : lock = .free ∨ lock = .eventLoop ∨ lock = .closing)
    (isOpen : lock ≠ .free → state.isOpen = true)
    (isDestroyed : lock = .closing → state.destroyed = true) :
    { state with lock := lock }.Counted := by
  have notWorker : lock ≠ .worker ∧ lock ≠ .workerDone ∧ lock ≠ .closeDone ∧ lock ≠ .cleared := by
    rcases notDone with rfl | rfl | rfl <;> decide
  constructor
  · simpa [holding, notWorker, isOther] using counted.count
  · exact counted.freed
  · simp [notWorker]
  · intro isInside
    apply isOpen
    rintro rfl
    simp [Handles] at isInside
  · intro isSilent
    simp only [notWorker, or_false] at isSilent
    exact counted.silent (.inl isSilent)
  · rintro (isClosed | isClosing | isCleared)
    · exact counted.late (.inl isClosed)
    · exact isDestroyed isClosing
    · exact absurd isCleared notWorker.2.2.2

theorem Shared.Counted.destroy (counted : state.Counted) :
    { state with destroyed := true }.Counted :=
  ⟨counted.count, counted.freed, counted.unlocking, counted.opened, counted.silent, fun _ => rfl⟩

/-- The connection is neither closed nor freed while it is in use. -/
theorem Shared.Counted.inUse (counted : state.Counted)
    (isOpen : state.isOpen = true) : state.freed = 0 := by
  have count := counted.count
  rw [if_pos isOpen] at count
  rw [counted.freed, if_neg (by omega)]

theorem Shared.Counted.sender (counted : state.Counted)
    (isSending : 0 < state.sending) : state.isOpen = true := by
  apply eq_true_of_ne_false
  intro isClosed
  have none := (counted.silent (.inl isClosed)).2
  omega

theorem Shared.Counted.complete (counted : state.Counted) (isWorker : state.lock = .worker) :
    (state.connectionSDec .workerDone).Counted := by
  have isOpen := counted.opened (.inl (.inl isWorker))
  apply counted_connectionSDec (.inl rfl)
  · rw [counted.count, holding, if_pos isWorker]
    omega
  · exact counted.inUse isOpen
  · exact fun isClosed => counted.silent (.inl isClosed)
  · exact fun isClosed => counted.late (.inl isClosed)

theorem Shared.Counted.acquire (counted : state.Counted)
    (isWaiting : 0 < state.waiting) (isFree : state.lock = .free) :
    (state.effect .acquire).Counted := by
  have count := counted.count
  simp only [holding, isFree, reduceCtorEq, if_false] at count
  have positive : state.refCount ≠ 0 := by
    split_ifs at count <;> omega
  unfold effect
  dsimp only
  split_ifs with isDestroyed
  · apply counted_connectionSDec (.inl rfl)
    · dsimp only
      omega
    · rw [counted.freed, if_neg positive]
    · exact fun isClosed => counted.silent (.inl isClosed)
    · exact fun isClosed => counted.late (.inl isClosed)
  · constructor
    · simp only [holding, if_true]
      omega
    · exact counted.freed
    · exact nofun
    · intro _
      apply eq_true_of_ne_false
      exact fun isClosed => isDestroyed (counted.late (.inl isClosed))
    · rintro (isClosed | ⟨⟨⟩⟩)
      exact counted.silent (.inl isClosed)
    · rintro (isClosed | ⟨⟨⟩⟩ | ⟨⟨⟩⟩)
      exact counted.late (.inl isClosed)

theorem Shared.Counted.closeDec (counted : state.Counted) (isCleared : state.lock = .cleared) :
    (state.effect .closeDec).Counted := by
  have isOpen := counted.opened (.inr (.inr isCleared))
  have count := counted.count
  rw [holding, isCleared, if_pos isOpen] at count
  apply counted_connectionSDec (.inr rfl)
  · simp at count ⊢
    omega
  · exact counted.inUse isOpen
  · exact fun _ => counted.silent (.inr isCleared)
  · exact fun _ => counted.late (.inr (.inr isCleared))

end Steps

theorem perform_eq_some_iff {state next : Shared} {action : Action} :
    references.perform state action = some next ↔
      state.Enabled action ∧ state.effect action = next := by
  unfold references
  dsimp only
  split_ifs with isEnabled
  · simp [isEnabled]
  · simp [isEnabled]

theorem counted_perform {state next : Shared} {action : Action}
    (step : references.perform state action = some next)
    (counted : state.Counted) : next.Counted := by
  obtain ⟨isEnabled, rfl⟩ := perform_eq_some_iff.mp step
  have handles (isHandled : state.Handles) : state.isOpen = true := counted.opened (.inl isHandled)
  have notWorker {lock : Lock} (isLock : state.lock = lock)
      (other : lock ≠ .worker) : state.lock ≠ .worker := by
    rw [isLock]
    exact other
  cases action with
  | beginEvent =>
    exact counted.setLock (notWorker isEnabled.2 nofun) (.inr (.inl rfl))
      (fun _ => isEnabled.1) nofun
  | enqueue appended => exact counted.append (handles (.inr isEnabled)) appended
  | endEvent =>
    exact counted.setLock (notWorker isEnabled nofun) (.inl rfl)
      (fun other => absurd rfl other) nofun
  | destroy => exact counted.destroy
  | subscribe =>
    have isOpen := handles isEnabled
    refine ⟨counted.count, counted.freed, counted.unlocking, counted.opened, ?_, counted.late⟩
    rintro (isClosed | isCleared)
    · rw [show state.isOpen = false from isClosed] at isOpen
      cases isOpen
    · rcases isEnabled with isLock | isLock
      · cases isLock.symm.trans isCleared
      · cases isLock.symm.trans isCleared
  | unsubscribe =>
    exact ⟨counted.count, counted.freed, counted.unlocking, counted.opened,
      fun isSilent => ⟨rfl, (counted.silent isSilent).2⟩, counted.late⟩
  | beginSend =>
    refine ⟨counted.count, counted.freed, counted.unlocking, counted.opened,
      fun isSilent => ?_, counted.late⟩
    have none := (counted.silent isSilent).1
    rw [show state.subscribed = true from isEnabled] at none
    cases none
  | sendEnqueue appended =>
    exact counted.append (counted.sender isEnabled) appended
  | endSend =>
    refine ⟨counted.count, counted.freed, counted.unlocking, counted.opened,
      fun isSilent => ?_, counted.late⟩
    obtain ⟨unsubscribed, none⟩ := counted.silent isSilent
    refine ⟨unsubscribed, ?_⟩
    show state.sending - 1 = 0
    omega
  | pop =>
    refine ⟨?_, counted.freed, counted.unlocking, counted.opened, counted.silent, counted.late⟩
    have count := counted.count
    have isQueued : 0 < state.entries := isEnabled
    show state.refCount = (if state.isOpen = true then 1 else 0) + (state.entries - 1 : Nat) +
      (state.waiting + 1 + if state.lock = .worker then 1 else 0 : Nat)
    rw [Shared.holding] at count
    omega
  | acquire => exact counted.acquire isEnabled.1 isEnabled.2
  | complete => exact counted.complete isEnabled
  | unlock =>
    apply counted.setLock _ (.inl rfl) (fun other => absurd rfl other) nofun
    rcases isEnabled with isLock | isLock
    · exact notWorker isLock nofun
    · exact notWorker isLock nofun
  | beginClose =>
    exact counted.destroy.setLock (notWorker isEnabled.2 nofun)
      (.inr (.inr rfl)) (fun _ => isEnabled.1) (fun _ => rfl)
  | clear =>
    obtain ⟨isClosing, none⟩ := isEnabled
    have count := counted.count
    simp only [Shared.holding, isClosing, reduceCtorEq, if_false] at count
    refine ⟨?_, counted.freed, nofun, ?_, fun _ => ⟨rfl, none⟩, ?_⟩
    · exact count
    · exact fun _ => counted.opened (.inr (.inl isClosing))
    · exact fun _ => counted.late (.inr (.inl isClosing))
  | closeDec => exact counted.closeDec isEnabled

theorem counted_exec {actions : List Action} {state : Shared}
    (run : references.exec .initial actions = some state) : state.Counted :=
  references.exec_invariant_all counted_perform run counted_initial

/-- A connection that has been freed is out of reach of every thread. -/
theorem Shared.Counted.perform_eq_none {state : Shared}
    (counted : state.Counted) (isFreed : state.refCount = 0)
    (action : Action) : references.perform state action = none := by
  have count := counted.count
  have isClosed : state.isOpen = false := by
    apply eq_false_of_ne_true
    intro isOpen
    rw [if_pos isOpen] at count
    omega
  rw [isClosed, if_neg Bool.noConfusion, holding] at count
  have closed (isOpen : state.isOpen = true) : False := by
    rw [isClosed] at isOpen
    cases isOpen
  have silent := counted.silent (.inl isClosed)
  have notHandled (isHandled : state.Handles) : False := closed (counted.opened (.inl isHandled))
  unfold references
  dsimp only
  rw [if_neg]
  intro isEnabled
  cases action with
  | beginEvent => exact closed isEnabled.1
  | enqueue appended => exact notHandled (.inr isEnabled)
  | endEvent => exact notHandled (.inr isEnabled)
  | destroy => exact notHandled isEnabled
  | subscribe => exact notHandled isEnabled
  | unsubscribe => exact notHandled isEnabled
  | beginSend => cases silent.1.symm.trans isEnabled
  | sendEnqueue appended => exact absurd silent.2 (Nat.ne_of_gt isEnabled)
  | endSend => exact absurd silent.2 (Nat.ne_of_gt isEnabled)
  | pop =>
    have isQueued : 0 < state.entries := isEnabled
    omega
  | acquire =>
    have isWaiting : 0 < state.waiting := isEnabled.1
    omega
  | complete => exact notHandled (.inl isEnabled)
  | unlock =>
    have isCounted := counted.unlocking isEnabled
    omega
  | beginClose => exact closed isEnabled.1
  | clear => exact closed (counted.opened (.inr (.inl isEnabled.1)))
  | closeDec => exact closed (counted.opened (.inr (.inr isEnabled)))

/-- In every interleaving the count is one for the event loop until it has
closed the connection, plus the entries of the work queue, plus the workers
that hold the connection.  The connection is freed once, when the event loop
has closed it and the last of the others is gone, and no step of any thread
follows. -/
theorem refCount_eq_holders (actions : List Action) (state : Shared)
    (run : references.exec .initial actions = some state) :
    state.refCount = (if state.isOpen then 1 else 0) + state.entries + state.holding ∧
      state.freed ≤ 1 ∧
      (state.freed = 1 ↔ state.isOpen = false ∧ state.entries = 0 ∧ state.holding = 0) ∧
      (state.freed = 1 → ∀ action, references.perform state action = none) := by
  have counted := counted_exec run
  have count := counted.count
  have isFreed : state.freed = 1 ↔ state.refCount = 0 := by
    rw [counted.freed]
    split_ifs with isZero
    · simp [isZero]
    · simp [isZero]
  refine ⟨count, ?_, ?_, fun freed action => ?_⟩
  · rw [counted.freed]
    split_ifs <;> omega
  · rw [isFreed]
    cases isOpen : state.isOpen with
    | true =>
      rw [if_pos isOpen] at count
      refine iff_of_false (by omega) nofun
    | false =>
      rw [isOpen, if_neg Bool.noConfusion] at count
      constructor
      · intro isZero
        exact ⟨rfl, by omega, by omega⟩
      · rintro ⟨-, noEntries, noWorkers⟩
        omega
  · exact counted.perform_eq_none (isFreed.mp freed) action

/-- A worker that has taken the entry frees a connection that was closed in
the meantime. -/
theorem refCount_eq_holders_closed : ∃ state, references.exec .initial
        [.beginEvent, .enqueue true, .endEvent, .pop, .beginClose, .clear,
          .closeDec, .unlock, .acquire] = some state ∧
      state.freed = 1 ∧
      ∀ action, references.perform state action = none := by
  refine ⟨{ Shared.initial with
    refCount := 0, destroyed := true, isOpen := false, freed := 1 },
    by decide, rfl, ?_⟩
  exact (refCount_eq_holders [.beginEvent, .enqueue true, .endEvent, .pop, .beginClose, .clear,
      .closeDec, .unlock, .acquire] _ (by decide)).2.2.2 rfl

/-! ## The way to the end -/

/-- The steps until the connection is cleared. -/
def Lock.rank : Lock → Nat
  | .cleared => 0
  | .closing => 1
  | .free => 2
  | .eventLoop | .workerDone | .closeDone => 3
  | .worker => 4

/-- A bound of the steps that are left: three for an entry and two for a worker
that waits. -/
def Shared.work (state : Shared) : Nat :=
  state.lock.rank + 4 * state.isOpen.toNat + state.sending + 3 * state.entries + 2 * state.waiting

end CWebFramework.Connection
