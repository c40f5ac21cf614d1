import CWebFramework.Transition.Runs

/-!
# Wakeups of a connection

The flag `broadcast_ref_count` says whether somebody takes care of the queues
of a connection.  A sender or a reader that raises it puts the connection into
the global work queue, a worker takes an item and arms the write events, and
`connection_after_write` lowers the flag when both queues are empty.  The
reader, the writer and the workers exclude each other by `connection_s_lock`,
senders do not.  The calls of epoll and the allocations succeed.
-/

namespace CWebFramework.Connection

open Transition

/-- The thread that holds `ctx->locked`, at its next atomic step. -/
inductive Phase where
  | free
  /-- `connection_queue_append`: the compare-and-swap. -/
  | readRaise
  | readControl
  | readEnqueue
  /-- `thread_handler` before the pop of an item. -/
  | workTake
  /-- An item of the request queue runs. -/
  | workRun
  /-- `__broadcast_queue_request_handler` takes further messages. -/
  | workDrain
  /-- `connection_after_write`: the first look at the queues. -/
  | writeCheck
  | writeEnqueue
  | writeMute
  | writeLower
  | writeRecheck
  | writeRaise
  | writeFinal
  deriving DecidableEq, Repr

/-- The events that epoll reports, besides errors. -/
inductive Mask where
  | input
  | output
  /-- `MPXONESHOT` alone. -/
  | silent
  deriving DecidableEq, Repr

/-- A connection with the threads that work on it. `busy` says that
`broadcast_ref_count` is 2; `appended`, `raised` and `muted` count the senders
behind their append, behind a successful compare-and-swap and behind
`control_mod`; `waiting` counts the workers between the pop of an entry and the
lock. -/
structure Traffic where
  busy : Bool
  requests : Nat
  messages : Nat
  entries : Nat
  waiting : Nat
  staged : Bool
  mask : Mask
  phase : Phase
  appended : Nat
  raised : Nat
  muted : Nat
  deriving DecidableEq, Repr

def Traffic.initial : Traffic where
  busy := false
  requests := 0
  messages := 0
  entries := 0
  waiting := 0
  staged := false
  mask := .input
  phase := .free
  appended := 0
  raised := 0
  muted := 0

inductive Move where
  | sendAppend
  | sendRaise
  | sendControl
  | sendEnqueue
  /-- A request goes to the request queue. -/
  | readRequest
  /-- A response of the reader itself, by `__post_response`. -/
  | readRespond
  | readRaise
  | readControl
  | readEnqueue
  | pop
  | lock
  | take
  | drain
  | arm
  | writeDone
  | writeCheck
  | writeEnqueue
  | writeMute
  | writeLower
  | writeRecheck
  | writeRaise
  | writeFinal
  deriving DecidableEq, Repr

/-- When a thread can take its step. An event may have been reported before the
mask changed, so a read needs only the lock and a write a staged response. -/
def Traffic.Enabled (state : Traffic) : Move → Prop
  | .sendAppend => True
  | .sendRaise => 0 < state.appended
  | .sendControl => 0 < state.raised
  | .sendEnqueue => 0 < state.muted
  | .readRequest => state.phase = .free
  | .readRespond => state.phase = .free ∧ state.requests = 0
  | .readRaise => state.phase = .readRaise
  | .readControl => state.phase = .readControl
  | .readEnqueue => state.phase = .readEnqueue
  | .pop => 0 < state.entries
  | .lock => 0 < state.waiting ∧ state.phase = .free
  | .take => state.phase = .workTake
  | .drain => state.phase = .workDrain ∧ 0 < state.messages
  | .arm => state.phase = .workRun ∨ state.phase = .workDrain
  | .writeDone => state.phase = .free ∧ state.staged = true
  | .writeCheck => state.phase = .writeCheck
  | .writeEnqueue => state.phase = .writeEnqueue
  | .writeMute => state.phase = .writeMute
  | .writeLower => state.phase = .writeLower
  | .writeRecheck => state.phase = .writeRecheck
  | .writeRaise => state.phase = .writeRaise
  | .writeFinal => state.phase = .writeFinal

instance Traffic.decidableEnabled (state : Traffic) : (move : Move) → Decidable (state.Enabled move)
  | .sendAppend => isTrue trivial
  | .sendRaise => inferInstanceAs (Decidable (_ < _))
  | .sendControl => inferInstanceAs (Decidable (_ < _))
  | .sendEnqueue => inferInstanceAs (Decidable (_ < _))
  | .readRequest => inferInstanceAs (Decidable (_ = _))
  | .readRespond => inferInstanceAs (Decidable (_ ∧ _))
  | .readRaise => inferInstanceAs (Decidable (_ = _))
  | .readControl => inferInstanceAs (Decidable (_ = _))
  | .readEnqueue => inferInstanceAs (Decidable (_ = _))
  | .pop => inferInstanceAs (Decidable (_ < _))
  | .lock => inferInstanceAs (Decidable (_ ∧ _))
  | .take => inferInstanceAs (Decidable (_ = _))
  | .drain => inferInstanceAs (Decidable (_ ∧ _))
  | .arm => inferInstanceAs (Decidable (_ ∨ _))
  | .writeDone => inferInstanceAs (Decidable (_ ∧ _))
  | .writeCheck => inferInstanceAs (Decidable (_ = _))
  | .writeEnqueue => inferInstanceAs (Decidable (_ = _))
  | .writeMute => inferInstanceAs (Decidable (_ = _))
  | .writeLower => inferInstanceAs (Decidable (_ = _))
  | .writeRecheck => inferInstanceAs (Decidable (_ = _))
  | .writeRaise => inferInstanceAs (Decidable (_ = _))
  | .writeFinal => inferInstanceAs (Decidable (_ = _))

def Traffic.effect (state : Traffic) : Move → Traffic
  -- `__broadcast_queue_add` and `connection_queue_append_broadcast`
  | .sendAppend =>
    { state with
      messages := state.messages + 1
      appended := state.appended + 1 }
  | .sendRaise =>
    if state.busy then { state with appended := state.appended - 1 }
    else
      { state with
        busy := true
        appended := state.appended - 1
        raised := state.raised + 1 }
  | .sendControl =>
    { state with
      mask := .silent
      raised := state.raised - 1
      muted := state.muted + 1 }
  | .sendEnqueue =>
    { state with
      entries := state.entries + 1
      muted := state.muted - 1 }
  -- the guarded read
  | .readRequest =>
    { state with
      requests := state.requests + 1
      phase := if state.requests = 0 then .readRaise else .free }
  | .readRespond => { state with staged := true, mask := .output }
  | .readRaise =>
    if state.busy then { state with phase := .free }
    else { state with busy := true, phase := .readControl }
  | .readControl => { state with mask := .silent, phase := .readEnqueue }
  | .readEnqueue =>
    { state with entries := state.entries + 1, phase := .free }
  -- `connection_queue_guard_pop` and `thread_handler`
  | .pop =>
    { state with
      entries := state.entries - 1
      waiting := state.waiting + 1 }
  | .lock =>
    { state with waiting := state.waiting - 1, phase := .workTake }
  | .take =>
    if 0 < state.requests then
      { state with requests := state.requests - 1, phase := .workRun }
    else if 0 < state.messages then
      { state with messages := state.messages - 1, phase := .workDrain }
    else { state with phase := .free }
  | .drain => { state with messages := state.messages - 1 }
  | .arm => { state with staged := true, mask := .output, phase := .free }
  -- `connection_after_write`
  | .writeDone => { state with staged := false, phase := .writeCheck }
  | .writeCheck =>
    { state with
      phase :=
        if 0 < state.requests ∨ 0 < state.messages then .writeEnqueue
        else .writeLower }
  | .writeEnqueue =>
    { state with entries := state.entries + 1, phase := .writeMute }
  | .writeMute => { state with mask := .silent, phase := .free }
  | .writeLower => { state with busy := false, phase := .writeRecheck }
  | .writeRecheck =>
    { state with
      phase := if 0 < state.messages then .writeRaise else .writeFinal }
  | .writeRaise =>
    if state.busy then { state with phase := .writeFinal }
    else { state with busy := true, phase := .writeEnqueue }
  | .writeFinal => { state with mask := .input, phase := .free }

def wakeups : System Traffic Move where
  perform state move :=
    if state.Enabled move then some (state.effect move) else none

/-- No thread is inside of a step on the connection. -/
def Traffic.Quiescent (state : Traffic) : Prop :=
  state.phase = .free ∧ state.waiting = 0 ∧ state.appended = 0 ∧ state.raised = 0 ∧ state.muted = 0
  deriving Decidable

/-- Work that waits is in the global work queue or behind a response with
write events armed. -/
def Traffic.Attended (state : Traffic) : Prop :=
  0 < state.requests ∨ 0 < state.messages →
    0 < state.entries ∨ (state.staged = true ∧ state.mask = .output)
  deriving Decidable

/-- The holder of the lock will arm the write events, queue the connection or
lower the flag. -/
def Phase.owns : Phase → Bool
  | .readControl | .readEnqueue | .workTake | .workRun | .workDrain
  | .writeCheck | .writeEnqueue | .writeLower => true
  | _ => false

/-- The writer behind `connection_reset`. -/
def Phase.writes : Phase → Bool
  | .writeCheck | .writeEnqueue | .writeMute | .writeLower | .writeRecheck
  | .writeRaise | .writeFinal => true
  | _ => false

/-- The writer behind a look at the empty request queue. -/
def Phase.checked : Phase → Bool
  | .writeLower | .writeRecheck | .writeRaise | .writeFinal => true
  | _ => false

/-- A response is about to be written, or the connection is in the work queue
or on its way into it or to a worker. -/
def Traffic.Handed (state : Traffic) : Prop :=
  (state.staged = true ∧ state.mask = .output) ∨
    0 < state.raised + state.muted + state.entries + state.waiting
  deriving Decidable

def Traffic.Owned (state : Traffic) : Prop :=
  state.Handed ∨ state.phase.owns = true
  deriving Decidable

/-- A raised flag and waiting work have somebody who takes care of them, or who
will look at them in the next steps. -/
structure Traffic.Awake (state : Traffic) : Prop where
  busy : state.busy = true → state.Owned
  messages : 0 < state.messages → state.Owned ∨ 0 < state.appended ∨
    state.phase = .writeRecheck ∨ state.phase = .writeRaise
  requests : 0 < state.requests → state.Owned ∨ state.phase = .readRaise
  muting : state.phase = .writeMute → 0 < state.entries + state.waiting
  writing : state.phase.writes = true → state.staged = false
  checked : state.phase.checked = true → state.requests = 0

private theorem awake_initial : Traffic.initial.Awake := by
  constructor <;> decide

section Moves

variable {state : Traffic}

theorem Traffic.Owned.handed (owned : state.Owned)
    (other : state.phase.owns = false) : state.Handed := by
  rcases owned with handed | owns
  · exact handed
  · rw [other] at owns
    cases owns

theorem awake_of_owned (owned : state.Owned)
    (muting : state.phase = .writeMute → 0 < state.entries + state.waiting)
    (writing : state.phase.writes = true → state.staged = false)
    (checked : state.phase.checked = true → state.requests = 0) :
    state.Awake :=
  ⟨fun _ => owned, fun _ => .inl owned, fun _ => .inl owned, muting, writing, checked⟩

/-- The lock goes to a phase that takes care of the queues. -/
theorem awake_of_owns (owns : state.phase.owns = true)
    (writing : state.phase.writes = true → state.staged = false)
    (checked : state.phase.checked = true → state.requests = 0) :
    state.Awake := by
  refine awake_of_owned (.inr owns) ?_ writing checked
  intro isMuting
  rw [isMuting] at owns
  cases owns

/-- The lock goes back. -/
theorem awake_of_free (isFree : state.phase = .free) (handed : state.Handed) :
    state.Awake := by
  apply awake_of_owned (.inl handed)
  · rw [isFree]
    exact nofun
  · rw [isFree]
    exact nofun
  · rw [isFree]
    exact nofun

/-- A step of a sender or of a worker without the lock. -/
theorem Traffic.Awake.outside {next : Traffic} (awake : state.Awake)
    (counted : 0 < next.raised + next.muted + next.entries + next.waiting)
    (samePhase : next.phase = state.phase) (sameStaged : next.staged = state.staged)
    (sameRequests : next.requests = state.requests)
    (noLess : state.entries + state.waiting ≤ next.entries + next.waiting) :
    next.Awake := by
  apply awake_of_owned (.inl (.inr counted))
  · intro isMuting
    have positive := awake.muting (samePhase.symm.trans isMuting)
    omega
  · rw [samePhase, sameStaged]
    exact awake.writing
  · rw [samePhase, sameRequests]
    exact awake.checked

theorem Traffic.Awake.sendAppend (awake : state.Awake) : (state.effect .sendAppend).Awake := by
  refine ⟨awake.busy, fun _ => .inr (.inl ?_), awake.requests, awake.muting,
    awake.writing, awake.checked⟩
  exact Nat.succ_pos _

theorem Traffic.Awake.sendRaise (awake : state.Awake) : (state.effect .sendRaise).Awake := by
  unfold effect
  dsimp only
  split_ifs with isBusy
  · -- whoever has raised the flag will see the message
    exact awake_of_owned (awake.busy isBusy) awake.muting awake.writing awake.checked
  · refine awake.outside ?_ rfl rfl rfl (Nat.le_refl _)
    dsimp only
    omega

theorem Traffic.Awake.readRequest (awake : state.Awake)
    (isFree : state.phase = .free) : (state.effect .readRequest).Awake := by
  have other : state.phase.owns = false := by
    rw [isFree]
    rfl
  unfold effect
  dsimp only
  split_ifs with isEmpty
  · refine ⟨fun isBusy => .inl ((awake.busy isBusy).handed other), ?_,
      fun _ => .inr rfl, nofun, nofun, nofun⟩
    intro waits
    rcases awake.messages waits with owned | sender | isRecheck | isRaise
    · exact .inl (.inl (owned.handed other))
    · exact .inr (.inl sender)
    · cases isFree.symm.trans isRecheck
    · cases isFree.symm.trans isRaise
  · apply awake_of_free rfl
    rcases awake.requests (Nat.pos_of_ne_zero isEmpty) with owned | isRaise
    · exact owned.handed other
    · cases isFree.symm.trans isRaise

theorem Traffic.Awake.readRaise (awake : state.Awake) (isPhase : state.phase = .readRaise) :
    (state.effect .readRaise).Awake := by
  unfold effect
  dsimp only
  split_ifs with isBusy
  · apply awake_of_free rfl
    exact (awake.busy isBusy).handed (by rw [isPhase]; rfl)
  · exact awake_of_owns rfl nofun nofun

/-- A worker that finds an item. -/
theorem Traffic.Awake.take (isWork : 0 < state.requests + state.messages) :
    (state.effect .take).Awake := by
  unfold effect
  dsimp only
  split_ifs
  · exact awake_of_owns rfl nofun nofun
  · exact awake_of_owns rfl nofun nofun
  · omega

theorem Traffic.Awake.writeCheck (awake : state.Awake) (isPhase : state.phase = .writeCheck) :
    (state.effect .writeCheck).Awake := by
  have unstaged : state.staged = false := awake.writing (by rw [isPhase]; rfl)
  unfold effect
  dsimp only
  split_ifs with isWork
  · exact awake_of_owns rfl (fun _ => unstaged) nofun
  · refine awake_of_owns rfl (fun _ => unstaged) fun _ => ?_
    dsimp only
    omega

theorem Traffic.Awake.writeLower (awake : state.Awake) (isPhase : state.phase = .writeLower) :
    (state.effect .writeLower).Awake := by
  have noRequests : state.requests = 0 := awake.checked (by rw [isPhase]; rfl)
  refine ⟨nofun, fun _ => .inr (.inr (.inl rfl)), ?_, nofun, ?_, fun _ => noRequests⟩
  · intro waits
    exact absurd noRequests (Nat.ne_of_gt waits)
  · exact fun _ => awake.writing (by rw [isPhase]; rfl)

theorem Traffic.Awake.writeRecheck (awake : state.Awake) (isPhase : state.phase = .writeRecheck) :
    (state.effect .writeRecheck).Awake := by
  have other : state.phase.owns = false := by
    rw [isPhase]
    rfl
  have noRequests : state.requests = 0 := awake.checked (by rw [isPhase]; rfl)
  have unstaged : state.staged = false := awake.writing (by rw [isPhase]; rfl)
  unfold effect
  dsimp only
  split_ifs with isWaiting
  · refine ⟨fun isBusy => .inl ((awake.busy isBusy).handed other),
      fun _ => .inr (.inr (.inr rfl)), ?_, nofun, fun _ => unstaged,
      fun _ => noRequests⟩
    exact fun waits => absurd noRequests (Nat.ne_of_gt waits)
  · refine ⟨fun isBusy => .inl ((awake.busy isBusy).handed other),
      fun waits => absurd waits isWaiting, ?_, nofun, fun _ => unstaged,
      fun _ => noRequests⟩
    exact fun waits => absurd noRequests (Nat.ne_of_gt waits)

theorem Traffic.Awake.writeRaise (awake : state.Awake) (isPhase : state.phase = .writeRaise) :
    (state.effect .writeRaise).Awake := by
  have other : state.phase.owns = false := by
    rw [isPhase]
    rfl
  have unstaged : state.staged = false := awake.writing (by rw [isPhase]; rfl)
  unfold effect
  dsimp only
  split_ifs with isBusy
  · -- a sender has raised the flag again
    exact awake_of_owned (.inl ((awake.busy isBusy).handed other)) nofun
      (fun _ => unstaged) (fun _ => awake.checked (by rw [isPhase]; rfl))
  · exact awake_of_owns rfl (fun _ => unstaged) nofun

/-- The events of a read are armed again; nothing is staged then. -/
theorem Traffic.Awake.writeFinal (awake : state.Awake) (isPhase : state.phase = .writeFinal) :
    (state.effect .writeFinal).Awake := by
  have unstaged : state.staged = false := awake.writing (by rw [isPhase]; rfl)
  have noRequests : state.requests = 0 := awake.checked (by rw [isPhase]; rfl)
  have kept (owned : state.Owned) : (state.effect .writeFinal).Owned := by
    rcases owned.handed (by rw [isPhase]; rfl) with armed | counted
    · rw [unstaged] at armed
      cases armed.1
    · exact .inl (.inr counted)
  refine ⟨fun isBusy => kept (awake.busy isBusy), ?_, ?_, nofun, nofun, nofun⟩
  · intro waits
    rcases awake.messages waits with owned | sender | isRecheck | isRaise
    · exact .inl (kept owned)
    · exact .inr (.inl sender)
    · cases isPhase.symm.trans isRecheck
    · cases isPhase.symm.trans isRaise
  · exact fun waits => absurd noRequests (Nat.ne_of_gt waits)

end Moves

/-- A worker that takes the connection finds a request or a message. -/
def FindsWork (state : Traffic) (move : Move) : Prop :=
  move = .take → 0 < state.requests + state.messages
  deriving Decidable

theorem awake_perform {state next : Traffic} {move : Move} (finds : FindsWork state move)
    (step : wakeups.perform state move = some next) (awake : state.Awake) :
    next.Awake := by
  unfold wakeups at step
  dsimp only at step
  split_ifs at step with isEnabled
  cases step
  cases move with
  | sendAppend => exact awake.sendAppend
  | sendRaise => exact awake.sendRaise
  | sendControl =>
    refine awake.outside ?_ rfl rfl rfl (Nat.le_refl _)
    simp only [Traffic.effect]
    omega
  | sendEnqueue =>
    refine awake.outside ?_ rfl rfl rfl ?_
    · simp only [Traffic.effect]
      omega
    · simp only [Traffic.effect]
      omega
  | readRequest => exact awake.readRequest isEnabled
  | readRespond => exact awake_of_free isEnabled.1 (.inl ⟨rfl, rfl⟩)
  | readRaise => exact awake.readRaise isEnabled
  | readControl => exact awake_of_owns rfl nofun nofun
  | readEnqueue =>
    apply awake_of_free rfl (.inr ?_)
    simp only [Traffic.effect]
    omega
  | pop =>
    have isQueued : 0 < state.entries := isEnabled
    refine awake.outside ?_ rfl rfl rfl ?_
    · simp only [Traffic.effect]
      omega
    · simp only [Traffic.effect]
      omega
  | lock => exact awake_of_owns rfl nofun nofun
  | take => exact Traffic.Awake.take (finds rfl)
  | drain =>
    have owns : state.phase.owns = true := by
      rw [isEnabled.1]
      rfl
    exact awake_of_owns owns awake.writing awake.checked
  | arm => exact awake_of_free rfl (.inl ⟨rfl, rfl⟩)
  | writeDone => exact awake_of_owns rfl (fun _ => rfl) nofun
  | writeCheck => exact awake.writeCheck isEnabled
  | writeEnqueue =>
    have unstaged : state.staged = false :=
      awake.writing (by rw [show state.phase = _ from isEnabled]; rfl)
    refine awake_of_owned (.inl (.inr ?_)) (fun _ => ?_) (fun _ => unstaged) nofun
    · simp only [Traffic.effect]
      omega
    · simp only [Traffic.effect]
      omega
  | writeMute =>
    have isQueued := awake.muting isEnabled
    apply awake_of_free rfl (.inr ?_)
    simp only [Traffic.effect]
    omega
  | writeLower => exact awake.writeLower isEnabled
  | writeRecheck => exact awake.writeRecheck isEnabled
  | writeRaise => exact awake.writeRaise isEnabled
  | writeFinal => exact awake.writeFinal isEnabled

/-- No wakeup is lost in a run in which every worker that takes the connection
finds a request or a message. -/
theorem attended_of_findsWork {moves : List Move} {state : Traffic}
    (finds : wakeups.Meets FindsWork .initial moves)
    (run : wakeups.exec .initial moves = some state)
    (quiescent : state.Quiescent) : state.Attended := by
  have awake : state.Awake := wakeups.exec_invariant awake_perform finds run awake_initial
  obtain ⟨isFree, noWorkers, noneAppended, noneRaised, noneMuted⟩ := quiescent
  have attended (owned : state.Owned) :
      0 < state.entries ∨ (state.staged = true ∧ state.mask = .output) := by
    rcases owned.handed (by rw [isFree]; rfl) with armed | counted
    · exact .inr armed
    · exact .inl (by omega)
  rintro (waits | waits)
  · rcases awake.requests waits with owned | isRaise
    · exact attended owned
    · cases isFree.symm.trans isRaise
  · rcases awake.messages waits with owned | sender | isRecheck | isRaise
    · exact attended owned
    · omega
    · cases isFree.symm.trans isRecheck
    · cases isFree.symm.trans isRaise

/-- Two messages, the second one in the meantime of the write. -/
theorem attended_of_findsWork_two : ∃ state, wakeups.exec .initial
        [.sendAppend, .sendRaise, .sendControl, .sendEnqueue, .pop, .lock,
          .take, .arm, .writeDone, .sendAppend, .writeCheck, .writeEnqueue,
          .writeMute, .sendRaise] = some state ∧
      0 < state.messages ∧ state.Quiescent ∧ state.Attended := by
  refine ⟨{ Traffic.initial with
    busy := true, messages := 1, entries := 1, mask := .silent },
    by decide, by decide, by decide, ?_⟩
  exact attended_of_findsWork (show wakeups.Meets FindsWork .initial
      [.sendAppend, .sendRaise, .sendControl, .sendEnqueue, .pop, .lock,
        .take, .arm, .writeDone, .sendAppend, .writeCheck, .writeEnqueue,
        .writeMute, .sendRaise] by decide) (by decide) (by decide)

/-- The message of the second sender is taken together with that of the first
one, before the sender raises the flag. The worker that is woken by it finds
nothing and leaves the flag raised, so nobody takes care of the third
message. -/
theorem unattended_drained : ∃ state, wakeups.exec .initial
        [.sendAppend, .sendRaise, .sendControl, .sendEnqueue, .sendAppend,
          .pop, .lock, .take, .drain, .arm, .writeDone, .writeCheck,
          .writeLower, .writeRecheck, .writeFinal, .sendRaise, .sendControl,
          .sendEnqueue, .pop, .lock, .take, .sendAppend, .sendRaise] =
        some state ∧
      state.Quiescent ∧ ¬ state.Attended :=
  ⟨{ Traffic.initial with busy := true, messages := 1, mask := .silent },
    by decide, by decide, by decide⟩

end CWebFramework.Connection
