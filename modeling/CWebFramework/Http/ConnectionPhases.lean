import CWebFramework.Http.Connection
import Mathlib.Data.List.Infix

/-!
# The phases of a connection

The fields of the connection context are never in an arbitrary combination:
the connection waits for input, or for a worker, or a response is being
written.  `Live` states that together with the balance of the log: every
request that was handed over has been answered or is pending, in this order.
The module proves that every action keeps it.
-/

namespace CWebFramework.Http

open Transition

/-! ## What the log says -/

/-- The request of an entry that asks for a response; `none` stands for a
message that was rejected. -/
def Entry.handed : Entry → Option (Option Request)
  | .dispatched request _ => some (some request)
  | .rejected _ => some none
  | _ => none

def Entry.answered : Entry → Option (Option Request)
  | .completed origin _ => some origin
  | _ => none

def Entry.response : Entry → Option Bytes
  | .completed _ response => some response
  | _ => none

def handedOver (log : List Entry) : List (Option Request) := log.filterMap Entry.handed

/-- The messages whose responses are complete, in the order of the
responses. -/
def answered (log : List Entry) : List (Option Request) := log.filterMap Entry.answered

def responses (log : List Entry) : List Bytes := log.filterMap Entry.response

theorem handedOver_concat (log : List Entry) (entry : Entry) :
    handedOver (log ++ [entry]) = handedOver log ++ entry.handed.toList := by
  cases handed : entry.handed <;> simp [handedOver, handed]

theorem answered_concat (log : List Entry) (entry : Entry) :
    answered (log ++ [entry]) = answered log ++ entry.answered.toList := by
  cases ends : entry.answered <;> simp [answered, ends]

theorem responses_concat (log : List Entry) (entry : Entry) :
    responses (log ++ [entry]) = responses log ++ entry.response.toList := by
  cases response : entry.response <;> simp [responses, response]

def ServerCtx.pending (ctx : ServerCtx) : List (Option Request) :=
  (ctx.staged.map Staged.origin).toList ++ ctx.queue.map QueueItem.origin

def ServerCtx.partialResponse (ctx : ServerCtx) : Bytes :=
  match ctx.staged with
  | some staged => staged.response.take staged.written
  | none => []

/-! ## Phases -/

structure IsIdle (ctx : ServerCtx) : Prop where
  mask : ctx.mask = .input
  queue : ctx.queue = []
  staged : ctx.staged = none
  needWrite : ctx.needWrite = false
  broadcastRefCount : ctx.broadcastRefCount = 1
  scheduled : ctx.scheduled = 0

structure IsScheduled (ctx : ServerCtx) : Prop where
  mask : ctx.mask = .oneshot
  queue : ctx.queue ≠ []
  staged : ctx.staged = none
  needWrite : ctx.needWrite = false
  broadcastRefCount : ctx.broadcastRefCount = 2
  scheduled : ctx.scheduled = 1

/-- A response is being written. The reader has prepared it itself when the
queue was empty, or a worker has. -/
structure IsWriting (ctx : ServerCtx) : Prop where
  mask : ctx.mask = .output
  staged : ∃ staged, ctx.staged = some staged ∧ staged.written ≤ staged.response.length
  prepared : ctx.queue = [] ∧ ctx.broadcastRefCount = 1 ∨ ctx.broadcastRefCount = 2
  scheduled : ctx.scheduled = 0

inductive Phase (ctx : ServerCtx) : Prop where
  | idle (idle : IsIdle ctx)
  | scheduled (scheduled : IsScheduled ctx)
  | writing (writing : IsWriting ctx)

/-- The context of a connection that is not destroyed, with the bytes that it
has sent. -/
structure Live (sent : Bytes) (ctx : ServerCtx) : Prop where
  phase : Phase ctx
  balanced : handedOver ctx.log = answered ctx.log ++ ctx.pending
  sent : sent = (responses ctx.log).flatten ++ ctx.partialResponse

/-- A connection that is destroyed has answered its first messages. -/
structure Stopped (sent : Bytes) (ctx : ServerCtx) : Prop where
  answered : answered ctx.log <+: handedOver ctx.log
  sent : (responses ctx.log).flatten <+: sent

def Connection.Sound (connection : Connection) : Prop :=
  if connection.destroyed then Stopped connection.sent connection.ctx
  else Live connection.sent connection.ctx

variable {sent : Bytes} {ctx : ServerCtx}

theorem Live.stopped (live : Live sent ctx) : Stopped sent ctx where
  answered := ⟨_, live.balanced.symm⟩
  sent := ⟨_, live.sent.symm⟩

/-- The log gets an entry that neither hands over nor completes a
message. -/
theorem Live.note (live : Live sent ctx) {entry : Entry}
    (handed : entry.handed = none) (ends : entry.answered = none)
    (response : entry.response = none) :
    Live sent { ctx with log := ctx.log ++ [entry] } where
  phase := by
    cases live.phase with
    | idle idle => exact .idle { idle with }
    | scheduled scheduled => exact .scheduled { scheduled with }
    | writing writing => exact .writing { writing with }
  balanced := by
    show handedOver (ctx.log ++ [entry]) = answered (ctx.log ++ [entry]) ++ ctx.pending
    rw [handedOver_concat, answered_concat, handed, ends]
    simpa using live.balanced
  sent := by
    show sent = (responses (ctx.log ++ [entry])).flatten ++ ctx.partialResponse
    rw [responses_concat, response]
    simpa using live.sent

/-! ## The reader -/

/-- The context while the reader is at work. -/
structure IsReading (sent : Bytes) (ctx : ServerCtx) : Prop where
  live : Live sent ctx
  unanswered : IsIdle ctx ∨ IsScheduled ctx

/-- What an item needs that is appended for a message that was just handed
over. -/
structure Handed (sent : Bytes) (origin : Option Request) (ctx : ServerCtx) : Prop where
  unanswered : IsIdle ctx ∨ IsScheduled ctx
  balanced : handedOver ctx.log = answered ctx.log ++ ctx.pending ++ [origin]
  sent : sent = (responses ctx.log).flatten ++ ctx.partialResponse

theorem IsReading.handed {sent : Bytes} {ctx : ServerCtx}
    (reading : IsReading sent ctx) {entry : Entry} {origin : Option Request}
    (handed : entry.handed = some origin) (ends : entry.answered = none)
    (response : entry.response = none) :
    Handed sent origin { ctx with log := ctx.log ++ [entry] } where
  unanswered := reading.unanswered.imp
    (fun idle => { idle with }) (fun scheduled => { scheduled with })
  balanced := by
    show handedOver (ctx.log ++ [entry]) = answered (ctx.log ++ [entry]) ++ ctx.pending ++ [origin]
    rw [handedOver_concat, answered_concat, handed, ends, reading.live.balanced]
    simp
  sent := by
    show sent = (responses (ctx.log ++ [entry])).flatten ++ ctx.partialResponse
    rw [responses_concat, response]
    simpa using reading.live.sent

theorem deferredHandler_scheduled (item : QueueItem) (unanswered : IsIdle ctx ∨ IsScheduled ctx) :
    IsScheduled (deferredHandler item ctx) := by
  rcases unanswered with idle | scheduled
  · simp only [deferredHandler, idle.queue, idle.broadcastRefCount,
      idle.scheduled, ne_eq, not_true_eq_false, if_true, if_false]
    exact {
      mask := rfl
      queue := by simp
      staged := idle.staged
      needWrite := idle.needWrite
      broadcastRefCount := rfl
      scheduled := rfl }
  · simp only [deferredHandler, ne_eq, scheduled.queue, not_false_eq_true, if_true]
    exact { scheduled with queue := by simp }

/-- Queueing appends the message to the pending ones and touches nothing else
that the balance reads. -/
theorem deferredHandler_frame (item : QueueItem) (ctx : ServerCtx) :
    (deferredHandler item ctx).pending = ctx.pending ++ [item.origin] ∧
      (deferredHandler item ctx).log = ctx.log ∧
      (deferredHandler item ctx).staged = ctx.staged := by
  unfold deferredHandler
  dsimp only
  split_ifs <;> simp [ServerCtx.pending]

theorem deferredHandler_reading {item : QueueItem} (handed : Handed sent item.origin ctx) :
    IsReading sent (deferredHandler item ctx) := by
  have scheduled := deferredHandler_scheduled item handed.unanswered
  obtain ⟨pending, log, staged⟩ := deferredHandler_frame item ctx
  exact {
    live := {
      phase := .scheduled scheduled
      balanced := by
        rw [log, pending, ← List.append_assoc]
        exact handed.balanced
      sent := by
        rw [log, ServerCtx.partialResponse, staged]
        exact handed.sent }
    unanswered := .inr scheduled }

theorem postResponse_live {origin : Option Request} (request : Option Request)
    (response : Bytes) (handed : Handed sent origin ctx) :
    Live sent (postResponse origin request response ctx) := by
  unfold postResponse
  split
  · rename_i empty
    rcases handed.unanswered with idle | scheduled
    · exact {
        phase := .writing {
          mask := rfl
          staged := ⟨_, rfl, Nat.zero_le _⟩
          prepared := .inl ⟨empty, idle.broadcastRefCount⟩
          scheduled := idle.scheduled }
        balanced := by
          have balanced := handed.balanced
          simp only [ServerCtx.pending, idle.staged, empty] at balanced ⊢
          simpa using balanced
        sent := by
          have sentBytes := handed.sent
          simp only [ServerCtx.partialResponse, idle.staged] at sentBytes ⊢
          simpa using sentBytes }
    · exact absurd empty scheduled.queue
  · exact (deferredHandler_reading handed).live

theorem handleRequest_log (app : Application) (mode : PostMode)
    (request : Request) (connection : ParserConnection) (ctx : ServerCtx) :
    (handleRequest app mode request connection ctx).1.log =
      ctx.log ++ [.dispatched request connection.server] := by
  unfold handleRequest postResponse
  dsimp only
  split
  · exact (deferredHandler_frame _ _).2.1
  · exact (deferredHandler_frame _ _).2.1
  · exact (deferredHandler_frame _ _).2.1
  · split
    · rfl
    · exact (deferredHandler_frame _ _).2.1

theorem rejectMessage_frame (app : Application) (status : Nat)
    (connection : ParserConnection) (ctx : ServerCtx) :
    (rejectMessage app status connection ctx).log = ctx.log ++ [.rejected status] ∧
      none ∈ (rejectMessage app status connection ctx).pending := by
  unfold rejectMessage postResponse
  split
  · exact ⟨rfl, by simp [ServerCtx.pending]⟩
  · obtain ⟨pending, log, -⟩ := deferredHandler_frame
      { origin := none, request := none,
        task := .send (app.render (.default status) none connection.keepalive) }
      { ctx with log := ctx.log ++ [.rejected status] }
    exact ⟨log, by simp [pending]⟩

private theorem handleRequest_deferred_reading (app : Application) (request : Request)
    (connection : ParserConnection) (reading : IsReading sent ctx) :
    IsReading sent (handleRequest app .deferred request connection ctx).1 := by
  have handed : Handed sent (some request)
      { ctx with
        log := ctx.log ++ [.dispatched request connection.server] } :=
    reading.handed rfl rfl rfl
  unfold handleRequest
  dsimp only
  split <;> first
    | exact deferredHandler_reading handed
    | contradiction

private theorem handleRequest_direct_live (app : Application) (request : Request)
    (connection : ParserConnection) (reading : IsReading sent ctx) :
    Live sent (handleRequest app .direct request connection ctx).1 := by
  have handed : Handed sent (some request)
      { ctx with
        log := ctx.log ++ [.dispatched request connection.server] } :=
    reading.handed rfl rfl rfl
  unfold handleRequest
  dsimp only
  split
  · exact (deferredHandler_reading handed).live
  · exact (deferredHandler_reading handed).live
  · contradiction
  · exact postResponse_live _ _ handed

private theorem rejectMessage_live (app : Application) (status : Nat)
    (connection : ParserConnection) (reading : IsReading sent ctx) :
    Live sent (rejectMessage app status connection ctx) :=
  postResponse_live none _ (reading.handed rfl rfl rfl)

private theorem serverLayer_live (env : Env) (app : Application) (sent : Bytes) :
    LoopInvariant env (serverLayer app) (fun _ => True) (fun _ _ => True)
      (IsReading sent) (Live sent) where
  complete := fun _ _ _ => ⟨trivial, fun _ => trivial⟩
  unfinished := fun _ _ _ _ => trivial
  deferred := fun _ reading =>
    handleRequest_deferred_reading app _ _ reading
  direct := fun _ reading => handleRequest_direct_live app _ _ reading
  rejected := fun reading => rejectMessage_live app _ _ reading

/-! ## The turns -/

/-- The ways in which an action is performed. -/
inductive Turn (env : Env) (app : Application) (connection : Connection) :
    Action → Connection → Prop where
  | read {buffers : List Bytes} {result : ReadResult ServerCtx}
      (alive : connection.destroyed = false)
      (mask : connection.ctx.mask = .input)
      (cut : IsReadCut buffers)
      (used : readConnection env (serverLayer app) connection.parser
        { connection.ctx with
          log := connection.ctx.log ++ [.received buffers] } buffers =
          (result, [])) :
      Turn env app connection (.read buffers) (if result.ret = .closed then
          connectionClose
            { connection with parser := result.state, ctx := result.ext }
        else
          { connection with parser := result.state, ctx := result.ext })
  | work (scheduled : connection.ctx.scheduled ≠ 0) :
      Turn env app connection .work (workerTurn app connection)
  | write {staged : Staged} {count : Nat} (alive : connection.destroyed = false)
      (present : connection.ctx.staged = some staged)
      (fits : staged.written + count ≤ staged.response.length) :
      Turn env app connection (.write count) (writerTurn staged count connection)
  | writeNothing {count : Nat} (alive : connection.destroyed = false)
      (writable : connection.ctx.mask = .output ∨ connection.ctx.needWrite)
      (absent : connection.ctx.staged = none) :
      Turn env app connection (.write count) (connectionClose connection)
  | close (destroyed : connection.destroyed = true) :
      Turn env app connection .close (connectionClose connection)
  | hangUp : Turn env app connection .hangUp (connectionClose connection)

variable {connection : Connection}

theorem perform_turn {env : Env} {app : Application} {next : Connection}
    {action : Action} (performed :
      (connectionSystem env app).perform connection action = some next) :
    Turn env app connection action next := by
  cases action with
  | read buffers =>
    simp only [connectionSystem] at performed
    split at performed
    · cases performed
    · rename_i enabled
      simp only [not_or, Bool.not_eq_true, ne_eq, not_not] at enabled
      unfold readerTurn at performed
      dsimp only at performed
      split at performed
      · rename_i result used
        cases performed
        exact .read enabled.1 enabled.2.1 enabled.2.2 used
      · cases performed
  | work =>
    simp only [connectionSystem] at performed
    split at performed
    · cases performed
    · rename_i scheduled
      cases performed
      exact .work scheduled
  | write count =>
    simp only [connectionSystem] at performed
    split at performed
    · cases performed
    · rename_i enabled
      obtain ⟨running, writable⟩ := not_or.mp enabled
      have alive := eq_false_of_ne_true running
      split at performed
      · rename_i absent
        cases performed
        exact .writeNothing alive (not_not.mp writable) absent
      · rename_i staged present
        split at performed
        · cases performed
        · rename_i fits
          cases performed
          exact .write alive present (Nat.le_of_not_lt fits)
  | close =>
    simp only [connectionSystem] at performed
    split at performed
    · rename_i enabled
      cases performed
      exact .close enabled.1
    · cases performed
  | hangUp =>
    simp only [connectionSystem] at performed
    split at performed
    · cases performed
    · cases performed
      exact .hangUp

theorem Connection.Sound.live (sound : connection.Sound) (alive : connection.destroyed = false) :
    Live connection.sent connection.ctx := by
  simpa [Sound, alive] using sound

theorem Connection.Sound.stopped (sound : connection.Sound) :
    Stopped connection.sent connection.ctx := by
  cases destroyed : connection.destroyed with
  | false => exact (sound.live destroyed).stopped
  | true => simpa [Sound, destroyed] using sound

theorem Connection.sound_of_live (live : Live connection.sent connection.ctx) :
    connection.Sound := by
  unfold Sound
  split
  · exact live.stopped
  · exact live

theorem connectionClose_sound (sound : connection.Sound) : (connectionClose connection).Sound :=
  sound.stopped

theorem Live.isIdle (live : Live sent ctx) (mask : ctx.mask = .input) :
    IsIdle ctx := by
  cases live.phase with
  | idle idle => exact idle
  | scheduled scheduled => simp [scheduled.mask] at mask
  | writing writing => simp [writing.mask] at mask

theorem Live.isScheduled (live : Live sent ctx) (waiting : ctx.scheduled ≠ 0) :
    IsScheduled ctx := by
  cases live.phase with
  | idle idle => exact absurd idle.scheduled waiting
  | scheduled scheduled => exact scheduled
  | writing writing => exact absurd writing.scheduled waiting

variable {staged : Staged}

theorem Live.isWriting (live : Live sent ctx)
    (present : ctx.staged = some staged) : IsWriting ctx := by
  cases live.phase with
  | idle idle => simp [idle.staged] at present
  | scheduled scheduled => simp [scheduled.staged] at present
  | writing writing => exact writing

theorem Live.staged_of_writable (live : Live sent ctx)
    (writable : ctx.mask = .output ∨ ctx.needWrite) : ctx.staged ≠ none := by
  cases live.phase with
  | idle idle => simp [idle.mask, idle.needWrite] at writable
  | scheduled scheduled =>
    simp [scheduled.mask, scheduled.needWrite] at writable
  | writing writing =>
    obtain ⟨staged, present, -⟩ := writing.staged
    simp [present]

/-- A worker stages a response for its item and may note that it ran the
middlewares. -/
theorem runItem_frame (app : Application) (connection : ParserConnection)
    (item : QueueItem) (ctx : ServerCtx) :
    ∃ response log, runItem app connection item ctx =
          { ctx with
            staged := some {
              origin := item.origin, response := response, written := 0 }
            mask := .output
            log := log } ∧
        (log = ctx.log ∨ log = ctx.log ++ [.ran item.origin connection.server]) := by
  unfold runItem stageResponse
  cases item.task with
  | send response => exact ⟨response, ctx.log, rfl, .inl rfl⟩
  | run handler ratelimiter =>
    dsimp only
    split
    · exact ⟨_, ctx.log, rfl, .inl rfl⟩
    · exact ⟨_, _, rfl, .inr rfl⟩

theorem workerTurn_frame (app : Application) (alive : connection.destroyed = false)
    (scheduled : IsScheduled connection.ctx) :
    ∃ item queue response log, connection.ctx.queue = item :: queue ∧ workerTurn app connection =
          { connection with
            ctx := { connection.ctx with
              queue := queue
              staged := some {
                origin := item.origin, response := response, written := 0 }
              mask := .output
              scheduled := 0
              log := log } } ∧
        (log = connection.ctx.log ∨ log = connection.ctx.log ++
            [.ran item.origin connection.parser.connection.server]) := by
  cases queued : connection.ctx.queue with
  | nil => exact absurd queued scheduled.queue
  | cons item queue =>
    obtain ⟨response, log, ran, logged⟩ :=
      runItem_frame app connection.parser.connection item
        { connection.ctx with scheduled := 0, queue := queue }
    refine ⟨item, queue, response, log, rfl, ?_, logged⟩
    dsimp only at ran
    simp only [workerTurn, alive, Bool.false_eq_true, if_false, queued,
      scheduled.scheduled, Nat.sub_self, ran]

theorem workerTurn_live (app : Application) (alive : connection.destroyed = false)
    (live : Live connection.sent connection.ctx)
    (scheduled : IsScheduled connection.ctx) :
    Live (workerTurn app connection).sent (workerTurn app connection).ctx := by
  obtain ⟨item, queue, response, log, queued, turned, logged⟩ :=
    workerTurn_frame app alive scheduled
  have balanced := live.balanced
  have sentBytes := live.sent
  simp only [ServerCtx.pending, scheduled.staged, queued] at balanced
  simp only [ServerCtx.partialResponse, scheduled.staged] at sentBytes
  have sameLog : handedOver log = handedOver connection.ctx.log ∧
      answered log = answered connection.ctx.log ∧
      responses log = responses connection.ctx.log := by
    rcases logged with rfl | rfl
    · exact ⟨rfl, rfl, rfl⟩
    · rw [handedOver_concat, answered_concat, responses_concat]
      simp [Entry.handed, Entry.answered, Entry.response]
  rw [turned]
  exact {
    phase := .writing {
      mask := rfl
      staged := ⟨_, rfl, Nat.zero_le _⟩
      prepared := .inr scheduled.broadcastRefCount
      scheduled := rfl }
    balanced := by
      simp only [ServerCtx.pending, sameLog]
      simpa using balanced
    sent := by
      simp only [ServerCtx.partialResponse, sameLog]
      simpa using sentBytes }

theorem connectionAfterWrite_sound (writing : IsWriting connection.ctx)
    (balanced : handedOver connection.ctx.log = answered connection.ctx.log ++
        connection.ctx.queue.map QueueItem.origin)
    (sentBytes : connection.sent = (responses connection.ctx.log).flatten) :
    (connectionAfterWrite connection).Sound := by
  unfold connectionAfterWrite
  dsimp only
  split
  · exact {
      answered := ⟨_, balanced.symm⟩
      sent := by rw [sentBytes] }
  · refine Connection.sound_of_live ?_
    split
    · rename_i queued
      exact {
        phase := .scheduled {
          mask := rfl
          queue := queued
          staged := rfl
          needWrite := rfl
          broadcastRefCount := by
            rcases writing.prepared with ⟨empty, -⟩ | prepared
            · exact absurd empty queued
            · exact prepared
          scheduled := by simp [writing.scheduled] }
        balanced := by simpa [ServerCtx.pending] using balanced
        sent := by simpa [ServerCtx.partialResponse] using sentBytes }
    · rename_i unqueued
      have empty : connection.ctx.queue = [] := by simpa using unqueued
      exact {
        phase := .idle {
          mask := rfl
          queue := empty
          staged := rfl
          needWrite := rfl
          broadcastRefCount := by
            rcases writing.prepared with ⟨-, prepared⟩ | prepared
            · simp [prepared]
            · simp [prepared]
          scheduled := writing.scheduled }
        balanced := by simpa [ServerCtx.pending, empty] using balanced
        sent := by simpa [ServerCtx.partialResponse] using sentBytes }

theorem writerTurn_sound {count : Nat} (live : Live connection.sent connection.ctx)
    (present : connection.ctx.staged = some staged)
    (fits : staged.written + count ≤ staged.response.length) :
    (writerTurn staged count connection).Sound := by
  have writing := live.isWriting present
  have balanced := live.balanced
  have sentBytes := live.sent
  simp only [ServerCtx.pending, present] at balanced
  simp only [ServerCtx.partialResponse, present] at sentBytes
  unfold writerTurn
  dsimp only
  split
  · rename_i complete
    refine connectionAfterWrite_sound { writing with } ?_ ?_
    · rw [handedOver_concat, answered_concat, balanced]
      simp [Entry.handed, Entry.answered]
    · rw [responses_concat, sentBytes, List.append_assoc, ← List.take_add, complete]
      simp [Entry.response]
  · refine Connection.sound_of_live {
      phase := .writing {
        mask := writing.mask
        staged := ⟨_, rfl, fits⟩
        prepared := writing.prepared
        scheduled := writing.scheduled }
      balanced := by simpa [ServerCtx.pending] using balanced
      sent := ?_ }
    rw [sentBytes, List.append_assoc, ← List.take_add]
    rfl

/-- A turn of the writer: the response goes on, or it ends and the connection
is marked as destroyed, or it ends and the next message follows. -/
theorem writerTurn_frame (count : Nat) (present : connection.ctx.staged = some staged) :
    let next := writerTurn staged count connection
    let ended := connection.ctx.log ++ [.completed staged.origin staged.response]
    (next.ctx.log = connection.ctx.log ∧
        next.destroyed = connection.destroyed ∧
        next.ctx.pending = connection.ctx.pending) ∨
      (next.ctx.log = ended ∧ next.destroyed = true ∧
        connection.parser.connection.keepalive = false ∧
        next.sent = connection.sent ++ staged.response.drop staged.written) ∨
      (next.ctx.log = ended ∧ next.destroyed = connection.destroyed ∧
        connection.parser.connection.keepalive = true ∧
        next.ctx.pending = connection.ctx.queue.map QueueItem.origin) := by
  unfold writerTurn connectionAfterWrite
  dsimp only
  split
  · rename_i complete
    refine .inr ?_
    cases flag : connection.parser.connection.keepalive with
    | false =>
      refine .inl ⟨rfl, rfl, rfl, ?_⟩
      have whole : (staged.response.drop staged.written).take count =
          staged.response.drop staged.written :=
        List.take_of_length_le (by rw [List.length_drop]; omega)
      exact congrArg (connection.sent ++ ·) whole
    | true =>
      refine .inr ?_
      simp only [Bool.not_true, Bool.false_eq_true, if_false]
      split
      · exact ⟨rfl, rfl, trivial, rfl⟩
      · exact ⟨rfl, rfl, trivial, rfl⟩
  · exact .inl ⟨rfl, rfl, by simp [ServerCtx.pending, present]⟩

theorem writerTurn_keeps (staged : Staged) (count : Nat) (connection : Connection) :
    (writerTurn staged count connection).parser = connection.parser := by
  unfold writerTurn connectionAfterWrite
  dsimp only
  split_ifs <;> rfl

theorem workerTurn_keeps (app : Application) (connection : Connection) :
    (workerTurn app connection).parser = connection.parser ∧
      (workerTurn app connection).destroyed = connection.destroyed := by
  unfold workerTurn
  dsimp only
  split
  · exact ⟨rfl, rfl⟩
  · split <;> exact ⟨rfl, rfl⟩

theorem Turn.sound {env : Env} {app : Application} {connection next : Connection} {action : Action}
    (turn : Turn env app connection action next)
    (sound : connection.Sound) : next.Sound := by
  cases turn with
  | @read buffers result alive mask cut used =>
    have live := sound.live alive
    have idle := live.isIdle mask
    have satisfied := readConnection_satisfies
      (serverLayer_live env app connection.sent) buffers connection.parser
      { connection.ctx with
        log := connection.ctx.log ++ [.received buffers] } trivial
      { live := live.note rfl rfl rfl
        unanswered := .inl { idle with } }
    rw [used] at satisfied
    have reached : Live connection.sent result.ext := by
      cases ret : result.ret with
      | readData => exact (satisfied.reading (.inl ret)).live
      | closed => exact (satisfied.reading (.inr ret)).live
      | complete => exact satisfied.answered (.inl ret)
      | rejected => exact satisfied.answered (.inr ret)
    split
    · exact reached.stopped
    · exact Connection.sound_of_live reached
  | work scheduled =>
    cases destroyed : connection.destroyed with
    | false =>
      have live := sound.live destroyed
      exact Connection.sound_of_live
        (workerTurn_live app destroyed live (live.isScheduled scheduled))
    | true =>
      have stopped := sound.stopped
      simp only [workerTurn, destroyed, if_true, Connection.Sound]
      exact { stopped with }
  | write alive present fits =>
    exact writerTurn_sound (sound.live alive) present fits
  | writeNothing _ _ _ => exact connectionClose_sound sound
  | close => exact connectionClose_sound sound
  | hangUp => exact connectionClose_sound sound

theorem connectionCreate_sound (env : Env) (server : Server) :
    (connectionCreate env server).Sound where
  phase := .idle {
    mask := rfl
    queue := rfl
    staged := rfl
    needWrite := rfl
    broadcastRefCount := rfl
    scheduled := rfl }
  balanced := rfl
  sent := rfl

end CWebFramework.Http
