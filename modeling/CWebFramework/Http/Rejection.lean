import CWebFramework.Http.ConnectionPhases

/-!
# After a rejected message

`__read` returns when the parser rejects a message, and the response is the
last one that is pending.  Nothing is read before it is written.  Whether
something is read afterwards depends on the keep-alive flag:
`__post_response_default` does not clear it, so the connection goes on when the
request line of the rejected message has set it.
-/

namespace CWebFramework.Http

open Transition

def Entry.isRejection : Entry → Bool
  | .rejected _ => true
  | _ => false

def Entry.isInput : Entry → Bool
  | .received _ | .dispatched _ _ | .rejected _ => true
  | _ => false

/-- No byte is parsed after a rejected message. -/
def QuietAfterRejection (log : List Entry) : Prop :=
  log.Pairwise fun earlier later =>
    earlier.isRejection = true → later.isInput = false

instance (log : List Entry) : Decidable (QuietAfterRejection log) :=
  inferInstanceAs (Decidable (log.Pairwise _))

def Clean (log : List Entry) : Prop := ∀ entry ∈ log, entry.isRejection = false

variable {log : List Entry}

theorem Clean.concat (clean : Clean log) {entry : Entry}
    (accepted : entry.isRejection = false) : Clean (log ++ [entry]) := by
  intro candidate member
  rcases List.mem_append.mp member with earlier | last
  · exact clean candidate earlier
  · rw [List.mem_singleton.mp last]
    exact accepted

theorem Clean.quiet (clean : Clean log) : QuietAfterRejection log := by
  refine List.pairwise_of_forall_mem_list ?_
  intro earlier earlierMember later _ rejection
  rw [clean earlier earlierMember] at rejection
  cases rejection

theorem Clean.quiet_concat (clean : Clean log) (entry : Entry) :
    QuietAfterRejection (log ++ [entry]) := by
  refine List.pairwise_append.mpr ⟨clean.quiet, List.pairwise_singleton _ _, ?_⟩
  intro earlier earlierMember later _ rejection
  rw [clean earlier earlierMember] at rejection
  cases rejection

theorem QuietAfterRejection.concat (quiet : QuietAfterRejection log)
    {entry : Entry} (noInput : entry.isInput = false) :
    QuietAfterRejection (log ++ [entry]) := by
  refine List.pairwise_append.mpr ⟨quiet, List.pairwise_singleton _ _, ?_⟩
  intro earlier _ later laterMember _
  rw [List.mem_singleton.mp laterMember]
  exact noInput

/-- A rejected message is still pending. -/
structure AwaitsRejection (ctx : ServerCtx) : Prop where
  quiet : QuietAfterRejection ctx.log
  pending : Clean ctx.log ∨ none ∈ ctx.pending

structure Connection.Discreet (connection : Connection) : Prop where
  sound : connection.Sound
  quiet : QuietAfterRejection connection.ctx.log
  pending : connection.destroyed = false → Clean connection.ctx.log ∨ none ∈ connection.ctx.pending

/-- The response to a rejected message is written with the keep-alive flag
off. -/
def RejectionCloses (connection : Connection) : Action → Prop
  | .write _ =>
    connection.ctx.staged.map Staged.origin = some none →
      connection.parser.connection.keepalive = false
  | _ => True

/-! ## The turns -/

theorem serverLayer_awaitsRejection (env : Env) (app : Application) :
    LoopInvariant env (serverLayer app) (fun _ => True) (fun _ _ => True)
      (fun ctx => Clean ctx.log) AwaitsRejection where
  complete := fun _ _ _ => ⟨trivial, fun _ => trivial⟩
  unfinished := fun _ _ _ _ => trivial
  deferred := by
    intro request connection ctx _ clean
    show Clean (handleRequest app .deferred request connection ctx).1.log
    rw [handleRequest_log]
    exact clean.concat rfl
  direct := by
    intro request connection ctx _ clean
    have stillClean : Clean (handleRequest app .direct request connection ctx).1.log := by
      rw [handleRequest_log]
      exact clean.concat rfl
    exact ⟨stillClean.quiet, .inl stillClean⟩
  rejected := by
    intro status connection ctx clean
    obtain ⟨log, pending⟩ := rejectMessage_frame app status connection ctx
    exact {
      quiet := by
        show QuietAfterRejection (rejectMessage app status connection ctx).log
        rw [log]
        exact clean.quiet_concat _
      pending := .inr pending }

variable {connection : Connection}

theorem workerTurn_discreet (app : Application) (scheduled : connection.ctx.scheduled ≠ 0)
    (discreet : connection.Discreet)
    (sound : (workerTurn app connection).Sound) :
    (workerTurn app connection).Discreet := by
  cases destroyed : connection.destroyed with
  | true =>
    simp only [workerTurn, destroyed, if_true] at sound ⊢
    exact ⟨sound, discreet.quiet, by simp⟩
  | false =>
    have waiting := (discreet.sound.live destroyed).isScheduled scheduled
    obtain ⟨item, queue, response, log, queued, turned, logged⟩ :=
      workerTurn_frame app destroyed waiting
    have samePending : (workerTurn app connection).ctx.pending =
        connection.ctx.pending := by
      simp [turned, ServerCtx.pending, waiting.staged, queued]
    have sameLog : (workerTurn app connection).ctx.log = log := by
      rw [turned]
    refine ⟨sound, ?_, fun _ => ?_⟩
    · rw [sameLog]
      rcases logged with rfl | rfl
      · exact discreet.quiet
      · exact discreet.quiet.concat rfl
    · rw [samePending, sameLog]
      refine (discreet.pending destroyed).imp_left fun clean => ?_
      rcases logged with rfl | rfl
      · exact clean
      · exact clean.concat rfl

theorem writerTurn_discreet {staged : Staged} {count : Nat} (alive : connection.destroyed = false)
    (present : connection.ctx.staged = some staged)
    (closes : staged.origin = none → connection.parser.connection.keepalive = false)
    (discreet : connection.Discreet)
    (sound : (writerTurn staged count connection).Sound) :
    (writerTurn staged count connection).Discreet := by
  have pending := discreet.pending alive
  rcases writerTurn_frame count present with
    ⟨log, -, samePending⟩ | ⟨log, destroyed, -⟩ | ⟨log, -, keepalive, nextPending⟩
  · refine ⟨sound, log ▸ discreet.quiet, fun _ => ?_⟩
    rw [log, samePending]
    exact pending
  · refine ⟨sound, log ▸ discreet.quiet.concat rfl, fun running => ?_⟩
    rw [destroyed] at running
    cases running
  · refine ⟨sound, log ▸ discreet.quiet.concat rfl, fun _ => ?_⟩
    rw [log, nextPending]
    rcases pending with clean | awaited
    · exact .inl (clean.concat rfl)
    · -- The response that has ended is not the one that is awaited.
      refine .inr ?_
      simp only [ServerCtx.pending, present, Option.map_some,
        Option.toList_some, List.singleton_append, List.mem_cons] at awaited
      rcases awaited with ended | queued
      · rw [closes ended.symm] at keepalive
        cases keepalive
      · exact queued

private theorem connectionClose_discreet (discreet : connection.Discreet) :
    (connectionClose connection).Discreet where
  sound := connectionClose_sound discreet.sound
  quiet := discreet.quiet
  pending := by simp [connectionClose]

theorem Turn.discreet {env : Env} {app : Application} {connection next : Connection}
    {action : Action} (turn : Turn env app connection action next)
    (closes : RejectionCloses connection action)
    (discreet : connection.Discreet) : next.Discreet := by
  have nextSound := turn.sound discreet.sound
  cases turn with
  | @read buffers result alive mask cut used =>
    have idle := (discreet.sound.live alive).isIdle mask
    have clean : Clean connection.ctx.log := by
      rcases discreet.pending alive with clean | pending
      · exact clean
      · simp [ServerCtx.pending, idle.queue, idle.staged] at pending
    have satisfied := readConnection_satisfies
      (serverLayer_awaitsRejection env app) buffers connection.parser
      { connection.ctx with
        log := connection.ctx.log ++ [.received buffers] } trivial
      (clean.concat rfl)
    rw [used] at satisfied
    have reached : AwaitsRejection result.ext := by
      cases ret : result.ret with
      | readData =>
        have still := satisfied.reading (.inl ret)
        exact ⟨still.quiet, .inl still⟩
      | closed =>
        have still := satisfied.reading (.inr ret)
        exact ⟨still.quiet, .inl still⟩
      | complete => exact satisfied.answered (.inl ret)
      | rejected => exact satisfied.answered (.inr ret)
    refine ⟨nextSound, ?_, fun _ => ?_⟩
    · split <;> exact reached.quiet
    · split <;> exact reached.pending
  | work scheduled =>
    exact workerTurn_discreet app scheduled discreet nextSound
  | write alive present fits =>
    refine writerTurn_discreet alive present (fun origin => ?_) discreet nextSound
    exact closes (by simp [present, origin])
  | writeNothing _ _ _ => exact connectionClose_discreet discreet
  | close => exact connectionClose_discreet discreet
  | hangUp => exact connectionClose_discreet discreet

/-- In every run in which the responses to rejected messages are written with
the keep-alive flag off, no byte is parsed after a rejection. -/
theorem quietAfterRejection_of_closes (env : Env) (app : Application)
    (server : Server) {actions : List Action} {reached : Connection}
    (closes : (connectionSystem env app).Meets RejectionCloses
      (connectionCreate env server) actions)
    (run : (connectionSystem env app).exec (connectionCreate env server) actions = some reached) :
    QuietAfterRejection reached.ctx.log := by
  have start : (connectionCreate env server).Discreet :=
    ⟨connectionCreate_sound env server, List.Pairwise.nil, fun _ =>
      .inl (by simp [Clean, connectionCreate])⟩
  have discreet : reached.Discreet :=
    (connectionSystem env app).exec_invariant
      (fun condition step => (perform_turn step).discreet condition)
      closes run start
  exact discreet.quiet

theorem quietAfterRejection_bad_method : ∃ reached, (connectionSystem (.plain []) .plain).exec
          (connectionCreate (.plain []) (.plain [] [] 0))
          [.read [ascii "BAD / "], .write 1] = some reached ∧
        QuietAfterRejection reached.ctx.log := by
  have closes : (connectionSystem (.plain []) .plain).Meets RejectionCloses
      (connectionCreate (.plain []) (.plain [] [] 0))
      [.read [ascii "BAD / "], .write 1] := by
    refine ⟨trivial, fun next step => ?_⟩
    cases step
    exact ⟨fun _ => rfl, fun _ _ => trivial⟩
  exact ⟨_, rfl, quietAfterRejection_of_closes _ _ _ closes rfl⟩

/-- A request without a `Host` header is rejected after its request line has
set the keep-alive flag. The connection goes on, and the next request is
dispatched. -/
theorem rejection_keeps_connection : ∃ reached, (connectionSystem (.plain []) .plain).exec
          (connectionCreate (.plain []) (.plain [] [] 0))
          [.read [ascii "GET / HTTP/1.1\r\n\r\n"], .write 1,
            .read [ascii "GET / HTTP/1.0\r\n\r\n"]] = some reached ∧
        ¬ QuietAfterRejection reached.ctx.log :=
  ⟨_, rfl, by decide⟩

end CWebFramework.Http
