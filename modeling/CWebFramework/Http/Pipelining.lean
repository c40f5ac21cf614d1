import CWebFramework.Http.ConnectionPhases
import CWebFramework.Http.ReadSegmentation

/-!
# The responses to pipelined requests

The responses leave the connection in the order of the messages, at most one
for each: that follows from the balance of the log in every run.  That each
message up to the first one that ends the connection gets its response depends
on the keep-alive flag.  The parser writes the flag for the message it reads,
and `connection_after_write` reads it for the response that has ended, which may
belong to an earlier message.
-/

namespace CWebFramework.Http

open Transition

/-! ## What a client may expect -/

/-- What the version and the headers of a request make of the keep-alive
flag. -/
def requestKeepalive (request : Request) : Bool :=
  request.headers.foldl keepaliveAfterHeader (request.version == .v11)

/-- The request ends the connection: it asks for `Connection: close`, or it is
an HTTP/1.0 request without keep-alive. -/
def asksClose : Option Request → Bool
  | some request => ! requestKeepalive request
  | none => false

/-- The messages up to and including the first one that ends the
connection. -/
def upToClose : List (Option Request) → List (Option Request)
  | [] => []
  | message :: messages =>
    if asksClose message then [message] else message :: upToClose messages

private theorem upToClose_isPrefix (messages : List (Option Request)) :
    upToClose messages <+: messages := by
  induction messages with
  | nil => exact List.nil_prefix
  | cons message messages ih =>
    unfold upToClose
    split
    · exact ⟨messages, rfl⟩
    · exact (List.prefix_cons_inj message).mpr ih

private theorem upToClose_append {message : Option Request} (closes : asksClose message = true)
    (before after : List (Option Request)) :
    upToClose (before ++ message :: after) <+: before ++ [message] := by
  induction before with
  | nil => simp [upToClose, closes]
  | cons first before ih =>
    rw [List.cons_append, upToClose]
    split
    · exact ⟨before ++ [message], rfl⟩
    · exact (List.prefix_cons_inj first).mpr ih

/-- Nothing is left to do: the connection waits for input, or it ends. -/
def Connection.AtRest (connection : Connection) : Prop :=
  connection.destroyed = true ∨ connection.ctx.pending = []

instance (connection : Connection) : Decidable connection.AtRest :=
  inferInstanceAs (Decidable (_ ∨ _))

def ServerCtx.work (ctx : ServerCtx) : Nat := 2 * ctx.queue.length + ctx.staged.toList.length

/-- The condition on the steps: when a response is written with the keep-alive
flag off, its own request ends the connection. The client does not hang
up. -/
def ClosesForItself (connection : Connection) : Action → Prop
  | .write _ =>
    connection.parser.connection.keepalive = false → ∃ staged, connection.ctx.staged = some staged ∧
        asksClose staged.origin = true
  | .hangUp => False
  | _ => True

/-! ## The read loop does not give up -/

section NotClosed

variable {Ext : Type}

theorem readBufferLoop_not_closed (env : Env) (layer : ConnectionLayer Ext) (fuel : Nat)
    (parser : HttpRequestParser) (ext : Ext) (valid : parser.state.Valid env)
    (bounded : parser.buffer.length ≤ readBufferSize) (started : parser.pos = parser.posStart)
    (more : parser.pos < parser.buffer.length)
    (enough : (parser.buffer.drop parser.pos).length < fuel) :
    (readBufferLoop env layer fuel parser ext).ret ≠ .closed := by
  induction fuel generalizing parser ext with
  | zero => exact absurd enough (Nat.not_lt_zero _)
  | succ fuel ih =>
    have spec := httpparserRun_spec env valid bounded started more
    unfold readBufferLoop
    generalize httpparserRun env parser = result at spec
    cases spec with
    | wantsMore run => simp
    | failed error run => rcases error with rfl | rfl <;> simp
    | atEnd run => simp
    | @insideBuffer next consumed progress inside sameBuffer split run =>
      have shorter : (next.buffer.drop next.pos).length < fuel := by
        have consumedLength := List.length_pos_of_ne_nil progress
        rw [split, List.length_append] at enough
        rw [sameBuffer]
        omega
      exact ih (httpparserPrepareContinue env _) _
        (httpparserInit_valid env _) (sameBuffer ▸ bounded) rfl
        (sameBuffer ▸ inside) shorter

theorem readConnection_not_closed (env : Env) (layer : ConnectionLayer Ext)
    (state : ParserState) (ext : Ext) {buffers : List Bytes}
    (valid : state.Valid env) (cut : IsReadCut buffers) :
    (readConnection env layer state ext buffers).1.ret ≠ .closed ∧
      (readConnection env layer state ext buffers).1.state.Valid env := by
  induction buffers generalizing state ext with
  | nil => exact ⟨by simp [readConnection], valid⟩
  | cons buffer buffers ih =>
    obtain ⟨nonempty, bounded⟩ := cut buffer List.mem_cons_self
    have notClosed : (readBuffer env layer state ext buffer).ret ≠ .closed :=
      readBufferLoop_not_closed env layer _ _ ext valid bounded rfl
        (List.length_pos_of_ne_nil nonempty) (Nat.lt_succ_self _)
    have nextValid : (readBuffer env layer state ext buffer).state.Valid env :=
      (readBuffer_agrees env layer (state, ext) state buffer (.refl valid)
        ⟨nonempty, bounded⟩).states.1
    have tail := ih (readBuffer env layer state ext buffer).state
      (readBuffer env layer state ext buffer).ext nextValid
      fun other member => cut other (List.mem_cons_of_mem _ member)
    unfold readConnection
    cases ret : (readBuffer env layer state ext buffer).ret with
    | readData => simpa only [ret] using tail
    | complete => simpa [ret] using nextValid
    | rejected => simpa [ret] using nextValid
    | closed => exact absurd ret notClosed

end NotClosed

/-! ## The turns -/

/-- What holds of the connection as long as the condition is met: it ends only
when it has answered what a client may expect. -/
structure Connection.Answering (env : Env) (connection : Connection) : Prop where
  sound : connection.Sound
  valid : connection.parser.Valid env
  ended : connection.destroyed = true → upToClose (handedOver connection.ctx.log) <+:
        answered connection.ctx.log ∧
      connection.sent = (responses connection.ctx.log).flatten

theorem writerTurn_ended {connection : Connection} {staged : Staged} {count : Nat}
    (alive : connection.destroyed = false) (live : Live connection.sent connection.ctx)
    (present : connection.ctx.staged = some staged)
    (closes : connection.parser.connection.keepalive = false → asksClose staged.origin = true)
    (destroyed : (writerTurn staged count connection).destroyed = true) :
    upToClose (handedOver (writerTurn staged count connection).ctx.log) <+:
        answered (writerTurn staged count connection).ctx.log ∧
      (writerTurn staged count connection).sent =
        (responses (writerTurn staged count connection).ctx.log).flatten := by
  have balanced := live.balanced
  have sentBytes := live.sent
  simp only [ServerCtx.pending, present] at balanced
  simp only [ServerCtx.partialResponse, present] at sentBytes
  rcases writerTurn_frame count present with
    ⟨-, same, -⟩ | ⟨log, -, flag, sent⟩ | ⟨-, same, -⟩
  · rw [same, alive] at destroyed
    cases destroyed
  · rw [log, sent, handedOver_concat, answered_concat, responses_concat, balanced, sentBytes]
    refine ⟨?_, by simp [Entry.response]⟩
    simpa [Entry.handed, Entry.answered] using
      upToClose_append (closes flag) (answered connection.ctx.log)
        (connection.ctx.queue.map QueueItem.origin)
  · rw [same, alive] at destroyed
    cases destroyed

theorem Turn.answering {env : Env} {app : Application} {connection next : Connection}
    {action : Action} (turn : Turn env app connection action next)
    (closes : ClosesForItself connection action)
    (answering : connection.Answering env) : next.Answering env := by
  have nextSound := turn.sound answering.sound
  cases turn with
  | @read buffers result alive mask cut used =>
    have reached := readConnection_not_closed env (serverLayer app) connection.parser
      { connection.ctx with
        log := connection.ctx.log ++ [.received buffers] }
      answering.valid cut
    rw [used] at reached
    simp only [reached.1, if_false] at nextSound ⊢
    refine ⟨nextSound, reached.2, fun destroyed => ?_⟩
    simp [alive] at destroyed
  | work scheduled =>
    obtain ⟨parser, same⟩ := workerTurn_keeps app connection
    refine ⟨nextSound, parser ▸ answering.valid, fun destroyed => ?_⟩
    rw [same] at destroyed
    simpa only [workerTurn, destroyed, if_true] using
      answering.ended destroyed
  | @write staged count alive present fits =>
    refine ⟨nextSound, ?_, ?_⟩
    · rw [writerTurn_keeps]
      exact answering.valid
    · refine writerTurn_ended alive (answering.sound.live alive) present fun flag => ?_
      obtain ⟨expected, same, asks⟩ := closes flag
      cases present.symm.trans same
      exact asks
  | writeNothing alive writable absent =>
    exact absurd absent ((answering.sound.live alive).staged_of_writable writable)
  | close destroyed =>
    exact ⟨nextSound, answering.valid, fun _ => answering.ended destroyed⟩
  | hangUp => exact closes.elim

/-- A connection that is not at rest has a turn of a worker or of the writer
that leaves less work. -/
theorem Connection.Sound.progress (env : Env) (app : Application)
    {connection : Connection} (sound : connection.Sound)
    (busy : ¬ connection.AtRest) :
    ∃ action next, (action = .work ∨ ∃ count, action = .write count) ∧
        (connectionSystem env app).perform connection action = some next ∧
        (next.AtRest ∨ next.ctx.work < connection.ctx.work) := by
  simp only [AtRest, not_or, Bool.not_eq_true] at busy
  obtain ⟨alive, pending⟩ := busy
  have live := sound.live alive
  cases live.phase with
  | idle idle =>
    simp [ServerCtx.pending, idle.queue, idle.staged] at pending
  | scheduled scheduled =>
    obtain ⟨item, queue, response, log, queued, turned, -⟩ := workerTurn_frame app alive scheduled
    refine ⟨.work, workerTurn app connection, .inl rfl, ?_, .inr ?_⟩
    · simp [connectionSystem, scheduled.scheduled]
    · simp only [turned, ServerCtx.work, queued, scheduled.staged,
        List.length_cons, Option.toList_some, Option.toList_none,
        List.length_nil]
      omega
  | writing writing =>
    obtain ⟨staged, present, fits⟩ := writing.staged
    let count := staged.response.length - staged.written
    have ends : staged.written + count = staged.response.length := Nat.add_sub_cancel' fits
    refine ⟨.write count, writerTurn staged count connection, .inr ⟨count, rfl⟩, ?_, ?_⟩
    · simp [connectionSystem, alive, writing.mask, present, ends]
    · simp only [writerTurn, ends, if_true, connectionAfterWrite]
      split
      · exact .inl (.inl rfl)
      · refine .inr ?_
        split <;> simp [ServerCtx.work, present]

/-- In every run in which responses are written with the keep-alive flag off
only for requests that end the connection, the responses follow the order of
the messages, a connection at rest has completed the response to every message
up to the first one that ends the connection and sent nothing else, and a
connection that is not at rest can go on. -/
theorem pipelined_responses (env : Env) (app : Application)
    (server : Server) {actions : List Action} {reached : Connection}
    (closes : (connectionSystem env app).Meets ClosesForItself
      (connectionCreate env server) actions)
    (run : (connectionSystem env app).exec (connectionCreate env server) actions = some reached) :
    answered reached.ctx.log <+: handedOver reached.ctx.log ∧ (reached.AtRest →
        upToClose (handedOver reached.ctx.log) <+: answered reached.ctx.log ∧
          reached.sent = (responses reached.ctx.log).flatten) ∧
      (¬ reached.AtRest → ∃ action next, (action = .work ∨ ∃ count, action = .write count) ∧
          (connectionSystem env app).perform reached action = some next ∧
          (next.AtRest ∨ next.ctx.work < reached.ctx.work)) := by
  have start : (connectionCreate env server).Answering env :=
    ⟨connectionCreate_sound env server, httpparserInit_valid env _, by simp [connectionCreate]⟩
  have answering : reached.Answering env :=
    (connectionSystem env app).exec_invariant
      (fun condition step => (perform_turn step).answering condition)
      closes run start
  refine ⟨answering.sound.stopped.answered, fun rest => ?_, answering.sound.progress env app⟩
  by_cases destroyed : reached.destroyed = true
  · exact answering.ended destroyed
  · have live := answering.sound.live (eq_false_of_ne_true destroyed)
    have pending : reached.ctx.pending = [] := rest.resolve_left destroyed
    have balanced := live.balanced
    rw [pending, List.append_nil] at balanced
    refine ⟨balanced ▸ upToClose_isPrefix _, ?_⟩
    have absent : reached.ctx.staged = none := by
      cases staged : reached.ctx.staged with
      | none => rfl
      | some staged => simp [ServerCtx.pending, staged] at pending
    simpa [ServerCtx.partialResponse, absent] using live.sent

theorem pipelined_responses_two_requests : ∃ reached,
      (connectionSystem (.plain [.plain (ascii "a") (ascii "/") 0]) .plain).exec
          (connectionCreate (.plain [.plain (ascii "a") (ascii "/") 0])
            (.plain (ascii "a") (ascii "/") 0))
          [.read [ascii "GET / HTTP/1.1\r\nHost: a\r\n\r\n" ++
              ascii "GET / HTTP/1.1\r\nHost: a\r\n\r\n"],
            .work, .write 1, .work, .write 1] = some reached ∧
        reached.AtRest ∧ reached.sent = ascii "hh" ∧
        upToClose (handedOver reached.ctx.log) <+: answered reached.ctx.log := by
  have closes : (connectionSystem (.plain [.plain (ascii "a") (ascii "/") 0])
          .plain).Meets ClosesForItself
        (connectionCreate (.plain [.plain (ascii "a") (ascii "/") 0])
          (.plain (ascii "a") (ascii "/") 0))
        [.read [ascii "GET / HTTP/1.1\r\nHost: a\r\n\r\n" ++
            ascii "GET / HTTP/1.1\r\nHost: a\r\n\r\n"],
          .work, .write 1, .work, .write 1] := by
    refine ⟨trivial, fun next step => ?_⟩
    cases step
    refine ⟨trivial, fun next step => ?_⟩
    cases step
    refine ⟨fun flag => absurd flag (by decide), fun next step => ?_⟩
    cases step
    refine ⟨trivial, fun next step => ?_⟩
    cases step
    exact ⟨fun flag => absurd flag (by decide), fun _ _ => trivial⟩
  refine ⟨_, rfl, by decide, by decide, ?_⟩
  exact ((pipelined_responses _ _ _ closes rfl).2.1 (by decide)).1

/-- Two requests arrive in one read, and only the second asks for
`Connection: close`. The flag of the second ends the connection when the
response to the first is written. -/
theorem close_loses_response : ∃ reached,
      (connectionSystem (.plain [.plain (ascii "a") (ascii "/") 0]) .plain).exec
          (connectionCreate (.plain [.plain (ascii "a") (ascii "/") 0])
            (.plain (ascii "a") (ascii "/") 0))
          [.read [ascii "GET / HTTP/1.1\r\nHost: a\r\n\r\n" ++
              ascii "GET / HTTP/1.1\r\nHost: a\r\nConnection: close\r\n\r\n"],
            .work, .write 1, .close] = some reached ∧
        reached.closed = true ∧
        (upToClose (handedOver reached.ctx.log)).length = 2 ∧
        (answered reached.ctx.log).length = 1 :=
  ⟨_, rfl, by decide, by decide, by decide⟩

end CWebFramework.Http
