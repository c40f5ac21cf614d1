import CWebFramework.Http.RequestMachine
import Mathlib.Tactic.Linarith

/-!
# The read loop does not depend on the segmentation

The inner loop of `__read` does to one buffer what `requestMachine` does to
its bytes (`readBuffer_agrees`), whatever the parser has seen before.  By the
rules for machines that are fed in pieces, the requests that are dispatched
and the first rejection depend on the received bytes only.
-/

namespace CWebFramework.Http

open Streaming

/-! ## One call of the parser -/

/-- What one call of the parser may do, in terms of the machine: `rest` is the
part of the buffer that the call starts with. -/
inductive RunSpec (env : Env) (state : ParserState) (buffer rest : Bytes) :
    HttpRequestParser × ParserStatus → Prop where
  | wantsMore {parser : HttpRequestParser} (run : (requestMachine env).run state rest =
        { state := parser.state, events := [], halted := false }) :
      RunSpec env state buffer rest (parser, .continue)
  | failed {parser : HttpRequestParser} {status : ParserStatus} (error : IsHeadError status)
      (run : (requestMachine env).run state rest =
        { state := parser.state
          events := [rejectEvent status]
          halted := true }) :
      RunSpec env state buffer rest (parser, status)
  | insideBuffer {parser : HttpRequestParser} (consumed : Bytes) (progress : consumed ≠ [])
      (more : parser.pos < buffer.length)
      (sameBuffer : parser.buffer = buffer)
      (split : rest = consumed ++ buffer.drop parser.pos)
      (run : (requestMachine env).run state consumed =
        { state := httpparserInit env parser.state.connection
          events := [.dispatch parser.state.currentRequest]
          halted := false }) :
      RunSpec env state buffer rest (parser, .handleAndContinue)
  | atEnd {parser : HttpRequestParser} (run : (requestMachine env).run state rest =
        { state := httpparserInit env parser.state.connection
          events := [.dispatch parser.state.currentRequest]
          halted := false }) :
      RunSpec env state buffer rest (parser, .complete)

variable {env : Env}

theorem RunSpec.cons_silent {state next : ParserState} {buffer rest : Bytes}
    {byte : UInt8} {result : HttpRequestParser × ParserStatus}
    (step : (requestMachine env).step state byte = (next, none))
    (spec : RunSpec env next buffer rest result) :
    RunSpec env state buffer (byte :: rest) result := by
  have silent := (requestMachine env).run_cons_silent step
  cases spec with
  | wantsMore run => exact .wantsMore ((silent rest).trans run)
  | failed error run => exact .failed error ((silent rest).trans run)
  | insideBuffer consumed progress more sameBuffer split run =>
    exact .insideBuffer (byte :: consumed) (List.cons_ne_nil _ _) more sameBuffer
      (congrArg (byte :: ·) split) ((silent _).trans run)
  | atEnd run => exact .atEnd ((silent rest).trans run)

variable {parser : HttpRequestParser}

private theorem savePayload_state {request : Request}
    (started : parser.state.request = some request) (stringLen : Nat)
    (enough : stringLen ≤ parser.buffer.length - parser.pos) :
    (savePayload parser request stringLen).state = parser.state.withPayload
        ((parser.buffer.drop parser.pos).take stringLen) := by
  have current : parser.state.currentRequest = request := by
    simp [ParserState.currentRequest, started]
  have pieceLength : ((parser.buffer.drop parser.pos).take stringLen).length =
        stringLen := by
    simpa using enough
  simp only [savePayload, ParserState.withPayload,
    ParserState.requestWithPayload, current, pieceLength]

theorem parsePayload_spec (env : Env) (valid : parser.state.Valid env)
    (stage : parser.state.stage = .payload) (more : parser.pos < parser.buffer.length)
    (bounded : parser.buffer.length ≤ readBufferSize) :
    RunSpec env parser.state parser.buffer (parser.buffer.drop parser.pos)
      (parsePayload env parser) := by
  obtain ⟨allowed, unfinished⟩ := valid.payload stage
  have started := valid.started (by simp [stage])
  have lengthBounded := valid.contentLength_le
  have limit := env.clientMaxBodySize_lt
  have restLength : (parser.buffer.drop parser.pos).length =
        parser.buffer.length - parser.pos := List.length_drop
  have restNonempty : parser.buffer.drop parser.pos ≠ [] := by
    intro empty
    rw [empty, List.length_nil] at restLength
    omega
  simp only [readBufferSize] at bounded
  unfold parsePayload
  dsimp only
  rw [started]
  simp only [allowed, Bool.not_true, Bool.false_eq_true, if_false]
  rw [if_neg (by omega), if_neg (by simp only [sizeMax]; omega)]
  split
  · -- The buffer goes on behind the body.
    rename_i longer
    rw [if_neg (by omega)]
    have saved :=
      savePayload_state started (parser.state.contentLength - parser.state.contentSavedLength)
        (by omega)
    have takeLength : ((parser.buffer.drop parser.pos).take (parser.state.contentLength -
            parser.state.contentSavedLength)).length =
          parser.state.contentLength - parser.state.contentSavedLength := by
      rw [List.length_take, restLength]
      omega
    refine .insideBuffer ((parser.buffer.drop parser.pos).take
        (parser.state.contentLength - parser.state.contentSavedLength))
      ?_ ?_ rfl ?_ ?_
    · exact List.ne_nil_of_length_pos (by omega)
    · dsimp only [savePayload]
      omega
    · dsimp only [savePayload]
      rw [← List.drop_drop, List.take_append_drop]
    · rw [requestMachine_run_complete env stage started _
        (List.ne_nil_of_length_pos (by omega)) (by omega)]
      simp only [saved]
      rfl
  · rename_i fits
    rw [if_neg (by omega)]
    have saved := savePayload_state started (parser.buffer.length - parser.pos) le_rfl
    rw [List.take_of_length_le (by omega)] at saved
    split
    · rename_i reached
      refine .atEnd ?_
      rw [requestMachine_run_complete env stage started _ restNonempty (by omega), saved]
      rfl
    · rename_i notReached
      refine .wantsMore ?_
      rw [requestMachine_run_unfinished env stage started _ (by omega), saved]

theorem httpparserLoop_spec (env : Env) (parser : HttpRequestParser)
    (valid : parser.state.Valid env) (bounded : parser.buffer.length ≤ readBufferSize)
    (rest : Bytes) (position : parser.buffer.drop parser.pos = rest) :
    RunSpec env parser.state parser.buffer rest (httpparserLoop env parser rest) := by
  induction rest generalizing parser with
  | nil => exact .wantsMore rfl
  | cons byte rest ih =>
    have more : parser.pos < parser.buffer.length := by
      by_contra outside
      rw [List.drop_eq_nil_of_le (by omega)] at position
      cases position
    have nextPosition : parser.buffer.drop (parser.pos + 1) = rest := by
      rw [← List.drop_drop, position]
      rfl
    by_cases stage : parser.state.stage = .payload
    · rw [httpparserLoop, if_pos stage, ← position]
      exact parsePayload_spec env valid stage more bounded
    · have step : (requestMachine env).step parser.state byte =
          headOutcome env (parserByte env parser.state byte) := by
        simp only [requestMachine, stage, if_false]
      have spec := parserByte_spec env byte stage
      rw [httpparserLoop, if_neg stage]
      cases result : parserByte env parser.state byte with
      | next next =>
        rw [result] at step spec
        refine .cons_silent step ?_
        exact ih
          { parser with state := next, pos := parser.pos + 1 }
          (spec.valid valid) bounded nextPosition
      | fail connection status =>
        rw [result] at step spec
        obtain ⟨-, error⟩ := spec
        refine .failed error ?_
        refine (requestMachine env).run_cons_halt step ?_ rest
        rcases error with rfl | rfl <;> rfl
      | headersEnd next =>
        rw [result] at step spec
        dsimp only
        split
        · rename_i behind
          refine .insideBuffer [byte] (List.cons_ne_nil _ _) behind rfl
            (by rw [nextPosition]; rfl) ?_
          exact (requestMachine env).run_cons_event step rfl []
        · rename_i last
          have nothing : rest = [] := by
            rw [← nextPosition]
            exact List.drop_eq_nil_of_le (by omega)
          subst rest
          rw [nothing]
          exact .atEnd ((requestMachine env).run_cons_event step rfl [])

theorem httpparserRun_spec (env : Env) (valid : parser.state.Valid env)
    (bounded : parser.buffer.length ≤ readBufferSize) (started : parser.pos = parser.posStart)
    (more : parser.pos < parser.buffer.length) :
    RunSpec env parser.state parser.buffer (parser.buffer.drop parser.pos)
      (httpparserRun env parser) := by
  unfold httpparserRun
  split
  · rename_i stage
    exact parsePayload_spec env valid stage more bounded
  · have spec := httpparserLoop_spec env
      { parser with pos := parser.posStart } valid bounded _ rfl
    rwa [started]

/-! ## One read buffer -/

/-- The parser of the read loop and the machine are in the same state, the
keep-alive flag apart. -/
def Follows {Ext : Type} (env : Env) (device : ParserState × Ext) (state : ParserState) : Prop :=
  device.1.Valid env ∧ Alike ParserState.eraseKeepalive device.1 state

theorem httpparserInit_alike (env : Env) (connection : ParserConnection) (keepalive : Bool) :
    Alike ParserState.eraseKeepalive (httpparserInit env { connection with keepalive := keepalive })
      (httpparserInit env connection) := rfl

variable {Ext : Type}

theorem Follows.refl {device : ParserState × Ext} (valid : device.1.Valid env) :
    Follows env device device.1 :=
  ⟨valid, rfl⟩

theorem agrees_of_alike {device : Outcome (ParserState × Ext) ReadEvent}
    {first second : ParserState} {word : Bytes}
    (agreement : Agrees (Follows env) device ((requestMachine env).run first word))
    (alike : Alike ParserState.eraseKeepalive first second) :
    Agrees (Follows env) device ((requestMachine env).run second word) :=
  agreement.trans (requestMachine_run_alike env alike word)
    fun follows states => ⟨follows.1, follows.2.trans states⟩

theorem readBufferLoop_agrees (env : Env) (layer : ConnectionLayer Ext) (fuel : Nat)
    (parser : HttpRequestParser) (ext : Ext) (valid : parser.state.Valid env)
    (bounded : parser.buffer.length ≤ readBufferSize) (started : parser.pos = parser.posStart)
    (more : parser.pos < parser.buffer.length)
    (enough : (parser.buffer.drop parser.pos).length < fuel) :
    Agrees (Follows env) (readBufferLoop env layer fuel parser ext).outcome
      ((requestMachine env).run parser.state (parser.buffer.drop parser.pos)) := by
  induction fuel generalizing parser ext with
  | zero => exact absurd enough (Nat.not_lt_zero _)
  | succ fuel ih =>
    have spec := httpparserRun_spec env valid bounded started more
    have reachedValid := (requestMachine env).run_invariant
      (ParserState.Valid env) (requestMachine_step_valid env)
      parser.state valid (parser.buffer.drop parser.pos)
    unfold readBufferLoop
    generalize httpparserRun env parser = result at spec
    cases spec with
    | wantsMore run =>
      rw [run] at reachedValid ⊢
      exact ⟨rfl, rfl, .refl reachedValid⟩
    | failed error run =>
      rw [run] at reachedValid ⊢
      rcases error with rfl | rfl
      · exact ⟨rfl, rfl, .refl reachedValid⟩
      · exact ⟨rfl, rfl, .refl reachedValid⟩
    | atEnd run =>
      rw [run]
      exact ⟨rfl, rfl, httpparserInit_valid env _, rfl⟩
    | @insideBuffer next consumed progress inside sameBuffer split run =>
      rw [split, (requestMachine env).run_append, run, Outcome.andThen_of_running rfl]
      let handled :=
        layer.handle .deferred next.state.currentRequest
          next.state.connection ext
      let continued :=
        httpparserPrepareContinue env
          { next with state := next.state.withKeepalive handled.2 }
      have shorter : (next.buffer.drop next.pos).length < fuel := by
        have consumedLength := List.length_pos_of_ne_nil progress
        rw [split, List.length_append] at enough
        rw [sameBuffer]
        omega
      have tail :=
        ih continued handled.1 (httpparserInit_valid env _) (sameBuffer ▸ bounded) rfl
          (sameBuffer ▸ inside) shorter
      rw [show continued.buffer = parser.buffer from sameBuffer] at tail
      exact (agrees_of_alike tail (httpparserInit_alike env next.state.connection handled.2)).after
          [.dispatch next.state.currentRequest]

theorem readBuffer_agrees (env : Env) (layer : ConnectionLayer Ext) (device : ParserState × Ext)
    (state : ParserState) (buffer : Bytes) (follows : Follows env device state)
    (readable : buffer ≠ [] ∧ buffer.length ≤ readBufferSize) :
    Agrees (Follows env) (readBuffer env layer device.1 device.2 buffer).outcome
      ((requestMachine env).run state buffer) :=
  agrees_of_alike (readBufferLoop_agrees env layer (buffer.length + 1)
      { state := device.1, buffer := buffer, posStart := 0, pos := 0 }
      device.2 follows.1 readable.2 rfl
      (List.length_pos_of_ne_nil readable.1) (Nat.lt_succ_self _))
    follows.2

/-! ## Whole streams -/

/-- The condition that `recv` guarantees for every buffer. -/
def IsRead (buffer : Bytes) : Prop := buffer ≠ [] ∧ buffer.length ≤ readBufferSize

variable {buffers : List Bytes}

theorem admissible_of_isReadCut (env : Env) (state : ParserState) (cut : IsReadCut buffers) :
    Admissible (requestMachine env) (fun _ buffer => IsRead buffer) state
      buffers := by
  induction buffers generalizing state with
  | nil => trivial
  | cons buffer buffers ih =>
    exact ⟨cut buffer List.mem_cons_self, fun _ =>
      ih _ fun later member =>
        cut later (List.mem_cons_of_mem _ member)⟩

/-- The read loop over any cut of a stream does what the machine does on the
stream. -/
theorem driveReads_agrees (env : Env) (layer : ConnectionLayer Ext)
    (connection : ParserConnection) (ext : Ext) (cut : IsReadCut buffers) :
    Agrees (Follows env) (driveReads env layer connection ext buffers)
      ((requestMachine env).run (httpparserInit env connection) buffers.flatten) :=
  drive_agrees_run (requestMachine env) _ (Follows env)
    (fun _ buffer => IsRead buffer) (readBuffer_agrees env layer) _ _
    (.refl (httpparserInit_valid env connection)) buffers
    (admissible_of_isReadCut env _ cut)

/-- Two ways of cutting one stream into reads dispatch the same requests and
stop with the same rejection, whatever the rest of the connection does. -/
theorem driveReads_segmentation {OtherExt : Type} (env : Env) (layer : ConnectionLayer Ext)
    (otherLayer : ConnectionLayer OtherExt) (connection : ParserConnection) (ext : Ext)
    (otherExt : OtherExt) {otherBuffers : List Bytes} (cut : IsReadCut buffers)
    (otherCut : IsReadCut otherBuffers)
    (sameStream : buffers.flatten = otherBuffers.flatten) :
    (driveReads env layer connection ext buffers).events =
        (driveReads env otherLayer connection otherExt otherBuffers).events ∧
      (driveReads env layer connection ext buffers).halted =
        (driveReads env otherLayer connection otherExt otherBuffers).halted := by
  have first := driveReads_agrees env layer connection ext cut
  have second := driveReads_agrees env otherLayer connection otherExt otherCut
  rw [sameStream] at first
  exact ⟨first.events.trans second.events.symm,
    first.halted.trans second.halted.symm⟩

theorem driveReads_segmentation_two_requests : (driveReads (.plain []) .idle
        { keepalive := false, server := { ip := 0, port := 80, domain := [] } }
        ()
        [ascii "GET / HTTP/1.0\r\n\r\nGET /a", ascii " HTTP/1.1\r\n\r\n"]
      ).events =
      (driveReads (.plain []) .idle
        { keepalive := false, server := { ip := 0, port := 80, domain := [] } }
        ()
        [ascii "GET / HTTP/1.0\r", ascii "\n\r\nGET /a HTTP/1.1\r\n\r\n"]
      ).events :=
  (driveReads_segmentation (.plain []) .idle .idle _ () () (by decide) (by decide) (by decide)).1

end CWebFramework.Http
