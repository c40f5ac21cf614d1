import CWebFramework.Http.RequestParser
import CWebFramework.Streaming.Machine

/-!
# The read loop of an HTTP connection

`__read` of `httpserverhandlers.c`.  A read event runs the loop: it fetches a
buffer from the socket, runs the parser on it until the buffer is used up, and
hands every complete request to `__handle`.  The loop fetches the next buffer
when the parser wants more input; it returns to the event loop when a message
ends with the buffer, when a message is rejected and when the socket is
drained.

What `__handle` and `__post_response_default` do to the rest of the
connection is a parameter here.  `__handle` may clear the keep-alive flag, and
that is all it does to the fields that the parser uses.
-/

namespace CWebFramework.Http

def readBufferSize : Nat := 16384

/-- Which of `__post_deffered_response` and `__post_response` is given to
`__handle`. -/
inductive PostMode where
  | deferred
  | direct
  deriving DecidableEq, Repr

/-- The connection behind the parser. -/
structure ConnectionLayer (Ext : Type) where
  /-- `__handle`: the new state and the keep-alive flag that it leaves. -/
  handle : PostMode → Request → ParserConnection → Ext → Ext × Bool
  /-- `__post_response_default`. -/
  postResponseDefault : Nat → ParserConnection → Ext → Ext

def ConnectionLayer.idle : ConnectionLayer Unit where
  handle _ _ connection _ := ((), connection.keepalive)
  postResponseDefault _ _ _ := ()

/-- What the read loop does with the bytes it got. -/
inductive ReadEvent where
  | dispatch (request : Request)
  | reject (status : Nat)
  | abort
  deriving DecidableEq, Repr

/-- How the processing of one read buffer ends: `goto read_data`, `return 1`
after a complete message, the return of `__post_response_default`, or
`return 0`. -/
inductive ReadReturn where
  | readData
  | complete
  | rejected
  | closed
  deriving DecidableEq, Repr

def rejectEvent : ParserStatus → ReadEvent
  | .payloadLarge => .reject 413
  | .badRequest => .reject 400
  | .hostNotFound => .reject 404
  | _ => .abort

structure ReadResult (Ext : Type) where
  state : ParserState
  ext : Ext
  events : List ReadEvent
  ret : ReadReturn

def ParserState.withKeepalive (keepalive : Bool) (state : ParserState) :
    ParserState :=
  { state with
    connection := { state.connection with keepalive := keepalive } }

variable {Ext : Type}

/-- The inner loop of `__read` over one read buffer. The fuel bounds the number
of messages in the buffer. -/
def readBufferLoop (env : Env) (layer : ConnectionLayer Ext) :
    Nat → HttpRequestParser → Ext → ReadResult Ext
  | 0, parser, ext =>
    { state := parser.state, ext := ext, events := [.abort],
      ret := .closed }
  | fuel + 1, parser, ext =>
    let reject (parser : HttpRequestParser) (status : Nat) : ReadResult Ext :=
      { state := parser.state
        ext := layer.postResponseDefault status parser.state.connection ext
        events := [.reject status]
        ret := .rejected }
    match httpparserRun env parser with
    | (parser, .error) =>
      { state := parser.state, ext := ext, events := [.abort],
        ret := .closed }
    | (parser, .payloadLarge) => reject parser 413
    | (parser, .badRequest) => reject parser 400
    | (parser, .hostNotFound) => reject parser 404
    | (parser, .continue) =>
      { state := parser.state, ext := ext, events := [],
        ret := .readData }
    | (parser, .handleAndContinue) =>
      let request := parser.state.currentRequest
      let handled := layer.handle .deferred request parser.state.connection ext
      let parser :=
        httpparserPrepareContinue env
          { parser with
            state := parser.state.withKeepalive handled.2 }
      let result := readBufferLoop env layer fuel parser handled.1
      { result with events := .dispatch request :: result.events }
    | (parser, .complete) =>
      let request := parser.state.currentRequest
      let handled := layer.handle .direct request parser.state.connection ext
      { state :=
          httpparserInit env
            { parser.state.connection with keepalive := handled.2 }
        ext := handled.1
        events := [.dispatch request]
        ret := .complete }

/-- One read buffer: the positions are set to its start and the parser runs
until it is used up. -/
def readBuffer (env : Env) (layer : ConnectionLayer Ext)
    (state : ParserState) (ext : Ext) (buffer : Bytes) : ReadResult Ext :=
  readBufferLoop env layer (buffer.length + 1)
    { state := state, buffer := buffer, posStart := 0, pos := 0 } ext

/-- `__read`: the buffers are those that the socket holds. The second
component is what is left in the socket when the function returns. -/
def readConnection (env : Env) (layer : ConnectionLayer Ext) (state : ParserState) (ext : Ext) :
    List Bytes → ReadResult Ext × List Bytes
  | [] =>
    ({ state := state, ext := ext, events := [], ret := .readData }, [])
  | buffer :: buffers =>
    let result := readBuffer env layer state ext buffer
    match result.ret with
    | .readData =>
      let rest := readConnection env layer result.state result.ext buffers
      ({ rest.1 with events := result.events ++ rest.1.events }, rest.2)
    | _ => (result, buffers)

def ReadResult.outcome (result : ReadResult Ext) :
    Streaming.Outcome (ParserState × Ext) ReadEvent where
  state := (result.state, result.ext)
  events := result.events
  halted := result.ret == .rejected || result.ret == .closed

/-- The read loop over the buffers of a connection, up to the first rejection.
After `goto read_data` and after `return 1` alike the next buffer goes to the
same parser. -/
def driveReads (env : Env) (layer : ConnectionLayer Ext)
    (connection : ParserConnection) (ext : Ext) (buffers : List Bytes) :
    Streaming.Outcome (ParserState × Ext) ReadEvent :=
  Streaming.drive (fun device buffer =>
      (readBuffer env layer device.1 device.2 buffer).outcome)
    (httpparserInit env connection, ext) buffers

/-- The events of the parser over the buffers of a connection, with no regard
to what it returned for the earlier ones: reading may go on after a
rejection. -/
def readStream (env : Env) (layer : ConnectionLayer Ext) :
    ParserState × Ext → List Bytes → List ReadEvent
  | _, [] => []
  | device, buffer :: buffers =>
    let result := readBuffer env layer device.1 device.2 buffer
    result.events ++ readStream env layer (result.state, result.ext) buffers

/-- A way of cutting a stream into reads: `recv` returns at least one byte and
at most the size of the read buffer. -/
def IsReadCut (buffers : List Bytes) : Prop :=
  ∀ buffer ∈ buffers, buffer ≠ [] ∧ buffer.length ≤ readBufferSize

instance (buffers : List Bytes) : Decidable (IsReadCut buffers) :=
  inferInstanceAs (Decidable (∀ buffer ∈ buffers, _))

/-! ## Invariants of the read loop -/

/-- Two predicates of the connection that the read loop moves between: it goes
on while the first holds, and it ends in the second when it has answered a
message. -/
structure LoopInvariant (env : Env) (layer : ConnectionLayer Ext)
    (parserProperty : ParserState → Prop)
    (parsed : Request → ParserConnection → Prop)
    (reading answered : Ext → Prop) : Prop where
  /-- A complete message leaves a request and a parser that starts anew. -/
  complete : ∀ {parser next : HttpRequestParser} {status : ParserStatus},
    parserProperty parser.state → httpparserRun env parser = (next, status) →
      status = .handleAndContinue ∨ status = .complete →
        parsed next.state.currentRequest next.state.connection ∧ ∀ keepalive, parserProperty
            (httpparserInit env
              { next.state.connection with keepalive := keepalive })
  /-- Otherwise the parser keeps its property. -/
  unfinished : ∀ {parser next : HttpRequestParser} {status : ParserStatus},
    parserProperty parser.state → httpparserRun env parser = (next, status) →
      status ≠ .handleAndContinue → status ≠ .complete → parserProperty next.state
  deferred : ∀ {request connection ext}, parsed request connection → reading ext →
      reading (layer.handle .deferred request connection ext).1
  direct : ∀ {request connection ext}, parsed request connection → reading ext →
      answered (layer.handle .direct request connection ext).1
  rejected : ∀ {status connection ext}, reading ext →
    answered (layer.postResponseDefault status connection ext)

/-- What holds of a result: the loop has answered a message, or it is still
reading. -/
structure ReadResult.Satisfies (result : ReadResult Ext)
    (parserProperty : ParserState → Prop) (reading answered : Ext → Prop) :
    Prop where
  parser : parserProperty result.state
  reading : result.ret = .readData ∨ result.ret = .closed → reading result.ext
  answered : result.ret = .complete ∨ result.ret = .rejected → answered result.ext

section LoopInvariants

variable {env : Env} {layer : ConnectionLayer Ext}
  {parserProperty : ParserState → Prop}
  {parsed : Request → ParserConnection → Prop} {reading answered : Ext → Prop}

theorem readBufferLoop_satisfies (invariant : LoopInvariant env layer parserProperty parsed reading
      answered)
    (fuel : Nat) (parser : HttpRequestParser) (ext : Ext)
    (parserStart : parserProperty parser.state) (start : reading ext) :
    (readBufferLoop env layer fuel parser ext).Satisfies parserProperty
      reading answered := by
  induction fuel generalizing parser ext with
  | zero =>
    exact ⟨parserStart, fun _ => start, by simp [readBufferLoop]⟩
  | succ fuel ih =>
    unfold readBufferLoop
    rcases run : httpparserRun env parser with ⟨next, status⟩
    cases status with
    | handleAndContinue =>
      obtain ⟨isParsed, anew⟩ := invariant.complete parserStart run (.inl rfl)
      let handled :=
        layer.handle .deferred next.state.currentRequest
          next.state.connection ext
      have tail := ih (httpparserPrepareContinue env
          { next with state := next.state.withKeepalive handled.2 })
        handled.1 (anew handled.2) (invariant.deferred isParsed start)
      exact ⟨tail.parser, tail.reading, tail.answered⟩
    | complete =>
      obtain ⟨isParsed, anew⟩ := invariant.complete parserStart run (.inr rfl)
      exact ⟨anew _, by simp, fun _ => invariant.direct isParsed start⟩
    | «continue» =>
      exact ⟨invariant.unfinished parserStart run (by simp) (by simp), fun _ => start, by simp⟩
    | error =>
      exact ⟨invariant.unfinished parserStart run (by simp) (by simp), fun _ => start, by simp⟩
    | badRequest =>
      exact ⟨invariant.unfinished parserStart run (by simp) (by simp),
        by simp, fun _ => invariant.rejected start⟩
    | hostNotFound =>
      exact ⟨invariant.unfinished parserStart run (by simp) (by simp),
        by simp, fun _ => invariant.rejected start⟩
    | payloadLarge =>
      exact ⟨invariant.unfinished parserStart run (by simp) (by simp),
        by simp, fun _ => invariant.rejected start⟩

theorem readConnection_satisfies (invariant : LoopInvariant env layer parserProperty parsed reading
      answered)
    (buffers : List Bytes) (state : ParserState) (ext : Ext)
    (parserStart : parserProperty state) (start : reading ext) :
    (readConnection env layer state ext buffers).1.Satisfies parserProperty
      reading answered := by
  induction buffers generalizing state ext with
  | nil => exact ⟨parserStart, fun _ => start, by simp [readConnection]⟩
  | cons buffer buffers ih =>
    have first : (readBuffer env layer state ext buffer).Satisfies
        parserProperty reading answered :=
      readBufferLoop_satisfies invariant _ _ ext parserStart start
    unfold readConnection
    cases ret : (readBuffer env layer state ext buffer).ret with
    | readData =>
      have tail := ih _ _ first.parser (first.reading (.inl ret))
      simp only [ret]
      exact ⟨tail.parser, tail.reading, tail.answered⟩
    | complete => simpa only [ret] using first
    | rejected => simpa only [ret] using first
    | closed => simpa only [ret] using first

end LoopInvariants

end CWebFramework.Http
