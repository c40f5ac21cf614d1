import CWebFramework.Http.ReadLoop
import CWebFramework.Http.ParserSteps

/-!
# The request parser as a machine on the byte stream

The parser of the source works buffer by buffer.  `requestMachine` reads the
same bytes one at a time and knows nothing of buffers: it is the abstract
parser that the read loop is compared with.  In the head of a message a byte
does what `parserByte` says; in the body it is appended to the payload.

The module proves what every step of the machine keeps (`Valid`) and that the
keep-alive flag has no influence on the machine: it is only written.
-/

namespace CWebFramework.Http

open Streaming

/-- A body byte. The last announced byte completes the message. -/
def payloadByte (env : Env) (state : ParserState) (byte : UInt8) : ParserState × Option ReadEvent :=
  let request :=
    { state.currentRequest with
      payload := state.currentRequest.payload ++ [byte] }
  if state.contentSavedLength + 1 = state.contentLength then
    (httpparserInit env state.connection, some (.dispatch request))
  else
    ({ state with
        contentSavedLength := state.contentSavedLength + 1
        request := some request }, none)

/-- A result in the head of a message, with the reset that follows a complete
message or an error. -/
def headOutcome (env : Env) : ByteResult → ParserState × Option ReadEvent
  | .next next => (next, none)
  | .fail connection status =>
    (httpparserInit env connection, some (rejectEvent status))
  | .headersEnd next =>
    (httpparserInit env next.connection, some (.dispatch next.currentRequest))

/-- The parser on a byte stream. A rejection halts it. -/
def requestMachine (env : Env) : Machine ParserState UInt8 ReadEvent where
  step state byte :=
    if state.stage = .payload then payloadByte env state byte
    else headOutcome env (parserByte env state byte)
  halts
    | .dispatch _ => false
    | .reject _ => true
    | .abort => true

/-! ## The invariant between two bytes -/

/-- What holds of the request and of the length fields between two bytes. In
the payload stage the announced length is not yet reached. -/
structure ParserState.Valid (env : Env) (state : ParserState) : Prop where
  started : state.stage ≠ .method → state.request = some state.currentRequest
  contentLength_le : state.contentLength ≤ env.clientMaxBodySize
  saved : state.stage ≠ .payload → state.contentSavedLength = 0
  payload : state.stage = .payload → httprequestAllowPayload state.currentRequest = true ∧
      state.contentSavedLength < state.contentLength

theorem httpparserInit_valid (env : Env) (connection : ParserConnection) :
    (httpparserInit env connection).Valid env where
  started := fun started => absurd rfl started
  contentLength_le := Nat.zero_le _
  saved := fun _ => rfl
  payload := by
    intro atPayload
    cases atPayload

variable {env : Env} {state next : ParserState}

theorem HeadStep.inHead {byte : UInt8} (step : HeadStep env state byte next) :
    state.stage ≠ .payload := by
  cases step <;> simp_all
  all_goals grind

/-- A step that stays in the head and keeps the two length fields keeps the
invariant. -/
theorem ParserState.Valid.of_head (valid : state.Valid env)
    (inHead : state.stage ≠ .payload) (nextInHead : next.stage ≠ .payload)
    (started : next.stage ≠ .method →
      next.request = some next.currentRequest)
    (sameLength : next.contentLength = state.contentLength)
    (sameSaved : next.contentSavedLength = state.contentSavedLength) :
    next.Valid env where
  started := started
  contentLength_le := sameLength ▸ valid.contentLength_le
  saved := fun _ => sameSaved.trans (valid.saved inHead)
  payload := fun atPayload => absurd atPayload nextInHead

theorem HeaderAccepted.contentLength_le {request : Request} {header : Header}
    (accepted : HeaderAccepted env state request header next)
    (bounded : state.contentLength ≤ env.clientMaxBodySize) :
    next.contentLength ≤ env.clientMaxBodySize := by
  cases isLength : headerIsContentLength header with
  | false => simpa [accepted.otherLength isLength] using bounded
  | true =>
    exact (validateContentLength_some (accepted.validatedLength isLength)).2.2.2

theorem HeadStep.valid {env : Env} {state next : ParserState} {byte : UInt8}
    (step : HeadStep env state byte next) (valid : state.Valid env) :
    next.Valid env := by
  have inHead := step.inHead
  cases step with
  | blank => exact valid
  | pad => exact valid
  | methodChar stage =>
    exact valid.of_head inHead inHead (fun _ => rfl) rfl rfl
  | methodEnd stage =>
    exact valid.of_head inHead (by simp) (fun _ => rfl) rfl rfl
  | uriEnd stage =>
    exact valid.of_head inHead (by simp) (fun _ => rfl) rfl rfl
  | protocolEnd stage =>
    exact valid.of_head inHead (by simp) (fun _ => rfl) rfl rfl
  | keyEnd stage =>
    exact valid.of_head inHead (by simp) (fun _ => rfl) rfl rfl
  | uriChar stage => exact valid.of_head inHead inHead valid.started rfl rfl
  | protocolChar stage =>
    exact valid.of_head inHead inHead valid.started rfl rfl
  | keyChar stage => exact valid.of_head inHead inHead valid.started rfl rfl
  | lineEnd stage =>
    exact valid.of_head inHead (by simp) (fun _ => valid.started (by grind)) rfl rfl
  | blockEnd stage =>
    exact valid.of_head inHead (by simp) (fun _ => valid.started (by simp [stage])) rfl rfl
  | valueChar stage =>
    exact valid.of_head inHead (by simp) (fun _ => valid.started (by grind)) rfl rfl
  | valueEnd stage accepted =>
    have bounded := accepted.contentLength_le valid.contentLength_le
    obtain ⟨hostFound, server, contentLength, rfl⟩ := accepted.unchanged
    exact {
      started := fun _ => rfl
      contentLength_le := bounded
      saved := fun _ => valid.saved inHead
      payload := by simp }
  | bodyStart stage hosted announced allowed =>
    exact {
      started := fun _ => valid.started (by simp [stage])
      contentLength_le := valid.contentLength_le
      saved := by simp
      payload := fun _ => ⟨allowed, by
        have unsaved := valid.saved inHead
        exact unsaved ▸ Nat.pos_of_ne_zero announced⟩ }

private theorem payloadByte_valid (valid : state.Valid env)
    (stage : state.stage = .payload) (byte : UInt8) :
    (payloadByte env state byte).1.Valid env := by
  obtain ⟨allowed, unfinished⟩ := valid.payload stage
  unfold payloadByte
  dsimp only
  split
  · exact httpparserInit_valid env _
  · rename_i notLast
    exact {
      started := fun _ => rfl
      contentLength_le := valid.contentLength_le
      saved := fun inHead => absurd stage inHead
      payload := fun _ => ⟨allowed, by dsimp only; omega⟩ }

theorem requestMachine_step_valid (env : Env) (state : ParserState)
    (byte : UInt8) (valid : state.Valid env) :
    ((requestMachine env).step state byte).1.Valid env := by
  by_cases stage : state.stage = .payload
  · simp only [requestMachine, stage, if_true]
    exact payloadByte_valid valid stage byte
  · simp only [requestMachine, stage, if_false]
    have spec := parserByte_spec env byte stage
    cases result : parserByte env state byte with
    | next next =>
      rw [result] at spec
      exact spec.valid valid
    | fail connection status => exact httpparserInit_valid env connection
    | headersEnd next => exact httpparserInit_valid env next.connection

/-! ## The body of a message -/

def ParserState.requestWithPayload (state : ParserState) (bytes : Bytes) :
    Request :=
  { state.currentRequest with
    payload := state.currentRequest.payload ++ bytes }

def ParserState.withPayload (state : ParserState) (bytes : Bytes) :
    ParserState :=
  { state with
    contentSavedLength := state.contentSavedLength + bytes.length
    request := some (state.requestWithPayload bytes) }

theorem ParserState.withPayload_nil (started : state.request = some state.currentRequest) :
    state.withPayload [] = state := by
  unfold withPayload requestWithPayload
  simp only [List.append_nil, List.length_nil, Nat.add_zero]
  rw [← started]

@[simp]
theorem ParserState.requestWithPayload_withPayload (state : ParserState) (first second : Bytes) :
    (state.withPayload first).requestWithPayload second =
      state.requestWithPayload (first ++ second) := by
  simp [withPayload, requestWithPayload, currentRequest]

@[simp]
theorem ParserState.withPayload_withPayload (state : ParserState) (first second : Bytes) :
    (state.withPayload first).withPayload second = state.withPayload (first ++ second) := by
  rw [withPayload, requestWithPayload_withPayload]
  simp [withPayload, Nat.add_assoc]

theorem requestMachine_step_payload (env : Env) (stage : state.stage = .payload) (byte : UInt8) :
    (requestMachine env).step state byte =
      if state.contentSavedLength + 1 = state.contentLength then
        (httpparserInit env state.connection, some (.dispatch (state.requestWithPayload [byte])))
      else
        (state.withPayload [byte], none) := by
  simp only [requestMachine, stage, if_true]
  rfl

theorem requestMachine_run_unfinished (env : Env) (stage : state.stage = .payload)
    (started : state.request = some state.currentRequest) (bytes : Bytes)
    (short : state.contentSavedLength + bytes.length < state.contentLength) :
    (requestMachine env).run state bytes =
      { state := state.withPayload bytes, events := [], halted := false } := by
  induction bytes generalizing state with
  | nil => rw [Machine.run_nil, state.withPayload_nil started]
  | cons byte bytes ih =>
    rw [List.length_cons] at short
    have step := requestMachine_step_payload env stage byte
    rw [if_neg (by omega)] at step
    have nextStage : (state.withPayload [byte]).stage = .payload := stage
    have tail := ih nextStage rfl <| by
      simp only [ParserState.withPayload, List.length_singleton]
      omega
    rw [(requestMachine env).run_cons_silent step, tail,
      ParserState.withPayload_withPayload, List.singleton_append]

theorem requestMachine_run_complete (env : Env) (stage : state.stage = .payload)
    (started : state.request = some state.currentRequest) (bytes : Bytes) (nonempty : bytes ≠ [])
    (complete : state.contentSavedLength + bytes.length = state.contentLength) :
    (requestMachine env).run state bytes =
      { state := httpparserInit env state.connection
        events := [.dispatch (state.requestWithPayload bytes)]
        halted := false } := by
  obtain ⟨initial, last, rfl⟩ : ∃ initial last, bytes = initial ++ [last] :=
    ⟨_, _, (List.dropLast_append_getLast nonempty).symm⟩
  rw [List.length_append, List.length_singleton] at complete
  have beforeLast := requestMachine_run_unfinished env stage started initial (by omega)
  have step :=
    requestMachine_step_payload env
      (show (state.withPayload initial).stage = .payload from stage) last
  rw [if_pos (by simp only [ParserState.withPayload]; omega)] at step
  rw [(requestMachine env).run_append, beforeLast, Outcome.andThen_of_running rfl,
    (requestMachine env).run_cons_event step rfl,
    ParserState.requestWithPayload_withPayload]
  rfl

/-! ## The keep-alive flag is only written -/

/-- Two values that are equal once a part of them is erased. -/
def Alike {Value : Type} (erase : Value → Value) (first second : Value) :
    Prop :=
  erase first = erase second

theorem Alike.branch {Value : Type} {erase : Value → Value} {condition sameCondition : Prop}
    [Decidable condition] [Decidable sameCondition] {first second sameFirst sameSecond : Value}
    (conditions : condition ↔ sameCondition) (positive : Alike erase first sameFirst)
    (negative : Alike erase second sameSecond) :
    Alike erase (if condition then first else second)
      (if sameCondition then sameFirst else sameSecond) := by
  by_cases holds : condition
  · rwa [if_pos holds, if_pos (conditions.mp holds)]
  · rwa [if_neg holds, if_neg (mt conditions.mpr holds)]

def ParserState.eraseKeepalive (state : ParserState) : ParserState := state.withKeepalive false

def ByteResult.eraseKeepalive : ByteResult → ByteResult
  | .next state => .next state.eraseKeepalive
  | .fail connection status =>
    .fail { connection with keepalive := false } status
  | .headersEnd state => .headersEnd state.eraseKeepalive

def eraseExcept (result : Except ParserStatus ParserState) : Except ParserStatus ParserState :=
  result.map ParserState.eraseKeepalive

section KeepaliveOnlyWritten

variable (env : Env) (keepalive : Bool) (state : ParserState) (byte : UInt8)

private theorem methodByte_alike : Alike ByteResult.eraseKeepalive
      (methodByte (state.withKeepalive keepalive) byte)
      (methodByte state byte) := by
  unfold methodByte
  refine .branch .rfl rfl (.branch .rfl ?_ (.branch .rfl rfl rfl))
  dsimp only [ParserState.withKeepalive]
  cases setMethod (bufferdataGet (bufferdataComplete state.buf)) <;> rfl

private theorem uriByte_alike : Alike ByteResult.eraseKeepalive
      (uriByte (state.withKeepalive keepalive) byte)
      (uriByte state byte) := by
  unfold uriByte
  refine .branch .rfl ?_ (.branch .rfl rfl (.branch .rfl rfl rfl))
  dsimp only [ParserState.withKeepalive, ParserState.currentRequest]
  cases httpparserSetUri _ _ <;> rfl

private theorem protocolByte_alike : Alike ByteResult.eraseKeepalive
      (protocolByte (state.withKeepalive keepalive) byte)
      (protocolByte state byte) := by
  unfold protocolByte
  refine .branch .rfl ?_ (.branch .rfl rfl rfl)
  dsimp only [ParserState.withKeepalive, ParserState.currentRequest]
  cases setProtocol _ <;> rfl

private theorem headerKeyByte_alike : Alike ByteResult.eraseKeepalive
      (headerKeyByte (state.withKeepalive keepalive) byte)
      (headerKeyByte state byte) := by
  unfold headerKeyByte setHeaderKey
  refine .branch .rfl (.branch .rfl rfl rfl) (.branch .rfl ?_
    (.branch .rfl rfl (.branch .rfl rfl rfl)))
  dsimp only [ParserState.withKeepalive]
  by_cases full : maxHeadersCount ≤ state.headersCount
  · simp only [full, if_true]
    rfl
  · simp only [full, if_false]
    split <;> rfl

private theorem newline3Byte_alike : Alike ByteResult.eraseKeepalive
      (newline3Byte (state.withKeepalive keepalive) byte)
      (newline3Byte state byte) := by
  unfold newline3Byte
  exact .branch .rfl (.branch .rfl rfl (.branch .rfl rfl (.branch .rfl rfl rfl))) rfl

private theorem trySetServer_alike (header : Header) : Alike eraseExcept
      (trySetServer env (state.withKeepalive keepalive) header)
      (trySetServer env state header) := by
  unfold trySetServer
  refine .branch .rfl rfl (.branch .rfl rfl (.branch .rfl rfl ?_))
  cases hostDomain header.value with
  | none => rfl
  | some domain =>
    dsimp only [ParserState.withKeepalive]
    cases idnToAscii env domain with
    | none => rfl
    | some asciiDomain =>
      dsimp only
      cases selectServer env state.connection.server asciiDomain <;> rfl

private theorem trySetContentLength_alike (header : Header) : Alike eraseExcept
      (trySetContentLength env (state.withKeepalive keepalive) header)
      (trySetContentLength env state header) := by
  unfold trySetContentLength
  refine .branch .rfl rfl (.branch .rfl rfl (.branch .rfl rfl ?_))
  cases validateContentLength env header.value <;> rfl

theorem bind_alike {result sameResult : Except ParserStatus ParserState}
    {continuation : ParserState → Except ParserStatus ParserState}
    (results : Alike eraseExcept result sameResult)
    (respects : ∀ keepalive state, Alike eraseExcept (continuation (state.withKeepalive keepalive))
        (continuation state)) :
    Alike eraseExcept (result >>= continuation) (sameResult >>= continuation) := by
  cases result with
  | error status =>
    cases sameResult with
    | error sameStatus => exact results
    | ok same => cases results
  | ok reached =>
    cases sameResult with
    | error sameStatus => cases results
    | ok same =>
      have erased : reached.eraseKeepalive = same.eraseKeepalive := Except.ok.inj results
      calc eraseExcept (continuation reached)
        _ = eraseExcept (continuation reached.eraseKeepalive) := (respects false reached).symm
        _ = eraseExcept (continuation same.eraseKeepalive) := by
          rw [erased]
        _ = eraseExcept (continuation same) := respects false same

private theorem setHeaderValue_alike (request : Request) : Alike eraseExcept
      (setHeaderValue env (state.withKeepalive keepalive) request)
      (setHeaderValue env state request) := by
  unfold setHeaderValue
  refine bind_alike (trySetServer_alike env keepalive state _) ?_
  intro hostedKeepalive hosted
  refine bind_alike (trySetContentLength_alike env
    (keepaliveAfterHeader hostedKeepalive _) (trySetKeepalive hosted _) _) ?_
  intro measuredKeepalive measured
  refine bind_alike (.branch .rfl rfl rfl) ?_
  intro checkedKeepalive checked
  rfl

theorem ofExcept_alike {connection sameConnection : ParserConnection}
    {result sameResult : Except ParserStatus ParserState} {next : ParserState → ParserState}
    (servers : connection.server = sameConnection.server)
    (results : Alike eraseExcept result sameResult)
    (respects : ∀ state : ParserState, (next state).eraseKeepalive = next state.eraseKeepalive) :
    Alike ByteResult.eraseKeepalive (.ofExcept connection result next)
      (.ofExcept sameConnection sameResult next) := by
  cases result with
  | error status =>
    cases sameResult with
    | error sameStatus =>
      cases results
      simp [Alike, ByteResult.ofExcept, ByteResult.eraseKeepalive, servers]
    | ok same => cases results
  | ok reached =>
    cases sameResult with
    | error sameStatus => cases results
    | ok same =>
      have erased : reached.eraseKeepalive = same.eraseKeepalive := Except.ok.inj results
      simp only [Alike, ByteResult.ofExcept, ByteResult.eraseKeepalive, respects, erased]

theorem headerValueByte_alike : Alike ByteResult.eraseKeepalive
      (headerValueByte env (state.withKeepalive keepalive) byte)
      (headerValueByte env state byte) := by
  unfold headerValueByte
  refine .branch .rfl ?_ (.branch .rfl rfl (.branch .rfl rfl rfl))
  exact ofExcept_alike rfl
    (setHeaderValue_alike env keepalive
      { state with buf := bufferdataComplete state.buf } _)
    fun _ => rfl

private theorem headerSpaceByte_alike : Alike ByteResult.eraseKeepalive
      (headerSpaceByte env (state.withKeepalive keepalive) byte)
      (headerSpaceByte env state byte) := by
  unfold headerSpaceByte
  exact .branch .rfl rfl
    (headerValueByte_alike env keepalive
      { state with stage := .headerValue } byte)

theorem parserByte_alike : Alike ByteResult.eraseKeepalive
      (parserByte env (state.withKeepalive keepalive) byte)
      (parserByte env state byte) := by
  unfold parserByte
  have sameStage : (state.withKeepalive keepalive).stage = state.stage := rfl
  rw [sameStage]
  cases state.stage with
  | method => exact methodByte_alike keepalive state byte
  | uri => exact uriByte_alike keepalive state byte
  | protocol => exact protocolByte_alike keepalive state byte
  | newline1 => exact .branch .rfl rfl rfl
  | headerKey => exact headerKeyByte_alike keepalive state byte
  | headerSpace => exact headerSpaceByte_alike env keepalive state byte
  | headerValue => exact headerValueByte_alike env keepalive state byte
  | newline2 => exact .branch .rfl rfl rfl
  | newline3 => exact newline3Byte_alike keepalive state byte
  | payload => rfl

end KeepaliveOnlyWritten

theorem headOutcome_alike (env : Env) {first second : ByteResult}
    (results : Alike ByteResult.eraseKeepalive first second) :
    (headOutcome env first).2 = (headOutcome env second).2 ∧
      Alike ParserState.eraseKeepalive (headOutcome env first).1 (headOutcome env second).1 := by
  have connections : ∀ {connection other : ParserConnection}, connection.server = other.server →
        Alike ParserState.eraseKeepalive
          (httpparserInit env connection) (httpparserInit env other) := by
    intro connection other servers
    simp [Alike, ParserState.eraseKeepalive, ParserState.withKeepalive, httpparserInit, servers]
  cases first with
  | next state =>
    cases second with
    | next other => exact ⟨rfl, ByteResult.next.inj results⟩
    | fail other status => cases results
    | headersEnd other => cases results
  | fail connection status =>
    cases second with
    | next other => cases results
    | fail other otherStatus =>
      obtain ⟨sameConnection, rfl⟩ := ByteResult.fail.inj results
      have sameServer : connection.server = other.server :=
        (ParserConnection.mk.inj sameConnection).2
      exact ⟨rfl, connections sameServer⟩
    | headersEnd other => cases results
  | headersEnd state =>
    cases second with
    | next other => cases results
    | fail other status => cases results
    | headersEnd other =>
      have erased : state.eraseKeepalive = other.eraseKeepalive := ByteResult.headersEnd.inj results
      have sameRequest := congrArg ParserState.currentRequest erased
      have sameServer := congrArg (fun reached => reached.connection.server) erased
      exact ⟨congrArg (fun request => some (ReadEvent.dispatch request))
        sameRequest, connections sameServer⟩

private theorem payloadByte_withKeepalive (env : Env) (keepalive : Bool)
    (state : ParserState) (byte : UInt8) :
    (payloadByte env (state.withKeepalive keepalive) byte).2 = (payloadByte env state byte).2 ∧
      Alike ParserState.eraseKeepalive (payloadByte env (state.withKeepalive keepalive) byte).1
        (payloadByte env state byte).1 := by
  by_cases last : state.contentSavedLength + 1 = state.contentLength
  · simp only [payloadByte, ParserState.withKeepalive, last, if_true]
    exact ⟨rfl, rfl⟩
  · simp only [payloadByte, ParserState.withKeepalive, last, if_false]
    exact ⟨trivial, rfl⟩

private theorem requestMachine_step_withKeepalive (env : Env) (keepalive : Bool)
    (state : ParserState) (byte : UInt8) :
    ((requestMachine env).step (state.withKeepalive keepalive) byte).2 =
        ((requestMachine env).step state byte).2 ∧
      Alike ParserState.eraseKeepalive
        ((requestMachine env).step (state.withKeepalive keepalive) byte).1
        ((requestMachine env).step state byte).1 := by
  by_cases stage : state.stage = .payload
  · have sameStage : (state.withKeepalive keepalive).stage = .payload := stage
    simp only [requestMachine, stage, sameStage, if_true]
    exact payloadByte_withKeepalive env keepalive state byte
  · have sameStage : (state.withKeepalive keepalive).stage ≠ .payload := stage
    simp only [requestMachine, stage, sameStage, if_false]
    exact headOutcome_alike env (parserByte_alike env keepalive state byte)

theorem requestMachine_run_alike (env : Env) {first second : ParserState}
    (alike : Alike ParserState.eraseKeepalive first second)
    (word : Bytes) :
    Agrees (Alike ParserState.eraseKeepalive) ((requestMachine env).run first word)
      ((requestMachine env).run second word) := by
  refine (requestMachine env).run_related _ ?_ alike word
  intro first second byte alike
  have firstStep := requestMachine_step_withKeepalive env false first byte
  have secondStep := requestMachine_step_withKeepalive env false second byte
  have sameState : first.withKeepalive false = second.withKeepalive false := alike
  rw [sameState] at firstStep
  exact ⟨firstStep.1.symm.trans secondStep.1, firstStep.2.symm.trans secondStep.2⟩

end CWebFramework.Http
