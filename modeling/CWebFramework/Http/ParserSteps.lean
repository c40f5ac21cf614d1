import CWebFramework.Http.RequestParser

/-!
# The steps of the request parser

The branches of the parser loop, read backwards: what must hold of the state
and of the character when the loop goes on, and what the next state is.  The
results about whole messages and whole streams are proved by cases on
`HeadStep`; none of them unfolds a branch of the parser again.
-/

namespace CWebFramework.Http

variable {request : Request}

/-- `httpparser_set_uri` leaves the other fields as they are. -/
theorem httpparserSetUri_some {next : Request} {uri : Bytes}
    (parsed : httpparserSetUri request uri = some next) :
    next.method = request.method ∧ next.uri = uri ∧
      next.headers = request.headers ∧ next.payload = request.payload := by
  unfold httpparserSetUri at parsed
  split at parsed
  · cases parsed
  · dsimp only at parsed
    split at parsed
    · cases parsed
    · cases parsed
      exact ⟨rfl, rfl, rfl, rfl⟩

/-! ## What an accepted header value changes -/

/-- What `__try_set_server` does to a header that it accepts. -/
structure ServerAccepted (env : Env) (state : ParserState) (header : Header)
    (next : ParserState) : Prop where
  fresh : headerIsHost header = true → state.hostHeaderSeen = false
  unchanged : ∃ hostFound server,
    next =
      { state with
        hostFound := hostFound
        hostHeaderSeen := state.hostHeaderSeen || headerIsHost header
        connection := { state.connection with server := server } }
  other : headerIsHost header = false →
    next.connection.server = state.connection.server
  selected : headerIsHost header = true → ∃ domain asciiDomain,
      hostDomain header.value = some domain ∧ idnToAscii env domain = some asciiDomain ∧
        selectServer env state.connection.server asciiDomain = some next.connection.server

variable {env : Env} {state next : ParserState} {header : Header}

theorem trySetServer_ok (accepted : trySetServer env state header = .ok next) :
    ServerAccepted env state header next := by
  unfold trySetServer at accepted
  cases isHost : headerIsHost header with
  | false =>
    simp only [isHost, Bool.not_false, if_true, Except.ok.injEq] at accepted
    subst next
    exact {
      fresh := by simp [isHost]
      unchanged := ⟨state.hostFound, state.connection.server, by
        simp [isHost]⟩
      other := fun _ => rfl
      selected := by simp [isHost] }
  | true =>
    simp only [isHost, Bool.not_true, Bool.false_eq_true, if_false] at accepted
    split at accepted
    · cases accepted
    · rename_i fresh
      split at accepted
      · cases accepted
      · split at accepted
        · cases accepted
        · rename_i domain domainRead
          split at accepted
          · cases accepted
          · rename_i asciiDomain converted
            split at accepted
            · cases accepted
            · rename_i server selected
              cases accepted
              exact {
                fresh := fun _ => by simpa using fresh
                unchanged := ⟨true, server, by simp [isHost]⟩
                other := by simp [isHost]
                selected := fun _ =>
                  ⟨domain, asciiDomain, domainRead, converted, selected⟩ }

theorem validateContentLength_some {value : Bytes} {length : Nat}
    (validated : validateContentLength env value = some length) :
    value ≠ [] ∧ value.all isdigit = true ∧ length = digitsValue value ∧
      length ≤ env.clientMaxBodySize := by
  unfold validateContentLength strtoull at validated
  split at validated
  · cases validated
  · rename_i nonempty
    split at validated
    · cases validated
    · rename_i digits
      split at validated
      · cases validated
      · rename_i result converted
        split at validated
        · cases validated
        · rename_i fits
          cases validated
          split at converted
          · cases converted
            exact ⟨nonempty, by simpa using digits, rfl, Nat.le_of_not_lt fits⟩
          · cases converted

/-- What the `Content-Length` branch does to a header that it accepts. -/
structure LengthAccepted (env : Env) (state : ParserState) (header : Header)
    (next : ParserState) : Prop where
  fresh : headerIsContentLength header = true → state.contentLengthFound = false
  unchanged : ∃ contentLength,
    next =
      { state with
        contentLength := contentLength
        contentLengthFound := state.contentLengthFound || headerIsContentLength header }
  other : headerIsContentLength header = false →
    next.contentLength = state.contentLength
  validated : headerIsContentLength header = true →
    validateContentLength env header.value = some next.contentLength

theorem trySetContentLength_ok (accepted : trySetContentLength env state header = .ok next) :
    LengthAccepted env state header next := by
  unfold trySetContentLength at accepted
  cases isLength : headerIsContentLength header with
  | false =>
    simp only [isLength, Bool.not_false, if_true, Except.ok.injEq] at accepted
    subst next
    exact {
      fresh := by simp [isLength]
      unchanged := ⟨state.contentLength, by simp [isLength]⟩
      other := fun _ => rfl
      validated := by simp [isLength] }
  | true =>
    simp only [isLength, Bool.not_true, Bool.false_eq_true, if_false] at accepted
    split at accepted
    · cases accepted
    · rename_i fresh
      split at accepted
      · cases accepted
      · split at accepted
        · cases accepted
        · rename_i length validated
          cases accepted
          exact {
            fresh := fun _ => by simpa using fresh
            unchanged := ⟨length, by simp [isLength]⟩
            other := by simp [isLength]
            validated := fun _ => validated }

/-- The header that `__set_header_value` completes. -/
def completedHeader (request : Request) (value : Bytes) : Header :=
  (setLastValue request.headers value).getLast?.getD
    { key := [], value := value }

/-- The request after `__set_header_value`. -/
def requestWithValue (request : Request) (value : Bytes) : Request :=
  let header := completedHeader request value
  trySetCookie (trySetRange
      { request with headers := setLastValue request.headers value } header)
    header

theorem requestWithValue_fields (request : Request) (value : Bytes) :
    (requestWithValue request value).method = request.method ∧
      (requestWithValue request value).version = request.version ∧
      (requestWithValue request value).uri = request.uri ∧
      (requestWithValue request value).payload = request.payload ∧
      (requestWithValue request value).headers = setLastValue request.headers value := by
  unfold requestWithValue trySetCookie trySetRange
  dsimp only
  split_ifs <;> exact ⟨rfl, rfl, rfl, rfl, rfl⟩

/-- What `__set_header_value` does to a header that it accepts. -/
structure HeaderAccepted (env : Env) (state : ParserState)
    (request : Request) (header : Header) (next : ParserState) : Prop where
  hostFresh : headerIsHost header = true → state.hostHeaderSeen = false
  lengthFresh : headerIsContentLength header = true → state.contentLengthFound = false
  noTransferEncoding : headerIsTransferEncoding header = false
  unchanged : ∃ hostFound server contentLength,
    next =
      { state with
        hostFound := hostFound
        hostHeaderSeen := state.hostHeaderSeen || headerIsHost header
        contentLength := contentLength
        contentLengthFound := state.contentLengthFound || headerIsContentLength header
        connection := {
          keepalive := keepaliveAfterHeader state.connection.keepalive header
          server := server }
        request := some (requestWithValue request header.value) }
  otherServer : headerIsHost header = false →
    next.connection.server = state.connection.server
  selectedServer : headerIsHost header = true → ∃ domain asciiDomain,
      hostDomain header.value = some domain ∧ idnToAscii env domain = some asciiDomain ∧
        selectServer env state.connection.server asciiDomain = some next.connection.server
  otherLength : headerIsContentLength header = false →
    next.contentLength = state.contentLength
  validatedLength : headerIsContentLength header = true →
    validateContentLength env header.value = some next.contentLength

theorem rejectTransferEncoding_ok (accepted : rejectTransferEncoding state header = .ok next) :
    headerIsTransferEncoding header = false ∧ next = state := by
  unfold rejectTransferEncoding at accepted
  split at accepted
  · cases accepted
  · rename_i notEncoding
    cases accepted
    exact ⟨by simpa using notEncoding, rfl⟩

def ParserState.lastHeader (state : ParserState) (request : Request) :
    Header :=
  completedHeader request ((bufferdataGet state.buf).rdropWhile isOws)

theorem completedHeader_value (request : Request) (value : Bytes) :
    (completedHeader request value).value = value := by
  unfold completedHeader setLastValue
  split <;> simp

theorem setHeaderValue_ok (accepted : setHeaderValue env state request = .ok next) :
    HeaderAccepted env state request (state.lastHeader request) next := by
  have lastValue := completedHeader_value request ((bufferdataGet state.buf).rdropWhile isOws)
  unfold setHeaderValue at accepted
  simp only [bind, Except.bind, pure, Except.pure] at accepted
  split at accepted
  · cases accepted
  · rename_i hosted hostedAccepted
    split at accepted
    · cases accepted
    · rename_i measured measuredAccepted
      split at accepted
      · cases accepted
      · rename_i checked checkedAccepted
        cases accepted
        have host := trySetServer_ok hostedAccepted
        have length := trySetContentLength_ok measuredAccepted
        obtain ⟨noEncoding, rfl⟩ := rejectTransferEncoding_ok checkedAccepted
        obtain ⟨hostFound, server, rfl⟩ := host.unchanged
        obtain ⟨contentLength, rfl⟩ := length.unchanged
        exact {
          hostFresh := host.fresh
          lengthFresh := length.fresh
          noTransferEncoding := noEncoding
          unchanged := ⟨hostFound, server, contentLength, by
            simp only [ParserState.lastHeader, requestWithValue, lastValue, trySetKeepalive]
            rfl⟩
          otherServer := host.other
          selectedServer := host.selected
          otherLength := length.other
          validatedLength := length.validated }

/-! ## What a byte of the head does -/

/-- The steps inside the head of a message. One constructor stands for one
way in which the loop goes on to the next character. -/
inductive HeadStep (env : Env) (state : ParserState) : UInt8 → ParserState → Prop where
  | blank {byte : UInt8} (stage : state.stage = .method) (newline : byte = Byte.cr ∨ byte = Byte.lf)
      (empty : state.buf.contents = []) :
      HeadStep env state byte state
  | methodChar {byte : UInt8} (stage : state.stage = .method) (inToken : byte ≠ Byte.space)
      (notBlank : (byte = Byte.cr ∨ byte = Byte.lf) → state.buf.contents ≠ []) :
      HeadStep env state byte
        { state with
          request := some state.currentRequest
          buf := bufferdataPush state.buf byte }
  | methodEnd {method : Method} (stage : state.stage = .method)
      (token : setMethod state.buf.contents = some method) :
      HeadStep env state Byte.space
        { state with
          stage := .uri
          request := some { state.currentRequest with method := method }
          buf := bufferdataReset (bufferdataComplete state.buf) }
  | uriChar {byte : UInt8} (stage : state.stage = .uri) (inToken : byte ≠ Byte.space)
      (printable : httpparserIsCtl byte = false) :
      HeadStep env state byte
        { state with buf := bufferdataPush state.buf byte }
  | uriEnd {request : Request} (stage : state.stage = .uri)
      (token : httpparserSetUri state.currentRequest state.buf.contents = some request) :
      HeadStep env state Byte.space
        { state with
          stage := .protocol
          request := some request
          buf := bufferdataReset (bufferdataComplete state.buf) }
  | protocolChar {byte : UInt8} (stage : state.stage = .protocol) (inToken : byte ≠ Byte.cr) :
      HeadStep env state byte
        { state with buf := bufferdataPush state.buf byte }
  | protocolEnd {version : Version} (stage : state.stage = .protocol)
      (token : setProtocol state.buf.contents = some version) :
      HeadStep env state Byte.cr
        { state with
          stage := .newline1
          request := some { state.currentRequest with version := version }
          connection :=
            { state.connection with keepalive := version == .v11 }
          buf := bufferdataReset (bufferdataComplete state.buf) }
  | lineEnd (stage : state.stage = .newline1 ∨ state.stage = .newline2) :
      HeadStep env state Byte.lf { state with stage := .headerKey }
  | keyChar {byte : UInt8} (stage : state.stage = .headerKey) (inToken : byte ≠ Byte.colon)
      (printable : httpparserIsCtl byte = false)
      (noSpace : isOws byte = false) :
      HeadStep env state byte
        { state with buf := bufferdataPush state.buf byte }
  | keyEnd (stage : state.stage = .headerKey) (nonempty : state.buf.contents ≠ []) :
      HeadStep env state Byte.colon
        { state with
          stage := .headerSpace
          headersCount := state.headersCount + 1
          request := some { state.currentRequest with
            headers := state.currentRequest.headers ++
              [{ key := state.buf.contents, value := [] }] }
          buf := bufferdataReset (bufferdataComplete state.buf) }
  | blockEnd (stage : state.stage = .headerKey) (empty : state.buf.contents = []) :
      HeadStep env state Byte.cr { state with stage := .newline3 }
  | pad {byte : UInt8} (stage : state.stage = .headerSpace) (space : isOws byte = true) :
      HeadStep env state byte state
  | valueChar {byte : UInt8} (stage : state.stage = .headerSpace ∧ isOws byte = false ∨
        state.stage = .headerValue)
      (printable : httpparserIsCtl byte = false) :
      HeadStep env state byte
        { state with
          stage := .headerValue
          buf := bufferdataPush state.buf byte }
  | valueEnd {valued : ParserState}
      (stage : state.stage = .headerSpace ∨ state.stage = .headerValue)
      (accepted : HeaderAccepted env
          { state with
            stage := .headerValue
            buf := bufferdataComplete state.buf }
          state.currentRequest
          (completedHeader state.currentRequest (state.buf.contents.rdropWhile isOws))
          valued) :
      HeadStep env state Byte.cr
        { valued with
          stage := .newline2
          buf := bufferdataReset valued.buf }
  | bodyStart (stage : state.stage = .newline3) (hosted : state.currentRequest.version = .v11 →
        state.hostHeaderSeen = true)
      (announced : state.contentLength ≠ 0)
      (allowed : httprequestAllowPayload state.currentRequest = true) :
      HeadStep env state Byte.lf { state with stage := .payload }

structure HeadEnd (state : ParserState) (byte : UInt8) (next : ParserState) : Prop where
  stage : state.stage = .newline3
  newline : byte = Byte.lf
  hosted : state.currentRequest.version = .v11 → state.hostHeaderSeen = true
  bodiless : state.contentLength = 0
  unchanged : next = { state with stage := .payload }

/-- The statuses of the errors in a head. -/
def IsHeadError (status : ParserStatus) : Prop := status = .badRequest ∨ status = .hostNotFound

/-- What the parser may do at a byte of the head. An error leaves the
connection as it is. -/
def ByteSpec (env : Env) (state : ParserState) (byte : UInt8) : ByteResult → Prop
  | .next next => HeadStep env state byte next
  | .fail connection status =>
    connection = state.connection ∧ IsHeadError status
  | .headersEnd next => HeadEnd state byte next

variable {byte : UInt8}

theorem methodByte_spec (stage : state.stage = .method) :
    ByteSpec env state byte (methodByte state byte) := by
  unfold methodByte
  split
  · rename_i blank
    exact .blank stage blank.1 (by simpa using blank.2)
  · rename_i notBlank
    split
    · rename_i space
      subst space
      split
      · exact ⟨rfl, .inl rfl⟩
      · rename_i method token
        exact .methodEnd stage (by simpa using token)
    · rename_i inToken
      split
      · exact ⟨rfl, .inl rfl⟩
      · exact .methodChar stage inToken fun newline empty =>
          notBlank ⟨newline, by simp [empty]⟩

theorem uriByte_spec (stage : state.stage = .uri) :
    ByteSpec env state byte (uriByte state byte) := by
  unfold uriByte
  split
  · rename_i space
    subst space
    dsimp only
    split
    · exact ⟨rfl, .inl rfl⟩
    · rename_i request token
      exact .uriEnd stage (by simpa using token)
  · rename_i inToken
    split
    · exact ⟨rfl, .inl rfl⟩
    · rename_i printable
      split
      · exact ⟨rfl, .inl rfl⟩
      · exact .uriChar stage inToken (by simpa using printable)

private theorem protocolByte_spec (stage : state.stage = .protocol) :
    ByteSpec env state byte (protocolByte state byte) := by
  unfold protocolByte
  split
  · rename_i lineEnd
    subst lineEnd
    dsimp only
    split
    · exact ⟨rfl, .inl rfl⟩
    · rename_i version token
      exact .protocolEnd stage (by simpa using token)
  · rename_i inToken
    split
    · exact ⟨rfl, .inl rfl⟩
    · exact .protocolChar stage inToken

private theorem newlineByte_spec (stage : state.stage = .newline1 ∨ state.stage = .newline2) :
    ByteSpec env state byte (newlineByte state byte) := by
  unfold newlineByte
  split
  · rename_i newline
    subst newline
    exact .lineEnd stage
  · exact ⟨rfl, .inl rfl⟩

private theorem setHeaderKey_spec (state : ParserState) (request : Request) :
    setHeaderKey state request = .error .badRequest ∨ state.buf.contents ≠ [] ∧
        setHeaderKey state request = .ok { state with
          headersCount := state.headersCount + 1
          request := some { request with
            headers := request.headers ++ [{ key := state.buf.contents, value := [] }] } } := by
  unfold setHeaderKey
  dsimp only
  split
  · exact .inl rfl
  · split
    · exact .inl rfl
    · rename_i nonempty
      refine .inr ⟨?_, by simp⟩
      simpa using nonempty

theorem headerKeyByte_spec (stage : state.stage = .headerKey) :
    ByteSpec env state byte (headerKeyByte state byte) := by
  unfold headerKeyByte
  split
  · rename_i lineEnd
    subst lineEnd
    split
    · exact ⟨rfl, .inl rfl⟩
    · rename_i empty
      exact .blockEnd stage (by simpa using empty)
  · split
    · rename_i colon
      subst colon
      dsimp only
      rcases setHeaderKey_spec
          { state with buf := bufferdataComplete state.buf }
          (ParserState.currentRequest
            { state with buf := bufferdataComplete state.buf })
        with failed | ⟨nonempty, keyed⟩
      · rw [failed]
        exact ⟨rfl, .inl rfl⟩
      · rw [keyed]
        simp only [BufferData.contents_complete] at nonempty
        have step : HeadStep env state Byte.colon _ := .keyEnd stage nonempty
        simpa [ByteResult.ofExcept, ByteSpec, ParserState.currentRequest] using step
    · rename_i inToken
      split
      · exact ⟨rfl, .inl rfl⟩
      · rename_i plain
        split
        · exact ⟨rfl, .inl rfl⟩
        · simp only [Bool.or_eq_true, not_or, Bool.not_eq_true] at plain
          exact .keyChar stage inToken plain.1 plain.2

variable {status : ParserStatus}

private theorem trySetServer_error (rejected : trySetServer env state header = .error status) :
    IsHeadError status := by
  unfold trySetServer at rejected
  dsimp only at rejected
  repeat' split at rejected
  all_goals cases rejected
  all_goals first | exact .inl rfl | exact .inr rfl

private theorem trySetContentLength_error
    (rejected : trySetContentLength env state header = .error status) :
    IsHeadError status := by
  unfold trySetContentLength at rejected
  repeat' split at rejected
  all_goals cases rejected
  all_goals exact .inl rfl

theorem setHeaderValue_error (rejected : setHeaderValue env state request = .error status) :
    IsHeadError status := by
  unfold setHeaderValue rejectTransferEncoding at rejected
  simp only [bind, Except.bind, pure, Except.pure] at rejected
  split at rejected
  · rename_i hosted
    cases rejected
    exact trySetServer_error hosted
  · split at rejected
    · rename_i measured
      cases rejected
      exact trySetContentLength_error measured
    · split at rejected
      · rename_i checked
        cases rejected
        split at checked
        · cases checked
          exact .inl rfl
        · cases checked
      · cases rejected

theorem headerValueByte_spec (env : Env) (stage : state.stage = .headerSpace ∧ isOws byte = false ∨
      state.stage = .headerValue) :
    ByteSpec env state byte (headerValueByte env { state with stage := .headerValue } byte) := by
  unfold headerValueByte
  split
  · rename_i lineEnd
    subst lineEnd
    dsimp only
    generalize result : setHeaderValue env _ _ = outcome
    cases outcome with
    | error status => exact ⟨rfl, setHeaderValue_error result⟩
    | ok valued =>
      have accepted := setHeaderValue_ok result
      simp only [ParserState.lastHeader, BufferData.get_eq,
        BufferData.contents_complete] at accepted
      exact .valueEnd (stage.imp_left And.left) accepted
  · split
    · exact ⟨rfl, .inl rfl⟩
    · rename_i printable
      split
      · exact ⟨rfl, .inl rfl⟩
      · exact .valueChar stage (by simpa using printable)

private theorem headerSpaceByte_spec (stage : state.stage = .headerSpace) :
    ByteSpec env state byte (headerSpaceByte env state byte) := by
  unfold headerSpaceByte
  split
  · rename_i space
    exact .pad stage space
  · rename_i noSpace
    exact headerValueByte_spec env (.inl ⟨stage, by simpa using noSpace⟩)

theorem newline3Byte_spec (stage : state.stage = .newline3) :
    ByteSpec env state byte (newline3Byte state byte) := by
  unfold newline3Byte
  split
  · rename_i newline
    subst newline
    dsimp only
    split
    · exact ⟨rfl, .inl rfl⟩
    · rename_i hosted
      have hostSeen : state.currentRequest.version = .v11 → state.hostHeaderSeen = true := by
        simpa using hosted
      split
      · rename_i bodiless
        exact ⟨stage, rfl, hostSeen, bodiless, rfl⟩
      · rename_i announced
        split
        · exact ⟨rfl, .inl rfl⟩
        · rename_i allowed
          exact .bodyStart stage hostSeen announced (by simpa using allowed)
  · exact ⟨rfl, .inl rfl⟩

theorem parserByte_spec (env : Env) (byte : UInt8) (inHead : state.stage ≠ .payload) :
    ByteSpec env state byte (parserByte env state byte) := by
  unfold parserByte
  split
  · rename_i stage
    exact methodByte_spec stage
  · rename_i stage
    exact uriByte_spec stage
  · rename_i stage
    exact protocolByte_spec stage
  · rename_i stage
    exact newlineByte_spec (.inl stage)
  · rename_i stage
    exact headerKeyByte_spec stage
  · rename_i stage
    exact headerSpaceByte_spec stage
  · rename_i stage
    have sameState : { state with stage := .headerValue } = state := by
      rw [← stage]
    have spec : ByteSpec env state byte _ := headerValueByte_spec env (.inr stage)
    rwa [sameState] at spec
  · rename_i stage
    exact newlineByte_spec (.inr stage)
  · rename_i stage
    exact newline3Byte_spec stage
  · rename_i stage
    exact absurd stage inHead

/-! ## Invariants of the parser -/

/-- A predicate that every branch of the parser keeps. -/
structure ParserInvariant (env : Env) (property : ParserState → Prop) : Prop where
  step : ∀ {state byte next}, HeadStep env state byte next → property state → property next
  headEnd : ∀ {state}, state.stage = .newline3 → property state →
    property { state with stage := .payload }
  clear : ∀ {state}, property state → property (httpparserInit env state.connection)
  payload : ∀ {state : ParserState} {request : Request} (piece : Bytes) (savedLength : Nat),
    state.request = some request → property state → property { state with
        contentSavedLength := savedLength
        request := some { request with
          payload := request.payload ++ piece } }

/-- What a call of the parser leaves: the predicate holds, and a complete
message is in the payload stage. -/
structure RunKeeps (property : ParserState → Prop)
    (result : HttpRequestParser × ParserStatus) : Prop where
  holds : property result.1.state
  stage : result.2 = .handleAndContinue ∨ result.2 = .complete → result.1.state.stage = .payload

section ParserInvariants

variable {env : Env} {property : ParserState → Prop}

theorem ParserInvariant.parsePayload (invariant : ParserInvariant env property)
    {parser : HttpRequestParser} (stage : parser.state.stage = .payload)
    (start : property parser.state) :
    RunKeeps property (parsePayload env parser) := by
  have cleared : ∀ status, status ≠ .handleAndContinue → status ≠ .complete → RunKeeps property
        (clearAndReturn env parser.state.connection status) :=
    fun status notContinued notComplete =>
      ⟨invariant.clear start, fun ends =>
        (ends.elim notContinued notComplete).elim⟩
  unfold Http.parsePayload
  dsimp only
  split
  · exact cleared _ (by simp) (by simp)
  · rename_i request started
    have saved : ∀ stringLen, property (savePayload parser request stringLen).state :=
      fun stringLen => invariant.payload _ _ started start
    split_ifs
    · exact cleared _ (by simp) (by simp)
    · exact cleared _ (by simp) (by simp)
    · exact cleared _ (by simp) (by simp)
    · exact cleared _ (by simp) (by simp)
    · exact ⟨saved _, fun _ => stage⟩
    · exact cleared _ (by simp) (by simp)
    · exact ⟨saved _, fun _ => stage⟩
    · exact ⟨saved _, fun _ => stage⟩

theorem ParserInvariant.httpparserLoop
    (invariant : ParserInvariant env property) (parser : HttpRequestParser)
    (start : property parser.state) (rest : Bytes) :
    RunKeeps property (httpparserLoop env parser rest) := by
  induction rest generalizing parser with
  | nil => exact ⟨start, by simp [Http.httpparserLoop]⟩
  | cons byte rest ih =>
    by_cases stage : parser.state.stage = .payload
    · rw [Http.httpparserLoop, if_pos stage]
      exact invariant.parsePayload stage start
    · have spec := parserByte_spec env byte stage
      rw [Http.httpparserLoop, if_neg stage]
      cases result : parserByte env parser.state byte with
      | next next =>
        rw [result] at spec
        exact ih
          { parser with state := next, pos := parser.pos + 1 }
          (invariant.step spec start)
      | fail connection status =>
        rw [result] at spec
        obtain ⟨rfl, error⟩ := spec
        refine ⟨invariant.clear start, fun ends => ?_⟩
        rcases error with rfl | rfl <;> simp [clearAndReturn] at ends
      | headersEnd next =>
        rw [result] at spec
        have reached : property next := by
          rw [spec.unchanged]
          exact invariant.headEnd spec.stage start
        have nextStage : next.stage = .payload := by
          rw [spec.unchanged]
        dsimp only
        split
        · exact ⟨reached, fun _ => nextStage⟩
        · exact ⟨reached, fun _ => nextStage⟩

theorem ParserInvariant.httpparserRun
    (invariant : ParserInvariant env property) {parser : HttpRequestParser}
    (start : property parser.state) :
    RunKeeps property (httpparserRun env parser) := by
  unfold Http.httpparserRun
  split
  · rename_i stage
    exact invariant.parsePayload stage start
  · exact invariant.httpparserLoop { parser with pos := parser.posStart } start _

end ParserInvariants

end CWebFramework.Http
