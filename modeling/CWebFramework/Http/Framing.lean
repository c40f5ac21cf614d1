import CWebFramework.Http.ReadSegmentation

/-!
# Message framing

A dispatched request comes from one contiguous piece of the received stream:
a request line, header lines, an empty line, and then exactly the announced
number of body bytes.  The next request is read from the byte behind them.

`Tiles` states that for a whole stream.  The proof relates the bytes of the
message in progress to the parser state, stage by stage (`Progress`); the
relation is kept by every step of `HeadStep`.
-/

namespace CWebFramework.Http

open Streaming

/-! ## The layout of a message -/

/-- A request line with the empty lines in front of it. -/
structure RequestLine where
  blanks : Bytes
  method : Bytes
  uri : Bytes
  protocol : Bytes
  blanks_newline : ∀ byte ∈ blanks, byte = Byte.cr ∨ byte = Byte.lf
  uri_plain : ∀ byte ∈ uri, byte ≠ Byte.space ∧ httpparserIsCtl byte = false

def RequestLine.render (line : RequestLine) : Bytes :=
  line.blanks ++ line.method ++ [Byte.space] ++ line.uri ++ [Byte.space] ++
    line.protocol ++ [Byte.cr, Byte.lf]

/-- The request has the method, the target and the version of the line. -/
structure RequestLine.Gives (line : RequestLine) (request : Request) : Prop where
  method : setMethod line.method = some request.method
  uri : request.uri = line.uri
  protocol : setProtocol line.protocol = some request.version

/-- A header line: a key, the whitespace behind the colon, and the text up to
the line end. -/
structure HeaderLine where
  key : Bytes
  pad : Bytes
  text : Bytes
  key_ne : key ≠ []
  key_plain : ∀ byte ∈ key, byte ≠ Byte.colon ∧ httpparserIsCtl byte = false ∧ isOws byte = false
  pad_space : ∀ byte ∈ pad, isOws byte = true
  text_plain : ∀ byte ∈ text, httpparserIsCtl byte = false
  text_start : ∀ byte, text.head? = some byte → isOws byte = false

namespace HeaderLine

def render (line : HeaderLine) : Bytes :=
  line.key ++ [Byte.colon] ++ line.pad ++ line.text ++ [Byte.cr, Byte.lf]

def header (line : HeaderLine) : Header where
  key := line.key
  value := line.text.rdropWhile isOws

end HeaderLine

structure Head where
  line : RequestLine
  headers : List HeaderLine

namespace Head

def renderLines (head : Head) : Bytes := head.line.render ++ head.headers.flatMap HeaderLine.render

def render (head : Head) : Bytes := head.renderLines ++ [Byte.cr, Byte.lf]

/-- The request has the fields that the head gives. -/
structure Gives (head : Head) (request : Request) : Prop where
  line : head.line.Gives request
  headers : request.headers = head.headers.map HeaderLine.header

end Head

def announcedLength (headers : List Header) : Nat :=
  match headers.find? headerIsContentLength with
  | some header => digitsValue header.value
  | none => 0

/-- What the parser guarantees of the framing headers and of the body of a
request. -/
structure WellFramed (env : Env) (request : Request) : Prop where
  noTransferEncoding : ∀ header ∈ request.headers, headerIsTransferEncoding header = false
  lengthOnce : request.headers.countP headerIsContentLength ≤ 1
  lengthDigits : ∀ header ∈ request.headers, headerIsContentLength header = true →
      header.value ≠ [] ∧ header.value.all isdigit = true
  hostOnce : request.headers.countP headerIsHost ≤ 1
  hostGiven : request.version = .v11 → request.headers.countP headerIsHost = 1
  bodyLength : request.payload.length = announcedLength request.headers
  bodyLimit : request.payload.length ≤ env.clientMaxBodySize
  bodyAllowed : request.payload ≠ [] → httprequestAllowPayload request = true

/-- The bytes of one message and the request that they give: the body starts
behind the head and ends with the bytes. -/
structure IsMessage (env : Env) (bytes : Bytes) (request : Request) : Prop where
  framed : WellFramed env request
  layout : ∃ head : Head, head.Gives request ∧ bytes = head.render ++ request.payload

/-- The events of a stream and the pieces of the stream that they stand for.
Behind a dispatched message the next piece follows without a gap; a rejection
drops the bytes that it has looked at; the bytes behind the last event are an
unfinished message. -/
inductive Tiles (env : Env) : Bytes → List ReadEvent → Prop where
  | unfinished (rest : Bytes) : Tiles env rest []
  | message {bytes rest : Bytes} {request : Request}
      {events : List ReadEvent}
      (first : IsMessage env bytes request) (tail : Tiles env rest events) :
      Tiles env (bytes ++ rest) (.dispatch request :: events)
  | rejected {dropped rest : Bytes} {status : Nat} {events : List ReadEvent}
      (tail : Tiles env rest events) :
      Tiles env (dropped ++ rest) (.reject status :: events)

/-! ## The flags of the framing headers -/

/-- The flags and the length of the parser state describe the headers that
have been completed. -/
structure HeadersSeen (headers : List Header) (state : ParserState) : Prop where
  noTransferEncoding : ∀ header ∈ headers, headerIsTransferEncoding header = false
  hostSeen : headers.countP headerIsHost =
    if state.hostHeaderSeen then 1 else 0
  lengthFound : headers.countP headerIsContentLength =
    if state.contentLengthFound then 1 else 0
  lengthDigits : ∀ header ∈ headers, headerIsContentLength header = true →
      header.value ≠ [] ∧ header.value.all isdigit = true
  length : state.contentLength = announcedLength headers

variable {headers : List Header} {state : ParserState}

/-- The part of the state that `HeadersSeen` speaks about. -/
theorem HeadersSeen.congr {next : ParserState} (seen : HeadersSeen headers state)
    (sameHost : next.hostHeaderSeen = state.hostHeaderSeen)
    (sameFound : next.contentLengthFound = state.contentLengthFound)
    (sameLength : next.contentLength = state.contentLength) :
    HeadersSeen headers next where
  noTransferEncoding := seen.noTransferEncoding
  hostSeen := sameHost ▸ seen.hostSeen
  lengthFound := sameFound ▸ seen.lengthFound
  lengthDigits := seen.lengthDigits
  length := sameLength ▸ seen.length

private theorem announcedLength_concat_other {header : Header}
    (other : headerIsContentLength header = false) :
    announcedLength (headers ++ [header]) = announcedLength headers := by
  simp [announcedLength, List.find?_append, other]

private theorem announcedLength_concat_first {header : Header}
    (isLength : headerIsContentLength header = true)
    (first : headers.countP headerIsContentLength = 0) :
    announcedLength (headers ++ [header]) = digitsValue header.value := by
  have absent : headers.find? headerIsContentLength = none := by
    simpa [List.countP_eq_zero] using first
  simp [announcedLength, List.find?_append, absent, isLength]

/-- A flag that counts at most one header counts the next one when it was not
set before. -/
private theorem countP_concat_flag {test : Header → Bool} {header : Header}
    {flag : Bool} (counted : headers.countP test = if flag then 1 else 0)
    (fresh : test header = true → flag = false) :
    (headers ++ [header]).countP test =
      if (flag || test header) then 1 else 0 := by
  cases tested : test header with
  | false => simp [tested, counted]
  | true =>
    have unset := fresh tested
    simp [tested, counted, unset]

variable {env : Env}

theorem HeadersSeen.concat {next : ParserState} {request : Request}
    {header : Header} (seen : HeadersSeen headers state)
    (accepted : HeaderAccepted env state request header next) :
    HeadersSeen (headers ++ [header]) next := by
  have flags : next.hostHeaderSeen = (state.hostHeaderSeen || headerIsHost header) ∧
      next.contentLengthFound = (state.contentLengthFound || headerIsContentLength header) := by
    obtain ⟨hostFound, server, contentLength, rfl⟩ := accepted.unchanged
    exact ⟨rfl, rfl⟩
  refine {
    noTransferEncoding := ?_
    hostSeen := flags.1 ▸ countP_concat_flag seen.hostSeen accepted.hostFresh
    lengthFound := flags.2 ▸ countP_concat_flag seen.lengthFound accepted.lengthFresh
    lengthDigits := ?_
    length := ?_ }
  · intro candidate member
    rcases List.mem_append.mp member with earlier | last
    · exact seen.noTransferEncoding candidate earlier
    · rw [List.mem_singleton.mp last]
      exact accepted.noTransferEncoding
  · intro candidate member isLength
    rcases List.mem_append.mp member with earlier | last
    · exact seen.lengthDigits candidate earlier isLength
    · obtain rfl := List.mem_singleton.mp last
      have validated := validateContentLength_some (accepted.validatedLength isLength)
      exact ⟨validated.1, validated.2.1⟩
  · cases isLength : headerIsContentLength header with
    | false =>
      rw [accepted.otherLength isLength, seen.length, announcedLength_concat_other isLength]
    | true =>
      have unset := accepted.lengthFresh isLength
      have none : headers.countP headerIsContentLength = 0 := by
        simpa [unset] using seen.lengthFound
      have validated := validateContentLength_some (accepted.validatedLength isLength)
      rw [announcedLength_concat_first isLength none, validated.2.2.1]

/-! ## The bytes of the message in progress -/

structure MethodProgress (consumed : Bytes) (state : ParserState) : Prop where
  request : state.currentRequest = httprequestCreate
  seen : HeadersSeen [] state
  bytes : ∃ blanks : Bytes, (∀ byte ∈ blanks, byte = Byte.cr ∨ byte = Byte.lf) ∧
      consumed = blanks ++ state.buf.contents

structure UriProgress (consumed : Bytes) (state : ParserState) : Prop where
  request : ∃ method, state.currentRequest = { httprequestCreate with method := method }
  seen : HeadersSeen [] state
  plain : ∀ byte ∈ state.buf.contents, byte ≠ Byte.space ∧ httpparserIsCtl byte = false
  bytes : ∃ blanks token : Bytes, (∀ byte ∈ blanks, byte = Byte.cr ∨ byte = Byte.lf) ∧
      setMethod token = some state.currentRequest.method ∧
      consumed = blanks ++ token ++ [Byte.space] ++ state.buf.contents

structure ProtocolProgress (consumed : Bytes) (state : ParserState) : Prop where
  headers : state.currentRequest.headers = []
  payload : state.currentRequest.payload = []
  seen : HeadersSeen [] state
  plain : ∀ byte ∈ state.currentRequest.uri, byte ≠ Byte.space ∧ httpparserIsCtl byte = false
  bytes : ∃ blanks token : Bytes, (∀ byte ∈ blanks, byte = Byte.cr ∨ byte = Byte.lf) ∧
      setMethod token = some state.currentRequest.method ∧
      consumed = blanks ++ token ++ [Byte.space] ++
        state.currentRequest.uri ++ [Byte.space] ++ state.buf.contents

/-- The lines of a head that have been read completely. `pending` is the
header whose value is still missing. -/
structure LinesRead (head : Head) (pending : List Header) (state : ParserState) : Prop where
  line : head.line.Gives state.currentRequest
  headers : state.currentRequest.headers = head.headers.map HeaderLine.header ++ pending
  payload : state.currentRequest.payload = []
  seen : HeadersSeen (head.headers.map HeaderLine.header) state

structure KeyProgress (consumed : Bytes) (state : ParserState) : Prop where
  plain : ∀ byte ∈ state.buf.contents, byte ≠ Byte.colon ∧
    httpparserIsCtl byte = false ∧ isOws byte = false
  bytes : ∃ head : Head, LinesRead head [] state ∧ consumed = head.renderLines ++ state.buf.contents

structure ValueProgress (consumed : Bytes) (state : ParserState) : Prop where
  plain : ∀ byte ∈ state.buf.contents, httpparserIsCtl byte = false
  start : ∀ byte, state.buf.contents.head? = some byte → isOws byte = false
  bytes : ∃ (head : Head) (key pad : Bytes), LinesRead head [{ key := key, value := [] }] state ∧
      key ≠ [] ∧
      (∀ byte ∈ key, byte ≠ Byte.colon ∧ httpparserIsCtl byte = false ∧ isOws byte = false) ∧
      (∀ byte ∈ pad, isOws byte = true) ∧
      consumed = head.renderLines ++ key ++ [Byte.colon] ++ pad ++ state.buf.contents

structure LineEndProgress (consumed : Bytes) (state : ParserState) : Prop where
  empty : state.buf.contents = []
  bytes : ∃ head : Head, LinesRead head [] state ∧ consumed ++ [Byte.lf] = head.renderLines

structure HeadEndProgress (consumed : Bytes) (state : ParserState) : Prop where
  bytes : ∃ head : Head, LinesRead head [] state ∧ consumed ++ [Byte.lf] = head.render

structure PayloadProgress (consumed : Bytes) (state : ParserState) : Prop where
  hosted : state.currentRequest.version = .v11 → state.hostHeaderSeen = true
  saved : state.contentSavedLength = state.currentRequest.payload.length
  bytes : ∃ head : Head, head.Gives state.currentRequest ∧
      HeadersSeen state.currentRequest.headers state ∧
      consumed = head.render ++ state.currentRequest.payload

/-- The relation between the bytes and the state in a given stage. -/
def ProgressAt (stage : Stage) (consumed : Bytes) (state : ParserState) :
    Prop :=
  match stage with
  | .method => MethodProgress consumed state
  | .uri => UriProgress consumed state
  | .protocol => ProtocolProgress consumed state
  | .newline1 => LineEndProgress consumed state
  | .headerKey => KeyProgress consumed state
  | .headerSpace =>
    ValueProgress consumed state ∧ state.buf.contents = []
  | .headerValue =>
    ValueProgress consumed state ∧ state.buf.contents ≠ []
  | .newline2 => LineEndProgress consumed state
  | .newline3 => HeadEndProgress consumed state
  | .payload => PayloadProgress consumed state

/-- The bytes of the message in progress, from its first byte on, and what the
parser state says about them. -/
def Progress (consumed : Bytes) (state : ParserState) : Prop :=
  ProgressAt state.stage consumed state

variable {consumed : Bytes}

theorem progress_iff {stage : Stage} (atStage : state.stage = stage) :
    Progress consumed state ↔ ProgressAt stage consumed state := by
  rw [Progress, atStage]

theorem Progress.intro (stage : Stage) (atStage : state.stage = stage)
    (progress : ProgressAt stage consumed state) : Progress consumed state :=
  (progress_iff atStage).mpr progress

theorem httpparserInit_progress (env : Env) (connection : ParserConnection) :
    Progress [] (httpparserInit env connection) where
  request := rfl
  seen := {
    noTransferEncoding := by simp
    hostSeen := rfl
    lengthFound := rfl
    lengthDigits := by simp
    length := rfl }
  bytes := ⟨[], by simp, rfl⟩

private theorem forall_mem_push {buffer : BufferData} {byte : UInt8} {property : UInt8 → Prop}
    (earlier : ∀ candidate ∈ buffer.contents, property candidate)
    (last : property byte) :
    ∀ candidate ∈ (bufferdataPush buffer byte).contents,
      property candidate := by
  intro candidate member
  rw [BufferData.contents_push, List.mem_append, List.mem_singleton] at member
  rcases member with old | rfl
  · exact earlier candidate old
  · exact last

section LineSteps

variable {env : Env} {consumed : Bytes} {state : ParserState} {byte : UInt8}

theorem MethodProgress.blank (progress : MethodProgress consumed state)
    (newline : byte = Byte.cr ∨ byte = Byte.lf)
    (empty : state.buf.contents = []) :
    MethodProgress (consumed ++ [byte]) state := by
  obtain ⟨blanks, newlines, rfl⟩ := progress.bytes
  refine { progress with bytes := ⟨blanks ++ [byte], ?_, by simp [empty]⟩ }
  intro candidate member
  rcases List.mem_append.mp member with earlier | last
  · exact newlines candidate earlier
  · rw [List.mem_singleton.mp last]
    exact newline

theorem MethodProgress.char (progress : MethodProgress consumed state) (byte : UInt8) :
    MethodProgress (consumed ++ [byte])
      { state with
        request := some state.currentRequest
        buf := bufferdataPush state.buf byte } := by
  obtain ⟨blanks, newlines, rfl⟩ := progress.bytes
  exact {
    request := progress.request
    seen := progress.seen.congr rfl rfl rfl
    bytes := ⟨blanks, newlines, by simp⟩ }

theorem MethodProgress.token (progress : MethodProgress consumed state) {method : Method}
    (token : setMethod state.buf.contents = some method) :
    UriProgress (consumed ++ [Byte.space])
      { state with
        stage := .uri
        request := some { state.currentRequest with method := method }
        buf := bufferdataReset (bufferdataComplete state.buf) } := by
  obtain ⟨blanks, newlines, rfl⟩ := progress.bytes
  exact {
    request := ⟨method, by
      rw [← progress.request]
      rfl⟩
    seen := progress.seen.congr rfl rfl rfl
    plain := by simp
    bytes := ⟨blanks, state.buf.contents, newlines, token, by simp⟩ }

theorem UriProgress.char (progress : UriProgress consumed state) (inToken : byte ≠ Byte.space)
    (printable : httpparserIsCtl byte = false) :
    UriProgress (consumed ++ [byte])
      { state with buf := bufferdataPush state.buf byte } := by
  obtain ⟨blanks, token, newlines, method, rfl⟩ := progress.bytes
  exact {
    request := progress.request
    seen := progress.seen.congr rfl rfl rfl
    plain := forall_mem_push progress.plain ⟨inToken, printable⟩
    bytes := ⟨blanks, token, newlines, method, by simp⟩ }

theorem UriProgress.token (progress : UriProgress consumed state) {request : Request}
    (token : httpparserSetUri state.currentRequest state.buf.contents = some request) :
    ProtocolProgress (consumed ++ [Byte.space])
      { state with
        stage := .protocol
        request := some request
        buf := bufferdataReset (bufferdataComplete state.buf) } := by
  obtain ⟨blanks, method, newlines, isMethod, rfl⟩ := progress.bytes
  obtain ⟨sameMethod, uri, headers, payload⟩ := httpparserSetUri_some token
  obtain ⟨given, created⟩ := progress.request
  exact {
    headers := by
      show request.headers = []
      rw [headers, created]
      rfl
    payload := by
      show request.payload = []
      rw [payload, created]
      rfl
    seen := progress.seen.congr rfl rfl rfl
    plain := by
      show ∀ byte ∈ request.uri, _
      rw [uri]
      exact progress.plain
    bytes := ⟨blanks, method, newlines, by
      show setMethod method = some request.method
      rw [sameMethod]
      exact isMethod, by
      show _ = blanks ++ method ++ [Byte.space] ++ request.uri ++ _ ++ _
      simp [uri]⟩ }

theorem ProtocolProgress.char (progress : ProtocolProgress consumed state) (byte : UInt8) :
    ProtocolProgress (consumed ++ [byte])
      { state with buf := bufferdataPush state.buf byte } := by
  obtain ⟨blanks, method, newlines, isMethod, rfl⟩ := progress.bytes
  exact {
    headers := progress.headers
    payload := progress.payload
    seen := progress.seen.congr rfl rfl rfl
    plain := progress.plain
    bytes := ⟨blanks, method, newlines, isMethod, by
      simp [ParserState.currentRequest]⟩ }

theorem ProtocolProgress.token (progress : ProtocolProgress consumed state) {version : Version}
    (token : setProtocol state.buf.contents = some version) :
    LineEndProgress (consumed ++ [Byte.cr])
      { state with
        stage := .newline1
        request := some { state.currentRequest with version := version }
        connection :=
          { state.connection with keepalive := version == .v11 }
        buf := bufferdataReset (bufferdataComplete state.buf) } := by
  obtain ⟨blanks, method, newlines, isMethod, rfl⟩ := progress.bytes
  exact {
    empty := rfl
    bytes := ⟨{
      line := {
        blanks := blanks
        method := method
        uri := state.currentRequest.uri
        protocol := state.buf.contents
        blanks_newline := newlines
        uri_plain := progress.plain }
      headers := [] }, {
        line := ⟨isMethod, rfl, token⟩
        headers := progress.headers
        payload := progress.payload
        seen := progress.seen.congr rfl rfl rfl },
      by simp [Head.renderLines, RequestLine.render]⟩ }

end LineSteps

theorem LinesRead.congr {head : Head} {pending : List Header} {state next : ParserState}
    (read : LinesRead head pending state) (sameRequest : next.currentRequest = state.currentRequest)
    (sameHost : next.hostHeaderSeen = state.hostHeaderSeen)
    (sameFound : next.contentLengthFound = state.contentLengthFound)
    (sameLength : next.contentLength = state.contentLength) :
    LinesRead head pending next where
  line := sameRequest ▸ read.line
  headers := sameRequest ▸ read.headers
  payload := sameRequest ▸ read.payload
  seen := read.seen.congr sameHost sameFound sameLength

@[simp]
theorem setLastValue_concat (headers : List Header) (last : Header) (value : Bytes) :
    setLastValue (headers ++ [last]) value = headers ++ [{ last with value := value }] := by
  simp [setLastValue]

section HeaderSteps

variable {env : Env} {consumed : Bytes} {state : ParserState} {byte : UInt8}

theorem LineEndProgress.newline (progress : LineEndProgress consumed state) :
    KeyProgress (consumed ++ [Byte.lf])
      { state with stage := .headerKey } := by
  obtain ⟨head, read, rendered⟩ := progress.bytes
  exact {
    plain := by simp [progress.empty]
    bytes := ⟨head, read.congr rfl rfl rfl rfl, by
      simp [rendered, progress.empty]⟩ }

theorem KeyProgress.char (progress : KeyProgress consumed state) (inToken : byte ≠ Byte.colon)
    (printable : httpparserIsCtl byte = false)
    (noSpace : isOws byte = false) :
    KeyProgress (consumed ++ [byte])
      { state with buf := bufferdataPush state.buf byte } := by
  obtain ⟨head, read, rfl⟩ := progress.bytes
  exact {
    plain := forall_mem_push progress.plain ⟨inToken, printable, noSpace⟩
    bytes := ⟨head, read.congr rfl rfl rfl rfl, by simp⟩ }

theorem KeyProgress.token (progress : KeyProgress consumed state)
    (nonempty : state.buf.contents ≠ []) :
    ValueProgress (consumed ++ [Byte.colon])
      { state with
        stage := .headerSpace
        headersCount := state.headersCount + 1
        request := some { state.currentRequest with
          headers := state.currentRequest.headers ++ [{ key := state.buf.contents, value := [] }] }
        buf := bufferdataReset (bufferdataComplete state.buf) } := by
  obtain ⟨head, read, rfl⟩ := progress.bytes
  exact {
    plain := by simp
    start := by simp
    bytes := ⟨head, state.buf.contents, [], {
        line := ⟨read.line.method, read.line.uri, read.line.protocol⟩
        headers := by
          show state.currentRequest.headers ++ _ = _
          rw [read.headers, List.append_nil]
        payload := read.payload
        seen := read.seen.congr rfl rfl rfl },
      nonempty, progress.plain, by simp, by simp⟩ }

theorem KeyProgress.blockEnd (progress : KeyProgress consumed state)
    (empty : state.buf.contents = []) :
    HeadEndProgress (consumed ++ [Byte.cr])
      { state with stage := .newline3 } := by
  obtain ⟨head, read, rfl⟩ := progress.bytes
  exact ⟨head, read.congr rfl rfl rfl rfl, by simp [empty, Head.render]⟩

theorem ValueProgress.pad (progress : ValueProgress consumed state)
    (empty : state.buf.contents = []) (space : isOws byte = true) :
    ValueProgress (consumed ++ [byte]) state := by
  obtain ⟨head, key, pad, read, nonempty, keyPlain, padSpace, rfl⟩ := progress.bytes
  refine { progress with
    bytes := ⟨head, key, pad ++ [byte], read, nonempty, keyPlain, ?_, by
      simp [empty]⟩ }
  intro candidate member
  rcases List.mem_append.mp member with earlier | last
  · exact padSpace candidate earlier
  · rw [List.mem_singleton.mp last]
    exact space

theorem ValueProgress.char (progress : ValueProgress consumed state)
    (start : state.buf.contents = [] → isOws byte = false)
    (printable : httpparserIsCtl byte = false) :
    ValueProgress (consumed ++ [byte])
      { state with
        stage := .headerValue
        buf := bufferdataPush state.buf byte } := by
  obtain ⟨head, key, pad, read, nonempty, keyPlain, padSpace, rfl⟩ := progress.bytes
  refine {
    plain := forall_mem_push progress.plain printable
    start := ?_
    bytes := ⟨head, key, pad, read.congr rfl rfl rfl rfl, nonempty, keyPlain, padSpace, by simp⟩ }
  intro candidate first
  rw [BufferData.contents_push] at first
  cases contents : state.buf.contents with
  | nil =>
    rw [contents] at first
    cases first
    exact start contents
  | cons head tail =>
    rw [contents] at first
    exact progress.start candidate (by rw [contents]; exact first)

theorem ValueProgress.token (progress : ValueProgress consumed state) {valued : ParserState}
    (accepted : HeaderAccepted env
        { state with
          stage := .headerValue
          buf := bufferdataComplete state.buf }
        state.currentRequest
        (completedHeader state.currentRequest (state.buf.contents.rdropWhile isOws))
        valued) :
    LineEndProgress (consumed ++ [Byte.cr])
      { valued with
        stage := .newline2
        buf := bufferdataReset valued.buf } := by
  obtain ⟨head, key, pad, read, nonempty, keyPlain, padSpace, rfl⟩ := progress.bytes
  let line : HeaderLine := {
    key := key
    pad := pad
    text := state.buf.contents
    key_ne := nonempty
    key_plain := keyPlain
    pad_space := padSpace
    text_plain := progress.plain
    text_start := progress.start }
  have header : completedHeader state.currentRequest
      (state.buf.contents.rdropWhile isOws) = line.header := by
    simp [completedHeader, read.headers, line, HeaderLine.header]
  rw [header] at accepted
  have seenBefore : HeadersSeen (head.headers.map HeaderLine.header)
      { state with
        stage := .headerValue
        buf := bufferdataComplete state.buf } :=
    read.seen.congr rfl rfl rfl
  have seen := seenBefore.concat accepted
  have valuedRequest : valued.currentRequest =
      requestWithValue state.currentRequest line.header.value := by
    obtain ⟨hostFound, server, contentLength, rfl⟩ := accepted.unchanged
    rfl
  obtain ⟨method, version, uri, payload, headers⟩ :=
    requestWithValue_fields state.currentRequest line.header.value
  rw [← valuedRequest] at method version uri payload headers
  exact {
    empty := rfl
    bytes := ⟨{ head with headers := head.headers ++ [line] }, {
        line := ⟨method ▸ read.line.method, uri.trans read.line.uri, version ▸ read.line.protocol⟩
        headers := by
          show valued.currentRequest.headers = _
          rw [headers, read.headers]
          simp [line, HeaderLine.header]
        payload := payload.trans read.payload
        seen := by
          rw [List.map_append]
          exact seen.congr rfl rfl rfl },
      by simp [Head.renderLines, HeaderLine.render, line]⟩ }

theorem HeadEndProgress.newline (progress : HeadEndProgress consumed state)
    (unsaved : state.contentSavedLength = 0)
    (hosted : state.currentRequest.version = .v11 → state.hostHeaderSeen = true) :
    PayloadProgress (consumed ++ [Byte.lf])
      { state with stage := .payload } := by
  obtain ⟨head, read, rendered⟩ := progress.bytes
  have headers : state.currentRequest.headers = head.headers.map HeaderLine.header := by
    rw [read.headers, List.append_nil]
  exact {
    hosted := hosted
    saved := by
      show state.contentSavedLength = state.currentRequest.payload.length
      rw [unsaved, read.payload, List.length_nil]
    bytes := ⟨head, ⟨read.line, headers⟩, by
        show HeadersSeen state.currentRequest.headers _
        rw [headers]
        exact read.seen.congr rfl rfl rfl, by
        show _ = _ ++ state.currentRequest.payload
        rw [rendered, read.payload, List.append_nil]⟩ }

end HeaderSteps

theorem HeadStep.progress {env : Env} {consumed : Bytes} {state next : ParserState} {byte : UInt8}
    (step : HeadStep env state byte next) (valid : state.Valid env)
    (progress : Progress consumed state) :
    Progress (consumed ++ [byte]) next := by
  have inHead := step.inHead
  cases step with
  | blank stage newline empty =>
    rw [progress_iff stage] at progress ⊢
    exact progress.blank newline empty
  | methodChar stage inToken notBlank =>
    rw [progress_iff stage] at progress
    exact .intro .method stage (progress.char byte)
  | methodEnd stage token =>
    rw [progress_iff stage] at progress
    exact progress.token token
  | uriChar stage inToken printable =>
    rw [progress_iff stage] at progress
    exact .intro .uri stage (progress.char inToken printable)
  | uriEnd stage token =>
    rw [progress_iff stage] at progress
    exact progress.token token
  | protocolChar stage inToken =>
    rw [progress_iff stage] at progress
    exact .intro .protocol stage (progress.char byte)
  | protocolEnd stage token =>
    rw [progress_iff stage] at progress
    exact progress.token token
  | lineEnd stage =>
    rcases stage with stage | stage
    · rw [progress_iff stage] at progress
      exact progress.newline
    · rw [progress_iff stage] at progress
      exact progress.newline
  | keyChar stage inToken printable noSpace =>
    rw [progress_iff stage] at progress
    exact .intro .headerKey stage (progress.char inToken printable noSpace)
  | keyEnd stage nonempty =>
    rw [progress_iff stage] at progress
    exact ⟨progress.token nonempty, rfl⟩
  | blockEnd stage empty =>
    rw [progress_iff stage] at progress
    exact progress.blockEnd empty
  | pad stage space =>
    rw [progress_iff stage] at progress
    exact (progress_iff stage).mpr ⟨progress.1.pad progress.2 space, progress.2⟩
  | valueChar stage printable =>
    have pushed : (bufferdataPush state.buf byte).contents ≠ [] := by simp
    rcases stage with ⟨stage, noSpace⟩ | stage
    · rw [progress_iff stage] at progress
      exact ⟨progress.1.char (fun _ => noSpace) printable, pushed⟩
    · rw [progress_iff stage] at progress
      exact ⟨progress.1.char (fun empty => absurd empty progress.2) printable, pushed⟩
  | valueEnd stage accepted =>
    rcases stage with stage | stage
    · rw [progress_iff stage] at progress
      exact progress.1.token accepted
    · rw [progress_iff stage] at progress
      exact progress.1.token accepted
  | bodyStart stage hosted announced allowed =>
    rw [progress_iff stage] at progress
    exact progress.newline (valid.saved inHead) hosted

/-! ## Complete messages -/

theorem PayloadProgress.isMessage (progress : PayloadProgress consumed state)
    (complete : state.contentSavedLength = state.contentLength)
    (bounded : state.contentLength ≤ env.clientMaxBodySize)
    (allowed : state.contentLength ≠ 0 → httprequestAllowPayload state.currentRequest = true) :
    IsMessage env consumed state.currentRequest := by
  obtain ⟨head, gives, seen, rfl⟩ := progress.bytes
  have bodyLength : state.currentRequest.payload.length = state.contentLength :=
    progress.saved.symm.trans complete
  have hostCount := seen.hostSeen
  have lengthCount := seen.lengthFound
  refine {
    framed := {
      noTransferEncoding := seen.noTransferEncoding
      lengthOnce := by rw [lengthCount]; split <;> decide
      lengthDigits := seen.lengthDigits
      hostOnce := by rw [hostCount]; split <;> decide
      hostGiven := fun version => by
        rw [hostCount, progress.hosted version, if_pos rfl]
      bodyLength := bodyLength.trans seen.length
      bodyLimit := bodyLength ▸ bounded
      bodyAllowed := fun nonempty => allowed fun empty => ?_ }
    layout := ⟨head, gives, rfl⟩ }
  rw [empty, List.length_eq_zero_iff] at bodyLength
  exact nonempty bodyLength

theorem PayloadProgress.byte {consumed : Bytes} {state : ParserState}
    (progress : PayloadProgress consumed state) (byte : UInt8) :
    PayloadProgress (consumed ++ [byte]) (state.withPayload [byte]) := by
  obtain ⟨head, gives, seen, rfl⟩ := progress.bytes
  exact {
    hosted := progress.hosted
    saved := by
      simp [ParserState.withPayload, ParserState.currentRequest,
        ParserState.requestWithPayload, progress.saved]
    bytes := ⟨head, {
        line := ⟨gives.line.method, gives.line.uri, gives.line.protocol⟩
        headers := gives.headers },
      seen.congr rfl rfl rfl, by
      simp [ParserState.withPayload, ParserState.currentRequest, ParserState.requestWithPayload]⟩ }

/-- What one byte does to the message in progress. -/
inductive StepTiles (env : Env) (consumed : Bytes) : ParserState × Option ReadEvent → Prop where
  | goesOn {next : ParserState} (progress : Progress consumed next) :
      StepTiles env consumed (next, none)
  | completes {request : Request} (connection : ParserConnection)
      (message : IsMessage env consumed request) :
      StepTiles env consumed (httpparserInit env connection, some (.dispatch request))
  | rejects (connection : ParserConnection) (status : Nat) : StepTiles env consumed
        (httpparserInit env connection, some (.reject status))

theorem requestMachine_step_tiles (valid : state.Valid env)
    (progress : Progress consumed state) (byte : UInt8) :
    StepTiles env (consumed ++ [byte]) ((requestMachine env).step state byte) := by
  by_cases stage : state.stage = .payload
  · rw [progress_iff stage] at progress
    have extended := PayloadProgress.byte progress byte
    rw [requestMachine_step_payload env stage]
    split
    · rename_i last
      exact .completes _ (extended.isMessage last valid.contentLength_le
        fun _ => (valid.payload stage).1)
    · exact .goesOn (.intro .payload stage extended)
  · have spec := parserByte_spec env byte stage
    have step : (requestMachine env).step state byte =
        headOutcome env (parserByte env state byte) := by
      simp only [requestMachine, stage, if_false]
    rw [step]
    cases result : parserByte env state byte with
    | next next =>
      rw [result] at spec
      exact .goesOn (spec.progress valid progress)
    | fail connection status =>
      rw [result] at spec
      obtain ⟨-, rfl | rfl⟩ := spec
      · exact .rejects connection 400
      · exact .rejects connection 404
    | headersEnd next =>
      rw [result] at spec
      obtain ⟨atEnd, rfl, hosted, bodiless, rfl⟩ := spec
      rw [progress_iff atEnd] at progress
      have unsaved := valid.saved stage
      have message := HeadEndProgress.newline progress unsaved hosted
      exact .completes _ (message.isMessage (unsaved.trans bodiless.symm)
        valid.contentLength_le fun announced => absurd bodiless announced)

/-! ## Whole streams -/

/-- A run of the machine tiles the bytes that it reads, and leaves the bytes of
the message in progress. -/
theorem requestMachine_run_tiles (valid : state.Valid env)
    (progress : Progress consumed state) (word : Bytes) :
    ∃ left : Bytes, Progress left ((requestMachine env).run state word).state ∧
        ∀ rest events, Tiles env (left ++ rest) events → Tiles env (consumed ++ word ++ rest)
            (((requestMachine env).run state word).events ++ events) := by
  induction word generalizing consumed state with
  | nil => exact ⟨consumed, progress, fun rest events tail => by simpa⟩
  | cons byte word ih =>
    have nextValid := requestMachine_step_valid env state byte valid
    have tiles := requestMachine_step_tiles valid progress byte
    rcases stepped : (requestMachine env).step state byte with ⟨next, event⟩
    rw [stepped] at nextValid tiles
    cases tiles with
    | goesOn nextProgress =>
      obtain ⟨left, leftProgress, tail⟩ := ih nextValid nextProgress
      rw [(requestMachine env).run_cons_silent stepped]
      refine ⟨left, leftProgress, fun rest events tiled => ?_⟩
      simpa using tail rest events tiled
    | completes connection message =>
      obtain ⟨left, leftProgress, tail⟩ := ih nextValid (httpparserInit_progress env connection)
      rw [(requestMachine env).run_cons_event stepped rfl]
      refine ⟨left, leftProgress, fun rest events tiled => ?_⟩
      have tiles := Tiles.message message (tail rest events tiled)
      simpa [Outcome.after] using tiles
    | rejects connection status =>
      rw [(requestMachine env).run_cons_halt stepped rfl]
      refine ⟨[], httpparserInit_progress env connection, fun rest events tiled => ?_⟩
      exact .rejected tiled

variable {Ext : Type}

theorem readStream_tiles_of_progress (env : Env) (layer : ConnectionLayer Ext)
    {buffers : List Bytes} (cut : IsReadCut buffers)
    {device : ParserState × Ext} (follows : Follows env device state)
    (valid : state.Valid env) (progress : Progress consumed state) :
    Tiles env (consumed ++ buffers.flatten) (readStream env layer device buffers) := by
  induction buffers generalizing device state consumed with
  | nil => exact .unfinished _
  | cons buffer buffers ih =>
    have agreement := readBuffer_agrees env layer device state buffer
      follows (cut buffer List.mem_cons_self)
    have reachedValid := (requestMachine env).run_invariant
      (ParserState.Valid env) (requestMachine_step_valid env)
      state valid buffer
    obtain ⟨left, leftProgress, tiles⟩ := requestMachine_run_tiles valid progress buffer
    have laterCut : IsReadCut buffers := fun later member =>
      cut later (List.mem_cons_of_mem _ member)
    have tail := tiles buffers.flatten _ (ih laterCut agreement.states reachedValid leftProgress)
    rw [List.flatten_cons, ← List.append_assoc]
    rw [← agreement.events] at tail
    exact tail

/-- The requests that the parser hands to the handler stage tile the received
stream. -/
theorem readStream_tiles (env : Env) (layer : ConnectionLayer Ext)
    (connection : ParserConnection) (ext : Ext) {buffers : List Bytes}
    (cut : IsReadCut buffers) :
    Tiles env buffers.flatten (readStream env layer (httpparserInit env connection, ext)
        buffers) := by
  have valid := httpparserInit_valid env connection
  have follows : Follows env (httpparserInit env connection, ext)
      (httpparserInit env connection) := .refl valid
  exact readStream_tiles_of_progress env layer cut follows valid
    (httpparserInit_progress env connection)

theorem readStream_tiles_post : Tiles (.plain [{ ip := 0, port := 80, domain := [ascii "a"] }])
      [ascii "POST / HTTP/1.1\r\nHost: a\r\nContent-Length: 2\r\n\r\nh", ascii "i"].flatten
      (readStream (.plain [{ ip := 0, port := 80, domain := [ascii "a"] }]) .idle (httpparserInit
          (.plain [{ ip := 0, port := 80, domain := [ascii "a"] }])
          { keepalive := false
            server := { ip := 0, port := 80, domain := [] } }, ())
        [ascii "POST / HTTP/1.1\r\nHost: a\r\nContent-Length: 2\r\n\r\nh", ascii "i"]) :=
  readStream_tiles _ .idle _ () (by decide)

end CWebFramework.Http
