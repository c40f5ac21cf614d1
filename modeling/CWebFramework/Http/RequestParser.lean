import CWebFramework.Http.Server
import CWebFramework.Misc.BufferData

/-!
# The HTTP/1 request parser

`httprequestparser.c`, one definition for each branch of its loop.  The parser
works on one read buffer at a time: `httpparserRun` starts at `pos_start`,
looks at one character after the other and returns at the end of the buffer,
at the end of a message or at the first error.

The fields that describe the message in progress are in `ParserState`; the
read buffer and the two positions in it are in `HttpRequestParser`.  PCRE and
libidn2 are parameters of the model.
-/

namespace CWebFramework.Http

def maxHeaderKeySize : Nat := 256

def maxHeaderValueSize : Nat := 8192

def maxUriSize : Nat := 32768

def maxHeadersCount : Nat := 100

def maxHostSize : Nat := 256

/-- `SIZE_MAX` of a 64-bit `size_t`. -/
def sizeMax : Nat := 2 ^ 64 - 1

/-- What the parser reads from the configuration, the connection and the
libraries. -/
structure Env where
  /-- `env()->main.client_max_body_size`, an `unsigned int`. -/
  clientMaxBodySize : Nat
  clientMaxBodySize_lt : clientMaxBodySize < 2 ^ 32
  /-- `pcre_exec` on a template and a subject. -/
  pcreExec : Bytes → Bytes → PcreMatch
  /-- `idn2_to_ascii_8z`; `none` stands for an error code. -/
  idn2ToAscii : Bytes → Option Bytes
  /-- `connection->ip`. -/
  ip : Nat
  /-- `connection->port`. -/
  port : Nat
  /-- `connection->ssl != NULL`. -/
  ssl : Bool
  /-- `SSL_get_servername(...) != NULL`. -/
  servername : Bool
  /-- `ctx->listener->servers`. -/
  servers : List Server

/-- A plain listener whose templates match a host when they are equal to
it. -/
def Env.plain (servers : List Server) : Env where
  clientMaxBodySize := 1024
  clientMaxBodySize_lt := by decide
  pcreExec template host :=
    if template = host then { count := 1, vector := [(0, host.length)] }
    else { count := -1, vector := [] }
  idn2ToAscii _ := none
  ip := 0
  port := 80
  ssl := false
  servername := false
  servers := servers

/-- The fields of the connection that the parser writes. -/
structure ParserConnection where
  keepalive : Bool
  /-- `ctx->server`. -/
  server : Server
  deriving DecidableEq, Repr

inductive Stage where
  | method
  | uri
  | protocol
  | newline1
  | headerKey
  | headerSpace
  | headerValue
  | newline2
  | newline3
  | payload
  deriving DecidableEq, Repr

/-- The results of `httpparser_run`. Allocations are assumed to succeed, so
`HTTP1PARSER_OUT_OF_MEMORY` is left out. -/
inductive ParserStatus where
  | error
  | continue
  | badRequest
  | hostNotFound
  | payloadLarge
  | handleAndContinue
  | complete
  deriving DecidableEq, Repr

structure ParserState where
  stage : Stage
  hostFound : Bool
  hostHeaderSeen : Bool
  contentLengthFound : Bool
  transferEncodingFound : Bool
  headersCount : Nat
  contentLength : Nat
  contentSavedLength : Nat
  request : Option Request
  buf : BufferData
  connection : ParserConnection
  deriving DecidableEq

/-- `httpparser_init` on the fields of the message. -/
def httpparserInit (env : Env) (connection : ParserConnection) : ParserState where
  stage := .method
  hostFound := env.ssl
  hostHeaderSeen := false
  contentLengthFound := false
  transferEncodingFound := false
  headersCount := 0
  contentLength := 0
  contentSavedLength := 0
  request := none
  buf := bufferdataInit
  connection := connection

/-! ## Tokens of the request line -/

def setMethod (token : Bytes) : Option Method :=
  if token = ascii "GET" then some .get
  else if token = ascii "PUT" then some .put
  else if token = ascii "POST" then some .post
  else if token = ascii "PATCH" then some .patch
  else if token = ascii "DELETE" then some .delete
  else if token = ascii "OPTIONS" then some .options
  else if token = ascii "HEAD" then some .head
  else none

def setProtocol (token : Bytes) : Option Version :=
  if token = ascii "HTTP/1.1" then some .v11
  else if token = ascii "HTTP/1.0" then some .v10
  else none

/-! ## Header values -/

def headerIsHost (header : Header) : Bool := cmpstrnLower header.key (ascii "host")

def headerIsContentLength (header : Header) : Bool :=
  cmpstrnLower header.key (ascii "content-length")

def headerIsTransferEncoding (header : Header) : Bool :=
  cmpstrnLower header.key (ascii "transfer-encoding")

def idnToAscii (env : Env) (domain : Bytes) : Option Bytes :=
  if domain.all (fun byte => decide (byte ≤ 127)) then some domain
  else env.idn2ToAscii domain

/-- The host name in a `Host` value: the port is cut off, and so are the
brackets of an IPv6 literal. `none` stands for a malformed literal. -/
def hostDomain (value : Bytes) : Option Bytes :=
  match cstring value with
  | [] => some []
  | first :: rest =>
    if first = Byte.openBracket then
      match rest.dropWhile (· != Byte.closeBracket) with
      | [] => none
      | _ :: [] => some (rest.takeWhile (· != Byte.closeBracket))
      | _ :: next :: _ =>
        if next = Byte.colon then
          some (rest.takeWhile (· != Byte.closeBracket))
        else
          none
    else
      some ((first :: rest).takeWhile (· != Byte.colon))

def serverMatchesHost (env : Env) (server : Server) (host : Bytes) : Bool :=
  server.domain.any fun template =>
    decide (0 < (env.pcreExec template host).count)

/-- The server that `__try_set_server` selects for a host name. On a TLS
connection with SNI only the current server is considered. -/
def selectServer (env : Env) (current : Server) (host : Bytes) : Option Server :=
  if env.ssl && env.servername then
    if serverMatchesHost env current host then some current else none
  else
    env.servers.find? fun server =>
      server.ip == env.ip && server.port == env.port && serverMatchesHost env server host

def trySetServer (env : Env) (state : ParserState) (header : Header) :
    Except ParserStatus ParserState :=
  if ! headerIsHost header then .ok state
  else if state.hostHeaderSeen then .error .badRequest
  else
    let state := { state with hostHeaderSeen := true }
    if header.value.length = 0 ∨ maxHostSize ≤ header.value.length then
      .error .badRequest
    else
      match hostDomain header.value with
      | none => .error .badRequest
      | some domain =>
        match idnToAscii env domain with
        | none => .error .hostNotFound
        | some asciiDomain =>
          match selectServer env state.connection.server asciiDomain with
          | none => .error .hostNotFound
          | some server =>
            .ok { state with
              hostFound := true
              connection :=
                { state.connection with server := server } }

/-- The tokens of a `Connection` value, without the whitespace around
them. -/
def connectionTokens (value : Bytes) : List Bytes :=
  (value.splitOn Byte.comma).map fun token =>
    (token.dropWhile isOws).rdropWhile isOws

/-- What `__try_set_keepalive` makes of the flag at one header. `close` wins
over `keep-alive`. -/
def keepaliveAfterHeader (keepalive : Bool) (header : Header) : Bool :=
  if cmpstrnLower header.key (ascii "connection") then
    let tokens := connectionTokens header.value
    if tokens.any (cmpstrnLower · (ascii "close")) then false
    else if tokens.any (cmpstrnLower · (ascii "keep-alive")) then true
    else keepalive
  else
    keepalive

def trySetKeepalive (state : ParserState) (header : Header) : ParserState :=
  { state with
    connection :=
      { state.connection with
        keepalive := keepaliveAfterHeader state.connection.keepalive header } }

def trySetRange (request : Request) (header : Header) : Request :=
  if cmpstrnLower header.key (ascii "range") then
    { request with ranges := httpparserParseRange header.value }
  else
    request

def trySetCookie (request : Request) (header : Header) : Request :=
  if cmpstrnLower header.key (ascii "cookie") then
    { request with cookies := cookieparserParse header.value }
  else
    request

def validateContentLength (env : Env) (value : Bytes) : Option Nat :=
  if value = [] then none
  else if ! value.all isdigit then none
  else
    match strtoull value with
    | none => none
    | some result =>
      if env.clientMaxBodySize < result then none else some result

/-- The `Content-Length` branch of `__set_header_value`. -/
def trySetContentLength (env : Env) (state : ParserState)
    (header : Header) : Except ParserStatus ParserState :=
  if ! headerIsContentLength header then .ok state
  else if state.contentLengthFound then .error .badRequest
  else if state.transferEncodingFound then .error .badRequest
  else
    match validateContentLength env header.value with
    | none => .error .badRequest
    | some validatedLength =>
      .ok { state with
        contentLength := validatedLength
        contentLengthFound := true }

/-- The `Transfer-Encoding` branch of `__set_header_value`. All three of its
paths reject. -/
def rejectTransferEncoding (state : ParserState) (header : Header) :
    Except ParserStatus ParserState :=
  if headerIsTransferEncoding header then .error .badRequest else .ok state

def setLastValue (headers : List Header) (value : Bytes) : List Header :=
  match headers.getLast? with
  | some last => headers.dropLast ++ [{ last with value := value }]
  | none => []

def setHeaderKey (state : ParserState) (request : Request) : Except ParserStatus ParserState :=
  let key := bufferdataGet state.buf
  if maxHeadersCount ≤ state.headersCount then .error .badRequest
  else if key.length = 0 then .error .badRequest
  else
    .ok { state with
      headersCount := state.headersCount + 1
      request := some { request with
        headers := request.headers ++ [{ key := key, value := [] }] } }

def setHeaderValue (env : Env) (state : ParserState) (request : Request) :
    Except ParserStatus ParserState := do
  let value := (bufferdataGet state.buf).rdropWhile isOws
  let headers := setLastValue request.headers value
  let header := headers.getLast?.getD { key := [], value := value }
  let request := { request with headers := headers }
  let state ← trySetServer env state header
  let state := trySetKeepalive state header
  let request := trySetCookie (trySetRange request header) header
  let state ← trySetContentLength env state header
  let state ← rejectTransferEncoding state header
  return { state with request := some request }

/-! ## One character -/

/-- What one character does: the loop goes on, the parser is cleared and
returns an error, or the head of a message without a body is complete. -/
inductive ByteResult where
  | next (state : ParserState)
  | fail (connection : ParserConnection) (status : ParserStatus)
  | headersEnd (state : ParserState)

/-- `__clear_and_return` for the error of a helper. -/
def ByteResult.ofExcept (connection : ParserConnection) (result : Except ParserStatus ParserState)
    (next : ParserState → ParserState) : ByteResult :=
  match result with
  | .ok state => .next (next state)
  | .error status => .fail connection status

/-- The request in progress. The pointer is set from the first character of
the request line on. -/
def ParserState.currentRequest (state : ParserState) : Request :=
  state.request.getD httprequestCreate

def methodByte (state : ParserState) (byte : UInt8) : ByteResult :=
  if (byte = Byte.cr ∨ byte = Byte.lf) ∧ bufferdataWrited state.buf = 0 then
    .next state
  else
    let request := state.currentRequest
    if byte = Byte.space then
      match setMethod (bufferdataGet (bufferdataComplete state.buf)) with
      | none => .fail state.connection .badRequest
      | some method =>
        .next { state with
          stage := .uri
          request := some { request with method := method }
          buf := bufferdataReset (bufferdataComplete state.buf) }
    else if 7 ≤ bufferdataWrited state.buf then
      .fail state.connection .badRequest
    else
      .next { state with
        request := some request
        buf := bufferdataPush state.buf byte }

def uriByte (state : ParserState) (byte : UInt8) : ByteResult :=
  if byte = Byte.space then
    let buf := bufferdataComplete state.buf
    match httpparserSetUri state.currentRequest (bufferdataGet buf) with
    | none => .fail state.connection .badRequest
    | some request =>
      .next { state with
        stage := .protocol
        request := some request
        buf := bufferdataReset buf }
  else if httpparserIsCtl byte then
    .fail state.connection .badRequest
  else if maxUriSize ≤ bufferdataWrited state.buf then
    .fail state.connection .badRequest
  else
    .next { state with buf := bufferdataPush state.buf byte }

/-- `HTTP1REQUESTPARSER_PROTOCOL`. The version sets the default of the
keep-alive flag. -/
def protocolByte (state : ParserState) (byte : UInt8) : ByteResult :=
  if byte = Byte.cr then
    let buf := bufferdataComplete state.buf
    match setProtocol (bufferdataGet buf) with
    | none => .fail state.connection .badRequest
    | some version =>
      .next { state with
        stage := .newline1
        request := some { state.currentRequest with version := version }
        connection :=
          { state.connection with keepalive := version == .v11 }
        buf := bufferdataReset buf }
  else if 8 ≤ bufferdataWrited state.buf then
    .fail state.connection .badRequest
  else
    .next { state with buf := bufferdataPush state.buf byte }

def newlineByte (state : ParserState) (byte : UInt8) : ByteResult :=
  if byte = Byte.lf then .next { state with stage := .headerKey }
  else .fail state.connection .badRequest

def headerKeyByte (state : ParserState) (byte : UInt8) : ByteResult :=
  if byte = Byte.cr then
    if 0 < bufferdataWrited state.buf then
      .fail state.connection .badRequest
    else
      .next { state with stage := .newline3 }
  else if byte = Byte.colon then
    let state := { state with buf := bufferdataComplete state.buf }
    .ofExcept state.connection (setHeaderKey state state.currentRequest) fun keyed =>
        { keyed with
          stage := .headerSpace
          buf := bufferdataReset keyed.buf }
  else if httpparserIsCtl byte || isOws byte then
    .fail state.connection .badRequest
  else if maxHeaderKeySize ≤ bufferdataWrited state.buf then
    .fail state.connection .badRequest
  else
    .next { state with buf := bufferdataPush state.buf byte }

def headerValueByte (env : Env) (state : ParserState) (byte : UInt8) :
    ByteResult :=
  if byte = Byte.cr then
    let state := { state with buf := bufferdataComplete state.buf }
    .ofExcept state.connection (setHeaderValue env state state.currentRequest) fun valued =>
        { valued with
          stage := .newline2
          buf := bufferdataReset valued.buf }
  else if httpparserIsCtl byte then
    .fail state.connection .badRequest
  else if maxHeaderValueSize ≤ bufferdataWrited state.buf then
    .fail state.connection .badRequest
  else
    .next { state with buf := bufferdataPush state.buf byte }

/-- `HTTP1REQUESTPARSER_HEADER_SPACE`, which falls through to the value at the
first character that is not whitespace. -/
def headerSpaceByte (env : Env) (state : ParserState) (byte : UInt8) :
    ByteResult :=
  if isOws byte then .next state
  else headerValueByte env { state with stage := .headerValue } byte

def newline3Byte (state : ParserState) (byte : UInt8) : ByteResult :=
  if byte = Byte.lf then
    let request := state.currentRequest
    let state := { state with stage := .payload }
    if request.version = .v11 ∧ state.hostHeaderSeen = false then
      .fail state.connection .badRequest
    else if state.contentLength = 0 then
      .headersEnd state
    else if ! httprequestAllowPayload request then
      .fail state.connection .badRequest
    else
      .next state
  else
    .fail state.connection .badRequest

def parserByte (env : Env) (state : ParserState) (byte : UInt8) :
    ByteResult :=
  match state.stage with
  | .method => methodByte state byte
  | .uri => uriByte state byte
  | .protocol => protocolByte state byte
  | .newline1 => newlineByte state byte
  | .headerKey => headerKeyByte state byte
  | .headerSpace => headerSpaceByte env state byte
  | .headerValue => headerValueByte env state byte
  | .newline2 => newlineByte state byte
  | .newline3 => newline3Byte state byte
  | .payload => .fail state.connection .error

/-! ## One read buffer -/

/-- `httprequestparser_t`. `buffer` holds the first `bytes_readed` bytes of the
connection's buffer. -/
structure HttpRequestParser where
  state : ParserState
  buffer : Bytes
  posStart : Nat
  pos : Nat

/-- `httpparser_reset`, and `__clear`, which frees the request as well. -/
def httpparserReset (env : Env) (connection : ParserConnection) : HttpRequestParser where
  state := httpparserInit env connection
  buffer := []
  posStart := 0
  pos := 0

def httpparserPrepareContinue (env : Env) (parser : HttpRequestParser) : HttpRequestParser where
  state :=
    { parser.state with
      buf := bufferdataClear parser.state.buf
      stage := .method
      contentLength := 0
      contentLengthFound := false
      transferEncodingFound := false
      hostHeaderSeen := false
      headersCount := 0
      contentSavedLength := 0
      request := none
      hostFound := env.ssl }
  buffer := parser.buffer
  posStart := parser.pos
  pos := parser.pos

def clearAndReturn (env : Env) (connection : ParserConnection)
    (status : ParserStatus) : HttpRequestParser × ParserStatus :=
  (httpparserReset env connection, status)

/-- `__parse_payload` once the size of the piece is known. -/
def savePayload (parser : HttpRequestParser) (request : Request)
    (stringLen : Nat) : HttpRequestParser :=
  { parser with
    state :=
      { parser.state with
        contentSavedLength := parser.state.contentSavedLength + stringLen
        request := some { request with
          payload := request.payload ++ (parser.buffer.drop parser.pos).take stringLen } } }

def parsePayload (env : Env) (parser : HttpRequestParser) : HttpRequestParser × ParserStatus :=
  let state := parser.state
  let fail := clearAndReturn env state.connection
  match state.request with
  | none => fail .error
  | some request =>
    let available := parser.buffer.length - parser.pos
    let saved := state.contentSavedLength
    if ! httprequestAllowPayload request then fail .badRequest
    else if parser.buffer.length < parser.pos then fail .error
    else if sizeMax - saved < available then fail .error
    else if state.contentLength < available + saved then
      let stringLen := state.contentLength - saved
      if env.clientMaxBodySize < saved + stringLen then fail .payloadLarge
      else
        let parser := savePayload parser request stringLen
        ({ parser with pos := parser.pos + stringLen }, .handleAndContinue)
    else if env.clientMaxBodySize < saved + available then
      fail .payloadLarge
    else
      let parser := savePayload parser request available
      if saved + available = state.contentLength then (parser, .complete)
      else (parser, .continue)

/-- The loop of `httpparser_run` over the rest of the buffer. -/
def httpparserLoop (env : Env) (parser : HttpRequestParser) :
    Bytes → HttpRequestParser × ParserStatus
  | [] => (parser, .continue)
  | byte :: rest =>
    if parser.state.stage = .payload then parsePayload env parser
    else
      match parserByte env parser.state byte with
      | .next state =>
        httpparserLoop env
          { parser with state := state, pos := parser.pos + 1 } rest
      | .fail connection status => clearAndReturn env connection status
      | .headersEnd state =>
        if parser.pos + 1 < parser.buffer.length then
          ({ parser with state := state, pos := parser.pos + 1 }, .handleAndContinue)
        else
          ({ parser with state := state }, .complete)

def httpparserRun (env : Env) (parser : HttpRequestParser) : HttpRequestParser × ParserStatus :=
  if parser.state.stage = .payload then parsePayload env parser
  else
    httpparserLoop env { parser with pos := parser.posStart } (parser.buffer.drop parser.posStart)

end CWebFramework.Http
