import CWebFramework.Http.Framing

/-!
# Reading a request line

What `httpparser_run` makes of the bytes of a request line: the request with its
method, its target and its version, in front of the first header.
-/

namespace CWebFramework.Http

/-- The request behind a request line, if the parser accepts the line and waits
for a header. -/
def requestOfLine (env : Env) (connection : ParserConnection) (line : Bytes) : Option Request :=
  match httpparserRun env
    { httpparserReset env connection with buffer := line } with
  | (parser, .continue) =>
    if parser.state.stage = .headerKey then parser.state.request else none
  | _ => none

/-- The parser is in a stage, with the bytes of a token and a request. -/
structure ParserState.InToken (state : ParserState) (stage : Stage)
    (token : Bytes) (request : Request) : Prop where
  stage : state.stage = stage
  token : state.buf.contents = token
  request : state.currentRequest = request

section Loop

variable (env : Env) {parser : HttpRequestParser} {token : Bytes}
  {request : Request}

theorem httpparserLoop_next {byte : UInt8} {next : ParserState}
    (inHead : parser.state.stage ≠ .payload)
    (step : parserByte env parser.state byte = .next next) (rest : Bytes) :
    httpparserLoop env parser (byte :: rest) =
      httpparserLoop env { parser with state := next, pos := parser.pos + 1 }
        rest := by
  rw [httpparserLoop, if_neg inHead, step]

theorem httpparserLoop_fail {byte : UInt8} {connection : ParserConnection}
    {status : ParserStatus} (inHead : parser.state.stage ≠ .payload)
    (step : parserByte env parser.state byte = .fail connection status)
    (rest : Bytes) :
    httpparserLoop env parser (byte :: rest) =
      clearAndReturn env connection status := by
  rw [httpparserLoop, if_neg inHead, step]

/-- A stage collects the bytes of its token up to a limit. -/
def Collects (stage : Stage) (plain : UInt8 → Prop) (limit : Nat) : Prop :=
  ∀ (state : ParserState) (token : Bytes) (request : Request) (byte : UInt8),
    state.InToken stage token request → plain byte → token.length < limit →
      ∃ next, parserByte env state byte = .next next ∧
        next.InToken stage (token ++ [byte]) request

private theorem collects_method : Collects env .method
      (fun byte => byte ≠ Byte.space ∧ byte ≠ Byte.cr ∧ byte ≠ Byte.lf) 7 := by
  rintro state token request byte inToken ⟨notSpace, notCr, notLf⟩ room
  refine ⟨{ state with
    request := some request
    buf := bufferdataPush state.buf byte }, ?_, ?_⟩
  · simp [parserByte, inToken.stage, methodByte, notSpace, notCr, notLf,
      inToken.token, inToken.request, Nat.not_le.mpr room]
  · exact ⟨inToken.stage, by simp [inToken.token], rfl⟩

theorem collects_uri : Collects env .uri
      (fun byte => byte ≠ Byte.space ∧ httpparserIsCtl byte = false)
      maxUriSize := by
  rintro state token request byte inToken ⟨notSpace, printable⟩ room
  refine ⟨{ state with buf := bufferdataPush state.buf byte }, ?_, ?_⟩
  · simp [parserByte, inToken.stage, uriByte, notSpace, printable,
      inToken.token, Nat.not_le.mpr room]
  · exact ⟨inToken.stage, by simp [inToken.token], inToken.request⟩

private theorem collects_protocol : Collects env .protocol (fun byte => byte ≠ Byte.cr) 8 := by
  intro state token request byte inToken notCr room
  refine ⟨{ state with buf := bufferdataPush state.buf byte }, ?_, ?_⟩
  · simp [parserByte, inToken.stage, protocolByte, notCr, inToken.token, Nat.not_le.mpr room]
  · exact ⟨inToken.stage, by simp [inToken.token], inToken.request⟩

theorem httpparserLoop_token {stage : Stage} {plain : UInt8 → Prop} {limit : Nat}
    (collects : Collects env stage plain limit) (inHead : stage ≠ .payload) {text : Bytes}
    (inToken : parser.state.InToken stage token request) (allPlain : ∀ byte ∈ text, plain byte)
    (short : token.length + text.length ≤ limit) (rest : Bytes) :
    ∃ next : HttpRequestParser, httpparserLoop env parser (text ++ rest) =
          httpparserLoop env next rest ∧
        next.state.InToken stage (token ++ text) request := by
  induction text generalizing parser token with
  | nil => exact ⟨parser, rfl, by rwa [List.append_nil]⟩
  | cons byte text ih =>
    obtain ⟨isPlain, others⟩ := List.forall_mem_cons.mp allPlain
    rw [List.length_cons] at short
    obtain ⟨next, step, reached⟩ :=
      collects parser.state token request byte inToken isPlain (by omega)
    have started := httpparserLoop_next env
      (by rw [inToken.stage]; exact inHead) step (text ++ rest)
    obtain ⟨last, run, final⟩ :=
      @ih
        { parser with state := next, pos := parser.pos + 1 }
        (token ++ [byte]) reached others
        (by rw [List.length_append, List.length_singleton]; omega)
    refine ⟨last, started.trans run, ?_⟩
    rwa [List.append_assoc] at final

theorem httpparserLoop_uri_long {text : Bytes} (inToken : parser.state.InToken .uri [] request)
    (plain : ∀ byte ∈ text, byte ≠ Byte.space ∧ httpparserIsCtl byte = false)
    (long : maxUriSize < text.length) (rest : Bytes) :
    ∃ connection, httpparserLoop env parser (text ++ rest) =
      clearAndReturn env connection .badRequest := by
  have firstLength : (text.take maxUriSize).length = maxUriSize := by
    rw [List.length_take]
    omega
  obtain ⟨last, run, reached⟩ :=
    httpparserLoop_token env (collects_uri env) (by decide) inToken
      (fun byte member => plain byte (List.mem_of_mem_take member))
      (by rw [firstLength, List.length_nil, Nat.zero_add])
      (text.drop maxUriSize ++ rest)
  cases excess : text.drop maxUriSize with
  | nil => exact absurd (List.drop_eq_nil_iff.mp excess) (Nat.not_le.mpr long)
  | cons byte others =>
    have member : byte ∈ text := List.mem_of_mem_drop (excess ▸ List.mem_cons_self)
    obtain ⟨notSpace, printable⟩ := plain byte member
    have full : last.state.buf.contents.length = maxUriSize := by
      rw [reached.token, List.nil_append, firstLength]
    have step : parserByte env last.state byte = .fail last.state.connection .badRequest := by
      rw [parserByte, reached.stage]
      simp [uriByte, notSpace, printable, full]
    refine ⟨last.state.connection, ?_⟩
    rw [← List.append_assoc, List.take_append_drop, excess, List.cons_append] at run
    rw [run]
    exact httpparserLoop_fail env (by rw [reached.stage]; decide) step _

private theorem httpparserLoop_methodEnd {method : Method}
    (inToken : parser.state.InToken .method token request)
    (isMethod : setMethod token = some method) (rest : Bytes) :
    ∃ next : HttpRequestParser, httpparserLoop env parser (Byte.space :: rest) =
          httpparserLoop env next rest ∧
        next.state.InToken .uri [] { request with method := method } := by
  have step : parserByte env parser.state Byte.space = .next { parser.state with
        stage := .uri
        request := some { request with method := method }
        buf := bufferdataReset (bufferdataComplete parser.state.buf) } := by
    have notBlank : ¬ (Byte.space = Byte.cr ∨ Byte.space = Byte.lf) := by
      decide
    simp [parserByte, inToken.stage, methodByte, notBlank, inToken.token, inToken.request, isMethod]
  exact ⟨_, httpparserLoop_next env (by rw [inToken.stage]; decide) step rest, rfl, rfl, rfl⟩

theorem httpparserLoop_uriEnd {next : Request} (inToken : parser.state.InToken .uri token request)
    (isUri : httpparserSetUri request token = some next) (rest : Bytes) :
    ∃ last : HttpRequestParser, httpparserLoop env parser (Byte.space :: rest) =
          httpparserLoop env last rest ∧
        last.state.InToken .protocol [] next := by
  have step : parserByte env parser.state Byte.space = .next { parser.state with
        stage := .protocol
        request := some next
        buf := bufferdataReset (bufferdataComplete parser.state.buf) } := by
    rw [parserByte, inToken.stage]
    simp [uriByte, inToken.token, inToken.request, isUri]
  exact ⟨_, httpparserLoop_next env (by rw [inToken.stage]; decide) step rest, rfl, rfl, rfl⟩

private theorem httpparserLoop_uriEnd_fail (inToken : parser.state.InToken .uri token request)
    (notUri : httpparserSetUri request token = none) (rest : Bytes) :
    httpparserLoop env parser (Byte.space :: rest) =
      clearAndReturn env parser.state.connection .badRequest := by
  have step : parserByte env parser.state Byte.space =
      .fail parser.state.connection .badRequest := by
    rw [parserByte, inToken.stage]
    simp [uriByte, inToken.token, inToken.request, notUri]
  exact httpparserLoop_fail env (by rw [inToken.stage]; decide) step rest

theorem httpparserLoop_lineEnd {version : Version}
    (inToken : parser.state.InToken .protocol token request)
    (isProtocol : setProtocol token = some version) :
    ∃ last : HttpRequestParser, httpparserLoop env parser [Byte.cr, Byte.lf] = (last, .continue) ∧
        last.state.stage = .headerKey ∧
        last.state.request = some { request with version := version } := by
  have first : parserByte env parser.state Byte.cr = .next { parser.state with
        stage := .newline1
        request := some { request with version := version }
        connection :=
          { parser.state.connection with keepalive := version == .v11 }
        buf := bufferdataReset (bufferdataComplete parser.state.buf) } := by
    rw [parserByte, inToken.stage]
    simp [protocolByte, inToken.token, inToken.request, isProtocol]
  exact ⟨_, (httpparserLoop_next env (by rw [inToken.stage]; decide) first
    [Byte.lf]).trans (httpparserLoop_next env (by simp) rfl []), rfl, rfl⟩

end Loop

/-! ## The whole line -/

theorem setMethod_plain {token : Bytes} {method : Method}
    (isMethod : setMethod token = some method) :
    token.length ≤ 7 ∧ ∀ byte ∈ token, byte ≠ Byte.space ∧ byte ≠ Byte.cr ∧ byte ≠ Byte.lf := by
  unfold setMethod at isMethod
  split_ifs at isMethod with isGet isPut isPost isPatch isDelete isOptions isHead
  all_goals
    subst token
    exact ⟨by decide, forall_mem_of_all (by decide)⟩

theorem setProtocol_plain {token : Bytes} {version : Version}
    (isProtocol : setProtocol token = some version) :
    token.length = 8 ∧ ∀ byte ∈ token, byte ≠ Byte.cr := by
  unfold setProtocol at isProtocol
  split_ifs at isProtocol with isFirst isSecond
  all_goals
    subst token
    exact ⟨by decide, forall_mem_of_all (by decide)⟩

theorem requestOfLine_render (env : Env) (connection : ParserConnection) {line : RequestLine}
    {method : Method} {version : Version} (noBlanks : line.blanks = [])
    (isMethod : setMethod line.method = some method)
    (isProtocol : setProtocol line.protocol = some version) :
    requestOfLine env connection line.render =
      if line.uri.length ≤ maxUriSize then
        (httpparserSetUri { httprequestCreate with method := method }
          line.uri).map ({ · with version := version })
      else none := by
  obtain ⟨methodShort, methodPlain⟩ := setMethod_plain isMethod
  obtain ⟨protocolShort, protocolPlain⟩ := setProtocol_plain isProtocol
  have bytes : line.render = line.method ++ Byte.space :: (line.uri ++
      Byte.space :: (line.protocol ++ [Byte.cr, Byte.lf])) := by
    simp [RequestLine.render, noBlanks]
  have fresh : HttpRequestParser.state
      { httpparserReset env connection with
        buffer := line.render } |>.InToken .method [] httprequestCreate :=
    ⟨rfl, rfl, rfl⟩
  obtain ⟨inMethod, methodRun, atMethod⟩ :=
    httpparserLoop_token env (collects_method env) (by decide) fresh
      methodPlain (by simpa using methodShort)
      (Byte.space :: (line.uri ++ Byte.space :: (line.protocol ++ [Byte.cr, Byte.lf])))
  obtain ⟨inUri, methodEnd, atUri⟩ :=
    httpparserLoop_methodEnd env atMethod isMethod
      (line.uri ++ Byte.space :: (line.protocol ++ [Byte.cr, Byte.lf]))
  have started : httpparserRun env
      { httpparserReset env connection with buffer := line.render } =
        httpparserLoop env inUri (line.uri ++
          Byte.space :: (line.protocol ++ [Byte.cr, Byte.lf])) := by
    refine Eq.trans ?_ (methodRun.trans methodEnd)
    rw [← bytes]
    rfl
  unfold requestOfLine
  rw [started]
  split_ifs with short
  · obtain ⟨behindUri, uriRun, atUriEnd⟩ :=
      httpparserLoop_token env (collects_uri env) (by decide) atUri
        line.uri_plain (by simpa using short)
        (Byte.space :: (line.protocol ++ [Byte.cr, Byte.lf]))
    rw [uriRun]
    cases target : httpparserSetUri { httprequestCreate with method := method } line.uri with
    | none =>
      rw [httpparserLoop_uriEnd_fail env atUriEnd target]
      rfl
    | some request =>
      obtain ⟨inProtocol, uriEnd, atProtocol⟩ :=
        httpparserLoop_uriEnd env atUriEnd target (line.protocol ++ [Byte.cr, Byte.lf])
      obtain ⟨behindProtocol, protocolRun, atProtocolEnd⟩ :=
        httpparserLoop_token env (collects_protocol env) (by decide)
          atProtocol protocolPlain (by simp [protocolShort])
          [Byte.cr, Byte.lf]
      obtain ⟨last, lineEnd, atHeader, isRequest⟩ :=
        httpparserLoop_lineEnd env atProtocolEnd isProtocol
      rw [uriEnd, protocolRun, lineEnd]
      dsimp only
      rw [if_pos atHeader, isRequest]
      rfl
  · obtain ⟨failed, run⟩ := httpparserLoop_uri_long env atUri line.uri_plain
      (Nat.not_le.mp short) (Byte.space :: (line.protocol ++ [Byte.cr, Byte.lf]))
    rw [run]
    rfl

end CWebFramework.Http
