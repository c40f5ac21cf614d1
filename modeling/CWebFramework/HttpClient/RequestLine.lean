import CWebFramework.Http.RequestLineRead
import CWebFramework.HttpClient.Url

/-!
# The request line of the HTTP client

The line in front of a request of the client, and what the parser of the server
reads from it.  The uri in the line is put together from the decoded path, so
that a byte which was escaped in the URL stands in the line as it is.
-/

namespace CWebFramework.HttpClient

open Http

def httprequestMethodString : Method → Option Bytes
  | .none => none
  | .get => some (ascii "GET")
  | .post => some (ascii "POST")
  | .put => some (ascii "PUT")
  | .delete => some (ascii "DELETE")
  | .options => some (ascii "OPTIONS")
  | .patch => some (ascii "PATCH")
  | .head => some (ascii "HEAD")

/-- The first line of `httprequest_create_head`. -/
def requestLine (method uri : Bytes) : Bytes := method ++ ascii " " ++ uri ++ ascii " HTTP/1.1\r\n"

def httprequestCreateHead (request : Request) : Option Bytes :=
  (httprequestMethodString request.method).map fun method =>
    requestLine method request.uri ++ request.headers.flatMap (fun header =>
        header.key ++ ascii ": " ++ header.value ++ ascii "\r\n") ++
      ascii "\r\n"

/-- `__httpclient_set_request_uri`. The strings move from the parser to the
request; without them `strlen` reads from `NULL`. -/
def setRequestUri (method : Method) (request : Request) (parser : UrlParser) :
    Option (Request × UrlParser) :=
  match parser.uri, parser.path with
  | some uri, some path =>
    some ({ request with
          uri := cstring uri
          path := cstring path
          query := parser.query
          method := method },
        { parser with uri := none, path := none, query := [] })
  | _, _ => none

/-- A single well-formed line: a method, a target without spaces and control
characters, and a version. -/
def IsRequestLine (bytes : Bytes) : Prop :=
  ∃ (line : RequestLine) (method : Method) (version : Version), line.blanks = [] ∧ line.uri ≠ [] ∧
      setMethod line.method = some method ∧
      setProtocol line.protocol = some version ∧
      bytes = line.render

/-! ## The parts of a line -/

variable {method : Method} {name : Bytes}

theorem setMethod_httprequestMethodString (named : httprequestMethodString method = some name) :
    setMethod name = some method := by
  cases method <;> cases named <;> decide

private theorem takeWhile_append_cons {rest : Bytes} (noSpace : Byte.space ∉ name) :
    (name ++ Byte.space :: rest).takeWhile (· != Byte.space) = name := by
  rw [List.takeWhile_append_of_pos fun byte member => ?_]
  · simp
  · rw [bne_iff_ne]
    exact fun isSpace => noSpace (isSpace ▸ member)

variable {uri : Bytes}

theorem requestLine_parts {other : Method} {version : Version} {line : RequestLine}
    (isMethod : setMethod name = some method) (noBlanks : line.blanks = [])
    (isOther : setMethod line.method = some other)
    (isProtocol : setProtocol line.protocol = some version)
    (same : requestLine name uri = line.render) : line.uri = uri := by
  have nameSpace : Byte.space ∉ name := fun member =>
    ((setMethod_plain isMethod).2 _ member).1 rfl
  have otherSpace : Byte.space ∉ line.method := fun member =>
    ((setMethod_plain isOther).2 _ member).1 rfl
  have bytes : line.render = line.method ++ Byte.space :: (line.uri ++
      Byte.space :: (line.protocol ++ [Byte.cr, Byte.lf])) := by
    simp [RequestLine.render, noBlanks]
  have ours : requestLine name uri = name ++ Byte.space :: (uri ++ ascii " HTTP/1.1\r\n") := by
    rw [requestLine, List.append_assoc, List.append_assoc]
    rfl
  rw [ours, bytes] at same
  have sameName : name = line.method := by
    have cut := congrArg (List.takeWhile (· != Byte.space)) same
    rwa [takeWhile_append_cons nameSpace, takeWhile_append_cons otherSpace] at cut
  rw [sameName] at same
  obtain ⟨_, sameRest⟩ := List.cons.inj (List.append_cancel_left same)
  have sameLength : (ascii " HTTP/1.1\r\n").length =
      (Byte.space :: (line.protocol ++ [Byte.cr, Byte.lf])).length := by
    rw [List.length_cons, List.length_append, (setProtocol_plain isProtocol).1]
    rfl
  exact (List.append_inj' sameRest sameLength).1.symm

/-- The line of a target without spaces and control characters. -/
def plainLine (name uri : Bytes) (plain : ∀ byte ∈ uri,
      byte ≠ Byte.space ∧ httpparserIsCtl byte = false) : RequestLine where
  blanks := []
  method := name
  uri := uri
  protocol := ascii "HTTP/1.1"
  blanks_newline := List.forall_mem_nil _
  uri_plain := plain

theorem plainLine_render (name uri : Bytes) (plain : ∀ byte ∈ uri,
      byte ≠ Byte.space ∧ httpparserIsCtl byte = false) :
    (plainLine name uri plain).render = requestLine name uri := by
  rw [requestLine, RequestLine.render, plainLine, List.nil_append]
  simp only [List.append_assoc]
  rfl

theorem requestOfLine_requestLine (env : Env) (connection : ParserConnection)
    (isMethod : setMethod name = some method) (plain : ∀ byte ∈ uri,
      byte ≠ Byte.space ∧ httpparserIsCtl byte = false) :
    requestOfLine env connection (requestLine name uri) =
      if uri.length ≤ maxUriSize then
        (httpparserSetUri { httprequestCreate with method := method }
          uri).map ({ · with version := .v11 })
      else none := by
  have isLine : setMethod (plainLine name uri plain).method = some method := isMethod
  have rendered := requestOfLine_render env connection rfl isLine
    (show setProtocol (plainLine name uri plain).protocol = some .v11 from rfl)
  rwa [plainLine_render] at rendered

/-! ## The uri of a target -/

private theorem queryparserScan_texts (key : Bytes) (value : Option Bytes) (text : Bytes) :
    ∀ query ∈ queryparserScan key value text, 0 ∉ query.key ∧ 0 ∉ query.value := by
  have pair : ∀ key value, 0 ∉ (finishPair key value).key ∧
      0 ∉ (finishPair key value).value := fun key value =>
    ⟨zero_notMem_cstring _, zero_notMem_cstring _⟩
  fun_induction queryparserScan key value text with
  | case1 key value => exact List.forall_mem_singleton.mpr (pair key value)
  | case2 key value byte rest _ ih =>
    exact ih
  | case3 key value rest _ ih =>
    exact List.forall_mem_cons.mpr ⟨pair key value, ih⟩
  | case4 key value rest => exact List.forall_mem_singleton.mpr (pair key value)
  | case5 key byte rest _ _ _ ih => exact ih
  | case6 key byte rest text _ _ _ ih =>
    exact ih

private theorem targetQuery_texts (target : Bytes) :
    ∀ query ∈ targetQuery target, 0 ∉ query.key ∧ 0 ∉ query.value := by
  unfold targetQuery
  split
  · split_ifs
    · exact queryparserScan_texts _ _ _
    · exact List.forall_mem_nil _
  · exact List.forall_mem_nil _

theorem head?_targetPath {target : Bytes} (isTarget : IsTarget target) :
    (targetPath target).head? = some Byte.slash := by
  obtain ⟨byte, rest, rfl, starts⟩ := isTarget
  have slashPlain (text : Bytes) : (urldecodel (Byte.slash :: text)).head? = some Byte.slash := by
    rw [urldecodel_plain (by decide) (by decide), List.head?_cons]
  unfold targetPath
  dsimp only
  by_cases isEnd : isPathEnd byte = true
  · rw [List.takeWhile_cons_of_neg (by simp [isEnd]), if_pos rfl]
    exact slashPlain []
  · have isSlash : byte = Byte.slash := by
      unfold startsTarget at starts
      unfold isPathEnd at isEnd
      simp_all
    rw [List.takeWhile_cons_of_pos (by simp [isEnd]), if_neg (List.cons_ne_nil _ _), isSlash]
    exact slashPlain _

def queryTail (query : List Query) : Bytes :=
  if query = [] then [] else Byte.question :: queryStringifyLoop query

theorem joinUri_eq (path : Bytes) (query : List Query) :
    joinUri path query = path ++ queryTail query := by
  unfold joinUri queryTail queryStringify
  split_ifs <;> simp

private theorem urlencodeByte_printable : ∀ byte : UInt8,
    ∀ letter ∈ urlencodeByte byte, httpparserIsCtl letter = false := by
  intro byte
  apply forall_mem_of_all
  revert byte
  exact forall_byte (by decide +kernel)

theorem urlencodel_plain (text : Bytes) : ∀ letter ∈ urlencodel text,
      letter ≠ Byte.space ∧ httpparserIsCtl letter = false := by
  intro letter isIn
  obtain ⟨byte, -, isLetter⟩ := List.mem_flatMap.mp isIn
  exact ⟨(urlencodel_free text letter isIn).2.2.2.2.2.2,
    urlencodeByte_printable byte letter isLetter⟩

private theorem queryPair_plain (query : Query) : ∀ letter ∈ queryPair query,
      letter ≠ Byte.space ∧ httpparserIsCtl letter = false := by
  unfold queryPair
  refine List.forall_mem_append.mpr ⟨urlencodel_plain _, ?_⟩
  exact List.forall_mem_cons.mpr ⟨by decide, urlencodel_plain _⟩

theorem queryTail_plain (query : List Query) : ∀ letter ∈ queryTail query,
      letter ≠ Byte.space ∧ httpparserIsCtl letter = false := by
  have pairs : ∀ letter ∈ queryStringifyLoop query,
      letter ≠ Byte.space ∧ httpparserIsCtl letter = false := by
    fun_induction queryStringifyLoop query with
    | case1 => exact List.forall_mem_nil _
    | case2 query => exact queryPair_plain query
    | case3 query next rest ih =>
      refine List.forall_mem_append.mpr ⟨queryPair_plain query, ?_⟩
      exact List.forall_mem_cons.mpr ⟨by decide, ih⟩
  unfold queryTail
  split_ifs
  · exact List.forall_mem_nil _
  · exact List.forall_mem_cons.mpr ⟨by decide, pairs⟩

/-! ## What the server reads -/

theorem takeWhile_queryTail (query : List Query) :
    (queryTail query).takeWhile (! isPathEnd ·) = [] := by
  unfold queryTail
  split_ifs <;> rfl

variable {path : Bytes}

private theorem length_takeWhile_lt {rest : Bytes} {byte : UInt8}
    (member : byte ∈ path) (isEnd : isPathEnd byte = true) :
    ((path ++ rest).takeWhile (! isPathEnd ·)).length < path.length := by
  induction path with
  | nil => cases member
  | cons first path ih =>
    by_cases firstEnd : isPathEnd first = true
    · rw [List.cons_append, List.takeWhile_cons_of_neg (by simp [firstEnd])]
      exact Nat.succ_pos _
    · rw [List.cons_append, List.takeWhile_cons_of_pos (by simp [firstEnd]),
        List.length_cons, List.length_cons]
      rcases List.mem_cons.mp member with rfl | later
      · exact absurd isEnd firstEnd
      · exact Nat.succ_lt_succ (ih later)

theorem httpparserSetUri_join {request : Request} {query : List Query}
    (noQuery : request.query = []) (starts : path.head? = some Byte.slash)
    (inside : isPathTraversal path = false) (whole : ∀ byte ∈ path, isPathEnd byte = false)
    (decoded : urldecodel path = path)
    (texts : ∀ pair ∈ query, 0 ∉ pair.key ∧ 0 ∉ pair.value) :
    httpparserSetUri request (path ++ queryTail query) = some { request with
        uri := path ++ queryTail query
        path := path
        query := query } := by
  have slashFirst : ¬ (path ++ queryTail query).head? ≠ some Byte.slash := by
    rw [not_ne_iff, List.head?_append, starts, Option.some_or]
  have pathOnly : (path ++ queryTail query).takeWhile (! isPathEnd ·) =
      path := by
    rw [List.takeWhile_append_of_pos fun byte member => by
      simp [whole byte member], takeWhile_queryTail, List.append_nil]
  have rest : (path ++ queryTail query).dropWhile (! isPathEnd ·) =
      queryTail query := by
    rw [List.dropWhile_append_of_pos fun byte member => by
      simp [whole byte member]]
    unfold queryTail
    split_ifs <;> rfl
  rw [httpparserSetUri, if_neg slashFirst]
  dsimp only
  rw [pathOnly, decoded, rest, if_neg (by simp [inside])]
  by_cases empty : query = []
  · have noTail : queryTail query = [] := if_pos empty
    rw [noTail]
    dsimp only
    rw [noQuery, empty]
  · have pairs := queryparserParse_queryStringifyLoop empty texts
    simp only [queryTail, if_neg empty, if_pos, pairs]

private theorem httpparserSetUri_path {request received : Request}
    (parsed : httpparserSetUri request uri = some received) :
    received.path = urldecodel (uri.takeWhile (! isPathEnd ·)) := by
  unfold httpparserSetUri at parsed
  dsimp only at parsed
  split_ifs at parsed
  cases parsed
  rfl

section Recovered

variable (env : Env) (connection : ParserConnection) {name path : Bytes}
  {method : Method} {query : List Query}

theorem requestOfLine_recovers (isMethod : setMethod name = some method)
    (starts : path.head? = some Byte.slash) (inside : isPathTraversal path = false)
    (texts : ∀ pair ∈ query, 0 ∉ pair.key ∧ 0 ∉ pair.value)
    (plain : ∀ byte ∈ path, byte ≠ Byte.space ∧ httpparserIsCtl byte = false ∧
        byte ≠ Byte.question ∧ byte ≠ Byte.hash)
    (decoded : urldecodel path = path)
    (short : (joinUri path query).length ≤ maxUriSize) :
    IsRequestLine (requestLine name (cstring (joinUri path query))) ∧ ∃ received,
        requestOfLine env connection (requestLine name (cstring (joinUri path query))) =
          some received ∧
        received.path = path ∧ received.query = query := by
  have uriPlain : ∀ byte ∈ joinUri path query,
      byte ≠ Byte.space ∧ httpparserIsCtl byte = false := by
    rw [joinUri_eq]
    exact List.forall_mem_append.mpr
      ⟨fun byte member => ⟨(plain byte member).1, (plain byte member).2.1⟩, queryTail_plain query⟩
  have noNul : 0 ∉ joinUri path query := fun member =>
    absurd (uriPlain 0 member).2 (by decide)
  have whole : ∀ byte ∈ path, isPathEnd byte = false := by
    intro byte member
    simp [isPathEnd, (plain byte member).2.2]
  have nonempty : joinUri path query ≠ [] := by
    intro empty
    rw [joinUri_eq, List.append_eq_nil_iff] at empty
    rw [empty.1] at starts
    cases starts
  rw [cstring_of_notMem noNul]
  refine ⟨⟨plainLine name _ uriPlain, method, .v11, rfl, nonempty, isMethod,
    rfl, (plainLine_render name _ uriPlain).symm⟩, ?_⟩
  rw [requestOfLine_requestLine env connection isMethod uriPlain, if_pos short, joinUri_eq,
    httpparserSetUri_join rfl starts inside whole decoded texts]
  exact ⟨_, rfl, rfl, rfl⟩

/-- A path that the server reads back has none of the bytes that it treats
otherwise. -/
theorem plain_of_requestOfLine (isMethod : setMethod name = some method)
    (isLine : IsRequestLine (requestLine name (cstring (joinUri path query)))) {received : Request}
    (isReceived : requestOfLine env connection
      (requestLine name (cstring (joinUri path query))) = some received)
    (samePath : received.path = path) :
    (∀ byte ∈ path, byte ≠ Byte.space ∧ httpparserIsCtl byte = false ∧
          byte ≠ Byte.question ∧ byte ≠ Byte.hash) ∧
      urldecodel path = path ∧
      (joinUri path query).length ≤ maxUriSize := by
  obtain ⟨line, other, version, noBlanks, _, isOther, isProtocol, same⟩ := isLine
  have sameUri := requestLine_parts isMethod noBlanks isOther isProtocol same
  have uriPlain := line.uri_plain
  rw [sameUri] at uriPlain
  rw [requestOfLine_requestLine env connection isMethod uriPlain] at isReceived
  split_ifs at isReceived with short
  obtain ⟨parsed, isParsed, sameRequest⟩ := Option.map_eq_some_iff.mp isReceived
  have parsedPath : parsed.path = path := by
    rw [← samePath, ← sameRequest]
  rw [httpparserSetUri_path isParsed] at parsedPath
  -- What is decoded is not longer than the path that the server has found.
  have atLeast : path.length ≤
      ((cstring (joinUri path query)).takeWhile (! isPathEnd ·)).length := by
    have bound := length_urldecodel_le ((cstring (joinUri path query)).takeWhile (! isPathEnd ·))
    rwa [parsedPath] at bound
  rw [joinUri_eq] at atLeast uriPlain parsedPath short ⊢
  have noNul : 0 ∉ path := by
    intro member
    have shorter := length_cstring_append_lt member (queryTail query)
    have kept := (List.takeWhile_sublist (! isPathEnd ·)
      (l := cstring (path ++ queryTail query))).length_le
    omega
  have noNulTail : 0 ∉ queryTail query := fun member =>
    absurd (queryTail_plain query 0 member).2 (by decide)
  have isWhole : cstring (path ++ queryTail query) = path ++ queryTail query :=
    cstring_of_notMem (List.not_mem_append noNul noNulTail)
  rw [isWhole] at atLeast uriPlain parsedPath short
  have whole : ∀ byte ∈ path, isPathEnd byte = false := by
    intro byte member
    by_contra isEnd
    rw [Bool.not_eq_false] at isEnd
    exact absurd (length_takeWhile_lt member isEnd) (Nat.not_lt.mpr atLeast)
  rw [List.takeWhile_append_of_pos fun byte member => by
    simp [whole byte member], takeWhile_queryTail, List.append_nil]
    at parsedPath
  refine ⟨fun byte member => ?_, parsedPath, short⟩
  have notEnd := whole byte member
  rw [isPathEnd, Bool.or_eq_false_iff, beq_eq_false_iff_ne, beq_eq_false_iff_ne] at notEnd
  obtain ⟨notSpace, printable⟩ := uriPlain byte (List.mem_append_left _ member)
  exact ⟨notSpace, printable, notEnd⟩

end Recovered

/-- The request gets the target of the URL. -/
theorem setRequestUri_takes {parser : UrlParser} {target : Bytes}
    (takes : parser.Takes target) (method : Method) (previous : Request) :
    setRequestUri method previous parser = some ({ previous with
          uri := cstring (joinUri (targetPath target) (targetQuery target))
          path := cstring (targetPath target)
          query := parser.query
          method := method },
        { parser with uri := none, path := none, query := [] }) := by
  rw [setRequestUri, takes.uri, takes.path]

/-- The request line of the client is a single line from which the server
recovers the path and the query exactly if the decoded path has no byte that ends
or divides the target, is not changed by decoding it once more, and the uri is
not too long for the server. -/
theorem requestLine_recovered_iff (env : Env) (connection : ParserConnection) (useSsl : Bool)
    (url : Bytes) (parser : UrlParser) (accepted : httpclientparserParse useSsl url = .ok parser)
    (method : Method) (name : Bytes) (named : httprequestMethodString method = some name)
    (previous : Request) :
    ∃ path request rest, parser.path = some path ∧
        setRequestUri method previous parser = some (request, rest) ∧
        ((IsRequestLine (requestLine name request.uri) ∧ ∃ received,
              requestOfLine env connection (requestLine name request.uri) = some received ∧
                received.path = path ∧ received.query = parser.query) ↔
          (∀ byte ∈ path, byte ≠ Byte.space ∧ httpparserIsCtl byte = false ∧
                byte ≠ Byte.question ∧ byte ≠ Byte.hash) ∧
            urldecodel path = path ∧
            (joinUri path parser.query).length ≤ maxUriSize) := by
  obtain ⟨target, takes⟩ := httpclientparserParse_takes accepted
  have isMethod := setMethod_httprequestMethodString named
  have moved := setRequestUri_takes takes method previous
  refine ⟨_, _, _, takes.path, moved, ?_⟩
  dsimp only
  rw [takes.query]
  constructor
  · rintro ⟨isLine, received, isReceived, samePath, _⟩
    exact plain_of_requestOfLine env connection isMethod isLine isReceived samePath
  · rintro ⟨plain, decoded, short⟩
    exact requestOfLine_recovers env connection isMethod
      (head?_targetPath takes.isTarget) takes.inside
      (targetQuery_texts target) plain decoded short

def parsedUrl (uri path : Bytes) (query : List Query) : UrlParser where
  stage := .uri
  buf := []
  useSsl := false
  port := 80
  host := some (ascii "h")
  uri := some uri
  path := some path
  query := query

def freshConnection : ParserConnection where
  keepalive := false
  server := Server.plain (ascii "h") (ascii "/") 1

/-- An escaped letter and a space in the query. -/
theorem requestLine_recovered_docs : httpclientparserParse false (ascii "http://h/%64ocs?q=a%20b") =
        .ok (parsedUrl (ascii "/docs?q=a+b") (ascii "/docs")
          [{ key := ascii "q", value := ascii "a b" }]) ∧
      ∃ path request rest, (parsedUrl (ascii "/docs?q=a+b") (ascii "/docs")
            [{ key := ascii "q", value := ascii "a b" }]).path = some path ∧
          setRequestUri .get httprequestCreate (parsedUrl (ascii "/docs?q=a+b") (ascii "/docs")
                [{ key := ascii "q", value := ascii "a b" }]) =
            some (request, rest) ∧
          IsRequestLine (requestLine (ascii "GET") request.uri) := by
  have accepted : httpclientparserParse false (ascii "http://h/%64ocs?q=a%20b") =
        .ok (parsedUrl (ascii "/docs?q=a+b") (ascii "/docs")
          [{ key := ascii "q", value := ascii "a b" }]) := by
    decide +kernel
  obtain ⟨path, request, rest, isPath, moved, recovered⟩ :=
    requestLine_recovered_iff (Env.plain []) freshConnection false (ascii "http://h/%64ocs?q=a%20b")
      (parsedUrl (ascii "/docs?q=a+b") (ascii "/docs")
        [{ key := ascii "q", value := ascii "a b" }]) accepted .get
      (ascii "GET") rfl httprequestCreate
  cases isPath
  have plain := recovered.mpr ⟨forall_mem_of_all (by decide), by decide, by decide⟩
  exact ⟨accepted, _, request, rest, rfl, moved, plain.1⟩

/-- A space in the path breaks the line, an escaped percent sign makes the server
decode twice. -/
theorem requestLine_space : (httpclientparserParse false (ascii "http://h/a%20b") =
        .ok (parsedUrl (ascii "/a b") (ascii "/a b") []) ∧
      requestOfLine (Env.plain []) freshConnection
          (requestLine (ascii "GET") (ascii "/a b")) = none) ∧
    httpclientparserParse false (ascii "http://h/%2541") =
        .ok (parsedUrl (ascii "/%41") (ascii "/%41") []) ∧
      (requestOfLine (Env.plain []) freshConnection
          (requestLine (ascii "GET") (ascii "/%41"))).map Request.path =
        some (ascii "/A") := by
  decide +kernel

end CWebFramework.HttpClient
