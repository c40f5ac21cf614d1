import CWebFramework.HttpClient.CanonicalTarget
import CWebFramework.HttpClient.Send
import CWebFramework.Storage.PathFormats

/-!
# Signed requests of the S3 storage

`__create_authtoken` of `storages3.c` hashes a canonical request, which it
writes into buffers of a fixed size.  The path and the query are those that the
parser of the client has decoded, the host is that of the configuration.  The
client puts its request together on its own.  `IsCanonicalRequest` says what
the signature of that request has to be made of.
-/

namespace CWebFramework.Storage

open Http HttpClient

/-- The parts of `storages3_t` that make a URL. -/
structure S3 where
  protocol : Bytes
  host : Bytes
  port : Bytes
  bucket : Bytes

/-- `snprintf` into a buffer of that size. -/
def snprintf (size : Nat) (text : Bytes) : Bytes := text.take (size - 1)

def createUri (storage : S3) (path : Bytes) : Bytes :=
  storageMergeSlash (Byte.slash :: storage.bucket ++ Byte.slash :: path)

def createUrl (storage : S3) (uri : Bytes) : Bytes :=
  let port :=
    if storage.port = [] then [] else snprintf 8 (Byte.colon :: storage.port)
  storage.protocol ++ ascii "://" ++ storage.host ++ port ++ uri

def nameMax : Nat := 255

def hostStr (storage : S3) : Option Bytes :=
  let length := storage.host.length
  if nameMax - 2 < length + storage.port.length then none
  else if storage.port = [] ∨ storage.port = ascii "443" ∨ storage.port = ascii "80" then
    some storage.host
  else if nameMax - length - 1 < 2 then none
  else if nameMax - (length + 1) - 1 < storage.port.length then none
  else some (storage.host ++ Byte.colon :: storage.port)

/-- The format of `canonical_headers`. -/
def headersText (host payloadHash date : Bytes) : Bytes :=
  ascii "host:" ++ host ++ ascii "\nx-amz-content-sha256:" ++ payloadHash ++
    ascii "\nx-amz-date:" ++ date ++ ascii "\n"

def signedHeaders : Bytes := ascii "host;x-amz-content-sha256;x-amz-date"

/-- The format of `canonical_request`. -/
def requestText (method path query headers payloadHash : Bytes) : Bytes :=
  method ++ ascii "\n" ++ path ++ ascii "\n" ++ query ++ ascii "\n" ++
    headers ++ ascii "\n" ++ signedHeaders ++ ascii "\n" ++ payloadHash

/-- The text that `__create_authtoken` hashes. -/
def hashedRequest (storage : S3) (parser : UrlParser)
    (method date payloadHash : Bytes) : Option Bytes := do
  let host ← hostStr storage
  let headers := snprintf 350 (headersText host payloadHash date)
  let path ← parser.path
  some (snprintf 1024 (requestText method (cstring path)
    ((queryStringify parser.query).getD []) headers payloadHash))

/-! ## The request that is sent -/

/-- The method that a function signs. -/
def StorageFunction.methodName : StorageFunction → Bytes
  | .fileGet => ascii "GET"
  | .filePut => ascii "PUT"
  | .fileContentPut => ascii "PUT"
  | .fileDataPut => ascii "PUT"
  | .fileRemove => ascii "DELETE"
  | .fileExist => ascii "HEAD"
  | .fileList => ascii "GET"

/-- The method with which it makes the client. -/
def StorageFunction.route : StorageFunction → Method
  | .fileGet => .get
  | .filePut => .put
  | .fileContentPut => .put
  | .fileDataPut => .put
  | .fileRemove => .delete
  | .fileExist => .head
  | .fileList => .get

/-- The headers that it adds besides those of the signature. -/
def StorageFunction.headerKeys : StorageFunction → List Bytes
  | .filePut | .fileContentPut | .fileDataPut =>
    [ascii "Content-Disposition", ascii "Content-Length", ascii "Content-Type"]
  | _ => []

/-- The payload of a function: a file with its position, of which a slice is
copied as far as `sendfile` copies it, or data. -/
inductive Body where
  | none
  | file (content : Bytes) (position offset size copied : Nat)
  | data (content : Bytes)
  deriving DecidableEq

def Body.sent : Body → Bytes
  | .none => []
  | .file content _ offset size copied =>
    ((content.drop offset).take size).take copied
  | .data content => content

def httpclientInit (method : Method) (url : Bytes) : Option Sender :=
  Sender.setUrl
    { method := method
      headers := []
      requestChunked := false
      payload := []
      pos := 0
      response := { chunked := false, gzip := false }
      parser := httpclientparserReset false
      host := []
      port := 0
      useSsl := false
      bufferSize := 16384 } url

def emptyPayloadHash : Bytes :=
  ascii ("e3b0c44298fc1c149afbf4c8996fb924" ++ "27ae41e4649b934ca495991b7852b855")

structure Sha256 where
  hex : Bytes → Bytes
  length_hex : ∀ bytes, (hex bytes).length = 64
  hex_nil : hex [] = emptyPayloadHash

/-- The hash that is signed: a file is read from its position on. -/
def Body.payloadHash (sha : Sha256) : Body → Bytes
  | .none => emptyPayloadHash
  | .file content position _ _ _ => sha.hex (content.drop position)
  | .data content => sha.hex content

/-- The headers that are added in front of `send`. -/
def addedHeaders (function : StorageFunction)
    (authorization payloadHash date : Bytes) (value : Bytes → Bytes) :
    List Header :=
  [{ key := ascii "Authorization", value := authorization },
    { key := ascii "x-amz-content-sha256", value := payloadHash },
    { key := ascii "x-amz-date", value := date }] ++
  function.headerKeys.map fun key => { key := key, value := value key }

/-- The request that `send` writes first. -/
def sentRequest (client : Sender) (headers : List Header) (payload : Bytes) : Option Request :=
  (Sender.request (Sender.setHeaderHost (Sender.trySetContentLength
    { client with headers := headers, payload := payload }))).map Prod.fst

/-! ## What has to be signed -/

/-- The value of a header; its name is in lower case. -/
def headerValue (headers : List Header) (name : Bytes) : Bytes :=
  ((headers.find? fun header => header.key.map tolower == name).map Header.value).getD []

/-- The query of a target, without the fragment. -/
def targetQueryText (target : Bytes) : Option Bytes :=
  match target.dropWhile (! isPathEnd ·) with
  | byte :: text =>
    if byte = Byte.question then some (text.takeWhile (· != Byte.hash))
    else none
  | [] => none

/-- The canonical request of version 4 of the signature, line by line. -/
def IsCanonicalRequest (sha : Sha256) (request : Request) (text : Bytes) :
    Prop :=
  ∃ method query, httprequestMethodString request.method = some method ∧
    IsCanonicalQuery (targetQueryText request.uri) query ∧
    text = List.intercalate [Byte.lf] [method,
        canonicalBy plainInPath (request.uri.takeWhile (! isPathEnd ·)),
        query,
        ascii "host:" ++ headerValue request.headers (ascii "host"),
        ascii "x-amz-content-sha256:" ++ headerValue request.headers (ascii "x-amz-content-sha256"),
        ascii "x-amz-date:" ++ headerValue request.headers (ascii "x-amz-date"),
        [],
        ascii "host;x-amz-content-sha256;x-amz-date",
        sha.hex request.payload]

def NotTruncated (storage : S3) (parser : UrlParser) (method date payloadHash : Bytes) : Prop :=
  ∃ host path, hostStr storage = some host ∧ parser.path = some path ∧
    (headersText host payloadHash date).length < 350 ∧
    (requestText method (cstring path) ((queryStringify parser.query).getD [])
      (headersText host payloadHash date) payloadHash).length < 1024

def hostHeader (client : Sender) : Bytes :=
  if client.port = 80 ∨ client.port = 443 then client.host
  else client.host ++ Byte.colon :: decimal client.port

/-- The path, the query and the host are written as they are signed. -/
def WrittenAsSigned (storage : S3) (client : Sender) : Prop :=
  hostStr storage = some (hostHeader client) ∧
  (∃ path, client.parser.path = some path ∧ isEncoded plainInPath (cstring path) = true ∧
    (0 ∉ path ∨ client.parser.query = [])) ∧
  (∀ query ∈ client.parser.query, Byte.space ∉ cstring query.key ∧
    Byte.space ∉ cstring query.value) ∧
  (client.parser.query.map writtenPair).Pairwise PairLe

/-- The part of a file that is sent has the hash of what was read from its
position on. -/
def HashedAsSent (sha : Sha256) : Body → Prop
  | .file content position offset size copied =>
    sha.hex (content.drop position) = sha.hex (((content.drop offset).take size).take copied)
  | _ => True

/-! ## The parts of the texts -/

section Sent

variable {client : Sender}

/-- The headers of the signature are sent as they are signed. -/
theorem headerValue_sent (notChunked : client.requestChunked = false) (function : StorageFunction)
    (authorization payloadHash date payload : Bytes) (value : Bytes → Bytes) :
    let headers := (Sender.setHeaderHost (Sender.trySetContentLength
      { client with
        headers := addedHeaders function authorization payloadHash date value
        payload := payload })).headers
    headerValue headers (ascii "host") = hostHeader client ∧
      headerValue headers (ascii "x-amz-content-sha256") = payloadHash ∧
      headerValue headers (ascii "x-amz-date") = date := by
  rw [Sender.trySetContentLength]
  dsimp only
  rw [notChunked]
  cases function <;> exact ⟨rfl, rfl, rfl⟩

private theorem methodName_route (function : StorageFunction) :
    httprequestMethodString function.route = some function.methodName := by
  cases function <;> rfl

private theorem httpclientInit_some {method : Method} {url : Bytes}
    (isClient : httpclientInit method url = some client) :
    client.requestChunked = false ∧ client.method = method ∧
      ∃ target, client.parser.Takes target := by
  rw [httpclientInit, Sender.setUrl] at isClient
  split at isClient
  · cases isClient
  next parser accepted =>
    cases isClient
    exact ⟨rfl, rfl, httpclientparserParse_takes accepted⟩

theorem sentRequest_some {headers : List Header} {payload path uri : Bytes} {request : Request}
    (notChunked : client.requestChunked = false) (isPath : client.parser.path = some path)
    (isUri : client.parser.uri = some uri)
    (isSent : sentRequest client headers payload = some request) :
    request.method = client.method ∧ request.uri = cstring uri ∧
      request.headers = (Sender.setHeaderHost (Sender.trySetContentLength
        { client with headers := headers, payload := payload })).headers ∧
      request.payload = payload := by
  rw [sentRequest, Sender.trySetContentLength] at isSent
  rw [Sender.trySetContentLength]
  dsimp only at isSent ⊢
  rw [notChunked] at isSent ⊢
  rw [Sender.request, setRequestUri] at isSent
  dsimp only [Sender.setHeaderHost] at isSent
  simp only [Bool.false_eq_true, ↓reduceIte, isUri, isPath] at isSent
  cases isSent
  exact ⟨rfl, rfl, rfl, rfl⟩

end Sent

private theorem payloadHash_eq_iff (sha : Sha256) (body : Body) :
    body.payloadHash sha = sha.hex body.sent ↔ HashedAsSent sha body := by
  cases body with
  | none => exact iff_of_true sha.hex_nil.symm trivial
  | file content position offset size copied => exact Iff.rfl
  | data content => exact iff_of_true rfl trivial

section Lines

variable {path rest other : Bytes}

private theorem encodedPathByte_plain : ∀ byte : UInt8,
    ∀ letter ∈ if plainInPath byte then [byte] else escape byte, isPathEnd letter = false := by
  intro byte
  apply forall_mem_of_all
  revert byte
  exact forall_byte (by decide +kernel)

theorem isPathEnd_encoded (encoded : isEncoded plainInPath path = true) :
    ∀ letter ∈ path, isPathEnd letter = false := by
  intro letter isIn
  rw [← canonicalBy_eq_self encoded] at isIn
  obtain ⟨byte, -, isLetter⟩ := List.mem_flatMap.mp isIn
  exact encodedPathByte_plain byte letter isLetter

theorem hexCharToInt_pathEnd : ∀ byte : UInt8, isPathEnd byte = true → hexCharToInt byte = none :=
  forall_byte (by decide +kernel)

/-- A target whose canonical path is the line of a path has that path, and it
is encoded. -/
theorem isEncoded_of_line {tail : Bytes} (ends : tail.takeWhile (! isPathEnd ·) = [])
    (same : canonicalBy plainInPath ((path ++ tail).takeWhile (! isPathEnd ·)) ++ Byte.lf :: rest =
        path ++ Byte.lf :: other) :
    isEncoded plainInPath path = true := by
  have noDigit : ∀ byte ∈ (Byte.lf :: other).head?, hexCharToInt byte = none := by
    intro byte isFirst
    cases isFirst
    rfl
  cases isRest : path.dropWhile (! isPathEnd ·) with
  | nil =>
    have whole := List.dropWhile_eq_nil_iff.mp isRest
    rw [List.takeWhile_append_of_pos whole, ends, List.append_nil] at same
    exact isEncoded_of_append (by decide) noDigit same
  | cons first later =>
    -- The line goes on with the separator, the canonical path ends there.
    have nonempty : path.dropWhile (! isPathEnd ·) ≠ [] := by
      rw [isRest]
      exact List.cons_ne_nil first later
    have isEnd := List.head_dropWhile_not (! isPathEnd ·) nonempty
    simp only [isRest, List.head_cons, Bool.not_eq_false'] at isEnd
    have isFront : ∀ byte ∈ path.takeWhile (! isPathEnd ·), (! isPathEnd byte) = true := by
      intro byte isIn
      have isKept := List.mem_takeWhile_imp isIn
      exact isKept
    have parts : path = path.takeWhile (! isPathEnd ·) ++ first :: later := by
      rw [← isRest]
      exact (List.takeWhile_append_dropWhile ..).symm
    generalize path.takeWhile (! isPathEnd ·) = front at isFront parts
    rw [parts, List.append_assoc, List.append_assoc,
      List.takeWhile_append_of_pos isFront, List.cons_append,
      List.takeWhile_cons_of_neg (by rw [isEnd]; exact Bool.false_ne_true),
      List.append_nil] at same
    have encoded : isEncoded plainInPath front = true := by
      refine isEncoded_of_append (by decide) ?_ same
      intro byte isFirst
      cases isFirst
      exact hexCharToInt_pathEnd first isEnd
    rw [canonicalBy_eq_self encoded] at same
    have isLine := (List.cons.inj (List.append_cancel_left same)).1
    rw [← isLine] at isEnd
    cases isEnd

theorem notMem_joinPairs {byte : UInt8} (notEqual : byte ≠ Byte.equal)
    (notAmpersand : byte ≠ Byte.ampersand) {pairs : List (Bytes × Bytes)}
    (plain : ∀ pair ∈ pairs, byte ∉ pair.1 ∧ byte ∉ pair.2) :
    byte ∉ joinPairs pairs := by
  induction pairs with
  | nil => exact List.not_mem_nil
  | cons pair pairs ih =>
    rw [List.forall_mem_cons] at plain
    have isPair : byte ∉ pair.1 ++ Byte.equal :: pair.2 := by
      rw [List.mem_append, List.mem_cons, not_or, not_or]
      exact ⟨plain.1.1, notEqual, plain.1.2⟩
    cases pairs with
    | nil => exact isPair
    | cons next pairs =>
      rw [joinPairs, List.mem_append, List.mem_cons, not_or, not_or]
      exact ⟨isPair, notAmpersand, ih plain.2⟩

/-- The line feed and the start of a fragment are escaped. -/
theorem notMem_queryStringifyLoop {byte : UInt8}
    (escaped : byte = Byte.lf ∨ byte = Byte.hash) (queries : List Query) :
    byte ∉ queryStringifyLoop queries := by
  have plain : ∀ text, byte ∉ urlencodel text := by
    intro text isIn
    rcases escaped with isLine | isHash
    · rw [isLine] at isIn
      exact absurd (urlencodel_plain text Byte.lf isIn).2 (by decide)
    · exact (urlencodel_free text byte isIn).2.1 isHash
  rw [queryStringifyLoop_eq]
  refine notMem_joinPairs ?_ ?_ (List.forall_mem_map.mpr fun query _ => ⟨plain _, plain _⟩)
  · rcases escaped with rfl | rfl <;> decide
  · rcases escaped with rfl | rfl <;> decide

private theorem lf_notMem_canonicalBy (text : Bytes) : Byte.lf ∉ canonicalBy isUnreserved text := by
  intro isIn
  obtain ⟨byte, -, isLetter⟩ := List.mem_flatMap.mp isIn
  exact (encodedByte_clear byte Byte.lf isLetter).2.2 rfl

private theorem lf_notMem_canonicalQuery {query : Option Bytes} {text : Bytes}
    (isCanonical : IsCanonicalQuery query text) : Byte.lf ∉ text := by
  cases query with
  | none =>
    rw [show text = [] from isCanonical]
    exact List.not_mem_nil
  | some written =>
    obtain ⟨pairs, isPerm, -, rfl⟩ := isCanonical
    apply notMem_joinPairs (by decide) (by decide)
    intro pair isIn
    obtain ⟨other, -, rfl⟩ := List.mem_map.mp (isPerm.mem_iff.mp isIn)
    exact ⟨lf_notMem_canonicalBy _, lf_notMem_canonicalBy _⟩

private theorem lf_notMem_queryStringify (queries : List Query) :
    Byte.lf ∉ (queryStringify queries).getD [] := by
  rw [queryStringify]
  split
  · exact List.not_mem_nil
  · exact notMem_queryStringifyLoop (Or.inl rfl) queries

private theorem queryStringifyLoop_ne_nil {queries : List Query}
    (nonempty : queries ≠ []) : queryStringifyLoop queries ≠ [] := by
  match queries with
  | [] => exact absurd rfl nonempty
  | [query] =>
    exact List.append_ne_nil_of_right_ne_nil _ (List.cons_ne_nil _ _)
  | query :: next :: rest =>
    exact List.append_ne_nil_of_right_ne_nil _ (List.cons_ne_nil _ _)

/-- The target that is sent: behind a NUL nothing is. -/
theorem cstring_joinUri (path : Bytes) (queries : List Query) : cstring (joinUri path queries) =
      cstring path ++ if 0 ∈ path then [] else queryTail queries := by
  rw [joinUri_eq]
  split
  next isIn => rw [cstring_append_of_mem isIn, List.append_nil]
  next notIn =>
    have noNul : 0 ∉ queryTail queries := fun isIn =>
      absurd (queryTail_plain queries 0 isIn).2 (by decide)
    rw [cstring_append notIn, cstring_of_notMem noNul, cstring_of_notMem notIn]

theorem takeWhile_sentTail (path : Bytes) (queries : List Query) :
    (if 0 ∈ path then [] else queryTail queries).takeWhile (! isPathEnd ·) = [] := by
  split
  · rfl
  · exact takeWhile_queryTail queries

theorem targetQueryText_append (plain : ∀ letter ∈ path, isPathEnd letter = false) (tail : Bytes) :
    targetQueryText (path ++ tail) = targetQueryText tail := by
  rw [targetQueryText, List.dropWhile_append_of_pos fun letter isIn => by
    rw [plain letter isIn]; rfl]
  rfl

private theorem targetQueryText_queryTail {queries : List Query} (nonempty : queries ≠ []) :
    targetQueryText (queryTail queries) = some (queryStringifyLoop queries) := by
  have noHash : ∀ letter ∈ queryStringifyLoop queries, (letter != Byte.hash) = true := by
    intro letter isIn
    rw [bne_iff_ne]
    rintro rfl
    exact notMem_queryStringifyLoop (Or.inr rfl) queries isIn
  rw [queryTail, if_neg nonempty, targetQueryText, List.dropWhile_cons_of_neg (by decide)]
  dsimp only
  rw [if_pos rfl, List.takeWhile_eq_self_iff.mpr noHash]

/-- The query of the target is signed as it is written exactly when it is not
cut off, no text has a space and the pairs are sorted. -/
theorem isCanonicalQuery_target_iff (encoded : isEncoded plainInPath (cstring path) = true)
    (queries : List Query) :
    IsCanonicalQuery (targetQueryText (cstring (joinUri path queries)))
        ((queryStringify queries).getD []) ↔
      (0 ∉ path ∨ queries = []) ∧
      (∀ query ∈ queries, Byte.space ∉ cstring query.key ∧ Byte.space ∉ cstring query.value) ∧
      (queries.map writtenPair).Pairwise PairLe := by
  rw [cstring_joinUri, targetQueryText_append (isPathEnd_encoded encoded)]
  by_cases isEmpty : queries = []
  · rw [isEmpty, queryTail, if_pos rfl, ite_self]
    exact iff_of_true rfl
      ⟨Or.inr rfl, List.forall_mem_nil _, List.Pairwise.nil⟩
  · rw [queryStringify, if_neg isEmpty, Option.getD_some, or_iff_left isEmpty]
    by_cases isIn : 0 ∈ path
    · rw [if_pos isIn]
      refine iff_of_false ?_ fun all => all.1 isIn
      exact queryStringifyLoop_ne_nil isEmpty
    · rw [if_neg isIn, targetQueryText_queryTail isEmpty,
        isCanonicalQuery_iff isEmpty, and_iff_right isIn]

/-- What both texts have behind the host. -/
def behindHost (payloadHash date last : Bytes) : Bytes :=
  ascii "\nx-amz-content-sha256:" ++ (payloadHash ++ (ascii "\nx-amz-date:" ++
    (date ++ (ascii "\n\n" ++ (signedHeaders ++ (ascii "\n" ++ last))))))

private theorem requestText_eq (method path query host payloadHash date : Bytes) :
    requestText method path query (headersText host payloadHash date) payloadHash =
      method ++ Byte.lf :: (path ++ Byte.lf :: (query ++ Byte.lf :: (ascii "host:" ++ (host ++
          behindHost payloadHash date payloadHash)))) := by
  simp only [requestText, headersText, behindHost, List.append_assoc]
  rfl

private theorem intercalate_eq (method path query host payloadHash date last : Bytes) :
    List.intercalate [Byte.lf] [method, path, query, ascii "host:" ++ host,
          ascii "x-amz-content-sha256:" ++ payloadHash,
          ascii "x-amz-date:" ++ date, [],
          ascii "host;x-amz-content-sha256;x-amz-date", last] =
      method ++ Byte.lf :: (path ++ Byte.lf :: (query ++ Byte.lf ::
        (ascii "host:" ++ (host ++ behindHost payloadHash date last)))) := by
  simp only [List.intercalate, List.intersperse, List.flatten_cons,
    List.flatten_nil, behindHost, List.append_assoc, List.append_nil]
  rfl

private theorem lf_append_inj {first second : Bytes} (noFirst : Byte.lf ∉ first)
    (noSecond : Byte.lf ∉ second)
    (same : first ++ Byte.lf :: rest = second ++ Byte.lf :: other) :
    first = second ∧ rest = other := by
  rcases List.append_eq_append_iff.mp same with ⟨between, rfl, isRest⟩ | ⟨between, rfl, isRest⟩
  · cases between with
    | nil => exact ⟨(List.append_nil _).symm, (List.cons.inj isRest).2⟩
    | cons byte between => simp [(List.cons.inj isRest).1] at noSecond
  · cases between with
    | nil => exact ⟨List.append_nil _, (List.cons.inj isRest).2.symm⟩
    | cons byte between => simp [(List.cons.inj isRest).1] at noFirst

private theorem behindHost_inj {host sentHost payloadHash date last sentLast : Bytes}
    (sameLength : last.length = sentLast.length)
    (same : host ++ behindHost payloadHash date last =
      sentHost ++ behindHost payloadHash date sentLast) :
    host = sentHost ∧ last = sentLast := by
  have lengths : (behindHost payloadHash date last).length =
      (behindHost payloadHash date sentLast).length := by
    simp only [behindHost, List.length_append, sameLength]
  obtain ⟨sameHost, sameBehind⟩ := List.append_inj' same lengths
  simp only [behindHost, List.append_cancel_left_eq] at sameBehind
  exact ⟨sameHost, sameBehind⟩

private theorem canonicalPath_target (encoded : isEncoded plainInPath (cstring path) = true)
    (queries : List Query) :
    canonicalBy plainInPath ((cstring (joinUri path queries)).takeWhile (! isPathEnd ·)) =
      cstring path := by
  rw [cstring_joinUri, List.takeWhile_append_of_pos fun letter isIn => by
    rw [isPathEnd_encoded encoded letter isIn]; rfl, takeWhile_sentTail,
    List.append_nil, canonicalBy_eq_self encoded]

/-- The lines of the texts are the same one by one. -/
theorem requestText_canonical_iff {method host sentHost payloadHash sentHash date : Bytes}
    (sameLength : payloadHash.length = sentHash.length)
    (queries : List Query) :
    (∃ query, IsCanonicalQuery (targetQueryText (cstring (joinUri path queries))) query ∧
      requestText method (cstring path) ((queryStringify queries).getD [])
          (headersText host payloadHash date) payloadHash =
        List.intercalate [Byte.lf] [method, canonicalBy plainInPath
              ((cstring (joinUri path queries)).takeWhile (! isPathEnd ·)),
            query, ascii "host:" ++ sentHost,
            ascii "x-amz-content-sha256:" ++ payloadHash,
            ascii "x-amz-date:" ++ date, [],
            ascii "host;x-amz-content-sha256;x-amz-date", sentHash]) ↔
      (host = sentHost ∧ payloadHash = sentHash) ∧
      isEncoded plainInPath (cstring path) = true ∧
      (0 ∉ path ∨ queries = []) ∧
      (∀ query ∈ queries, Byte.space ∉ cstring query.key ∧ Byte.space ∉ cstring query.value) ∧
      (queries.map writtenPair).Pairwise PairLe := by
  constructor
  · intro canonical
    obtain ⟨query, isQuery, same⟩ := canonical
    rw [requestText_eq, intercalate_eq] at same
    have lines := (List.cons.inj (List.append_cancel_left same)).2
    have encoded : isEncoded plainInPath (cstring path) = true := by
      rw [cstring_joinUri] at lines
      exact isEncoded_of_line (takeWhile_sentTail path queries) lines.symm
    rw [canonicalPath_target encoded] at lines
    obtain ⟨sameQuery, behind⟩ := lf_append_inj
      (lf_notMem_queryStringify queries) (lf_notMem_canonicalQuery isQuery)
      (List.cons.inj (List.append_cancel_left lines)).2
    rw [← sameQuery] at isQuery
    exact ⟨behindHost_inj sameLength (List.append_cancel_left behind), encoded,
      (isCanonicalQuery_target_iff encoded queries).mp isQuery⟩
  · intro all
    obtain ⟨⟨sameHost, sameHash⟩, encoded, isQuery⟩ := all
    refine ⟨_, (isCanonicalQuery_target_iff encoded queries).mpr isQuery, ?_⟩
    rw [requestText_eq, intercalate_eq, canonicalPath_target encoded, sameHost, ← sameHash]

end Lines

/-- The text that is hashed when nothing is cut off. -/
theorem hashedRequest_eq {storage : S3} {parser : UrlParser}
    {method date payloadHash hashed host path : Bytes}
    (isHost : hostStr storage = some host) (isPath : parser.path = some path)
    (fitsHeaders : (headersText host payloadHash date).length < 350)
    (fitsRequest : (requestText method (cstring path) ((queryStringify parser.query).getD [])
      (headersText host payloadHash date) payloadHash).length < 1024)
    (isHashed : hashedRequest storage parser method date payloadHash = some hashed) :
    hashed = requestText method (cstring path) ((queryStringify parser.query).getD [])
      (headersText host payloadHash date) payloadHash := by
  rw [hashedRequest, isHost, isPath] at isHashed
  simp only [Option.bind_eq_bind, Option.bind_some, Option.some.injEq, snprintf] at isHashed
  rw [← isHashed, List.take_of_length_le (Nat.le_sub_one_of_lt fitsHeaders),
    List.take_of_length_le (Nat.le_sub_one_of_lt fitsRequest)]

/-- What is hashed is the complete canonical request of the request that is
sent exactly when both texts fit into their buffers, the host, the path and
the query are written as they are signed, and the payload that is sent has the
hash. -/
theorem hashedRequest_canonical_iff (storage : S3)
    (function : StorageFunction) (path : Bytes) (sha : Sha256) (body : Body)
    (authorization date : Bytes) (value : Bytes → Bytes) (client : Sender)
    (isClient : httpclientInit function.route
      (createUrl storage (createUri storage path)) = some client)
    (request : Request)
    (isSent : sentRequest client (addedHeaders function authorization
      (body.payloadHash sha) date value) body.sent = some request)
    (hashed : Bytes)
    (isHashed : hashedRequest storage client.parser function.methodName date
      (body.payloadHash sha) = some hashed) :
    (NotTruncated storage client.parser function.methodName date (body.payloadHash sha) ∧
      IsCanonicalRequest sha request hashed) ↔
      NotTruncated storage client.parser function.methodName date (body.payloadHash sha) ∧
      WrittenAsSigned storage client ∧ HashedAsSent sha body := by
  obtain ⟨notChunked, isMethod, target, takes⟩ := httpclientInit_some isClient
  obtain ⟨sentMethod, sentUri, sentHeaders, sentPayload⟩ :=
    sentRequest_some notChunked takes.path takes.uri isSent
  obtain ⟨sentHost, sentHash, sentDate⟩ := headerValue_sent notChunked
    function authorization (body.payloadHash sha) date body.sent value
  apply and_congr_right
  intro fits
  obtain ⟨host, clientPath, isHost, isClientPath, fitsHeaders, fitsRequest⟩ := fits
  have isHashedText := hashedRequest_eq isHost isClientPath fitsHeaders fitsRequest isHashed
  have isUri : request.uri = cstring (joinUri clientPath client.parser.query) := by
    rw [sentUri, ← takes.query]
    rw [takes.path] at isClientPath
    rw [Option.some.inj isClientPath]
  have sameLength : (body.payloadHash sha).length = (sha.hex body.sent).length := by
    rw [sha.length_hex]
    cases body with
    | none => rfl
    | file content position => exact sha.length_hex _
    | data content => exact sha.length_hex content
  have written : WrittenAsSigned storage client ↔ host = hostHeader client ∧
      isEncoded plainInPath (cstring clientPath) = true ∧
      (0 ∉ clientPath ∨ client.parser.query = []) ∧
      (∀ query ∈ client.parser.query, Byte.space ∉ cstring query.key ∧
        Byte.space ∉ cstring query.value) ∧
      (client.parser.query.map writtenPair).Pairwise PairLe := by
    rw [WrittenAsSigned, isHost, isClientPath]
    simp only [Option.some.injEq, exists_eq_left', and_assoc]
  rw [IsCanonicalRequest, sentMethod, isMethod, methodName_route, sentHeaders,
    sentHost, sentHash, sentDate, sentPayload, isHashedText, isUri, written]
  simp only [Option.some.injEq, exists_eq_left', exists_and_left]
  rw [requestText_canonical_iff sameLength, payloadHash_eq_iff]
  constructor
  · intro all
    exact ⟨⟨all.1.1, all.2⟩, all.1.2⟩
  · intro all
    exact ⟨⟨all.1.1, all.2⟩, all.1.2⟩

def plainStorage : S3 where
  protocol := ascii "https"
  host := ascii "h"
  port := []
  bucket := ascii "b"

def constantSha : Sha256 where
  hex _ := emptyPayloadHash
  length_hex _ := rfl
  hex_nil := rfl

def plainClient (path : Bytes) : Sender where
  method := .get
  headers := []
  requestChunked := false
  payload := []
  pos := 0
  response := { chunked := false, gzip := false }
  parser :=
    { stage := .uri
      buf := []
      useSsl := true
      port := 443
      host := some (ascii "h")
      uri := some (ascii "/b/" ++ path)
      path := some (ascii "/b/" ++ path)
      query := [] }
  host := ascii "h"
  port := 443
  useSsl := true
  bufferSize := 16384

theorem hashedRequest_canonical_plain : httpclientInit StorageFunction.fileGet.route
        (createUrl plainStorage (createUri plainStorage (ascii "a"))) =
      some (plainClient (ascii "a")) ∧
    ∃ request hashed, sentRequest (plainClient (ascii "a"))
          (addedHeaders .fileGet [] (Body.none.payloadHash constantSha)
            (ascii "20260101T000000Z") fun _ => []) Body.none.sent =
        some request ∧
      hashedRequest plainStorage (plainClient (ascii "a")).parser
          StorageFunction.fileGet.methodName (ascii "20260101T000000Z")
          (Body.none.payloadHash constantSha) = some hashed ∧
      IsCanonicalRequest constantSha request hashed := by
  have isClient : httpclientInit StorageFunction.fileGet.route
      (createUrl plainStorage (createUri plainStorage (ascii "a"))) =
        some (plainClient (ascii "a")) := by
    decide +kernel
  refine ⟨isClient, _, _, rfl, rfl, ?_⟩
  have fits : NotTruncated plainStorage (plainClient (ascii "a")).parser
      StorageFunction.fileGet.methodName (ascii "20260101T000000Z")
      (Body.none.payloadHash constantSha) :=
    ⟨ascii "h", ascii "/b/a", by decide, by decide, by decide +kernel, by decide +kernel⟩
  refine ((hashedRequest_canonical_iff plainStorage .fileGet (ascii "a")
    constantSha .none [] (ascii "20260101T000000Z") (fun _ => [])
    (plainClient (ascii "a")) isClient _ rfl _ rfl).mpr
    ⟨fits, ⟨by decide, ⟨ascii "/b/a", rfl, by decide, Or.inr rfl⟩,
      List.forall_mem_nil _, List.Pairwise.nil⟩, trivial⟩).2

/-- A space in the path is signed as it is, not as `%20`. -/
theorem hashedRequest_space : httpclientInit StorageFunction.fileGet.route
        (createUrl plainStorage (createUri plainStorage (ascii "a b"))) =
      some (plainClient (ascii "a b")) ∧
    ∃ request hashed, sentRequest (plainClient (ascii "a b"))
          (addedHeaders .fileGet [] (Body.none.payloadHash constantSha)
            (ascii "20260101T000000Z") fun _ => []) Body.none.sent =
        some request ∧
      hashedRequest plainStorage (plainClient (ascii "a b")).parser
          StorageFunction.fileGet.methodName (ascii "20260101T000000Z")
          (Body.none.payloadHash constantSha) = some hashed ∧
      ¬ IsCanonicalRequest constantSha request hashed := by
  refine ⟨by decide +kernel, _, _, rfl, rfl, ?_⟩
  intro canonical
  obtain ⟨method, query, isName, isQuery, same⟩ := canonical
  cases isName
  have noQuery : query = [] := isQuery
  rw [noQuery] at same
  revert same
  decide +kernel

end CWebFramework.Storage
