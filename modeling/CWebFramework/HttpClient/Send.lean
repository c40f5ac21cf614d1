import CWebFramework.HttpClient.Write

/-!
# Sending requests

`__httpclient_send`: a request is written, its response is read, and a redirect
starts over with the same request object.  The cursor of the payload is moved by
`http_client_write` and is not set back, neither for the next request of a chain
of redirects nor for the next call of `send`; the encodings of the response stay
until a redirect resets it.

A run is a list of operations on one client: the setters that its owner calls,
and calls of `send` with what the network does.
-/

namespace CWebFramework.HttpClient

open Http

/-- The fields of `httpclient_t`, of its request and of its response that the
loop reads. The payload is the content of the file; `pos` is its cursor. -/
structure Sender where
  method : Method
  headers : List Header
  /-- `request->transfer_encoding == TE_CHUNKED`. -/
  requestChunked : Bool
  payload : Bytes
  pos : Nat
  response : ResponseCoding
  parser : UrlParser
  host : Bytes
  port : Nat
  useSsl : Bool
  bufferSize : Nat
  deriving DecidableEq, Repr

/-! ## The headers -/

/-- `http_header_delete`: the first header with the key. -/
def removeHeader (key : Bytes) (headers : List Header) : List Header :=
  headers.eraseP fun header => cmpstrnLower header.key key

def Sender.trySetContentLength (sender : Sender) : Sender :=
  if sender.requestChunked then sender
  else
    { sender with
      headers := removeHeader (ascii "Content-Length") sender.headers ++
        [{ key := ascii "Content-Length"
           value := decimal sender.payload.length }] }

def Sender.setHeaderHost (sender : Sender) : Sender :=
  let host :=
    if sender.port = 80 ∨ sender.port = 443 then sender.host
    else sender.host ++ Byte.colon :: decimal sender.port
  { sender with
    headers := removeHeader (ascii "Host") sender.headers ++
      [{ key := ascii "Host", value := host }] }

/-! ## One exchange -/

/-- `__httpclient_set_url`. What a refused URL leaves in the parser is left out:
there is no uri then. -/
def Sender.setUrl (sender : Sender) (url : Bytes) : Option Sender :=
  match httpclientparserParse sender.useSsl url with
  | .error _ => none
  | .ok parser =>
    some { sender with
      parser := parser
      useSsl := parser.useSsl
      port := if parser.port = 0 then sender.port else parser.port
      host := parser.host.getD sender.host }

/-- What the parser of the response has found of it. -/
structure Answer where
  status : Nat
  location : Option Bytes
  coding : ResponseCoding
  deriving DecidableEq, Repr

/-- What the network does with one request. -/
inductive Exchange where
  /-- The host is one of the own servers, whose handler leaves a response. -/
  | own (coding : ResponseCoding)
  /-- There is no connection. -/
  | unreachable
  /-- The results of the calls that write, and whether the response was read to
  its end. -/
  | answered (results : List Int) (answer : Answer) (read : Bool)

structure WrittenRequest where
  before : Sender
  headers : List Header
  body : Bytes
  deriving DecidableEq, Repr

/-- The request object behind `__httpclient_set_request_uri`. -/
def Sender.request (sender : Sender) : Option (Request × UrlParser) :=
  setRequestUri sender.method
    { httprequestCreate with
      headers := sender.headers
      payload := sender.payload }
    sender.parser

/-- The flags of the response once a part of it was parsed: they are only
set. -/
def ResponseCoding.join (coding found : ResponseCoding) : ResponseCoding where
  chunked := coding.chunked || found.chunked
  gzip := coding.gzip || found.gzip

/-- The end of the redirect branch: `301` and `302` change a method other than
`GET` and `HEAD` to `GET` and drop the payload, and the response is reset. -/
def Sender.redirected (sender : Sender) : Sender :=
  let kept :=
    if sender.method = .get ∨ sender.method = .head then sender
    else
      { sender with
        method := .get
        payload := []
        pos := 0
        requestChunked := false
        headers := removeHeader (ascii "Content-Type") sender.headers }
  { kept with response := { chunked := false, gzip := false } }

/-- The location of a redirect that is followed: `__httpclient_is_redirect`.
Behind ten redirects the response is taken as it is. -/
def followed (count : Nat) (answer : Answer) : Option Bytes :=
  if answer.status ≠ 301 ∧ answer.status ≠ 302 then none
  else if 9 < count then none
  else answer.location.filter fun location => ! location.isEmpty

structure Turn where
  sender : Sender
  written : Option WrittenRequest
  again : Bool
  deriving DecidableEq, Repr

/-- The response was read: a redirect is followed. -/
def Sender.afterRead (sender : Sender) (count : Nat) (answer : Answer)
    (written : WrittenRequest) : Turn :=
  match (followed count answer).bind sender.setUrl with
  | none => { sender := sender, written := some written, again := false }
  | some located =>
    { sender := located.redirected
      written := some written
      again := true }

def Sender.turn (deflate : Deflate) (sender : Sender) (count : Nat) : Exchange → Turn
  | .own coding =>
    let prepared := sender.trySetContentLength.setHeaderHost
    { sender := { prepared with response := prepared.response.join coding }
      written := none
      again := false }
  | .unreachable =>
    { sender := sender.trySetContentLength.setHeaderHost
      written := none
      again := false }
  | .answered results answer read =>
    let prepared := sender.trySetContentLength.setHeaderHost
    match prepared.request with
    -- `strlen` of a string that has moved to the request before
    | none => { sender := prepared, written := none, again := false }
    | some (request, moved) =>
      match httpClientWrite deflate prepared.response prepared.bufferSize
        request results prepared.pos with
      | none =>
        { sender := { prepared with parser := moved }
          written := none
          again := false }
      | some body =>
        let behind := { prepared with parser := moved, pos := body.pos }
        if body.ok = false then
          { sender := behind, written := none, again := false }
        else
          let written : WrittenRequest :=
            { before := sender
              headers := prepared.headers
              body := body.bytes }
          let answered :=
            { behind with
              response := behind.response.join answer.coding }
          if read = false then
            { sender := answered
              written := some written
              again := false }
          else answered.afterRead count answer written

/-- The loop of `__httpclient_send`, with the requests that were written. -/
def sendLoop (deflate : Deflate) : List Exchange → Nat → Sender → Sender × List WrittenRequest
  | [], _, sender => (sender, [])
  | exchange :: rest, count, sender =>
    let turn := sender.turn deflate count exchange
    if turn.again then
      let later := sendLoop deflate rest (count + 1) turn.sender
      (later.1, turn.written.toList ++ later.2)
    else (turn.sender, turn.written.toList)

/-! ## Runs -/

/-- What the owner of a client does with it. -/
inductive Operation where
  | setMethod (method : Method)
  | setUrl (url : Bytes)
  | addHeader (key value : Bytes)
  | removeHeader (key : Bytes)
  | setTransferEncoding (chunked : Bool)
  /-- `httprequest_set_payload_raw`. -/
  | setPayload (value mimetype : Bytes)
  /-- The functions that append to the file of the payload. -/
  | appendPayload (value : Bytes)
  | send (exchanges : List Exchange)

def Sender.perform (deflate : Deflate) (sender : Sender) : Operation → Sender × List WrittenRequest
  | .setMethod method => ({ sender with method := method }, [])
  | .setUrl url =>
    ((sender.setUrl url).getD
      { sender with parser := httpclientparserReset sender.useSsl }, [])
  | .addHeader key value =>
    ({ sender with
        headers := sender.headers ++ [{ key := key, value := value }] }, [])
  | .removeHeader key =>
    ({ sender with
        headers := HttpClient.removeHeader key sender.headers }, [])
  | .setTransferEncoding chunked =>
    ({ sender with requestChunked := chunked }, [])
  | .setPayload value mimetype =>
    ({ sender with
        payload := value
        headers :=
          HttpClient.removeHeader (ascii "Content-Type") sender.headers ++
            [{ key := ascii "Content-Type", value := mimetype }] }, [])
  | .appendPayload value =>
    ({ sender with payload := sender.payload ++ value }, [])
  | .send exchanges => sendLoop deflate exchanges 0 sender

def writtenRequests (deflate : Deflate) : List Operation → Sender → List WrittenRequest
  | [], _ => []
  | operation :: rest, sender =>
    (sender.perform deflate operation).2 ++
      writtenRequests deflate rest (sender.perform deflate operation).1

/-! ## Complete messages -/

/-- The length that the headers announce, if there is one such header. -/
def contentLength? (headers : List Header) : Option Nat :=
  match headers.filter headerIsContentLength with
  | [header] =>
    if header.value ≠ [] ∧ header.value.all isdigit = true then
      some (digitsValue header.value)
    else none
  | _ => none

/-- A complete message: as many bytes follow the head as it announces, and they
are the payload. -/
def WrittenRequest.Complete (written : WrittenRequest) : Prop :=
  contentLength? written.headers = some written.body.length ∧ written.body = written.before.payload

/-- The state in which a request can be written as a complete message. -/
structure Sender.Ready (sender : Sender) : Prop where
  plain : sender.response.chunked = false
  cursor : sender.payload = [] ∨ sender.pos = 0
  lengthOnce : sender.requestChunked = false → sender.headers.countP headerIsContentLength ≤ 1
  lengthGiven : sender.requestChunked = true →
    contentLength? sender.headers = some sender.payload.length

/-! ### The headers of a prepared request -/

private theorem filter_eraseP_self {α : Type} {erased kept : α → Bool}
    (same : ∀ item, erased item = kept item) (items : List α) :
    (items.eraseP erased).filter kept = (items.filter kept).tail := by
  induction items with
  | nil => rfl
  | cons item items ih =>
    cases isKept : kept item with
    | true => simp [same, isKept]
    | false => simp [same, isKept, ih]

private theorem filter_eraseP_other {α : Type} {erased kept : α → Bool}
    (other : ∀ item, erased item = true → kept item = false)
    (items : List α) :
    (items.eraseP erased).filter kept = items.filter kept := by
  induction items with
  | nil => rfl
  | cons item items ih =>
    cases isErased : erased item with
    | true => simp [isErased, other item isErased]
    | false =>
      simp [isErased, List.filter_cons, ih]

private theorem contentLength_lower : (ascii "Content-Length").map tolower =
      (ascii "content-length").map tolower := by
  decide

private theorem cmpstrnLower_contentLength (header : Header) :
    cmpstrnLower header.key (ascii "Content-Length") =
      headerIsContentLength header := by
  rw [headerIsContentLength, Bool.eq_iff_iff, cmpstrnLower_iff,
    cmpstrnLower_iff, contentLength_lower]

private theorem headerIsContentLength_of_host {header : Header}
    (isHost : cmpstrnLower header.key (ascii "Host") = true) :
    headerIsContentLength header = false := by
  by_contra isLength
  rw [Bool.not_eq_false, headerIsContentLength, cmpstrnLower_iff] at isLength
  rw [cmpstrnLower_iff, isLength] at isHost
  exact absurd isHost (by decide)

private theorem contentLength?_setHeaderHost (sender : Sender) :
    contentLength? sender.setHeaderHost.headers = contentLength? sender.headers := by
  have notLength (value : Bytes) : headerIsContentLength
      { key := ascii "Host", value := value } = false :=
    headerIsContentLength_of_host ((cmpstrnLower_iff _ _).mpr rfl)
  have same : sender.setHeaderHost.headers.filter headerIsContentLength =
      sender.headers.filter headerIsContentLength := by
    rw [Sender.setHeaderHost, List.filter_append, removeHeader,
      filter_eraseP_other fun header => headerIsContentLength_of_host,
      List.filter_cons_of_neg (by rw [notLength]; decide), List.filter_nil,
      List.append_nil]
  rw [contentLength?, contentLength?, same]

private theorem contentLength?_single {headers : List Header} {length : Nat}
    (single : headers.filter headerIsContentLength =
      [{ key := ascii "Content-Length", value := decimal length }]) :
    contentLength? headers = some length := by
  have isNumeral : decimal length ≠ [] ∧ (decimal length).all isdigit = true :=
    ⟨numeral_ne_nil 10 length, List.all_eq_true.mpr (isdigit_decimal length)⟩
  rw [contentLength?, single]
  dsimp only
  rw [if_pos isNumeral, digitsValue_decimal]

theorem contentLength?_trySetContentLength {sender : Sender}
    (notChunked : sender.requestChunked = false) (length : Nat) :
    contentLength? sender.trySetContentLength.headers = some length ↔
      sender.headers.countP headerIsContentLength ≤ 1 ∧ sender.payload.length = length := by
  have isLength : headerIsContentLength
      { key := ascii "Content-Length"
        value := decimal sender.payload.length } = true := by
    rw [← cmpstrnLower_contentLength, cmpstrnLower_iff]
  have filtered : sender.trySetContentLength.headers.filter headerIsContentLength =
        (sender.headers.filter headerIsContentLength).tail ++
          [{ key := ascii "Content-Length"
             value := decimal sender.payload.length }] := by
    rw [Sender.trySetContentLength, notChunked, if_neg (by decide),
      List.filter_append, removeHeader,
      filter_eraseP_self cmpstrnLower_contentLength,
      List.filter_cons_of_pos isLength, List.filter_nil]
  rw [List.countP_eq_length_filter]
  generalize sender.headers.filter headerIsContentLength = lengths at filtered ⊢
  rcases lengths with _ | ⟨first, _ | ⟨second, others⟩⟩
  · rw [contentLength?_single filtered, Option.some.injEq]
    exact (and_iff_right (Nat.zero_le 1)).symm
  · rw [contentLength?_single filtered, Option.some.injEq]
    exact (and_iff_right (Nat.le_refl 1)).symm
  · refine iff_of_false ?_ fun both => ?_
    · rw [contentLength?, filtered, List.tail_cons, List.cons_append]
      cases others <;> exact nofun
    · exact absurd both.1 (by simp)

private theorem contentLength?_prepared (sender : Sender) (length : Nat) :
    contentLength? sender.trySetContentLength.setHeaderHost.headers = some length ↔
      (sender.requestChunked = false → sender.headers.countP headerIsContentLength ≤ 1 ∧
            sender.payload.length = length) ∧
        (sender.requestChunked = true → contentLength? sender.headers = some length) := by
  rw [contentLength?_setHeaderHost]
  cases chunked : sender.requestChunked with
  | false =>
    rw [contentLength?_trySetContentLength chunked]
    exact ⟨fun both => ⟨fun _ => both, nofun⟩, fun both => both.1 rfl⟩
  | true =>
    rw [Sender.trySetContentLength, if_pos chunked]
    exact ⟨fun given => ⟨nofun, fun _ => given⟩, fun both => both.2 rfl⟩

/-! ### The requests of a run -/

def WrittenRequest.Comes (deflate : Deflate) (written : WrittenRequest) :
    Prop :=
  written.headers = written.before.trySetContentLength.setHeaderHost.headers ∧
    ∃ (request : Request) (results : List Int) (body : BodyResult),
      request.payload = written.before.payload ∧ httpClientWrite deflate written.before.response
            written.before.bufferSize request results written.before.pos =
          some body ∧
        body.ok = true ∧ written.body = body.bytes

theorem Sender.prepared_fields (sender : Sender) : sender.trySetContentLength.setHeaderHost =
      { sender with
        headers := sender.trySetContentLength.setHeaderHost.headers } := by
  unfold Sender.trySetContentLength
  split_ifs <;> rfl

private theorem setRequestUri_payload {method : Method} {previous request : Request}
    {parser rest : UrlParser}
    (moved : setRequestUri method previous parser = some (request, rest)) :
    request.payload = previous.payload := by
  unfold setRequestUri at moved
  split at moved
  · cases moved
    rfl
  · cases moved

theorem Sender.afterRead_written (sender : Sender) (count : Nat)
    (answer : Answer) (written : WrittenRequest) :
    (sender.afterRead count answer written).written = some written := by
  unfold Sender.afterRead
  split <;> rfl

theorem Sender.turn_comes {deflate : Deflate} {sender : Sender} {count : Nat}
    {exchange : Exchange} {written : WrittenRequest}
    (isWritten : (sender.turn deflate count exchange).written =
      some written) : written.Comes deflate := by
  cases exchange with
  | own coding => cases isWritten
  | unreachable => cases isWritten
  | answered results answer read =>
    unfold Sender.turn at isWritten
    dsimp only at isWritten
    split at isWritten
    · cases isWritten
    · rename_i request moved isRequest
      split at isWritten
      · cases isWritten
      · rename_i body isBody
        have same : written =
            { before := sender
              headers := sender.trySetContentLength.setHeaderHost.headers
              body := body.bytes } ∧ body.ok = true := by
          split_ifs at isWritten with failed unread
          · cases isWritten
            exact ⟨rfl, Bool.not_eq_false _ ▸ failed⟩
          · rw [Sender.afterRead_written] at isWritten
            cases isWritten
            exact ⟨rfl, Bool.not_eq_false _ ▸ failed⟩
        obtain ⟨rfl, isOk⟩ := same
        have samePayload := setRequestUri_payload isRequest
        rw [sender.prepared_fields] at isBody
        refine ⟨rfl, request, results, body, ?_, isBody, isOk, rfl⟩
        rw [samePayload, sender.prepared_fields]

private theorem sendLoop_comes (deflate : Deflate) (exchanges : List Exchange)
    (count : Nat) (sender : Sender) :
    ∀ written ∈ (sendLoop deflate exchanges count sender).2,
      written.Comes deflate := by
  induction exchanges generalizing count sender with
  | nil => exact List.forall_mem_nil _
  | cons exchange rest ih =>
    have first : ∀ written ∈ (sender.turn deflate count exchange).written.toList,
          written.Comes deflate := fun written member =>
      Sender.turn_comes (Option.mem_toList.mp member)
    rw [sendLoop]
    dsimp only
    split_ifs
    · exact List.forall_mem_append.mpr ⟨first, ih (count + 1) _⟩
    · exact first

theorem writtenRequests_comes (deflate : Deflate) (operations : List Operation) (sender : Sender) :
    ∀ written ∈ writtenRequests deflate operations sender,
      written.Comes deflate := by
  induction operations generalizing sender with
  | nil => exact List.forall_mem_nil _
  | cons operation rest ih =>
    refine List.forall_mem_append.mpr ⟨?_, ih _⟩
    cases operation with
    | send exchanges => exact sendLoop_comes deflate exchanges 0 sender
    | _ => exact List.forall_mem_nil _

private theorem drop_eq_self_iff (bytes : Bytes) (count : Nat) :
    bytes.drop count = bytes ↔ bytes = [] ∨ count = 0 := by
  constructor
  · intro same
    have lengths := congrArg List.length same
    rw [List.length_drop] at lengths
    by_cases empty : bytes = []
    · exact Or.inl empty
    · have positive := List.length_pos_iff.mpr empty
      exact Or.inr (by omega)
  · rintro (rfl | rfl)
    · exact List.drop_nil
    · exact List.drop_zero

theorem WrittenRequest.complete_iff {deflate : Deflate}
    {written : WrittenRequest} (comes : written.Comes deflate)
    (plain : written.before.response.chunked = false) :
    written.Complete ↔ written.before.Ready := by
  obtain ⟨sameHeaders, request, results, body, samePayload, isBody, isOk, sameBody⟩ := comes
  have isRest : written.body = written.before.payload.drop written.before.pos := by
    rw [sameBody, httpClientWrite_plain isBody isOk plain, samePayload]
  have whole : written.body = written.before.payload ↔
      written.before.payload = [] ∨ written.before.pos = 0 := by
    rw [isRest]
    exact drop_eq_self_iff _ _
  unfold WrittenRequest.Complete
  rw [sameHeaders, contentLength?_prepared]
  constructor
  · rintro ⟨⟨once, given⟩, isPayload⟩
    rw [isPayload] at once given
    exact ⟨plain, whole.mp isPayload, fun notChunked => (once notChunked).1, given⟩
  · intro ready
    have isPayload := whole.mpr ready.cursor
    rw [isPayload]
    exact ⟨⟨fun notChunked => ⟨ready.lengthOnce notChunked, rfl⟩, ready.lengthGiven⟩, rfl⟩

/-- In every run of a client the requests that are written from a ready client
are complete messages, and without chunks no others are. -/
theorem writtenRequests_complete (deflate : Deflate)
    (operations : List Operation) (sender : Sender) :
    ((∀ written ∈ writtenRequests deflate operations sender, written.before.Ready) →
      ∀ written ∈ writtenRequests deflate operations sender, written.Complete) ∧
    ∀ written ∈ writtenRequests deflate operations sender, written.before.response.chunked = false →
        (written.Complete ↔ written.before.Ready) := by
  have comes := writtenRequests_comes deflate operations sender
  constructor
  · intro ready written member
    have isReady := ready written member
    exact (WrittenRequest.complete_iff (comes written member) isReady.plain).mpr isReady
  · intro written member plain
    exact WrittenRequest.complete_iff (comes written member) plain

def oneByteSender (method : Method) : Sender where
  method := method
  headers := []
  requestChunked := false
  payload := ascii "x"
  pos := 0
  response := { chunked := false, gzip := false }
  parser := parsedUrl (ascii "/a") (ascii "/a") []
  host := ascii "h"
  port := 80
  useSsl := false
  bufferSize := 16384

/-- All bytes are written at once, and the response has a status, and a location
if it is a redirect. -/
def answeredWith (status : Nat) (location : Option Bytes) (chunked : Bool) :
    Exchange :=
  .answered [1000, 1000]
    { status := status
      location := location
      coding := { chunked := chunked, gzip := false } } true

def announcedBodies (operations : List Operation) (sender : Sender) : List (Option Nat × Bytes) :=
  (writtenRequests (fun _ _ => none) operations sender).map fun written =>
    (contentLength? written.headers, written.body)

/-- A payload that a redirect of a `GET` keeps is announced again and not sent
again; a second call of `send` does the same, and behind a chunked response the
empty body of the next request is sent as chunks. -/
theorem writtenRequests_redirect : announcedBodies
        [.send [answeredWith 302 (some (ascii "/b")) false,
          answeredWith 200 none false]] (oneByteSender .get) =
      [(some 1, ascii "x"), (some 1, [])] ∧
    announcedBodies [.send [answeredWith 200 none false], .setUrl (ascii "/b"),
          .send [answeredWith 200 none false]] (oneByteSender .post) =
      [(some 1, ascii "x"), (some 1, [])] ∧
    announcedBodies [.send [answeredWith 200 none true], .setUrl (ascii "/b"),
          .setPayload [] (ascii "text/plain"),
          .send [answeredWith 200 none false]] (oneByteSender .post) =
      [(some 1, ascii "x"), (some 0, ascii "0\r\n\r\n0\r\n\r\n")] := by
  decide +kernel

end CWebFramework.HttpClient
