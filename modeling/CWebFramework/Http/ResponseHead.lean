import CWebFramework.Http.Dispatch
import CWebFramework.Http.Response
import CWebFramework.Text.Separator

/-!
# The head of a response

`__build_head` of `http_write_filter.c`, and what a client finds in the head:
`readHead` is written from the grammar of a response head and knows nothing of
the server.  The two are inverse to each other exactly for headers that do not
contain their own separators.  Nothing on the way from `add_header` or from a
redirect to the head checks that.
-/

namespace CWebFramework.Http

open Text

/-! ## Building a head -/

def headSize (response : Response) : Nat :=
  9 + statusLength response.statusCode + (response.headers.map fun header =>
      header.key.length + 2 + header.value.length + 2).sum + 2

def appendFull (buf : Bufo) (bytes : Bytes) : Option Bufo :=
  match bufoAppend buf bytes with
  | some (next, written) =>
    if written = bytes.length then some next else none
  | none => none

def crlf : Bytes := [Byte.cr, Byte.lf]

/-- The four calls of `__append_full` for one header. -/
def appendHeader (buf : Bufo) (header : Header) : Option Bufo := do
  let buf ← appendFull buf header.key
  let buf ← appendFull buf [Byte.colon, Byte.space]
  let buf ← appendFull buf header.value
  appendFull buf crlf

def buildHead (response : Response) (buf : Bufo) : Option Bufo := do
  let status ← statusString response.statusCode
  let buf ← bufoAlloc buf (headSize response)
  let buf ← appendFull buf (ascii "HTTP/1.1 ")
  let buf ← appendFull buf (status.take (statusLength response.statusCode))
  let buf ← response.headers.foldlM appendHeader buf
  let buf ← appendFull buf crlf
  return bufoResetPos buf

/-! ## Reading a head -/

/-- The code of a status line `HTTP/1.1 200 OK`. -/
def readStatus (line : Bytes) : Option Nat :=
  if line.take 9 = ascii "HTTP/1.1 " ∧ ((line.drop 9).take 3).length = 3 ∧
      ((line.drop 9).take 3).all isdigit ∧
      (line.drop 12).head? = some Byte.space then
    some (digitsValue ((line.drop 9).take 3))
  else
    none

/-- The headers up to the empty line, and what is behind it. The first argument
bounds the number of lines. -/
def readHeaders : Nat → Bytes → Option (List Header × Bytes)
  | 0, _ => none
  | fuel + 1, bytes => do
      let (line, rest) ← splitPair Byte.cr Byte.lf bytes
      if line = [] then
        return ([], rest)
      else
        let (key, value) ← splitPair Byte.colon Byte.space line
        let (headers, rest) ← readHeaders fuel rest
        return ({ key := key, value := value } :: headers, rest)

/-- A response head: the status, the headers, and what is behind the empty
line. -/
def readHead (bytes : Bytes) : Option (Nat × List Header × Bytes) := do
  let (line, rest) ← splitPair Byte.cr Byte.lf bytes
  let status ← readStatus line
  let (headers, rest) ← readHeaders (rest.length + 1) rest
  return (status, headers, rest)

/-! ## The bytes of a head -/

def headerLine (header : Header) : Bytes := header.key ++ [Byte.colon, Byte.space] ++ header.value

def headerLines (headers : List Header) : Bytes :=
  headers.flatMap fun header => headerLine header ++ crlf

/-- What `__build_head` writes for a known status. -/
def headBytes (response : Response) : Bytes :=
  ascii "HTTP/1.1 " ++ (statusString response.statusCode).getD [] ++
    headerLines response.headers ++ crlf

/-- A status text has the length that is announced for it, is one line and
starts with its code. -/
def statusTextOk (code : Nat) (text : Bytes) : Bool :=
  statusLength code == text.length &&
    match splitPair Byte.cr Byte.lf text with
    | some (line, []) =>
      readStatus (ascii "HTTP/1.1 " ++ line) == some code
    | _ => false

theorem statusStrings_ok : statusStrings.all (fun entry => statusTextOk entry.1 (ascii entry.2)) =
      true := by
  decide +kernel

variable {code : Nat} {text : Bytes}

theorem statusString_ok (known : statusString code = some text) :
    statusTextOk code text = true := by
  obtain ⟨string, listed, rfl⟩ := Option.map_eq_some_iff.mp known
  obtain ⟨before, after, split, -⟩ := List.lookup_eq_some_iff.mp listed
  have checked := List.all_eq_true.mp statusStrings_ok (code, string)
  exact checked (by simp [split])

theorem statusLength_eq (known : statusString code = some text) :
    statusLength code = text.length := by
  have checked := statusString_ok known
  simp only [statusTextOk, Bool.and_eq_true, beq_iff_eq] at checked
  exact checked.1

theorem statusString_line (known : statusString code = some text) : ∃ line, text = line ++ crlf ∧
      ¬ [Byte.cr, Byte.lf] <:+: ascii "HTTP/1.1 " ++ line ∧
      readStatus (ascii "HTTP/1.1 " ++ line) = some code := by
  have checked := statusString_ok known
  simp only [statusTextOk, Bool.and_eq_true, beq_iff_eq] at checked
  have second := checked.2
  split at second
  · rename_i line cut
    obtain ⟨whole, free⟩ := splitPair_eq_some cut
    refine ⟨line, whole, ?_, by simpa using second⟩
    rw [pair_isInfix_append_iff (by decide)]
    exact free
  · cases second

private theorem appendFull_filling {buf : Bufo} (filling : buf.Filling)
    {bytes : Bytes} (fits : bytes.length ≤ buf.room) :
    appendFull buf bytes = some (buf.push bytes) := by
  simp [appendFull, bufoAppend_filling filling, List.take_of_length_le fits]

private theorem foldlM_appendFull {buf : Bufo} (filling : buf.Filling)
    (pieces : List Bytes) (fits : pieces.flatten.length ≤ buf.room) :
    pieces.foldlM appendFull buf = some (buf.push pieces.flatten) := by
  induction pieces generalizing buf with
  | nil => simp [Bufo.push, ← filling.position]
  | cons piece pieces ih =>
    rw [List.flatten_cons, List.length_append] at fits
    have first : piece.length ≤ buf.room := by omega
    have rest : pieces.flatten.length ≤ (buf.push piece).room := by
      rw [Bufo.room_push]
      omega
    rw [List.foldlM_cons, appendFull_filling filling first, List.flatten_cons, ← Bufo.push_push]
    exact ih (filling.push first) rest

theorem length_headerLine (header : Header) : (headerLine header).length =
      header.key.length + 2 + header.value.length := by
  simp [headerLine]
  omega

def headerPieces (header : Header) : List Bytes :=
  [header.key, [Byte.colon, Byte.space], header.value, crlf]

private theorem flatten_headerPieces (headers : List Header) :
    (headers.flatMap headerPieces).flatten = headerLines headers := by
  induction headers with
  | nil => rfl
  | cons header headers ih =>
    rw [List.flatMap_cons, List.flatten_append, ih]
    simp [headerPieces, headerLines, headerLine]

theorem foldlM_appendHeader (headers : List Header) (buf : Bufo) : headers.foldlM appendHeader buf =
      (headers.flatMap headerPieces).foldlM appendFull buf := by
  induction headers generalizing buf with
  | nil => rfl
  | cons header headers ih =>
    have first : appendHeader buf header = (headerPieces header).foldlM appendFull buf := by
      simp [appendHeader, headerPieces]
    rw [List.foldlM_cons, List.flatMap_cons, List.foldlM_append, first]
    exact bind_congr fun next => ih next

private theorem length_headerLines (headers : List Header) : (headerLines headers).length =
      (headers.map fun header =>
        header.key.length + 2 + header.value.length + 2).sum := by
  simp [headerLines, List.length_flatMap, length_headerLine, crlf]

def headPieces (response : Response) (status : Bytes) : List Bytes :=
  [ascii "HTTP/1.1 ", status.take (statusLength response.statusCode)] ++
    response.headers.flatMap headerPieces ++ [crlf]

variable {response : Response} {status : Bytes}

theorem buildHead_pieces (known : statusString response.statusCode = some status) (buf : Bufo) :
    buildHead response buf = (bufoAlloc buf (headSize response)).bind fun allocated =>
        ((headPieces response status).foldlM appendFull allocated).map
          bufoResetPos := by
  simp only [buildHead, known, headPieces, List.foldlM_append,
    foldlM_appendHeader, List.foldlM_cons, List.foldlM_nil,
    Option.bind_eq_bind, Option.bind_assoc, Option.bind_some,
    Option.pure_def, Option.map_bind, Function.comp_def, Option.map_some]

private theorem flatten_headPieces (known : statusString response.statusCode = some status) :
    (headPieces response status).flatten = headBytes response := by
  simp [headPieces, flatten_headerPieces, headBytes, known, statusLength_eq known]

private theorem length_headBytes (known : statusString response.statusCode = some status) :
    (headBytes response).length = headSize response := by
  simp only [headBytes, headSize, length_headerLines, known,
    statusLength_eq known, crlf, List.length_append, Option.getD_some]
  rfl

/-- A head with a known status that stays below the limit of a buffer is
written in full, and only such a head is written at all. -/
theorem buildHead_eq (response : Response) : buildHead response bufoInit =
      if (statusString response.statusCode).isSome ∧ headSize response ≤ bufoMaxCapacity then
        some {
          data := headBytes response
          capacity := headSize response
          pos := 0
          isLast := false }
      else none := by
  cases known : statusString response.statusCode with
  | none => simp [buildHead, known]
  | some status =>
    rw [buildHead_pieces known]
    by_cases small : headSize response ≤ bufoMaxCapacity
    · let buf : Bufo := { bufoInit with capacity := headSize response }
      have allocated : bufoAlloc bufoInit (headSize response) = some buf := by
        simp [bufoAlloc, bufoInit, Nat.not_lt.mpr small, buf]
      have filling : buf.Filling := ⟨by simp [buf, headSize], rfl, Nat.zero_le _⟩
      have written :=
        foldlM_appendFull filling (headPieces response status) (by
          rw [flatten_headPieces known, length_headBytes known]
          simp [buf, Bufo.room, bufoInit])
      rw [flatten_headPieces known] at written
      rw [allocated, Option.bind_some, written, if_pos (by simp [small])]
      simp [buf, Bufo.push, bufoInit, bufoResetPos]
    · have refused : bufoAlloc bufoInit (headSize response) = none := by
        simp [bufoAlloc, bufoInit, Nat.lt_of_not_le small]
      simp [refused, small]

/-! ## Reading back what was written -/

/-- The header does not contain its own separators: no line end in its line,
and no colon with a space in its key. -/
def CleanHeader (header : Header) : Prop :=
  ¬ [Byte.cr, Byte.lf] <:+: headerLine header ∧ ¬ [Byte.colon, Byte.space] <:+: header.key

instance (header : Header) : Decidable (CleanHeader header) := inferInstanceAs (Decidable (_ ∧ _))

private theorem headerLine_ne_nil (header : Header) : headerLine header ≠ [] := by
  simp [headerLine]

private theorem headerLines_cons (header : Header) (headers : List Header) (rest : Bytes) :
    headerLines (header :: headers) ++ crlf ++ rest = headerLine header ++
        Byte.cr :: Byte.lf :: (headerLines headers ++ crlf ++ rest) := by
  simp [headerLines, crlf]

theorem readHeaders_cons_iff {fuel : Nat} {bytes rest : Bytes}
    {header : Header} {headers : List Header} :
    readHeaders (fuel + 1) bytes = some (header :: headers, rest) ↔ ∃ after,
        splitPair Byte.cr Byte.lf bytes = some (headerLine header, after) ∧
          ¬ [Byte.colon, Byte.space] <:+: header.key ∧
          readHeaders fuel after = some (headers, rest) := by
  simp only [readHeaders, Option.bind_eq_bind, Option.bind_eq_some_iff, Prod.exists]
  constructor
  · rintro ⟨line, after, cut, read⟩
    split at read
    · simp at read
    · simp only [Option.bind_eq_some_iff, Prod.exists, Option.pure_def,
        Option.some.injEq, Prod.mk.injEq, List.cons.injEq] at read
      obtain ⟨key, value, keyCut, tail, last, readTail, ⟨rfl, rfl⟩, rfl⟩ := read
      obtain ⟨whole, keyFree⟩ := splitPair_eq_some keyCut
      refine ⟨after, ?_, keyFree, readTail⟩
      rw [cut, whole]
      simp [headerLine]
  · rintro ⟨after, cut, keyFree, readTail⟩
    refine ⟨headerLine header, after, cut, ?_⟩
    rw [if_neg (headerLine_ne_nil header)]
    have keyCut : splitPair Byte.colon Byte.space (headerLine header) =
        some (header.key, header.value) := by
      have split := splitPair_append (by decide) keyFree header.value
      simpa [headerLine] using split
    simp [keyCut, readTail]

/-- The headers that are read from the lines of a list are the list, if and
only if all of its headers are clean. -/
theorem readHeaders_iff (headers : List Header) (rest : Bytes) {fuel : Nat}
    (enough : headers.length < fuel) :
    readHeaders fuel (headerLines headers ++ crlf ++ rest) = some (headers, rest) ↔
      ∀ header ∈ headers, CleanHeader header := by
  induction headers generalizing fuel with
  | nil =>
    obtain ⟨fuel, rfl⟩ := Nat.exists_eq_succ_of_ne_zero (Nat.ne_zero_of_lt enough)
    simp [readHeaders, headerLines, crlf, splitPair]
  | cons header headers ih =>
    obtain ⟨fuel, rfl⟩ := Nat.exists_eq_succ_of_ne_zero (Nat.ne_zero_of_lt enough)
    have tail := ih (Nat.lt_of_succ_lt_succ (by simpa using enough))
    rw [headerLines_cons, List.forall_mem_cons, readHeaders_cons_iff, ← tail]
    constructor
    · rintro ⟨after, cut, keyFree, read⟩
      obtain ⟨whole, lineFree⟩ := splitPair_eq_some cut
      cases List.append_cancel_left whole
      exact ⟨⟨lineFree, keyFree⟩, read⟩
    · rintro ⟨⟨lineFree, keyFree⟩, read⟩
      exact ⟨_, splitPair_append (by decide) lineFree _, keyFree, read⟩

private theorem length_headers_le (headers : List Header) (rest : Bytes) :
    headers.length < (headerLines headers ++ crlf ++ rest).length + 1 := by
  have atLeast : headers.length ≤ (headerLines headers).length := by
    induction headers with
    | nil => exact Nat.zero_le _
    | cons header headers ih =>
      rw [headerLines, List.flatMap_cons, List.length_append]
      rw [headerLines] at ih
      simp only [List.length_cons, List.length_append, length_headerLine] at ih ⊢
      omega
  simp only [List.length_append]
  omega

/-- A head is read back with its status and its headers and up to its end, if
and only if its headers are clean. -/
theorem readHead_iff (known : (statusString response.statusCode).isSome) (rest : Bytes) :
    readHead (headBytes response ++ rest) = some (response.statusCode, response.headers, rest) ↔
      ∀ header ∈ response.headers, CleanHeader header := by
  obtain ⟨text, isText⟩ := Option.isSome_iff_exists.mp known
  obtain ⟨line, rfl, free, status⟩ := statusString_line isText
  have shape : headBytes response ++ rest = (ascii "HTTP/1.1 " ++ line) ++ Byte.cr :: Byte.lf ::
        (headerLines response.headers ++ crlf ++ rest) := by
    simp [headBytes, isText, crlf]
  have cut := splitPair_append (by decide) free (headerLines response.headers ++ crlf ++ rest)
  rw [← readHeaders_iff response.headers rest
    (length_headers_le response.headers rest), readHead, shape, cut]
  simp [status, Option.bind_eq_some_iff]

/-! ## The calls of a handler -/

/-- The calls that add headers. -/
inductive HeaderCall where
  | addHeader (key value : Bytes)
  | redirect (path : Bytes) (status : Nat)
  deriving DecidableEq, Repr

def performCall (env : ResponseEnv) (response : Response) : HeaderCall → Response
  | .addHeader key value => headerAdd env response key value
  | .redirect path status => httpresponseRedirect env response path status

def HeaderCall.headers : HeaderCall → List Header
  | .addHeader key value =>
    [{ key := cstring key, value := cstring value }]
  | .redirect path _ =>
    { key := ascii "Location", value := cstring path } ::
      if redirectIsExternal (cstring path) then
        [{ key := ascii "Connection", value := ascii "Close" }]
      else []

private theorem headerEffect_frame (env : ResponseEnv) (response : Response) (header : Header) :
    (headerEffect env response header).headers = response.headers ∧
      (headerEffect env response header).range = response.range ∧
      (headerEffect env response header).statusCode =
        response.statusCode := by
  unfold headerEffect tryEnableGzip tryEnableTe
  split_ifs <;> exact ⟨rfl, rfl, rfl⟩

private theorem headernAdd_frame (env : ResponseEnv)
    (noRange : response.range = false) (key value : Bytes) :
    (headernAdd env response key value).headers =
        response.headers ++ [{ key := key, value := value }] ∧
      (headernAdd env response key value).range = false ∧
      (headernAdd env response key value).statusCode =
        response.statusCode := by
  obtain ⟨headers, range, status⟩ := headerEffect_frame env
    { response with
      headers := response.headers ++ [{ key := key, value := value }] }
    { key := key, value := value }
  unfold headernAdd
  rw [if_neg (by simp [noRange])]
  exact ⟨headers, range.trans noRange, status⟩

theorem performCall_frame (env : ResponseEnv)
    (noRange : response.range = false) (call : HeaderCall) :
    (performCall env response call).headers = response.headers ++ call.headers ∧
      (performCall env response call).range = false := by
  cases call with
  | addHeader key value =>
    obtain ⟨headers, range, -⟩ := headernAdd_frame env noRange (cstring key) (cstring value)
    exact ⟨headers, range⟩
  | redirect path status =>
    have located : ({ response with statusCode := status } : Response).range = false := noRange
    obtain ⟨headers, range, -⟩ := headernAdd_frame env located
      (cstring (ascii "Location")) (cstring path)
    simp only [performCall, httpresponseRedirect, HeaderCall.headers]
    split
    · obtain ⟨closed, closedRange, -⟩ := headernAdd_frame env range
        (cstring (ascii "Connection")) (cstring (ascii "Close"))
      refine ⟨closed.trans ?_, closedRange⟩
      rw [headers, List.append_assoc]
      rfl
    · exact ⟨headers, range⟩

private theorem foldl_performCall_headers (env : ResponseEnv)
    (calls : List HeaderCall) (noRange : response.range = false) :
    (calls.foldl (performCall env) response).headers =
      response.headers ++ calls.flatMap HeaderCall.headers := by
  induction calls generalizing response with
  | nil => simp
  | cons call calls ih =>
    obtain ⟨headers, range⟩ := performCall_frame env noRange call
    rw [List.foldl_cons, ih range, headers, List.flatMap_cons, List.append_assoc]

/-- The head that is emitted after any calls is read back as the status and the
headers of the calls, and up to its end, if and only if none of these headers
contains a separator. -/
theorem readHead_calls_iff (env : ResponseEnv) (calls : List HeaderCall) {head : Bufo}
    (built : buildHead (calls.foldl (performCall env) httpresponseCreate)
      bufoInit = some head) (rest : Bytes) :
    readHead (head.data ++ rest) =
        some ((calls.foldl (performCall env) httpresponseCreate).statusCode,
          calls.flatMap HeaderCall.headers, rest) ↔
      ∀ header ∈ calls.flatMap HeaderCall.headers, CleanHeader header := by
  have headers : (calls.foldl (performCall env)
      httpresponseCreate).headers = calls.flatMap HeaderCall.headers :=
    foldl_performCall_headers env calls rfl
  rw [buildHead_eq] at built
  split at built
  · rename_i written
    cases built
    have iff := readHead_iff written.1 rest
    rwa [headers] at iff
  · cases built

theorem readHead_calls_iff_redirect : ∃ head, buildHead
          ([HeaderCall.addHeader (ascii "X-A") (ascii "b"),
            .redirect (ascii "/new") 302].foldl (performCall { gzip := [] })
              httpresponseCreate) bufoInit = some head ∧
        readHead (head.data ++ ascii "body") = some (302,
            [{ key := ascii "X-A", value := ascii "b" },
              { key := ascii "Location", value := ascii "/new" }],
            ascii "body") := by
  refine ⟨_, rfl, ?_⟩
  exact (readHead_calls_iff { gzip := [] }
    [.addHeader (ascii "X-A") (ascii "b"), .redirect (ascii "/new") 302]
    rfl (ascii "body")).mpr (by decide)

/-- A line end in a value: the head that is emitted has a header that nobody
has added. -/
theorem addHeader_splits_head : (buildHead
        ([HeaderCall.addHeader (ascii "X") (ascii "a\r\nY: b")].foldl
          (performCall { gzip := [] }) httpresponseCreate) bufoInit).map
        (fun head => readHead head.data) =
      some (some (200, [{ key := ascii "X", value := ascii "a" },
          { key := ascii "Y", value := ascii "b" }], [])) := by
  decide +kernel

end CWebFramework.Http
