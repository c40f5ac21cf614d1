import CWebFramework.Http.ChunkedFilter

/-!
# The transfer-encoding parser of the client

`httpteparser.c`: the client reads a chunked body from the buffers of its
reads.  Size lines, data and line ends may be cut by the end of a buffer.  The
data of a chunk goes to the payload of the response, and through `inflate` if
the content is compressed.
-/

namespace CWebFramework.HttpClient

open Http

/-! ## The parser -/

inductive TeStage where
  | chunksize
  | chunksizeNewline
  | chunksizeExt
  | chunk
  | chunkNewline
  | trailer
  | trailerNewline
  | trailerFinalNewline
  deriving DecidableEq, Repr

/-- `httpteparser_t` with the response that it writes to. -/
structure TeParser (Response : Type) where
  stage : TeStage
  buf : Bytes
  chunkSize : Nat
  chunkSizeReaded : Nat
  response : Response
  deriving DecidableEq, Repr

def httpteparserInit {Response : Type} (response : Response) : TeParser Response where
  stage := .chunksize
  buf := []
  chunkSize := 0
  chunkSizeReaded := 0
  response := response

/-- A pass through the loop of `__hex_to_dec`: `none` is `-1`, for a character
without a value and for a number above `INT_MAX`. -/
def hexToDecStep (value : Nat) (digit : UInt8) : Option Nat := do
  let digit ← hexCharToInt digit
  let value := 16 * value + digit.toNat
  if 2147483647 < value then none else some value

def hexToDec (digits : Bytes) : Option Nat := digits.foldlM hexToDecStep 0

inductive TePass (Response : Type) where
  | next (parser : TeParser Response) (rest : Bytes)
  | complete (parser : TeParser Response) (rest : Bytes)
  | error

inductive TeResult (Response : Type) where
  | next (parser : TeParser Response)
  | complete (parser : TeParser Response) (rest : Bytes)
  | error

section Parser

variable {Response : Type} (append : Response → Bytes → Option Response)

def setChunkSize (parser : TeParser Response) : Option (TeParser Response) := do
  let size ← hexToDec parser.buf
  return { parser with chunkSize := size, chunkSizeReaded := 0 }

def readChunk (parser : TeParser Response) (buffer : Bytes) :
    Option (TeParser Response × Bytes) := do
  let data := buffer.take (parser.chunkSize - parser.chunkSizeReaded)
  if data = [] then return (parser, buffer)
  let response ← append parser.response data
  return ({ parser with
    chunkSizeReaded := parser.chunkSizeReaded + data.length
    response := response }, buffer.drop data.length)

def chunksizePass (parser : TeParser Response) (ch : UInt8) (rest : Bytes) : TePass Response :=
  if ch = Byte.cr then
    if 8 < parser.buf.length then .error
    else
      match setChunkSize parser with
      | none => .error
      | some parser =>
        .next { parser with stage := .chunksizeNewline, buf := [] } rest
  else if ch = Byte.semicolon then
    match setChunkSize parser with
    | none => .error
    | some parser =>
      .next { parser with stage := .chunksizeExt, buf := [] } rest
  else if 8 < parser.buf.length then .error
  else .next { parser with buf := parser.buf ++ [ch] } rest

/-- `HTTP1TEPARSER_CHUNK`. The character behind the data is consumed, a carriage
return or not. -/
def chunkPass (parser : TeParser Response) (buffer : Bytes) : TePass Response :=
  match readChunk append parser buffer with
  | none => .error
  | some (parser, []) => .next parser []
  | some (parser, ch :: rest) =>
    if parser.chunkSize ≤ parser.chunkSizeReaded ∧ ch = Byte.cr then
      .next { parser with stage := .chunkNewline } rest
    else .next parser rest

def trailerPass (parser : TeParser Response) (ch : UInt8) (rest : Bytes) : TePass Response :=
  if ch = Byte.cr then
    if parser.buf = [] then
      .next { parser with stage := .trailerFinalNewline } rest
    else .next { parser with stage := .trailerNewline, buf := [] } rest
  else if 8192 < parser.buf.length then .error
  else .next { parser with buf := parser.buf ++ [ch] } rest

def tePass (parser : TeParser Response) (ch : UInt8) (rest : Bytes) : TePass Response :=
  match parser.stage with
  | .chunksize => chunksizePass parser ch rest
  | .chunksizeNewline =>
    if ch = Byte.lf then
      .next { parser with
        stage := if parser.chunkSize = 0 then .trailer else .chunk } rest
    else .error
  | .chunksizeExt =>
    if ch = Byte.cr then
      .next { parser with stage := .chunksizeNewline } rest
    else .next parser rest
  | .chunk => chunkPass append parser (ch :: rest)
  | .chunkNewline =>
    if ch = Byte.lf then .next { parser with stage := .chunksize } rest
    else .error
  | .trailer => trailerPass parser ch rest
  | .trailerNewline =>
    if ch = Byte.lf then .next { parser with stage := .trailer } rest
    else .error
  | .trailerFinalNewline =>
    if ch = Byte.lf then .complete parser rest else .error

/-- The loop of `httpteparser_run`. Every pass consumes a byte, so the first
argument never runs out. -/
def teLoop : Nat → TeParser Response → Bytes → TeResult Response
  | fuel + 1, parser, ch :: rest =>
    match tePass append parser ch rest with
    | .next parser rest => teLoop fuel parser rest
    | .complete parser rest => .complete parser rest
    | .error => .error
  | _, parser, _ => .next parser

def httpteparserRun (parser : TeParser Response) (buffer : Bytes) : TeResult Response :=
  teLoop append buffer.length parser buffer

/-- The reads of a response, up to the first one that does not end with
`HTTP1TEPARSER_CONTINUE`. The rest is what is not consumed by then. -/
def teReads : TeParser Response → List Bytes → TeResult Response
  | parser, [] => .next parser
  | parser, buffer :: reads =>
    match httpteparserRun append parser buffer with
    | .next parser => teReads parser reads
    | .complete parser rest => .complete parser (rest ++ reads.flatten)
    | .error => .error

end Parser

/-! ## Size lines -/

private theorem le_foldl_hex (digits : Bytes) (start : Nat) : start ≤ digits.foldl
      (fun value digit => 16 * value + hexDigitValue digit) start := by
  induction digits generalizing start with
  | nil => exact Nat.le_refl _
  | cons digit digits ih =>
    have rest := ih (16 * start + hexDigitValue digit)
    rw [List.foldl_cons]
    omega

theorem foldlM_hexToDecStep {digits : Bytes}
    (isHexadecimal : ∀ digit ∈ digits, (hexCharToInt digit).isSome = true) {start : Nat}
    (small : digits.foldl (fun value digit => 16 * value + hexDigitValue digit) start ≤
        2147483647) :
    digits.foldlM hexToDecStep start = some (digits.foldl
      (fun value digit => 16 * value + hexDigitValue digit) start) := by
  induction digits generalizing start with
  | nil => rfl
  | cons digit digits ih =>
    have ⟨isDigit, others⟩ := List.forall_mem_cons.mp isHexadecimal
    obtain ⟨value, isValue⟩ := Option.isSome_iff_exists.mp isDigit
    have same : hexDigitValue digit = value.toNat := by
      rw [hexDigitValue, isValue]
      rfl
    have bounded : 16 * start + hexDigitValue digit ≤ 2147483647 :=
      (le_foldl_hex digits _).trans small
    rw [same] at bounded
    have step : hexToDecStep start digit = some (16 * start + hexDigitValue digit) := by
      rw [hexToDecStep, isValue, same]
      exact if_neg (Nat.not_lt.mpr bounded)
    rw [List.foldlM_cons, step]
    exact ih others small

end CWebFramework.HttpClient
