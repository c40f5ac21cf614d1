import CWebFramework.HttpClient.RequestLine
import CWebFramework.Misc.Numerals

/-!
# Writing a request

`http_client_write`: the head of a request and then its payload, piece by piece
from the file.  What the calls of `connection_data_write` return is a list of
numbers, so that every pattern of short writes is one such list; behind its end
the connection is broken.

The body is framed as chunks when the *response* object says so, which is the one
that the previous exchange of the client has left.
-/

namespace CWebFramework.HttpClient

open Http

/-! ## The calls of the connection -/

/-- What a writer has sent, whether it was successful, and the results of the
calls that are left. -/
structure Sent where
  bytes : Bytes
  ok : Bool
  left : List Int
  deriving DecidableEq, Repr

def writeAll : List Int → Bytes → Sent
  | results, [] => { bytes := [], ok := true, left := results }
  | [], _ :: _ => { bytes := [], ok := false, left := [] }
  | result :: results, byte :: data =>
    if result ≤ 0 then { bytes := [], ok := false, left := results }
    else
      let later := writeAll results ((byte :: data).drop result.toNat)
      { later with bytes := (byte :: data).take result.toNat ++ later.bytes }

/-- The frames of a piece of the body, one after the other. -/
def writeFrames (results : List Int) : List Bytes → Sent
  | [] => { bytes := [], ok := true, left := results }
  | frame :: frames =>
    let first := writeAll results frame
    if first.ok then
      let later := writeFrames first.left frames
      { later with bytes := first.bytes ++ later.bytes }
    else first

/-! ## The body -/

def chunkFrame (data : Bytes) (last : Bool) : Bytes :=
  hexadecimal (data.length % 2 ^ 32) ++ ascii "\r\n" ++ data ++
    ascii "\r\n" ++ (if last then ascii "0\r\n\r\n" else [])

/-- The compression of a piece: what each call of `gzip_deflate` gives, with the
flag of the end of the stream, or nothing at an error. The stream is initialised
for each piece. -/
abbrev Deflate := Bytes → Bool → Option (List (Bytes × Bool))

/-- The frames that `__write_body` writes for a piece when the response is
chunked. -/
def bodyFrames (deflate : Deflate) (gzip : Bool) (piece : Bytes)
    (last : Bool) : Option (List Bytes) :=
  if gzip then
    (deflate piece last).map fun outputs =>
      outputs.map fun output => chunkFrame output.1 output.2
  else some [chunkFrame piece last]

/-- What was written of the body, and the cursor behind it. -/
structure BodyResult where
  bytes : Bytes
  ok : Bool
  pos : Nat
  deriving DecidableEq, Repr

/-- The loop of `http_client_write` over the payload without chunks. -/
def writePlain (bufferSize : Nat) (payload : Bytes) : List Int → Nat → BodyResult
  | [], pos =>
    { bytes := [], ok := decide (payload.length ≤ pos), pos := pos }
  | result :: results, pos =>
    if payload.length ≤ pos then { bytes := [], ok := true, pos := pos }
    else if result < 0 then { bytes := [], ok := false, pos := pos }
    else
      let sent := ((payload.drop pos).take bufferSize).take result.toNat
      let later := writePlain bufferSize payload results (pos + sent.length)
      { later with bytes := sent ++ later.bytes }

/-- The same loop with chunks. Each turn takes a piece from the file; without
room for a byte in the buffer it does not come to an end. -/
def writeChunked (deflate : Deflate) (gzip : Bool) (bufferSize : Nat)
    (payload : Bytes) : Nat → List Int → Nat → BodyResult
  | 0, _, pos => { bytes := [], ok := false, pos := pos }
  | turns + 1, results, pos =>
    if payload.length ≤ pos then { bytes := [], ok := true, pos := pos }
    else
      let piece := (payload.drop pos).take bufferSize
      let last := decide (payload.length - pos ≤ piece.length)
      match bodyFrames deflate gzip piece last with
      | none => { bytes := [], ok := false, pos := pos }
      | some frames =>
        let sent := writeFrames results frames
        if sent.ok then
          let later := writeChunked deflate gzip bufferSize payload turns
            sent.left (pos + piece.length)
          { later with bytes := sent.bytes ++ later.bytes }
        else { bytes := sent.bytes, ok := false, pos := pos }

/-- The encodings of the response object at the time of the call. -/
structure ResponseCoding where
  chunked : Bool
  gzip : Bool
  deriving DecidableEq, Repr

/-- `http_client_write` behind the head. Without a payload `__write_body` is
called once and its result is ignored. -/
def writePayload (deflate : Deflate) (coding : ResponseCoding)
    (bufferSize : Nat) (payload : Bytes) (results : List Int) (pos : Nat) :
    BodyResult :=
  if payload = [] then
    if coding.chunked then
      match bodyFrames deflate coding.gzip [] true with
      | none => { bytes := [], ok := true, pos := pos }
      | some frames =>
        { bytes := (writeFrames results frames).bytes, ok := true, pos := pos }
    else { bytes := [], ok := true, pos := pos }
  else if coding.chunked then
    writeChunked deflate coding.gzip bufferSize payload (payload.length + 1) results pos
  else writePlain bufferSize payload results pos

/-- `http_client_write`: nothing if the head cannot be written, and otherwise
what follows it. -/
def httpClientWrite (deflate : Deflate) (coding : ResponseCoding)
    (bufferSize : Nat) (request : Request) (results : List Int) (pos : Nat) :
    Option BodyResult :=
  match httprequestCreateHead request with
  | none => none
  | some head =>
    let sent := writeAll results head
    if sent.ok then
      some (writePayload deflate coding bufferSize request.payload sent.left pos)
    else none

/-! ## Without chunks the body is the rest of the payload -/

theorem writePlain_ok {bufferSize : Nat} {payload : Bytes} {results : List Int} {pos : Nat}
    (isOk : (writePlain bufferSize payload results pos).ok = true) :
    (writePlain bufferSize payload results pos).bytes = payload.drop pos := by
  induction results generalizing pos with
  | nil =>
    have isEnd : payload.length ≤ pos := of_decide_eq_true isOk
    rw [writePlain, List.drop_eq_nil_of_le isEnd]
  | cons result results ih =>
    rw [writePlain] at isOk ⊢
    split_ifs at isOk ⊢ with isEnd failed
    · rw [List.drop_eq_nil_of_le isEnd]
    · have later := ih isOk
      -- What was sent is the front of what the file still holds.
      have front : ((payload.drop pos).take bufferSize).take result.toNat <+: payload.drop pos :=
        (List.take_prefix _ _).trans (List.take_prefix _ _)
      dsimp only
      rw [later, ← List.drop_drop]
      exact List.prefix_iff_eq_append.mp front

theorem httpClientWrite_plain {deflate : Deflate} {coding : ResponseCoding} {bufferSize : Nat}
    {request : Request} {results : List Int} {pos : Nat} {body : BodyResult}
    (written : httpClientWrite deflate coding bufferSize request results pos = some body)
    (isOk : body.ok = true) (plain : coding.chunked = false) :
    body.bytes = request.payload.drop pos := by
  unfold httpClientWrite at written
  split at written
  · cases written
  · dsimp only at written
    split_ifs at written
    cases written
    unfold writePayload at isOk ⊢
    rw [plain] at isOk ⊢
    by_cases empty : request.payload = []
    · rw [if_pos empty, empty, List.drop_nil]
      rfl
    · rw [if_neg empty] at isOk ⊢
      exact writePlain_ok isOk

end CWebFramework.HttpClient
