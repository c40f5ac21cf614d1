import CWebFramework.Http.FormData
import CWebFramework.Http.Request

/-!
# The multipart payload

`multipartparser.c` with its driver `httprequest_payload_parse_multipart`.  The
parser takes the payload byte by byte.  It keeps the places of the header and of
the body in progress and reads a header from the payload file when its line is
complete.

Reading the file is assumed to succeed.
-/

namespace CWebFramework.Http

inductive MultipartStage where
  | firstSeparator
  | headerKey
  | headerSpace
  | headerValue
  | headerEnd
  | extraCr
  | extraLf
  | body
  deriving DecidableEq, Repr

/-- `multipart_res_e`: `pending` is `MP_RES_PARTIAL`. -/
inductive MultipartRes where
  | error
  | pending
  | done
  deriving DecidableEq, Repr

structure PayloadPart where
  offset : Nat
  size : Nat
  fields : List PayloadField
  headers : List Header
  deriving DecidableEq, Repr

/-- `multipartparser_t` without the payload file and the boundary. The number of
headers is that of the list. -/
structure MultipartParser where
  payloadOffset : Nat
  headerKeyOffset : Nat
  headerValueOffset : Nat
  headerKeySize : Nat
  headerValueSize : Nat
  partOffset : Nat
  partSize : Nat
  separatorIndex : Nat
  stage : MultipartStage
  parts : List PayloadPart
  headers : List Header
  error : String
  prevCh : UInt8
  deriving DecidableEq, Repr

def multipartparserInit : MultipartParser where
  payloadOffset := 0
  headerKeyOffset := 0
  headerValueOffset := 0
  headerKeySize := 0
  headerValueSize := 0
  partOffset := 0
  partSize := 0
  separatorIndex := 0
  stage := .firstSeparator
  parts := []
  headers := []
  error := ""
  prevCh := 0

def isValidHeaderKeyChar (byte : UInt8) : Bool :=
  decide ((97 ≤ byte ∧ byte ≤ 122) ∨ (65 ≤ byte ∧ byte ≤ 90) ∨
    (48 ≤ byte ∧ byte ≤ 57)) || (ascii "-_!#$%&'*+.^`|~").contains byte

def isValidHeaderValueChar (byte : UInt8) : Bool :=
  decide (32 ≤ byte ∧ byte ≠ 127) || byte == Byte.ht

inductive FirstSeparator where
  | error
  | pass
  | done
  deriving DecidableEq, Repr

def firstSeparatorCheck (boundary : Bytes) (index : Nat) (byte : UInt8) :
    FirstSeparator :=
  let size := boundary.length + 4
  if size < index then .error
  else if index = 0 ∧ byte = Byte.hyphen then .pass
  else if index = 1 ∧ byte = Byte.hyphen then .pass
  else if 1 < index ∧ index < size - 2 ∧ boundary[index - 2]? = some byte then .pass
  else if index = size - 2 ∧ byte = Byte.cr then .pass
  else if index = size - 1 ∧ byte = Byte.lf then .done
  else .error

inductive IntermediateSeparator where
  | error
  | notSeparator
  | pass
  | nextPart
  | done
  deriving DecidableEq, Repr

def intermediateSeparatorCheck (boundary : Bytes) (index : Nat)
    (prevCh byte : UInt8) : IntermediateSeparator :=
  let size := boundary.length + 6
  if size < index then .error
  else if index = 0 ∧ byte ≠ Byte.cr then .notSeparator
  else if index = 0 ∧ byte = Byte.cr then .pass
  else if index = 1 ∧ byte = Byte.lf then .pass
  else if index = 2 ∧ byte = Byte.hyphen then .pass
  else if index = 3 ∧ byte = Byte.hyphen then .pass
  else if 3 < index ∧ index < size - 2 ∧ boundary[index - 4]? = some byte then .pass
  else if index = size - 2 ∧ (byte = Byte.cr ∨ byte = Byte.hyphen) then .pass
  else if index = size - 1 ∧ prevCh = Byte.cr ∧ byte = Byte.lf then .nextPart
  else if index = size - 1 ∧ prevCh = Byte.hyphen ∧ byte = Byte.hyphen then
    .done
  else .notSeparator

/-- What comes of a byte: the parser goes on, or it returns `MP_RES_ERROR` or
`MP_RES_DONE`. -/
inductive MultipartStep where
  | next (parser : MultipartParser)
  | failed (parser : MultipartParser)
  | closed (parser : MultipartParser)
  deriving DecidableEq, Repr

namespace MultipartParser

def fail (parser : MultipartParser) (error : String) : MultipartStep :=
  .failed { parser with error := error }

def resetHeader (parser : MultipartParser) : MultipartParser :=
  { parser with
    headerKeyOffset := 0
    headerKeySize := 0
    headerValueOffset := 0
    headerValueSize := 0 }

/-- `multipartparser_create_header`. There is none for an eleventh header. -/
def createHeader (payload : Bytes) (parser : MultipartParser) : Option MultipartParser :=
  if 10 ≤ parser.headers.length then none
  else
    some { parser.resetHeader with
      headers := parser.headers ++
        [{ key := (payload.drop parser.headerKeyOffset).take parser.headerKeySize
           value := (payload.drop parser.headerValueOffset).take parser.headerValueSize }] }

/-- The fields of the first `Content-Disposition` of a part. -/
def dispositionFields (headers : List Header) : List PayloadField :=
  match headers.find? (fun header =>
      header.key == ascii "Content-Disposition") with
  | some header => formdataparserFields (ascii "form-data") header.value
  | none => []

def createPart (boundary : Bytes) (parser : MultipartParser) :
    MultipartParser :=
  { parser with
    parts := parser.parts ++
      [{ offset := parser.partOffset
         size := parser.partSize - (boundary.length + 6)
         fields := dispositionFields parser.headers
         headers := parser.headers }]
    headers := [] }

def toHeaders (parser : MultipartParser) : MultipartParser :=
  { parser.resetHeader with
    stage := .headerKey
    separatorIndex := 0
    headerKeyOffset := parser.payloadOffset + 1 }

def firstSeparatorByte (boundary : Bytes) (parser : MultipartParser)
    (byte : UInt8) : MultipartStep :=
  match firstSeparatorCheck boundary parser.separatorIndex byte with
  | .error => parser.fail "multipartparser: invalid first separator"
  | .pass =>
    .next { parser with separatorIndex := parser.separatorIndex + 1 }
  | .done => .next parser.toHeaders

def headerKeyByte (parser : MultipartParser) (byte : UInt8) :
    MultipartStep :=
  if byte = Byte.colon then
    .next { parser with
      stage := .headerSpace
      headerValueOffset := parser.payloadOffset + 1 }
  else if ! isValidHeaderKeyChar byte then
    parser.fail "multipartparser: invalid character in header key"
  else if 1024 ≤ parser.headerKeySize then
    parser.fail "multipartparser: header key size exceeds limit"
  else .next { parser with headerKeySize := parser.headerKeySize + 1 }

/-- A byte of the value of a header. -/
def valueByte (parser : MultipartParser) (byte : UInt8) (tooLong : String) :
    MultipartStep :=
  if ! isValidHeaderValueChar byte then
    parser.fail "multipartparser: invalid character in header value"
  else if 4096 ≤ parser.headerValueSize then parser.fail tooLong
  else
    .next { parser with
      stage := .headerValue
      headerValueSize := parser.headerValueSize + 1 }

def headerSpaceByte (parser : MultipartParser) (byte : UInt8) :
    MultipartStep :=
  if byte = Byte.space then
    .next { parser with headerValueOffset := parser.payloadOffset + 1 }
  else if byte = Byte.cr then .next { parser with stage := .headerEnd }
  else parser.valueByte byte "multipartparser: header value size exceeds limit (HEADER_SPACE)"

def headerValueByte (parser : MultipartParser) (byte : UInt8) :
    MultipartStep :=
  if byte = Byte.cr then .next { parser with stage := .headerEnd }
  else parser.valueByte byte "multipartparser: header value size exceeds limit (HEADER_VALUE)"

def headerEndByte (payload : Bytes) (parser : MultipartParser) (byte : UInt8) : MultipartStep :=
  if byte = Byte.lf then
    match parser.createHeader payload with
    | none => parser.fail "multipartparser: failed to create header"
    | some parser => .next { parser with stage := .extraCr }
  else parser.fail "multipartparser: expected LF after CR in HEADER_END"

def extraCrByte (parser : MultipartParser) (byte : UInt8) : MultipartStep :=
  if byte = Byte.cr then .next { parser with stage := .extraLf }
  else if ! isValidHeaderKeyChar byte then
    parser.fail "multipartparser: invalid character in header key"
  else
    .next { parser.resetHeader with
      stage := .headerKey
      headerKeySize := 1
      headerKeyOffset := parser.payloadOffset }

def extraLfByte (parser : MultipartParser) (byte : UInt8) : MultipartStep :=
  if byte = Byte.lf then
    .next { parser with
      stage := .body
      partOffset := parser.payloadOffset + 1
      partSize := 0 }
  else parser.fail "multipartparser: expected LF after CR in EXTRA_LF"

/-- The case `MP_STG_BODY`. The separator is looked for again from its start at
a byte that does not continue it. -/
def bodyByte (boundary : Bytes) (parser : MultipartParser) (byte : UInt8) :
    MultipartStep :=
  match intermediateSeparatorCheck boundary parser.separatorIndex parser.prevCh byte with
  | .error => parser.fail "multipartparser: invalid intermediate separator"
  | .notSeparator =>
    .next { parser with
      separatorIndex :=
        if intermediateSeparatorCheck boundary 0 parser.prevCh byte = .pass
        then 1 else 0 }
  | .pass =>
    .next { parser with separatorIndex := parser.separatorIndex + 1 }
  | .nextPart => .next (parser.createPart boundary).toHeaders
  | .done => .closed (parser.createPart boundary)

/-- The body of the loop of `multipartparser_parse` up to the step to the next
byte. -/
def byte (payload boundary : Bytes) (parser : MultipartParser) (byte : UInt8) : MultipartStep :=
  match parser.stage with
  | .firstSeparator => parser.firstSeparatorByte boundary byte
  | .headerKey => parser.headerKeyByte byte
  | .headerSpace => parser.headerSpaceByte byte
  | .headerValue => parser.headerValueByte byte
  | .headerEnd => parser.headerEndByte payload byte
  | .extraCr => parser.extraCrByte byte
  | .extraLf => parser.extraLfByte byte
  | .body => parser.bodyByte boundary byte

def advance (parser : MultipartParser) (byte : UInt8) : MultipartParser :=
  { parser with
    payloadOffset := parser.payloadOffset + 1
    partSize := parser.partSize + 1
    prevCh := byte }

def loop (payload boundary : Bytes) : Bytes → MultipartParser → MultipartRes × MultipartParser
  | [], parser => (.pending, parser)
  | letter :: buffer, parser =>
    match parser.byte payload boundary letter with
    | .next parser => loop payload boundary buffer (parser.advance letter)
    | .failed parser => (.error, parser)
    | .closed parser => (.done, parser)

end MultipartParser

def multipartparserParse (payload boundary : Bytes) (parser : MultipartParser) (buffer : Bytes) :
    MultipartRes × MultipartParser :=
  if buffer = [] then
    (.error, { parser with error := "multipartparser: empty buffer" })
  else MultipartParser.loop payload boundary buffer parser

/-- The loop of `httprequest_payload_parse_multipart` over the blocks that `read`
gives. The result is that of the last block. -/
def multipartReads (payload boundary : Bytes) : List Bytes → MultipartRes → MultipartParser →
      MultipartRes × MultipartParser
  | [], res, parser => (res, parser)
  | block :: blocks, _, parser =>
    match multipartparserParse payload boundary parser block with
    | (.error, parser) => (.error, parser)
    | (res, parser) => multipartReads payload boundary blocks res parser

/-- `httprequest_payload_parse_multipart` for a payload file that is read in the
given blocks. The header value names the boundary. -/
def httprequestPayloadParseMultipart (headerValue : Bytes)
    (blocks : List Bytes) : Option (List PayloadPart) := do
  let boundary ← formdataparserFindField
    (formdataparserFields (ascii "multipart/form-data") headerValue)
    (ascii "boundary")
  let (res, parser) := multipartReads blocks.flatten (cstring boundary)
    blocks .error multipartparserInit
  if res = .done then some parser.parts else none

end CWebFramework.Http
