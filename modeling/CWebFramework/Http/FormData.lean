import CWebFramework.Http.Urlencoded

/-!
# Header values with parameters

`formdataparser.c`: the parser of the values of `Content-Disposition` and of the
`Content-Type` of a multipart request.  Its callers ignore its result and take
the fields it has found, also those found before an error.
-/

namespace CWebFramework.Http

namespace Byte

abbrev quote : UInt8 := 34

abbrev apostrophe : UInt8 := 39

abbrev star : UInt8 := 42

abbrev hyphen : UInt8 := 45

abbrev backslash : UInt8 := 92

end Byte

inductive FormdataStage where
  | semicolon
  | skip
  | key
  | equal
  | value
  | afterValue
  deriving DecidableEq, Repr

def formdatabufsiz : Nat := 1024

/-- `formdataparser_t`. `buffer` is the part of the buffer that is in use, and
`escaped` the local variable of `formdataparser_parse`. -/
structure FormdataParser where
  stage : FormdataStage
  quote : Bool
  escaped : Bool
  buffer : Bytes
  fields : List PayloadField
  error : String
  deriving DecidableEq, Repr

def formdataparserInit : FormdataParser where
  stage := .semicolon
  quote := false
  escaped := false
  buffer := []
  fields := []
  error := ""

/-- `isalpha` in the C locale. -/
def isalpha (byte : UInt8) : Bool :=
  decide ((65 ≤ byte ∧ byte ≤ 90) ∨ (97 ≤ byte ∧ byte ≤ 122))

def isFormdataKey (byte : UInt8) : Bool := isalpha byte || byte == Byte.hyphen || byte == Byte.star

/-- `formdataparser_percent_decode`: what was decoded, and whether that is
all. -/
def formdataparserPercentDecode : Bytes → Bytes × Bool
  | [] => ([], true)
  | byte :: rest =>
    if byte = Byte.percent then
      match rest with
      | high :: low :: tail =>
        match hexCharToInt high, hexCharToInt low with
        | some hi, some lo =>
          let (decoded, complete) := formdataparserPercentDecode tail
          ((hi <<< 4 ||| lo) :: decoded, complete)
        | _, _ => ([], false)
      | _ => ([], false)
    else
      let (decoded, complete) := formdataparserPercentDecode rest
      (byte :: decoded, complete)

namespace FormdataParser

def fail (parser : FormdataParser) (error : String) : Except FormdataParser FormdataParser :=
  .error { parser with error := error }

def push (parser : FormdataParser) (byte : UInt8) : FormdataParser :=
  { parser with buffer := parser.buffer ++ [byte] }

def withValue (parser : FormdataParser) (value : Bytes) : FormdataParser :=
  match parser.fields.getLast? with
  | some last =>
    { parser with
      fields := parser.fields.dropLast ++ [{ last with value := value }] }
  | none => parser

/-- `formdataparser_save_key`. Its error is replaced by the caller's. -/
def saveKey (parser : FormdataParser) : Except FormdataParser FormdataParser :=
  if parser.buffer = [] then
    parser.fail "formdataparser: failed to save key"
  else
    .ok { parser with
      fields := parser.fields ++ [{ key := parser.buffer, value := [] }]
      buffer := [] }

def extendedValue (buffer : Bytes) : Bytes :=
  let behind := (buffer.dropWhile (· != Byte.apostrophe)).tail
  (behind.dropWhile (· != Byte.apostrophe)).tail

def saveValue (parser : FormdataParser) : Except FormdataParser FormdataParser :=
  match parser.fields.getLast? with
  | none => parser.fail "formdataparser: no field to save value"
  | some last =>
    if last.key.getLast? = some Byte.star then
      let encoded := extendedValue parser.buffer
      if encoded = [] then
        parser.fail "formdataparser: missing value after charset'language' in key*"
      else
        let (decoded, complete) := formdataparserPercentDecode encoded
        if complete then
          .ok { parser.withValue decoded with buffer := [] }
        else
          (parser.withValue decoded).fail "formdataparser: invalid hex in percent-encoding"
    else .ok { parser.withValue parser.buffer with buffer := [] }

def semicolonByte (parser : FormdataParser) (byte : UInt8) : Except FormdataParser FormdataParser :=
  if byte = Byte.semicolon then .ok { parser with stage := .skip }
  else if byte = Byte.space then .ok parser
  else if isalpha byte then .ok { parser.push byte with stage := .key }
  else parser.fail "formdataparser: get invalid character instead semicolon"

def skipByte (parser : FormdataParser) (byte : UInt8) : Except FormdataParser FormdataParser :=
  if byte = Byte.space then .ok parser
  else if isFormdataKey byte then .ok { parser.push byte with stage := .key }
  else parser.fail "formdataparser: get invalid character after semicolon"

def keyByte (parser : FormdataParser) (byte : UInt8) : Except FormdataParser FormdataParser :=
  if byte = Byte.equal then { parser with stage := .value }.saveKey
  else if byte = Byte.semicolon then { parser with stage := .skip }.saveKey
  else if byte = Byte.space then do
    let parser ← parser.saveKey
    return { parser with stage := .equal }
  else if isFormdataKey byte then .ok (parser.push byte)
  else parser.fail "formdataparser: get invalid character in key"

def equalByte (parser : FormdataParser) (byte : UInt8) : Except FormdataParser FormdataParser :=
  if byte = Byte.space then .ok parser
  else if byte = Byte.equal then .ok { parser with stage := .value }
  else parser.fail "formdataparser: expected '=' after key"

/-- The case `FORMDATA_VALUE` inside quotes. -/
def quotedByte (parser : FormdataParser) (byte : UInt8) : Except FormdataParser FormdataParser :=
  if parser.escaped then
    if byte = Byte.quote ∨ byte = Byte.backslash then
      .ok { parser.push byte with escaped := false }
    else
      .ok { (parser.push Byte.backslash).push byte with escaped := false }
  else if byte = Byte.backslash then .ok { parser with escaped := true }
  else if byte = Byte.quote then do
    let parser ← parser.saveValue
    return { parser with stage := .afterValue, quote := false }
  else .ok (parser.push byte)

/-- The case `FORMDATA_VALUE` outside quotes. -/
def plainByte (parser : FormdataParser) (byte : UInt8) : Except FormdataParser FormdataParser :=
  if byte = Byte.quote then
    if parser.buffer = [] then .ok { parser with quote := true }
    else .ok (parser.push byte)
  else if byte = Byte.space then
    if parser.buffer = [] then .ok parser
    else do
      let parser ← parser.saveValue
      return { parser with stage := .semicolon }
  else if byte = Byte.semicolon then do
    let parser ← parser.saveValue
    return { parser with stage := .semicolon }
  else .ok (parser.push byte)

def afterValueByte (parser : FormdataParser) (byte : UInt8) :
    Except FormdataParser FormdataParser :=
  if byte = Byte.space then .ok parser
  else if byte = Byte.semicolon then .ok { parser with stage := .skip }
  else parser.fail "formdataparser: expected ';' after quoted value"

def byte (parser : FormdataParser) (byte : UInt8) : Except FormdataParser FormdataParser :=
  match parser.stage with
  | .semicolon => parser.semicolonByte byte
  | .skip => parser.skipByte byte
  | .key => parser.keyByte byte
  | .equal => parser.equalByte byte
  | .value =>
    if parser.quote then parser.quotedByte byte else parser.plainByte byte
  | .afterValue => parser.afterValueByte byte

def finish (parser : FormdataParser) : Except FormdataParser FormdataParser :=
  match parser.stage with
  | .value =>
    if parser.quote then
      parser.fail "formdataparser: unclosed quoted string in value"
    else
      match parser.saveValue with
      | .ok saved => .ok saved
      | .error failed => failed.fail "formdataparser: failed to save value"
  | .key | .equal =>
    parser.fail "formdataparser: key without value at end of parsing"
  | _ => .ok parser

end FormdataParser

/-- `formdataparser_parse` for a new parser. -/
def formdataparserParse (dispositionType buffer : Bytes) : Except FormdataParser FormdataParser :=
  if buffer = [] then
    formdataparserInit.fail "formdataparser: buffer size is empty"
  else if formdatabufsiz < buffer.length then
    formdataparserInit.fail "formdataparser: buffer size is too big"
  else if buffer.take dispositionType.length ≠ dispositionType.take buffer.length then
    formdataparserInit.fail ("formdataparser: disposition type \"form-data\" invalid in header " ++
        "Content-Disposition")
  else do
    let parser ← (buffer.drop dispositionType.length).foldlM FormdataParser.byte formdataparserInit
    parser.finish

def formdataparserFields (dispositionType buffer : Bytes) : List PayloadField :=
  match formdataparserParse dispositionType buffer with
  | .ok parser => parser.fields
  | .error parser => parser.fields

/-- `formdataparser_find_field`: the first extended field, or else the last one
with the name. -/
def formdataparserFindField (fields : List PayloadField) (name : Bytes) : Option Bytes :=
  match fields.find? (fun field => field.key == name ++ [Byte.star]) with
  | some field => some field.value
  | none =>
    ((fields.filter fun field => field.key == name).getLast?).map PayloadField.value

end CWebFramework.Http
