import CWebFramework.Misc.Bytes
import Mathlib.Data.List.DropRight

/-!
# HTTP requests and the values in their heads

The request record of `httprequest.h` with the fields that the server parser
fills, and the parsers of the single values: the request target
(`httpparser_set_uri`, `queryparser_parse`), the `Cookie` value and the
`Range` value.
-/

namespace CWebFramework.Http

inductive Method where
  | none
  | get
  | post
  | put
  | delete
  | options
  | patch
  | head
  deriving DecidableEq, Repr

inductive Version where
  | none
  | v10
  | v11
  deriving DecidableEq, Repr

structure Header where
  key : Bytes
  value : Bytes
  deriving DecidableEq, Repr

/-- `query_t`. Both fields are C strings. -/
structure Query where
  key : Bytes
  value : Bytes
  deriving DecidableEq, Repr

structure Cookie where
  key : Bytes
  value : Bytes
  deriving DecidableEq, Repr

/-- `http_ranges_t`: `-1` stands for a bound that is not given. -/
structure Range where
  start : Int
  stop : Int
  deriving DecidableEq, Repr

/-- `httprequest_t`. The lists stand for the linked lists; an empty list is a
`NULL` pointer. The payload is the content of the temporary file. -/
structure Request where
  method : Method
  version : Version
  uri : Bytes
  path : Bytes
  query : List Query
  headers : List Header
  cookies : List Cookie
  ranges : List Range
  payload : Bytes
  deriving DecidableEq, Repr

def httprequestCreate : Request where
  method := .none
  version := .none
  uri := []
  path := []
  query := []
  headers := []
  cookies := []
  ranges := []
  payload := []

def httprequestAllowPayload (request : Request) : Bool :=
  match request.method with
  | .post | .put | .patch => true
  | _ => false

/-! ## The request target -/

/-- `__finish_pair` of the query parser. A key without `=` gets an empty
value. -/
def finishPair (key : Bytes) (value : Option Bytes) : Query where
  key := cstring (urldecodel key)
  value := cstring (urldecodel (value.getD []))

/-- The loop of `queryparser_parse`. The key and the value of the pair in
progress are the parts of the string between the remembered offsets;
`value = none` while `has_value` is not set. -/
def queryparserScan (key : Bytes) (value : Option Bytes) : Bytes → List Query
  | [] => [finishPair key value]
  | byte :: rest =>
    if byte = Byte.equal ∧ value = none then
      queryparserScan key (some []) rest
    else if byte = Byte.ampersand then
      finishPair key value :: queryparserScan [] none rest
    else if byte = Byte.hash then
      [finishPair key value]
    else
      match value with
      | none => queryparserScan (key ++ [byte]) none rest
      | some text => queryparserScan key (some (text ++ [byte])) rest

/-- `queryparser_parse` from the position after the `?`. -/
def queryparserParse (text : Bytes) : List Query := queryparserScan [] none text

/-- A request target ends its path at the first `?` or `#`. -/
def isPathEnd (byte : UInt8) : Bool := byte == Byte.question || byte == Byte.hash

/-- `httpparser_set_uri` with `__set_query` and `__set_path`. `none` stands
for `HTTP1PARSER_BAD_REQUEST`. -/
def httpparserSetUri (request : Request) (uri : Bytes) : Option Request :=
  if uri.head? ≠ some Byte.slash then
    none
  else
    let path := urldecodel (uri.takeWhile (! isPathEnd ·))
    let query :=
      match uri.dropWhile (! isPathEnd ·) with
      | byte :: text =>
        if byte = Byte.question then queryparserParse text
        else request.query
      | [] => request.query
    if isPathTraversal path then
      none
    else
      some { request with uri := uri, path := path, query := query }

/-! ## Cookies -/

/-- One token of a `Cookie` value. A token without `=` or with an empty key is
skipped. -/
def cookieOfToken (token : Bytes) : Option Cookie :=
  if Byte.equal ∈ token then
    let key := (token.takeWhile (· != Byte.equal)).dropWhile (· == Byte.space)
    let value := (token.dropWhile (· != Byte.equal)).tail
    if key = [] then none else some { key := key, value := value }
  else
    none

def cookieparserParse (value : Bytes) : List Cookie :=
  (value.splitOn Byte.semicolon).filterMap cookieOfToken

/-! ## Ranges -/

/-- The variables of `httpparser_parse_range`. `last_range` is the last
element of `ranges`. -/
structure RangeScan where
  startPosition : Nat
  startFinded : Bool
  ranges : List Range
  deriving DecidableEq, Repr

/-- `strtoll` at a position from which at least the first character is a
digit. -/
def strtollAt (text : Bytes) (position : Nat) : Int :=
  (digitsValue ((text.drop position).takeWhile isdigit) : Nat)

def setRangeStop (ranges : List Range) (stop : Int) : List Range :=
  match ranges.getLast? with
  | some last => ranges.dropLast ++ [{ last with stop := stop }]
  | none => ranges

/-- The `-` branch of the loop. -/
def rangeDash (text : Bytes) (index : Nat) (scan : RangeScan) : Option RangeScan :=
  let last := scan.ranges.getLast?
  if last.any (fun range => range.stop == -1) then none
  else if last.any (fun range => range.start == -1) then none
  else if scan.startPosition < index then
    let start := strtollAt text scan.startPosition
    if 10 < index - scan.startPosition then none
    else if last.any (fun range => decide (start < range.start)) then none
    else if last.any (fun range =>
        decide (-1 < range.start ∧ start ≤ range.stop)) then
      some { scan with startPosition := index + 1, startFinded := true }
    else
      some {
        startPosition := index + 1
        startFinded := true
        ranges := scan.ranges ++ [{ start := start, stop := -1 }] }
  else
    some {
      startPosition := index + 1
      startFinded := true
      ranges := scan.ranges ++ [{ start := -1, stop := -1 }] }

/-- Close the range in progress at the number that starts at
`start_position`. -/
def rangeClose (text : Bytes) (scan : RangeScan) : Option RangeScan :=
  let stop := strtollAt text scan.startPosition
  if scan.ranges.getLast?.any (fun range => decide (stop < range.start)) then
    none
  else if ! scan.startFinded then none
  else if scan.ranges.getLast?.any (fun range => decide (range.stop ≤ stop)) then
    some { scan with ranges := setRangeStop scan.ranges stop }
  else
    some scan

/-- The `,` branch of the loop. -/
def rangeComma (text : Bytes) (index : Nat) (scan : RangeScan) :
    Option RangeScan := do
  let closed ←
    if scan.startPosition < index then
      if 10 < index - scan.startPosition then none
      else rangeClose text scan
    else
      some scan
  return { closed with startPosition := index + 1, startFinded := false }

def rangeStep (text : Bytes) (scan : RangeScan) (index : Nat) : Option RangeScan :=
  let byte := text.getD index 0
  if isdigit byte then some scan
  else if byte = 45 then rangeDash text index scan
  else if byte = Byte.comma then rangeComma text index scan
  else if byte = Byte.space then
    if text.getD (index - 1) 0 = Byte.comma then
      some { scan with startPosition := index + 1 }
    else
      none
  else
    none

/-- The last range, after the loop. -/
def rangeFinish (text : Bytes) (scan : RangeScan) : Option (List Range) :=
  if scan.startPosition < text.length then
    if 10 < text.length - scan.startPosition then none
    else if ! isdigit (text.getD scan.startPosition 0) then none
    else (rangeClose text scan).map RangeScan.ranges
  else if scan.startFinded then
    some (setRangeStop scan.ranges (-1))
  else
    some scan.ranges

/-- `httpparser_parse_range`. A value that is not accepted gives no range. -/
def httpparserParseRange (text : Bytes) : List Range :=
  if text.take 6 = ascii "bytes=" then
    let start : RangeScan :=
      { startPosition := 6, startFinded := false, ranges := [] }
    let result := do
      let scan ← (List.range' 6 (text.length - 6)).foldlM (rangeStep text) start
      rangeFinish text scan
    result.getD []
  else
    []

end CWebFramework.Http
