import CWebFramework.Json.Document

/-!
# The parser

`json_parse` of `misc/json.c`: a loop over the characters of a text that keeps
the token to which the next one is added.  The conversions of `strtold` are a
parameter; how much of a text it takes is modeled as the C standard has it.
-/

namespace CWebFramework.Json

open Forest

variable {Number : Type}

/-! ## Numbers -/

/-- `strtold`, the value of the characters that it takes. -/
structure Numerals (Number : Type) where
  strtold : Bytes → Number

def digitCount (isDigit : UInt8 → Bool) (text : Bytes) : Nat := (text.takeWhile isDigit).length

/-- Digits with an optional point; none if there is no digit. -/
def mantissaLength (isDigit : UInt8 → Bool) (text : Bytes) : Nat :=
  let whole := digitCount isDigit text
  match text.drop whole with
  | 46 :: fraction =>
    let digits := digitCount isDigit fraction
    if whole + digits = 0 then 0 else whole + 1 + digits
  | _ => whole

/-- An exponent with its letter, in either case; none if there is no digit. -/
def exponentLength (letter : UInt8) : Bytes → Nat
  | [] => 0
  | byte :: text =>
    if tolower byte = letter then
      match text with
      | sign :: rest =>
        if sign = 43 ∨ sign = 45 then
          let digits := digitCount isdigit rest
          if digits = 0 then 0 else 2 + digits
        else
          let digits := digitCount isdigit text
          if digits = 0 then 0 else 1 + digits
      | [] => 0
    else 0

def floatLength (isDigit : UInt8 → Bool) (letter : UInt8) (text : Bytes) :
    Nat :=
  let mantissa := mantissaLength isDigit text
  if mantissa = 0 then 0
  else mantissa + exponentLength letter (text.drop mantissa)

def startsWith (word : Bytes) (text : Bytes) : Bool := cmpstrnLower (text.take word.length) word

/-- The characters of the parentheses behind `nan`. -/
def isNanChar (byte : UInt8) : Bool :=
  isdigit byte || decide (97 ≤ tolower byte ∧ tolower byte ≤ 122) || byte == 95

/-- What `strtold` takes behind the sign. -/
def unsignedLength (text : Bytes) : Nat :=
  if startsWith (ascii "0x") text && 0 < mantissaLength (fun byte => (hexCharToInt byte).isSome)
        (text.drop 2) then
    2 + floatLength (fun byte => (hexCharToInt byte).isSome) 112 (text.drop 2)
  else if startsWith (ascii "infinity") text then 8
  else if startsWith (ascii "inf") text then 3
  else if startsWith (ascii "nan") text then
    match text.drop 3 with
    | 40 :: rest =>
      let chars := digitCount isNanChar rest
      if (rest.drop chars).head? = some 41 then 5 + chars else 3
    | _ => 3
  else floatLength isdigit 101 text

/-- How many characters `strtold` takes; the text does not start with white
space. -/
def strtoldLength : Bytes → Nat
  | [] => 0
  | byte :: rest =>
    if byte = 43 ∨ byte = 45 then
      let length := unsignedLength rest
      if length = 0 then 0 else 1 + length
    else unsignedLength (byte :: rest)

/-! ## Primitives -/

/-- `__parse_null`, `__parse_true` and `__parse_false`: the first four
characters are compared, and the length of the word is skipped. -/
def parseWord (word : String) (kind : Kind Number) (text : Bytes) :
    Except String (Kind Number × Nat) :=
  if text.take 4 = (ascii word).take 4 then
    .ok (kind, (ascii word).length)
  else .error ("Expected '" ++ word ++ "'")

def parseNumber (numerals : Numerals Number) (text : Bytes) : Except String (Kind Number × Nat) :=
  let length := strtoldLength text
  if length = 0 then .error "Invalid number"
  else .ok (.number (numerals.strtold (text.take length)), length)

/-- The primitive that a character starts, and its length. -/
def parsePrimitive (numerals : Numerals Number) (byte : UInt8)
    (rest : Bytes) : Except String (Kind Number × Nat) :=
  if byte = 116 then parseWord "true" (.bool true) (byte :: rest)
  else if byte = 102 then parseWord "false" (.bool false) (byte :: rest)
  else if byte = 110 then parseWord "null" .null (byte :: rest)
  else parseNumber numerals (byte :: rest)

/-! ## The loop -/

/-- The document under construction: the token that gets the next one for a
child, and the last token. -/
structure Parse (Number : Type) where
  tokens : Tokens Number
  root : Option Nat
  toksuper : Option Nat
  lastToken : Option Nat

def Parse.inObject (parse : Parse Number) : Bool :=
  match parse.toksuper with
  | none => false
  | some super => (parse.tokens.node super).data.isObject

def Parse.add (parse : Parse Number) (kind : Kind Number) : Parse Number :=
  let token := parse.tokens.next
  let made := parse.tokens.alloc kind
  { parse with
    tokens :=
      match parse.toksuper with
      | none => made
      | some super =>
        setChildOrSibling (made.modify token fun node => { node with parent := some super })
          super token
    root := some (parse.root.getD token)
    lastToken := some token }

def Parse.openContainer (parse : Parse Number) (container : Container) :
    Except String (Parse Number) :=
  if parse.inObject then .error "Object/array cannot be a key"
  else
    .ok { parse.add container.kind with toksuper := some parse.tokens.next }

/-- The walk to the container that is closed.  A token has a smaller address
than its children, so the number of tokens bounds the walk. -/
def findContainer (tokens : Tokens Number) (container : Container) : Nat → Option Nat → Option Nat
  | 0, _ => none
  | _ + 1, none => none
  | bound + 1, some token =>
    if container.includes (tokens.node token).data then some token
    else findContainer tokens container bound (tokens.node token).parent

def Parse.closeContainer (parse : Parse Number) (container : Container) :
    Except String (Parse Number) :=
  if parse.toksuper = none then .error "Unexpected closing bracket"
  else
    match findContainer parse.tokens container (parse.tokens.next + 1) parse.toksuper with
    | none => .error "Mismatched brackets"
    | some token =>
      .ok { parse with toksuper := (parse.tokens.node token).parent }

/-- `:` makes the last token the parent of the next one. -/
def Parse.colon (parse : Parse Number) : Parse Number :=
  match parse.lastToken with
  | none => parse
  | some token => { parse with toksuper := some token }

/-- `,` goes from a key to its object. -/
def Parse.comma (parse : Parse Number) : Parse Number :=
  match parse.toksuper with
  | none => parse
  | some super =>
    if (parse.tokens.node super).data.isContainer then parse
    else { parse with toksuper := (parse.tokens.node super).parent }

def isWhitespace (byte : UInt8) : Bool := byte == 9 || byte == 13 || byte == 10 || byte == 32

def startsPrimitive (byte : UInt8) : Bool :=
  byte == 45 || isdigit byte || byte == 116 || byte == 102 || byte == 110

/-- A round of the loop, and how many characters it takes behind the first. -/
def Parse.step (numerals : Numerals Number) (parse : Parse Number)
    (byte : UInt8) (rest : Bytes) : Except String (Parse Number × Nat) :=
  if byte = 123 then do
    let opened ← parse.openContainer .object
    .ok (opened, 0)
  else if byte = 91 then do
    let opened ← parse.openContainer .array
    .ok (opened, 0)
  else if byte = 125 then do
    let closed ← parse.closeContainer .object
    .ok (closed, 0)
  else if byte = 93 then do
    let closed ← parse.closeContainer .array
    .ok (closed, 0)
  else if byte = Byte.quote then do
    let (string, behind) ← parseString (byte :: rest)
    .ok (parse.add (.string string), rest.length - behind.length)
  else if isWhitespace byte then .ok (parse, 0)
  else if byte = 58 then .ok (parse.colon, 0)
  else if byte = 44 then .ok (parse.comma, 0)
  else if startsPrimitive byte then
    if parse.inObject then .error "Primitive cannot be a key"
    else do
      let (kind, length) ← parsePrimitive numerals byte rest
      .ok (parse.add kind, length - 1)
  else .error "Unexpected character"

def Parse.run (numerals : Numerals Number) (parse : Parse Number) :
    Bytes → Except String (Parse Number)
  | [] => .ok parse
  | byte :: rest => do
      let (next, count) ← parse.step numerals byte rest
      next.run numerals (rest.drop count)
termination_by text => text.length
decreasing_by
  simp only [List.length_drop, List.length_cons]
  omega

def Parse.start : Parse Number where
  tokens := noTokens
  root := none
  toksuper := none
  lastToken := none

/-- `json_parse` on a buffer that ends with its first NUL. -/
def jsonParse (numerals : Numerals Number) (text : Bytes) : Except String (Document Number) := do
  let parse ← Parse.start.run numerals (cstring text)
  if parse.toksuper ≠ none then .error "Unclosed object or array"
  else .ok ⟨parse.tokens, parse.root, false⟩

end CWebFramework.Json
