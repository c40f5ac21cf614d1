import CWebFramework.Misc.Numerals
import CWebFramework.Text.Utf8

/-!
# Strings

`__parse_string` of `misc/json.c`.  A document is a C string without its
terminator; a failed parse is an error with the text that is logged.
-/

namespace CWebFramework.Json

namespace Byte

abbrev quote : UInt8 := 34
abbrev backslash : UInt8 := 92
abbrev letterU : UInt8 := 117

end Byte

/-! ## Parsing -/

/-- The entries of `escape_table`. -/
def shortEscapes : List (UInt8 × UInt8) :=
  [(98, 8), (102, 12), (110, 10), (114, 13), (116, 9), (34, 34), (92, 92), (47, 47)]

def escapeTable (byte : UInt8) : Option UInt8 := shortEscapes.lookup byte

/-- The loop over the digits of a `\uXXXX` escape. -/
def readHex (incomplete invalid : String) : Nat → Nat → Bytes → Except String Nat
  | 0, value, _ => .ok value
  | _ + 1, _, [] => .error incomplete
  | count + 1, value, byte :: rest =>
    if byte = 0 then .error incomplete
    else
      match hexCharToInt byte with
      | none => .error invalid
      | some digit =>
        readHex incomplete invalid count (value <<< 4 ||| digit.toNat) rest

/-- The bytes that are appended for a code point. -/
def appendCodepoint (codepoint : Nat) : Except String Bytes :=
  if codepoint < 0x80 then .ok [codepoint.toUInt8]
  else if codepoint < 0x800 then
    .ok [(0xC0 ||| codepoint >>> 6).toUInt8, (0x80 ||| codepoint &&& 0x3F).toUInt8]
  else if codepoint < 0x10000 then
    .ok [(0xE0 ||| codepoint >>> 12).toUInt8, (0x80 ||| codepoint >>> 6 &&& 0x3F).toUInt8,
      (0x80 ||| codepoint &&& 0x3F).toUInt8]
  else if codepoint ≤ 0x10FFFF then
    .ok [(0xF0 ||| codepoint >>> 18).toUInt8, (0x80 ||| codepoint >>> 12 &&& 0x3F).toUInt8,
      (0x80 ||| codepoint >>> 6 &&& 0x3F).toUInt8,
      (0x80 ||| codepoint &&& 0x3F).toUInt8]
  else .error "Invalid Unicode codepoint (out of range)"

/-- The rest of a pair whose high surrogate has been read, and how many bytes
it takes. -/
def scanLowSurrogate (high : Nat) (text : Bytes) : Except String (Bytes × Nat) :=
  if text.length < 2 then .error "Invalid surrogate pair (incomplete)"
  else if text.take 2 ≠ [Byte.backslash, Byte.letterU] then
    .error "Invalid surrogate pair (expected \\uXXXX after high surrogate)"
  else if text.length < 6 then
    .error "Invalid surrogate pair (incomplete low surrogate)"
  else do
    let low ← readHex "Invalid surrogate pair (incomplete low surrogate)"
      "Invalid hex digit in surrogate pair" 4 0 (text.drop 2)
    if low < 0xDC00 ∨ 0xDFFF < low then
      .error "Invalid surrogate pair (expected low surrogate 0xDC00-0xDFFF)"
    else do
      let bytes ← appendCodepoint (0x10000 + ((high - 0xD800) <<< 10) + (low - 0xDC00))
      .ok (bytes, 6)

/-- A `\uXXXX` escape behind its `u`: the bytes that are appended, and how many
bytes it takes. -/
def scanUnicode (text : Bytes) : Except String (Bytes × Nat) :=
  if text.length < 4 then
    .error "Unterminated string (incomplete \\uXXXX escape)"
  else do
    let codepoint ← readHex "Unterminated string (incomplete \\uXXXX escape)"
      "Invalid hex digit in \\uXXXX escape" 4 0 text
    if 0xD800 ≤ codepoint ∧ codepoint ≤ 0xDBFF then do
      let (bytes, count) ← scanLowSurrogate codepoint (text.drop 4)
      .ok (bytes, 4 + count)
    else if 0xDC00 ≤ codepoint ∧ codepoint ≤ 0xDFFF then
      .error "Invalid surrogate pair (unexpected low surrogate)"
    else do
      let bytes ← appendCodepoint codepoint
      .ok (bytes, 4)

def isContinuation (byte : UInt8) : Bool := byte &&& 0xC0 == 0x80

/-- The test of a continuation byte in `__parse_string`. -/
def continues (byte : UInt8) : Bool := !(byte == 0 || byte == Byte.quote || !isContinuation byte)

def codepointOfThree (lead next1 next2 : UInt8) : Nat :=
  (lead.toNat &&& 0x0F) <<< 12 ||| (next1.toNat &&& 0x3F) <<< 6 ||| (next2.toNat &&& 0x3F)

def codepointOfFour (lead next1 next2 next3 : UInt8) : Nat :=
  (lead.toNat &&& 0x07) <<< 18 ||| (next1.toNat &&& 0x3F) <<< 12 |||
    (next2.toNat &&& 0x3F) <<< 6 ||| (next3.toNat &&& 0x3F)

/-- A character that is not escaped: the bytes that are appended, and how many
bytes it takes behind the first. -/
def scanUtf8 (lead : UInt8) (rest : Bytes) : Except String (Bytes × Nat) :=
  if lead < 0x80 then .ok ([lead], 0)
  else if lead &&& 0xE0 = 0xC0 then
    if lead < 0xC2 then
      .error "Invalid UTF-8 sequence (overlong encoding)"
    else
      match rest with
      | next :: _ =>
        if !continues next then
          .error "Invalid UTF-8 sequence (invalid continuation byte)"
        else .ok ([lead, next], 1)
      | _ => .error "Invalid UTF-8 sequence (unexpected end)"
  else if lead &&& 0xF0 = 0xE0 then
    match rest with
    | next1 :: next2 :: _ =>
      if !continues next1 || !continues next2 then
        .error "Invalid UTF-8 sequence (invalid continuation byte)"
      else
        let codepoint := codepointOfThree lead next1 next2
        if codepoint < 0x800 then
          .error "Invalid UTF-8 sequence (overlong encoding)"
        else if 0xD800 ≤ codepoint ∧ codepoint ≤ 0xDFFF then
          .error "Invalid UTF-8 sequence (UTF-16 surrogate)"
        else .ok ([lead, next1, next2], 2)
    | _ => .error "Invalid UTF-8 sequence (unexpected end)"
  else if lead &&& 0xF8 = 0xF0 then
    if 0xF4 < lead then
      .error "Invalid UTF-8 sequence (byte out of range)"
    else
      match rest with
      | next1 :: next2 :: next3 :: _ =>
        if !continues next1 || !continues next2 || !continues next3 then
          .error "Invalid UTF-8 sequence (invalid continuation byte)"
        else
          let codepoint := codepointOfFour lead next1 next2 next3
          if codepoint < 0x10000 then
            .error "Invalid UTF-8 sequence (overlong encoding)"
          else if 0x10FFFF < codepoint then
            .error "Invalid UTF-8 sequence (codepoint out of range)"
          else .ok ([lead, next1, next2, next3], 3)
      | _ => .error "Invalid UTF-8 sequence (unexpected end)"
  else .error "Invalid UTF-8 sequence (invalid start byte)"

/-- A round of the loop of `__parse_string` that does not end it: the bytes
that are appended, and how many bytes it takes behind the first. -/
def scanUnit (byte : UInt8) (rest : Bytes) : Except String (Bytes × Nat) :=
  if byte < 0x20 then .error "Unescaped control character in string"
  else if byte = Byte.backslash then
    match rest with
    | [] => .error "Unterminated string (incomplete escape)"
    | escape :: more =>
      if escape = Byte.letterU then do
        let (bytes, count) ← scanUnicode more
        .ok (bytes, 1 + count)
      else
        match escapeTable escape with
        | none => .error "Invalid escape sequence"
        | some escaped => .ok ([escaped], 1)
  else scanUtf8 byte rest

/-- The loop of `__parse_string`: the string, and the text behind the closing
quote. -/
def scanString : Bytes → Except String (Bytes × Bytes)
  | [] => .error "Unterminated string (unexpected end)"
  | byte :: rest =>
    if byte = 0 then .error "Unterminated string (unexpected null)"
    else if byte = Byte.quote then .ok ([], rest)
    else do
      let (bytes, count) ← scanUnit byte rest
      let (string, behind) ← scanString (rest.drop count)
      .ok (bytes ++ string, behind)
termination_by text => text.length
decreasing_by
  simp only [List.length_drop, List.length_cons]
  omega

def parseString : Bytes → Except String (Bytes × Bytes)
  | [] => .error "Expected '\"'"
  | byte :: rest =>
    if byte ≠ Byte.quote then .error "Expected '\"'" else scanString rest

end CWebFramework.Json
