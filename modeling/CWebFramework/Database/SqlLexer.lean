import CWebFramework.Misc.Bytes

/-!
# Literals and comments of an SQL text

`__update_sql_parse_state` of `framework/database/dbquery.c`, which tells
whether a byte of a query stands in a string literal or a comment, and the
character tests that end the name of a parameter.
-/

namespace CWebFramework

namespace Byte

abbrev doubleQuote : UInt8 := 34
abbrev dollar : UInt8 := 36
abbrev quote : UInt8 := 39
abbrev star : UInt8 := 42
abbrev dash : UInt8 := 45
abbrev commercialAt : UInt8 := 64
abbrev backslash : UInt8 := 92
abbrev underscore : UInt8 := 95

end Byte

namespace Database

/-! ## Characters -/

def isalnum (byte : UInt8) : Bool :=
  isdigit byte || decide (65 ≤ byte ∧ byte ≤ 90) ||
    decide (97 ≤ byte ∧ byte ≤ 122)

def ispunctCustom (byte : UInt8) : Bool :=
  decide (32 ≤ byte ∧ byte ≤ 126) &&
    !(isalnum byte || byte == Byte.space || byte == Byte.underscore)

def iscntrl (byte : UInt8) : Bool :=
  decide (byte ≤ 31 ∨ byte = 127)

def isspace (byte : UInt8) : Bool :=
  decide (9 ≤ byte ∧ byte ≤ 13) || byte == Byte.space

/-- `is_spec_symbol`: the byte cannot belong to a name. -/
def isSpecSymbol (byte : UInt8) : Bool := ispunctCustom byte || iscntrl byte || isspace byte

def isMarker (byte : UInt8) : Bool := byte == Byte.colon || byte == Byte.commercialAt

def isQuote (byte : UInt8) : Bool := byte == Byte.quote || byte == Byte.doubleQuote

theorem isSpecSymbol_of_isMarker {byte : UInt8}
    (marker : isMarker byte = true) : isSpecSymbol byte = true := by
  simp only [isMarker, Bool.or_eq_true, beq_iff_eq] at marker
  rcases marker with isColon | isAt
  · rw [isColon]
    decide
  · rw [isAt]
    decide

/-! ## The parse state -/

structure SqlParseState where
  inString : Bool
  quoteChar : UInt8
  inLineComment : Bool
  inBlockComment : Bool
  deriving DecidableEq, Repr

def SqlParseState.initial : SqlParseState where
  inString := false
  quoteChar := 0
  inLineComment := false
  inBlockComment := false

def SqlParseState.skips (state : SqlParseState) : Bool :=
  state.inString || state.inLineComment || state.inBlockComment

/-- What a call of `__update_sql_parse_state` does: the state behind it,
whether it moves the position by one byte, and its return value. -/
structure StateUpdate where
  state : SqlParseState
  moves : Bool
  returns : Bool
  deriving DecidableEq, Repr

/-- The first half of `__update_sql_parse_state`, for string literals. -/
def updateQuote (previous : Option UInt8) (byte : UInt8)
    (next : Option UInt8) (state : SqlParseState) : SqlParseState × Bool :=
  if !state.inLineComment && !state.inBlockComment && isQuote byte &&
      previous != some Byte.backslash then
    if !state.inString then
      ({ state with
          inString := true
          quoteChar := byte }, false)
    else if byte = state.quoteChar then
      if next = some state.quoteChar then (state, true)
      else ({ state with inString := false }, false)
    else (state, false)
  else (state, false)

/-- The second half of `__update_sql_parse_state`, for comments outside
literals. -/
def updateComment (previous : Option UInt8) (byte : UInt8)
    (next : Option UInt8) (state : SqlParseState) (moved : Bool) :
    StateUpdate :=
  if state.inString then ⟨state, moved, false⟩
  else if !state.inBlockComment && byte == Byte.dash &&
      next == some Byte.dash then
    ⟨{ state with inLineComment := true }, true, true⟩
  else if state.inLineComment && byte == Byte.lf then
    ⟨{ state with inLineComment := false }, moved, true⟩
  else if !state.inLineComment && byte == Byte.slash &&
      next == some Byte.star then
    ⟨{ state with inBlockComment := true }, true, true⟩
  else if state.inBlockComment && previous == some Byte.star && byte == Byte.slash then
    ⟨{ state with inBlockComment := false }, moved, true⟩
  else ⟨state, moved, false⟩

/-- `__update_sql_parse_state` at a byte with its two neighbours. -/
def updateSqlParseState (previous : Option UInt8) (byte : UInt8)
    (next : Option UInt8) (state : SqlParseState) : StateUpdate :=
  let (quoted, moved) := updateQuote previous byte next state
  updateComment previous byte next quoted moved

/-! ## Which bytes the scanner sees -/

/-- The lexer between two bytes; `moved` says that the position has been moved
past the next byte. -/
structure LexState where
  state : SqlParseState
  moved : Bool
  deriving DecidableEq, Repr

/-- The byte is passed over, or the lexer and whether it shows the byte to the
scanner. -/
def lexByte (previous : Option UInt8) (byte : UInt8) (next : Option UInt8)
    (lex : LexState) : LexState × Bool :=
  if lex.moved then (⟨lex.state, false⟩, false)
  else
    let update := updateSqlParseState previous byte next lex.state
    (⟨update.state, update.moves⟩, !(update.returns || update.state.skips))

/-- A byte of a query, and whether it stands outside literals and
comments. -/
structure Region where
  byte : UInt8
  shown : Bool
  deriving DecidableEq, Repr

def regionsFrom (previous : Option UInt8) (lex : LexState) : Bytes → List Region
  | [] => []
  | byte :: rest =>
    let (next, shown) := lexByte previous byte rest.head? lex
    ⟨byte, shown⟩ :: regionsFrom (some byte) next rest

def regions (query : Bytes) : List Region := regionsFrom none ⟨.initial, false⟩ query

theorem regionsFrom_bytes (previous : Option UInt8) (lex : LexState) (query : Bytes) :
    (regionsFrom previous lex query).map Region.byte = query := by
  induction query generalizing previous lex with
  | nil => rfl
  | cons byte rest ih =>
    rw [regionsFrom, List.map_cons, ih]

end Database

end CWebFramework
