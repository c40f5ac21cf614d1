import CWebFramework.Database.SqlLexer
import CWebFramework.Model.Field

/-!
# Parameters of an SQL text

`parse_sql_parameters` of `framework/database/dbquery.c`.  The result is
modeled as the list of what is appended to it: bytes of the query, and the
expansions of the parameters that are found.  Positions are natural numbers
where `param_start` is an `int`: the results are about queries of fewer than
`2 ^ 31` bytes.
-/

namespace CWebFramework.Database

open Model

variable {Scalar Data : Type}

/-! ## What is appended to the result -/

/-- A text that a processor appends, or a placeholder with the field that is
bound to it. -/
inductive Fragment (Scalar : Type) where
  | text (bytes : Bytes)
  | placeholder (label suffix : Bytes) (field : MField Scalar)
  deriving DecidableEq, Repr

def Fragment.bytes : Fragment Scalar → Bytes
  | .text bytes => bytes
  | .placeholder label suffix _ => label ++ suffix

/-- `sql_param_processor_t`: what the callback appends for a field, and its
user data. -/
abbrev Processor (Scalar Data : Type) :=
  UInt8 → MField Scalar → Data → Option (List (Fragment Scalar) × Data)

/-- A byte of the query, or the expansion of a parameter with its marker and
its name. -/
inductive Emission (Scalar : Type) where
  | copied (byte : UInt8)
  | expanded (marker : UInt8) (name : Bytes) (fragments : List (Fragment Scalar))
  deriving DecidableEq, Repr

def Emission.bytes : Emission Scalar → Bytes
  | .copied byte => [byte]
  | .expanded _ _ fragments => fragments.flatMap Fragment.bytes

def Emission.source : Emission Scalar → Bytes
  | .copied byte => [byte]
  | .expanded marker name _ => marker :: name

/-! ## Expansion -/

def sqlArrayElementField (formats : Formats Scalar) (name : Bytes) :
    Element Scalar → Option (MField Scalar)
  | .int value => some (transient .int value none)
  | .double value => some (transient .double value none)
  | .longDouble value => some (transient .decimal value none)
  | .string (some text) => some (transient .text formats.zero (some text))
  | .string none => none
  | .pointer => none
where
  transient (type : MType) (scalar : Scalar) (string : Option Bytes) : MField Scalar :=
    { name := name
      value := ⟨scalar, [], string⟩
      oldvalue := ⟨formats.zero, [], none⟩
      type := type
      dirty := false
      isNull := false
      useDefault := false
      useRawSql := false }

/-- The loop over the elements of a `list__` parameter. -/
def expandElements (formats : Formats Scalar)
    (processor : Processor Scalar Data) (marker : UInt8) (name : Bytes) :
    List (Element Scalar) → Data → Option (List (Fragment Scalar) × Data)
  | [], data => some ([], data)
  | element :: rest, data =>
    (sqlArrayElementField formats name element).bind fun field =>
      (processor marker field data).bind fun (fragments, data) =>
        (expandElements formats processor marker name rest data).map
          fun (others, data) =>
            (fragments ++ (if rest = [] then [] else [.text [Byte.comma]]) ++ others, data)

def listMark : Bytes := ascii "list__"

/-- The search for a parameter and the calls of the processor. `none` stands
for an unknown name, a `list__` parameter without elements, or a processor
that fails. -/
def expandParameter (formats : Formats Scalar)
    (processor : Processor Scalar Data) (params : List (MField Scalar))
    (marker : UInt8) (paramName : Bytes) (data : Data) :
    Option (List (Fragment Scalar) × Data) :=
  let name := cstring paramName
  let isIn := listMark.isPrefixOf name
  let key := if isIn then name.drop listMark.length else name
  (params.find? fun field => field.name == key).bind fun field =>
    if isIn then
      if field.type = .array ∧ field.value.array ≠ [] then
        expandElements formats processor marker key field.value.array data
      else none
    else processor marker field data

/-! ## The scan -/

/-- The local variables of `parse_sql_parameters`: `pending` is the text from
`param_start` on, `held` the text from `point.position` up to it, and `passed`
says that the position has been moved past the second colon of a cast. -/
structure Scan (Scalar Data : Type) where
  passed : Bool
  skipNextColon : Bool
  pending : Option Bytes
  held : Bytes
  emitted : List (Emission Scalar)
  data : Data

namespace Scan

def initial (data : Data) : Scan Scalar Data where
  passed := false
  skipNextColon := false
  pending := none
  held := []
  emitted := []
  data := data

def keep (scan : Scan Scalar Data) (byte : UInt8) : Scan Scalar Data :=
  match scan.pending with
  | none => { scan with held := scan.held ++ [byte] }
  | some text => { scan with pending := some (text ++ [byte]) }

def flush (scan : Scan Scalar Data) : Scan Scalar Data :=
  { scan with
    held := []
    emitted := scan.emitted ++ scan.held.map .copied }

end Scan

def maxParamName : Nat := 256

section Scanner

variable (expand : UInt8 → Bytes → Data → Option (List (Fragment Scalar) × Data))

/-- The end of a parameter with the text `marker :: name`. -/
def finishParameter (scan : Scan Scalar Data) (text : Bytes) : Option (Scan Scalar Data) :=
  match text with
  | [] => some { scan with pending := none }
  | marker :: name =>
    if 0 < name.length ∧ name.length < maxParamName then
      (expand marker name scan.data).map fun (fragments, data) =>
        { scan with
          pending := none
          held := []
          emitted := scan.emitted ++ scan.held.map .copied ++ [.expanded marker name fragments]
          data := data }
    else
      some { scan with
        pending := none
        held := scan.held ++ text }

/-- The loop body from the label `param_end_check` on. -/
def paramEndCheck (byte : UInt8) (next : Option UInt8)
    (scan : Scan Scalar Data) : Option (Scan Scalar Data) :=
  let stringEnd := next.isNone
  match scan.pending with
  | some text =>
    if isSpecSymbol byte then
      (finishParameter expand scan text).map fun scan =>
        if stringEnd then (scan.keep byte).flush else scan.keep byte
    else if stringEnd then
      (finishParameter expand scan (text ++ [byte])).map Scan.flush
    else some (scan.keep byte)
  | none =>
    some (if stringEnd then (scan.keep byte).flush else scan.keep byte)

/-- The loop body behind the test for literals and comments. -/
def scanShown (byte : UInt8) (next : Option UInt8)
    (scan : Scan Scalar Data) : Option (Scan Scalar Data) :=
  if byte = Byte.colon ∧ next = some Byte.colon then
    match scan.pending with
    | some _ =>
      paramEndCheck expand byte next { scan with skipNextColon := true }
    | none => some { scan.keep byte with passed := true }
  else if scan.skipNextColon = true ∧ byte = Byte.colon then
    some { scan.keep byte with skipNextColon := false }
  else if isMarker byte then
    match scan.pending with
    | some _ => none
    | none =>
      some { scan with
        skipNextColon := false
        pending := some [byte] }
  else paramEndCheck expand byte next { scan with skipNextColon := false }

def scanByte (previous : Option UInt8) (byte : UInt8) (next : Option UInt8)
    (lex : LexState) (scan : Scan Scalar Data) :
    Option (LexState × Scan Scalar Data) :=
  if scan.passed then some (lex, { scan.keep byte with passed := false })
  else
    let (lex, shown) := lexByte previous byte next lex
    if shown then (scanShown expand byte next scan).map fun scan => (lex, scan)
    else some (lex, scan.keep byte)

def scanFrom (previous : Option UInt8) :
    Bytes → LexState → Scan Scalar Data → Option (Scan Scalar Data)
  | [], _, scan => some scan
  | byte :: rest, lex, scan =>
    (scanByte expand previous byte rest.head? lex scan).bind
      fun (lex, scan) => scanFrom (some byte) rest lex scan

end Scanner

def parseSqlParameters (formats : Formats Scalar)
    (processor : Processor Scalar Data) (params : List (MField Scalar))
    (data : Data) (query : Bytes) :
    Option (List (Emission Scalar) × Data) :=
  (scanFrom (expandParameter formats processor params) none query
    ⟨.initial, false⟩ (.initial data)).map fun scan => (scan.emitted, scan.data)

end CWebFramework.Database
