import CWebFramework.Misc.Bytes

/-!
# Fields of models and of queries

`mfield_t` of `framework/model/mfield.h` with the value it carries, and
`model_field_to_string`.  The members of the union that libc formats (numbers,
times, documents) are values of an arbitrary type `Scalar`; `Formats` holds
the functions that turn them into text.
-/

namespace CWebFramework.Model

inductive MType where
  | bool
  | smallint
  | int
  | bigint
  | float
  | double
  | decimal
  | money
  | date
  | time
  | timetz
  | timestamp
  | timestamptz
  | json
  | binary
  | varchar
  | char
  | text
  | enum
  | array
  deriving DecidableEq, Repr

def MType.isString : MType → Bool
  | .binary | .varchar | .char | .text | .enum => true
  | _ => false

def MType.isTimestamp : MType → Bool
  | .timestamp | .timestamptz => true
  | _ => false

/-- `avalue_t`, an element of an `array_t`. -/
inductive Element (Scalar : Type) where
  | int (value : Scalar)
  | double (value : Scalar)
  | longDouble (value : Scalar)
  | string (text : Option Bytes)
  | pointer
  deriving DecidableEq, Repr

/-- `mvalue_t`: the union and the string behind it. -/
structure MValue (Scalar : Type) where
  scalar : Scalar
  array : List (Element Scalar)
  string : Option Bytes
  deriving DecidableEq, Repr

structure MField (Scalar : Type) where
  name : Bytes
  value : MValue Scalar
  oldvalue : MValue Scalar
  type : MType
  dirty : Bool
  isNull : Bool
  useDefault : Bool
  useRawSql : Bool
  deriving DecidableEq, Repr

/-- The `to_str` functions of `__type_ops` for the types that are formatted,
where `none` stands for `NULL`, and the union behind `memset`. -/
structure Formats (Scalar : Type) where
  zero : Scalar
  toStr : MType → MValue Scalar → Option Bytes

variable {Scalar : Type}

/-- The `to_str` entry of `__type_ops`. -/
def typeToStr (formats : Formats Scalar) (type : MType) (value : MValue Scalar) : Option Bytes :=
  if type.isString then value.string
  else if type.isTimestamp ∧ value.string.getD [] ≠ [] then value.string
  else formats.toStr type value

/-- The text that `model_field_to_string` returns. -/
def modelFieldToString (formats : Formats Scalar) (field : MField Scalar) : Option Bytes :=
  if field.isNull then some (ascii "NULL")
  else typeToStr formats field.type field.value

/-- `use_raw_sql` behind a call of `model_field_to_string`. -/
def MField.raw (field : MField Scalar) : Bool := field.isNull || field.useRawSql

end CWebFramework.Model
