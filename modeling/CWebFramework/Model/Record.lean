import CWebFramework.Model.Field

/-!
# Records

`mcolumn_t` and `model_t` of `framework/model/model.c`.
-/

namespace CWebFramework.Model

variable {Scalar : Type}

structure Column where
  name : Bytes
  type : MType
  isPrimary : Bool
  hasDefault : Bool
  nullable : Bool
  autoIncrement : Bool
  enumValues : List Bytes
  deriving DecidableEq, Repr

/-- A field of a record with its column. -/
structure Cell (Scalar : Type) where
  column : Column
  field : MField Scalar
  deriving DecidableEq, Repr

structure Record (Scalar : Type) where
  table : Bytes
  cells : List (Cell Scalar)
  deriving DecidableEq, Repr

def nowFragment : Bytes := ascii "NOW()"

end CWebFramework.Model
