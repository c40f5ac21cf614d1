import CWebFramework.Model.Field

/-!
# Lists of models

`model_list`: every row of a result becomes a model.  A row that cannot be
filled ends the loop of `__model_fill_array`, and what has been filled before
it is returned as if it were the whole list.
-/

namespace CWebFramework.Model

variable {Scalar : Type}

abbrev Row := List (Option Bytes)

/-- The current query of a `dbresult_t`. -/
structure QueryResult where
  ok : Bool
  columns : List (Option Bytes)
  rows : List Row
  deriving DecidableEq

inductive ModelStatus where
  | ok
  | database
  | notFound
  | alloc
  deriving DecidableEq

section Filling

-- the `from_str` entries of `__type_ops`
variable (fromStr : MField Scalar → Option Bytes → Option (MField Scalar))

/-- The inner loop of `__model_fill`: the first field with the name of a column
gets the value of the cell. -/
def fillField (name : Bytes) (cell : Option (Option Bytes)) :
    List (MField Scalar) → Option (List (MField Scalar))
  | [] => some []
  | field :: rest =>
    if field.name = name then
      cell.bind fun value =>
        (fromStr field value).map fun filled =>
          { filled with dirty := false } :: rest
    else (fillField name cell rest).map (field :: ·)

/-- `__model_fill` from a column on. -/
def modelFill (fields : List (MField Scalar)) (row : Row) (col : Nat) :
    List (Option Bytes) → Option (List (MField Scalar))
  | [] => some fields
  | none :: _ => none
  | some name :: rest =>
    (fillField fromStr name row[col]? fields).bind fun filled =>
      modelFill filled row (col + 1) rest

-- what `create_instance` returns at each row: the fields of a new model
variable (createInstance : Nat → Option (List (MField Scalar)))

def rowModel (result : QueryResult) (row : Row × Nat) : Option (List (MField Scalar)) :=
  (createInstance row.2).bind fun fields =>
    modelFill fromStr fields row.1 0 result.columns

def fillRows (result : QueryResult) : List (Row × Nat) → List (List (MField Scalar))
  | [] => []
  | row :: rest =>
    match rowModel fromStr createInstance result row with
    | none => []
    | some model => model :: fillRows result rest

/-- `__model_fill_array`; `allocated` is the success of `array_create`. -/
def modelFillArray (allocated : Bool) (result : QueryResult) :
    Option (List (List (MField Scalar))) :=
  if allocated then
    some (fillRows fromStr createInstance result result.rows.zipIdx)
  else none

/-- `model_list` with the result of `dbquery`. -/
def modelList (allocated : Bool) (result : QueryResult) :
    Option (List (List (MField Scalar))) × ModelStatus :=
  if ! result.ok then (none, .database)
  else if result.rows.length = 0 then (none, .notFound)
  else
    match modelFillArray fromStr createInstance allocated result with
    | none => (none, .alloc)
    | some models => (some models, .ok)

/-- An error, or the models of all rows in their order. -/
def IsComplete (result : QueryResult) : Option (List (List (MField Scalar))) → Prop
  | none => True
  | some models =>
    models.map some = result.rows.zipIdx.map (rowModel fromStr createInstance result)

end Filling

variable {fromStr : MField Scalar → Option Bytes → Option (MField Scalar)}
  {createInstance : Nat → Option (List (MField Scalar))}

/-- The loop fills the rows in front of the first that fails. -/
theorem fillRows_complete_iff (result : QueryResult) (rows : List (Row × Nat)) :
    (fillRows fromStr createInstance result rows).map some =
        rows.map (rowModel fromStr createInstance result) ↔
      ∀ row ∈ rows, (rowModel fromStr createInstance result row).isSome := by
  induction rows with
  | nil => simp [fillRows]
  | cons row rest ih =>
    rw [List.forall_mem_cons, fillRows, List.map_cons]
    cases isModel : rowModel fromStr createInstance result row with
    | none => simp
    | some model => simp [ih]

/-- The list is complete if and only if there is none or every row could be
filled. -/
theorem modelList_complete_iff (fromStr : MField Scalar → Option Bytes → Option (MField Scalar))
    (createInstance : Nat → Option (List (MField Scalar)))
    (allocated : Bool) (result : QueryResult) :
    IsComplete fromStr createInstance result (modelList fromStr createInstance allocated result).1 ↔
      (result.ok = true ∧ allocated = true → ∀ row ∈ result.rows.zipIdx,
          (rowModel fromStr createInstance result row).isSome) := by
  rw [modelList]
  cases isOk : result.ok with
  | false => simp [IsComplete]
  | true =>
    cases isRows : result.rows with
    | nil => simp [IsComplete]
    | cons row rest =>
      cases allocated with
      | false => simp [IsComplete, modelFillArray]
      | true =>
        rw [← isRows, ← fillRows_complete_iff]
        simp [IsComplete, modelFillArray, isRows]

def modelSetBool (field : MField Int) (value : Int) : Option (MField Int) :=
  if field.type ≠ .bool then none
  else
    let kept :=
      if field.dirty then field
      else { field with oldvalue.scalar := field.value.scalar, dirty := true }
    some { kept with
      value.scalar := value
      value.string := kept.value.string.map fun _ => []
      isNull := false
      useRawSql := false }

def modelSetBoolFromStr (field : MField Int) (value : Option Bytes) : Option (MField Int) :=
  if field.type ≠ .bool then none
  else
    match value with
    | none => some { field with isNull := true }
    | some text =>
      if text ∈ [ascii "1", ascii "true", ascii "t"] then modelSetBool field 1
      else if text ∈ [ascii "0", ascii "false", ascii "f"] then
        modelSetBool field 0
      else none

def twoRows : QueryResult where
  ok := true
  columns := [some (ascii "active")]
  rows := [[some (ascii "1")], [some (ascii "yes")]]

def activeField : MField Int where
  name := ascii "active"
  value := ⟨0, [], none⟩
  oldvalue := ⟨0, [], none⟩
  type := .bool
  dirty := false
  isNull := false
  useDefault := false
  useRawSql := false

/-- The second of two rows cannot be converted: a list of one model is
returned, with the status of success. -/
theorem modelList_shorter :
    ∃ models, modelList modelSetBoolFromStr (fun _ => some [activeField]) true
        twoRows = (some models, .ok) ∧ models.length = 1 ∧
      ¬ IsComplete modelSetBoolFromStr (fun _ => some [activeField]) twoRows (some models) :=
  ⟨[[{ activeField with value.scalar := 1 }]], by decide +kernel, rfl, by
    rw [IsComplete]
    decide +kernel⟩

end CWebFramework.Model
