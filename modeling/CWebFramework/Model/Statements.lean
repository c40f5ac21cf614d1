import CWebFramework.Database.QueryBuilder
import CWebFramework.Model.Record

/-!
# The values of statements

How `framework/model/model.c` binds the fields of a record to the placeholders
of a statement, and what the conversion to a text does to a field.
-/

namespace CWebFramework.Model

open Database

variable {Scalar : Type}

/-- The functions and the flag of a `dbconnection_t` that records use. -/
structure ModelConnection extends Connection where
  usesReturning : Bool

/-! ## Bound values -/

def converted (formats : Formats Scalar) (field : MField Scalar) : MField Scalar :=
  if field.isNull then
    { field with
      value := { field.value with string := some (ascii "NULL") }
      useRawSql := true }
  else if field.type.isString then field
  else
    match typeToStr formats field.type field.value with
    | none => field
    | some text =>
      { field with value := { field.value with string := some text } }

def modelAppendBind (connection : ModelConnection) (formats : Formats Scalar)
    (field : MField Scalar) (data : ImmediateBind Scalar) :
    Option (List (Fragment Scalar) × ImmediateBind Scalar) :=
  (modelFieldToString formats field).map fun value =>
    if field.raw then ([.text value], data)
    else
      ([.placeholder (placeholderLabel (data.idx + 1)) (connection.typeCast field.type) field],
        { bind := data.bind ++ [field]
          idx := data.idx + 1 })

/-! ## Conversions -/

/-- A raw field that is not `NULL` is the time of the server. -/
def MField.Fragmented (field : MField Scalar) : Prop :=
  field.useRawSql = true → field.isNull = false →
    field.type.isTimestamp = true ∧ field.value.string = some nowFragment

/-- A change keeps the name, the type and the fragment of a field. -/
structure Evolves (before after : MField Scalar) : Prop where
  name : after.name = before.name
  type : after.type = before.type
  fragment : before.Fragmented → after.Fragmented

namespace Evolves

private theorem refl (field : MField Scalar) : Evolves field field := ⟨rfl, rfl, id⟩

variable {before after : MField Scalar}

/-- A field that is `NULL` behind the change. -/
theorem of_null (name : after.name = before.name)
    (type : after.type = before.type) (isNull : after.isNull = true) :
    Evolves before after := by
  refine ⟨name, type, fun _ _ notNull => ?_⟩
  rw [isNull] at notNull
  cases notNull

end Evolves

variable {type : MType}

private theorem typeToStr_now (formats : Formats Scalar) {value : MValue Scalar}
    (timestamp : type.isTimestamp = true)
    (now : value.string = some nowFragment) :
    typeToStr formats type value = some nowFragment := by
  have notString : type.isString = false := by
    cases type <;> first | rfl | cases timestamp
  have nonempty : nowFragment ≠ [] := by decide
  unfold typeToStr
  rw [notString, timestamp, now]
  simp [nonempty]

theorem converted_evolves (formats : Formats Scalar) (field : MField Scalar) :
    Evolves field (converted formats field) := by
  unfold converted
  split
  next isNull => exact .of_null rfl rfl isNull
  next =>
    split
    · exact .refl field
    · cases conversion : typeToStr formats field.type field.value with
      | none => exact .refl field
      | some text =>
        refine ⟨rfl, rfl, fun fragmented raw notNull => ?_⟩
        obtain ⟨timestamp, now⟩ := fragmented raw notNull
        rw [typeToStr_now formats timestamp now] at conversion
        cases conversion
        exact ⟨timestamp, rfl⟩

/-! ## Placeholders and bound fields -/

private theorem flatMap_intercalate {α β : Type} (render : α → List β) (separator : α)
    (parts : List (List α)) :
    ([separator].intercalate parts).flatMap render =
      (render separator).intercalate (parts.map (List.flatMap render)) := by
  induction parts with
  | nil => rfl
  | cons first rest ih =>
    cases rest with
    | nil => simp [List.intercalate]
    | cons second rest =>
      simp only [List.intercalate, List.map_cons,
        List.intersperse_cons_cons, List.flatten_cons, List.flatMap_append,
        List.flatMap_singleton] at ih ⊢
      rw [ih]

variable {connection : ModelConnection} {formats : Formats Scalar}

theorem modelAppendBind_binds {field : MField Scalar}
    {before after : ImmediateBind Scalar} {value : List (Fragment Scalar)}
    (binds : modelAppendBind connection formats field before =
      some (value, after)) : Binds before after value := by
  obtain ⟨text, -, same⟩ := Option.map_eq_some_iff.mp binds
  split at same
  · cases same
    exact .none before text
  · cases same
    exact ⟨[field], rfl, rfl, rfl⟩

private theorem intercalate_nil {α : Type} (parts : List (List α)) :
    ([] : List α).intercalate parts = parts.flatten := by
  induction parts with
  | nil => rfl
  | cons first rest ih =>
    cases rest with
    | nil => simp [List.intercalate]
    | cons second rest =>
      simp only [List.intercalate, List.intersperse_cons_cons,
        List.flatten_cons, List.nil_append] at ih ⊢
      rw [ih]

theorem separated_placeholders (separator : Bytes) (parts : List (List (Fragment Scalar))) :
    ([.text separator].intercalate parts).flatMap Fragment.placeholders =
      parts.flatten.flatMap Fragment.placeholders := by
  rw [flatMap_intercalate, Fragment.placeholders, intercalate_nil]
  induction parts with
  | nil => rfl
  | cons first rest ih =>
    rw [List.map_cons, List.flatten_cons, ih, List.flatten_cons, List.flatMap_append]

def plainModelConnection : ModelConnection where
  escapeIdentifier := some
  typeCast := fun _ => []
  usesReturning := true

def plainColumn (name : String) (type : MType) : Column where
  name := ascii name
  type := type
  isPrimary := false
  hasDefault := false
  nullable := false
  autoIncrement := false
  enumValues := []

end CWebFramework.Model
