import CWebFramework.Model.Statements

/-!
# Deletion by parameters

`model_delete_by_params` of `framework/model/model.c`: the conditions of its
`WHERE` clause, one for each parameter that names a column.
-/

namespace CWebFramework.Model

open Database

variable {Scalar : Type}

/-! ## Contents of fields -/

/-- The member of the value that the type of a field selects. -/
inductive Content (Scalar : Type) where
  | scalar (value : Scalar)
  | elements (value : List (Element Scalar))
  | text (value : Option Bytes)
  deriving DecidableEq, Repr

def contentOf (type : MType) (value : MValue Scalar) : Content Scalar :=
  if type.isString then .text value.string
  else if type = .array then .elements value.array
  else .scalar value.scalar

def MField.content (field : MField Scalar) : Content Scalar := contentOf field.type field.value

/-- A conversion does not change a value that is not `NULL`. -/
theorem converted_content (formats : Formats Scalar) {field : MField Scalar}
    (notNull : field.isNull = false) :
    (converted formats field).content = field.content := by
  unfold converted
  rw [notNull, if_neg Bool.false_ne_true]
  split
  · rfl
  next notString =>
    split
    · rfl
    · simp [MField.content, contentOf, notString]

/-! ## The statement -/

/-- A condition on a column: `IS NULL`, or equality with a value. -/
structure Condition (Scalar : Type) where
  column : Bytes
  name : Bytes
  value : Option (List (Fragment Scalar))
  deriving DecidableEq, Repr

def Condition.sql (condition : Condition Scalar) : List (Fragment Scalar) :=
  match condition.value with
  | none => [.text condition.name, .text (ascii " IS NULL")]
  | some value => [.text condition.name, .text (ascii "=")] ++ value

/-- The inner loop of `model_delete_by_params`, which passes over a name that
no column has. -/
def bindParam (connection : ModelConnection) (formats : Formats Scalar) (name : Bytes) :
    List (Cell Scalar) → ImmediateBind Scalar → List (Cell Scalar) ×
        Option (Option (Condition Scalar) × ImmediateBind Scalar)
  | [], data => ([], some (none, data))
  | cell :: rest, data =>
    if cell.field.name = name then
      match connection.escapeIdentifier cell.field.name with
      | none => (cell :: rest, none)
      | some escaped =>
        if cell.field.isNull then
          (cell :: rest, some (some ⟨name, escaped, none⟩, data))
        else
          let after := { cell with field := converted formats cell.field }
          (after :: rest, (modelAppendBind connection formats cell.field data).map
              fun (value, data) =>
                (some ⟨name, escaped, some value⟩, data))
    else
      let behind := bindParam connection formats name rest data
      (cell :: behind.1, behind.2)

def bindParams (connection : ModelConnection) (formats : Formats Scalar) :
    List Bytes → List (Cell Scalar) → ImmediateBind Scalar → List (Cell Scalar) ×
        Option (List (Condition Scalar) × ImmediateBind Scalar)
  | [], cells, data => (cells, some ([], data))
  | name :: rest, cells, data =>
    let first := bindParam connection formats name cells data
    match first.2 with
    | none => (first.1, none)
    | some (condition, data) =>
      let behind := bindParams connection formats rest first.1 data
      (behind.1, behind.2.map fun (conditions, data) =>
          (condition.toList ++ conditions, data))

structure DeleteStatement (Scalar : Type) where
  table : Bytes
  conditions : List (Condition Scalar)
  bind : List (MField Scalar)
  deriving DecidableEq, Repr

def DeleteStatement.sql (statement : DeleteStatement Scalar) : List (Fragment Scalar) :=
  [.text (ascii "DELETE FROM "), .text statement.table, .text (ascii " WHERE ")] ++
  [.text (ascii " AND ")].intercalate (statement.conditions.map Condition.sql)

/-- The statement that `model_delete_by_params` issues, unless it fails
before, and the record behind it. -/
def modelDeleteByParams (connection : ModelConnection)
    (formats : Formats Scalar) (params : List Bytes)
    (record : Record Scalar) :
    Record Scalar × Option (DeleteStatement Scalar) :=
  if params = [] ∨ record.cells = [] then (record, none)
  else
    let bound := bindParams connection formats params record.cells ⟨[], 0⟩
    ({ record with cells := bound.1 }, bound.2.map fun (conditions, data) =>
        { table := record.table
          conditions := conditions
          bind := data.bind })

/-! ## The loops -/

/-- The cell during the loops and the one in front of them. -/
structure Tracks (original current : Cell Scalar) : Prop where
  name : current.field.name = original.field.name
  isNull : current.field.isNull = original.field.isNull
  raw : current.field.raw = original.field.raw
  content : original.field.isNull = false → current.field.content = original.field.content

theorem Tracks.converted {original current : Cell Scalar}
    (tracks : Tracks original current) (formats : Formats Scalar)
    (notNull : current.field.isNull = false) :
    Tracks original
      { current with field := Model.converted formats current.field } := by
  have evolves := converted_evolves formats current.field
  have flags : (Model.converted formats current.field).isNull = current.field.isNull ∧
      (Model.converted formats current.field).raw = current.field.raw := by
    have isValue : ¬ current.field.isNull = true := by simp [notNull]
    unfold Model.converted
    rw [if_neg isValue]
    split
    · exact ⟨rfl, rfl⟩
    · split <;> exact ⟨rfl, rfl⟩
  refine ⟨evolves.name.trans tracks.name, flags.1.trans tracks.isNull,
    flags.2.trans tracks.raw, fun wasNull => ?_⟩
  exact (converted_content formats notNull).trans (tracks.content wasNull)

def findColumn (name : Bytes) (cells : List (Cell Scalar)) : Option (Cell Scalar) :=
  cells.find? fun cell => cell.field.name = name

/-- The condition that is made for a cell. -/
structure MadeFor (connection : ModelConnection) (formats : Formats Scalar)
    (cell : Cell Scalar) (name : Bytes) (data after : ImmediateBind Scalar)
    (condition : Condition Scalar) : Prop where
  column : condition.column = name
  escaped : connection.escapeIdentifier name = some condition.name
  null : cell.field.isNull = true → condition.value = none
  bound : cell.field.isNull = false → ∃ field value,
    modelAppendBind connection formats field data = some (value, after) ∧
      condition.value = some value ∧ field.raw = cell.field.raw ∧
      field.content = cell.field.content

section Loops

variable {connection : ModelConnection} {formats : Formats Scalar}
  {original current : List (Cell Scalar)} {data : ImmediateBind Scalar}

private theorem bindParam_tracks (tracks : List.Forall₂ Tracks original current)
    (name : Bytes) (data : ImmediateBind Scalar) :
    List.Forall₂ Tracks original (bindParam connection formats name current data).1 := by
  induction tracks with
  | nil => exact .nil
  | cons sameCell rest ih =>
    rw [bindParam]
    split
    · split
      · exact .cons sameCell rest
      · split
        · exact .cons sameCell rest
        next notNull =>
          exact .cons (sameCell.converted formats (by simpa using notNull)) rest
    · exact .cons sameCell ih

/-- A parameter makes the condition of its column, or none if it names no
column. -/
theorem bindParam_made (tracks : List.Forall₂ Tracks original current) {name : Bytes}
    {result : Option (Condition Scalar) × ImmediateBind Scalar}
    (binds : (bindParam connection formats name current data).2 = some result) :
    (result.1 = none ∧ findColumn name original = none) ∨
      ∃ cell condition, findColumn name original = some cell ∧ result.1 = some condition ∧
        MadeFor connection formats cell name data result.2 condition := by
  induction tracks with
  | nil =>
    cases binds
    exact .inl ⟨rfl, rfl⟩
  | @cons cell other rest others sameCell _ ih =>
    rw [bindParam] at binds
    unfold findColumn at ih ⊢
    by_cases named : other.field.name = name
    · have found : (cell :: rest).find?
          (fun cell => decide (cell.field.name = name)) = some cell := by
        rw [List.find?_cons_of_pos]
        rw [decide_eq_true_eq, ← sameCell.name]
        exact named
      rw [if_pos named] at binds
      right
      cases escapes : connection.escapeIdentifier other.field.name with
      | none =>
        rw [escapes] at binds
        cases binds
      | some escaped =>
        rw [escapes] at binds
        rw [named] at escapes
        dsimp only at binds
        split at binds
        next isNull =>
          cases binds
          refine ⟨cell, _, found, rfl, rfl, escapes, fun _ => rfl, ?_⟩
          intro notNull
          rw [sameCell.isNull, notNull] at isNull
          cases isNull
        next notNull =>
          obtain ⟨⟨value, after⟩, appended, rfl⟩ := Option.map_eq_some_iff.mp binds
          refine ⟨cell, _, found, rfl, rfl, escapes, ?_, ?_⟩
          · intro isNull
            exact absurd (sameCell.isNull.trans isNull) notNull
          · intro isValue
            exact ⟨other.field, value, appended, rfl, sameCell.raw, sameCell.content isValue⟩
    · have passed : (cell :: rest).find? (fun cell => decide (cell.field.name = name)) =
          rest.find? fun cell => decide (cell.field.name = name) := by
        rw [List.find?_cons_of_neg]
        rw [decide_eq_true_eq, ← sameCell.name]
        exact named
      rw [if_neg named] at binds
      rw [passed]
      exact ih binds

theorem bindParams_cons {name : Bytes} {rest : List Bytes}
    {conditions : List (Condition Scalar)} {final : ImmediateBind Scalar}
    (binds : (bindParams connection formats (name :: rest) current data).2 =
      some (conditions, final)) :
    ∃ condition middle others, (bindParam connection formats name current data).2 =
        some (condition, middle) ∧
      (bindParams connection formats rest
        (bindParam connection formats name current data).1 middle).2 = some (others, final) ∧
      conditions = condition.toList ++ others := by
  rw [bindParams] at binds
  cases first : (bindParam connection formats name current data).2 with
  | none =>
    rw [first] at binds
    cases binds
  | some result =>
    rw [first] at binds
    obtain ⟨⟨others, last⟩, behind, same⟩ := Option.map_eq_some_iff.mp binds
    cases same
    exact ⟨result.1, result.2, others, rfl, behind, rfl⟩

theorem bindParams_length {params : List Bytes}
    {conditions : List (Condition Scalar)} {final : ImmediateBind Scalar}
    (binds : (bindParams connection formats params current data).2 =
      some (conditions, final)) : conditions.length ≤ params.length := by
  induction params generalizing current data conditions with
  | nil =>
    cases binds
    exact Nat.le_refl 0
  | cons name rest ih =>
    obtain ⟨condition, middle, others, -, behind, rfl⟩ := bindParams_cons binds
    have fewer := ih behind
    rw [List.length_append, List.length_cons]
    cases condition with
    | none => simpa using Nat.le_succ_of_le fewer
    | some made =>
      simp only [Option.toList_some, List.length_singleton]
      omega

end Loops

/-! ## One condition for each parameter -/

/-- The condition says that the column is `NULL`, or equal to a bound value
that is the value of the field. -/
structure ConditionFor (connection : ModelConnection) (cells : List (Cell Scalar)) (name : Bytes)
    (condition : Condition Scalar) : Prop where
  column : condition.column = name
  escaped : connection.escapeIdentifier name = some condition.name
  value : ∃ cell, findColumn name cells = some cell ∧
    if cell.field.isNull then condition.value = none
    else ∃ label suffix field, condition.value = some [.placeholder label suffix field] ∧
        field.content = cell.field.content

/-- The parameter names a column whose value is `NULL` or is bound. -/
def Bindable (cells : List (Cell Scalar)) (name : Bytes) : Prop :=
  ∃ cell, findColumn name cells = some cell ∧
    (cell.field.isNull = true ∨ cell.field.useRawSql = false)

variable {connection : ModelConnection} {formats : Formats Scalar}
  {data : ImmediateBind Scalar}

private theorem modelAppendBind_placeholder {field : MField Scalar}
    {after : ImmediateBind Scalar} {value : List (Fragment Scalar)}
    (appended : modelAppendBind connection formats field data = some (value, after)) :
    if field.raw then ∃ text, value = [.text text]
    else ∃ label suffix, value = [.placeholder label suffix field] := by
  obtain ⟨text, -, same⟩ := Option.map_eq_some_iff.mp appended
  split at same
  next raw =>
    cases same
    rw [if_pos raw]
    exact ⟨text, rfl⟩
  next bound =>
    cases same
    rw [if_neg bound]
    exact ⟨_, _, rfl⟩

variable {cells : List (Cell Scalar)} {name : Bytes}

/-- The condition that is made for a column is the listed one exactly if the
field is not raw. -/
theorem conditionFor_iff {cell : Cell Scalar} {after : ImmediateBind Scalar}
    {condition : Condition Scalar} (found : findColumn name cells = some cell)
    (made : MadeFor connection formats cell name data after condition) :
    ConditionFor connection cells name condition ↔ Bindable cells name := by
  cases isNull : cell.field.isNull with
  | true =>
    refine ⟨fun _ => ⟨cell, found, .inl isNull⟩, fun _ => ?_⟩
    refine ⟨made.column, made.escaped, cell, found, ?_⟩
    rw [if_pos isNull]
    exact made.null isNull
  | false =>
    have isValue : ¬ cell.field.isNull = true := by simp [isNull]
    obtain ⟨field, value, appended, same, sameRaw, sameContent⟩ := made.bound isNull
    have shape := modelAppendBind_placeholder appended
    have raw : field.raw = cell.field.useRawSql := by
      rw [sameRaw, MField.raw, isNull, Bool.false_or]
    rw [raw] at shape
    constructor
    · rintro ⟨-, -, other, otherFound, otherValue⟩
      rw [found] at otherFound
      cases otherFound
      rw [if_neg isValue] at otherValue
      refine ⟨cell, found, .inr ?_⟩
      by_contra isRaw
      rw [Bool.not_eq_false] at isRaw
      rw [if_pos isRaw] at shape
      obtain ⟨text, rfl⟩ := shape
      obtain ⟨label, suffix, bound, isPlaceholder, -⟩ := otherValue
      rw [same] at isPlaceholder
      cases isPlaceholder
    · rintro ⟨other, otherFound, bindable⟩
      rw [found] at otherFound
      cases otherFound
      have plain := bindable.resolve_left isValue
      rw [if_neg (by simp [plain])] at shape
      obtain ⟨label, suffix, rfl⟩ := shape
      refine ⟨made.column, made.escaped, cell, found, ?_⟩
      rw [if_neg isValue]
      exact ⟨label, suffix, field, same, sameContent⟩

variable {params : List Bytes} {conditions : List (Condition Scalar)}

theorem bindParams_conditions {original current : List (Cell Scalar)}
    (tracks : List.Forall₂ Tracks original current) {final : ImmediateBind Scalar}
    (binds : (bindParams connection formats params current data).2 = some (conditions, final)) :
    List.Forall₂ (ConditionFor connection original) params conditions ↔
      ∀ name ∈ params, Bindable original name := by
  induction params generalizing current data conditions with
  | nil =>
    cases binds
    exact ⟨fun _ _ isIn => absurd isIn List.not_mem_nil, fun _ => .nil⟩
  | cons name rest ih =>
    obtain ⟨condition, middle, others, first, behind, rfl⟩ := bindParams_cons binds
    have tracked : List.Forall₂ Tracks original
        (bindParam connection formats name current data).1 :=
      bindParam_tracks tracks name data
    specialize ih tracked behind
    rw [List.forall_mem_cons, ← ih]
    rcases bindParam_made tracks first with ⟨rfl, unknown⟩ | ⟨cell, made, found, rfl, madeFor⟩
    · constructor
      · intro all
        have fewer := bindParams_length behind
        have same := all.length_eq
        simp at same
        omega
      · rintro ⟨⟨cell, found, -⟩, -⟩
        rw [unknown] at found
        cases found
    · rw [← conditionFor_iff found madeFor]
      exact List.forall₂_cons

theorem bindParam_binds {result : Option (Condition Scalar) × ImmediateBind Scalar}
    (binds : (bindParam connection formats name cells data).2 = some result) :
    Binds data result.2 (result.1.toList.flatMap Condition.sql) := by
  induction cells with
  | nil =>
    cases binds
    exact ⟨[], by simp [labelled]⟩
  | cons cell rest ih =>
    rw [bindParam] at binds
    split at binds
    · split at binds
      · cases binds
      · dsimp only at binds
        split at binds
        · cases binds
          exact ⟨[], by simp [labelled, Condition.sql, Fragment.placeholders]⟩
        · obtain ⟨⟨value, after⟩, appended, rfl⟩ := Option.map_eq_some_iff.mp binds
          obtain ⟨added, bound, counted, placed⟩ := (modelAppendBind_binds appended).fields
          refine ⟨added, bound, counted, ?_⟩
          rw [← placed]
          simp [Condition.sql, Fragment.placeholders]
    · exact ih binds

private theorem bindParams_binds {final : ImmediateBind Scalar}
    (binds : (bindParams connection formats params cells data).2 = some (conditions, final)) :
    Binds data final (conditions.flatMap Condition.sql) := by
  induction params generalizing cells data conditions with
  | nil =>
    cases binds
    exact ⟨[], by simp [labelled]⟩
  | cons name rest ih =>
    obtain ⟨condition, middle, others, first, behind, rfl⟩ := bindParams_cons binds
    rw [List.flatMap_append]
    exact (bindParam_binds first).append (ih behind)

/-! ## The rows that are deleted -/

/-- What a condition says about a row. -/
def Condition.Holds (condition : Condition Scalar) (row : Bytes → Option (Content Scalar)) : Prop :=
  match condition.value with
  | none => row condition.column = none
  | some [.placeholder _ _ field] =>
    row condition.column = some field.content
  | some _ => True

/-- The row agrees with the record in the column. -/
def Agrees (cells : List (Cell Scalar)) (name : Bytes)
    (row : Bytes → Option (Content Scalar)) : Prop :=
  ∃ cell, findColumn name cells = some cell ∧ row name =
      if cell.field.isNull then none else some cell.field.content

theorem ConditionFor.agrees {condition : Condition Scalar}
    (listed : ConditionFor connection cells name condition)
    {row : Bytes → Option (Content Scalar)} (holds : condition.Holds row) :
    Agrees cells name row := by
  obtain ⟨column, -, cell, found, value⟩ := listed
  refine ⟨cell, found, ?_⟩
  unfold Condition.Holds at holds
  rw [column] at holds
  split at value
  next isNull =>
    rw [value] at holds
    rw [if_pos isNull]
    exact holds
  next isValue =>
    obtain ⟨label, suffix, field, same, sameContent⟩ := value
    rw [same] at holds
    rw [if_neg isValue, ← sameContent]
    exact holds

private theorem agrees_of_conditions
    (listed : List.Forall₂ (ConditionFor connection cells) params conditions)
    {row : Bytes → Option (Content Scalar)}
    (holds : ∀ condition ∈ conditions, condition.Holds row) :
    ∀ name ∈ params, Agrees cells name row := by
  induction listed with
  | nil => exact fun _ isIn => absurd isIn List.not_mem_nil
  | cons first _ ih =>
    rw [List.forall_mem_cons] at holds ⊢
    exact ⟨first.agrees holds.1, ih holds.2⟩

/-- The statement has the listed conditions exactly if every parameter names a
column whose value is `NULL` or is bound; then a row that the statement deletes
agrees with the record in all of them.  Its placeholders are numbered in any
case. -/
theorem modelDeleteByParams_iff {record : Record Scalar} {statement : DeleteStatement Scalar}
    (built : (modelDeleteByParams connection formats params record).2 = some statement) :
    (List.Forall₂ (ConditionFor connection record.cells) params statement.conditions ↔
      ∀ name ∈ params, Bindable record.cells name) ∧
    ((∀ name ∈ params, Bindable record.cells name) →
      ∀ row, (∀ condition ∈ statement.conditions, condition.Holds row) →
        ∀ name ∈ params, Agrees record.cells name row) ∧
    statement.sql.flatMap Fragment.placeholders = labelled 0 statement.bind := by
  unfold modelDeleteByParams at built
  split at built
  · cases built
  obtain ⟨⟨conditions, data⟩, binds, rfl⟩ := Option.map_eq_some_iff.mp built
  have tracks : List.Forall₂ Tracks record.cells record.cells :=
    List.forall₂_same.mpr fun _ _ => ⟨rfl, rfl, rfl, fun _ => rfl⟩
  have conditionsFor := bindParams_conditions tracks binds
  refine ⟨conditionsFor, fun bindable row holds => ?_, ?_⟩
  · exact agrees_of_conditions (conditionsFor.mpr bindable) holds
  · obtain ⟨added, bound, -, placed⟩ := (bindParams_binds binds).fields
    dsimp only [List.nil_append] at bound ⊢
    rw [DeleteStatement.sql, List.flatMap_append, separated_placeholders,
      ← List.flatMap_def, placed, bound]
    rfl

def eventThree : Record Nat where
  table := ascii "event"
  cells :=
    [⟨plainColumn "n" .int, ⟨ascii "n", ⟨3, [], none⟩, ⟨0, [], none⟩, .int, true, false, false,
          false⟩⟩,
      ⟨{ plainColumn "at" .timestamp with hasDefault := true },
        ⟨ascii "at", ⟨0, [], none⟩, ⟨0, [], none⟩, .timestamp, false, true, true, false⟩⟩]

def deleteEvent (params : List String) : Option (DeleteStatement Nat) :=
  (modelDeleteByParams plainModelConnection zeroFormats (params.map ascii) eventThree).2

theorem modelDeleteByParams_iff_null : ∃ statement, deleteEvent ["at", "n"] = some statement ∧
      ∀ row : Bytes → Option (Content Nat),
        (∀ condition ∈ statement.conditions, condition.Holds row) →
          ∀ name ∈ ["at", "n"].map ascii, Agrees eventThree.cells name row := by
  obtain ⟨statement, built⟩ : ∃ statement, deleteEvent ["at", "n"] = some statement :=
    Option.isSome_iff_exists.mp (by decide +kernel)
  refine ⟨statement, built, (modelDeleteByParams_iff built).2.1 ?_⟩
  intro name isIn
  simp only [List.map_cons, List.map_nil, List.mem_cons, List.not_mem_nil, or_false] at isIn
  rcases isIn with rfl | rfl
  · exact ⟨_, rfl, .inl rfl⟩
  · exact ⟨_, rfl, .inr rfl⟩

/-- A parameter that names no column is passed over. -/
theorem deleteEvent_unknown : (deleteEvent ["n", "owner"]).map (fun statement =>
        (statement.sql.flatMap Fragment.bytes, statement.conditions.length)) =
      some (ascii "DELETE FROM event WHERE n=$1", 1) ∧
    ∀ statement, deleteEvent ["n", "owner"] = some statement →
      ¬ List.Forall₂ (ConditionFor plainModelConnection eventThree.cells)
        (["n", "owner"].map ascii) statement.conditions := by
  have issued : (deleteEvent ["n", "owner"]).map (fun statement =>
        (statement.sql.flatMap Fragment.bytes, statement.conditions.length)) =
      some (ascii "DELETE FROM event WHERE n=$1", 1) := by
    decide +kernel
  refine ⟨issued, fun statement built listed => ?_⟩
  rw [built] at issued
  have count := congrArg Prod.snd (Option.some.inj issued)
  have same := listed.length_eq
  simp only at count
  rw [count] at same
  simp at same

end CWebFramework.Model
