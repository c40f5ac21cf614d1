import CWebFramework.Model.Field
import CWebFramework.Text.Quoted

/-!
# Statements for SQLite

The builders of `framework/database/sqlite.c`.  What they write is read back
with the grammar of the statements: quoted names, string literals, `NULL`, and
conditions that a row meets or not.  A condition `name=NULL` is met by no row,
and a `SELECT` without conditions ends behind `WHERE`.
-/

namespace CWebFramework.Sqlite

open Model Quoted

variable {Scalar α : Type}

abbrev doubleQuote : UInt8 := 34
abbrev singleQuote : UInt8 := 39

/-! ## Writing -/

def escapeIdentifier (str : Bytes) : Bytes :=
  doubleQuote :: (double doubleQuote (cstring str) ++ [doubleQuote])

def escapeString (str : Bytes) : Bytes :=
  singleQuote :: (double singleQuote (cstring str) ++ [singleQuote])

/-- The digits and the dot of a number. -/
def numberLoop (hasDigit hasDot : Bool) : Bytes → Bool
  | [] => hasDigit
  | c :: rest =>
    if isdigit c then numberLoop true hasDot rest
    else if c = Byte.dot ∧ ! hasDot then numberLoop hasDigit true rest
    else false

def isalpha (c : UInt8) : Bool := 97 ≤ tolower c && tolower c ≤ 122

def isRawSql (str : Bytes) : Bool :=
  let lower := str.map tolower
  let unsigned :=
    if str.head? = some 45 ∨ str.head? = some 43 then str.tail else str
  let behindWord := str.dropWhile fun c => isalpha c || isdigit c || c == 95
  !str.isEmpty && (str == ascii "*" || lower == ascii "null" ||
      lower == ascii "true" || lower == ascii "false" ||
      numberLoop false false unsigned ||
      str.head?.any (fun c => isalpha c || c == 95) && behindWord.head? == some 40 ||
      str.any (fun c => c == 43 || c == 47 || c == 124 || c == 58) ||
      str.tail.any (fun c => c == 42 || c == 45) ||
      (ascii "case ").isPrefixOf lower ||
      str.head? == some 40 || str.head? == some 39)

/-- The loops of the builders; `goto failed` gives `none`. -/
def joinItems (separator : Bytes) (item : α → Option Bytes) : Bytes → Bool → List α → Option Bytes
  | written, _, [] => some written
  | written, first, next :: rest =>
    (item next).bind fun text =>
      joinItems separator item (written ++ (if first then [] else separator) ++ text) false rest

def columnText (column : Bytes) : Bytes :=
  if isRawSql (cstring column) then cstring column
  else escapeIdentifier column

def fieldText (formats : Formats Scalar) (field : MField Scalar) : Option Bytes :=
  (modelFieldToString formats field).map fun value =>
    if field.raw then value else escapeString value

def assignText (formats : Formats Scalar) (field : MField Scalar) : Option Bytes :=
  (fieldText formats field).map fun value =>
    escapeIdentifier field.name ++ Byte.equal :: value

variable (formats : Formats Scalar) (table : Bytes)

def compileInsert (params : List (MField Scalar)) : Option Bytes :=
  if params = [] then none
  else
    (joinItems (ascii ",") (fun field => some (escapeIdentifier field.name))
      [] true params).bind fun fields =>
        (joinItems (ascii ",") (fieldText formats) [] true params).map
          fun values =>
            ascii "INSERT INTO " ++ cstring (escapeIdentifier table) ++
              ascii " (" ++ cstring fields ++ ascii ") VALUES (" ++
              cstring values ++ ascii ")"

def compileSelect (columns : List Bytes) (conditions : List (MField Scalar)) : Option Bytes :=
  (joinItems (ascii ",") (fun column => some (columnText column))
    [] true columns).bind fun selected =>
      (joinItems (ascii " AND ") (assignText formats) [] true conditions).map
        fun wheres =>
          ascii "SELECT " ++ cstring selected ++ ascii " FROM " ++
            cstring (escapeIdentifier table) ++ ascii " WHERE " ++
            cstring wheres

/-- The condition of `__compile_update` and `__compile_delete`. -/
def whereText (conditions : List (MField Scalar)) : Option Bytes :=
  joinItems (ascii " AND ") (assignText formats)
    (if conditions.isEmpty then ascii "1" else []) true conditions

def compileUpdate (set conditions : List (MField Scalar)) : Option Bytes :=
  (joinItems (ascii ",") (assignText formats) [] true set).bind fun sets =>
    (whereText formats conditions).map fun wheres =>
      ascii "UPDATE " ++ cstring (escapeIdentifier table) ++ ascii " SET " ++
        cstring sets ++ ascii " WHERE " ++ cstring wheres

def compileDelete (conditions : List (MField Scalar)) : Option Bytes :=
  (whereText formats conditions).map fun wheres =>
    ascii "DELETE FROM " ++ cstring (escapeIdentifier table) ++ ascii " WHERE " ++ cstring wheres

/-! ## Reading -/

def ReadsName (text name rest : Bytes) : Prop :=
  ∃ body, text = doubleQuote :: body ∧ readQuoted doubleQuote body = some (name, rest)

def ReadsCell (text : Bytes) (cell : Option Bytes) (rest : Bytes) : Prop :=
  match cell with
  | none => text = ascii "NULL" ++ rest
  | some value => ∃ body, text = singleQuote :: body ∧
      readQuoted singleQuote body = some (value, rest)

def ReadsAssign (text : Bytes) (assign : Bytes × Option Bytes) (rest : Bytes) : Prop :=
  ∃ behind, ReadsName text assign.1 (Byte.equal :: behind) ∧ ReadsCell behind assign.2 rest

/-- All columns are `none`. -/
def ReadsColumn (text : Bytes) (column : Option Bytes) (rest : Bytes) : Prop :=
  match column with
  | none => text = ascii "*" ++ rest
  | some name => ReadsName text name rest

/-- Items with separators between them. -/
inductive Listed (item : Bytes → α → Bytes → Prop) (separator : Bytes) :
    Bytes → List α → Bytes → Prop
  | one {text rest : Bytes} {value : α} (isItem : item text value rest) :
      Listed item separator text [value] rest
  | more {text behind rest : Bytes} {value : α} {values : List α}
      (isItem : item text value (separator ++ behind))
      (others : Listed item separator behind values rest) :
      Listed item separator text (value :: values) rest

/-- The conditions up to the end of the statement. -/
def ReadsWhere (text : Bytes) (conditions : List (Bytes × Option Bytes)) :
    Prop :=
  conditions = [] ∧ text = ascii "1" ∨ Listed ReadsAssign (ascii " AND ") text conditions []

def ReadsInsert (text table : Bytes) (names : List Bytes) (cells : List (Option Bytes)) : Prop :=
  ∃ behindInto behindOpen behindValues, text = ascii "INSERT INTO " ++ behindInto ∧
    ReadsName behindInto table (ascii " (" ++ behindOpen) ∧
    Listed ReadsName (ascii ",") behindOpen names (ascii ") VALUES (" ++ behindValues) ∧
    Listed ReadsCell (ascii ",") behindValues cells (ascii ")")

def ReadsSelect (text table : Bytes) (columns : List (Option Bytes))
    (conditions : List (Bytes × Option Bytes)) : Prop :=
  ∃ behindSelect behindFrom behindWhere, text = ascii "SELECT " ++ behindSelect ∧
    Listed ReadsColumn (ascii ",") behindSelect columns (ascii " FROM " ++ behindFrom) ∧
    ReadsName behindFrom table (ascii " WHERE " ++ behindWhere) ∧
    ReadsWhere behindWhere conditions

/-- A `SELECT` of columns that are any SQL text, such as `count(*)`. -/
def ReadsSelectOf (text columns table : Bytes) (conditions : List (Bytes × Option Bytes)) : Prop :=
  ∃ behindFrom behindWhere, text = ascii "SELECT " ++ (columns ++ (ascii " FROM " ++ behindFrom)) ∧
    ReadsName behindFrom table (ascii " WHERE " ++ behindWhere) ∧
    ReadsWhere behindWhere conditions

def ReadsUpdate (text table : Bytes) (set : List (Bytes × Option Bytes))
    (conditions : List (Bytes × Option Bytes)) : Prop :=
  ∃ behindUpdate behindSet behindWhere, text = ascii "UPDATE " ++ behindUpdate ∧
    ReadsName behindUpdate table (ascii " SET " ++ behindSet) ∧
    Listed ReadsAssign (ascii ",") behindSet set (ascii " WHERE " ++ behindWhere) ∧
    ReadsWhere behindWhere conditions

def ReadsDelete (text table : Bytes) (conditions : List (Bytes × Option Bytes)) : Prop :=
  ∃ behindFrom behindWhere, text = ascii "DELETE FROM " ++ behindFrom ∧
    ReadsName behindFrom table (ascii " WHERE " ++ behindWhere) ∧
    ReadsWhere behindWhere conditions

/-! ## Meaning -/

/-- A row meets a condition if both sides have the same value and none of them
is `NULL`. -/
def Selects (conditions : List (Bytes × Option Bytes)) (row : Bytes → Option Bytes) : Prop :=
  ∀ condition ∈ conditions, ∃ value, row condition.1 = some value ∧ condition.2 = some value

def fieldCell (field : MField Scalar) : Option Bytes :=
  if field.isNull then none else modelFieldToString formats field

def fieldAssign (field : MField Scalar) : Bytes × Option Bytes :=
  (cstring field.name, fieldCell formats field)

def Matches (fields : List (MField Scalar)) (row : Bytes → Option Bytes) :
    Prop :=
  ∀ field ∈ fields, row (cstring field.name) = fieldCell formats field

/-- The conditions stand for the fields. -/
def Means (fields : List (MField Scalar)) : Prop :=
  ∀ row, Selects (fields.map (fieldAssign formats)) row ↔ Matches formats fields row

def columnName (column : Bytes) : Option Bytes :=
  if cstring column = ascii "*" then none else some (cstring column)

/-! ## Items -/

/-- No quote follows. -/
def Delimited (rest : Bytes) : Prop := rest.head? ≠ some doubleQuote ∧ rest.head? ≠ some singleQuote

variable {formats} {table} {rest : Bytes}

theorem readsName_iff (ends : Delimited rest) (str name out : Bytes) :
    ReadsName (escapeIdentifier str ++ rest) name out ↔ name = cstring str ∧ out = rest := by
  have isRead := readQuoted_double (cstring str) ends.1
  rw [ReadsName, escapeIdentifier, List.cons_append, List.append_assoc, List.singleton_append]
  simp only [List.cons.injEq, true_and, exists_eq_left', isRead, Option.some.injEq, Prod.mk.injEq]
  rw [eq_comm, and_congr_right_iff]
  intro _
  exact eq_comm

/-- The value of the field is there, and nothing of it is cut. -/
def Stored (formats : Formats Scalar) (field : MField Scalar) : Prop :=
  ∃ text, modelFieldToString formats field = some text ∧ (field.isNull = true ∨ 0 ∉ text)

variable {field : MField Scalar}

theorem readsCell_iff (ends : Delimited rest) (plain : field.useRawSql = false) {text : Bytes}
    (isText : fieldText formats field = some text) (out : Bytes) :
    ReadsCell (text ++ rest) (fieldCell formats field) out ↔ Stored formats field ∧ out = rest := by
  obtain ⟨value, isValue, rfl⟩ := Option.map_eq_some_iff.mp isText
  have stored : Stored formats field ↔ field.isNull = true ∨ 0 ∉ value := by
    simp [Stored, isValue]
  rw [stored, MField.raw, plain, Bool.or_false, fieldCell]
  cases isNull : field.isNull with
  | true =>
    have null : value = ascii "NULL" := by
      rw [modelFieldToString, isNull, if_pos rfl] at isValue
      exact (Option.some.inj isValue).symm
    rw [if_pos rfl, if_pos rfl, null, ReadsCell, List.append_cancel_left_eq]
    simp [eq_comm]
  | false =>
    have isRead := readQuoted_double (cstring value) ends.2
    rw [if_neg Bool.false_ne_true, if_neg Bool.false_ne_true, isValue,
      ReadsCell, escapeString, List.cons_append, List.append_assoc,
      List.singleton_append]
    simp only [List.cons.injEq, true_and, exists_eq_left', isRead,
      Option.some.injEq, Prod.mk.injEq, Bool.false_eq_true, false_or]
    rw [cstring_eq_self_iff, and_congr_right_iff]
    intro _
    exact eq_comm

theorem delimited_append {text : Bytes} (starts : (text.head?.any fun c =>
      c != doubleQuote && c != singleQuote) = true) (rest : Bytes) :
    Delimited (text ++ rest) := by
  cases text with
  | nil => cases starts
  | cons c text =>
    rw [List.head?_cons, Option.any_some, Bool.and_eq_true, bne_iff_ne, bne_iff_ne] at starts
    exact ⟨fun same => starts.1 (Option.some.inj same), fun same => starts.2 (Option.some.inj same)⟩

theorem readsAssign_iff (ends : Delimited rest) (plain : field.useRawSql = false) {text : Bytes}
    (isText : assignText formats field = some text) (out : Bytes) :
    ReadsAssign (text ++ rest) (fieldAssign formats field) out ↔
      Stored formats field ∧ out = rest := by
  obtain ⟨value, isValue, rfl⟩ := Option.map_eq_some_iff.mp isText
  rw [ReadsAssign, List.append_assoc, List.cons_append]
  have equals : Delimited (Byte.equal :: (value ++ rest)) :=
    @delimited_append [Byte.equal] (by decide) _
  simp only [readsName_iff equals, fieldAssign, true_and,
    List.cons.injEq, exists_eq_left, readsCell_iff ends plain isValue]

/-- A text that opens with a quote is longer when the quotes are doubled. -/
theorem append_ne_double (ends : Delimited rest) (count : Nat) (text behind : Bytes) :
    text ++ rest ≠ List.replicate (count + 1) doubleQuote ++
      (double doubleQuote text ++ behind) := by
  induction text generalizing count with
  | nil =>
    intro same
    apply ends.1
    rw [List.nil_append] at same
    rw [same]
    rfl
  | cons c text ih =>
    intro same
    rw [List.replicate_succ, List.cons_append, List.cons_append] at same
    obtain ⟨rfl, behindQuote⟩ := List.cons.inj same
    apply ih (count + 1)
    rw [behindQuote, double_cons, if_pos rfl, List.append_assoc,
      List.replicate_succ', List.replicate_succ', List.append_assoc,
      List.append_assoc]
    rfl

/-- A text is not its own quoted form. -/
theorem not_readsName_self (ends : Delimited rest) {name : Bytes}
    (nonempty : name ≠ []) (out : Bytes) :
    ¬ReadsName (name ++ rest) name out := by
  rintro ⟨body, isText, isRead⟩
  obtain ⟨c, name, rfl⟩ := List.exists_cons_of_ne_nil nonempty
  obtain ⟨rfl, rfl⟩ := List.cons.inj isText
  have written := readQuoted_eq isRead
  rw [double_cons, if_pos rfl, List.append_assoc] at written
  exact append_ne_double ends 1 name _ written

theorem readsColumn_iff (ends : Delimited rest) (column out : Bytes) :
    ReadsColumn (columnText column ++ rest) (columnName column) out ↔
      (cstring column = ascii "*" ∨ isRawSql (cstring column) = false) ∧ out = rest := by
  rw [columnName, columnText]
  by_cases isStar : cstring column = ascii "*"
  · have raw : isRawSql (ascii "*") = true := by decide
    rw [if_pos isStar, isStar, raw, if_pos rfl, ReadsColumn, List.append_cancel_left_eq]
    simp [eq_comm]
  · rw [if_neg isStar, ReadsColumn]
    cases raw : isRawSql (cstring column) with
    | false =>
      rw [if_neg Bool.false_ne_true, readsName_iff ends]
      simp
    | true =>
      have nonempty : cstring column ≠ [] := by
        intro isNil
        rw [isNil] at raw
        exact absurd raw (by decide)
      rw [if_pos rfl]
      simp [isStar, not_readsName_self ends nonempty]

/-! ## Lists -/

def joinedText (separator : Bytes) (text : α → Bytes) : List α → Bytes
  | [] => []
  | first :: others => text first ++ others.flatMap fun other =>
    separator ++ text other

private theorem joinItems_false {separator : Bytes} {item : α → Option Bytes}
    {written out : Bytes} (items : List α) :
    joinItems separator item written false items = some out ↔
      (∀ next ∈ items, (item next).isSome = true) ∧
      out = written ++ items.flatMap fun next =>
        separator ++ (item next).getD [] := by
  induction items generalizing written with
  | nil =>
    rw [joinItems, List.flatMap_nil, List.append_nil, Option.some.injEq, eq_comm]
    simp
  | cons next items ih =>
    rw [joinItems, List.forall_mem_cons, List.flatMap_cons]
    cases item next with
    | none => simp
    | some text => simp [ih]

theorem joinItems_eq {separator : Bytes} {item : α → Option Bytes}
    {written out : Bytes} (items : List α) :
    joinItems separator item written true items = some out ↔
      (∀ next ∈ items, (item next).isSome = true) ∧
      out = written ++ joinedText separator (fun next => (item next).getD []) items := by
  cases items with
  | nil =>
    rw [joinItems, joinedText, List.append_nil, Option.some.injEq, eq_comm]
    simp
  | cons next items =>
    rw [joinItems, List.forall_mem_cons, joinedText]
    cases item next with
    | none => simp
    | some text => simp [joinItems_false]

theorem joinItems_some {separator written : Bytes} {item : α → Option Bytes}
    {items : List α} (each : ∀ next ∈ items, (item next).isSome = true) :
    joinItems separator item written true items = some (written ++
        joinedText separator (fun next => (item next).getD []) items) :=
  (joinItems_eq items).mpr ⟨each, rfl⟩

theorem joinItems_none {separator written : Bytes} {item : α → Option Bytes}
    {items : List α} (missing : ¬∀ next ∈ items, (item next).isSome = true) :
    joinItems separator item written true items = none := by
  rw [Option.eq_none_iff_forall_ne_some]
  intro out isOut
  exact missing ((joinItems_eq items).mp isOut).1

/-- A list is read back if and only if every item is. -/
theorem listed_iff {β : Type} {item : Bytes → β → Bytes → Prop} {separator tail out : Bytes}
    {text : α → Bytes} {expected : α → β} {good : α → Prop} {items : List α}
    (each : ∀ next ∈ items, ∀ rest out, Delimited rest →
      (item (text next ++ rest) (expected next) out ↔ good next ∧ out = rest))
    (between : ∀ rest, Delimited (separator ++ rest))
    (behind : Delimited tail) :
    Listed item separator (joinedText separator text items ++ tail) (items.map expected) out ↔
      items ≠ [] ∧ (∀ next ∈ items, good next) ∧ out = tail := by
  induction items with
  | nil =>
    constructor
    · intro listed
      cases listed
    · intro nonempty
      exact absurd rfl nonempty.1
  | cons first items ih =>
    rw [List.forall_mem_cons] at each
    cases items with
    | nil =>
      have isItem := each.1 tail out behind
      simp only [joinedText, List.flatMap_nil, List.append_nil,
        List.map_cons, List.map_nil, List.forall_mem_singleton, ne_eq,
        List.cons_ne_nil, not_false_eq_true, true_and]
      rw [← isItem]
      constructor
      · intro listed
        cases listed with
        | one isItem => exact isItem
        | more isItem others => cases others
      · exact .one
    | cons second items =>
      have rest := ih each.2
      have isText : joinedText separator text (first :: second :: items) ++
          tail = text first ++ (separator ++
            (joinedText separator text (second :: items) ++ tail)) := by
        simp [joinedText]
      rw [isText, List.map_cons, List.forall_mem_cons]
      constructor
      · intro listed
        cases listed with
        | more isItem others =>
          rw [each.1 _ _ (between _)] at isItem
          rw [List.append_cancel_left isItem.2, rest] at others
          exact ⟨List.cons_ne_nil _ _, ⟨isItem.1, others.2.1⟩, others.2.2⟩
      · rintro ⟨-, ⟨isGood, others⟩, isOut⟩
        refine .more ((each.1 _ _ (between _)).mpr ⟨isGood, rfl⟩) ?_
        exact rest.mpr ⟨List.cons_ne_nil _ _, others, isOut⟩

/-! ## Texts without `NUL` -/

theorem zero_notMem_quoted {quote : UInt8} (nonzero : quote ≠ 0) (str : Bytes) :
    0 ∉ quote :: (double quote (cstring str) ++ [quote]) := by
  have content : 0 ∉ double quote (cstring str) := by
    rw [double, List.mem_flatMap]
    rintro ⟨c, isIn, isZero⟩
    split at isZero
    · simp [Ne.symm nonzero] at isZero
    · rw [List.mem_singleton] at isZero
      exact zero_notMem_cstring str (isZero ▸ isIn)
  simp [content, Ne.symm nonzero]

theorem zero_notMem_fieldText (plain : field.useRawSql = false) :
    0 ∉ (fieldText formats field).getD [] := by
  cases isText : fieldText formats field with
  | none => simp
  | some text =>
    obtain ⟨value, isValue, rfl⟩ := Option.map_eq_some_iff.mp isText
    rw [Option.getD_some, MField.raw, plain, Bool.or_false]
    split
    next isNull =>
      rw [modelFieldToString, if_pos isNull] at isValue
      rw [← Option.some.inj isValue]
      decide
    next => exact zero_notMem_quoted (by decide) value

private theorem zero_notMem_assignText (plain : field.useRawSql = false) :
    0 ∉ (assignText formats field).getD [] := by
  have value := @zero_notMem_fieldText _ formats field plain
  have name : 0 ∉ escapeIdentifier field.name := zero_notMem_quoted (by decide) _
  rw [assignText]
  cases isText : fieldText formats field with
  | none => simp
  | some text =>
    rw [isText] at value
    rw [Option.map_some, Option.getD_some, List.mem_append, List.mem_cons]
    rintro (isIn | isZero | isIn)
    · exact name isIn
    · exact absurd isZero (by decide)
    · exact value isIn

private theorem zero_notMem_columnText (column : Bytes) : 0 ∉ columnText column := by
  rw [columnText]
  split
  · exact zero_notMem_cstring column
  · exact zero_notMem_quoted (by decide) column

theorem cstring_joinedText {separator : Bytes} {text : α → Bytes}
    {items : List α} (noSeparator : 0 ∉ separator)
    (each : ∀ next ∈ items, 0 ∉ text next) :
    cstring (joinedText separator text items) =
      joinedText separator text items := by
  apply cstring_of_notMem
  cases items with
  | nil => simp [joinedText]
  | cons first items =>
    rw [List.forall_mem_cons] at each
    rw [joinedText, List.mem_append, List.mem_flatMap]
    rintro (isIn | ⟨next, isNext, isIn⟩)
    · exact each.1 isIn
    · rw [List.mem_append] at isIn
      rcases isIn with isIn | isIn
      · exact noSeparator isIn
      · exact each.2 next isNext isIn

/-! ## Statements -/

variable {fields conditions : List (MField Scalar)}

def assignsText (formats : Formats Scalar) (separator : Bytes)
    (fields : List (MField Scalar)) : Bytes :=
  joinedText separator (fun field => (assignText formats field).getD []) fields

theorem cstring_assignsText {separator : Bytes} (noSeparator : 0 ∉ separator)
    (plain : ∀ field ∈ fields, field.useRawSql = false) :
    cstring (assignsText formats separator fields) = assignsText formats separator fields :=
  cstring_joinedText noSeparator fun field isIn =>
    zero_notMem_assignText (plain field isIn)

theorem stored_isSome (stored : Stored formats field) : (assignText formats field).isSome = true ∧
    (fieldText formats field).isSome = true := by
  obtain ⟨text, isText, _⟩ := stored
  rw [assignText, fieldText, isText]
  exact ⟨rfl, rfl⟩

/-- The fields of `SET` and of `WHERE` are read back. -/
theorem listed_assign_iff {separator tail out : Bytes}
    (plain : ∀ field ∈ fields, field.useRawSql = false)
    (some : ∀ field ∈ fields, (assignText formats field).isSome = true)
    (between : ∀ rest, Delimited (separator ++ rest))
    (behind : Delimited tail) :
    Listed ReadsAssign separator (assignsText formats separator fields ++ tail)
        (fields.map (fieldAssign formats)) out ↔
      fields ≠ [] ∧ (∀ field ∈ fields, Stored formats field) ∧ out = tail := by
  refine listed_iff (fun field isIn rest out ends => ?_) between behind
  obtain ⟨text, isText⟩ := Option.isSome_iff_exists.mp (some field isIn)
  rw [isText, Option.getD_some]
  exact readsAssign_iff ends (plain field isIn) isText out

theorem listed_column_iff {columns : List Bytes} {tail out : Bytes} (behind : Delimited tail) :
    Listed ReadsColumn (ascii ",") (joinedText (ascii ",") columnText columns ++ tail)
        (columns.map columnName) out ↔
      columns ≠ [] ∧
      (∀ column ∈ columns, cstring column = ascii "*" ∨ isRawSql (cstring column) = false) ∧
      out = tail :=
  listed_iff (fun column _ _ out ends => readsColumn_iff ends column out)
    (delimited_append (by decide)) behind

theorem listed_name_iff {tail out : Bytes} (behind : Delimited tail) : Listed ReadsName (ascii ",")
        (joinedText (ascii ",") (fun field => escapeIdentifier field.name) fields ++ tail)
        (fields.map fun field => cstring field.name) out ↔
      fields ≠ [] ∧ out = tail := by
  have listed := @listed_iff (MField Scalar) _ ReadsName (ascii ",") tail out
    (fun field => escapeIdentifier field.name)
    (fun field => cstring field.name) (fun _ => True) fields
    (fun field _ rest out ends => by
      rw [readsName_iff ends, eq_self_iff_true])
    (delimited_append (by decide)) behind
  simpa using listed

private theorem listed_cell_iff (plain : ∀ field ∈ fields, field.useRawSql = false)
    (some : ∀ field ∈ fields, (fieldText formats field).isSome = true) :
    Listed ReadsCell (ascii ",")
        (joinedText (ascii ",") (fun field => (fieldText formats field).getD [])
          fields ++ ascii ")") (fields.map (fieldCell formats)) (ascii ")") ↔
      fields ≠ [] ∧ ∀ field ∈ fields, Stored formats field := by
  have closing : Delimited (ascii ")") := @delimited_append (ascii ")") (by decide) []
  rw [listed_iff (fun field isIn rest out ends => ?_)
    (delimited_append (by decide)) closing, and_iff_left rfl]
  obtain ⟨text, isText⟩ := Option.isSome_iff_exists.mp (some field isIn)
  rw [isText, Option.getD_some]
  exact readsCell_iff ends (plain field isIn) isText out

private theorem delimited_nil : Delimited [] := ⟨nofun, nofun⟩

theorem readsWhere_iff (plain : ∀ field ∈ conditions, field.useRawSql = false)
    (some : ∀ field ∈ conditions, (assignText formats field).isSome = true) :
    ReadsWhere (assignsText formats (ascii " AND ") conditions)
        (conditions.map (fieldAssign formats)) ↔
      conditions ≠ [] ∧ ∀ field ∈ conditions, Stored formats field := by
  have listed := @listed_assign_iff _ formats conditions (ascii " AND ") [] []
    plain some (delimited_append (by decide))
    delimited_nil
  rw [List.append_nil] at listed
  rw [ReadsWhere, listed]
  cases conditions with
  | nil => simp [assignsText, joinedText, ascii]
  | cons first conditions => simp

def wheresText (formats : Formats Scalar) (conditions : List (MField Scalar)) :
    Bytes :=
  (if conditions.isEmpty then ascii "1" else []) ++ assignsText formats (ascii " AND ") conditions

theorem whereText_some (some : ∀ field ∈ conditions, (assignText formats field).isSome = true) :
    whereText formats conditions = .some (wheresText formats conditions) :=
  joinItems_some some

theorem cstring_wheresText (plain : ∀ field ∈ conditions, field.useRawSql = false) :
    cstring (wheresText formats conditions) =
      wheresText formats conditions := by
  rw [wheresText]
  cases conditions with
  | nil => rfl
  | cons first conditions => exact cstring_assignsText (by decide) plain

theorem readsWhere_all_iff (plain : ∀ field ∈ conditions, field.useRawSql = false)
    (some : ∀ field ∈ conditions, (assignText formats field).isSome = true) :
    ReadsWhere (wheresText formats conditions) (conditions.map (fieldAssign formats)) ↔
      ∀ field ∈ conditions, Stored formats field := by
  rw [wheresText]
  cases conditions with
  | nil => simp [ReadsWhere, assignsText, joinedText]
  | cons first others =>
    rw [List.isEmpty_cons, if_neg Bool.false_ne_true, List.nil_append, readsWhere_iff plain some]
    simp

/-- A `NULL` among the conditions does no harm only if no row can have the
values of all fields. -/
theorem means_iff (stored : ∀ field ∈ conditions, Stored formats field) : Means formats conditions ↔
      (∀ field ∈ conditions, field.isNull = false) ∨ ∀ row, ¬Matches formats conditions row := by
  have matched {row : Bytes → Option Bytes}
      (selects : Selects (conditions.map (fieldAssign formats)) row) :
      Matches formats conditions row := by
    intro field isIn
    obtain ⟨value, isRow, isCell⟩ := selects (fieldAssign formats field) (List.mem_map_of_mem isIn)
    exact isRow.trans isCell.symm
  constructor
  · intro means
    by_cases notNull : ∀ field ∈ conditions, field.isNull = false
    · exact .inl notNull
    · simp only [not_forall, Bool.not_eq_false] at notNull
      obtain ⟨field, isIn, isNull⟩ := notNull
      refine .inr fun row hasValues => ?_
      obtain ⟨value, _, isCell⟩ := (means row).mpr hasValues
        (fieldAssign formats field) (List.mem_map_of_mem isIn)
      rw [fieldAssign, fieldCell, if_pos isNull] at isCell
      cases isCell
  · intro condition row
    refine ⟨matched, fun hasValues => ?_⟩
    rcases condition with notNull | none
    · intro assign isAssign
      obtain ⟨field, isIn, rfl⟩ := List.mem_map.mp isAssign
      obtain ⟨text, isText, _⟩ := stored field isIn
      have isCell : fieldCell formats field = some text := by
        rw [fieldCell, notNull field isIn, if_neg Bool.false_ne_true, isText]
      exact ⟨text, (hasValues field isIn).trans isCell, isCell⟩
    · exact absurd hasValues (none row)

/-- A builder that writes its text if all values are there. -/
theorem exists_text_iff {compiled : Option Bytes} {good : Prop} {reads : Bytes → Prop}
    (available : Prop) (text : Bytes) (isText : available → compiled = some text)
    (isNone : ¬available → compiled = none)
    (isRead : available → (reads text ↔ good)) (needed : good → available) :
    (∃ text, compiled = some text ∧ reads text) ↔ good := by
  by_cases all : available
  · rw [isText all, ← isRead all]
    constructor
    · rintro ⟨other, same, isOther⟩
      rwa [Option.some.inj same]
    · intro isOther
      exact ⟨text, rfl, isOther⟩
  · rw [isNone all]
    constructor
    · rintro ⟨other, same, _⟩
      cases same
    · intro isGood
      exact absurd (needed isGood) all

theorem cstring_escapeIdentifier (str : Bytes) :
    cstring (escapeIdentifier str) = escapeIdentifier str :=
  cstring_of_notMem (zero_notMem_quoted (by decide) str)

section Select

variable {columns : List Bytes}

theorem compileSelect_some (plain : ∀ field ∈ conditions, field.useRawSql = false)
    (some : ∀ field ∈ conditions, (assignText formats field).isSome = true) :
    compileSelect formats table columns conditions = .some
      (ascii "SELECT " ++ (joinedText (ascii ",") columnText columns ++
        (ascii " FROM " ++ (escapeIdentifier table ++ (ascii " WHERE " ++
          assignsText formats (ascii " AND ") conditions))))) := by
  rw [compileSelect, joinItems_some fun _ _ => rfl, joinItems_some some,
    Option.bind_some, Option.map_some, List.nil_append, List.nil_append,
    ← assignsText, cstring_assignsText (by decide) plain,
    cstring_escapeIdentifier]
  simp only [Option.getD_some]
  rw [cstring_joinedText (by decide) fun column _ =>
    zero_notMem_columnText column]
  simp only [List.append_assoc]

theorem compileSelect_none (missing : ¬∀ field ∈ conditions,
      (assignText formats field).isSome = true) :
    compileSelect formats table columns conditions = none := by
  rw [compileSelect, joinItems_some fun _ _ => rfl, joinItems_none missing]
  rfl

theorem compileSelect_iff (plain : ∀ field ∈ conditions, field.useRawSql = false) :
    (∃ text, compileSelect formats table columns conditions = some text ∧
      ReadsSelect text (cstring table) (columns.map columnName)
        (conditions.map (fieldAssign formats))) ↔
      columns ≠ [] ∧
      (∀ column ∈ columns, cstring column = ascii "*" ∨ isRawSql (cstring column) = false) ∧
      conditions ≠ [] ∧ ∀ field ∈ conditions, Stored formats field := by
  refine exists_text_iff _ _ (compileSelect_some plain) compileSelect_none
    (fun some => ?_) (fun good field isIn => ?_)
  · have behindColumns := @delimited_append (ascii " FROM ") (by decide)
    have behindTable := @delimited_append (ascii " WHERE ") (by decide)
    simp only [ReadsSelect, List.append_cancel_left_eq, exists_eq_left',
      listed_column_iff (behindColumns _), and_assoc, exists_and_left,
      exists_eq_left, true_and, readsName_iff (behindTable _),
      readsWhere_iff plain some]
  · exact (stored_isSome (good.2.2.2 field isIn)).1

/-- The part of a `SELECT` behind its columns. -/
theorem compileSelect_columns_iff (plain : ∀ field ∈ conditions, field.useRawSql = false) :
    (∃ text, compileSelect formats table columns conditions = some text ∧
      ReadsSelectOf text (joinedText (ascii ",") columnText columns)
        (cstring table) (conditions.map (fieldAssign formats))) ↔
      conditions ≠ [] ∧ ∀ field ∈ conditions, Stored formats field := by
  refine exists_text_iff _ _ (compileSelect_some plain) compileSelect_none
    (fun some => ?_) (fun good field isIn => ?_)
  · have behindTable := @delimited_append (ascii " WHERE ") (by decide)
    simp only [ReadsSelectOf, List.append_cancel_left_eq, exists_and_left,
      exists_eq_left', readsName_iff (behindTable _), true_and,
      exists_eq_left, readsWhere_iff plain some]
  · exact (stored_isSome (good.2 field isIn)).1

end Select

theorem compileInsert_iff (plain : ∀ field ∈ fields, field.useRawSql = false) :
    (∃ text, compileInsert formats table fields = some text ∧ ReadsInsert text (cstring table)
        (fields.map fun field => cstring field.name)
        (fields.map (fieldCell formats))) ↔
      fields ≠ [] ∧ ∀ field ∈ fields, Stored formats field := by
  refine exists_text_iff (fields ≠ [] ∧ ∀ field ∈ fields, (fieldText formats field).isSome = true)
    (ascii "INSERT INTO " ++ (escapeIdentifier table ++ (ascii " (" ++
      (joinedText (ascii ",") (fun field => escapeIdentifier field.name)
        fields ++ (ascii ") VALUES (" ++ (joinedText (ascii ",")
          (fun field => (fieldText formats field).getD []) fields ++ ascii ")"))))))
    (fun some => ?_) (fun missing => ?_) (fun some => ?_) (fun good => ?_)
  · rw [compileInsert, if_neg some.1, joinItems_some fun _ _ => rfl,
      joinItems_some some.2, Option.bind_some, Option.map_some,
      List.nil_append, List.nil_append,
      cstring_joinedText (by decide) fun field isIn =>
        zero_notMem_fieldText (plain field isIn),
      cstring_escapeIdentifier]
    simp only [Option.getD_some]
    rw [cstring_joinedText (by decide) fun field _ =>
      zero_notMem_quoted (by decide) field.name]
    simp only [List.append_assoc]
  · rw [compileInsert]
    split
    next => rfl
    next nonempty =>
      rw [joinItems_some fun _ _ => rfl, joinItems_none fun some => missing ⟨nonempty, some⟩]
      rfl
  · have behindTable := @delimited_append (ascii " (") (by decide)
    have behindNames := @delimited_append (ascii ") VALUES (") (by decide)
    simp only [ReadsInsert, List.append_cancel_left_eq, exists_eq_left',
      readsName_iff (behindTable _), exists_and_left, true_and, and_assoc,
      listed_name_iff (behindNames _), exists_eq_left,
      listed_cell_iff plain some.2]
    simp only [and_self_left]
  · exact ⟨good.1, fun field isIn => (stored_isSome (good.2 field isIn)).2⟩

theorem compileUpdate_iff (plainFields : ∀ field ∈ fields, field.useRawSql = false)
    (plain : ∀ field ∈ conditions, field.useRawSql = false) :
    (∃ text, compileUpdate formats table fields conditions = some text ∧
      ReadsUpdate text (cstring table) (fields.map (fieldAssign formats))
        (conditions.map (fieldAssign formats))) ↔
      fields ≠ [] ∧ (∀ field ∈ fields, Stored formats field) ∧
      ∀ field ∈ conditions, Stored formats field := by
  refine exists_text_iff ((∀ field ∈ fields, (assignText formats field).isSome = true) ∧
      ∀ field ∈ conditions, (assignText formats field).isSome = true)
    (ascii "UPDATE " ++ (escapeIdentifier table ++ (ascii " SET " ++
      (assignsText formats (ascii ",") fields ++ (ascii " WHERE " ++
        wheresText formats conditions)))))
    (fun some => ?_) (fun missing => ?_) (fun some => ?_)
    (fun good => ⟨fun field isIn => ?_, fun field isIn => ?_⟩)
  · rw [compileUpdate, joinItems_some some.1, whereText_some some.2,
      Option.bind_some, Option.map_some, List.nil_append, ← assignsText,
      cstring_assignsText (by decide) plainFields, cstring_wheresText plain,
      cstring_escapeIdentifier]
    simp only [List.append_assoc]
  · rw [compileUpdate]
    by_cases someFields : ∀ field ∈ fields, (assignText formats field).isSome = true
    · rw [joinItems_some someFields, whereText,
        joinItems_none fun some => missing ⟨someFields, some⟩]
      rfl
    · rw [joinItems_none someFields]
      rfl
  · have behindTable := @delimited_append (ascii " SET ") (by decide)
    have behindSet := @delimited_append (ascii " WHERE ") (by decide)
    have comma := @delimited_append (ascii ",") (by decide)
    simp only [ReadsUpdate, List.append_cancel_left_eq, exists_and_left,
      exists_eq_left', readsName_iff (behindTable _), true_and, and_assoc,
      listed_assign_iff plainFields some.1 comma (behindSet _),
      exists_eq_left, readsWhere_all_iff plain some.2]
  · exact (stored_isSome (good.2.1 field isIn)).1
  · exact (stored_isSome (good.2.2 field isIn)).1

theorem compileDelete_iff (plain : ∀ field ∈ conditions, field.useRawSql = false) :
    (∃ text, compileDelete formats table conditions = some text ∧ ReadsDelete text (cstring table)
        (conditions.map (fieldAssign formats))) ↔
      ∀ field ∈ conditions, Stored formats field := by
  refine exists_text_iff (∀ field ∈ conditions, (assignText formats field).isSome = true)
    (ascii "DELETE FROM " ++ (escapeIdentifier table ++
      (ascii " WHERE " ++ wheresText formats conditions)))
    (fun some => ?_) (fun missing => ?_) (fun some => ?_)
    (fun good field isIn => ?_)
  · rw [compileDelete, whereText_some some, Option.map_some,
      cstring_escapeIdentifier, cstring_wheresText plain]
    simp only [List.append_assoc]
  · rw [compileDelete, whereText, joinItems_none missing]
    rfl
  · have behindTable := @delimited_append (ascii " WHERE ") (by decide)
    simp only [ReadsDelete, List.append_cancel_left_eq, exists_and_left,
      exists_eq_left', readsName_iff (behindTable _), true_and,
      exists_eq_left, readsWhere_all_iff plain some]
  · exact (stored_isSome (good field isIn)).1

/-- The statements that say what was asked for.  A `SELECT` needs at least one
condition, its columns are names if they are not taken for SQL, `NULL` is no
condition, and values end in front of their first `NUL`. -/
theorem compiled_iff (formats : Formats Scalar) (table : Bytes)
    (columns : List Bytes) (fields conditions : List (MField Scalar))
    (plainFields : ∀ field ∈ fields, field.useRawSql = false)
    (plain : ∀ field ∈ conditions, field.useRawSql = false) :
    ((∃ text, compileInsert formats table fields = some text ∧ ReadsInsert text (cstring table)
          (fields.map fun field => cstring field.name)
          (fields.map (fieldCell formats))) ↔
      fields ≠ [] ∧ ∀ field ∈ fields, Stored formats field) ∧
    ((∃ text, compileSelect formats table columns conditions = some text ∧
        ReadsSelect text (cstring table) (columns.map columnName)
          (conditions.map (fieldAssign formats))) ∧ Means formats conditions ↔
      (columns ≠ [] ∧ (∀ column ∈ columns,
          cstring column = ascii "*" ∨ isRawSql (cstring column) = false) ∧
        conditions ≠ [] ∧ ∀ field ∈ conditions, Stored formats field) ∧
      ((∀ field ∈ conditions, field.isNull = false) ∨ ∀ row, ¬Matches formats conditions row)) ∧
    ((∃ text, compileSelect formats table columns conditions = some text ∧
        ReadsSelectOf text (joinedText (ascii ",") columnText columns)
          (cstring table) (conditions.map (fieldAssign formats))) ∧
        Means formats conditions ↔
      (conditions ≠ [] ∧ ∀ field ∈ conditions, Stored formats field) ∧
      ((∀ field ∈ conditions, field.isNull = false) ∨ ∀ row, ¬Matches formats conditions row)) ∧
    ((∃ text, compileUpdate formats table fields conditions = some text ∧
        ReadsUpdate text (cstring table) (fields.map (fieldAssign formats))
          (conditions.map (fieldAssign formats))) ∧ Means formats conditions ↔
      (fields ≠ [] ∧ (∀ field ∈ fields, Stored formats field) ∧
        ∀ field ∈ conditions, Stored formats field) ∧
      ((∀ field ∈ conditions, field.isNull = false) ∨ ∀ row, ¬Matches formats conditions row)) ∧
    ((∃ text, compileDelete formats table conditions = some text ∧ ReadsDelete text (cstring table)
          (conditions.map (fieldAssign formats))) ∧ Means formats conditions ↔
      (∀ field ∈ conditions, Stored formats field) ∧
      ((∀ field ∈ conditions, field.isNull = false) ∨ ∀ row, ¬Matches formats conditions row)) := by
  refine ⟨compileInsert_iff plainFields, ?_, ?_, ?_, ?_⟩
  · rw [compileSelect_iff plain, and_congr_right_iff]
    intro good
    exact means_iff good.2.2.2
  · rw [compileSelect_columns_iff plain, and_congr_right_iff]
    intro good
    exact means_iff good.2
  · rw [compileUpdate_iff plainFields plain, and_congr_right_iff]
    intro good
    exact means_iff good.2.2
  · rw [compileDelete_iff plain, and_congr_right_iff]
    intro good
    exact means_iff good

def noFormats : Formats Nat where
  zero := 0
  toStr := fun _ _ => none

def textField (name text : String) : MField Nat where
  name := ascii name
  value := ⟨0, [], some (ascii text)⟩
  oldvalue := ⟨0, [], none⟩
  type := .text
  dirty := false
  isNull := false
  useDefault := false
  useRawSql := false

def nullField (name : String) : MField Nat :=
  { textField name "" with isNull := true }

theorem compiled_quote : (∃ text, compileInsert noFormats (ascii "t")
        [textField "a" "it's", nullField "b"] = some text ∧
      ReadsInsert text (ascii "t") [ascii "a", ascii "b"] [some (ascii "it's"), none]) ∧
    (∃ text, compileSelect noFormats (ascii "t") [ascii "a", ascii "count(*)"]
        [textField "a" "it's", textField "c" ""] = some text ∧
      ReadsSelectOf text (ascii "\"a\",count(*)") (ascii "t")
        [(ascii "a", some (ascii "it's")), (ascii "c", some [])]) ∧
    (∃ text, compileUpdate noFormats (ascii "t") [textField "a" "it's", nullField "b"]
        [textField "a" "it's", textField "c" ""] = some text ∧
      ReadsUpdate text (ascii "t") [(ascii "a", some (ascii "it's")), (ascii "b", none)]
        [(ascii "a", some (ascii "it's")), (ascii "c", some [])]) := by
  have statements := compiled_iff noFormats (ascii "t")
    [ascii "a", ascii "count(*)"] [textField "a" "it's", nullField "b"]
    [textField "a" "it's", textField "c" ""] (by simp [textField, nullField])
    (by simp [textField])
  have isQuote : Stored noFormats (textField "a" "it's") := ⟨ascii "it's", rfl, .inr (by decide)⟩
  have isNull : Stored noFormats (nullField "b") := ⟨_, rfl, .inl rfl⟩
  have isEmpty : Stored noFormats (textField "c" "") := ⟨[], rfl, .inr (by decide)⟩
  have fields : ∀ field ∈ [textField "a" "it's", nullField "b"],
      Stored noFormats field := by
    simpa using ⟨isQuote, isNull⟩
  have conditions : ∀ field ∈ [textField "a" "it's", textField "c" ""],
      Stored noFormats field := by
    simpa using ⟨isQuote, isEmpty⟩
  have noNull : ∀ field ∈ [textField "a" "it's", textField "c" ""], field.isNull = false := by
    simp [textField]
  exact ⟨statements.1.mpr ⟨nofun, fields⟩,
    (statements.2.2.1.mpr ⟨⟨nofun, conditions⟩, .inl noNull⟩).1,
    (statements.2.2.2.1.mpr ⟨⟨nofun, fields, conditions⟩, .inl noNull⟩).1⟩

/-- Without conditions nothing follows `WHERE`. -/
theorem select_without_conditions : compileSelect noFormats (ascii "t") [ascii "a"] [] =
      some (ascii "SELECT \"a\" FROM \"t\" WHERE ") ∧
    ¬∃ text, compileSelect noFormats (ascii "t") [ascii "a"] [] = some text ∧
      ReadsSelect text (cstring (ascii "t")) ([ascii "a"].map columnName)
        ([].map (fieldAssign noFormats)) := by
  have reads := @compileSelect_iff Nat noFormats (ascii "t") [] [ascii "a"] (List.forall_mem_nil _)
  constructor
  · decide +kernel
  · rw [reads]
    simp

end CWebFramework.Sqlite
