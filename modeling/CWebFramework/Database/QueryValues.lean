import CWebFramework.Database.QueryBuilder
import CWebFramework.Relation.Together

/-!
# The text of a query and the values of its parameters

Two runs of the builder on one query with parameters that differ only in their
values: the bytes that are copied and the expansions of the `:` parameters are
the same, and the values are found only among the bound fields.
-/

namespace CWebFramework.Database

open Model CWebFramework.Relation

/-! ## Two scans of one query -/

section Scans

variable {Scalar Data : Type} {strict : Prop}
  {same : Emission Scalar → Emission Scalar → Prop}
  {related : Data → Data → Prop}
  {expand expandOther : UInt8 → Bytes → Data → Option (List (Fragment Scalar) × Data)}

/-- The markers of parameters; under `strict` there are no identifiers. -/
def Marks (strict : Prop) (marker : UInt8) : Prop :=
  isMarker marker = true ∧ (strict → marker ≠ Byte.commercialAt)

variable (strict same related) in
/-- Two scans that are at the same place of the query. -/
structure ScansAlike (first second : Scan Scalar Data) : Prop where
  passed : first.passed = second.passed
  skipNextColon : first.skipNextColon = second.skipNextColon
  pending : first.pending = second.pending
  held : first.held = second.held
  emitted : List.Forall₂ same first.emitted second.emitted
  data : related first.data second.data
  marked : ∀ text, first.pending = some text → ∃ marker name,
    text = marker :: name ∧ Marks strict marker

variable (strict same related expand expandOther) in
/-- Copied bytes are alike, and so are the expansions that both runs make. -/
structure ExpandsAlike : Prop where
  copied : ∀ byte, same (.copied byte) (.copied byte)
  expanded : ∀ {marker name data other}, related data other → Marks strict marker → Together strict
        (fun first second =>
          same (.expanded marker name first.1) (.expanded marker name second.1) ∧
            related first.2 second.2)
        (expand marker name data) (expandOther marker name other)

theorem ScansAlike.keep {first second : Scan Scalar Data}
    (alike : ScansAlike strict same related first second) (byte : UInt8) :
    ScansAlike strict same related (first.keep byte) (second.keep byte) := by
  obtain ⟨passed, skips, pending, held, emitted, data, marked⟩ := alike
  unfold Scan.keep
  rw [← pending]
  cases isPending : first.pending with
  | none =>
    refine ⟨passed, skips, rfl, ?_, emitted, data, fun _ none => nomatch none⟩
    simp only [held]
  | some text =>
    refine ⟨passed, skips, rfl, held, emitted, data, ?_⟩
    intro grown isGrown
    cases isGrown
    obtain ⟨marker, name, split, marks⟩ := marked text isPending
    exact ⟨marker, name ++ [byte], by rw [split, List.cons_append], marks⟩

section Steps

variable (alikeExpansions : ExpandsAlike strict same related expand expandOther)

include alikeExpansions

theorem emitted_copied {emitted other : List (Emission Scalar)}
    (alike : List.Forall₂ same emitted other) (bytes : Bytes) :
    List.Forall₂ same (emitted ++ bytes.map .copied) (other ++ bytes.map .copied) := by
  refine List.rel_append alike ?_
  induction bytes with
  | nil => exact .nil
  | cons byte rest ih =>
    exact .cons (alikeExpansions.copied byte) ih

theorem ScansAlike.flush {first second : Scan Scalar Data}
    (alike : ScansAlike strict same related first second) :
    ScansAlike strict same related first.flush second.flush := by
  obtain ⟨passed, skips, pending, held, emitted, data, marked⟩ := alike
  refine ⟨passed, skips, pending, rfl, ?_, data, marked⟩
  simp only [Scan.flush, held]
  exact emitted_copied alikeExpansions emitted second.held

variable {first second : Scan Scalar Data}

theorem ScansAlike.ended (alike : ScansAlike strict same related first second)
    (byte : UInt8) (ends : Bool) :
    ScansAlike strict same related (if ends then (first.keep byte).flush else first.keep byte)
      (if ends then (second.keep byte).flush else second.keep byte) := by
  cases ends with
  | true => exact (alike.keep byte).flush alikeExpansions
  | false => exact alike.keep byte

theorem finishParameter_alike (alike : ScansAlike strict same related first second) {marker : UInt8}
    (name : Bytes) (marks : Marks strict marker) :
    Together strict (ScansAlike strict same related) (finishParameter expand first (marker :: name))
      (finishParameter expandOther second (marker :: name)) := by
  obtain ⟨passed, skips, -, held, emitted, data, -⟩ := alike
  unfold finishParameter
  dsimp only
  split
  · refine (alikeExpansions.expanded data marks).map ?_
    rintro ⟨fragments, after⟩ ⟨others, otherAfter⟩ ⟨sameExpansion, next⟩
    refine ⟨passed, skips, rfl, rfl, ?_, next, fun _ none => nomatch none⟩
    rw [held]
    exact List.rel_append (emitted_copied alikeExpansions emitted second.held)
      (.cons sameExpansion .nil)
  · refine ⟨passed, skips, rfl, ?_, emitted, data, fun _ none => nomatch none⟩
    simp only [held]

theorem paramEndCheck_alike (alike : ScansAlike strict same related first second) (byte : UInt8)
    (following : Option UInt8) :
    Together strict (ScansAlike strict same related) (paramEndCheck expand byte following first)
      (paramEndCheck expandOther byte following second) := by
  unfold paramEndCheck
  rw [← alike.pending]
  cases isPending : first.pending with
  | none => exact alike.ended alikeExpansions byte following.isNone
  | some text =>
    obtain ⟨marker, name, split, marks⟩ := alike.marked text isPending
    subst split
    dsimp only
    split
    · refine (finishParameter_alike alikeExpansions alike name marks).map ?_
      intro one other alike
      exact alike.ended alikeExpansions byte following.isNone
    · split
      · refine (finishParameter_alike alikeExpansions alike (name ++ [byte]) marks).map ?_
        intro one other alike
        exact alike.flush alikeExpansions
      · exact alike.keep byte

theorem scanShown_alike (alike : ScansAlike strict same related first second)
    {byte : UInt8} (following : Option UInt8)
    (notAt : strict → byte ≠ Byte.commercialAt) :
    Together strict (ScansAlike strict same related) (scanShown expand byte following first)
      (scanShown expandOther byte following second) := by
  obtain ⟨passed, skips, pending, held, emitted, data⟩ := first
  obtain ⟨_, _, _, _, others, otherData⟩ := second
  obtain ⟨rfl, rfl, rfl, rfl, sameEmitted, sameData, marked⟩ := alike
  have flagged : ∀ flag : Bool, ScansAlike strict same related
      ⟨passed, flag, pending, held, emitted, data⟩
      ⟨passed, flag, pending, held, others, otherData⟩ := fun flag =>
    ⟨rfl, rfl, rfl, rfl, sameEmitted, sameData, marked⟩
  obtain ⟨-, keptSkips, keptPending, keptHeld, keptEmitted, keptData,
    keptMarked⟩ := (flagged skips).keep byte
  unfold scanShown
  dsimp only
  split
  · cases pending with
    | some text =>
      exact paramEndCheck_alike alikeExpansions (flagged true) byte following
    | none =>
      exact ⟨rfl, keptSkips, keptPending, keptHeld, keptEmitted, keptData, keptMarked⟩
  · split
    · exact ⟨((flagged skips).keep byte).passed, rfl, keptPending, keptHeld,
        keptEmitted, keptData, keptMarked⟩
    · split
      next isMark =>
        cases pending with
        | some text => trivial
        | none =>
          refine ⟨rfl, rfl, rfl, rfl, sameEmitted, sameData, ?_⟩
          intro text isText
          cases isText
          exact ⟨byte, [], rfl, isMark, notAt⟩
      · exact paramEndCheck_alike alikeExpansions (flagged false) byte following

private theorem scanRegion_alike (alike : ScansAlike strict same related first second)
    {region : Region} (following : Option UInt8)
    (notAt : strict → region.byte ≠ Byte.commercialAt) :
    Together strict (ScansAlike strict same related) (scanRegion expand region following first)
      (scanRegion expandOther region following second) := by
  have kept := alike.keep region.byte
  unfold scanRegion
  rw [← alike.passed]
  split
  · exact ⟨rfl, kept.skipNextColon, kept.pending, kept.held, kept.emitted, kept.data, kept.marked⟩
  · split
    · exact scanShown_alike alikeExpansions alike following notAt
    · exact kept

theorem scanRegions_alike (alike : ScansAlike strict same related first second) {rest : List Region}
    (notAt : strict → ∀ region ∈ rest, region.byte ≠ Byte.commercialAt) :
    Together strict (ScansAlike strict same related) (scanRegions expand rest first)
      (scanRegions expandOther rest second) := by
  induction rest generalizing first second with
  | nil => exact alike
  | cons region rest ih =>
    rw [scanRegions, scanRegions]
    refine (scanRegion_alike alikeExpansions alike _ fun isStrict =>
      notAt isStrict region List.mem_cons_self).bind ?_
    intro one other alike
    exact ih alike fun isStrict region isIn =>
      notAt isStrict region (List.mem_cons_of_mem _ isIn)

end Steps

end Scans

/-! ## Parameters that differ in their values -/

section Values

variable {Scalar : Type} (connection : Connection) (formats : Formats Scalar)

/-- Two fields with the same type and flags that can both be converted or
cannot; a raw fragment is the same in both. -/
structure ValuesAlike (first second : MField Scalar) : Prop where
  type : first.type = second.type
  isNull : first.isNull = second.isNull
  useRawSql : first.useRawSql = second.useRawSql
  fragment : first.useRawSql = true → first.isNull = false →
    modelFieldToString formats first = modelFieldToString formats second
  converts : (modelFieldToString formats first).isSome = (modelFieldToString formats second).isSome

def ElementsAlike (first second : Element Scalar) : Prop :=
  ∀ name, Together True (ValuesAlike formats) (sqlArrayElementField formats name first)
    (sqlArrayElementField formats name second)

structure ParamsAlike (first second : MField Scalar) : Prop where
  name : first.name = second.name
  values : ValuesAlike formats first second
  elements : List.Forall₂ (ElementsAlike formats) first.value.array second.value.array

variable {connection formats}

/-- What two expansions of a `:` parameter have in common. -/
def SameExpansion (first second : List (Fragment Scalar) × ImmediateBind Scalar) : Prop :=
  first.1.flatMap Fragment.bytes = second.1.flatMap Fragment.bytes ∧
    first.2.idx = second.2.idx

theorem forall₂_nil_iff {α : Type} {related : α → α → Prop}
    {first second : List α} (alike : List.Forall₂ related first second) :
    first = [] ↔ second = [] := by
  rw [← List.length_eq_zero_iff, ← List.length_eq_zero_iff, alike.length_eq]

variable {data other : ImmediateBind Scalar}

theorem buildQueryProcessor_alike {first second : MField Scalar}
    (alike : ValuesAlike formats first second)
    (sameIdx : data.idx = other.idx) :
    Together True SameExpansion (buildQueryProcessor connection formats Byte.colon first data)
      (buildQueryProcessor connection formats Byte.colon second other) := by
  obtain ⟨sameType, sameNull, sameRaw, fragment, converts⟩ := alike
  have notAt : Byte.colon ≠ Byte.commercialAt := by decide
  simp only [buildQueryProcessor, notAt, if_false, ne_eq, not_true_eq_false, ← sameNull, ← sameRaw]
  by_cases isNull : first.isNull = true
  · simp only [isNull, if_true]
    exact ⟨rfl, sameIdx⟩
  · simp only [isNull]
    rcases text : modelFieldToString formats first with _ | value
    · rw [text] at converts
      rcases otherText : modelFieldToString formats second with _ | otherValue
      · trivial
      · rw [otherText] at converts
        cases converts
    · rw [text] at converts
      rcases otherText : modelFieldToString formats second with _ | otherValue
      · rw [otherText] at converts
        cases converts
      · simp only [Option.bind_some]
        by_cases raw : first.useRawSql = true
        · have same := fragment raw (by simpa using isNull)
          rw [text, otherText] at same
          cases same
          rw [if_pos raw, if_pos raw]
          exact ⟨rfl, sameIdx⟩
        · rw [if_neg raw, if_neg raw, sameIdx, sameType]
          exact ⟨rfl, rfl⟩

theorem expandElements_alike (name : Bytes) {elements others : List (Element Scalar)}
    (alike : List.Forall₂ (ElementsAlike formats) elements others)
    (sameIdx : data.idx = other.idx) :
    Together True SameExpansion (expandElements formats (buildQueryProcessor connection formats)
        Byte.colon name elements data)
      (expandElements formats (buildQueryProcessor connection formats)
        Byte.colon name others other) := by
  induction alike generalizing data other with
  | nil => exact ⟨rfl, sameIdx⟩
  | @cons first second elements others sameFirst alike ih =>
    have sameEnd := forall₂_nil_iff alike
    rw [expandElements, expandElements]
    refine (sameFirst name).bind fun one other alikeFields => ?_
    refine (buildQueryProcessor_alike alikeFields sameIdx).bind ?_
    rintro ⟨fragments, middle⟩ ⟨otherFragments, otherMiddle⟩ ⟨sameBytes, sameMiddle⟩
    refine (ih sameMiddle).map ?_
    rintro ⟨rest, after⟩ ⟨otherRest, otherAfter⟩ ⟨sameRest, sameAfter⟩
    refine ⟨?_, sameAfter⟩
    dsimp only at sameBytes sameRest ⊢
    simp only [List.flatMap_append, sameBytes, sameRest, sameEnd]

variable {params : List (MField Scalar)}

private theorem find?_alike {others : List (MField Scalar)}
    (alike : List.Forall₂ (ParamsAlike formats) params others) (key : Bytes) :
    Together True (ParamsAlike formats) (params.find? fun field => field.name == key)
      (others.find? fun field => field.name == key) := by
  induction alike with
  | nil => trivial
  | @cons first second params others sameFirst alike ih =>
    rw [List.find?_cons, List.find?_cons, ← sameFirst.name]
    cases first.name == key with
    | true => exact sameFirst
    | false => exact ih

theorem expandParameter_alike {others : List (MField Scalar)}
    (alike : List.Forall₂ (ParamsAlike formats) params others) (name : Bytes)
    (sameIdx : data.idx = other.idx) :
    Together True SameExpansion (expandParameter formats (buildQueryProcessor connection formats)
        params Byte.colon name data)
      (expandParameter formats (buildQueryProcessor connection formats)
        others Byte.colon name other) := by
  unfold expandParameter
  refine (find?_alike alike _).bind ?_
  intro first second sameParam
  have sameEmpty := forall₂_nil_iff sameParam.elements
  have sameType := sameParam.values.type
  split
  · simp only [ne_eq, sameEmpty, sameType]
    split
    · exact expandElements_alike _ sameParam.elements sameIdx
    · trivial
  · exact buildQueryProcessor_alike sameParam.values sameIdx

variable {before after : ImmediateBind Scalar}
  {fragments : List (Fragment Scalar)}

theorem buildQueryProcessor_identifier {field : MField Scalar}
    (processed : buildQueryProcessor connection formats Byte.commercialAt
      field before = some (fragments, after)) : after = before := by
  unfold buildQueryProcessor at processed
  rw [if_pos rfl] at processed
  obtain ⟨value, -, rest⟩ := Option.bind_eq_some_iff.mp processed
  split at rest
  · cases rest
    rfl
  · obtain ⟨quoted, -, made⟩ := Option.map_eq_some_iff.mp rest
    cases made
    rfl

private theorem expandElements_identifier {name : Bytes}
    {elements : List (Element Scalar)} (expanded : expandElements formats
      (buildQueryProcessor connection formats) Byte.commercialAt name elements
      before = some (fragments, after)) : after = before := by
  induction elements generalizing before fragments with
  | nil =>
    cases expanded
    rfl
  | cons element rest ih =>
    rw [expandElements] at expanded
    obtain ⟨field, -, expanded⟩ := Option.bind_eq_some_iff.mp expanded
    obtain ⟨⟨own, middle⟩, processed, expanded⟩ := Option.bind_eq_some_iff.mp expanded
    obtain ⟨⟨others, last⟩, behind, made⟩ := Option.map_eq_some_iff.mp expanded
    cases made
    rw [ih behind, buildQueryProcessor_identifier processed]

private theorem expandParameter_identifier {name : Bytes} (expanded : expandParameter formats
      (buildQueryProcessor connection formats) params Byte.commercialAt name
      before = some (fragments, after)) : after = before := by
  unfold expandParameter at expanded
  obtain ⟨field, -, expanded⟩ := Option.bind_eq_some_iff.mp expanded
  split at expanded
  · split at expanded
    · exact expandElements_identifier expanded
    · cases expanded
  · exact buildQueryProcessor_identifier expanded

/-- Copied bytes are equal, and so are the texts of the `:` parameters. -/
def SameText : Emission Scalar → Emission Scalar → Prop
  | .copied byte, .copied other => byte = other
  | .expanded marker name fragments, .expanded other otherName others =>
    marker = other ∧ name = otherName ∧ (marker = Byte.colon →
        fragments.flatMap Fragment.bytes = others.flatMap Fragment.bytes)
  | _, _ => False

section Builds

variable {params others : List (MField Scalar)}
  (alike : List.Forall₂ (ParamsAlike formats) params others)

include alike

theorem expandsAlike_sameText : ExpandsAlike False SameText (fun data other => data.idx = other.idx)
      (expandParameter formats (buildQueryProcessor connection formats) params)
      (expandParameter formats (buildQueryProcessor connection formats) others) where
  copied := fun _ => rfl
  expanded := by
    rintro marker name data other sameIdx ⟨isMark, -⟩
    simp only [isMarker, Bool.or_eq_true, beq_iff_eq] at isMark
    rcases isMark with rfl | rfl
    · refine (expandParameter_alike alike name sameIdx).mono False.elim ?_
      rintro ⟨fragments, after⟩ ⟨others, otherAfter⟩ ⟨sameBytes, sameAfter⟩
      exact ⟨⟨rfl, rfl, fun _ => sameBytes⟩, sameAfter⟩
    · refine .of_not_strict not_false ?_
      rintro ⟨fragments, after⟩ ⟨others, otherAfter⟩ expanded otherExpanded
      rw [expandParameter_identifier expanded, expandParameter_identifier otherExpanded]
      refine ⟨⟨rfl, rfl, fun isColon => ?_⟩, sameIdx⟩
      cases isColon

theorem expandsAlike_bytes : ExpandsAlike True (fun first second => first.bytes = second.bytes)
      (fun data other => data.idx = other.idx)
      (expandParameter formats (buildQueryProcessor connection formats) params)
      (expandParameter formats (buildQueryProcessor connection formats) others) where
  copied := fun _ => rfl
  expanded := by
    rintro marker name data other sameIdx ⟨isMark, notAt⟩
    simp only [isMarker, Bool.or_eq_true, beq_iff_eq] at isMark
    rcases isMark with rfl | rfl
    · exact expandParameter_alike alike name sameIdx
    · exact absurd rfl (notAt trivial)

omit alike in
theorem buildQuery_alike {strict : Prop} {same : Emission Scalar → Emission Scalar → Prop}
    (expansions : ExpandsAlike strict same (fun data other => data.idx = other.idx)
      (expandParameter formats (buildQueryProcessor connection formats) params)
      (expandParameter formats (buildQueryProcessor connection formats) others))
    {query : Bytes} (notAt : strict → Byte.commercialAt ∉ query) :
    Together strict (fun first second => List.Forall₂ same first.1 second.1 ∧
        first.2.idx = second.2.idx)
      (buildQuery connection formats params query)
      (buildQuery connection formats others query) := by
  unfold buildQuery parseSqlParameters
  rw [scanFrom_initial, scanFrom_initial]
  refine (scanRegions_alike expansions ?_ ?_).map ?_
  · exact ⟨rfl, rfl, rfl, rfl, .nil, rfl, fun _ none => nomatch none⟩
  · intro isStrict region isIn isAt
    apply notAt isStrict
    rw [← isAt, ← regionsFrom_bytes none ⟨.initial, false⟩ query]
    exact List.mem_map_of_mem isIn
  · intro first second scans
    exact ⟨scans.emitted, scans.data⟩

omit alike in
private theorem flatMap_bytes_eq {emitted more : List (Emission Scalar)}
    (same : List.Forall₂ (fun first second => first.bytes = second.bytes) emitted more) :
    emitted.flatMap Emission.bytes = more.flatMap Emission.bytes := by
  induction same with
  | nil => rfl
  | cons sameFirst _ ih =>
    rw [List.flatMap_cons, List.flatMap_cons, sameFirst, ih]

/-- The values do not reach the text (below `2 ^ 31` bytes, as `param_start` is
an `int`): two queries that are built differ at most in their identifiers, and
without identifiers the same text is built or none. -/
theorem buildQuery_values (connection : Connection) (query : Bytes) : (∀ first second,
      buildQuery connection formats params query = some first →
      buildQuery connection formats others query = some second →
        List.Forall₂ SameText first.1 second.1 ∧
          first.2.bind.length = second.2.bind.length) ∧
    (Byte.commercialAt ∉ query → (buildQuery connection formats params query).map
          (fun built => built.1.flatMap Emission.bytes) =
        (buildQuery connection formats others query).map
          (fun built => built.1.flatMap Emission.bytes)) := by
  constructor
  · rintro ⟨emitted, data⟩ ⟨otherEmitted, otherData⟩ built otherBuilt
    have together : Together False _ (buildQuery connection formats params query)
        (buildQuery connection formats others query) :=
      buildQuery_alike (expandsAlike_sameText alike) False.elim
    rw [built, otherBuilt] at together
    obtain ⟨sameText, sameIdx⟩ := together
    refine ⟨sameText, ?_⟩
    rw [← (buildQuery_numbered built).2.2, ← (buildQuery_numbered otherBuilt).2.2]
    exact sameIdx
  · intro notAt
    refine Together.eq ?_ trivial
    refine (buildQuery_alike (expandsAlike_bytes alike) fun _ => notAt).map ?_
    intro first second same
    exact flatMap_bytes_eq same.1

end Builds

end Values

/-! ## Fields with different values -/

def castingConnection : Connection where
  escapeIdentifier := some
  typeCast := postgresqlTypeCast

def textParam (name text : String) : MField Nat where
  name := ascii name
  value := ⟨0, [], some (ascii text)⟩
  oldvalue := ⟨0, [], none⟩
  type := .text
  dirty := false
  isNull := false
  useDefault := false
  useRawSql := false

def listParam (name : String) (elements : List (Element Nat)) : MField Nat where
  name := ascii name
  value := ⟨0, elements, none⟩
  oldvalue := ⟨0, [], none⟩
  type := .array
  dirty := false
  isNull := false
  useDefault := false
  useRawSql := false

def builtText (param : MField Nat) (query : String) : Option Bytes :=
  (buildQuery castingConnection zeroFormats [param] (ascii query)).map
    fun built => built.1.flatMap Emission.bytes

theorem buildQuery_values_list : builtText (listParam "a" [.int 1, .int 2]) "id IN(:list__a)" =
      builtText (listParam "a" [.int 3, .int 4]) "id IN(:list__a)" := by
  have ints : ∀ first second : Nat, ElementsAlike zeroFormats (.int first) (.int second) :=
    fun _ _ _ => ⟨rfl, rfl, rfl, (fun raw => nomatch raw), rfl⟩
  refine (buildQuery_values (.cons ?_ .nil) castingConnection
    (ascii "id IN(:list__a)")).2 (by decide +kernel)
  exact ⟨rfl, ⟨rfl, rfl, rfl, (fun raw => nomatch raw), rfl⟩,
    .cons (ints 1 3) (.cons (ints 2 4) .nil)⟩

/-- Two fields with the same name, type, flags and length. -/
def SameShape (first second : MField Nat) : Prop :=
  first.name = second.name ∧ first.type = second.type ∧
    first.isNull = second.isNull ∧ first.useRawSql = second.useRawSql ∧
    first.value.array.length = second.value.array.length

/-- The types of the elements choose the casts, an element that is `NULL`
cannot be converted, and a raw fragment is a part of the text. -/
theorem buildQuery_fragments_differ :
    (SameShape (listParam "a" [.int 1]) (listParam "a" [.double 1]) ∧
      builtText (listParam "a" [.int 1]) ":list__a" = some (ascii "$1::integer") ∧
      builtText (listParam "a" [.double 1]) ":list__a" = some (ascii "$1::double precision")) ∧
    (SameShape (listParam "a" [.string (some (ascii "x"))]) (listParam "a" [.string none]) ∧
      builtText (listParam "a" [.string (some (ascii "x"))]) ":list__a" = some (ascii "$1::text") ∧
      builtText (listParam "a" [.string none]) ":list__a" = none) ∧
    (SameShape { textParam "a" "NOW()" with useRawSql := true }
        { textParam "a" "1" with useRawSql := true } ∧
      builtText { textParam "a" "NOW()" with useRawSql := true } ":a" = some (ascii "NOW()") ∧
      builtText { textParam "a" "1" with useRawSql := true } ":a" = some (ascii "1")) := by
  refine ⟨⟨⟨rfl, rfl, rfl, rfl, rfl⟩, ?_, ?_⟩, ⟨⟨rfl, rfl, rfl, rfl, rfl⟩,
    ?_, ?_⟩, ⟨rfl, rfl, rfl, rfl, rfl⟩, ?_, ?_⟩ <;> decide +kernel

end CWebFramework.Database
