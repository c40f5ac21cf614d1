import CWebFramework.Database.SqlTokens
import CWebFramework.Misc.Numerals

/-!
# Immediate parameterized queries

`__build_query` of `framework/database/dbquery.c` with its processor: a `:`
parameter becomes a numbered placeholder and its field is bound, an `@`
parameter becomes an escaped identifier.
-/

namespace CWebFramework.Database

open Model

variable {Scalar : Type}

/-- The functions of a `dbconnection_t` that the builder calls. -/
structure Connection where
  escapeIdentifier : Bytes → Option Bytes
  typeCast : MType → Bytes

def postgresqlTypeCast : MType → Bytes
  | .bool => ascii "::boolean"
  | .smallint => ascii "::smallint"
  | .int => ascii "::integer"
  | .bigint => ascii "::bigint"
  | .float => ascii "::real"
  | .double => ascii "::double precision"
  | .decimal => ascii "::numeric"
  | .money => ascii "::money"
  | .date => ascii "::date"
  | .time => ascii "::time"
  | .timetz => ascii "::timetz"
  | .timestamp => ascii "::timestamp"
  | .timestamptz => ascii "::timestamptz"
  | .json => ascii "::jsonb"
  | .binary => ascii "::bytea"
  | .varchar => ascii "::varchar"
  | .char => ascii "::char"
  | .text => ascii "::text"
  | .enum => []
  | .array => ascii "::jsonb"

structure ImmediateBind (Scalar : Type) where
  bind : List (MField Scalar)
  idx : Nat
  deriving DecidableEq, Repr

def placeholderLabel (number : Nat) : Bytes := Byte.dollar :: CWebFramework.decimal number

def buildQueryProcessor (connection : Connection) (formats : Formats Scalar) :
    Processor Scalar (ImmediateBind Scalar) := fun marker field data =>
  if marker = Byte.commercialAt then
    (modelFieldToString formats field).bind fun value =>
      if field.raw then some ([.text value], data)
      else
        (connection.escapeIdentifier (cstring value)).map fun quoted =>
          ([.text quoted], data)
  else if marker ≠ Byte.colon then none
  else if field.isNull then some ([.text (ascii "NULL")], data)
  else
    (modelFieldToString formats field).bind fun value =>
      if field.useRawSql then some ([.text value], data)
      else
        some ([.placeholder (placeholderLabel (data.idx + 1))
              (connection.typeCast field.type) field],
            { bind := data.bind ++ [field]
              idx := data.idx + 1 })

def buildQuery (connection : Connection) (formats : Formats Scalar)
    (params : List (MField Scalar)) (query : Bytes) :
    Option (List (Emission Scalar) × ImmediateBind Scalar) :=
  parseSqlParameters formats (buildQueryProcessor connection formats) params ⟨[], 0⟩ query

/-! ## Placeholders and bound values -/

def Fragment.placeholders : Fragment Scalar → List (Bytes × MField Scalar)
  | .text _ => []
  | .placeholder label _ field => [(label, field)]

def Emission.placeholders : Emission Scalar → List (Bytes × MField Scalar)
  | .copied _ => []
  | .expanded _ _ fragments => fragments.flatMap Fragment.placeholders

/-- The fields with the labels `$1`, `$2`, … from the given number on. -/
def labelled (start : Nat) : List (MField Scalar) → List (Bytes × MField Scalar)
  | [] => []
  | field :: rest =>
    (placeholderLabel (start + 1), field) :: labelled (start + 1) rest

theorem labelled_append (start : Nat) (first second : List (MField Scalar)) :
    labelled start (first ++ second) =
      labelled start first ++ labelled (start + first.length) second := by
  induction first generalizing start with
  | nil => simp [labelled]
  | cons field rest ih =>
    rw [List.cons_append, labelled, ih, labelled, List.cons_append, List.length_cons]
    congr 3
    omega

/-- What a call of the processor, or several of them, add. -/
structure Binds (before after : ImmediateBind Scalar)
    (fragments : List (Fragment Scalar)) : Prop where
  fields : ∃ added, after.bind = before.bind ++ added ∧ after.idx = before.idx + added.length ∧
    fragments.flatMap Fragment.placeholders = labelled before.idx added

theorem Binds.none (data : ImmediateBind Scalar) (bytes : Bytes) : Binds data data [.text bytes] :=
  ⟨[], by simp [labelled, Fragment.placeholders]⟩

variable {fragments : List (Fragment Scalar)}

theorem Binds.append {first second third : ImmediateBind Scalar}
    {others : List (Fragment Scalar)} (binds : Binds first second fragments)
    (behind : Binds second third others) :
    Binds first third (fragments ++ others) := by
  obtain ⟨added, bound, counted, placed⟩ := binds.fields
  obtain ⟨more, moreBound, moreCounted, morePlaced⟩ := behind.fields
  refine ⟨added ++ more, ?_, ?_, ?_⟩
  · rw [moreBound, bound, List.append_assoc]
  · rw [moreCounted, counted, List.length_append, Nat.add_assoc]
  · rw [List.flatMap_append, placed, morePlaced, labelled_append, counted]

variable {connection : Connection} {formats : Formats Scalar} {marker : UInt8}
  {before after : ImmediateBind Scalar}

theorem buildQueryProcessor_binds {field : MField Scalar}
    (processed : buildQueryProcessor connection formats marker field before =
      some (fragments, after)) : Binds before after fragments := by
  unfold buildQueryProcessor at processed
  split at processed
  · obtain ⟨value, -, rest⟩ := Option.bind_eq_some_iff.mp processed
    split at rest
    · cases rest
      exact .none before value
    · obtain ⟨quoted, -, same⟩ := Option.map_eq_some_iff.mp rest
      cases same
      exact .none before quoted
  · split at processed
    · cases processed
    · split at processed
      · cases processed
        exact .none before _
      · obtain ⟨value, -, rest⟩ := Option.bind_eq_some_iff.mp processed
        split at rest
        · cases rest
          exact .none before value
        · cases rest
          exact ⟨[field], rfl, rfl, rfl⟩

theorem expandElements_binds {name : Bytes} {elements : List (Element Scalar)}
    (expanded : expandElements formats
      (buildQueryProcessor connection formats) marker name elements before =
        some (fragments, after)) : Binds before after fragments := by
  induction elements generalizing before fragments with
  | nil =>
    cases expanded
    exact ⟨[], by simp [labelled]⟩
  | cons element rest ih =>
    obtain ⟨field, -, ofField⟩ := Option.bind_eq_some_iff.mp expanded
    obtain ⟨⟨first, middle⟩, processed, ofRest⟩ := Option.bind_eq_some_iff.mp ofField
    obtain ⟨⟨others, last⟩, behind, same⟩ := Option.map_eq_some_iff.mp ofRest
    cases same
    have binds := buildQueryProcessor_binds processed
    have separated : Binds before middle
        (first ++ if rest = [] then [] else [.text [Byte.comma]]) := by
      split
      · rwa [List.append_nil]
      · exact binds.append (.none middle [Byte.comma])
    exact separated.append (ih behind)

private theorem expandParameter_binds {params : List (MField Scalar)} {name : Bytes}
    (expanded : expandParameter formats
      (buildQueryProcessor connection formats) params marker name before =
        some (fragments, after)) : Binds before after fragments := by
  obtain ⟨field, -, ofField⟩ := Option.bind_eq_some_iff.mp expanded
  split at ofField
  · split at ofField
    · exact expandElements_binds ofField
    · cases ofField
  · exact buildQueryProcessor_binds ofField

/-! ## Preservation -/

/-- The result is the query with every parameter that was found replaced by
its expansion, the placeholders are numbered from the left, and the bound
values are those of their parameters. -/
structure Preserves (connection : Connection) (formats : Formats Scalar)
    (params : List (MField Scalar)) (query : Bytes)
    (emitted : List (Emission Scalar)) (data : ImmediateBind Scalar) :
    Prop where
  source : emitted.flatMap Emission.source = query
  expansions : ∀ marker name fragments, .expanded marker name fragments ∈ emitted → ∃ before after,
      expandParameter formats (buildQueryProcessor connection formats) params
        marker name before = some (fragments, after)
  numbered : emitted.flatMap Emission.placeholders = labelled 0 data.bind

/-- Numbers and expansions are right at any time of the scan. -/
def Numbered (connection : Connection) (formats : Formats Scalar)
    (params : List (MField Scalar)) (emitted : List (Emission Scalar))
    (data : ImmediateBind Scalar) : Prop :=
  (∀ marker name fragments, .expanded marker name fragments ∈ emitted → ∃ before after,
      expandParameter formats (buildQueryProcessor connection formats) params
        marker name before = some (fragments, after)) ∧
  emitted.flatMap Emission.placeholders = labelled 0 data.bind ∧
  data.idx = data.bind.length

theorem numbered_emits (connection : Connection) (formats : Formats Scalar)
    (params : List (MField Scalar)) :
    Emits (expandParameter formats (buildQueryProcessor connection formats)
      params) (Numbered connection formats params) where
  copied := by
    rintro emitted data byte ⟨expansions, placed, counted⟩
    refine ⟨?_, ?_, counted⟩
    · intro marker name fragments isIn
      rcases List.mem_append.mp isIn with earlier | isNew
      · exact expansions marker name fragments earlier
      · cases List.mem_singleton.mp isNew
    · rw [List.flatMap_append, placed]
      exact List.append_nil _
  expanded := by
    rintro emitted data marker name fragments next ⟨expansions, placed, counted⟩ expanded
    obtain ⟨added, bound, moreCounted, morePlaced⟩ := (expandParameter_binds expanded).fields
    refine ⟨?_, ?_, ?_⟩
    · intro otherMarker otherName otherFragments isIn
      rcases List.mem_append.mp isIn with earlier | isNew
      · exact expansions otherMarker otherName otherFragments earlier
      · cases List.mem_singleton.mp isNew
        exact ⟨data, next, expanded⟩
    · rw [List.flatMap_append, placed, bound, labelled_append, ← counted,
        Nat.zero_add, ← morePlaced, List.flatMap_singleton]
      rfl
    · rw [moreCounted, counted, bound, List.length_append]

theorem buildQuery_numbered {params : List (MField Scalar)} {query : Bytes}
    {emitted : List (Emission Scalar)} {data : ImmediateBind Scalar}
    (built : buildQuery connection formats params query = some (emitted, data)) :
    Numbered connection formats params emitted data := by
  obtain ⟨scan, scanned, same⟩ := Option.map_eq_some_iff.mp built
  cases same
  rw [scanFrom_initial] at scanned
  refine scanRegions_holds (numbered_emits connection formats params) ?_ scanned
  exact ⟨fun _ _ _ isIn => absurd isIn List.not_mem_nil, rfl, rfl⟩

/-- A query (below `2 ^ 31` bytes, as `param_start` is an `int`) that is built
preserves its text exactly if it ends outside literals and comments and not
with a marker.  If it is also regular, exactly the parameters outside literals
and comments are replaced. -/
theorem buildQuery_preserves (connection : Connection) (formats : Formats Scalar)
    (params : List (MField Scalar)) {query : Bytes} {emitted : List (Emission Scalar)}
    {data : ImmediateBind Scalar}
    (built : buildQuery connection formats params query = some (emitted, data)) :
    (Preserves connection formats params query emitted data ↔ EndsShown query) ∧
    (EndsShown query → Regular (regions query) → evaluate (expandParameter formats
        (buildQueryProcessor connection formats) params)
        (tokens (regions query)) ⟨[], 0⟩ = some (emitted, data)) := by
  have whole := parseSqlParameters_source formats
    (buildQueryProcessor connection formats) params ⟨[], 0⟩ built
  have numbered := buildQuery_numbered built
  refine ⟨⟨fun preserves => whole.mp preserves.source, fun ends => ?_⟩, ?_⟩
  · exact ⟨whole.mpr ends, numbered.1, numbered.2.1⟩
  · intro ends regular
    rw [← parseSqlParameters_tokens formats
      (buildQueryProcessor connection formats) params ⟨[], 0⟩ ends regular]
    exact built

/-- Formats that print every number as `0`. -/
def zeroFormats : Formats Nat where
  zero := 0
  toStr := fun _ _ => some (ascii "0")

def plainConnection : Connection where
  escapeIdentifier := some
  typeCast := fun _ => []

def intParam (name : String) (value : Nat) : MField Nat where
  name := ascii name
  value := ⟨value, [], none⟩
  oldvalue := ⟨0, [], none⟩
  type := .int
  dirty := false
  isNull := false
  useDefault := false
  useRawSql := false

theorem buildQuery_preserves_literal :
    Preserves plainConnection zeroFormats [intParam "a" 7] (ascii ":a,':b'")
      [.expanded Byte.colon (ascii "a") [.placeholder (ascii "$1") [] (intParam "a" 7)],
        .copied 44, .copied 39, .copied 58, .copied 98, .copied 39]
      ⟨[intParam "a" 7], 1⟩ := by
  refine (buildQuery_preserves plainConnection zeroFormats [intParam "a" 7] ?_).1.mpr ?_
  · decide +kernel
  · decide +kernel

/-- The text behind the last parameter is lost if a comment ends the query. -/
theorem buildQuery_comment_at_end : buildQuery plainConnection zeroFormats [intParam "a" 7]
        (ascii "SELECT 1 -- c") = some ([], ⟨[], 0⟩) ∧
      ¬ Preserves plainConnection zeroFormats [intParam "a" 7]
        (ascii "SELECT 1 -- c") [] ⟨[], 0⟩ := by
  constructor
  · decide +kernel
  · intro preserves
    have whole := preserves.source
    revert whole
    decide +kernel

end CWebFramework.Database
