import CWebFramework.Storage.FileSystem
import CWebFramework.Text.Format

/-!
# Formats of paths

The functions of `storage.c` take a format and its arguments and expand them
into `path`.  `storage_file_duplicate`, `send_filef`, `render` and the `view`
of a response expand the format themselves and hand the result to a function
that takes a format;
`__create_uri` of the S3 storage expands the path of most functions once more.
What `vsnprintf` writes for a directive is a parameter.
-/

namespace CWebFramework.Storage

open Text

/-- The functions of a storage back end. -/
inductive StorageFunction where
  | fileGet
  | filePut
  | fileContentPut
  | fileDataPut
  | fileRemove
  | fileExist
  | fileList
  deriving DecidableEq, Repr

inductive Backend where
  | fs
  | s3
  deriving DecidableEq, Repr

/-- The functions that take a format for a path. `storage_file_duplicate` uses
its path twice. -/
inductive PathFunction where
  | storage (function : StorageFunction)
  | duplicateFrom
  | duplicateTo
  | filef
  | render
  | view
  deriving DecidableEq, Repr

/-- The function of the back end that gets the path in the end. -/
def PathFunction.storageFunction : PathFunction → StorageFunction
  | .storage function => function
  | .duplicateFrom => .fileGet
  | .duplicateTo => .filePut
  | .filef => .fileGet
  | .render => .fileGet
  | .view => .fileGet

/-- What is documented of `vsnprintf`. -/
structure Printf (Value : Type) extends Directives UInt8 Value where
  isPercent : percent = Byte.percent
  /-- The argument for a `char*`. -/
  string : Bytes → Value
  isString : ∀ text behind values, directive (115 :: behind) (string text :: values) =
      some (text, behind, values)

section Formats

variable {Value : Type} (libc : Printf Value)

/-- `STORAGE_BUILD_PATH`: `vsnprintf` into `PATH_MAX` bytes, `none` where its
result is undefined. -/
def storageBuildPath (format : Bytes) (args : List Value) : Option Bytes :=
  (libc.expand format args).map intoPath

/-- The path that a back end uses for the path it is given: `__create_uri`
takes it for a format, except for `__file_list`. -/
def Backend.path (backend : Backend) (function : StorageFunction) (path : Bytes) : Option Bytes :=
  match backend, function with
  | .fs, _ => some path
  | .s3, .fileList =>
    storageBuildPath libc (ascii "?delimiter=/&max-keys=1000&prefix=%s") [libc.string path]
  | .s3, _ => storageBuildPath libc path []

/-- `storage_file_get` and the other functions of `storage.c`. -/
def storageFile (backend : Backend) (function : StorageFunction)
    (format : Bytes) (args : List Value) : Option Bytes :=
  (storageBuildPath libc format args).bind (backend.path libc function)

/-- `render`: `__viewparser_readfile` refuses a path that does not fit. -/
def renderPath (backend : Backend) (format : Bytes) (args : List Value) : Option (Option Bytes) :=
  (libc.expand format args).bind fun text =>
    if pathMax ≤ text.length then some none
    else (storageFile libc backend .fileGet (intoPath text) []).map some

/-- The path that the back end uses.  `none` stands for a result that is not
defined, `some none` for a call that is refused before the back end is
reached. -/
def finalPath (backend : Backend) (caller : PathFunction) (format : Bytes)
    (args : List Value) : Option (Option Bytes) :=
  match caller with
  | .storage function =>
    (storageFile libc backend function format args).map some
  | .duplicateFrom | .duplicateTo | .filef =>
    ((storageBuildPath libc format args).bind fun path =>
      storageFile libc backend caller.storageFunction path []).map some
  | .render => renderPath libc backend format args
  | .view =>
    (storageBuildPath libc format args).bind fun path =>
      renderPath libc backend path []

end Formats

/-- The path as the back end writes it when nothing is expanded. -/
def Backend.written (backend : Backend) (function : StorageFunction) (path : Bytes) : Bytes :=
  match backend, function with
  | .s3, .fileList =>
    intoPath (ascii "?delimiter=/&max-keys=1000&prefix=" ++ path)
  | _, _ => path

def expandsAgain (backend : Backend) (caller : PathFunction) : Bool :=
  match caller with
  | .storage function => backend == .s3 && function != .fileList
  | _ => true

section Once

variable {Value : Type} {libc : Printf Value}

private theorem length_intoPath (text : Bytes) : (intoPath text).length < pathMax := by
  rw [intoPath, List.length_take]
  have positive : pathMax = 4096 := rfl
  omega

theorem intoPath_of_length {text : Bytes} (short : text.length < pathMax) :
    intoPath text = text := by
  apply List.take_of_length_le
  omega

theorem storageBuildPath_plain {path : Bytes} (short : path.length < pathMax)
    (plain : Byte.percent ∉ path) (args : List Value) :
    storageBuildPath libc path args = some path := by
  rw [← libc.isPercent] at plain
  rw [storageBuildPath, libc.expand_plain plain, Option.map_some, intoPath_of_length short]

/-- A path that is expanded again does not get longer, and loses its percent
signs. -/
theorem storageBuildPath_length {path again : Bytes}
    (built : storageBuildPath libc path [] = some again) :
    again.length ≤ path.length ∧ (Byte.percent ∈ path → again.length < path.length) := by
  obtain ⟨text, expanded, rfl⟩ := Option.map_eq_some_iff.mp built
  have bound := libc.length_expand expanded
  have cut : (intoPath text).length ≤ text.length := by
    rw [intoPath, List.length_take]
    omega
  refine ⟨cut.trans bound.1, fun isIn => ?_⟩
  exact Nat.lt_of_le_of_lt cut (bound.2 (libc.isPercent ▸ isIn))

theorem expand_listing (path : Bytes) : libc.expand (ascii "?delimiter=/&max-keys=1000&prefix=%s")
        [libc.string path] =
      some (ascii "?delimiter=/&max-keys=1000&prefix=" ++ path) := by
  have plain : libc.percent ∉ ascii "?delimiter=/&max-keys=1000&prefix=" := by
    rw [libc.isPercent]
    decide
  have split : ascii "?delimiter=/&max-keys=1000&prefix=%s" =
      ascii "?delimiter=/&max-keys=1000&prefix=" ++ [libc.percent, 115] := by
    rw [libc.isPercent]
    rfl
  rw [split, libc.expand_append plain,
    libc.expand_directive (libc.isString path [] []), libc.expand_nil]
  simp

theorem Backend.path_plain (backend : Backend) (function : StorageFunction)
    {path : Bytes} (short : path.length < pathMax)
    (plain : Byte.percent ∉ path) :
    backend.path libc function path = some (backend.written function path) := by
  cases backend with
  | fs => cases function <;> rfl
  | s3 =>
    cases function with
    | fileList =>
      rw [Backend.path, storageBuildPath, expand_listing]
      rfl
    | _ => exact storageBuildPath_plain short plain []

variable {function : StorageFunction}

theorem Backend.path_length (backend : Backend) (notList : function ≠ .fileList) {path used : Bytes}
    (isUsed : backend.path libc function path = some used) :
    used.length ≤ path.length := by
  cases backend with
  | fs =>
    rw [Option.some.inj isUsed]
  | s3 =>
    cases function with
    | fileList => exact absurd rfl notList
    | _ => exact (storageBuildPath_length isUsed).1

theorem Backend.written_of_ne (backend : Backend) (notList : function ≠ .fileList) (path : Bytes) :
    backend.written function path = path := by
  cases backend with
  | fs => rfl
  | s3 =>
    cases function with
    | fileList => exact absurd rfl notList
    | _ => rfl

/-- A path that is handed on as a format arrives unchanged exactly if it has no
percent sign. -/
theorem storageFile_again_iff (backend : Backend) (notList : function ≠ .fileList) {path : Bytes}
    (short : path.length < pathMax) :
    storageFile libc backend function path [] = some path ↔ Byte.percent ∉ path := by
  constructor
  · intro same isIn
    obtain ⟨again, built, isUsed⟩ := Option.bind_eq_some_iff.mp same
    have shorter := (storageBuildPath_length built).2 isIn
    have bound := backend.path_length notList isUsed
    omega
  · intro plain
    rw [storageFile, storageBuildPath_plain short plain, Option.bind_some,
      backend.path_plain function short plain,
      backend.written_of_ne notList]

private theorem storageBuildPath_again_iff {path : Bytes} (short : path.length < pathMax) :
    storageBuildPath libc path [] = some path ↔ Byte.percent ∉ path := by
  constructor
  · intro same isIn
    exact Nat.lt_irrefl _ ((storageBuildPath_length same).2 isIn)
  · intro plain
    exact storageBuildPath_plain short plain []

theorem Backend.path_once_iff (backend : Backend) (function : StorageFunction) {path : Bytes}
    (short : path.length < pathMax) :
    backend.path libc function path = some (backend.written function path) ↔
      expandsAgain backend (.storage function) = false ∨ Byte.percent ∉ path := by
  cases backend with
  | fs => exact ⟨fun _ => .inl rfl, fun _ => by cases function <;> rfl⟩
  | s3 =>
    by_cases isList : function = .fileList
    · subst isList
      refine ⟨fun _ => .inl rfl, fun _ => ?_⟩
      rw [Backend.path, storageBuildPath, expand_listing]
      rfl
    · have again : expandsAgain .s3 (.storage function) = true := by
        simpa [expandsAgain] using isList
      rw [again, Backend.written_of_ne .s3 isList]
      have asFormat : Backend.s3.path libc function path = storageBuildPath libc path [] := by
        cases function with
        | fileList => exact absurd rfl isList
        | _ => rfl
      rw [asFormat, storageBuildPath_again_iff short]
      simp

private theorem exists_outcome_iff (result : Option Bytes) (expected : Bytes) :
    (∃ outcome, result.map some = some outcome ∧
      ∀ path ∈ outcome, path = expected) ↔ result = some expected := by
  cases result with
  | none => simp
  | some path => simp

/-- `__httpresponse_view` hands its path to `render`, which expands it twice. -/
theorem renderPath_again_iff (backend : Backend) {path : Bytes} (short : path.length < pathMax) :
    (∃ outcome, renderPath libc backend path [] = some outcome ∧
      ∀ used ∈ outcome, used = path) ↔ Byte.percent ∉ path := by
  have notList : StorageFunction.fileGet ≠ .fileList := nofun
  constructor
  · rintro ⟨outcome, rendered, isPath⟩ isIn
    obtain ⟨text, expanded, isOutcome⟩ := Option.bind_eq_some_iff.mp rendered
    have shorter := (libc.length_expand expanded).2 (libc.isPercent ▸ isIn)
    rw [if_neg (by omega)] at isOutcome
    obtain ⟨used, isUsed, rfl⟩ := Option.map_eq_some_iff.mp isOutcome
    obtain ⟨again, built, isFinal⟩ := Option.bind_eq_some_iff.mp isUsed
    have bound := (storageBuildPath_length built).1
    have boundFinal := backend.path_length notList isFinal
    rw [intoPath_of_length (by omega)] at bound
    rw [isPath used rfl] at boundFinal
    omega
  · intro plain
    have again : storageFile libc backend .fileGet path [] = some path :=
      (storageFile_again_iff backend notList short).mpr plain
    rw [← libc.isPercent] at plain
    rw [renderPath, libc.expand_plain plain, Option.bind_some,
      if_neg (Nat.not_le.mpr short), intoPath_of_length short, again]
    exact ⟨_, rfl, by simp⟩

/-- The back end uses the format expanded once exactly if the expanded path is
not taken for a format again or has no percent sign, unless `render` has
refused it. -/
theorem finalPath_once_iff (backend : Backend) (caller : PathFunction)
    {format text : Bytes} {args : List Value}
    (expanded : libc.expand format args = some text) :
    (∃ outcome, finalPath libc backend caller format args = some outcome ∧ ∀ path ∈ outcome,
        path = backend.written caller.storageFunction (intoPath text)) ↔
      (caller = .render ∧ pathMax ≤ text.length) ∨ expandsAgain backend caller = false ∨
        Byte.percent ∉ intoPath text := by
  have short := length_intoPath text
  have built : storageBuildPath libc format args = some (intoPath text) := by
    rw [storageBuildPath, expanded]
    rfl
  -- the functions that hand the expanded path on as a format
  have handedOn (function : StorageFunction) (notList : function ≠ .fileList) :
      (∃ outcome, (storageFile libc backend function (intoPath text) []).map some = some outcome ∧
        ∀ path ∈ outcome, path = backend.written function (intoPath text)) ↔
        Byte.percent ∉ intoPath text := by
    rw [exists_outcome_iff, backend.written_of_ne notList,
      storageFile_again_iff backend notList short]
  cases caller with
  | storage function =>
    rw [finalPath, storageFile, built, Option.bind_some, exists_outcome_iff]
    exact (backend.path_once_iff function short).trans (by simp)
  | duplicateFrom =>
    rw [finalPath, built, Option.bind_some]
    exact (handedOn .fileGet nofun).trans (by simp [expandsAgain])
  | duplicateTo =>
    rw [finalPath, built, Option.bind_some]
    exact (handedOn .filePut nofun).trans (by simp [expandsAgain])
  | filef =>
    rw [finalPath, built, Option.bind_some]
    exact (handedOn .fileGet nofun).trans (by simp [expandsAgain])
  | render =>
    rw [finalPath, renderPath, expanded, Option.bind_some]
    by_cases large : pathMax ≤ text.length
    · rw [if_pos large]
      exact ⟨fun _ => .inl ⟨rfl, large⟩, fun _ => ⟨none, rfl, nofun⟩⟩
    · rw [if_neg large]
      exact (handedOn .fileGet nofun).trans (by simp [expandsAgain, large])
  | view =>
    have asGet := backend.written_of_ne
      (show StorageFunction.fileGet ≠ .fileList from nofun) (intoPath text)
    rw [finalPath, built, Option.bind_some, PathFunction.storageFunction,
      asGet, renderPath_again_iff backend short]
    simp [expandsAgain]

end Once

/-- `vsnprintf` with the directives `%%` and `%s`. -/
def stringPrintf : Printf Bytes where
  percent := Byte.percent
  directive
    | 37 :: text, values => some ([Byte.percent], text, values)
    | 115 :: text, value :: values => some (value, text, values)
    | _, _ => none
  shorter := by
    intro text values output behind left isDirective
    split at isDirective
    · cases isDirective
      exact Nat.lt_succ_self _
    · cases isDirective
      exact Nat.lt_succ_self _
    · cases isDirective
  escaped _ _ := rfl
  missing := by
    intro text result isDirective
    split at isDirective
    · rfl
    · rename_i isCons
      cases isCons
    · cases isDirective
  isPercent := rfl
  string := id
  isString _ _ _ := rfl

theorem finalPath_once_iff_render :
    ∃ outcome, finalPath stringPrintf .s3 .render (ascii "%s/%s.html")
        [ascii "views", ascii "a"] = some outcome ∧
      ∀ path ∈ outcome, path = ascii "views/a.html" := by
  have expanded : stringPrintf.expand (ascii "%s/%s.html")
      [ascii "views", ascii "a"] = some (ascii "views/a.html") := by
    decide +kernel
  exact (finalPath_once_iff .s3 .render expanded).mpr (.inr (.inr (by decide +kernel)))

/-- A name with `%%` is changed by all functions that hand the path on, and one
with `%s` asks for an argument that is not there. -/
theorem finalPath_percent : (∀ caller ∈ [PathFunction.duplicateFrom, .duplicateTo, .filef, .render],
      finalPath stringPrintf .fs caller (ascii "%s") [ascii "100%%"] = some (some (ascii "100%")) ∧
        finalPath stringPrintf .fs caller (ascii "%s") [ascii "%s"] = none) ∧
      finalPath stringPrintf .fs .view (ascii "%s") [ascii "100%%%%"] = some (some (ascii "100%")) ∧
      finalPath stringPrintf .s3 (.storage .fileGet) (ascii "%s")
        [ascii "100%%"] = some (some (ascii "100%")) ∧
      finalPath stringPrintf .fs (.storage .fileGet) (ascii "%s")
        [ascii "100%%"] = some (some (ascii "100%%")) := by
  decide +kernel

end CWebFramework.Storage
