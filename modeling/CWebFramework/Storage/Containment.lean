import CWebFramework.Misc.Paths
import CWebFramework.Storage.FileSystem
import Mathlib.Data.List.Forall2

/-!
# Paths below the root of a storage

Which of the paths that `__prepare_fullpath` accepts lead out of the root.  The
test for `../` finds every component `..` in front of another one, so only the
last component can go up.  The test for `/..` starts over behind the character
that does not match and misses such a component behind two slashes or behind
`./`, and neither test looks at the beginning of the path.
-/

namespace CWebFramework.Storage

open CWebFramework.Path

/-! ## What is accessed -/

inductive Access where
  | get
  | put
  | remove
  | exist
  | list
  deriving DecidableEq, Repr

section Access

variable (glob : Bytes → Files → List Bytes) (root : Bytes) (files : Files)

/-- The path that a function hands to the file system: `fullpath`, or the first
path that `glob` finds for a pattern. -/
def accessedPath (access : Access) (path : Bytes) : Option Bytes :=
  if path = [] then none
  else (prepareFullpath root path).map fun fullpath =>
    if access = .get ∧ patternIn path then (glob fullpath files).headD fullpath
    else fullpath

end Access

/-- The root of a storage, which is kept in 2048 bytes. -/
structure Root where
  path : Bytes
  fits : path.length < 2048

/-- The part of a relative path that fits into `PATH_MAX` bytes behind the
root. -/
def Root.fitting (root : Root) (relpath : Bytes) : Bytes :=
  relpath.take (pathMax - 2 - root.path.length)

/-! ## The test for `../` -/

private theorem tolower_eq_slash {byte : UInt8}
    (isSlash : tolower byte = tolower Byte.slash) : byte = Byte.slash := by
  have same : tolower Byte.slash = 47 := by decide
  rw [same, tolower] at isSlash
  split_ifs at isSlash with isUpper
  · have sum := congrArg UInt8.toNat isSlash
    simp only [UInt8.le_iff_toNat_le] at isUpper
    simp at sum isUpper
    omega
  · exact isSlash

theorem substrLoop_nil (wanted text : Bytes) : substrLoop wanted text [] = true := by
  cases text <;> rfl

private theorem substrLoop_cons (wanted : Bytes) (byte : UInt8) (text : Bytes)
    (other : UInt8) (rest : Bytes) :
    substrLoop wanted (byte :: text) (other :: rest) =
      if tolower byte = tolower other then substrLoop wanted text rest
      else substrLoop wanted text wanted :=
  rfl

variable {name : Bytes}

/-- Behind a slash the loop is where it has started, unless it has found the
text. -/
theorem substrLoop_slash (noSlash : Byte.slash ∉ name) (rest : Bytes)
    {state : Bytes} (isState : state ∈ [ascii "../", ascii "./", ascii "/"]) :
    substrLoop (ascii "../") (name ++ Byte.slash :: rest) state = true ∨
      substrLoop (ascii "../") (name ++ Byte.slash :: rest) state =
        substrLoop (ascii "../") rest (ascii "../") := by
  simp only [List.mem_cons, List.not_mem_nil, or_false] at isState
  induction name generalizing state with
  | nil =>
    rcases isState with rfl | rfl | rfl
    · exact .inr rfl
    · exact .inr rfl
    · exact .inl (substrLoop_nil _ rest)
  | cons byte name ih =>
    rw [List.mem_cons, not_or] at noSlash
    rcases isState with rfl | rfl | rfl
    · by_cases matched : tolower byte = tolower Byte.dot
      · rw [List.cons_append, show ascii "../" = Byte.dot :: ascii "./" from
          rfl, substrLoop_cons, if_pos matched]
        exact ih noSlash.2 (.inr (.inl rfl))
      · rw [List.cons_append, show ascii "../" = Byte.dot :: ascii "./" from
          rfl, substrLoop_cons, if_neg matched]
        exact ih noSlash.2 (.inl rfl)
    · by_cases matched : tolower byte = tolower Byte.dot
      · rw [List.cons_append, show ascii "./" = Byte.dot :: ascii "/" from
          rfl, substrLoop_cons, if_pos matched]
        exact ih noSlash.2 (.inr (.inr rfl))
      · rw [List.cons_append, show ascii "./" = Byte.dot :: ascii "/" from
          rfl, substrLoop_cons, if_neg matched]
        exact ih noSlash.2 (.inl rfl)
    · have other : ¬ tolower byte = tolower Byte.slash := by
        intro isSlash
        exact noSlash.1 (tolower_eq_slash isSlash).symm
      rw [List.cons_append, show ascii "/" = Byte.slash :: [] from rfl,
        substrLoop_cons, if_neg other]
      exact ih noSlash.2 (.inl rfl)

variable {relpath : Bytes}

/-- Only the last component of an accepted path may be `..`. -/
theorem parent_notMem_dropLast (free : cmpsubstrLower relpath (ascii "../") = false) :
    ascii ".." ∉ (components relpath).dropLast := by
  unfold cmpsubstrLower at free
  induction relpath using components_induction with
  | last name noSlash =>
    rw [components_free noSlash]
    exact List.not_mem_nil
  | more name rest noSlash ih =>
    rw [components_cons noSlash,
      List.dropLast_cons_of_ne_nil (components_ne_nil rest), List.mem_cons,
      not_or]
    constructor
    · rintro rfl
      have found : substrLoop (ascii "../") (ascii ".." ++ Byte.slash :: rest)
          (ascii "../") = true := substrLoop_nil _ rest
      rw [found] at free
      cases free
    · apply ih
      have start : ascii "../" ∈ [ascii "../", ascii "./", ascii "/"] := List.mem_cons_self
      rcases substrLoop_slash noSlash rest start with found | same
      · rw [found] at free
        cases free
      · rwa [same] at free

/-! ## Merged slashes -/

private theorem mergeLoop_name (noSlash : Byte.slash ∉ name) (named : name ≠ [])
    (findSlash : Bool) (rest : Bytes) :
    mergeLoop findSlash (name ++ Byte.slash :: rest) =
      name ++ Byte.slash :: mergeLoop true rest := by
  induction name generalizing findSlash with
  | nil => exact absurd rfl named
  | cons byte name ih =>
    rw [List.mem_cons, not_or] at noSlash
    have different : (byte == Byte.slash) = false := beq_eq_false_iff_ne.mpr (Ne.symm noSlash.1)
    rw [List.cons_append, mergeLoop, different, Bool.and_false,
      if_neg Bool.false_ne_true, List.cons_append]
    by_cases isLast : name = []
    · subst isLast
      rfl
    · rw [ih noSlash.2 isLast]

theorem filter_components_mergeLoop (findSlash : Bool) (path : Bytes) :
    (components (mergeLoop findSlash path)).filter (· ≠ []) =
      (components path).filter (· ≠ []) := by
  induction path using components_induction generalizing findSlash with
  | last name noSlash => rw [mergeLoop_free noSlash]
  | more name rest noSlash ih =>
    by_cases isEmpty : name = []
    · subst isEmpty
      have shorter : (components ([] ++ Byte.slash :: rest)).filter (· ≠ []) =
          (components rest).filter (· ≠ []) := by
        rw [components_cons noSlash]
        rfl
      rw [shorter]
      cases findSlash with
      | true => exact ih true
      | false =>
        have kept : mergeLoop false ([] ++ Byte.slash :: rest) =
            [] ++ Byte.slash :: mergeLoop true rest := rfl
        rw [kept, components_cons noSlash, List.filter_cons_of_neg (by simp)]
        exact ih true
    · rw [mergeLoop_name noSlash isEmpty, components_cons noSlash,
        components_cons noSlash, List.filter_cons_of_pos (by simpa),
        List.filter_cons_of_pos (by simpa), ih]

private theorem walk_mergeLoop (location : Location Bytes) (findSlash : Bool) (path : Bytes) :
    location.walk (pathMoves (mergeLoop findSlash path)) = location.walk (pathMoves path) := by
  unfold pathMoves
  rw [← walk_named, filter_components_mergeLoop, walk_named]

theorem locate_storageMergeSlash (path : Bytes) :
    locate (storageMergeSlash path) = locate path := by
  have sameStart : (storageMergeSlash path).head? = path.head? := by
    cases path <;> rfl
  unfold locate
  rw [sameStart, storageMergeSlash, walk_mergeLoop]

/-! ## The full path -/

theorem intoPath_root (root : Root) (relpath : Bytes) :
    intoPath (root.path ++ Byte.slash :: relpath) =
      root.path ++ Byte.slash :: root.fitting relpath := by
  have fits := root.fits
  have room : pathMax - 1 - root.path.length = (pathMax - 2 - root.path.length) + 1 := by
    unfold pathMax
    omega
  rw [intoPath, List.take_append, room, List.take_succ_cons,
    List.take_of_length_le (by unfold pathMax; omega)]
  rfl

theorem prepareFullpath_eq_some {root fullpath : Bytes}
    (prepared : prepareFullpath root relpath = some fullpath) :
    cmpsubstrLower relpath (ascii "../") = false ∧ fullpath =
        storageMergeSlash (intoPath (root ++ Byte.slash :: relpath)) := by
  unfold prepareFullpath at prepared
  split_ifs at prepared with first second third
  exact ⟨by simpa using third, (Option.some.inj prepared).symm⟩

private theorem locate_prepared {root : Root} {fullpath : Bytes}
    (prepared : prepareFullpath root.path relpath = some fullpath) :
    locate fullpath = (directory root.path).walk (pathMoves (root.fitting relpath)) := by
  rw [(prepareFullpath_eq_some prepared).2, locate_storageMergeSlash, intoPath_root, locate_append]

/-! ## Patterns -/

/-- The bytes `*`, `?`, `[` and the backslash, which stand for something else
in a pattern. -/
def isSpecial (byte : UInt8) : Bool := [42, 63, 91, 92].contains byte

def isPlain (text : Bytes) : Bool := text.all (! isSpecial ·)

/-- What is documented of `glob`: it finds paths whose names match the
components of the pattern, and a component without special bytes matches
itself only.  A leading tilde is expanded. -/
structure GlobRules (fnmatch : (pattern name : Bytes) → Bool)
    (glob : Bytes → Files → List Bytes) : Prop where
  plain : ∀ pattern name, isPlain pattern = true → (fnmatch pattern name = true ↔ name = pattern)
  found : ∀ pattern files path, pattern.head? ≠ some 126 → path ∈ glob pattern files →
      List.Forall₂ (fun name pattern => fnmatch pattern name = true)
        (components path) (components pattern)

theorem exists_mergeLoop_root (findSlash : Bool) (root : Bytes) :
    (findSlash = true ∧ mergeLoop findSlash (root ++ [Byte.slash]) = []) ∨
      ∃ front, mergeLoop findSlash (root ++ [Byte.slash]) = front ++ [Byte.slash] := by
  induction root generalizing findSlash with
  | nil =>
    cases findSlash with
    | true => exact .inl ⟨rfl, rfl⟩
    | false => exact .inr ⟨[], rfl⟩
  | cons byte root ih =>
    rw [List.cons_append, mergeLoop]
    split
    · rename_i both
      rw [Bool.and_eq_true] at both
      rcases ih true with ⟨-, isEmpty⟩ | found
      · exact .inl ⟨both.1, isEmpty⟩
      · exact .inr found
    · rcases ih (byte == Byte.slash) with
        ⟨isSlash, isEmpty⟩ | ⟨front, found⟩
      · rw [isEmpty, beq_iff_eq.mp isSlash]
        exact .inr ⟨[], rfl⟩
      · rw [found]
        exact .inr ⟨byte :: front, rfl⟩

private theorem eq_of_plain {fnmatch : (pattern name : Bytes) → Bool}
    (plain : ∀ pattern name, isPlain pattern = true →
      (fnmatch pattern name = true ↔ name = pattern))
    {names patterns : List Bytes}
    (matched : List.Forall₂ (fun name pattern => fnmatch pattern name = true)
      names patterns) (arePlain : ∀ pattern ∈ patterns, isPlain pattern = true) :
    names = patterns := by
  induction matched with
  | nil => rfl
  | cons first _ ih =>
    rw [List.forall_mem_cons] at arePlain
    rw [(plain _ _ arePlain.1).mp first, ih arePlain.2]

theorem exists_pattern {fnmatch : (pattern name : Bytes) → Bool} {names patterns : List Bytes}
    (matched : List.Forall₂ (fun name pattern => fnmatch pattern name = true)
      names patterns) (isIn : name ∈ names) :
    ∃ pattern ∈ patterns, fnmatch pattern name = true := by
  induction matched with
  | nil => cases isIn
  | cons first _ ih =>
    rcases List.mem_cons.mp isIn with rfl | isBehind
    · exact ⟨_, List.mem_cons_self, first⟩
    · obtain ⟨pattern, isPattern, isMatch⟩ := ih isBehind
      exact ⟨pattern, List.mem_cons_of_mem _ isPattern, isMatch⟩

private theorem isPlain_of_subset {text part : Bytes} (plain : isPlain text = true)
    (isPart : ∀ byte ∈ part, byte ∈ text ∨ byte = Byte.slash) :
    isPlain part = true := by
  unfold isPlain at plain ⊢
  rw [List.all_eq_true] at plain ⊢
  intro byte isIn
  rcases isPart byte isIn with inText | rfl
  · exact plain byte inText
  · rfl

section Patterns

variable {root : Root} {relpath fullpath : Bytes}
  {fnmatch : (pattern name : Bytes) → Bool}
  {glob : Bytes → Files → List Bytes}

theorem exists_prepared (prepared : prepareFullpath root.path relpath = some fullpath) :
    ∃ front, fullpath = front ++ Byte.slash :: mergeLoop true (root.fitting relpath) ∧
      directory front = directory root.path ∧
      (∀ byte ∈ front, byte ∈ root.path ∨ byte = Byte.slash) ∧
      (front ++ [Byte.slash]).head? = (root.path ++ [Byte.slash]).head? := by
  obtain ⟨front, isFront⟩ : ∃ front,
      mergeLoop false (root.path ++ [Byte.slash]) = front ++ [Byte.slash] := by
    rcases exists_mergeLoop_root false root.path with ⟨isTrue, -⟩ | found
    · cases isTrue
    · exact found
  have sameStart : (front ++ [Byte.slash]).head? = (root.path ++ [Byte.slash]).head? := by
    rw [← isFront]
    cases root.path <;> rfl
  refine ⟨front, ?_, ?_, ?_, sameStart⟩
  · rw [(prepareFullpath_eq_some prepared).2, intoPath_root,
      storageMergeSlash, mergeLoop_append, isFront, List.append_assoc]
    rfl
  · unfold directory
    rw [← isFront]
    exact locate_storageMergeSlash (root.path ++ [Byte.slash])
  · intro byte isIn
    have inBoth : byte ∈ front ++ [Byte.slash] := List.mem_append_left _ isIn
    rw [← isFront] at inBoth
    simpa using mem_of_mem_mergeLoop inBoth

/-- What `glob` finds for a pattern none of whose components matches `..`. -/
theorem inside_of_found (rules : GlobRules fnmatch glob) (plainRoot : isPlain root.path = true)
    (noHome : root.path.head? ≠ some 126)
    (noParent : ∀ name ∈ components (root.fitting relpath), fnmatch name (ascii "..") = false)
    (prepared : prepareFullpath root.path relpath = some fullpath)
    {files : Files} {path : Bytes} (found : path ∈ glob fullpath files) :
    Inside root.path path := by
  obtain ⟨front, rfl, sameRoot, isPart, sameStart⟩ := exists_prepared prepared
  have noTilde : (front ++ Byte.slash ::
      mergeLoop true (root.fitting relpath)).head? ≠ some 126 := by
    have same : (front ++ Byte.slash :: mergeLoop true (root.fitting relpath)).head? =
        (front ++ [Byte.slash]).head? := by
      cases front <;> rfl
    rw [same, sameStart]
    cases isRoot : root.path with
    | nil => exact nofun
    | cons first rest =>
      rw [isRoot] at noHome
      exact noHome
  have matched := rules.found _ _ _ noTilde found
  rw [components_append] at matched
  -- the names of the path, split where the root ends
  have matchedRoot := List.forall₂_take_append _ _ _ matched
  have matchedRest := List.forall₂_drop_append _ _ _ matched
  have isRoot := eq_of_plain rules.plain matchedRoot fun pattern isPattern =>
    isPlain_of_subset plainRoot fun byte isIn =>
      isPart byte (mem_of_mem_components isPattern isIn)
  have shape := (List.take_append_drop (components front).length (components path)).symm
  rw [isRoot] at shape
  have notNil : (components path).drop (components front).length ≠ [] := by
    intro isEmpty
    have same := matchedRest.length_eq
    rw [isEmpty] at same
    exact components_ne_nil _ (List.length_eq_zero_iff.mp same.symm)
  obtain ⟨behind, rfl, isBehind⟩ := exists_of_components_append notNil shape
  unfold Inside
  rw [locate_append, sameRoot]
  apply (Location.Within.refl _).walk
  intro isUp
  have isName := (up_mem_pathMoves_iff behind).mp isUp
  rw [isBehind] at isName
  obtain ⟨pattern, isPattern, isMatch⟩ := exists_pattern matchedRest isName
  by_cases isEmpty : pattern = []
  · subst isEmpty
    cases (rules.plain [] _ rfl).mp isMatch
  · have isKept : pattern ∈ (components (mergeLoop true (root.fitting relpath))).filter (· ≠ []) :=
      List.mem_filter.mpr ⟨isPattern, by simpa using isEmpty⟩
    rw [filter_components_mergeLoop] at isKept
    have differs := noParent pattern (List.mem_filter.mp isKept).1
    rw [isMatch] at differs
    cases differs

end Patterns

/-! ## Containment -/

theorem accessedPath_eq_some {glob : Bytes → Files → List Bytes}
    {root path : Bytes} {files : Files} {access : Access}
    (accessed : accessedPath glob root files access relpath = some path) :
    ∃ fullpath, prepareFullpath root relpath = some fullpath ∧ (path = fullpath ∨
        (access = .get ∧ patternIn relpath = true) ∧ path ∈ glob fullpath files) := by
  unfold accessedPath at accessed
  split_ifs at accessed with isEmpty isPattern
  all_goals obtain ⟨fullpath, prepared, isPath⟩ := Option.map_eq_some_iff.mp accessed
  all_goals refine ⟨fullpath, prepared, ?_⟩
  · cases found : glob fullpath files with
    | nil =>
      rw [found] at isPath
      exact .inl isPath.symm
    | cons first rest =>
      rw [found] at isPath
      exact .inr ⟨isPattern, isPath ▸ List.mem_cons_self⟩
  · exact .inl isPath.symm

/-- An accessed path lies inside the root exactly if the relative path does not
consist of components that stay and a last `..`.  What is found for a pattern
lies inside a plain root if no component of the pattern matches `..`. -/
theorem accessedPath_inside_iff {glob : Bytes → Files → List Bytes}
    {root : Root} {files : Files} {access : Access} {path : Bytes} (accessed :
      accessedPath glob root.path files access relpath = some path) :
    (¬ (access = .get ∧ patternIn relpath = true) → (Inside root.path path ↔
        (directory root.path).IsTop ∨ climbs (root.fitting relpath) = false)) ∧
    ∀ fnmatch, GlobRules fnmatch glob → isPlain root.path = true → root.path.head? ≠ some 126 →
      (∀ name ∈ components (root.fitting relpath), fnmatch name (ascii "..") = false) →
        Inside root.path path := by
  obtain ⟨fullpath, prepared, isPath⟩ := accessedPath_eq_some accessed
  have onlyLast : ascii ".." ∉ (components (root.fitting relpath)).dropLast := by
    intro isIn
    exact parent_notMem_dropLast (prepareFullpath_eq_some prepared).1
      (mem_dropLast_components (List.take_prefix _ relpath) isIn)
  have contained : Inside root.path fullpath ↔
      (directory root.path).IsTop ∨ climbs (root.fitting relpath) = false := by
    unfold Inside
    rw [locate_prepared prepared]
    exact within_components_iff (directory root.path) onlyLast
  constructor
  · intro notPattern
    rcases isPath with rfl | ⟨isPattern, -⟩
    · exact contained
    · exact absurd isPattern notPattern
  · intro fnmatch rules plainRoot noHome noParent
    rcases isPath with rfl | ⟨-, found⟩
    · refine contained.mpr (.inr (climbs_of_notMem ?_))
      intro isIn
      have differs := noParent _ isIn
      rw [(rules.plain (ascii "..") _ rfl).mpr rfl] at differs
      cases differs
    · exact inside_of_found rules plainRoot noHome noParent prepared found

def srvFiles : Root where
  path := ascii "/srv/files"
  fits := by decide

/-- A matcher that knows the star. -/
def starMatch : (pattern name : Bytes) → Bool
  | [], name => name.isEmpty
  | byte :: pattern, name =>
    if byte = 42 then name.tails.any (starMatch pattern)
    else name.head? == some byte && starMatch pattern name.tail

def starGlob (pattern : Bytes) (files : Files) : List Bytes :=
  (files.map Prod.fst).filter fun path =>
    List.Forall₂ (fun name pattern => starMatch pattern name = true)
      (components path) (components pattern)

private theorem starMatch_plain {pattern : Bytes} (plain : isPlain pattern = true)
    (name : Bytes) : starMatch pattern name = true ↔ name = pattern := by
  induction pattern generalizing name with
  | nil => exact List.isEmpty_iff
  | cons byte pattern ih =>
    rw [isPlain, List.all_cons, Bool.and_eq_true] at plain
    have notStar : byte ≠ 42 := by
      rintro rfl
      exact absurd plain.1 (by decide)
    rw [starMatch, if_neg notStar, Bool.and_eq_true, ih plain.2, beq_iff_eq]
    cases name <;> simp

private theorem starGlob_rules : GlobRules starMatch starGlob where
  plain pattern name plain := starMatch_plain plain name
  found _ _ _ _ found := by simpa using (List.mem_filter.mp found).2

theorem accessedPath_inside_iff_put : Inside (ascii "/srv/files") (ascii "/srv/files/a/b") ∧
      Inside (ascii "/srv/files") (ascii "/srv/files/b.txt") :=
  ⟨((accessedPath_inside_iff
      (show accessedPath (fun _ _ => []) srvFiles.path [] .put (ascii "a//b") =
        some (ascii "/srv/files/a/b") by decide +kernel)).1
      (by decide)).mpr (.inr (by decide +kernel)),
    (accessedPath_inside_iff
      (show accessedPath starGlob srvFiles.path [(ascii "/srv/files/b.txt", [])]
        .get (ascii "*.txt") = some (ascii "/srv/files/b.txt") by
          decide +kernel)).2
      starMatch starGlob_rules (by decide) (by decide) (by decide +kernel)⟩

/-- A file system with one file beside the root, which is found through the
parent of the root. -/
def secretGlob : Bytes → Files → List Bytes
  | pattern, _ =>
    if pattern = ascii "/srv/files/.*/secret" then
      [ascii "/srv/files/../secret"]
    else []

/-- The parent of the root is listed and removed, and a pattern opens a file
beside the root. -/
theorem accessedPath_parent : (∀ relpath ∈ [ascii "..", ascii "//..", ascii "/./.."],
      ∀ access ∈ [Access.remove, .exist, .list],
        ∃ path ∈ accessedPath secretGlob srvFiles.path [] access relpath,
          locate path = locate (ascii "/srv") ∧ ¬ Inside (ascii "/srv/files") path) ∧
      accessedPath secretGlob srvFiles.path [] .get (ascii ".*/secret") =
        some (ascii "/srv/files/../secret") ∧
      ¬ Inside (ascii "/srv/files") (ascii "/srv/files/../secret") := by
  decide +kernel

end CWebFramework.Storage
