import CWebFramework.Misc.Bytes
import CWebFramework.Path.Location

/-!
# Paths as texts

The components of a path are the texts between its slashes.  The location of a
path is where its components lead when `.` and empty components stay and `..`
goes up.
-/

namespace CWebFramework

open CWebFramework.Path

def components (path : Bytes) : List Bytes := path.splitOnP (· == Byte.slash)

def component (name : Bytes) : Move Bytes :=
  if name = [] ∨ name = ascii "." then .stay
  else if name = ascii ".." then .up
  else .down name

def pathMoves (path : Bytes) : List (Move Bytes) := (components path).map component

def locate (path : Bytes) : Location Bytes :=
  Location.walk ⟨path.head? == some Byte.slash, 0, []⟩ (pathMoves path)

/-- The location of a directory that is followed by a slash.  The empty text
in front of a slash is the topmost directory. -/
def directory (root : Bytes) : Location Bytes := locate (root ++ [Byte.slash])

/-- The path leads to the directory or below it. -/
def Inside (root path : Bytes) : Prop := (directory root).Within (locate path)

instance (root path : Bytes) : Decidable (Inside root path) :=
  inferInstanceAs (Decidable (Location.Within _ _))

def climbs (relpath : Bytes) : Bool :=
  (components relpath).getLast? == some (ascii "..") &&
    (components relpath).dropLast.all (component · == .stay)

/-! ## Components -/

theorem components_append (front behind : Bytes) : components (front ++ Byte.slash :: behind) =
      components front ++ components behind :=
  List.splitOnP_append_cons front behind rfl

variable {name : Bytes}

theorem components_free (noSlash : Byte.slash ∉ name) : components name = [name] := by
  apply List.splitOnP_eq_singleton
  intro byte isIn
  rw [beq_eq_false_iff_ne]
  rintro rfl
  exact noSlash isIn

theorem components_ne_nil (path : Bytes) : components path ≠ [] := List.splitOnP_ne_nil _ path

theorem components_induction {motive : Bytes → Prop}
    (last : ∀ name, Byte.slash ∉ name → motive name)
    (more : ∀ name rest, Byte.slash ∉ name → motive rest →
      motive (name ++ Byte.slash :: rest)) (path : Bytes) : motive path := by
  induction length : path.length using Nat.strongRecOn generalizing path with
  | ind length ih =>
    by_cases isIn : Byte.slash ∈ path
    · obtain ⟨name, rest, rfl, noSlash⟩ := List.eq_append_cons_of_mem isIn
      subst length
      apply more name rest noSlash
      apply ih rest.length _ rest rfl
      simp
      omega
    · exact last path isIn

theorem components_cons (noSlash : Byte.slash ∉ name) (rest : Bytes) :
    components (name ++ Byte.slash :: rest) = name :: components rest := by
  rw [components_append, components_free noSlash, List.singleton_append]

theorem components_append_last (path more : Bytes) : ∃ rest ≠ [], components (path ++ more) =
      (components path).dropLast ++ rest := by
  induction path using components_induction with
  | last name noSlash =>
    refine ⟨components (name ++ more), components_ne_nil _, ?_⟩
    rw [components_free noSlash]
    rfl
  | more name rest noSlash ih =>
    obtain ⟨behind, notNil, shape⟩ := ih
    refine ⟨behind, notNil, ?_⟩
    rw [List.append_assoc, List.cons_append, components_cons noSlash,
      components_cons noSlash, shape,
      List.dropLast_cons_of_ne_nil (components_ne_nil rest)]
    rfl

variable {path : Bytes}

theorem mem_dropLast_components {longer : Bytes} (isPrefix : path <+: longer)
    (isIn : name ∈ (components path).dropLast) :
    name ∈ (components longer).dropLast := by
  obtain ⟨more, rfl⟩ := isPrefix
  obtain ⟨rest, notNil, shape⟩ := components_append_last path more
  rw [shape, List.dropLast_append_of_ne_nil notNil]
  exact List.mem_append_left _ isIn

theorem mem_of_mem_components {byte : UInt8} (isName : name ∈ components path)
    (isIn : byte ∈ name) : byte ∈ path := by
  induction path using components_induction with
  | last only noSlash =>
    rw [components_free noSlash, List.mem_singleton] at isName
    exact isName ▸ isIn
  | more first rest noSlash ih =>
    rw [components_cons noSlash, List.mem_cons] at isName
    rw [List.mem_append, List.mem_cons]
    rcases isName with rfl | isBehind
    · exact .inl isIn
    · exact .inr (.inr (ih isBehind))

theorem exists_of_components_append {front : Bytes} {names : List Bytes}
    (more : names ≠ []) (shape : components path = components front ++ names) :
    ∃ behind, path = front ++ Byte.slash :: behind ∧ components behind = names := by
  induction front using components_induction generalizing path with
  | last name noSlash =>
    rw [components_free noSlash, List.singleton_append] at shape
    induction path using components_induction with
    | last only free =>
      rw [components_free free] at shape
      exact absurd (List.cons.inj shape).2.symm more
    | more first rest free _ =>
      rw [components_cons free] at shape
      obtain ⟨rfl, same⟩ := List.cons.inj shape
      exact ⟨rest, rfl, same⟩
  | more name rest noSlash ih =>
    rw [components_cons noSlash, List.cons_append] at shape
    induction path using components_induction with
    | last only free =>
      rw [components_free free] at shape
      have isEmpty := (List.cons.inj shape).2.symm
      exact absurd (List.append_eq_nil_iff.mp isEmpty).2 more
    | more first others free _ =>
      rw [components_cons free] at shape
      obtain ⟨rfl, same⟩ := List.cons.inj shape
      obtain ⟨behind, rfl, isNames⟩ := ih same
      exact ⟨behind, by rw [List.append_assoc, List.cons_append], isNames⟩

/-! ## Moves -/

theorem pathMoves_append (front behind : Bytes) : pathMoves (front ++ Byte.slash :: behind) =
      pathMoves front ++ pathMoves behind := by
  rw [pathMoves, components_append, List.map_append]
  rfl

theorem component_eq_up_iff (name : Bytes) : component name = .up ↔ name = ascii ".." := by
  unfold component
  constructor
  · intro isUp
    split_ifs at isUp with stays parent
    exact parent
  · rintro rfl
    rfl

theorem up_mem_pathMoves_iff (path : Bytes) :
    .up ∈ pathMoves path ↔ ascii ".." ∈ components path := by
  unfold pathMoves
  rw [List.mem_map]
  constructor
  · rintro ⟨name, isName, isUp⟩
    rw [component_eq_up_iff] at isUp
    exact isUp ▸ isName
  · intro isName
    exact ⟨_, isName, rfl⟩

theorem walk_named (location : Location Bytes) (names : List Bytes) :
    location.walk ((names.filter (· ≠ [])).map component) =
      location.walk (names.map component) := by
  induction names generalizing location with
  | nil => rfl
  | cons name rest ih =>
    by_cases isEmpty : name = []
    · subst isEmpty
      rw [List.filter_cons_of_neg (by simp)]
      exact ih location
    · rw [List.filter_cons_of_pos (by simpa)]
      exact ih (location.move (component name))

theorem locate_append (root path : Bytes) : locate (root ++ Byte.slash :: path) =
      (directory root).walk (pathMoves path) := by
  have sameStart : (root ++ Byte.slash :: path).head? = (root ++ [Byte.slash]).head? := by
    cases root <;> rfl
  have stays : pathMoves [] = [.stay] := rfl
  unfold locate directory
  rw [locate, sameStart, pathMoves_append, pathMoves_append,
    Location.walk_append, Location.walk_append, stays]
  rfl

theorem directory_eq_locate {root : Bytes} (named : root ≠ []) : directory root = locate root := by
  have sameStart : (root ++ [Byte.slash]).head? = root.head? :=
    List.head?_append_of_ne_nil root named
  have stays : pathMoves [] = [.stay] := rfl
  unfold directory locate
  rw [sameStart, pathMoves_append, Location.walk_append, stays]
  rfl

theorem climbs_of_notMem (noParent : ascii ".." ∉ components path) : climbs path = false := by
  unfold climbs
  rw [Bool.and_eq_false_iff]
  refine .inl (beq_eq_false_iff_ne.mpr fun isLast => ?_)
  exact noParent (List.mem_of_getLast? isLast)

theorem climbs_slash (path : Bytes) : climbs (Byte.slash :: path) = climbs path := by
  have shape : components (Byte.slash :: path) = [] :: components path :=
    components_cons List.not_mem_nil path
  have stays : (component [] == .stay) = true := rfl
  unfold climbs
  rw [shape, List.dropLast_cons_of_ne_nil (components_ne_nil path),
    List.getLast?_cons_of_ne_nil (components_ne_nil path), List.all_cons,
    stays, Bool.true_and]

theorem within_components_iff (location : Location Bytes)
    (onlyLast : ascii ".." ∉ (components path).dropLast) :
    location.Within (location.walk (pathMoves path)) ↔ location.IsTop ∨ climbs path = false := by
  have noUp : .up ∉ (components path).dropLast.map component := by
    rw [List.mem_map]
    rintro ⟨name, isName, isUp⟩
    rw [component_eq_up_iff] at isUp
    exact onlyLast (isUp ▸ isName)
  have notNil := components_ne_nil path
  have split : pathMoves path = (components path).dropLast.map component ++
      [component ((components path).getLast notNil)] := by
    unfold pathMoves
    conv_lhs => rw [← List.dropLast_append_getLast notNil]
    rw [List.map_append]
    rfl
  rw [split, Location.walk_append]
  unfold climbs
  rw [List.getLast?_eq_some_getLast notNil]
  generalize (components path).getLast notNil = last
  generalize (components path).dropLast = front at noUp ⊢
  by_cases isParent : last = ascii ".."
  · subst isParent
    have isUp : component (ascii "..") = .up := rfl
    rw [isUp]
    exact (Location.within_walk_up_iff location noUp).trans (or_congr_right (by simp))
  · have within := (Location.Within.refl location).walk noUp
    constructor
    · intro _
      exact .inr (by simp [isParent])
    · intro _
      apply within.walk
      rw [List.mem_singleton]
      intro isUp
      exact isParent ((component_eq_up_iff last).mp isUp.symm)

end CWebFramework
