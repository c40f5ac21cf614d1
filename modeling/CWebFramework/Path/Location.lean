import Mathlib.Data.List.Infix

/-!
# Lexical resolution of paths

A path is a list of moves: to stay, to go up, or to go down to a name.  Where
it leads is found without looking at a file system: the names that have been
entered and not left, and how often a relative path has gone above its start.
-/

namespace CWebFramework.Path

universe u

variable {Name : Type u}

/-- What a component of a path does. -/
inductive Move (Name : Type u) where
  | stay
  | up
  | down (name : Name)
  deriving DecidableEq

/-- A resolved path.  The names are listed from the innermost one on; `ups`
counts the parents of the start of a relative path. -/
@[ext]
structure Location (Name : Type u) where
  absolute : Bool
  ups : Nat
  names : List Name
  deriving DecidableEq

namespace Location

/-- The topmost directory has no parent. -/
def up (location : Location Name) : Location Name :=
  match location.names with
  | _ :: outer => { location with names := outer }
  | [] =>
    if location.absolute then location
    else { location with ups := location.ups + 1 }

def move (location : Location Name) : Move Name → Location Name
  | .stay => location
  | .up => location.up
  | .down name => { location with names := name :: location.names }

def walk (location : Location Name) (moves : List (Move Name)) : Location Name :=
  moves.foldl move location

/-- The inner location is the outer one or lies below it. -/
def Within (outer inner : Location Name) : Prop :=
  inner.absolute = outer.absolute ∧ inner.ups = outer.ups ∧ outer.names <:+ inner.names

instance [DecidableEq Name] (outer inner : Location Name) : Decidable (Within outer inner) :=
  inferInstanceAs (Decidable (_ ∧ _ ∧ _))

/-- The topmost directory of the file system. -/
def IsTop (location : Location Name) : Prop := location.absolute = true ∧ location.names = []

@[simp]
theorem walk_cons (location : Location Name) (first : Move Name) (rest : List (Move Name)) :
    location.walk (first :: rest) = (location.move first).walk rest :=
  rfl

theorem walk_append (location : Location Name) (moves more : List (Move Name)) :
    location.walk (moves ++ more) = (location.walk moves).walk more :=
  List.foldl_append

theorem Within.refl (location : Location Name) : location.Within location :=
  ⟨rfl, rfl, List.suffix_rfl⟩

theorem Within.down {outer inner : Location Name} (within : outer.Within inner) (name : Name) :
    outer.Within (inner.move (.down name)) :=
  ⟨within.1, within.2.1, within.2.2.trans (List.suffix_cons name inner.names)⟩

/-- Without a move up nothing is left. -/
theorem Within.walk {outer inner : Location Name}
    (within : outer.Within inner) {moves : List (Move Name)}
    (noUp : .up ∉ moves) : outer.Within (inner.walk moves) := by
  induction moves generalizing inner with
  | nil => exact within
  | cons first rest ih =>
    rw [List.mem_cons, not_or] at noUp
    rw [walk_cons]
    apply ih _ noUp.2
    cases first with
    | stay => exact within
    | up => exact absurd rfl noUp.1
    | down name => exact within.down name

/-- A move up leaves a location unless it is the topmost directory. -/
theorem within_up_iff (location : Location Name) :
    location.Within location.up ↔ location.IsTop := by
  rcases location with ⟨absolute, ups, _ | ⟨name, outer⟩⟩
  · cases absolute with
    | true => exact ⟨fun _ => ⟨rfl, rfl⟩, fun _ => .refl _⟩
    | false =>
      constructor
      · rintro ⟨-, same, -⟩
        exact absurd same (Nat.succ_ne_self ups)
      · rintro ⟨isAbsolute, -⟩
        cases isAbsolute
  · constructor
    · rintro ⟨-, -, behind⟩
      exact absurd behind.length_le (Nat.not_succ_le_self outer.length)
    · rintro ⟨-, isEmpty⟩
      cases isEmpty

variable {moves : List (Move Name)}

/-- Moves that neither leave nor enter a directory. -/
theorem walk_of_stays {location : Location Name} (stays : ∀ first ∈ moves, first = .stay) :
    location.walk moves = location := by
  induction moves with
  | nil => rfl
  | cons first rest ih =>
    rw [List.forall_mem_cons] at stays
    rw [walk_cons, stays.1]
    exact ih stays.2

/-- A directory that has been entered is left again. -/
theorem Within.down_walk_up {outer inner : Location Name}
    (within : outer.Within inner) (name : Name) (noUp : .up ∉ moves) :
    outer.Within ((inner.move (.down name)).walk moves).up := by
  have entered : (inner.move (.down name)).Within
      ((inner.move (.down name)).walk moves) := (Within.refl _).walk noUp
  obtain ⟨sameRoot, sameUps, more, shape⟩ := entered
  generalize (inner.move (.down name)).walk moves = last at *
  rcases last with ⟨absolute, ups, names⟩
  cases more with
  | nil =>
    change name :: inner.names = names at shape
    subst shape
    exact ⟨sameRoot.trans within.1, sameUps.trans within.2.1, within.2.2⟩
  | cons first more =>
    change first :: (more ++ name :: inner.names) = names at shape
    subst shape
    refine ⟨sameRoot.trans within.1, sameUps.trans within.2.1, ?_⟩
    exact within.2.2.trans ((List.suffix_cons name inner.names).trans (List.suffix_append more _))

/-- One move up at the end leaves the start exactly if nothing has been
entered before it. -/
theorem within_walk_up_iff (location : Location Name) (noUp : .up ∉ moves) :
    location.Within (location.walk moves).up ↔ location.IsTop ∨ ∃ first ∈ moves, first ≠ .stay := by
  by_cases stays : ∀ first ∈ moves, first = .stay
  · rw [walk_of_stays stays, within_up_iff]
    constructor
    · exact .inl
    · rintro (isTop | ⟨first, isIn, moved⟩)
      · exact isTop
      · exact absurd (stays first isIn) moved
  · simp only [not_forall] at stays
    obtain ⟨first, isIn, moved⟩ := stays
    refine ⟨fun _ => .inr ⟨first, isIn, moved⟩, fun _ => ?_⟩
    obtain ⟨before, behind, rfl⟩ := List.append_of_mem isIn
    simp only [List.mem_append, List.mem_cons, not_or] at noUp
    rw [walk_append, walk_cons]
    cases first with
    | stay => exact absurd rfl moved
    | up => exact absurd rfl noUp.2.1
    | down name =>
      exact ((Within.refl location).walk noUp.1).down_walk_up name noUp.2.2

end Location

end CWebFramework.Path
