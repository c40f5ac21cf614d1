import Mathlib.Data.List.Pairwise
import Mathlib.Data.List.Perm.Basic

/-!
# Finite maps up to an equality of keys

A finite map is given by what it stores under every key.  Keys that `same`
identifies are one key of the map.  A list of entries lists a map when its keys
are pairwise different and it holds exactly what the map stores; how a map
changes is then read off a list in any order.
-/

namespace CWebFramework.FiniteMap

universe u v

variable {Key : Type u} {Value : Type v}

section Changes

variable (same : Key → Key → Bool)

def put (stored : Key → Option Value) (key : Key) (value : Value) : Key → Option Value :=
  fun other => if same key other then some value else stored other

def drop (stored : Key → Option Value) (key : Key) : Key → Option Value :=
  fun other => if same key other then none else stored other

/-- What an insertion answers and leaves: 1 for a new key, 0 for a key that is
there, and -1 for a failure that changes nothing. -/
def Inserts (stored : Key → Option Value) (key : Key) (value : Value)
    (answer : Int) (next : Key → Option Value) : Prop :=
  answer = 1 ∧ stored key = none ∧ next = put same stored key value ∨
    answer = 0 ∧ (stored key).isSome ∧ next = stored ∨
    answer = -1 ∧ next = stored

/-- An insertion that answers 2 for a key that is there and changes its
value. -/
def Assigns (stored : Key → Option Value) (key : Key) (value : Value)
    (answer : Int) (next : Key → Option Value) : Prop :=
  answer = 1 ∧ stored key = none ∧ next = put same stored key value ∨
    answer = 2 ∧ (stored key).isSome ∧ next = put same stored key value ∨
    answer = -1 ∧ next = stored

/-- A removal answers 1 for a key that is there and 0 otherwise. -/
def Erases (stored : Key → Option Value) (key : Key) (answer : Int)
    (next : Key → Option Value) : Prop :=
  answer = 1 ∧ (stored key).isSome ∧ next = drop same stored key ∨
    answer = 0 ∧ stored key = none ∧ next = stored

/-- The entries have pairwise different keys and are all that is stored. -/
structure Lists (entries : List (Key × Value)) (stored : Key → Option Value) : Prop where
  distinct : entries.Pairwise fun first second => ¬ same first.1 second.1
  stored_iff : ∀ key value, stored key = some value ↔
    ∃ entry ∈ entries, same entry.1 key ∧ entry.2 = value

end Changes

/-- Keys are the same by an equivalence. -/
structure Alike (same : Key → Key → Bool) : Prop where
  refl : ∀ key, same key key
  symm : ∀ {first second}, same first second → same second first
  trans : ∀ {first second third}, same first second → same second third → same first third

variable {same : Key → Key → Bool} {entries : List (Key × Value)}
  {stored : Key → Option Value} {key : Key} {value : Value}

theorem lists_nil : Lists same ([] : List (Key × Value)) fun _ => none where
  distinct := List.Pairwise.nil
  stored_iff _ _ := ⟨nofun, nofun⟩

theorem Lists.perm (alike : Alike same) {others : List (Key × Value)}
    (lists : Lists same entries stored) (perm : entries.Perm others) :
    Lists same others stored where
  distinct := by
    refine (perm.pairwise_iff ?_).mp lists.distinct
    intro first second differ isSame
    exact differ (alike.symm isSame)
  stored_iff key value := by
    rw [lists.stored_iff]
    constructor
    · intro found
      obtain ⟨entry, isIn, holds⟩ := found
      exact ⟨entry, perm.mem_iff.mp isIn, holds⟩
    · intro found
      obtain ⟨entry, isIn, holds⟩ := found
      exact ⟨entry, perm.mem_iff.mpr isIn, holds⟩

theorem Lists.eq_none (lists : Lists same entries stored)
    (absent : ∀ entry ∈ entries, ¬ same entry.1 key) :
    stored key = none := by
  rw [Option.eq_none_iff_forall_not_mem]
  intro value isStored
  obtain ⟨entry, isIn, isSame, -⟩ := (lists.stored_iff key value).mp isStored
  exact absent entry isIn isSame

theorem Lists.absent (lists : Lists same entries stored)
    (isNone : stored key = none) : ∀ entry ∈ entries, ¬ same entry.1 key := by
  intro entry isIn isSame
  have isSome := (lists.stored_iff key entry.2).mpr ⟨entry, isIn, isSame, rfl⟩
  rw [isNone] at isSome
  cases isSome

theorem Lists.eq_some {entry : Key × Value}
    (lists : Lists same entries stored) (isIn : entry ∈ entries)
    (isSame : same entry.1 key) : stored key = some entry.2 :=
  (lists.stored_iff key entry.2).mpr ⟨entry, isIn, isSame, rfl⟩

/-- A new entry under a key that is not there, or under a copy of it. -/
theorem Lists.cons (alike : Alike same) {copy : Key} (isCopy : same copy key)
    (lists : Lists same entries stored) (isNone : stored key = none) :
    Lists same ((copy, value) :: entries) (put same stored key value) where
  distinct := by
    refine List.pairwise_cons.mpr ⟨fun entry isIn isSame => ?_, lists.distinct⟩
    exact lists.absent isNone entry isIn (alike.trans (alike.symm isSame) isCopy)
  stored_iff other found := by
    rw [put, List.exists_mem_cons_iff]
    split
    next isSame =>
      have isHead := alike.trans isCopy isSame
      constructor
      · intro isFound
        exact Or.inl ⟨isHead, Option.some.inj isFound⟩
      · intro either
        rcases either with ⟨-, isFound⟩ | ⟨entry, isIn, isOther, -⟩
        · exact congrArg some isFound
        · exact absurd (alike.trans isOther (alike.symm isSame)) (lists.absent isNone entry isIn)
    next differ =>
      rw [lists.stored_iff]
      constructor
      · exact Or.inr
      · intro either
        refine either.resolve_left fun both => differ ?_
        exact alike.trans (alike.symm isCopy) both.1

/-- The first entry is removed. -/
theorem Lists.tail (alike : Alike same) {entry : Key × Value}
    (lists : Lists same (entry :: entries) stored)
    (isSame : same entry.1 key) :
    Lists same entries (drop same stored key) where
  distinct := (List.pairwise_cons.mp lists.distinct).2
  stored_iff other found := by
    have differs := (List.pairwise_cons.mp lists.distinct).1
    rw [drop]
    split
    next isOther =>
      refine ⟨nofun, fun isFound => ?_⟩
      obtain ⟨second, isIn, isSecond, -⟩ := isFound
      refine absurd ?_ (differs second isIn)
      exact alike.trans (alike.trans isSame isOther) (alike.symm isSecond)
    next differ =>
      rw [lists.stored_iff, List.exists_mem_cons_iff]
      refine or_iff_right fun both => differ ?_
      exact alike.trans (alike.symm isSame) both.1

/-- The value of the first entry is changed. -/
theorem Lists.assign (alike : Alike same) {entry : Key × Value}
    (lists : Lists same (entry :: entries) stored)
    (isSame : same entry.1 key) :
    Lists same ((entry.1, value) :: entries) (put same stored key value) := by
  have removed := lists.tail alike isSame
  have isNone : drop same stored key key = none := by
    rw [drop, if_pos (alike.refl key)]
  have added : Lists same ((entry.1, value) :: entries)
      (put same (drop same stored key) key value) :=
    removed.cons alike isSame isNone
  convert added using 1
  funext other
  unfold put drop
  split <;> rfl

end CWebFramework.FiniteMap
