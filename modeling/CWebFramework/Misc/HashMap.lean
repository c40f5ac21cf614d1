import CWebFramework.Relation.FiniteMap
import CWebFramework.Transition.Machine
import Mathlib.Data.List.Nodup
import Mathlib.Data.List.Range

/-!
# The hash map

`hashmap.c`: an array of chains, with a new array when the load grows.  A chain
is the list of its entries, and a pointer into a chain the list that begins
there.  The comparisons of loads are floating point in the source and arbitrary
here; `calloc` and `malloc` may fail at every call, and `calloc` does fail when
the size in bytes does not fit.
-/

namespace CWebFramework.HashMap

universe u v

/-- What `hashmap_create_ex` gets.  Without a copy function `keyCopy` and
`valueCopy` are the identity. -/
structure Config (Key : Type u) (Value : Type v) where
  hash : Key → UInt64
  equals : Key → Key → Bool
  keyCopy : Key → Key
  valueCopy : Value → Value
  /-- `(float)size / capacity > load_factor`. -/
  isLoaded : Nat → Nat → Bool
  /-- `(double)count > (double)capacity * (double)load_factor`. -/
  isShort : Nat → Nat → Bool
  /-- The load factor is at most 1, and a quotient of floats is not twice the
  exact one. -/
  loaded_of_lt : ∀ size capacity, 2 * capacity < size → isLoaded size capacity = true

structure Entry (Key : Type u) (Value : Type v) where
  key : Key
  value : Value
  hash : UInt64
  deriving DecidableEq

/-- `hashmap_t`; the array has the indices below `capacity`. -/
structure Hashmap (Key : Type u) (Value : Type v) where
  buckets : Nat → List (Entry Key Value)
  capacity : Nat
  size : Nat

/-- Which allocations of an operation succeed. -/
structure Memory where
  calloc : Bool
  malloc : Bool
  deriving DecidableEq

variable {Key : Type u} {Value : Type v}

def defaultCapacity : Nat := 16

def sizeMax : Nat := 2 ^ 64 - 1

/-- `calloc` of that many pointers can succeed. -/
def isGranted (memory : Memory) (capacity : Nat) : Bool :=
  memory.calloc && decide (capacity * 8 ≤ sizeMax)

def bucketIndex (hash : UInt64) (capacity : Nat) : Nat := hash.toNat % capacity

def hashmapCreateEx (memory : Memory) (initialCapacity : Nat) : Option (Hashmap Key Value) :=
  let capacity :=
    if initialCapacity = 0 then defaultCapacity else initialCapacity
  if isGranted memory capacity then
    some ⟨fun _ => [], capacity, 0⟩
  else none

def hashmapClear (map : Hashmap Key Value) : Hashmap Key Value :=
  { map with
    buckets := fun index =>
      if index < map.capacity then [] else map.buckets index
    size := 0 }

/-- An entry is put in front of the chain of its hash. -/
def link (capacity : Nat) (buckets : Nat → List (Entry Key Value))
    (entry : Entry Key Value) : Nat → List (Entry Key Value) :=
  let index := bucketIndex entry.hash capacity
  Function.update buckets index (entry :: buckets index)

def hashmapResize (memory : Memory) (map : Hashmap Key Value)
    (newCapacity : Nat) : Option (Hashmap Key Value) :=
  if newCapacity < map.size then none
  else if isGranted memory newCapacity then
    some
      { map with
        buckets := (List.range map.capacity).foldl (fun buckets index =>
          (map.buckets index).foldl (link newCapacity) buckets) fun _ => []
        capacity := newCapacity }
  else none

section Operations

variable (config : Config Key Value)

/-- The comparison of all loops over a chain. -/
def isEntry (hash : UInt64) (key : Key) (entry : Entry Key Value) : Bool :=
  entry.hash == hash && config.equals entry.key key

def hashmapFindEntry (map : Hashmap Key Value) (key : Key) : Option (Entry Key Value) :=
  let hash := config.hash key
  (map.buckets (bucketIndex hash map.capacity)).find? (isEntry config hash key)

def hashmapFind (map : Hashmap Key Value) (key : Key) : Option Value :=
  (hashmapFindEntry config map key).map Entry.value

def hashmapCreateEntry (key : Key) (value : Value) (hash : UInt64) : Entry Key Value :=
  ⟨config.keyCopy key, config.valueCopy value, hash⟩

/-- The part of `hashmap_insert` behind the growth of the array. -/
def insertEntry (memory : Memory) (map : Hashmap Key Value) (key : Key)
    (value : Value) : Hashmap Key Value × Int :=
  let hash := config.hash key
  match hashmapFindEntry config map key with
  | some _ => (map, 0)
  | none =>
    if memory.malloc then
      ({ map with
          buckets := link map.capacity map.buckets (hashmapCreateEntry config key value hash)
          size := map.size + 1 }, 1)
    else (map, -1)

def hashmapInsert (memory : Memory) (map : Hashmap Key Value) (key : Key)
    (value : Value) : Hashmap Key Value × Int :=
  if config.isLoaded (map.size + 1) map.capacity then
    match hashmapResize memory map (map.capacity * 2 % 2 ^ 64) with
    | none => (map, -1)
    | some resized => insertEntry config memory resized key value
  else insertEntry config memory map key value

/-- The loop of `hashmap_insert_or_assign` over a chain. -/
def assignEntry (hash : UInt64) (key : Key) (value : Value) :
    List (Entry Key Value) → List (Entry Key Value)
  | [] => []
  | entry :: chain =>
    if isEntry config hash key entry then
      { entry with value := config.valueCopy value } :: chain
    else entry :: assignEntry hash key value chain

def hashmapInsertOrAssign (memory : Memory) (map : Hashmap Key Value)
    (key : Key) (value : Value) : Hashmap Key Value × Int :=
  let hash := config.hash key
  let index := bucketIndex hash map.capacity
  match hashmapFindEntry config map key with
  | some _ =>
    ({ map with
        buckets := Function.update map.buckets index
          (assignEntry config hash key value (map.buckets index)) }, 2)
  | none => hashmapInsert config memory map key value

def hashmapErase (map : Hashmap Key Value) (key : Key) : Hashmap Key Value × Int :=
  let hash := config.hash key
  let index := bucketIndex hash map.capacity
  match hashmapFindEntry config map key with
  | some _ =>
    ({ map with
        buckets := Function.update map.buckets index
          ((map.buckets index).eraseP (isEntry config hash key))
        size := map.size - 1 }, 1)
  | none => (map, 0)

def hashmapRehash (memory : Memory) (map : Hashmap Key Value)
    (newCapacity : Nat) : Hashmap Key Value × Int :=
  if newCapacity = 0 then (map, -1)
  else
    match hashmapResize memory map newCapacity with
    | none => (map, -1)
    | some resized => (resized, 0)

/-- The loop of `hashmap_reserve`: at most 64 doublings fit. -/
def requiredCapacity (count : Nat) : Nat → Nat → Nat
  | 0, capacity => capacity
  | rounds + 1, capacity =>
    if config.isShort count capacity then
      if sizeMax / 2 < capacity then sizeMax
      else requiredCapacity count rounds (capacity * 2)
    else capacity

def hashmapReserve (memory : Memory) (map : Hashmap Key Value)
    (count : Nat) : Hashmap Key Value × Int :=
  let required := requiredCapacity config count 64 (max map.capacity defaultCapacity)
  if map.capacity < required then
    match hashmapResize memory map required with
    | none => (map, -1)
    | some resized => (resized, 0)
  else (map, 0)

end Operations

section Iteration

/-- `hashmap_iterator_t`; `chain` begins at `entry`. -/
structure Iterator (Key : Type u) (Value : Type v) where
  bucketIndex : Nat
  chain : List (Entry Key Value)

/-- The loop over the buckets of `hashmap_begin` and `hashmap_next`, from an
index on. -/
def firstBucket (buckets : Nat → List (Entry Key Value)) : Nat → Nat → Option Nat
  | _, 0 => none
  | index, count + 1 =>
    if (buckets index).isEmpty then firstBucket buckets (index + 1) count
    else some index

def hashmapBegin (map : Hashmap Key Value) : Iterator Key Value :=
  if map.size = 0 then ⟨0, []⟩
  else
    match firstBucket map.buckets 0 map.capacity with
    | none => ⟨0, []⟩
    | some index => ⟨index, map.buckets index⟩

def hashmapNext (map : Hashmap Key Value) (it : Iterator Key Value) : Iterator Key Value :=
  match it.chain with
  | [] => it
  | _ :: entry :: chain => { it with chain := entry :: chain }
  | [_] =>
    let index := it.bucketIndex + 1
    match firstBucket map.buckets index (map.capacity - index) with
    | none => ⟨index, []⟩
    | some found => ⟨found, map.buckets found⟩

/-- The entries that `hashmap_foreach` visits in at most that many rounds. -/
def hashmapForeach (map : Hashmap Key Value) :
    Nat → Iterator Key Value → Option (List (Entry Key Value))
  | 0, _ => none
  | rounds + 1, it =>
    match it.chain with
    | [] => some []
    | entry :: _ =>
      (hashmapForeach map rounds (hashmapNext map it)).map (entry :: ·)

end Iteration

/-! ## The entries of an array -/

def entries (buckets : Nat → List (Entry Key Value)) (capacity : Nat) : List (Entry Key Value) :=
  (List.range capacity).flatMap buckets

section Entries

variable {buckets : Nat → List (Entry Key Value)} {capacity index : Nat}

theorem mem_entries_iff {entry : Entry Key Value} : entry ∈ entries buckets capacity ↔
      ∃ index < capacity, entry ∈ buckets index := by
  rw [entries, List.mem_flatMap]
  exact exists_congr fun index => and_congr_left' List.mem_range

/-- A chain can be taken out of the entries and replaced. -/
theorem entries_update (within : index < capacity) :
    ∃ others, (entries buckets capacity).Perm (buckets index ++ others) ∧
      ∀ chain, (entries (Function.update buckets index chain) capacity).Perm (chain ++ others) := by
  obtain ⟨front, back, isRange⟩ := List.append_of_mem (List.mem_range.mpr within)
  have distinct := isRange ▸ List.nodup_range
  rw [List.nodup_middle, List.nodup_cons, List.mem_append, not_or] at distinct
  obtain ⟨⟨notFront, notBack⟩, -⟩ := distinct
  have kept : ∀ {others : List Nat}, index ∉ others → ∀ chain,
      others.flatMap (Function.update buckets index chain) =
        others.flatMap buckets := by
    intro others notIn chain
    apply List.flatMap_congr
    intro other isIn
    have differs : other ≠ index := fun same => notIn (same ▸ isIn)
    exact Function.update_of_ne differs ..
  refine ⟨front.flatMap buckets ++ back.flatMap buckets, ?_, fun chain => ?_⟩
  · rw [entries, isRange, List.flatMap_append, List.flatMap_cons]
    exact List.perm_append_comm_assoc ..
  · rw [entries, isRange, List.flatMap_append, List.flatMap_cons,
      kept notFront, kept notBack, Function.update_self]
    exact List.perm_append_comm_assoc ..

theorem entries_link (positive : 0 < capacity) (entry : Entry Key Value) :
    (entries (link capacity buckets entry) capacity).Perm (entry :: entries buckets capacity) := by
  obtain ⟨others, before, after⟩ := @entries_update _ _ buckets capacity
    (bucketIndex entry.hash capacity) (Nat.mod_lt _ positive)
  exact (after _).trans (before.symm.cons entry)

private theorem entries_relink (positive : 0 < capacity) (moved : List (Entry Key Value)) :
    (entries (moved.foldl (link capacity) buckets) capacity).Perm
      (moved ++ entries buckets capacity) := by
  induction moved generalizing buckets with
  | nil => exact List.Perm.refl _
  | cons entry moved ih =>
    refine ih.trans ?_
    refine ((entries_link positive entry).append_left moved).trans ?_
    exact List.perm_middle

theorem entries_none : entries (fun _ => []) capacity = ([] : List (Entry Key Value)) :=
  List.flatMap_eq_nil_iff.mpr fun _ _ => rfl

end Entries

/-! ## What the operations keep -/

/-- Equality of keys is an equivalence, equal keys have one hash, and a copy
equals its key. -/
structure Config.Consistent (config : Config Key Value) : Prop where
  alike : FiniteMap.Alike config.equals
  hash_eq : ∀ {first second}, config.equals first second → config.hash first = config.hash second
  copy : ∀ key, config.equals (config.keyCopy key) key

def Entry.pair (entry : Entry Key Value) : Key × Value := (entry.key, entry.value)

/-- Every entry of the chains has the hash of its key and stands in the bucket
of the hash. -/
def Placed (config : Config Key Value)
    (buckets : Nat → List (Entry Key Value)) (capacity : Nat) : Prop :=
  ∀ index, ∀ entry ∈ buckets index, entry.hash = config.hash entry.key ∧
      index = bucketIndex entry.hash capacity

structure Kept (config : Config Key Value) (map : Hashmap Key Value)
    (stored : Key → Option Value) : Prop where
  positive : 0 < map.capacity
  granted : map.capacity * 8 ≤ sizeMax
  bounded : map.size ≤ 2 * map.capacity
  placed : Placed config map.buckets map.capacity
  size : map.size = (entries map.buckets map.capacity).length
  lists : FiniteMap.Lists config.equals ((entries map.buckets map.capacity).map Entry.pair) stored

section Steps

variable {config : Config Key Value} {map : Hashmap Key Value}
  {stored : Key → Option Value} {memory : Memory}

theorem Kept.index_lt (kept : Kept config map stored) (hash : UInt64) :
    bucketIndex hash map.capacity < map.capacity :=
  Nat.mod_lt _ kept.positive

theorem Kept.mem_entries (kept : Kept config map stored) {index : Nat}
    {entry : Entry Key Value} (isIn : entry ∈ map.buckets index) :
    entry ∈ entries map.buckets map.capacity := by
  apply mem_entries_iff.mpr
  refine ⟨index, ?_, isIn⟩
  rw [(kept.placed index entry isIn).2]
  exact kept.index_lt entry.hash

theorem Kept.eq_some (kept : Kept config map stored) {index : Nat} {key : Key}
    {entry : Entry Key Value} (isIn : entry ∈ map.buckets index)
    (isSame : config.equals entry.key key) :
    stored key = some entry.value :=
  kept.lists.eq_some (List.mem_map_of_mem (kept.mem_entries isIn)) isSame

/-- A key without an entry in its own chain is not stored. -/
theorem Kept.eq_none (kept : Kept config map stored) (consistent : config.Consistent) {key : Key}
    (isNone : hashmapFindEntry config map key = none) : stored key = none := by
  apply kept.lists.eq_none
  intro pair isPair isSame
  obtain ⟨entry, isIn, rfl⟩ := List.mem_map.mp isPair
  obtain ⟨index, -, isIn⟩ := mem_entries_iff.mp isIn
  obtain ⟨isHash, isIndex⟩ := kept.placed index entry isIn
  have sameHash : entry.hash = config.hash key := isHash.trans (consistent.hash_eq isSame)
  rw [isIndex, sameHash] at isIn
  refine List.find?_eq_none.mp isNone entry isIn ?_
  rw [isEntry, sameHash, beq_self_eq_true, Bool.true_and]
  exact isSame

theorem findEntry_some {key : Key} {entry : Entry Key Value}
    (isFound : hashmapFindEntry config map key = some entry) :
    entry ∈ map.buckets (bucketIndex (config.hash key) map.capacity) ∧
      config.equals entry.key key := by
  have isMatch := List.find?_some isFound
  rw [isEntry, Bool.and_eq_true] at isMatch
  exact ⟨List.mem_of_find?_eq_some isFound, isMatch.2⟩

theorem Kept.find_eq (kept : Kept config map stored) (consistent : config.Consistent) (key : Key) :
    hashmapFind config map key = stored key := by
  rw [hashmapFind]
  cases isFound : hashmapFindEntry config map key with
  | none => exact (kept.eq_none consistent isFound).symm
  | some entry =>
    obtain ⟨isIn, isSame⟩ := findEntry_some isFound
    exact (kept.eq_some isIn isSame).symm

/-- A kept map whose entries are listed in another array. -/
theorem Kept.relisted (kept : Kept config map stored) (alike : FiniteMap.Alike config.equals)
    {resized : Hashmap Key Value} (positive : 0 < resized.capacity)
    (granted : resized.capacity * 8 ≤ sizeMax) (bounded : map.size ≤ resized.capacity)
    (placed : Placed config resized.buckets resized.capacity) (isSize : resized.size = map.size)
    (perm : (entries resized.buckets resized.capacity).Perm (entries map.buckets map.capacity)) :
    Kept config resized stored where
  positive := positive
  granted := granted
  bounded := by omega
  placed := placed
  size := by rw [isSize, kept.size, perm.length_eq]
  lists := kept.lists.perm alike (perm.symm.map Entry.pair)

section Placing

variable {buckets : Nat → List (Entry Key Value)} {capacity : Nat}

theorem Placed.update (placed : Placed config buckets capacity) {index : Nat}
    {chain : List (Entry Key Value)}
    (arePlaced : ∀ entry ∈ chain, entry.hash = config.hash entry.key ∧
      index = bucketIndex entry.hash capacity) :
    Placed config (Function.update buckets index chain) capacity := by
  intro other entry isIn
  rw [Function.update_apply] at isIn
  split at isIn
  next isIndex => exact isIndex ▸ arePlaced entry isIn
  next => exact placed other entry isIn

theorem Placed.link (placed : Placed config buckets capacity)
    {entry : Entry Key Value} (isHash : entry.hash = config.hash entry.key) :
    Placed config (link capacity buckets entry) capacity := by
  apply placed.update
  intro other isIn
  rcases List.mem_cons.mp isIn with rfl | isIn
  · exact ⟨isHash, rfl⟩
  · exact placed _ other isIn

theorem Placed.relink (placed : Placed config buckets capacity) {moved : List (Entry Key Value)}
    (areHashes : ∀ entry ∈ moved, entry.hash = config.hash entry.key) :
    Placed config (moved.foldl (HashMap.link capacity) buckets) capacity := by
  induction moved generalizing buckets with
  | nil => exact placed
  | cons entry moved ih =>
    obtain ⟨isHash, others⟩ := List.forall_mem_cons.mp areHashes
    exact ih (placed.link isHash) others

theorem placed_none : Placed config (fun _ => ([] : List (Entry Key Value))) capacity :=
  fun _ _ isIn => absurd isIn List.not_mem_nil

end Placing

/-- A resize relinks all entries. -/
theorem Kept.resize (kept : Kept config map stored) (alike : FiniteMap.Alike config.equals)
    {newCapacity : Nat} (positive : 0 < newCapacity) {resized : Hashmap Key Value}
    (isResized : hashmapResize memory map newCapacity = some resized) :
    Kept config resized stored := by
  rw [hashmapResize] at isResized
  split at isResized
  next => cases isResized
  next isRoom =>
    split at isResized
    next granted =>
      rw [isGranted, Bool.and_eq_true, decide_eq_true_iff] at granted
      rw [← List.foldl_flatMap, ← entries] at isResized
      obtain rfl := Option.some.inj isResized
      refine kept.relisted alike positive granted.2 (Nat.le_of_not_lt isRoom) ?_ rfl ?_
      · apply placed_none.relink
        intro entry isIn
        obtain ⟨index, -, isIn⟩ := mem_entries_iff.mp isIn
        exact (kept.placed index entry isIn).1
      · refine (entries_relink positive _).trans ?_
        rw [entries_none, List.append_nil]
    next => cases isResized

private theorem size_of_resize {newCapacity : Nat} {resized : Hashmap Key Value}
    (isResized : hashmapResize memory map newCapacity = some resized) :
    resized.size = map.size ∧ resized.capacity = newCapacity := by
  rw [hashmapResize] at isResized
  split at isResized
  next => cases isResized
  next =>
    split at isResized
    next =>
      obtain rfl := Option.some.inj isResized
      exact ⟨rfl, rfl⟩
    next => cases isResized

theorem Kept.insertEntry (kept : Kept config map stored)
    (consistent : config.Consistent) (isRoom : map.size < 2 * map.capacity)
    (key : Key) (value : Value) :
    ∃ next, Kept config (insertEntry config memory map key value).1 next ∧
      FiniteMap.Inserts config.equals stored key (config.valueCopy value)
        (insertEntry config memory map key value).2 next := by
  rw [HashMap.insertEntry]
  split
  next entry isFound =>
    obtain ⟨isIn, isSame⟩ := findEntry_some isFound
    have isSome : (stored key).isSome := by
      rw [kept.eq_some isIn isSame]
      rfl
    exact ⟨stored, kept, Or.inr (Or.inl ⟨rfl, isSome, rfl⟩)⟩
  next isFound =>
    have isNone := kept.eq_none consistent isFound
    split
    next =>
      refine ⟨FiniteMap.put config.equals stored key (config.valueCopy value),
        ?_, Or.inl ⟨rfl, isNone, rfl⟩⟩
      have isCopy := consistent.copy key
      have perm := @entries_link _ _ map.buckets map.capacity kept.positive
        (hashmapCreateEntry config key value (config.hash key))
      exact
        { positive := kept.positive
          granted := kept.granted
          bounded := isRoom
          placed := kept.placed.link (consistent.hash_eq isCopy).symm
          size := by rw [perm.length_eq, List.length_cons, kept.size]
          lists := (kept.lists.cons consistent.alike isCopy isNone).perm
            consistent.alike (perm.symm.map Entry.pair) }
    next => exact ⟨stored, kept, Or.inr (Or.inr ⟨rfl, rfl⟩)⟩

/-- Doubling does not wrap around. -/
theorem Kept.insert (kept : Kept config map stored)
    (consistent : config.Consistent) (key : Key) (value : Value) :
    ∃ next, Kept config (hashmapInsert config memory map key value).1 next ∧
      FiniteMap.Inserts config.equals stored key (config.valueCopy value)
        (hashmapInsert config memory map key value).2 next := by
  have positive := kept.positive
  have granted := kept.granted
  rw [sizeMax] at granted
  rw [hashmapInsert]
  split
  next =>
    split
    next => exact ⟨stored, kept, Or.inr (Or.inr ⟨rfl, rfl⟩)⟩
    next resized isResized =>
      have doubled : 0 < map.capacity * 2 % 2 ^ 64 := by omega
      obtain ⟨isSize, isCapacity⟩ := size_of_resize isResized
      refine (kept.resize consistent.alike doubled isResized).insertEntry consistent ?_ key value
      have bounded := kept.bounded
      rw [isSize, isCapacity]
      omega
  next notLoaded =>
    refine kept.insertEntry consistent (Nat.lt_of_not_le fun full => ?_) key value
    exact notLoaded (config.loaded_of_lt _ _ (Nat.lt_succ_of_le full))

/-- With memory for an entry and for twice the array an insertion does not
fail. -/
theorem Kept.insert_ne (kept : Kept config map stored)
    (isRoom : map.capacity * 16 ≤ sizeMax) (key : Key) (value : Value) :
    (hashmapInsert config ⟨true, true⟩ map key value).2 ≠ -1 := by
  have stores : ∀ grown : Hashmap Key Value,
      (HashMap.insertEntry config ⟨true, true⟩ grown key value).2 ≠ -1 := by
    intro grown
    rw [HashMap.insertEntry]
    split
    · exact (by decide : (0 : Int) ≠ -1)
    · exact (by decide : (1 : Int) ≠ -1)
  have bounded := kept.bounded
  rw [sizeMax] at isRoom
  have doubled : map.capacity * 2 % 2 ^ 64 = map.capacity * 2 := by omega
  have granted : isGranted ⟨true, true⟩ (map.capacity * 2) := by
    rw [isGranted, Bool.true_and, decide_eq_true_iff, sizeMax]
    omega
  have isResized : ∃ resized, hashmapResize ⟨true, true⟩ map (map.capacity * 2) = some resized := by
    rw [hashmapResize, if_neg (by omega), if_pos granted]
    exact ⟨_, rfl⟩
  obtain ⟨resized, isResized⟩ := isResized
  rw [hashmapInsert, doubled, isResized]
  split
  · exact stores resized
  · exact stores map

theorem Kept.insertOrAssign_ne (kept : Kept config map stored)
    (isRoom : map.capacity * 16 ≤ sizeMax) (key : Key) (value : Value) :
    (hashmapInsertOrAssign config ⟨true, true⟩ map key value).2 ≠ -1 := by
  rw [hashmapInsertOrAssign]
  split
  · exact (by decide : (2 : Int) ≠ -1)
  · exact kept.insert_ne isRoom key value

/-- The entries of the array when one entry of a chain is replaced. -/
theorem entries_replace {buckets : Nat → List (Entry Key Value)} {capacity index : Nat}
    (isIndex : index < capacity) {front back : List (Entry Key Value)} {entry : Entry Key Value}
    (isChain : buckets index = front ++ entry :: back) :
    ∃ others, (entries buckets capacity).Perm (entry :: (front ++ back ++ others)) ∧
      ∀ added, (entries (Function.update buckets index (front ++ added ++ back)) capacity).Perm
          (added ++ (front ++ back ++ others)) := by
  obtain ⟨others, before, after⟩ := @entries_update _ _ buckets capacity _ isIndex
  rw [isChain] at before
  refine ⟨others, before.trans (List.perm_middle.append_right others), ?_⟩
  intro added
  refine (after _).trans ?_
  rw [← List.append_assoc added]
  apply List.Perm.append_right
  rw [List.append_assoc]
  exact List.perm_append_comm_assoc ..

/-- The entry that is found can be replaced in its chain. -/
theorem Kept.replace (kept : Kept config map stored) (alike : FiniteMap.Alike config.equals)
    {key : Key} {entry : Entry Key Value}
    (isFound : hashmapFindEntry config map key = some entry) :
    ∃ front back, map.buckets (bucketIndex (config.hash key) map.capacity) =
        front ++ entry :: back ∧
      (∀ other ∈ front, ¬ isEntry config (config.hash key) key other) ∧
      isEntry config (config.hash key) key entry ∧
      ∀ (added : List (Entry Key Value)) (size : Nat) (next : Key → Option Value),
        (∀ other ∈ added, other.key = entry.key ∧ other.hash = entry.hash) →
        added.length ≤ 1 → size + 1 = map.size + added.length →
        (∀ rest, FiniteMap.Lists config.equals (entry.pair :: rest) stored →
          FiniteMap.Lists config.equals (added.map Entry.pair ++ rest)
            next) →
        Kept config
          { map with
            buckets := Function.update map.buckets (bucketIndex (config.hash key) map.capacity)
              (front ++ added ++ back)
            size := size } next := by
  obtain ⟨isMatch, front, back, isChain, areNot⟩ := List.find?_eq_some_iff_append.mp isFound
  obtain ⟨others, perm, replacedBy⟩ := entries_replace (kept.index_lt (config.hash key)) isChain
  refine ⟨front, back, isChain, fun other isIn => ?_, isMatch, ?_⟩
  · have isNot := areNot other isIn
    rw [Bool.not_eq_true'] at isNot
    rw [isNot]
    exact Bool.false_ne_true
  intro added size next areAdded atMostOne isSize listed
  have bounded := kept.bounded
  have placed := kept.placed (bucketIndex (config.hash key) map.capacity)
  rw [isChain] at placed
  obtain ⟨frontPlaced, chainPlaced⟩ := List.forall_mem_append.mp placed
  obtain ⟨entryPlaced, backPlaced⟩ := List.forall_mem_cons.mp chainPlaced
  have replaced := replacedBy added
  refine
    { positive := kept.positive
      granted := kept.granted
      bounded := by
        dsimp only
        omega
      placed := kept.placed.update ?_
      size := ?_
      lists := ?_ }
  · refine List.forall_mem_append.mpr ⟨List.forall_mem_append.mpr ⟨frontPlaced, ?_⟩, backPlaced⟩
    intro other isIn
    obtain ⟨isKey, isHash⟩ := areAdded other isIn
    rw [isKey, isHash]
    exact entryPlaced
  · have isLength := perm.length_eq
    rw [← kept.size, List.length_cons] at isLength
    rw [replaced.length_eq, List.length_append]
    dsimp only
    omega
  · have lists := listed _ (kept.lists.perm alike (perm.map Entry.pair))
    rw [← List.map_append] at lists
    exact lists.perm alike (replaced.symm.map Entry.pair)

private theorem assignEntry_append {hash : UInt64} {key : Key} (value : Value)
    {front back : List (Entry Key Value)} {entry : Entry Key Value}
    (areNot : ∀ other ∈ front, ¬ isEntry config hash key other)
    (isMatch : isEntry config hash key entry) :
    assignEntry config hash key value (front ++ entry :: back) =
      front ++ { entry with value := config.valueCopy value } :: back := by
  induction front with
  | nil => rw [List.nil_append, List.nil_append, assignEntry, if_pos isMatch]
  | cons other front ih =>
    obtain ⟨isNot, others⟩ := List.forall_mem_cons.mp areNot
    rw [List.cons_append, assignEntry, if_neg isNot, ih others]
    rfl

theorem Kept.insertOrAssign (kept : Kept config map stored)
    (consistent : config.Consistent) (key : Key) (value : Value) :
    ∃ next, Kept config (hashmapInsertOrAssign config memory map key value).1
        next ∧
      FiniteMap.Assigns config.equals stored key (config.valueCopy value)
        (hashmapInsertOrAssign config memory map key value).2 next := by
  rw [hashmapInsertOrAssign]
  split
  next entry isFound =>
    obtain ⟨isIn, isSame⟩ := findEntry_some isFound
    obtain ⟨front, back, isChain, areNot, isMatch, replaced⟩ :=
      kept.replace consistent.alike isFound
    refine ⟨FiniteMap.put config.equals stored key (config.valueCopy value),
      ?_, Or.inr (Or.inl ⟨rfl, ?_, rfl⟩)⟩
    · dsimp only
      rw [isChain, assignEntry_append value areNot isMatch, List.append_cons]
      apply replaced
      · exact List.forall_mem_singleton.mpr ⟨rfl, rfl⟩
      · exact Nat.le_refl 1
      · rfl
      · intro rest lists
        exact lists.assign consistent.alike isSame
    · rw [kept.eq_some isIn isSame]
      rfl
  next isFound =>
    obtain ⟨next, isKept, inserts⟩ := kept.insert consistent key value
    have isNone := kept.eq_none consistent isFound
    refine ⟨next, isKept, ?_⟩
    rcases inserts with isNew | ⟨-, isSome, -⟩ | failed
    · exact Or.inl isNew
    · rw [isNone] at isSome
      cases isSome
    · exact Or.inr (Or.inr failed)

theorem Kept.erase (kept : Kept config map stored) (consistent : config.Consistent) (key : Key) :
    ∃ next, Kept config (hashmapErase config map key).1 next ∧
      FiniteMap.Erases config.equals stored key (hashmapErase config map key).2 next := by
  rw [hashmapErase]
  split
  next entry isFound =>
    obtain ⟨isIn, isSame⟩ := findEntry_some isFound
    obtain ⟨front, back, isChain, areNot, isMatch, replaced⟩ :=
      kept.replace consistent.alike isFound
    have isPositive : 0 < map.size := by
      rw [kept.size]
      exact List.length_pos_of_mem (kept.mem_entries isIn)
    refine ⟨FiniteMap.drop config.equals stored key, ?_, Or.inl ⟨rfl, ?_, rfl⟩⟩
    · dsimp only
      rw [isChain, List.eraseP_append_right _ areNot,
        List.eraseP_cons_of_pos isMatch, ← List.append_nil front]
      apply replaced
      · exact List.forall_mem_nil _
      · exact Nat.zero_le 1
      · exact Nat.succ_pred_eq_of_pos isPositive
      · intro rest lists
        exact lists.tail consistent.alike isSame
    · rw [kept.eq_some isIn isSame]
      rfl
  next isFound =>
    exact ⟨stored, kept, Or.inr ⟨rfl, kept.eq_none consistent isFound, rfl⟩⟩

theorem Kept.clear (kept : Kept config map stored) :
    Kept config (hashmapClear map) fun _ => none := by
  have noEntries : entries (hashmapClear map).buckets map.capacity = [] := by
    apply List.flatMap_eq_nil_iff.mpr
    intro index isIn
    exact if_pos (List.mem_range.mp isIn)
  refine
    { positive := kept.positive
      granted := kept.granted
      bounded := Nat.zero_le _
      placed := ?_
      size := ?_
      lists := ?_ }
  · intro index entry isIn
    dsimp only [hashmapClear] at isIn
    split at isIn
    · exact absurd isIn List.not_mem_nil
    · exact kept.placed index entry isIn
  · exact (congrArg List.length noEntries).symm
  · show FiniteMap.Lists config.equals
      ((entries (hashmapClear map).buckets map.capacity).map Entry.pair) _
    rw [noEntries]
    exact FiniteMap.lists_nil

end Steps

/-! ## Iteration -/

section Visits

variable {map : Hashmap Key Value}

/-- The entries of the buckets from an index on. -/
def entriesFrom (buckets : Nat → List (Entry Key Value)) (index count : Nat) :
    List (Entry Key Value) :=
  (List.range' index count).flatMap buckets

theorem entriesFrom_succ (buckets : Nat → List (Entry Key Value)) (index count : Nat) :
    entriesFrom buckets index (count + 1) =
      buckets index ++ entriesFrom buckets (index + 1) count := by
  rw [entriesFrom, List.range'_succ, List.flatMap_cons]
  rfl

/-- The first bucket with entries begins the entries from an index on. -/
theorem entriesFrom_first (buckets : Nat → List (Entry Key Value)) (index count : Nat) :
    (firstBucket buckets index count = none ∧ entriesFrom buckets index count = []) ∨
    ∃ found, firstBucket buckets index count = some found ∧
      index ≤ found ∧ found < index + count ∧ buckets found ≠ [] ∧
      entriesFrom buckets index count = buckets found ++
        entriesFrom buckets (found + 1) (index + count - (found + 1)) := by
  induction count generalizing index with
  | zero => exact Or.inl ⟨rfl, rfl⟩
  | succ count ih =>
    rw [firstBucket, entriesFrom_succ]
    split
    next isEmpty =>
      rw [List.isEmpty_iff.mp isEmpty, List.nil_append]
      rcases ih (index + 1) with nothing | ⟨found, isFound, lower, upper, nonempty, isList⟩
      · exact Or.inl nothing
      · refine Or.inr ⟨found, isFound, by omega, by omega, nonempty, ?_⟩
        rw [isList]
        congr 2
        omega
    next nonempty =>
      refine Or.inr ⟨index, rfl, Nat.le_refl _, by omega, ?_, ?_⟩
      · exact fun isNil => nonempty (List.isEmpty_iff.mpr isNil)
      · congr 2
        omega

/-- What an iterator has not visited: its chain and the buckets behind. -/
def remaining (map : Hashmap Key Value) (it : Iterator Key Value) : List (Entry Key Value) :=
  it.chain ++ entriesFrom map.buckets (it.bucketIndex + 1) (map.capacity - (it.bucketIndex + 1))

/-- An iterator without an entry has visited all. -/
def Stands (map : Hashmap Key Value) (it : Iterator Key Value) : Prop :=
  it.chain = [] → remaining map it = []

/-- The iterator at the first bucket with entries, from an index on. -/
def iteratorFrom (map : Hashmap Key Value) (index : Nat) : Iterator Key Value :=
  match firstBucket map.buckets index (map.capacity - index) with
  | none => ⟨index, []⟩
  | some found => ⟨found, map.buckets found⟩

theorem iteratorFrom_stands (map : Hashmap Key Value) (index : Nat) :
    Stands map (iteratorFrom map index) ∧ remaining map (iteratorFrom map index) =
        entriesFrom map.buckets index (map.capacity - index) := by
  rw [iteratorFrom]
  rcases entriesFrom_first map.buckets index (map.capacity - index) with
    ⟨isNone, isList⟩ | ⟨found, isFound, lower, upper, nonempty, isList⟩
  · have nothing : remaining map ⟨index, []⟩ = [] := by
      rw [remaining, List.nil_append]
      cases isCount : map.capacity - index with
      | zero => rw [show map.capacity - (index + 1) = 0 by omega]; rfl
      | succ count =>
        rw [isCount, entriesFrom_succ] at isList
        rw [show map.capacity - (index + 1) = count by omega]
        exact (List.append_eq_nil_iff.mp isList).2
    rw [isNone, isList]
    exact ⟨fun _ => nothing, nothing⟩
  · have isCount : index + (map.capacity - index) - (found + 1) =
        map.capacity - (found + 1) := by omega
    rw [isFound, isList, isCount]
    exact ⟨fun isNil => absurd isNil nonempty, rfl⟩

/-- One step leaves the rest. -/
theorem next_remaining {it : Iterator Key Value} {entry : Entry Key Value}
    {chain : List (Entry Key Value)} (isChain : it.chain = entry :: chain) :
    Stands map (hashmapNext map it) ∧
      remaining map it = entry :: remaining map (hashmapNext map it) := by
  rw [hashmapNext, isChain, remaining, isChain]
  cases chain with
  | nil =>
    obtain ⟨stands, isRest⟩ := iteratorFrom_stands map (it.bucketIndex + 1)
    exact ⟨stands, congrArg (entry :: ·) isRest.symm⟩
  | cons second chain => exact ⟨nofun, rfl⟩

private theorem foreach_remaining {rounds : Nat} {it : Iterator Key Value}
    (stands : Stands map it) (enough : (remaining map it).length < rounds) :
    hashmapForeach map rounds it = some (remaining map it) := by
  induction rounds generalizing it with
  | zero => exact absurd enough (Nat.not_lt_zero _)
  | succ rounds ih =>
    rw [hashmapForeach]
    cases isChain : it.chain with
    | nil => exact congrArg some (stands isChain).symm
    | cons entry chain =>
      obtain ⟨nextStands, isRest⟩ := @next_remaining _ _ map _ _ _ isChain
      rw [isRest, List.length_cons] at enough
      dsimp only
      rw [ih nextStands (Nat.lt_of_succ_lt_succ enough), isRest]
      rfl

/-- The loop visits the entries in the order of the array. -/
theorem Kept.foreach {config : Config Key Value}
    {stored : Key → Option Value} (kept : Kept config map stored) :
    hashmapForeach map (map.size + 1) (hashmapBegin map) =
      some (entries map.buckets map.capacity) := by
  have isAll : entriesFrom map.buckets 0 (map.capacity - 0) = entries map.buckets map.capacity := by
    rw [entriesFrom, Nat.sub_zero, ← List.range_eq_range']
    rfl
  rw [hashmapBegin]
  split
  next isEmpty =>
    rw [kept.size, List.length_eq_zero_iff] at isEmpty
    rw [isEmpty]
    rfl
  next =>
    obtain ⟨stands, isRest⟩ := iteratorFrom_stands map 0
    rw [isAll] at isRest
    rw [← isRest]
    apply foreach_remaining stands
    rw [isRest, kept.size]
    exact Nat.lt_succ_self _

end Visits

/-! ## Runs -/

inductive Operation (Key : Type u) (Value : Type v) where
  | insert (memory : Memory) (key : Key) (value : Value)
  | insertOrAssign (memory : Memory) (key : Key) (value : Value)
  | find (key : Key)
  | erase (key : Key)
  | rehash (memory : Memory) (newCapacity : Nat)
  | reserve (memory : Memory) (count : Nat)
  | clear

inductive Answer (Value : Type v) where
  | status (status : Int)
  | found (value : Option Value)

def machine (config : Config Key Value) :
    Transition.Machine (Hashmap Key Value) (Operation Key Value) (Answer Value) where
  perform map
    | .insert memory key value =>
      (hashmapInsert config memory map key value).map id .status
    | .insertOrAssign memory key value =>
      (hashmapInsertOrAssign config memory map key value).map id .status
    | .find key => (map, .found (hashmapFind config map key))
    | .erase key => (hashmapErase config map key).map id .status
    | .rehash memory newCapacity =>
      (hashmapRehash memory map newCapacity).map id .status
    | .reserve memory count =>
      (hashmapReserve config memory map count).map id .status
    | .clear => (hashmapClear map, .status 0)

/-- How a finite map answers and changes. -/
def Accepts (config : Config Key Value) (stored : Key → Option Value) :
    Operation Key Value → Answer Value → (Key → Option Value) → Prop
  | .insert _ key value, .status answer, next =>
    FiniteMap.Inserts config.equals stored key (config.valueCopy value) answer next
  | .insertOrAssign _ key value, .status answer, next =>
    FiniteMap.Assigns config.equals stored key (config.valueCopy value) answer next
  | .find key, .found value, next => value = stored key ∧ next = stored
  | .erase key, .status answer, next =>
    FiniteMap.Erases config.equals stored key answer next
  | .rehash _ _, .status _, next => next = stored
  | .reserve _ _, .status _, next => next = stored
  | .clear, .status _, next => next = fun _ => none
  | _, _, _ => False

section Runs

variable {config : Config Key Value} {map : Hashmap Key Value}
  {stored : Key → Option Value}

theorem Kept.rehash (kept : Kept config map stored)
    (alike : FiniteMap.Alike config.equals) (memory : Memory)
    (newCapacity : Nat) :
    Kept config (hashmapRehash memory map newCapacity).1 stored := by
  rw [hashmapRehash]
  split
  next => exact kept
  next positive =>
    split
    next => exact kept
    next resized isResized =>
      exact kept.resize alike (Nat.pos_of_ne_zero positive) isResized

/-- The loop of `hashmap_reserve` ends within its rounds. -/
theorem requiredCapacity_stops (config : Config Key Value) (count : Nat)
    {rounds capacity : Nat} (enough : sizeMax / 2 < capacity * 2 ^ rounds) :
    requiredCapacity config count (rounds + 1) capacity = sizeMax ∨ config.isShort count
        (requiredCapacity config count (rounds + 1) capacity) = false := by
  induction rounds generalizing capacity with
  | zero =>
    rw [Nat.pow_zero, Nat.mul_one] at enough
    rw [requiredCapacity, if_pos enough]
    split
    next => exact Or.inl rfl
    next isEnough => exact Or.inr (Bool.eq_false_iff.mpr isEnough)
  | succ rounds ih =>
    rw [requiredCapacity]
    split
    next =>
      split
      next => exact Or.inl rfl
      next =>
        apply ih
        rwa [Nat.mul_assoc, ← Nat.pow_succ']
    next isEnough => exact Or.inr (Bool.eq_false_iff.mpr isEnough)

theorem Kept.reserve (kept : Kept config map stored)
    (alike : FiniteMap.Alike config.equals) (memory : Memory) (count : Nat) :
    Kept config (hashmapReserve config memory map count).1 stored := by
  rw [hashmapReserve]
  split
  next larger =>
    split
    next => exact kept
    next resized isResized =>
      exact kept.resize alike (Nat.zero_lt_of_lt larger) isResized
  next => exact kept

theorem Kept.perform (kept : Kept config map stored)
    (consistent : config.Consistent) (operation : Operation Key Value) :
    ∃ next, Accepts config stored operation ((machine config).perform map operation).2 next ∧
      Kept config ((machine config).perform map operation).1 next := by
  cases operation with
  | insert memory key value =>
    obtain ⟨next, isKept, inserts⟩ := kept.insert consistent key value
    exact ⟨next, inserts, isKept⟩
  | insertOrAssign memory key value =>
    obtain ⟨next, isKept, assigns⟩ := kept.insertOrAssign consistent key value
    exact ⟨next, assigns, isKept⟩
  | find key => exact ⟨stored, ⟨kept.find_eq consistent key, rfl⟩, kept⟩
  | erase key =>
    obtain ⟨next, isKept, erases⟩ := kept.erase consistent key
    exact ⟨next, erases, isKept⟩
  | rehash memory newCapacity =>
    exact ⟨stored, rfl, kept.rehash consistent.alike memory newCapacity⟩
  | reserve memory count =>
    exact ⟨stored, rfl, kept.reserve consistent.alike memory count⟩
  | clear => exact ⟨_, rfl, kept.clear⟩

theorem kept_create {memory : Memory} {initialCapacity : Nat}
    (isCreated : hashmapCreateEx memory initialCapacity = some map) :
    Kept config map fun _ => none := by
  have positive : 0 < if initialCapacity = 0 then defaultCapacity
      else initialCapacity := by
    split
    next => exact Nat.zero_lt_succ _
    next isPositive => exact Nat.pos_of_ne_zero isPositive
  rw [hashmapCreateEx] at isCreated
  generalize (if initialCapacity = 0 then defaultCapacity
    else initialCapacity) = capacity at positive isCreated
  split at isCreated
  next granted =>
    obtain rfl := Option.some.inj isCreated
    rw [isGranted, Bool.and_eq_true, decide_eq_true_iff] at granted
    refine
      { positive := positive
        granted := granted.2
        bounded := Nat.zero_le _
        placed := placed_none
        size := (congrArg List.length entries_none).symm
        lists := ?_ }
    rw [entries_none]
    exact FiniteMap.lists_nil
  next => cases isCreated

end Runs

/-- After every sequence of operations, each with any outcome of its
allocations, the answers have been those of a finite map.  The map finds what
is stored, an insertion that gets its memory does not fail, every entry stands
in the bucket of its hash, and iteration visits all entries of the array, one
for each stored key. -/
theorem hashmap_refines (config : Config Key Value) (consistent : config.Consistent)
    {memory : Memory} {initialCapacity : Nat} {created : Hashmap Key Value}
    (isCreated : hashmapCreateEx memory initialCapacity = some created)
    (operations : List (Operation Key Value)) {map : Hashmap Key Value}
    (isReached : (machine config).after created operations = map) :
    ∃ stored, Transition.Machine.Accepted (Accepts config) (fun _ => none) operations
        ((machine config).answers created operations) stored ∧
      (∀ key, hashmapFind config map key = stored key) ∧
      (map.capacity * 16 ≤ sizeMax → ∀ key value,
        (hashmapInsert config ⟨true, true⟩ map key value).2 ≠ -1 ∧
        (hashmapInsertOrAssign config ⟨true, true⟩ map key value).2 ≠ -1) ∧
      Placed config map.buckets map.capacity ∧
      ∃ visited, hashmapForeach map (map.size + 1) (hashmapBegin map) = some visited ∧
        visited = entries map.buckets map.capacity ∧
        visited.length = map.size ∧
        FiniteMap.Lists config.equals (visited.map Entry.pair) stored := by
  obtain ⟨stored, isAccepted, kept⟩ := Transition.Machine.accepted
    (fun operation kept => Kept.perform kept consistent operation)
    (kept_create isCreated) operations
  rw [isReached] at kept
  exact ⟨stored, isAccepted, kept.find_eq consistent,
    fun isRoom key value => ⟨kept.insert_ne isRoom key value,
      kept.insertOrAssign_ne isRoom key value⟩,
    kept.placed, _, kept.foreach, rfl, kept.size.symm, kept.lists⟩

/-- All keys in one chain. -/
def collidingConfig : Config Nat Nat where
  hash _ := 0
  equals := (· == ·)
  keyCopy := id
  valueCopy := id
  isLoaded size capacity := decide (capacity < size)
  isShort count capacity := decide (capacity < count)
  loaded_of_lt _ _ isMore := decide_eq_true (by omega)

private theorem collidingConfig_consistent : collidingConfig.Consistent where
  alike :=
    { refl := fun key => beq_self_eq_true key
      symm := fun isSame => beq_iff_eq.mpr (beq_iff_eq.mp isSame).symm
      trans := fun isFirst isSecond =>
        beq_iff_eq.mpr ((beq_iff_eq.mp isFirst).trans (beq_iff_eq.mp isSecond)) }
  hash_eq _ := rfl
  copy key := beq_self_eq_true key

theorem hashmap_refines_colliding :
    ∃ stored, stored 1 = some 11 ∧ stored 2 = none ∧ stored 3 = some 30 ∧
      Transition.Machine.Accepted (Accepts collidingConfig) (fun _ => none)
        [.insert ⟨true, true⟩ 1 10, .insert ⟨true, true⟩ 2 20,
          .insert ⟨true, true⟩ 3 30, .insertOrAssign ⟨true, true⟩ 1 11,
          .erase 2]
        ((machine collidingConfig).answers ⟨fun _ => [], 2, 0⟩
          [.insert ⟨true, true⟩ 1 10, .insert ⟨true, true⟩ 2 20,
            .insert ⟨true, true⟩ 3 30, .insertOrAssign ⟨true, true⟩ 1 11,
            .erase 2]) stored := by
  obtain ⟨stored, isAccepted, found, -⟩ := hashmap_refines collidingConfig
    collidingConfig_consistent
    (show hashmapCreateEx ⟨true, true⟩ 2 = some ⟨fun _ => [], 2, 0⟩ from rfl)
    [.insert ⟨true, true⟩ 1 10, .insert ⟨true, true⟩ 2 20,
      .insert ⟨true, true⟩ 3 30, .insertOrAssign ⟨true, true⟩ 1 11,
      .erase 2] rfl
  exact ⟨stored, (found 1).symm, (found 2).symm, (found 3).symm, isAccepted⟩

end CWebFramework.HashMap
