import CWebFramework.Transition.Runs
import Mathlib.Data.List.Nodup
import Mathlib.Data.List.Perm.Subperm
import Mathlib.Data.List.Range

/-!
# The pool of JSON tokens

The memory blocks of `json.c` and the manager that hands out their slots.  A
free slot keeps the next free slot in its first word, where a token keeps its
block.  Pointers are the addresses of blocks and slots; an access to memory
that is neither gives `none`.
-/

namespace CWebFramework.Json.TokenPool

open Transition

/-- A pointer, or the value of a word that was never written. -/
inductive Word where
  | null
  | block (address : Nat)
  | slot (address index : Nat)
  | other (value : Nat)
  deriving DecidableEq

/-- The first words of a token or a free slot; `next_free` shares the word of
`block`. -/
structure Slot where
  block : Word
  child : Word
  sibling : Word
  lastSibling : Word
  deriving DecidableEq

structure Block where
  slot : Nat → Slot
  freeList : Word
  capacity : Nat
  usedCount : Nat

abbrev Token := Nat × Nat

def Token.address (token : Token) : Word := .slot token.1 token.2

/-- `json_manager_t` and the blocks it points to, with the tokens that have
been handed out and not freed. -/
structure Pool where
  created : Bool
  tokenBlocks : List Nat
  current : Word
  freeBlocksCounter : Nat
  block : Nat → Block
  live : Nat → List Nat

/-- What `malloc` gives for the manager and for a block. -/
structure Mallocs where
  manager : Bool
  block : Option (Nat × (Nat → Slot))

def tokensPerBlock : Nat := 4096

def memoryBlockCreate (address : Nat) (memory : Nat → Slot) (capacity : Nat) : Block where
  slot index := { memory index with
    block := if index + 1 < capacity then .slot address (index + 1)
      else .null }
  freeList := .slot address 0
  capacity := capacity
  usedCount := 0

def memoryBlockAllocSlot (address : Nat) (block : Block) : Option (Option (Nat × Block)) :=
  match block.freeList with
  | .null => some none
  | .slot owner index =>
    if owner = address then
      some (some (index, { block with
        freeList := (block.slot index).block
        usedCount := block.usedCount + 1 }))
    else none
  | _ => none

namespace Pool

variable (pool : Pool)

def slotAt (token : Token) : Slot := (pool.block token.1).slot token.2

def setBlock (address : Nat) (block : Block) : Pool :=
  { pool with block := Function.update pool.block address block }

def setSlot (token : Token) (slot : Slot) : Pool :=
  pool.setBlock token.1 { pool.block token.1 with
    slot := Function.update (pool.block token.1).slot token.2 slot }

/-- `memory_block_is_full`.  In a slot `sibling` and `last_sibling` stand
where a block has `capacity` and `used_count`. -/
def memoryBlockIsFull : Word → Option Bool
  | .null => some false
  | .block address =>
    if address ∈ pool.tokenBlocks then
      some ((pool.block address).usedCount = (pool.block address).capacity)
    else none
  | .slot address index =>
    if address ∈ pool.tokenBlocks then
      some ((pool.slotAt (address, index)).lastSibling = (pool.slotAt (address, index)).sibling)
    else none
  | .other _ => none

def memoryBlockFreeSlot (address : Nat) (token : Token) : Pool :=
  let linked := pool.setSlot token { pool.slotAt token with
    block := (pool.block address).freeList }
  let freed := linked.setBlock address { linked.block address with
    freeList := token.address
    usedCount := (linked.block address).usedCount - 1 }
  { freed with
    live := Function.update pool.live token.1 ((pool.live token.1).erase token.2) }

def destroyEmptyBlocks : Pool :=
  if pool.created = false then pool
  else if pool.freeBlocksCounter + 1 < 1000 then
    { pool with freeBlocksCounter := pool.freeBlocksCounter + 1 }
  else
    let isEmpty address := (pool.block address).usedCount == 0
    { pool with
      freeBlocksCounter := 0
      tokenBlocks := pool.tokenBlocks.filter fun address => !isEmpty address
      current :=
        match pool.current with
        | .block address =>
          if address ∈ pool.tokenBlocks ∧ isEmpty address then .null
          else .block address
        | other => other }

/-- A slot of the first of some blocks that is not full and has one. -/
def findSlot : List Nat → Option (Option (Token × Block))
  | [] => some none
  | address :: addresses => do
      let isFull ← pool.memoryBlockIsFull (.block address)
      if isFull then findSlot addresses
      else
        match ← memoryBlockAllocSlot address (pool.block address) with
        | some (index, block) => some (some ((address, index), block))
        | none => findSlot addresses

/-- The slot is a token, `__init_token`, and its block is cached. -/
def place (token : Token) (block : Block) : Pool :=
  { pool with
    current := .block token.1
    block := Function.update pool.block token.1 { block with
      slot := Function.update block.slot token.2 ⟨.block token.1, .null, .null, .null⟩ }
    live := Function.update pool.live token.1 (token.2 :: pool.live token.1) }

def addBlock (address : Nat) (block : Block) : Pool :=
  { pool.setBlock address block with
    tokenBlocks := address :: pool.tokenBlocks
    current := .block address }

def cached : Option (List Nat) :=
  match pool.current with
  | .null => some []
  | .block address => some [address]
  | _ => none

/-- `json_token_alloc`: first the cached block, then all blocks, then a new
one. -/
def jsonTokenAlloc (mallocs : Mallocs) : Option (Option Token × Pool) :=
  if pool.created = false ∧ mallocs.manager = false then some (none, pool)
  else do
    let made := { pool with created := true }
    let cached ← pool.cached
    match ← made.findSlot (cached ++ pool.tokenBlocks) with
    | some (token, block) => some (some token, made.place token block)
    | none =>
      match mallocs.block with
      | none => some (none, made)
      | some (address, memory) =>
        let created := memoryBlockCreate address memory tokensPerBlock
        let added := made.addBlock address created
        match ← memoryBlockAllocSlot address created with
        | some (index, block) =>
          some (some (address, index), added.place (address, index) block)
        | none => some (none, added)

def jsonTokenFree (token : Token) : Option Pool :=
  if pool.created = false then some pool
  else if token.1 ∉ pool.tokenBlocks then none
  else
    match (pool.slotAt token).block with
    | .null => some pool
    | .block address =>
      if address ∈ pool.tokenBlocks then do
        let freed := pool.memoryBlockFreeSlot address token
        -- The first word of the slot is the next free slot now.
        let block := (freed.slotAt token).block
        let isFull ← freed.memoryBlockIsFull block
        let cached := if isFull then freed
          else { freed with current := block }
        some cached.destroyEmptyBlocks
      else none
    | _ => none

/-- `__free_token_tree`; `none` also when it has not ended within that many
calls inside one another. -/
def freeTokenTree : Nat → Word → Pool → Option Pool
  | 0, _, _ => none
  | _ + 1, .null, pool => some pool
  | calls + 1, .slot address index, pool =>
    if address ∉ pool.tokenBlocks then none
    else do
      let slot := pool.slotAt (address, index)
      let cleared := pool.setSlot (address, index) ⟨.null, .null, .null, .null⟩
      let freed ←
        match slot.block with
        | .null => some cleared
        | .block owner =>
          if owner ∈ pool.tokenBlocks then
            some (cleared.memoryBlockFreeSlot owner (address, index))
          else none
        | _ => none
      let below ← freeTokenTree calls slot.child freed
      freeTokenTree calls slot.sibling below
  | _ + 1, _, _ => none

/-- The number of slots; no tree has more tokens. -/
def slots : Nat := (pool.tokenBlocks.map fun address => (pool.block address).capacity).sum

end Pool

/-- What is done with the pool.  `link` stands for all functions that write
the links of a token. -/
inductive Action where
  | alloc (mallocs : Mallocs)
  | link (token : Token) (child sibling lastSibling : Word)
  | free (token : Token)
  | freeTree (token : Token)
  | sweep

def tokenPool : System Pool Action where
  perform pool
    | .alloc mallocs => (pool.jsonTokenAlloc mallocs).map Prod.snd
    | .link token child sibling lastSibling =>
      some (pool.setSlot token { pool.slotAt token with
        child := child
        sibling := sibling
        lastSibling := lastSibling })
    | .free token => pool.jsonTokenFree token
    | .freeTree token =>
      Pool.freeTokenTree (pool.slots + 1) token.address pool
    | .sweep => some pool.destroyEmptyBlocks

def Pool.unused (memory : Nat → Block) : Pool where
  created := false
  tokenBlocks := []
  current := .null
  freeBlocksCounter := 0
  block := memory
  live _ := []

/-! ## The invariant -/

/-- The slots that a chain of next free slots goes through. -/
def FreeList (address : Nat) (slot : Nat → Slot) : Word → List Nat → Prop
  | head, [] => head = .null
  | head, index :: rest =>
    head = .slot address index ∧ FreeList address slot (slot index).block rest

/-- Used slots are counted and name their block, and the free list goes
through the other slots. -/
structure BlockInvariant (address : Nat) (block : Block) (used : List Nat) : Prop where
  nodup : used.Nodup
  counted : block.usedCount = used.length
  owned : ∀ index ∈ used, index < block.capacity ∧ (block.slot index).block = .block address
  free : ∃ indices, FreeList address block.slot block.freeList indices ∧ indices.Nodup ∧
    ∀ index, index ∈ indices ↔ index < block.capacity ∧ index ∉ used

structure PoolInvariant (pool : Pool) : Prop where
  created : pool.created = false → pool.tokenBlocks = []
  nodup : pool.tokenBlocks.Nodup
  current : pool.current = .null ∨ ∃ address ∈ pool.tokenBlocks, pool.current = .block address
  blocks : ∀ address ∈ pool.tokenBlocks,
    BlockInvariant address (pool.block address) (pool.live address)
  destroyed : ∀ address ∉ pool.tokenBlocks, pool.live address = []

/-- Slots and live tokens other than these are as they were. -/
def Keeps (tokens : List Token) (pool left : Pool) : Prop :=
  ∀ other ∉ tokens, left.slotAt other = pool.slotAt other ∧
    (other.2 ∈ pool.live other.1 → other.2 ∈ left.live other.1)

/-- The tokens of a tree in the order in which they are freed. -/
inductive TreeAt (pool : Pool) : Word → List Token → Prop where
  | null : TreeAt pool .null []
  | node {token : Token} {children siblings : List Token} :
      TreeAt pool (pool.slotAt token).child children →
      TreeAt pool (pool.slotAt token).sibling siblings →
      TreeAt pool token.address (token :: (children ++ siblings))

/-- `malloc` gives a block that is not in use, and only tokens that have not
been freed are used. -/
def Allowed (pool : Pool) : Action → Prop
  | .alloc mallocs => ∀ address memory,
      mallocs.block = some (address, memory) → address ∉ pool.tokenBlocks
  | .link token _ _ _ => token.2 ∈ pool.live token.1
  | .free token => token.2 ∈ pool.live token.1
  | .freeTree token => ∃ tokens, TreeAt pool token.address tokens ∧
      tokens.Nodup ∧ ∀ freed ∈ tokens, freed.2 ∈ pool.live freed.1
  | .sweep => True

/-- `json_token_free` takes the slot behind the freed one for its block; that
does no harm when there is none, or when it reads as a full block. -/
def ReadsFull (pool : Pool) : Action → Prop
  | .free token =>
    match (pool.block token.1).freeList with
    | .null => True
    | .slot address index =>
      (pool.slotAt (address, index)).lastSibling = (pool.slotAt (address, index)).sibling
    | _ => False
  | _ => True

/-! ## One block -/

section Blocks

variable {address index : Nat} {block : Block} {used indices : List Nat}

/-- A chain depends on the first words of its slots only. -/
theorem FreeList.congr {slot other : Nat → Slot} {head : Word}
    (chain : FreeList address slot head indices)
    (same : ∀ index ∈ indices, (other index).block = (slot index).block) :
    FreeList address other head indices := by
  induction indices generalizing head with
  | nil => exact chain
  | cons index rest ih =>
    rw [List.forall_mem_cons] at same
    refine ⟨chain.1, ?_⟩
    rw [same.1]
    exact ih chain.2 same.2

theorem FreeList.update {head : Word} {slot : Nat → Slot} (written : Slot)
    (chain : FreeList address slot head indices) (isOther : index ∉ indices) :
    FreeList address (Function.update slot index written) head indices := by
  apply chain.congr
  intro other isIn
  rw [Function.update_of_ne]
  rintro rfl
  exact isOther isIn

/-- A new block chains all its slots. -/
theorem freeList_create (address : Nat) (memory : Nat → Slot) (capacity start : Nat) :
    FreeList address (memoryBlockCreate address memory capacity).slot
      (if start < capacity then .slot address start else .null)
      (List.range' start (capacity - start)) := by
  generalize isLeft : capacity - start = left
  induction left generalizing start with
  | zero => exact if_neg (by omega)
  | succ left ih =>
    refine ⟨if_pos (by omega), ?_⟩
    exact ih (start + 1) (by omega)

namespace BlockInvariant

theorem create (address : Nat) (memory : Nat → Slot) {capacity : Nat} (positive : 0 < capacity) :
    BlockInvariant address (memoryBlockCreate address memory capacity) [] where
  nodup := List.nodup_nil
  counted := rfl
  owned := nofun
  free := by
    refine ⟨List.range' 0 (capacity - 0), ?_, List.nodup_range', ?_⟩
    · have chain := freeList_create address memory capacity 0
      rwa [if_pos positive] at chain
    · intro index
      rw [List.mem_range'_1, Nat.zero_add]
      exact ⟨fun within => ⟨within.2, List.not_mem_nil⟩, fun within => ⟨Nat.zero_le _, within.1⟩⟩

/-- A slot that is taken becomes a token. -/
theorem allocSlot (invariant : BlockInvariant address block used)
    (token : Slot) (isToken : token.block = .block address) :
    memoryBlockAllocSlot address block = some none ∨
    ∃ index taken, memoryBlockAllocSlot address block = some (some (index, taken)) ∧
      BlockInvariant address
        { taken with slot := Function.update taken.slot index token }
        (index :: used) := by
  obtain ⟨indices, chain, nodup, isFree⟩ := invariant.free
  cases indices with
  | nil =>
    apply Or.inl
    rw [memoryBlockAllocSlot, chain]
  | cons index rest =>
    have isNew := (isFree index).mp List.mem_cons_self
    rw [List.nodup_cons] at nodup
    refine Or.inr ⟨index, { block with
      freeList := (block.slot index).block
      usedCount := block.usedCount + 1 }, ?_, ?_, ?_, ?_, ?_⟩
    · rw [memoryBlockAllocSlot, chain.1]
      exact if_pos rfl
    · exact List.nodup_cons.mpr ⟨isNew.2, invariant.nodup⟩
    · exact congrArg Nat.succ invariant.counted
    · rw [List.forall_mem_cons]
      refine ⟨⟨isNew.1, ?_⟩, fun other isUsed => ?_⟩
      · exact (congrArg Slot.block (Function.update_self ..)).trans isToken
      · refine ⟨(invariant.owned other isUsed).1, ?_⟩
        dsimp only
        rw [Function.update_of_ne (ne_of_mem_of_not_mem isUsed isNew.2)]
        exact (invariant.owned other isUsed).2
    · refine ⟨rest, chain.2.update token nodup.1, nodup.2, fun other => ?_⟩
      have isFreeOther := isFree other
      rw [List.mem_cons] at isFreeOther
      rw [List.mem_cons, not_or]
      constructor
      · intro isIn
        have both := isFreeOther.mp (Or.inr isIn)
        exact ⟨both.1, ne_of_mem_of_not_mem isIn nodup.1, both.2⟩
      · intro both
        exact (isFreeOther.mpr ⟨both.1, both.2.2⟩).resolve_left both.2.1

/-- A token that is freed becomes the head of the free list. -/
theorem release (invariant : BlockInvariant address block used)
    (isUsed : index ∈ used) (freed : Slot)
    (isLinked : freed.block = block.freeList) :
    BlockInvariant address
      { slot := Function.update block.slot index freed
        freeList := .slot address index
        capacity := block.capacity
        usedCount := block.usedCount - 1 } (used.erase index) := by
  obtain ⟨indices, chain, nodup, isFree⟩ := invariant.free
  have notFree : index ∉ indices := fun isIn =>
    ((isFree index).mp isIn).2 isUsed
  refine ⟨invariant.nodup.erase index, ?_, ?_, index :: indices, ?_, ?_, ?_⟩
  · rw [List.length_erase_of_mem isUsed, invariant.counted]
  · intro other isOther
    rw [invariant.nodup.mem_erase_iff] at isOther
    dsimp only
    rw [Function.update_of_ne isOther.1]
    exact invariant.owned other isOther.2
  · refine ⟨rfl, ?_⟩
    dsimp only
    rw [Function.update_self, isLinked]
    exact chain.update freed notFree
  · exact List.nodup_cons.mpr ⟨notFree, nodup⟩
  · intro other
    rw [List.mem_cons, isFree, invariant.nodup.mem_erase_iff, not_and]
    by_cases isSame : other = index
    · rw [isSame]
      exact iff_of_true (Or.inl rfl)
        ⟨(invariant.owned index isUsed).1, fun differs => absurd rfl differs⟩
    · rw [or_iff_right isSame]
      exact and_congr_right fun _ =>
        ⟨fun notUsed _ => notUsed, fun implied => implied isSame⟩

/-- The links of a token may be written. -/
theorem write (invariant : BlockInvariant address block used)
    (isUsed : index ∈ used) (written : Slot)
    (isToken : written.block = (block.slot index).block) :
    BlockInvariant address
      { block with slot := Function.update block.slot index written } used := by
  obtain ⟨indices, chain, nodup, isFree⟩ := invariant.free
  refine ⟨invariant.nodup, invariant.counted, ?_, indices, ?_, nodup, isFree⟩
  · intro other isOther
    refine ⟨(invariant.owned other isOther).1, ?_⟩
    dsimp only
    rw [Function.update_apply]
    split
    next isSame =>
      rw [isToken, ← isSame]
      exact (invariant.owned other isOther).2
    next => exact (invariant.owned other isOther).2
  · exact chain.update written fun isIn => ((isFree index).mp isIn).2 isUsed

end BlockInvariant

end Blocks

/-! ## The operations -/

/-- The pool when a token is free again and its slot has these words. -/
def Pool.released (pool : Pool) (token : Token) (slot : Slot) : Pool :=
  { pool with
    block := Function.update pool.block token.1
      { slot := Function.update (pool.block token.1).slot token.2 slot
        freeList := token.address
        capacity := (pool.block token.1).capacity
        usedCount := (pool.block token.1).usedCount - 1 }
    live := Function.update pool.live token.1 ((pool.live token.1).erase token.2) }

section Operations

variable {pool : Pool} {token : Token}

theorem memoryBlockFreeSlot_own (pool : Pool) (token : Token) :
    pool.memoryBlockFreeSlot token.1 token = pool.released token { pool.slotAt token with
        block := (pool.block token.1).freeList } := by
  simp only [Pool.memoryBlockFreeSlot, Pool.setSlot, Pool.setBlock,
    Pool.released, Function.update_self, Function.update_idem]

private theorem setSlot_memoryBlockFreeSlot_own (pool : Pool) (token : Token) (slot : Slot) :
    (pool.setSlot token slot).memoryBlockFreeSlot token.1 token = pool.released token
        { slot with block := (pool.block token.1).freeList } := by
  rw [memoryBlockFreeSlot_own]
  simp only [Pool.slotAt, Pool.setSlot, Pool.setBlock, Pool.released,
    Function.update_self, Function.update_idem]

private theorem tokenBlocks_released (slot : Slot) :
    (pool.released token slot).tokenBlocks = pool.tokenBlocks :=
  rfl

theorem slotAt_released_self (slot : Slot) : (pool.released token slot).slotAt token = slot := by
  simp only [Pool.slotAt, Pool.released, Function.update_self]

theorem slotAt_released {other : Token} (differs : other ≠ token) (slot : Slot) :
    (pool.released token slot).slotAt other = pool.slotAt other := by
  simp only [Pool.slotAt, Pool.released, Function.update_apply]
  split
  next sameBlock =>
    dsimp only
    rw [Function.update_of_ne fun sameIndex =>
      differs (Prod.ext sameBlock sameIndex), ← sameBlock]
  next => rfl

private theorem keeps_released (pool : Pool) (token : Token) (slot : Slot) :
    Keeps [token] pool (pool.released token slot) := by
  intro other isOther
  rw [List.mem_singleton] at isOther
  refine ⟨slotAt_released isOther slot, fun isLive => ?_⟩
  simp only [Pool.released, Function.update_apply]
  split
  next sameBlock =>
    rw [← sameBlock, List.mem_erase_of_ne fun sameIndex =>
      isOther (Prod.ext sameBlock sameIndex)]
    exact isLive
  next => exact isLive

theorem Keeps.trans {first second : List Token} {next left : Pool}
    (keeps : Keeps first pool next) (keepsNext : Keeps second next left) :
    Keeps (first ++ second) pool left := by
  intro other isOther
  rw [List.mem_append, not_or] at isOther
  have isFirst := keeps other isOther.1
  have isSecond := keepsNext other isOther.2
  exact ⟨isSecond.1.trans isFirst.1, fun isLive => isSecond.2 (isFirst.2 isLive)⟩

namespace PoolInvariant

/-- Only one block and its tokens change. -/
theorem replace (invariant : PoolInvariant pool) {address : Nat}
    {block : Block} {used : List Nat} (isIn : address ∈ pool.tokenBlocks)
    (changed : BlockInvariant address block used) :
    PoolInvariant { pool with
      block := Function.update pool.block address block
      live := Function.update pool.live address used } where
  created := invariant.created
  nodup := invariant.nodup
  current := invariant.current
  blocks other isOther := by
    dsimp only
    by_cases isSame : other = address
    · rw [isSame, Function.update_self, Function.update_self]
      exact changed
    · rw [Function.update_of_ne isSame, Function.update_of_ne isSame]
      exact invariant.blocks other isOther
  destroyed other isOther := by
    dsimp only
    rw [Function.update_of_ne (ne_of_mem_of_not_mem isIn isOther).symm]
    exact invariant.destroyed other isOther

theorem cache (invariant : PoolInvariant pool) {current : Word} (isBlock : current = .null ∨
      ∃ address ∈ pool.tokenBlocks, current = .block address) :
    PoolInvariant { pool with current := current } :=
  ⟨invariant.created, invariant.nodup, isBlock, invariant.blocks, invariant.destroyed⟩

/-- A live token lies in a block of the manager. -/
theorem mem_tokenBlocks (invariant : PoolInvariant pool)
    (isLive : token.2 ∈ pool.live token.1) : token.1 ∈ pool.tokenBlocks := by
  by_contra isGone
  rw [invariant.destroyed token.1 isGone] at isLive
  cases isLive

theorem blockOf (invariant : PoolInvariant pool) (isLive : token.2 ∈ pool.live token.1) :
    BlockInvariant token.1 (pool.block token.1) (pool.live token.1) :=
  invariant.blocks token.1 (invariant.mem_tokenBlocks isLive)

theorem released (invariant : PoolInvariant pool)
    (isLive : token.2 ∈ pool.live token.1) (slot : Slot)
    (isLinked : slot.block = (pool.block token.1).freeList) :
    PoolInvariant (pool.released token slot) :=
  invariant.replace (invariant.mem_tokenBlocks isLive)
    ((invariant.blockOf isLive).release isLive slot isLinked)

theorem link (invariant : PoolInvariant pool) (isLive : token.2 ∈ pool.live token.1) (slot : Slot)
    (isToken : slot.block = (pool.slotAt token).block) :
    PoolInvariant (pool.setSlot token slot) := by
  have changed := invariant.replace (invariant.mem_tokenBlocks isLive)
    ((invariant.blockOf isLive).write isLive slot isToken)
  rwa [Function.update_eq_self] at changed

theorem destroyEmptyBlocks (invariant : PoolInvariant pool) :
    PoolInvariant pool.destroyEmptyBlocks := by
  rw [Pool.destroyEmptyBlocks]
  split
  · exact invariant
  next isCreated =>
    split
    · exact ⟨invariant.created, invariant.nodup, invariant.current,
        invariant.blocks, invariant.destroyed⟩
    · refine ⟨fun notCreated => absurd notCreated isCreated, invariant.nodup.filter _, ?_, ?_, ?_⟩
      · dsimp only
        rcases invariant.current with isNull | ⟨address, isIn, isBlock⟩
        · rw [isNull]
          exact Or.inl rfl
        · rw [isBlock]
          dsimp only
          split
          next => exact Or.inl rfl
          next isKept =>
            refine Or.inr ⟨address, List.mem_filter.mpr ⟨isIn, ?_⟩, rfl⟩
            rw [Bool.not_eq_true', ← Bool.not_eq_true]
            exact fun isEmpty => isKept ⟨isIn, isEmpty⟩
      · intro address isKept
        exact invariant.blocks address (List.mem_of_mem_filter isKept)
      · intro address isGone
        by_cases isIn : address ∈ pool.tokenBlocks
        · have isEmpty : (pool.block address).usedCount = 0 := by
            by_contra isUsed
            apply isGone
            refine List.mem_filter.mpr ⟨isIn, ?_⟩
            rw [Bool.not_eq_true']
            exact beq_eq_false_iff_ne.mpr isUsed
          rw [(invariant.blocks address isIn).counted] at isEmpty
          exact List.length_eq_zero_iff.mp isEmpty
        · exact invariant.destroyed address isIn

theorem place (invariant : PoolInvariant pool) {block : Block} (isIn : token.1 ∈ pool.tokenBlocks)
    (changed : BlockInvariant token.1
      { block with
        slot := Function.update block.slot token.2 ⟨.block token.1, .null, .null, .null⟩ }
      (token.2 :: pool.live token.1)) :
    PoolInvariant (pool.place token block) :=
  (invariant.replace isIn changed).cache (Or.inr ⟨token.1, isIn, rfl⟩)

private theorem cached (invariant : PoolInvariant pool) : ∃ cached, pool.cached = some cached ∧
      ∀ address ∈ cached, address ∈ pool.tokenBlocks := by
  rw [Pool.cached]
  rcases invariant.current with isNull | ⟨address, isIn, isBlock⟩
  · rw [isNull]
    exact ⟨[], rfl, nofun⟩
  · rw [isBlock]
    exact ⟨[address], rfl, List.forall_mem_singleton.mpr isIn⟩

/-- The slots of a search are found without an access to other memory. -/
theorem findSlot (invariant : PoolInvariant pool) {addresses : List Nat}
    (areIn : ∀ address ∈ addresses, address ∈ pool.tokenBlocks) :
    ∃ found, pool.findSlot addresses = some found ∧ ∀ token block, found = some (token, block) →
        PoolInvariant (pool.place token block) := by
  induction addresses with
  | nil => exact ⟨none, rfl, nofun⟩
  | cons address addresses ih =>
    rw [List.forall_mem_cons] at areIn
    rw [Pool.findSlot, Pool.memoryBlockIsFull, if_pos areIn.1,
      Option.bind_eq_bind, Option.bind_some]
    split
    · exact ih areIn.2
    · rcases (invariant.blocks address areIn.1).allocSlot
        ⟨.block address, .null, .null, .null⟩ rfl with
        isFull | ⟨index, taken, isTaken, changed⟩
      · rw [isFull]
        exact ih areIn.2
      · rw [isTaken]
        refine ⟨some ((address, index), taken), rfl, ?_⟩
        intro token block isFound
        cases isFound
        exact invariant.place areIn.1 changed

theorem addBlock (invariant : PoolInvariant pool) (isCreated : pool.created)
    {address : Nat} (isNew : address ∉ pool.tokenBlocks) {block : Block}
    (isFree : BlockInvariant address block []) :
    PoolInvariant (pool.addBlock address block) where
  created notCreated := absurd (isCreated.symm.trans notCreated) nofun
  nodup := List.nodup_cons.mpr ⟨isNew, invariant.nodup⟩
  current := Or.inr ⟨address, List.mem_cons_self, rfl⟩
  blocks := by
    refine List.forall_mem_cons.mpr ⟨?_, fun other isIn => ?_⟩
    · dsimp only [Pool.addBlock, Pool.setBlock]
      rw [Function.update_self, invariant.destroyed address isNew]
      exact isFree
    · dsimp only [Pool.addBlock, Pool.setBlock]
      rw [Function.update_of_ne (ne_of_mem_of_not_mem isIn isNew)]
      exact invariant.blocks other isIn
  destroyed other isGone := invariant.destroyed other (List.not_mem_of_not_mem_cons isGone)

theorem jsonTokenAlloc (invariant : PoolInvariant pool) (mallocs : Mallocs)
    (isNew : ∀ address memory, mallocs.block = some (address, memory) →
      address ∉ pool.tokenBlocks) :
    ∃ result, pool.jsonTokenAlloc mallocs = some result ∧ PoolInvariant result.2 := by
  rw [Pool.jsonTokenAlloc]
  split
  · exact ⟨(none, pool), rfl, invariant⟩
  · have made : PoolInvariant { pool with created := true } :=
      ⟨nofun, invariant.nodup, invariant.current, invariant.blocks, invariant.destroyed⟩
    obtain ⟨cached, isCached, areIn⟩ := invariant.cached
    obtain ⟨found, isFound, placed⟩ := made.findSlot
      (List.forall_mem_append.mpr ⟨areIn, fun _ isIn => isIn⟩)
    rw [Option.bind_eq_bind, isCached, Option.bind_some, isFound,
      Option.bind_eq_bind, Option.bind_some]
    cases found with
    | some taken => exact ⟨_, rfl, placed taken.1 taken.2 rfl⟩
    | none =>
      cases isBlock : mallocs.block with
      | none => exact ⟨_, rfl, made⟩
      | some memory =>
        have isFree := BlockInvariant.create memory.1 memory.2 (by decide : 0 < tokensPerBlock)
        have notIn := isNew memory.1 memory.2 isBlock
        have added := made.addBlock rfl notIn isFree
        rcases isFree.allocSlot ⟨.block memory.1, .null, .null, .null⟩
          rfl with isFull | ⟨index, taken, isTaken, changed⟩
        · dsimp only
          rw [isFull]
          exact ⟨_, rfl, added⟩
        · dsimp only
          rw [isTaken]
          refine ⟨_, rfl, added.place List.mem_cons_self ?_⟩
          have noTokens := invariant.destroyed memory.1 notIn
          rw [← noTokens] at changed
          exact changed

/-- A sweep does not mend a cached slot. -/
theorem not_destroyEmptyBlocks {address index : Nat} (isSlot : pool.current = .slot address index) :
    ¬ PoolInvariant pool.destroyEmptyBlocks := by
  intro invariant
  have isSame : pool.destroyEmptyBlocks.current = .slot address index := by
    rw [Pool.destroyEmptyBlocks]
    split
    · exact isSlot
    · split
      · exact isSlot
      · dsimp only
        rw [isSlot]
  have isBlock := invariant.current
  rw [isSame] at isBlock
  rcases isBlock with isNull | ⟨other, -, isOther⟩
  · cases isNull
  · cases isOther

theorem jsonTokenFree_iff (invariant : PoolInvariant pool) (isLive : token.2 ∈ pool.live token.1) :
    (∃ next, pool.jsonTokenFree token = some next ∧ PoolInvariant next) ↔
      ReadsFull pool (.free token) := by
  have isIn := invariant.mem_tokenBlocks isLive
  have isCreated : pool.created ≠ false := by
    intro notCreated
    rw [invariant.created notCreated] at isIn
    cases isIn
  have freed := invariant.released isLive { pool.slotAt token with
    block := (pool.block token.1).freeList } rfl
  obtain ⟨indices, chain, -, isFree⟩ := (invariant.blockOf isLive).free
  rw [Pool.jsonTokenFree, if_neg isCreated, if_neg (not_not.mpr isIn),
    Pool.slotAt, ((invariant.blockOf isLive).owned token.2 isLive).2]
  dsimp only
  rw [if_pos isIn, memoryBlockFreeSlot_own, slotAt_released_self, ReadsFull]
  dsimp only
  cases indices with
  | nil =>
    have isNull : (pool.block token.1).freeList = .null := chain
    rw [isNull] at freed ⊢
    exact iff_of_true ⟨_, rfl, (freed.cache (Or.inl rfl)).destroyEmptyBlocks⟩
      trivial
  | cons index rest =>
    have differs : (token.1, index) ≠ token := by
      intro isSame
      apply ((isFree index).mp List.mem_cons_self).2
      rwa [← isSame] at isLive
    rw [chain.1] at freed ⊢
    dsimp only
    rw [Pool.memoryBlockIsFull, tokenBlocks_released, if_pos isIn,
      slotAt_released differs, Option.bind_eq_bind, Option.bind_some]
    by_cases readsFull : (pool.slotAt (token.1, index)).lastSibling =
        (pool.slotAt (token.1, index)).sibling
    · refine iff_of_true ⟨_, rfl, ?_⟩ readsFull
      rw [if_pos (decide_eq_true readsFull)]
      exact freed.destroyEmptyBlocks
    · refine iff_of_false ?_ readsFull
      intro kept
      obtain ⟨next, isNext, holds⟩ := kept
      rw [if_neg (by simp only [readsFull, decide_false, Bool.false_eq_true,
        not_false_eq_true])] at isNext
      rw [← Option.some.inj isNext] at holds
      exact not_destroyEmptyBlocks rfl holds

/-- There are no more tokens than slots. -/
theorem length_le_slots (invariant : PoolInvariant pool)
    {tokens : List Token} (nodup : tokens.Nodup)
    (areLive : ∀ token ∈ tokens, token.2 ∈ pool.live token.1) :
    tokens.length ≤ pool.slots := by
  have areSlots : tokens ⊆ pool.tokenBlocks.flatMap fun address =>
      (List.range (pool.block address).capacity).map (Prod.mk address) := by
    intro token isIn
    have isLive := areLive token isIn
    rw [List.mem_flatMap]
    refine ⟨token.1, invariant.mem_tokenBlocks isLive, ?_⟩
    rw [List.mem_map]
    exact ⟨token.2, List.mem_range.mpr ((invariant.blockOf isLive).owned token.2 isLive).1, rfl⟩
  have isShort := (List.subperm_of_subset nodup areSlots).length_le
  rw [List.length_flatMap] at isShort
  simpa only [List.length_map, List.length_range, Pool.slots] using isShort

end PoolInvariant

/-- A tree depends on its tokens only. -/
theorem TreeAt.congr {other : Pool} {word : Word} {tokens : List Token}
    (tree : TreeAt pool word tokens)
    (same : ∀ token ∈ tokens, other.slotAt token = pool.slotAt token) :
    TreeAt other word tokens := by
  induction tree with
  | null => exact .null
  | node below beside ihBelow ihBeside =>
    rw [List.forall_mem_cons, List.forall_mem_append] at same
    have children := ihBelow same.2.1
    have siblings := ihBeside same.2.2
    rw [← same.1] at children siblings
    exact .node children siblings

/-- A token of a tree is freed before those below and beside it. -/
theorem freeTokenTree_succ (invariant : PoolInvariant pool)
    (isLive : token.2 ∈ pool.live token.1) (calls : Nat) :
    Pool.freeTokenTree (calls + 1) token.address pool =
      (Pool.freeTokenTree calls (pool.slotAt token).child (pool.released token
          ⟨(pool.block token.1).freeList, .null, .null, .null⟩)).bind
        fun below =>
          Pool.freeTokenTree calls (pool.slotAt token).sibling below := by
  have isIn := invariant.mem_tokenBlocks isLive
  have owned : (pool.slotAt token).block = .block token.1 :=
    ((invariant.blockOf isLive).owned token.2 isLive).2
  obtain ⟨address, index⟩ := token
  rw [Token.address, Pool.freeTokenTree, if_neg (not_not.mpr isIn)]
  dsimp only at isIn owned ⊢
  rw [owned]
  dsimp only
  rw [if_pos isIn]
  exact congrArg (fun freed => (Pool.freeTokenTree calls
    (pool.slotAt (address, index)).child freed).bind fun below =>
      Pool.freeTokenTree calls (pool.slotAt (address, index)).sibling below)
    (setSlot_memoryBlockFreeSlot_own pool (address, index) _)

/-- Freeing a tree frees its tokens, and ends. -/
theorem freeTokenTree_spec {calls : Nat} {word : Word} {tokens : List Token}
    (invariant : PoolInvariant pool) (tree : TreeAt pool word tokens) (nodup : tokens.Nodup)
    (areLive : ∀ token ∈ tokens, token.2 ∈ pool.live token.1)
    (enough : tokens.length < calls) :
    ∃ left, Pool.freeTokenTree calls word pool = some left ∧
      PoolInvariant left ∧ Keeps tokens pool left := by
  -- The calls inside one another are at most as many as the tokens.
  induction calls generalizing pool word tokens with
  | zero => cases enough
  | succ calls ih =>
    cases tree with
    | null => exact ⟨pool, rfl, invariant, fun _ _ => ⟨rfl, id⟩⟩
    | @node token children siblings below beside =>
      rw [List.forall_mem_cons, List.forall_mem_append] at areLive
      rw [List.nodup_cons] at nodup
      rw [List.length_cons, List.length_append] at enough
      obtain ⟨nodupBelow, nodupBeside, disjoint⟩ := List.nodup_append.mp nodup.2
      have first := invariant.released areLive.1
        ⟨(pool.block token.1).freeList, .null, .null, .null⟩ rfl
      have keepsFirst := keeps_released pool token
        ⟨(pool.block token.1).freeList, .null, .null, .null⟩
      have notFirst : ∀ other ∈ children, other ∉ [token] := by
        intro other isBelow isToken
        rw [List.mem_singleton.mp isToken] at isBelow
        exact nodup.1 (List.mem_append_left siblings isBelow)
      obtain ⟨second, isSecond, holdsSecond, keepsSecond⟩ := ih first
        (below.congr fun other isBelow =>
          (keepsFirst other (notFirst other isBelow)).1) nodupBelow
        (fun other isBelow => (keepsFirst other
          (notFirst other isBelow)).2 (areLive.2.1 other isBelow))
        (by omega)
      have keepsBoth := keepsFirst.trans keepsSecond
      have notBoth : ∀ other ∈ siblings, other ∉ [token] ++ children := by
        intro other isBeside isFreed
        rcases List.mem_cons.mp isFreed with isToken | isBelow
        · rw [isToken] at isBeside
          exact nodup.1 (List.mem_append_right children isBeside)
        · exact disjoint other isBelow other isBeside rfl
      obtain ⟨third, isThird, holdsThird, keepsThird⟩ := ih holdsSecond
        (beside.congr fun other isBeside =>
          (keepsBoth other (notBoth other isBeside)).1) nodupBeside
        (fun other isBeside => (keepsBoth other
          (notBoth other isBeside)).2 (areLive.2.2 other isBeside))
        (by omega)
      refine ⟨third, ?_, holdsThird, keepsBoth.trans keepsThird⟩
      rw [freeTokenTree_succ invariant areLive.1, isSecond, Option.bind_some, isThird]

end Operations

/-- An allowed operation keeps the invariant exactly when a freed token's next
free slot, if any, reads as a full block. -/
theorem perform_invariant_iff {pool : Pool} {action : Action}
    (invariant : PoolInvariant pool) (allowed : Allowed pool action) :
    (∃ next, tokenPool.perform pool action = some next ∧
      PoolInvariant next) ↔ ReadsFull pool action := by
  cases action with
  | alloc mallocs =>
    obtain ⟨result, isResult, holds⟩ := invariant.jsonTokenAlloc mallocs allowed
    exact iff_of_true ⟨result.2, congrArg (Option.map Prod.snd) isResult, holds⟩ trivial
  | link token child sibling lastSibling =>
    exact iff_of_true ⟨_, rfl, invariant.link allowed _ rfl⟩ trivial
  | free token => exact invariant.jsonTokenFree_iff allowed
  | freeTree token =>
    obtain ⟨tokens, tree, nodup, areLive⟩ := allowed
    obtain ⟨left, isLeft, holds, -⟩ := freeTokenTree_spec invariant tree nodup areLive
      (Nat.lt_succ_of_le (invariant.length_le_slots nodup areLive))
    exact iff_of_true ⟨left, isLeft, holds⟩ trivial
  | sweep =>
    exact iff_of_true ⟨_, rfl, invariant.destroyEmptyBlocks⟩ trivial

private theorem unused_invariant (memory : Nat → Block) : PoolInvariant (Pool.unused memory) :=
  ⟨fun _ => rfl, List.nodup_nil, Or.inl rfl, nofun, fun _ _ => rfl⟩

/-- In all states of a run the pool is sound exactly when every token that
`json_token_free` frees is the only free slot of its block, or comes before
one that reads as a full block. -/
theorem tokenPool_invariant_iff (memory : Nat → Block) (actions : List Action)
    (areAllowed : tokenPool.Meets Allowed (Pool.unused memory) actions) :
    (∀ front, front <+: actions →
      ∃ reached, tokenPool.exec (Pool.unused memory) front = some reached ∧ PoolInvariant reached) ↔
      tokenPool.Meets ReadsFull (Pool.unused memory) actions :=
  tokenPool.exec_invariant_iff perform_invariant_iff (unused_invariant memory) areAllowed

def zeros : Nat → Slot := fun _ => ⟨.null, .null, .null, .null⟩

def someMemory : Mallocs := ⟨true, some (0, zeros)⟩

theorem tokenPool_invariant_zeros :
    tokenPool.Meets Allowed (Pool.unused fun _ => ⟨zeros, .null, 0, 0⟩)
      [.alloc someMemory, .free (0, 0)] ∧
    ∀ front, front <+: [.alloc someMemory, .free (0, 0)] → ∃ reached,
        tokenPool.exec (Pool.unused fun _ => ⟨zeros, .null, 0, 0⟩) front = some reached ∧
        PoolInvariant reached := by
  have areAllowed : tokenPool.Meets Allowed (Pool.unused fun _ => ⟨zeros, .null, 0, 0⟩)
      [.alloc someMemory, .free (0, 0)] := by
    refine ⟨fun _ _ _ => List.not_mem_nil, fun next isNext => ?_⟩
    cases isNext
    refine ⟨List.mem_cons_self, fun next isNext => ?_⟩
    cases isNext
    trivial
  refine ⟨areAllowed, (tokenPool_invariant_iff _ _ areAllowed).mpr ?_⟩
  refine ⟨trivial, fun next isNext => ?_⟩
  cases isNext
  refine ⟨rfl, fun next isNext => ?_⟩
  cases isNext
  trivial

/-- An array with one element is freed, and then the token before it. -/
def freedArray : List Action :=
  [.alloc someMemory, .alloc ⟨true, none⟩, .alloc ⟨true, none⟩,
    .link (0, 1) (.slot 0 2) .null (.slot 0 2), .free (0, 1), .free (0, 0)]

/-- The slot of the array, which reads as a block that is not full, is
cached. -/
theorem cached_slot : tokenPool.Meets Allowed (Pool.unused fun _ => ⟨zeros, .null, 0, 0⟩)
      freedArray ∧
    ∃ reached, tokenPool.exec (Pool.unused fun _ => ⟨zeros, .null, 0, 0⟩) freedArray =
        some reached ∧
      reached.current = .slot 0 1 ∧ ¬ PoolInvariant reached := by
  constructor
  · refine ⟨fun _ _ _ => List.not_mem_nil, fun next isNext => ?_⟩
    cases isNext
    refine ⟨nofun, fun next isNext => ?_⟩
    cases isNext
    refine ⟨nofun, fun next isNext => ?_⟩
    cases isNext
    refine ⟨List.mem_cons_of_mem 2 List.mem_cons_self, fun next isNext => ?_⟩
    cases isNext
    refine ⟨List.mem_cons_of_mem 2 List.mem_cons_self, fun next isNext => ?_⟩
    cases isNext
    refine ⟨List.mem_cons_of_mem 2 List.mem_cons_self, fun next isNext => ?_⟩
    cases isNext
    trivial
  · refine ⟨_, rfl, rfl, fun invariant => ?_⟩
    rcases invariant.current with isNull | ⟨address, -, isBlock⟩
    · cases isNull
    · cases isBlock

end CWebFramework.Json.TokenPool
