import Mathlib.Data.List.Basic

/-!
# Forests of linked nodes

Nodes in a pool with links to their first child, their next sibling, their last
child and their parent.
-/

namespace CWebFramework.Forest

variable {α : Type}

/-- A node; `size` is its number of children if the children are counted. -/
structure Node (α : Type) where
  data : α
  child : Option Nat
  sibling : Option Nat
  lastSibling : Option Nat
  parent : Option Nat
  size : Nat
  deriving DecidableEq, Repr

def Node.single (data : α) : Node α where
  data := data
  child := none
  sibling := none
  lastSibling := none
  parent := none
  size := 0

/-- Nodes by address; the addresses from `next` on are free. -/
structure Pool (α : Type) where
  node : Nat → Node α
  next : Nat

namespace Pool

def modify (pool : Pool α) (address : Nat) (change : Node α → Node α) : Pool α where
  node := fun other =>
    if other = address then change (pool.node other) else pool.node other
  next := pool.next

def alloc (pool : Pool α) (data : α) : Pool α where
  node := fun other =>
    if other = pool.next then Node.single data else pool.node other
  next := pool.next + 1

/-- The link behind the previous child, or to the first child if there is
none, is changed. -/
def redirect (pool : Pool α) (owner : Nat) (previous target : Option Nat) : Pool α :=
  match previous with
  | none => pool.modify owner fun node => { node with child := target }
  | some address =>
    pool.modify address fun node => { node with sibling := target }

/-- A node is put behind the last child. -/
def append (counted : α → Bool) (pool : Pool α) (owner added : Nat) : Pool α :=
  let joined :=
    match (pool.node owner).child with
    | none => pool.modify owner fun node => { node with child := some added }
    | some _ =>
      match (pool.node owner).lastSibling with
      | none => pool
      | some last =>
        pool.modify last fun node => { node with sibling := some added }
  let ended := joined.modify owner fun node =>
    { node with lastSibling := some added }
  let owned := ended.modify added fun node => { node with parent := some owner }
  if counted (owned.node owner).data then
    owned.modify owner fun node => { node with size := node.size + 1 }
  else owned

end Pool

/-! ## The siblings that a loop visits -/

def siblings (node : Nat → Node α) : Nat → Option Nat → List Nat
  | 0, _ => []
  | _ + 1, none => []
  | bound + 1, some address =>
    address :: siblings node bound (node address).sibling

def Pool.children (pool : Pool α) (owner : Nat) : List Nat :=
  siblings pool.node pool.next (pool.node owner).child

/-! ## Chains -/

/-- The siblings from a link on. -/
inductive Chain (node : Nat → Node α) : Option Nat → List Nat → Prop where
  | nil : Chain node none []
  | cons {address : Nat} {rest : List Nat} (behind : Chain node (node address).sibling rest) :
      Chain node (some address) (address :: rest)

namespace Chain

variable {node other : Nat → Node α} {start target : Option Nat}
  {addresses front rest : List Nat}

/-- A chain depends on the links of its nodes only. -/
theorem congr (chain : Chain node start addresses) (same : ∀ address ∈ addresses,
      (other address).sibling = (node address).sibling) :
    Chain other start addresses := by
  induction chain with
  | nil => exact .nil
  | cons behind ih =>
    rw [List.forall_mem_cons] at same
    have rest := ih same.2
    rw [← same.1] at rest
    exact .cons rest

theorem start_eq (chain : Chain node start addresses) : start = addresses.head? := by
  cases chain <;> rfl

/-- The links from a node on determine the chain. -/
theorem unique (chain : Chain node start addresses)
    (second : Chain node start rest) : addresses = rest := by
  induction chain generalizing rest with
  | nil =>
    cases second
    rfl
  | cons behind ih =>
    cases second with
    | cons further => rw [ih further]

/-- A part of a chain is a chain. -/
theorem behind (chain : Chain node start (front ++ rest)) : Chain node rest.head? rest := by
  induction front generalizing start with
  | nil =>
    have isStart := chain.start_eq
    rw [List.nil_append] at chain isStart
    rwa [isStart] at chain
  | cons address front ih =>
    cases chain with
    | cons further => exact ih further

theorem sibling_eq {address : Nat} (chain : Chain node start (front ++ address :: rest)) :
    (node address).sibling = rest.head? := by
  cases chain.behind with
  | cons further => exact further.start_eq

/-- The links behind a node of a chain are replaced. -/
theorem splice {last : Nat} {fresh : List Nat} (chain : Chain node start (front ++ last :: rest))
    (same : ∀ address ∈ front, (other address).sibling = (node address).sibling)
    (joined : (other last).sibling = target) (tail : Chain other target fresh) :
    Chain other start (front ++ last :: fresh) := by
  induction front generalizing start with
  | nil =>
    cases chain with
    | cons behind =>
      rw [← joined] at tail
      exact .cons tail
  | cons address front ih =>
    rw [List.forall_mem_cons] at same
    cases chain with
    | cons behind =>
      have spliced := ih behind same.2
      rw [← same.1] at spliced
      exact .cons spliced

theorem siblings_eq (chain : Chain node start addresses) {bound : Nat}
    (enough : addresses.length ≤ bound) :
    siblings node bound start = addresses := by
  induction chain generalizing bound with
  | nil => cases bound <;> rfl
  | cons behind ih =>
    obtain ⟨bound, rfl⟩ := Nat.exists_eq_succ_of_ne_zero
      (Nat.ne_of_gt (Nat.lt_of_lt_of_le (Nat.succ_pos _) enough))
    rw [siblings, ih (Nat.le_of_succ_le_succ enough)]

end Chain

/-- A node with its children. -/
structure Pool.Owns (pool : Pool α) (owner : Nat) (children : List Nat) : Prop where
  chain : Chain pool.node (pool.node owner).child children
  size : (pool.node owner).size = children.length
  distinct : (owner :: children).Nodup
  bounded : children.length ≤ pool.next

namespace Pool

variable {pool : Pool α} {owner removed : Nat} {front back : List Nat}

theorem Owns.children_eq {children : List Nat}
    (owns : pool.Owns owner children) : pool.children owner = children :=
  owns.chain.siblings_eq owns.bounded

/-- A child is taken out, and its owner changed. -/
def unlink (pool : Pool α) (owner : Nat) (previous target : Option Nat)
    (change : Node α → Node α) : Pool α :=
  (pool.redirect owner previous target).modify owner change

theorem modify_other {address other : Nat} (change : Node α → Node α)
    (different : other ≠ address) :
    (pool.modify address change).node other = pool.node other :=
  if_neg different

theorem modify_self (address : Nat) (change : Node α → Node α) :
    (pool.modify address change).node address = change (pool.node address) :=
  if_pos rfl

theorem redirect_other {address : Nat} {previous : Option Nat}
    (target : Option Nat) (notOwner : address ≠ owner)
    (notPrevious : previous ≠ some address) :
    (pool.redirect owner previous target).node address =
      pool.node address := by
  cases previous with
  | none =>
    rw [redirect]
    exact modify_other _ notOwner
  | some other =>
    rw [redirect]
    exact modify_other _ fun same => notPrevious (congrArg some same.symm)

theorem redirect_size (previous target : Option Nat) (address : Nat) :
    ((pool.redirect owner previous target).node address).size = (pool.node address).size := by
  cases previous <;>
    simp only [redirect, modify, apply_ite Node.size, ite_self]

/-- The links from the child that is taken out on are not changed. -/
theorem Owns.unlink (owns : pool.Owns owner (front ++ removed :: back)) {change : Node α → Node α}
    (sameChild : ∀ node, (change node).child = node.child)
    (counts : ∀ node, (change node).size = node.size - 1) :
    (pool.unlink owner front.getLast? back.head? change).Owns owner (front ++ back) ∧
    ∀ address ∈ removed :: back, (pool.unlink owner front.getLast? back.head? change).node address =
        pool.node address := by
  obtain ⟨notOwner, distinct⟩ := List.nodup_cons.mp owns.distinct
  have apart := (List.nodup_append.mp distinct).2.2
  have same : ∀ address ∈ removed :: back,
      (pool.unlink owner front.getLast? back.head? change).node address =
        pool.node address := by
    intro address isIn
    have other : address ≠ owner := by
      rintro rfl
      exact notOwner (List.mem_append_right _ isIn)
    rw [Pool.unlink, modify_other change other]
    apply redirect_other _ other
    intro isLast
    exact apart address (List.mem_of_getLast? isLast) address isIn rfl
  have tail : Chain (pool.unlink owner front.getLast? back.head? change).node
      back.head? back := by
    have whole := owns.chain
    rw [← List.singleton_append, ← List.append_assoc] at whole
    exact whole.behind.congr fun address isIn =>
      congrArg Node.sibling (same address (List.mem_cons_of_mem _ isIn))
  have shorter : (front ++ back).Sublist (front ++ removed :: back) :=
    (List.sublist_cons_self removed back).append_left front
  refine ⟨⟨?_, ?_, owns.distinct.sublist (shorter.cons_cons owner), ?_⟩, same⟩
  · rcases List.eq_nil_or_concat front with isNil | ⟨start, last, isFront⟩
    · have child : ((pool.unlink owner none back.head? change).node owner).child = back.head? := by
        rw [Pool.unlink, modify_self, sameChild, redirect, modify_self]
      rw [isNil] at tail ⊢
      rw [List.getLast?_nil] at tail ⊢
      rw [child]
      exact tail
    · rw [List.concat_eq_append] at isFront
      have isLast : front.getLast? = some last := by
        rw [isFront, List.getLast?_concat]
      have lastOther : last ≠ owner := by
        rintro rfl
        exact notOwner (by rw [isFront]; simp)
      rw [isLast] at tail ⊢
      have chain := owns.chain
      rw [isFront, List.append_assoc, List.singleton_append] at chain
      have child : ((pool.unlink owner (some last) back.head? change).node
          owner).child = (pool.node owner).child := by
        rw [Pool.unlink, modify_self, sameChild, redirect, modify_other _ (Ne.symm lastOther)]
      rw [child, isFront, List.append_assoc, List.singleton_append]
      refine chain.splice (fun address isIn => ?_) ?_ tail
      · have other : address ≠ owner := by
          rintro rfl
          exact notOwner (by rw [isFront]; simp [isIn])
        have notLast : address ≠ last := by
          rintro rfl
          rw [isFront] at distinct
          exact (List.nodup_append.mp (List.nodup_append.mp distinct).1).2.2
            address isIn address (List.mem_singleton_self address) rfl
        rw [Pool.unlink, modify_other change other, redirect_other _ other
            fun isSame => notLast (Option.some.inj isSame).symm]
      · rw [Pool.unlink, modify_other change lastOther, redirect, modify_self]
  · rw [Pool.unlink, modify_self, counts, redirect_size, owns.size]
    simp only [List.length_append, List.length_cons]
    omega
  · have next : (pool.unlink owner front.getLast? back.head? change).next =
        pool.next := by
      rw [Pool.unlink, redirect.eq_def]
      cases front.getLast? <;> rfl
    rw [next]
    exact Nat.le_trans shorter.length_le owns.bounded

end Pool

end CWebFramework.Forest
