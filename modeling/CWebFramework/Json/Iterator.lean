import CWebFramework.Json.Document

/-!
# Erasing while iterating

The iterator of `misc/json.c` and `json_it_erase`.  The iterator already stands
at the next token when `json_it_erase` returns, and `json_next_it` leaves that
token behind: a loop over a container visits all of its elements only if none
but the last is erased.
-/

namespace CWebFramework.Json

open Forest

variable {Number : Type}

/-! ## Taking tokens out -/

/-- What the loop of `json_array_erase` finds. -/
structure Erased where
  findIndex : Bool
  start : Option Nat
  stop : Int
  token : Option Nat

def arrayEraseLoop (index count : Int) : Option Nat → Erased → List Nat → Erased
  | _, state, [] => { state with token := none }
  | previous, state, token :: rest =>
    if state.stop = index then
      arrayEraseLoop index count (some token)
        { state with
          findIndex := true
          start := previous.or state.start
          stop := state.stop + 1 } rest
    else if state.findIndex && count == state.stop - index then
      { state with token := some token }
    else
      arrayEraseLoop index count (some token)
        { state with stop := state.stop + 1 } rest

def jsonArrayErase (tokens : Tokens Number) (array : Nat) (index count : Int) : Tokens Number :=
  if (tokens.node array).child = none then tokens
  else if count = 0 then tokens
  else if index < 0 ∨ ((tokens.node array).size : Int) ≤ index then tokens
  else
    let erased := arrayEraseLoop index count none ⟨false, none, 0, none⟩ (tokens.children array)
    if !erased.findIndex then tokens
    else
      tokens.unlink array erased.start erased.token fun node =>
        { node with size := node.size - (erased.stop - index).toNat }

/-- The loop of `json_object_remove`: the token with the key and the one before
it. -/
def removeLoop (tokens : Tokens Number) (key : Bytes) :
    Option Nat → List Nat → Option (Option Nat × Nat)
  | _, [] => none
  | previous, token :: rest =>
    if hasKey tokens key token then some (previous, token)
    else removeLoop tokens key (some token) rest

def jsonObjectRemove (tokens : Tokens Number) (object : Nat) (key : Bytes) : Tokens Number :=
  match removeLoop tokens key none (tokens.children object) with
  | none => tokens
  | some (previous, token) =>
    tokens.unlink object previous (tokens.node token).sibling fun node =>
      { node with
        lastSibling :=
          if node.lastSibling = some token then previous
          else node.lastSibling
        size := node.size - 1 }

/-! ## The iterator -/

structure It (Number : Type) where
  ok : Bool
  index : Int
  type : Kind Number
  key : Option Nat
  value : Option Nat
  parent : Nat

def valueAt (tokens : Tokens Number) (type : Kind Number) (token : Nat) : Option Nat :=
  match type with
  | .object => (tokens.node token).child
  | .array => some token
  | _ => none

def jsonInitIt (tokens : Tokens Number) (token : Nat) : It Number where
  ok := (tokens.node token).data.isContainer
  index := 0
  type := (tokens.node token).data
  key := (tokens.node token).child
  value := (tokens.node token).child.bind (valueAt tokens (tokens.node token).data)
  parent := token

def jsonEndIt (tokens : Tokens Number) (it : It Number) : Bool :=
  it.index == ((tokens.node it.parent).size : Int)

/-- `json_next_it`; `none` if it goes through a `NULL` key. -/
def jsonNextIt (tokens : Tokens Number) (it : It Number) : Option (It Number) :=
  let it := { it with index := it.index + 1 }
  if jsonEndIt tokens it then some { it with ok := false, value := none }
  else
    it.key.map fun key =>
      match (tokens.node key).sibling with
      | none => { it with key := none, ok := false, value := none }
      | some next =>
        { it with key := some next, value := valueAt tokens it.type next }

def jsonString (tokens : Tokens Number) (token : Nat) : Option Bytes :=
  match (tokens.node token).data with
  | .string text => some text
  | _ => none

def eraseAt (tokens : Tokens Number) (it : It Number) (key : Nat) : Tokens Number :=
  match it.type with
  | .object =>
    match jsonString tokens key with
    | none => tokens
    | some text => jsonObjectRemove tokens it.parent text
  | .array => jsonArrayErase tokens it.parent it.index 1
  | _ => tokens

/-- `json_it_erase` at a token of a container. -/
def jsonItErase (tokens : Tokens Number) (it : It Number) (key : Nat) : Tokens Number × It Number :=
  let next := (tokens.node key).sibling
  let erased := eraseAt tokens it key
  (erased, { it with
    index := it.index - 1
    key := next
    value := next.bind (valueAt erased it.type) })

/-- A loop over a container that erases the chosen elements: the tokens at which
the iterator stood, and the tokens in the end. -/
def sweep (chosen : Nat → Bool) :
    Nat → Tokens Number → It Number → Option (List (Option Nat) × Tokens Number)
  | 0, _, _ => none
  | rounds + 1, tokens, it =>
    if jsonEndIt tokens it then some ([], tokens)
    else
      let erased :=
        match it.key.filter chosen with
        | none => (tokens, it)
        | some key => jsonItErase tokens it key
      (jsonNextIt erased.1 erased.2).bind fun next =>
        (sweep chosen rounds erased.1 next).map fun result =>
          (it.key :: result.1, result.2)

/-! ## A token is taken out -/

variable {tokens : Tokens Number} {owner key removed : Nat}
  {front back : List Nat} {chosen : Nat → Bool}

/-- The loop reaches the index. -/
theorem arrayEraseLoop_before (index count position : Int)
    (previous : Option Nat) (front rest : List Nat)
    (isIndex : position + front.length = index) :
    arrayEraseLoop index count previous ⟨false, none, position, none⟩ (front ++ rest) =
      arrayEraseLoop index count (front.getLast?.or previous) ⟨false, none, index, none⟩ rest := by
  induction front generalizing position previous with
  | nil =>
    rw [List.length_nil, Int.natCast_zero, Int.add_zero] at isIndex
    rw [isIndex]
    rfl
  | cons first front ih =>
    rw [List.length_cons, Int.natCast_add, Int.natCast_one] at isIndex
    rw [List.cons_append, arrayEraseLoop, if_neg (by dsimp only; omega),
      Bool.false_and, if_neg Bool.false_ne_true,
      ih (position + 1) (some first) (by omega)]
    have same : (first :: front).getLast?.or previous = front.getLast?.or (some first) := by
      rw [List.getLast?_cons, Option.some_or]
      cases front.getLast? <;> rfl
    rw [same]

/-- One token is erased. -/
theorem jsonArrayErase_eq (owns : tokens.Owns owner (front ++ removed :: back)) :
    jsonArrayErase tokens owner front.length 1 =
      tokens.unlink owner front.getLast? back.head? fun node =>
        { node with size := node.size - 1 } := by
  have hasChild : (tokens.node owner).child ≠ none := by
    rw [owns.chain.start_eq]
    simp
  have within : ¬((front.length : Int) < 0 ∨ ((tokens.node owner).size : Int) ≤ front.length) := by
    rw [owns.size, List.length_append, List.length_cons]
    omega
  have loop : arrayEraseLoop front.length 1 none ⟨false, none, 0, none⟩ (front ++ removed :: back) =
        ⟨true, front.getLast?, front.length + 1, back.head?⟩ := by
    rw [arrayEraseLoop_before _ _ _ _ _ _ (Int.zero_add _), arrayEraseLoop,
      if_pos rfl, Option.or_none, Option.or_none]
    cases back with
    | nil => rfl
    | cons next back =>
      have counted : ((1 : Int) == front.length + 1 - front.length) =
          true := by
        rw [beq_iff_eq]
        omega
      rw [arrayEraseLoop, if_neg (by dsimp only; omega)]
      dsimp only
      rw [counted, Bool.true_and, if_pos rfl]
      rfl
  have one : ((front.length : Int) + 1 - front.length).toNat = 1 := by omega
  rw [jsonArrayErase, if_neg hasChild, if_neg Int.one_ne_zero, if_neg within,
    owns.children_eq, loop]
  dsimp only
  rw [Bool.not_true, if_neg Bool.false_ne_true, one]

private theorem removeLoop_eq {text : Bytes} (previous : Option Nat)
    (isKey : hasKey tokens text removed = true)
    (before : ∀ token ∈ front, hasKey tokens text token = false) :
    removeLoop tokens text previous (front ++ removed :: back) =
      some (front.getLast?.or previous, removed) := by
  induction front generalizing previous with
  | nil => rw [List.nil_append, removeLoop, if_pos isKey]; rfl
  | cons first front ih =>
    rw [List.forall_mem_cons] at before
    rw [List.cons_append, removeLoop, before.1, if_neg Bool.false_ne_true,
      ih _ before.2, List.getLast?_cons]
    cases front.getLast? <;> rfl

/-- The first token with the key is removed. -/
theorem jsonObjectRemove_owns {text : Bytes} (owns : tokens.Owns owner (front ++ removed :: back))
    (isKey : hasKey tokens text removed = true)
    (before : ∀ token ∈ front, hasKey tokens text token = false) :
    (jsonObjectRemove tokens owner text).Owns owner (front ++ back) ∧
    ∀ address ∈ removed :: back, (jsonObjectRemove tokens owner text).node address =
        tokens.node address := by
  rw [jsonObjectRemove, owns.children_eq, removeLoop_eq none isKey before]
  dsimp only
  rw [owns.chain.sibling_eq, Option.or_none]
  exact owns.unlink (fun _ => rfl) (fun _ => rfl)

/-- Another token has the key of a token. -/
def sameKey (tokens : Tokens Number) (key other : Nat) : Bool :=
  (jsonString tokens key).any fun text => hasKey tokens text other

theorem sameKey_self (named : jsonString tokens key ≠ none) : sameKey tokens key key = true := by
  obtain ⟨text, isText⟩ := Option.ne_none_iff_exists'.mp named
  rw [sameKey, isText, Option.any_some, hasKey]
  rw [jsonString] at isText
  split at isText
  · cases isText
    simp only [*, beq_self_eq_true]
  · cases isText

/-- The containers that the iterator goes through. -/
structure Holds (tokens : Tokens Number) (owner : Nat) (members : List Nat) : Prop where
  owns : tokens.Owns owner members
  container : (tokens.node owner).data.isContainer = true
  named : (tokens.node owner).data = .object → ∀ member ∈ members, jsonString tokens member ≠ none

def standing (tokens : Tokens Number) (owner position : Nat) (key : Option Nat) : It Number where
  ok := true
  index := position
  type := (tokens.node owner).data
  key := key
  value := key.bind (valueAt tokens (tokens.node owner).data)
  parent := owner

theorem Holds.type_eq {members : List Nat} (holds : Holds tokens owner members) :
    (tokens.node owner).data = .object ∨ (tokens.node owner).data = .array := by
  have container := holds.container
  revert container
  cases (tokens.node owner).data <;> simp [Kind.isContainer]

/-- In an object the first token with the key of the token is taken out. -/
theorem eraseAt_object (isObject : (tokens.node owner).data = .object)
    (owns : tokens.Owns owner (front ++ removed :: back)) (same : sameKey tokens key removed = true)
    (before : ∀ token ∈ front, sameKey tokens key token = false)
    (position : Nat) (link : Option Nat) :
    (eraseAt tokens (standing tokens owner position link) key).Owns owner (front ++ back) ∧
    ∀ address ∈ removed :: back,
      (eraseAt tokens (standing tokens owner position link) key).node address =
        tokens.node address := by
  simp only [sameKey] at same before
  rw [eraseAt, standing, isObject]
  dsimp only
  cases isText : jsonString tokens key with
  | none =>
    rw [isText, Option.any_none] at same
    cases same
  | some text =>
    simp only [isText, Option.any_some] at same before
    exact jsonObjectRemove_owns owns same before

/-- The token of the iterator is taken out, if no earlier one has its key. -/
theorem eraseAt_alone (holds : Holds tokens owner (front ++ key :: back))
    (alone : (tokens.node owner).data = .object →
      ∀ token ∈ front, sameKey tokens key token = false) (link : Option Nat) :
    (eraseAt tokens (standing tokens owner front.length link) key).Owns owner (front ++ back) ∧
    ∀ address ∈ key :: back, (eraseAt tokens (standing tokens owner front.length link) key).node
        address = tokens.node address := by
  rcases holds.type_eq with isObject | isArray
  · have named := holds.named isObject key (by simp)
    exact eraseAt_object isObject holds.owns (sameKey_self named) (alone isObject) _ _
  · rw [eraseAt, standing, isArray]
    dsimp only
    rw [jsonArrayErase_eq holds.owns]
    exact holds.owns.unlink (fun _ => rfl) (fun _ => rfl)

/-- The first element of a list with a property. -/
theorem exists_first {property : Nat → Bool} {address : Nat}
    {addresses : List Nat} (isIn : address ∈ addresses)
    (has : property address = true) :
    ∃ start first rest, addresses = start ++ first :: rest ∧
      property first = true ∧ ∀ other ∈ start, property other = false := by
  have found : (addresses.find? property).isSome = true := by
    rw [List.find?_isSome]
    exact ⟨address, isIn, has⟩
  obtain ⟨first, isFirst⟩ := Option.isSome_iff_exists.mp found
  obtain ⟨hasFirst, start, rest, parts, before⟩ := List.find?_eq_some_iff_append.mp isFirst
  refine ⟨start, first, rest, parts, hasFirst, fun other isOther => ?_⟩
  have without := before other isOther
  rwa [Bool.not_eq_true'] at without

/-- An earlier token with the same key is taken out instead. -/
theorem eraseAt_twin (holds : Holds tokens owner (front ++ key :: back))
    (isObject : (tokens.node owner).data = .object) {twin : Nat}
    (isIn : twin ∈ front) (same : sameKey tokens key twin = true)
    (link : Option Nat) :
    (∃ shorter, shorter.length + 1 = front.length ∧
      (eraseAt tokens (standing tokens owner front.length link) key).Owns owner
        (shorter ++ key :: back)) ∧
    ∀ address ∈ key :: back, (eraseAt tokens (standing tokens owner front.length link) key).node
        address = tokens.node address := by
  obtain ⟨start, first, middle, isFront, firstSame, before⟩ := exists_first isIn same
  have owns := holds.owns
  rw [isFront, List.append_assoc, List.cons_append] at owns
  have erased := eraseAt_object isObject owns firstSame before front.length link
  refine ⟨⟨start ++ middle, ?_, ?_⟩, fun address isIn => ?_⟩
  · rw [isFront]
    simp only [List.length_append, List.length_cons]
    omega
  · rw [List.append_assoc]
    exact erased.1
  · exact erased.2 address (List.mem_cons_of_mem _ (List.mem_append_right _ isIn))

/-- One token is taken out, and the links from the iterator on stay. -/
theorem eraseAt_links (holds : Holds tokens owner (front ++ key :: back)) (link : Option Nat) :
    ((eraseAt tokens (standing tokens owner front.length link) key).node
        owner).size = front.length + back.length ∧
    ∀ address ∈ key :: back, (eraseAt tokens (standing tokens owner front.length link) key).node
        address = tokens.node address := by
  by_cases alone : (tokens.node owner).data = .object →
      ∀ token ∈ front, sameKey tokens key token = false
  · have erased := eraseAt_alone holds alone link
    exact ⟨erased.1.size.trans List.length_append, erased.2⟩
  · simp only [Classical.not_imp, not_forall, Bool.not_eq_false] at alone
    obtain ⟨isObject, twin, isIn, same⟩ := alone
    obtain ⟨⟨shorter, length, owns⟩, links⟩ := eraseAt_twin holds isObject isIn same link
    refine ⟨?_, links⟩
    rw [owns.size, List.length_append, List.length_cons]
    omega

/-! ## The loop -/

variable {members : List Nat} {next : Nat}

theorem jsonInitIt_eq (holds : Holds tokens owner members) :
    jsonInitIt tokens owner = standing tokens owner 0 members.head? := by
  rw [jsonInitIt, standing, holds.container, holds.owns.chain.start_eq]
  rfl

theorem jsonEndIt_standing (holds : Holds tokens owner members)
    (position : Nat) (link : Option Nat) :
    jsonEndIt tokens (standing tokens owner position link) = (position == members.length) := by
  rw [jsonEndIt, standing, holds.owns.size, Bool.eq_iff_iff, beq_iff_eq,
    beq_iff_eq, Int.natCast_inj]

/-- The result of a loop does not depend on the bound. -/
theorem sweep_add {rounds : Nat} {it : It Number} {result : List (Option Nat) × Tokens Number}
    (done : sweep chosen rounds tokens it = some result) (extra : Nat) :
    sweep chosen (rounds + extra) tokens it = some result := by
  induction rounds generalizing tokens it result with
  | zero => cases done
  | succ rounds ih =>
    rw [Nat.succ_add, sweep]
    rw [sweep] at done
    split_ifs at done ⊢
    · exact done
    · dsimp only at done ⊢
      rw [Option.bind_eq_some_iff] at done ⊢
      obtain ⟨after, isAfter, done⟩ := done
      rw [Option.map_eq_some_iff] at done
      obtain ⟨rest, isRest, isResult⟩ := done
      refine ⟨after, isAfter, ?_⟩
      rw [ih isRest, Option.map_some, isResult]

theorem sweep_kept {it : It Number} (notEnd : jsonEndIt tokens it = false)
    (isKey : it.key = some key) (kept : chosen key = false) (rounds : Nat) :
    sweep chosen (rounds + 1) tokens it = (jsonNextIt tokens it).bind fun next =>
        (sweep chosen rounds tokens next).map fun result =>
          (some key :: result.1, result.2) := by
  have notChosen : it.key.filter chosen = none := by
    rw [isKey, Option.filter_some, kept, if_neg Bool.false_ne_true]
  rw [sweep, notEnd, if_neg Bool.false_ne_true]
  dsimp only
  rw [notChosen, isKey]

theorem sweep_chosen {it : It Number} (notEnd : jsonEndIt tokens it = false)
    (isKey : it.key = some key) (isChosen : chosen key = true) (rounds : Nat) :
    sweep chosen (rounds + 1) tokens it =
      (jsonNextIt (jsonItErase tokens it key).1 (jsonItErase tokens it key).2).bind
        fun next =>
          (sweep chosen rounds (jsonItErase tokens it key).1 next).map
            fun result => (some key :: result.1, result.2) := by
  have found : it.key.filter chosen = some key := by
    rw [isKey, Option.filter_some, isChosen, if_pos rfl]
  rw [sweep, notEnd, if_neg Bool.false_ne_true]
  dsimp only
  rw [found, isKey]

theorem jsonEndIt_before (holds : Holds tokens owner (front ++ key :: back)) (link : Option Nat) :
    jsonEndIt tokens (standing tokens owner front.length link) = false := by
  rw [jsonEndIt_standing holds, beq_eq_false_iff_ne, List.length_append, List.length_cons]
  omega

/-- The iterator moves to the next token. -/
theorem jsonNextIt_standing (holds : Holds tokens owner (front ++ key :: next :: back)) :
    jsonNextIt tokens (standing tokens owner front.length (some key)) =
      some (standing tokens owner (front.length + 1) (some next)) := by
  have link : (tokens.node key).sibling = some next := holds.owns.chain.sibling_eq
  have further : Holds tokens owner ((front ++ [key]) ++ next :: back) := by
    rwa [List.append_assoc]
  have ends := jsonEndIt_before further (some key)
  rw [List.length_append, List.length_singleton, jsonEndIt, standing] at ends
  rw [jsonNextIt, jsonEndIt, standing]
  dsimp only at ends ⊢
  rw [← Int.natCast_succ, ends, if_neg Bool.false_ne_true, Option.map_some, link]
  rfl

/-- Behind the last token the loop ends. -/
theorem jsonNextIt_last (holds : Holds tokens owner (front ++ [key])) : ∃ after,
      jsonNextIt tokens (standing tokens owner front.length (some key)) =
        some after ∧ jsonEndIt tokens after = true := by
  have size := holds.owns.size
  rw [List.length_append, List.length_singleton] at size
  rw [jsonNextIt]
  simp [standing, jsonEndIt, size]

/-- A token that is not chosen and not the last one. -/
theorem sweep_pass (holds : Holds tokens owner (front ++ key :: next :: back))
    (kept : chosen key = false) (rounds : Nat) :
    sweep chosen (rounds + 1) tokens (standing tokens owner front.length (some key)) =
      (sweep chosen rounds tokens (standing tokens owner (front.length + 1) (some next))).map
          fun result => (some key :: result.1, result.2) := by
  rw [sweep_kept (jsonEndIt_before holds _) rfl kept, jsonNextIt_standing holds, Option.bind_some]

/-- The tokens in front of the first chosen one. -/
theorem sweep_passes (holds : Holds tokens owner (front ++ members ++ back))
    (kept : ∀ member ∈ members, chosen member = false) (more : back ≠ [])
    (rounds : Nat) :
    sweep chosen (members.length + rounds) tokens
        (standing tokens owner front.length (members ++ back).head?) =
      (sweep chosen rounds tokens (standing tokens owner (front.length + members.length)
          back.head?)).map
            fun result => (members.map some ++ result.1, result.2) := by
  induction members generalizing front with
  | nil =>
    rw [List.length_nil, Nat.zero_add, Nat.add_zero, List.nil_append]
    exact Option.map_id'.symm
  | cons key members ih =>
    rw [List.forall_mem_cons] at kept
    obtain ⟨next, rest, isRest⟩ : ∃ next rest, members ++ back =
        next :: rest := by
      apply List.exists_cons_of_ne_nil
      intro isNil
      exact more (List.append_eq_nil_iff.mp isNil).2
    have moved : front ++ key :: members ++ back = (front ++ [key]) ++ members ++ back := by simp
    have here : front ++ key :: members ++ back = front ++ key :: next :: rest := by
      rw [List.append_assoc, List.cons_append, isRest]
    have passed := sweep_pass (here ▸ holds) kept.1 (members.length + rounds)
    have behind := @ih (front ++ [key]) (moved ▸ holds) kept.2
    rw [List.length_append, List.length_singleton, isRest, List.head?_cons] at behind
    rw [List.length_cons, Nat.succ_add, List.cons_append, List.head?_cons,
      passed, behind, Option.map_map, Nat.add_assoc, Nat.add_comm 1]
    rfl

/-- Behind an erased token the iterator moves once more, unless it was the last
one. -/
theorem jsonNextIt_erased (holds : Holds tokens owner (front ++ key :: back)) : ∃ after, jsonNextIt
        (jsonItErase tokens (standing tokens owner front.length (some key)) key).1
        (jsonItErase tokens (standing tokens owner front.length (some key)) key).2 = some after ∧
      jsonEndIt (jsonItErase tokens (standing tokens owner front.length (some key)) key).1 after =
          back.isEmpty ∧
      (back ≠ [] → after.key = back.tail.head?) := by
  obtain ⟨size, links⟩ := eraseAt_links holds (some key)
  obtain ⟨erased, isErased⟩ : ∃ erased, erased = eraseAt tokens
      (standing tokens owner front.length (some key)) key := ⟨_, rfl⟩
  rw [← isErased] at size links
  rw [jsonItErase, ← isErased]
  dsimp only [standing]
  have index : (front.length : Int) - 1 + 1 = front.length := by omega
  rw [jsonNextIt]
  simp only [jsonEndIt, index, size]
  cases back with
  | nil => simp [size]
  | cons next back =>
    have link : (tokens.node key).sibling = some next := holds.owns.chain.sibling_eq
    have chain := holds.owns.chain
    rw [← List.singleton_append, ← List.append_assoc] at chain
    have further : (erased.node next).sibling = back.head? := by
      rw [links next (by simp)]
      exact chain.sibling_eq
    have notEnd : ¬(front.length : Int) = (front.length + (next :: back).length : Nat) := by
      rw [List.length_cons]
      omega
    rw [if_neg (by rw [beq_iff_eq]; exact notEnd), link, Option.map_some, further]
    cases back with
    | nil => simp [size]
    | cons further back =>
      simp [size]
      omega

/-- The last token. -/
theorem sweep_last (holds : Holds tokens owner (front ++ [key])) (rounds : Nat) :
    sweep chosen (rounds + 2) tokens (standing tokens owner front.length (some key)) =
      some ([some key],
        if chosen key then
          eraseAt tokens (standing tokens owner front.length (some key)) key
        else tokens) := by
  have notEnd := jsonEndIt_before holds (some key)
  cases isChosen : chosen key with
  | false =>
    obtain ⟨after, isAfter, ends⟩ := jsonNextIt_last holds
    rw [sweep_kept notEnd rfl isChosen, isAfter, Option.bind_some, sweep,
      ends, if_pos rfl, if_neg Bool.false_ne_true]
    rfl
  | true =>
    obtain ⟨after, isAfter, ends, _⟩ := jsonNextIt_erased holds
    rw [sweep_chosen notEnd rfl isChosen, isAfter, Option.bind_some, sweep,
      ends, List.isEmpty_nil, if_pos rfl, if_pos rfl]
    rfl

/-- The token behind a chosen one is not visited next. -/
theorem sweep_skips (holds : Holds tokens owner (front ++ key :: next :: back))
    (isChosen : chosen key = true) {rounds : Nat} {result : List (Option Nat) × Tokens Number}
    (done : sweep chosen rounds tokens
      (standing tokens owner front.length (some key)) = some result) :
    ∃ rest, result.1 = some key :: back.head? :: rest := by
  have notEnd := jsonEndIt_before holds (some key)
  cases rounds with
  | zero => cases done
  | succ rounds =>
    obtain ⟨after, isAfter, ends, moved⟩ := jsonNextIt_erased holds
    rw [sweep_chosen notEnd rfl isChosen, isAfter, Option.bind_some, Option.map_eq_some_iff] at done
    obtain ⟨rest, isRest, rfl⟩ := done
    cases rounds with
    | zero => cases isRest
    | succ rounds =>
      rw [sweep, ends, List.isEmpty_cons, if_neg Bool.false_ne_true] at isRest
      dsimp only at isRest
      rw [Option.bind_eq_some_iff] at isRest
      obtain ⟨_, _, isRest⟩ := isRest
      rw [Option.map_eq_some_iff] at isRest
      obtain ⟨visited, _, rfl⟩ := isRest
      refine ⟨visited.1, ?_⟩
      rw [moved (List.cons_ne_nil _ _), List.tail_cons]

/-- A loop that ends has been at every token up to the first chosen one. -/
theorem sweep_reaches (holds : Holds tokens owner (front ++ back))
    (kept : ∀ member ∈ front, chosen member = false) (more : back ≠ [])
    {rounds : Nat} {result : List (Option Nat) × Tokens Number}
    (done : sweep chosen rounds tokens
      (standing tokens owner 0 (front ++ back).head?) = some result) :
    ∃ rest, sweep chosen rounds tokens (standing tokens owner front.length back.head?) =
          some (rest, result.2) ∧
      result.1 = front.map some ++ rest := by
  have passed := @sweep_passes _ tokens owner [] back chosen front holds kept more rounds
  rw [Nat.add_comm, List.length_nil, Nat.zero_add, sweep_add done front.length] at passed
  obtain ⟨after, isAfter, rfl⟩ := Option.map_eq_some_iff.mp passed.symm
  exact ⟨after.1, isAfter, rfl⟩

/-- A chosen element that is not the last one hides the element behind it. -/
theorem sweep_incomplete {last member rounds : Nat} {result : Tokens Number}
    (holds : Holds tokens owner (front ++ [last])) (isIn : member ∈ front)
    (isChosen : chosen member = true) :
    sweep chosen rounds tokens (standing tokens owner 0 (front ++ [last]).head?) ≠
        some ((front ++ [last]).map some, result) := by
  intro done
  obtain ⟨start, first, middle, isFront, firstChosen, before⟩ := exists_first isIn isChosen
  obtain ⟨next, more, isMore⟩ := List.exists_cons_of_ne_nil
    (List.append_ne_nil_of_right_ne_nil middle (List.cons_ne_nil last []))
  have parts : front ++ [last] = start ++ first :: next :: more := by
    rw [isFront, List.append_assoc, List.cons_append, isMore]
  rw [parts] at done holds
  obtain ⟨rest, isRest, visited⟩ := sweep_reaches holds before (List.cons_ne_nil _ _) done
  obtain ⟨others, isOthers⟩ := sweep_skips holds firstChosen isRest
  dsimp only at isOthers visited
  rw [isOthers, List.map_append, List.map_cons, List.map_cons] at visited
  have same := (List.cons.inj (List.cons.inj (List.append_cancel_left visited)).2).1
  have twice : next ∈ more := List.mem_of_head? same.symm
  have distinct := (List.nodup_cons.mp holds.owns.distinct).2
  have behind := (List.nodup_append.mp distinct).2.1
  rw [List.nodup_cons, List.nodup_cons] at behind
  exact behind.2.1 twice

/-- If an earlier member has the key of the last one, then the wrong member is
left. -/
theorem sweep_twin {last member rounds : Nat} {result : List (Option Nat) × Tokens Number}
    (holds : Holds tokens owner (front ++ [last])) (kept : ∀ member ∈ front, chosen member = false)
    (isChosen : chosen last = true) (isObject : (tokens.node owner).data = .object)
    (isIn : member ∈ front) (same : sameKey tokens last member = true)
    (done : sweep chosen rounds tokens
      (standing tokens owner 0 (front ++ [last]).head?) = some result) :
    ¬result.2.Owns owner ((front ++ [last]).filter fun member => !chosen member) := by
  intro left
  obtain ⟨rest, isRest, _⟩ := sweep_reaches holds kept (List.cons_ne_nil _ _) done
  have ended := sweep_add isRest 2
  rw [List.head?_cons, sweep_last holds, isChosen, if_pos rfl] at ended
  have isResult := congrArg Prod.snd (Option.some.inj ended)
  dsimp only at isResult
  rw [← isResult] at left
  obtain ⟨⟨shorter, _, owns⟩, _⟩ := eraseAt_twin holds isObject isIn same (some last)
  have isLeft := left.chain.unique owns.chain
  have lastLeft : last ∈ (front ++ [last]).filter
      fun member => !chosen member := by
    rw [isLeft]
    exact List.mem_append_right _ (List.mem_singleton_self last)
  rw [List.mem_filter, isChosen] at lastLeft
  exact Bool.false_ne_true lastLeft.2

/-- At most the last element is chosen, and no other one has its key. -/
theorem sweep_completes {last : Nat} (holds : Holds tokens owner (front ++ [last]))
    (kept : ∀ member ∈ front, chosen member = false)
    (alone : chosen last = true → (tokens.node owner).data = .object →
      ∀ member ∈ front, sameKey tokens last member = false) :
    ∃ result, sweep chosen (front.length + 2) tokens
          (standing tokens owner 0 (front ++ [last]).head?) =
        some ((front ++ [last]).map some, result) ∧
      result.Owns owner ((front ++ [last]).filter fun member => !chosen member) := by
  have passed := @sweep_passes _ tokens owner [] [last] chosen front holds
    kept (List.cons_ne_nil _ _) 2
  rw [List.length_nil, Nat.zero_add, List.head?_cons, sweep_last holds, Option.map_some] at passed
  have visited : (front ++ [last]).map some = front.map some ++ [some last] := List.map_append
  have keptFront : front.filter (fun member => !chosen member) = front := by
    rw [List.filter_eq_self]
    intro member isIn
    rw [kept member isIn]
    rfl
  rw [List.filter_append, keptFront, visited]
  refine ⟨_, passed, ?_⟩
  rw [List.filter_singleton]
  cases isChosen : chosen last with
  | false => exact holds.owns
  | true => exact (eraseAt_alone holds (alone isChosen) (some last)).1

/-- Every element is visited, and those that are not chosen are left, if and
only if none but the last one is chosen; if the last one is chosen in an
object, then no earlier member may have its key. -/
theorem sweep_complete_iff (tokens : Tokens Number) (owner : Nat)
    (members : List Nat) (holds : Holds tokens owner members)
    (chosen : Nat → Bool) :
    (∃ rounds result, sweep chosen rounds tokens (jsonInitIt tokens owner) =
        some (members.map some, result) ∧
      result.Owns owner (members.filter fun member => !chosen member)) ↔
    ∀ front last, members = front ++ [last] → (∀ member ∈ front, chosen member = false) ∧
      (chosen last = true → (tokens.node owner).data = .object →
        ∀ member ∈ front, sameKey tokens last member = false) := by
  rw [jsonInitIt_eq holds]
  constructor
  · rintro ⟨rounds, result, done, left⟩ front last rfl
    have kept : ∀ member ∈ front, chosen member = false := by
      intro member isIn
      by_contra isChosen
      rw [Bool.not_eq_false] at isChosen
      exact sweep_incomplete holds isIn isChosen done
    refine ⟨kept, fun isChosen isObject member isIn => ?_⟩
    by_contra same
    rw [Bool.not_eq_false] at same
    exact sweep_twin holds kept isChosen isObject isIn same done left
  · intro condition
    rcases List.eq_nil_or_concat members with isNil | ⟨front, last, isMembers⟩
    · rw [isNil] at holds ⊢
      refine ⟨1, tokens, ?_, holds.owns⟩
      rw [sweep, jsonEndIt_standing holds]
      rfl
    · rw [List.concat_eq_append] at isMembers
      obtain ⟨kept, alone⟩ := condition front last isMembers
      rw [isMembers] at holds ⊢
      exact ⟨front.length + 2, sweep_completes holds kept alone⟩

def threeTokens : Tokens Nat :=
  let created := (((noTokens.alloc .array).alloc (.number 10)).alloc
    (.number 20)).alloc (.number 30)
  setChildOrSibling (setChildOrSibling (setChildOrSibling created 0 1) 0 2) 0 3

theorem threeTokens_holds : Holds threeTokens 0 [1, 2, 3] where
  owns := ⟨.cons (.cons (.cons .nil)), rfl, by decide, by decide⟩
  container := rfl
  named := nofun

theorem sweep_complete_last : ∃ rounds result,
      sweep (· == 3) rounds threeTokens (jsonInitIt threeTokens 0) =
        some ([some 1, some 2, some 3], result) ∧ result.Owns 0 [1, 2] := by
  apply (sweep_complete_iff threeTokens 0 [1, 2, 3] threeTokens_holds (· == 3)).mpr
  intro front last parts
  have isFront : front = [1, 2] := by
    have cut := congrArg List.dropLast parts
    rwa [List.dropLast_concat, eq_comm] at cut
  rw [isFront]
  exact ⟨by decide, fun _ isObject => nomatch isObject⟩

/-- The first token is erased: the second one is not visited, and at last the
iterator stands at no token. -/
theorem sweep_skips_second : (sweep (· == 1) 4 threeTokens (jsonInitIt threeTokens 0)).map
      (fun result => (result.1, result.2.children 0)) = some ([some 1, some 3, none], [2, 3]) ∧
    ¬∃ rounds result, sweep (· == 1) rounds threeTokens (jsonInitIt threeTokens 0) =
        some ([some 1, some 2, some 3], result) := by
  refine ⟨by decide, ?_⟩
  rintro ⟨rounds, result, done⟩
  rw [jsonInitIt_eq threeTokens_holds] at done
  exact @sweep_incomplete _ threeTokens 0 [1, 2] (· == 1) 3 1 rounds result
    threeTokens_holds (by decide) (by decide) done

end CWebFramework.Json
