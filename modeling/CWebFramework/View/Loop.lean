import CWebFramework.View.Render

/-!
# Index variables of loops

Whenever an expression is evaluated, the copies of the loop tags are those of
the rounds that are open.  A key that does not fit into the buffer is cut, and
a key that occurs twice finds the first of its members.
-/

namespace CWebFramework.View

open Json

variable {Number : Type} (arithmetic : Arithmetic Number)
  {tokens : Tokens Number} {owner : Nat} {front members : List Nat}

/-! ## The rounds of a loop -/

theorem iterationsFrom_eq (holds : Holds tokens owner (front ++ members))
    {bound : Nat} (enough : members.length < bound) :
    iterationsFrom tokens bound (standing tokens owner front.length members.head?) =
      members.mapIdx fun position member =>
        standing tokens owner (front.length + position) (some member) := by
  induction members generalizing front bound with
  | nil =>
    rw [List.append_nil] at holds
    cases bound with
    | zero => rfl
    | succ bound =>
      rw [iterationsFrom, jsonEndIt_standing holds, beq_self_eq_true, if_pos rfl]
      rfl
  | cons key back ih =>
    obtain ⟨bound, rfl⟩ := Nat.exists_eq_succ_of_ne_zero (Nat.ne_of_gt (Nat.zero_lt_of_lt enough))
    have fewer : back.length < bound := Nat.lt_of_succ_lt_succ enough
    rw [List.head?_cons, iterationsFrom, jsonEndIt_before holds,
      if_neg Bool.false_ne_true, List.mapIdx_cons]
    refine congrArg (List.cons _) ?_
    cases back with
    | nil =>
      obtain ⟨after, isAfter, ends⟩ := jsonNextIt_last holds
      obtain ⟨bound, rfl⟩ := Nat.exists_eq_succ_of_ne_zero (Nat.ne_of_gt (Nat.zero_lt_of_lt fewer))
      rw [isAfter]
      dsimp only
      rw [iterationsFrom, ends, if_pos rfl]
      rfl
    | cons next back =>
      have moved : Holds tokens owner ((front ++ [key]) ++ next :: back) := by
        rwa [List.append_assoc]
      have rest := ih moved fewer
      rw [List.length_append, List.length_singleton, List.head?_cons] at rest
      rw [jsonNextIt_standing holds]
      dsimp only
      rw [rest]
      simp only [Nat.add_assoc, Nat.add_comm 1]

/-- Every member has its round, in the order of the members. -/
theorem iterations_eq (holds : Holds tokens owner members) :
    iterations tokens owner = members.mapIdx fun position member =>
      standing tokens owner position (some member) := by
  have all := @iterationsFrom_eq _ tokens owner [] members holds
    ((tokens.node owner).size + 1) (by rw [holds.owns.size]; omega)
  rw [iterations, jsonInitIt_eq holds]
  simpa only [List.length_nil, Nat.zero_add] using all

/-! ## The copies of open rounds -/

variable {copies : List LoopCopy} {tag added : List LoopTag}

private theorem copyLoopTagGet_add (other : tag ≠ added) :
    copyLoopTagGet (copyLoopTagAdd copies added) tag =
      copyLoopTagGet copies tag := by
  rw [copyLoopTagAdd, copyLoopTagGet, List.find?_append]
  simp [copyLoopTagGet, Ne.symm other]

private theorem copyLoopTagGet_set_other {changed : LoopCopy} (other : tag ≠ changed.source) :
    copyLoopTagGet (copyLoopTagSet copies changed) tag =
      copyLoopTagGet copies tag := by
  induction copies with
  | nil => rfl
  | cons copy copies ih =>
    simp only [copyLoopTagSet, copyLoopTagGet] at ih
    rw [copyLoopTagSet, copyLoopTagGet, copyLoopTagGet, List.map_cons,
      List.find?_cons, List.find?_cons, ih]
    by_cases same : copy.source = changed.source
    · rw [same, beq_self_eq_true, if_pos rfl, beq_false_of_ne (Ne.symm other)]
    · rw [beq_false_of_ne same, if_neg Bool.false_ne_true]

private theorem copyLoopTagGet_set {changed : LoopCopy}
    (present : (copyLoopTagGet copies changed.source).isSome = true) :
    copyLoopTagGet (copyLoopTagSet copies changed) changed.source =
      some changed := by
  induction copies with
  | nil => cases present
  | cons copy copies ih =>
    simp only [copyLoopTagSet, copyLoopTagGet] at ih present
    rw [copyLoopTagSet, copyLoopTagGet, List.map_cons, List.find?_cons]
    by_cases same : copy.source = changed.source
    · simp [same]
    · rw [List.find?_cons, beq_false_of_ne same] at present
      rw [beq_false_of_ne same, if_neg Bool.false_ne_true, beq_false_of_ne same]
      exact ih present

private theorem source_frameCopy (frame : Frame Number) (around : List LoopTag) :
    (frameCopy tokens frame around).source = frame.tag :: around := by
  rw [frameCopy]
  split <;> rfl

variable (tokens)

/-- The copies of the loop tags are those of the open rounds. -/
def Open (copies : List LoopCopy) : List (Frame Number) → Prop
  | [] => True
  | frame :: frames =>
    copyLoopTagGet copies (frame.tag :: loopTags frames) =
      some (frameCopy tokens frame (loopTags frames)) ∧
    frame.it ∈ iterations tokens frame.owner ∧
    Open copies frames

variable {tokens} {frames : List (Frame Number)} {state middle result : Render Number}

theorem Open.congr {others : List LoopCopy} (isOpen : Open tokens copies frames)
    (kept : ∀ tag : List LoopTag, tag.length ≤ frames.length →
      copyLoopTagGet others tag = copyLoopTagGet copies tag) :
    Open tokens others frames := by
  induction frames with
  | nil => trivial
  | cons frame frames ih =>
    refine ⟨?_, isOpen.2.1, ih isOpen.2.2 fun tag short => ?_⟩
    · rw [kept _ (by simp [loopTags]), isOpen.1]
    · exact kept tag (Nat.le_succ_of_le short)

/-- What rendering does inside of the open rounds. -/
structure Runs (tokens : Tokens Number) (frames : List (Frame Number))
    (state result : Render Number) : Prop where
  kept : ∀ tag : List LoopTag, tag.length ≤ frames.length →
    copyLoopTagGet result.copies tag = copyLoopTagGet state.copies tag
  scopes : Open tokens state.copies frames → ∀ scope ∈ result.scopes,
    scope ∈ state.scopes ∨ Open tokens scope.copies scope.frames

theorem Runs.trans (first : Runs tokens frames state middle)
    (second : Runs tokens frames middle result) :
    Runs tokens frames state result where
  kept := fun tag short =>
    (second.kept tag short).trans (first.kept tag short)
  scopes := by
    intro isOpen scope isIn
    rcases second.scopes (isOpen.congr first.kept) scope isIn with earlier | good
    · exact first.scopes isOpen scope earlier
    · exact .inr good

theorem Runs.refl : Runs tokens frames state state where
  kept := fun _ _ => rfl
  scopes := fun _ _ isIn => .inl isIn

theorem runs_write (text : Bytes) : Runs tokens frames state (state.write text) where
  kept := fun _ _ => rfl
  scopes := fun _ _ isIn => .inl isIn

private theorem runs_note : Runs tokens frames state (state.note frames) where
  kept := fun _ _ => rfl
  scopes := by
    intro isOpen scope isIn
    rw [Render.note, List.mem_append, List.mem_singleton] at isIn
    rcases isIn with earlier | isNew
    · exact .inl earlier
    · rw [isNew]
      exact .inr isOpen

theorem runs_plain (child : Tag Number) (content : Bytes) :
    Runs tokens frames state (state.plain child content) := by
  rw [Render.plain]
  split
  · exact runs_write content
  · exact Runs.refl

private theorem runs_copyTag (loop : LoopTag) :
    Runs tokens frames state (state.copyTag (loop :: loopTags frames)) := by
  rw [Render.copyTag]
  split
  · refine ⟨fun tag short => ?_, fun _ _ isIn => .inl isIn⟩
    apply copyLoopTagGet_add
    rintro rfl
    simp [loopTags] at short
  · exact Runs.refl

/-- The rounds of a loop, if each of them runs inside of the loop. -/
theorem runs_rounds (loop : LoopTag) {body : Frame Number → Render Number → Render Number}
    (inside : ∀ frame state, Runs tokens (frame :: frames) state (body frame state))
    {its : List (It Number)} (isIn : ∀ it ∈ its, it ∈ iterations tokens owner)
    (present : (copyLoopTagGet state.copies (loop :: loopTags frames)).isSome = true) :
    Runs tokens frames state (its.foldl (fun state it =>
        body ⟨loop, owner, it⟩ (state.enter tokens ⟨loop, owner, it⟩ frames)) state) := by
  induction its generalizing state with
  | nil => exact Runs.refl
  | cons it its ih =>
    rw [List.forall_mem_cons] at isIn
    have set := @copyLoopTagGet_set state.copies
      (frameCopy tokens ⟨loop, owner, it⟩ (loopTags frames))
      (by rw [source_frameCopy]; exact present)
    rw [source_frameCopy] at set
    have entered : ∀ tag : List LoopTag, tag.length ≤ frames.length → copyLoopTagGet
          (state.enter tokens ⟨loop, owner, it⟩ frames).copies tag =
            copyLoopTagGet state.copies tag := by
      intro tag short
      apply copyLoopTagGet_set_other
      rw [source_frameCopy]
      rintro rfl
      simp [loopTags] at short
    have run := inside ⟨loop, owner, it⟩ (state.enter tokens ⟨loop, owner, it⟩ frames)
    have round : Runs tokens frames state (body ⟨loop, owner, it⟩
          (state.enter tokens ⟨loop, owner, it⟩ frames)) := by
      refine ⟨fun tag short => ?_, fun isOpen scope isScope => ?_⟩
      · rw [run.kept tag (Nat.le_succ_of_le short), entered tag short]
      · have inner : Open tokens (state.enter tokens ⟨loop, owner, it⟩ frames).copies
            (⟨loop, owner, it⟩ :: frames) :=
          ⟨set, isIn.1, isOpen.congr entered⟩
        rcases run.scopes inner scope isScope with earlier | good
        · rw [Render.enter, Render.note, List.mem_append, List.mem_singleton] at earlier
          rcases earlier with earlier | isNew
          · exact .inl earlier
          · rw [isNew]
            exact .inr inner
        · exact .inr good
    refine round.trans (ih isIn.2 ?_)
    rw [run.kept _ (by simp [loopTags])]
    exact Option.isSome_iff_exists.mpr ⟨_, set⟩

private theorem copyTag_present (tag : List LoopTag) :
    (copyLoopTagGet (state.copyTag tag).copies tag).isSome = true := by
  rw [Render.copyTag]
  split
  case isTrue =>
      rw [copyLoopTagAdd, copyLoopTagGet, List.find?_append]
      simp
  case isFalse present =>
      rwa [Option.isNone_iff_eq_none, ← ne_eq, ← Option.isSome_iff_ne_none] at present

theorem buildContent_runs (root : Option Nat) (tag : Tag Number) (around : Around) :
    Runs tokens frames state (buildContent arithmetic tokens root tag around frames state) := by
  induction tag generalizing around frames state with
  | none => exact Runs.refl
  | var place expr next ih =>
    rw [buildContent]
    exact ((runs_write _).trans runs_note).trans
      ((runs_write _).trans ((runs_write _).trans (ih _)))
  | cond place child next childRuns nextRuns =>
    rw [buildContent]
    exact (childRuns _).trans (nextRuns _)
  | condItem alwaysTrue expr content child next childRuns nextRuns =>
    rw [buildContent]
    have evaluated : Runs tokens frames state
        (if alwaysTrue then state else state.note frames) := by
      split
      · exact Runs.refl
      · exact runs_note
    dsimp only
    refine evaluated.trans ?_
    generalize (if alwaysTrue then state else state.note frames) = after
    split
    · exact ((runs_write _).trans (runs_plain _ _)).trans ((childRuns _).trans (runs_write _))
    · split
      · exact (runs_write _).trans (runs_write _)
      · exact nextRuns _
  | loop place loop expr content child next childRuns nextRuns =>
    rw [buildContent]
    dsimp only
    refine ((runs_copyTag loop).trans ((runs_write (around.before place)).trans runs_note)).trans ?_
    refine Runs.trans ?_ ((runs_write _).trans (nextRuns _))
    split
    · split
      · exact runs_rounds loop (fun _ _ => (runs_plain child content).trans (childRuns _))
          (fun _ isIn => isIn) (copyTag_present _)
      · exact Runs.refl
    · exact Runs.refl
  | inc place content child next childRuns nextRuns =>
    rw [buildContent]
    exact ((runs_write _).trans (runs_plain _ _)).trans
      ((childRuns _).trans ((runs_write _).trans (nextRuns _)))

/-- Whenever an expression is evaluated, the copies are those of the open
rounds. -/
theorem makeContent_open (root : Option Nat) (tag : Tag Number)
    (content : Bytes) {scope : Scope Number}
    (isIn : scope ∈ (makeContent arithmetic tokens root tag content).scopes) :
    Open tokens scope.copies scope.frames := by
  rw [makeContent] at isIn
  have runs : Runs tokens [] (⟨[], [], []⟩ : Render Number)
      (buildContent arithmetic tokens root tag (.inside content) []
        (Render.plain ⟨[], [], []⟩ tag content)) :=
    (runs_plain tag content).trans (buildContent_runs arithmetic root tag _)
  rcases runs.scopes trivial scope isIn with isNil | good
  · cases isNil
  · exact good

/-- An open round stands at a member. -/
theorem Open.round {inner : List (Frame Number)} {frame : Frame Number}
    (isOpen : Open tokens copies (inner ++ frame :: frames))
    (holds : Holds tokens frame.owner members) :
    ∃ front member back, members = front ++ member :: back ∧
      frame.it = standing tokens frame.owner front.length (some member) := by
  induction inner with
  | nil =>
    have round := isOpen.2.1
    rw [iterations_eq holds, List.mem_mapIdx] at round
    obtain ⟨position, within, isIt⟩ := round
    refine ⟨members.take position, members[position], members.drop (position + 1), ?_, ?_⟩
    · rw [← List.drop_eq_getElem_cons within, List.take_append_drop]
    · rw [List.length_take_of_le (Nat.le_of_lt within), isIt]
  | cons other inner ih => exact ih isOpen.2.2

/-- The index variable of an open round that no inner loop hides. -/
theorem scopeResolve_key (root : Option Nat) {inner : List (Frame Number)}
    {frame : Frame Number} (isOpen : Open tokens copies (inner ++ frame :: frames))
    (visible : ∀ other ∈ inner, frame.tag.keyName ≠ other.tag.keyName ∧
      frame.tag.keyName ≠ other.tag.elementName)
    (isObject : frame.it.type = .object) :
    scopeResolve arithmetic tokens root copies
        (loopTags (inner ++ frame :: frames)) frame.tag.keyName =
      .string ((itKey tokens frame.it).take (itemNameSize - 1)) := by
  induction inner with
  | nil =>
    have isCopy := isOpen.1
    rw [List.nil_append, loopTags, List.map_cons, scopeResolve]
    rw [loopTags, frameCopy, isObject] at isCopy
    rw [isCopy]
    dsimp only
    rw [if_pos rfl, if_neg Bool.false_ne_true]
  | cons other inner ih =>
    rw [List.forall_mem_cons] at visible
    rw [List.cons_append] at isOpen ⊢
    have rest := ih isOpen.2.2 visible.2
    have isCopy := isOpen.1
    rw [loopTags, List.map_cons, scopeResolve]
    rw [loopTags] at isCopy rest
    rw [isCopy]
    dsimp only
    rw [if_neg visible.1.1, if_neg visible.1.2, rest]

/-! ## Complete keys -/

/-- The buffer of a loop has the complete key. -/
theorem take_cstring_eq_iff (key : Bytes) : (cstring key).take (itemNameSize - 1) = key ↔
      0 ∉ key ∧ key.length < itemNameSize := by
  rw [← cstring_eq_self_iff]
  constructor
  · intro complete
    have length := congrArg List.length complete
    rw [List.length_take] at length
    have isPrefix : cstring key <+: key := List.takeWhile_prefix _
    refine ⟨isPrefix.eq_of_length_le (by omega), ?_⟩
    rw [itemNameSize] at length ⊢
    omega
  · rintro ⟨plain, short⟩
    rw [plain, List.take_of_length_le (Nat.le_sub_one_of_lt short)]

variable {member : Nat} {back : List Nat} {key : Bytes}

/-- The lookup under a key finds a member if no earlier one has its key. -/
theorem jsonObjectGet_eq_iff (holds : Holds tokens owner (front ++ member :: back))
    (isKey : jsonString tokens member = some key)
    (separate : ((front ++ member :: back).map fun other =>
      (tokens.node other).child).Nodup) :
    jsonObjectGet tokens owner key = (tokens.node member).child ↔
      ∀ other ∈ front, sameKey tokens member other = false := by
  have same (other : Nat) : sameKey tokens member other = hasKey tokens key other := by
    rw [sameKey, isKey, Option.any_some]
  have itself := @sameKey_self _ tokens member (by rw [isKey]; exact Option.some_ne_none key)
  simp only [same] at itself ⊢
  rw [jsonObjectGet, holds.owns.children_eq, List.find?_append, List.find?_cons, itself]
  dsimp only
  cases found : front.find? (hasKey tokens key) with
  | none =>
    rw [List.find?_eq_none] at found
    simp only [Bool.not_eq_true] at found
    simp only [Option.none_or, true_iff]
    exact found
  | some first =>
    have isIn := List.mem_of_find?_eq_some found
    have isFirst := List.find?_some found
    simp only [Option.some_or]
    constructor
    · intro sameChild
      have distinct := List.nodup_append.mp
        ((List.map_append ▸ separate :) : (_ ++ _ : List _).Nodup)
      exact absurd sameChild (distinct.2.2 _ (List.mem_map_of_mem isIn) _
        (List.mem_map_of_mem List.mem_cons_self))
    · intro none
      rw [none first isIn] at isFirst
      cases isFirst

/-- In a round of a loop over an object the index variable is the front of the
key of the member that `key_value` holds.  It is the complete key and the lookup
under it gives the current item, if and only if the key is short, has no `NUL`,
and no earlier member has it. -/
theorem loop_index_iff (root : Option Nat) (tag : Tag Number) (content : Bytes)
    (scope : Scope Number) (isIn : scope ∈ (makeContent arithmetic tokens root tag content).scopes)
    (inner outer : List (Frame Number)) (frame : Frame Number)
    (isFrames : scope.frames = inner ++ frame :: outer)
    (visible : ∀ other ∈ inner, frame.tag.keyName ≠ other.tag.keyName ∧
      frame.tag.keyName ≠ other.tag.elementName)
    (members : List Nat) (holds : Holds tokens frame.owner members)
    (isObject : (tokens.node frame.owner).data = .object)
    (separate : (members.map fun member => (tokens.node member).child).Nodup) :
    ∃ front member back key, members = front ++ member :: back ∧
      frame.it = standing tokens frame.owner front.length (some member) ∧
      jsonString tokens member = some key ∧
      scopeResolve arithmetic tokens root scope.copies (loopTags scope.frames) frame.tag.keyName =
        .string ((cstring key).take (itemNameSize - 1)) ∧
      ((scopeResolve arithmetic tokens root scope.copies
          (loopTags scope.frames) frame.tag.keyName = .string key ∧
        indexToken arithmetic tokens (scopeResolve arithmetic tokens root scope.copies
            (loopTags scope.frames) frame.tag.keyName)
          (.token frame.owner) = frame.it.value) ↔
        0 ∉ key ∧ key.length < itemNameSize ∧
          ∀ other ∈ front, sameKey tokens member other = false) := by
  have isOpen := makeContent_open arithmetic root tag content isIn
  rw [isFrames] at isOpen ⊢
  obtain ⟨front, member, back, isMembers, isIt⟩ := isOpen.round holds
  have named := holds.named isObject member (by rw [isMembers]; simp)
  obtain ⟨key, isKey⟩ := Option.ne_none_iff_exists'.mp named
  have isType : frame.it.type = .object := by
    rw [isIt]
    exact isObject
  have isText : itKey tokens frame.it = cstring key := by
    rw [itKey, isIt, standing]
    dsimp only
    rw [Option.bind_some, isKey]
  have item : frame.it.value = (tokens.node member).child := by
    rw [isIt, standing, isObject]
    rfl
  have resolved := scopeResolve_key arithmetic root isOpen visible isType
  rw [isText] at resolved
  refine ⟨front, member, back, key, isMembers, isIt, isKey, resolved, ?_⟩
  rw [resolved, item, Value.string.injEq, take_cstring_eq_iff, and_assoc, indexToken.eq_def]
  dsimp only
  rw [isObject]
  dsimp only
  refine and_congr_right fun plain => and_congr_right fun short => ?_
  rw [(take_cstring_eq_iff key).mpr ⟨plain, short⟩]
  rw [isMembers] at holds separate
  exact jsonObjectGet_eq_iff holds isKey separate

/-- The document `{"o": {key: 7}}`. -/
def keyedTokens (key : Bytes) : Tokens Nat :=
  let created := ((((noTokens.alloc .object).alloc
    (.string (ascii "o"))).alloc .object).alloc (.string key)).alloc (.number 7)
  setChildOrSibling (setChildOrSibling (setChildOrSibling
    (setChildOrSibling created 3 4) 2 3) 1 2) 0 1

/-- The view `{% for item, key in o %}{{ key }}{{ o[key] }}{% endfor %}`. -/
def keyedTag : Tag Nat :=
  .loop ⟨0, 0⟩ ⟨0, ascii "item", ascii "key"⟩ (.variable (ascii "o") .nil) []
    (.var ⟨0, 0⟩ (.variable (ascii "key") .nil) (.var ⟨0, 0⟩ (.variable (ascii "o")
        (.index (.variable (ascii "key") .nil) .nil)) .none)) .none

def decimals : Arithmetic Nat where
  ofIndex := Int.toNat
  position := some
  isTrue := fun number => number != 0
  format := decimal
  unary := fun _ value => value
  binary := fun _ left _ => left

private theorem keyedTokens_holds (key : Bytes) : Holds (keyedTokens key) 2 [3] where
  owns := ⟨.cons .nil, rfl, by decide, (by decide : 1 ≤ 5)⟩
  container := rfl
  named := by
    intro _ member isIn
    rw [List.mem_singleton.mp isIn]
    exact Option.some_ne_none key

theorem loop_index_short : ∃ scope ∈ (makeContent decimals (keyedTokens (ascii "ab")) (some 0)
        keyedTag []).scopes,
      scopeResolve decimals (keyedTokens (ascii "ab")) (some 0) scope.copies
        (loopTags scope.frames) (ascii "key") = .string (ascii "ab") ∧
      indexToken decimals (keyedTokens (ascii "ab"))
        (scopeResolve decimals (keyedTokens (ascii "ab")) (some 0) scope.copies
          (loopTags scope.frames) (ascii "key")) (.token 2) = some 4 := by
  have isIn := List.getElem_mem (l := (makeContent decimals
    (keyedTokens (ascii "ab")) (some 0) keyedTag []).scopes) (n := 1)
    (by decide +kernel)
  obtain ⟨front, member, back, key, isMembers, isIt, isKey, -, complete⟩ :=
    loop_index_iff decimals (some 0) keyedTag [] _ isIn [] [] ⟨⟨0, ascii "item", ascii "key"⟩, 2,
        standing (keyedTokens (ascii "ab")) 2 0 (some 3)⟩ rfl nofun [3]
      (keyedTokens_holds _) rfl (List.nodup_singleton _)
  cases front with
  | nil =>
    cases isMembers
    cases isKey
    exact ⟨_, isIn, complete.mpr ⟨by decide, by decide, nofun⟩⟩
  | cons first front =>
    have isNil := (List.cons.inj isMembers).2
    simp at isNil

/-- A key of eighty letters is cut, and nothing is found under it. -/
theorem loop_index_cut : (makeContent decimals (keyedTokens (List.replicate 80 97)) (some 0)
      keyedTag []).output = List.replicate 79 97 ∧
    ((makeContent decimals (keyedTokens (List.replicate 80 97)) (some 0)
      keyedTag []).scopes.drop 1).map (fun scope =>
        (indexToken decimals (keyedTokens (List.replicate 80 97))
          (scopeResolve decimals (keyedTokens (List.replicate 80 97)) (some 0)
            scope.copies (loopTags scope.frames) (ascii "key")) (.token 2),
          scope.frames.map fun frame => frame.it.value)) =
      List.replicate 3 (none, [some 4]) := by
  decide +kernel

end CWebFramework.View
