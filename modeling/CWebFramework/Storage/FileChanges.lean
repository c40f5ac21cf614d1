import CWebFramework.Misc.Paths
import CWebFramework.Storage.FileSystem
import Mathlib.Data.List.DropRight
import Mathlib.Data.Nat.Find

/-!
# Writing and removing files of a storage

`__file_content_put` and `__file_remove` of `storagefs.c`.  For a put only the
content of the target matters; the results of the system calls are given.  For
a removal the tree of directories matters.  Its entries are the absolute
locations of files and directories, and a path leads where its components lead
lexically.
-/

namespace CWebFramework.Storage

open CWebFramework.Path

/-- `dirname` of the C library. -/
def dirname (path : Bytes) : Bytes :=
  let stripped := path.rdropWhile (· == Byte.slash)
  let front := stripped.rdropWhile (· != Byte.slash)
  let parent := front.rdropWhile (· == Byte.slash)
  if path ≠ [] ∧ stripped = [] then [Byte.slash]
  else if front = [] then ascii "."
  else if parent = [] then [Byte.slash]
  else parent

/-! ## Putting a part of a file -/

/-- The system calls of a put.  `sendfile` is how many bytes it transfers
unless the source ends, and `none` for an error. -/
structure PutCalls where
  isDirectory : Bytes → Bool
  mkdir : Bytes → Bool
  isOpened : Bool
  isStatted : Bool
  sendfile : Option Nat
  ftruncate : Bool

def createFullpath (calls : PutCalls) (path : Bytes) : Bool :=
  calls.isDirectory (dirname path) || calls.mkdir (dirname path)

def slice (source : Bytes) (offset size : Nat) : Bytes := (source.drop offset).take size

def transferred (calls : PutCalls) (content : Bytes) : Nat :=
  min (calls.sendfile.getD 0) content.length

def foundSize (calls : PutCalls) (old : Bytes) : Nat :=
  if calls.isStatted then old.length else 0

/-- `__file_content_put`: its result and the content of the target. -/
def fileContentPut (calls : PutCalls) (root path : Bytes) (ok : Bool)
    (source : Bytes) (offset size : Nat) (target : Option Bytes) :
    Bool × Option Bytes :=
  if path = [] ∨ ok = false then (false, target)
  else
    match prepareFullpath root path with
    | none => (false, target)
    | some fullpath =>
      if createFullpath calls fullpath && calls.isOpened then
        let old := target.getD []
        let content := slice source offset size
        let sent := transferred calls content
        let written := content.take sent ++ old.drop sent
        if calls.sendfile = none then (false, none)
        else if size < foundSize calls old then
          if calls.ftruncate then (true, some (written.take size))
          else (false, none)
        else (true, some written)
      else (false, target)

/-- What the old content has behind the bytes that are written. -/
def leftOver (calls : PutCalls) (size : Nat) (old content : Bytes) : Bytes :=
  let sent := transferred calls content
  if size < foundSize calls old then (old.drop sent).take (size - sent)
  else old.drop sent

theorem fileContentPut_content {calls : PutCalls} {root path source : Bytes}
    {ok : Bool} {offset size : Nat} {target : Option Bytes}
    (succeeded : (fileContentPut calls root path ok source offset size target).1 = true) :
    (fileContentPut calls root path ok source offset size target).2 =
      some ((slice source offset size).take (transferred calls (slice source offset size)) ++
        leftOver calls size (target.getD []) (slice source offset size)) := by
  have within : transferred calls (slice source offset size) ≤
      (slice source offset size).length := Nat.min_le_right ..
  have fits : (slice source offset size).length ≤ size := List.length_take_le ..
  rw [fileContentPut] at succeeded ⊢
  rw [leftOver]
  split at succeeded
  · cases succeeded
  next accepted =>
    rw [if_neg accepted]
    split at succeeded
    · cases succeeded
    next fullpath _ =>
      dsimp only at succeeded ⊢
      split at succeeded
      next isOpened =>
        rw [if_pos isOpened]
        split at succeeded
        · cases succeeded
        next isSent =>
          rw [if_neg isSent]
          split at succeeded
          next longer =>
            split at succeeded
            next isCut =>
              rw [if_pos longer, if_pos isCut, if_pos longer, List.take_append, List.length_take,
                Nat.min_eq_left within,
                List.take_of_length_le (by rw [List.length_take]; omega)]
            · cases succeeded
          next notLonger => rw [if_neg notLonger, if_neg notLonger]
      · cases succeeded

/-- A put that reports success has written the slice exactly when the old
content has, behind the bytes that were transferred, what is missing of the
slice and nothing more.  That is so when all bytes were transferred. -/
theorem fileContentPut_exact_iff (calls : PutCalls) (root path : Bytes)
    (ok : Bool) (source : Bytes) (offset size : Nat) (target : Option Bytes)
    (succeeded : (fileContentPut calls root path ok source offset size target).1 = true) :
    ((fileContentPut calls root path ok source offset size target).2 =
        some (slice source offset size) ↔
      leftOver calls size (target.getD []) (slice source offset size) =
        (slice source offset size).drop (transferred calls (slice source offset size))) ∧
    (calls.isStatted → transferred calls (slice source offset size) = size →
      (fileContentPut calls root path ok source offset size target).2 =
        some (slice source offset size)) := by
  have exact_iff : (fileContentPut calls root path ok source offset size
      target).2 = some (slice source offset size) ↔
      leftOver calls size (target.getD []) (slice source offset size) =
        (slice source offset size).drop (transferred calls (slice source offset size)) := by
    rw [fileContentPut_content succeeded, Option.some.injEq]
    constructor
    · intro isSlice
      apply List.append_cancel_left
      rw [List.take_append_drop]
      exact isSlice
    · intro isRest
      rw [isRest, List.take_append_drop]
  refine ⟨exact_iff, fun isStatted isWhole => exact_iff.mpr ?_⟩
  have fits : (slice source offset size).length ≤ size := List.length_take_le ..
  rw [leftOver, foundSize, if_pos isStatted, isWhole, List.drop_of_length_le fits]
  split
  next => rw [Nat.sub_self, List.take_zero]
  next notLonger => exact List.drop_of_length_le (Nat.not_lt.mp notLonger)

def partialCalls (sent : Nat) : PutCalls where
  isDirectory _ := true
  mkdir _ := true
  isOpened := true
  isStatted := true
  sendfile := some sent
  ftruncate := true

theorem fileContentPut_exact_whole :
    (fileContentPut (partialCalls 2) (ascii "/srv") (ascii "a") true
      (ascii "xab") 1 2 (some (ascii "old"))).2 = some (ascii "ab") :=
  (fileContentPut_exact_iff (partialCalls 2) (ascii "/srv") (ascii "a") true
    (ascii "xab") 1 2 (some (ascii "old")) (by decide)).2 rfl (by decide)

/-- One byte of two is transferred into an empty file, and into a longer
one. -/
theorem fileContentPut_partial : ((fileContentPut (partialCalls 1) (ascii "/srv") (ascii "a") true
        (ascii "ab") 0 2 none).1 = true ∧
      (fileContentPut (partialCalls 1) (ascii "/srv") (ascii "a") true
        (ascii "ab") 0 2 none).2 ≠ some (slice (ascii "ab") 0 2)) ∧
    ((fileContentPut (partialCalls 1) (ascii "/srv") (ascii "a") true
        (ascii "ab") 0 2 (some (ascii "old"))).1 = true ∧
      (fileContentPut (partialCalls 1) (ascii "/srv") (ascii "a") true
        (ascii "ab") 0 2 (some (ascii "old"))).2 ≠ some (slice (ascii "ab") 0 2)) := by
  decide

/-! ## Removing a file -/

inductive Kind where
  | file
  | directory
  deriving DecidableEq

/-- What stands at absolute locations; the innermost name comes first. -/
abbrev Tree := List (List Bytes × Kind)

namespace Tree

def kindOf (tree : Tree) (location : List Bytes) : Option Kind :=
  (tree.find? (·.1 == location)).map Prod.snd

/-- `readdir` finds an entry in the directory. -/
def hasEntry (tree : Tree) (location : List Bytes) : Bool :=
  tree.any fun entry => entry.1 != [] && entry.1.tail == location

def delete (tree : Tree) (location : List Bytes) : Tree := tree.filter (·.1 != location)

end Tree

section Removal

variable (cwd : List Bytes)

/-- Where a path leads from the working directory. -/
def resolve (path : Bytes) : List Bytes :=
  (Location.walk ⟨true, 0, if path.head? = some Byte.slash then [] else cwd⟩ (pathMoves path)).names

/-- The last component is the name of an entry; nothing else can be
removed. -/
def isNamed (path : Bytes) : Bool :=
  ((components path).getLast?).any fun name => component name == .down name

def unlink (tree : Tree) (path : Bytes) : Bool × Tree :=
  if isNamed path ∧ tree.kindOf (resolve cwd path) = some .file then
    (true, tree.delete (resolve cwd path))
  else (false, tree)

def dirEmpty (tree : Tree) (path : Bytes) : Int :=
  if path = [] then -1
  else if tree.kindOf (resolve cwd path) = some .directory then
    if tree.hasEntry (resolve cwd path) then 0 else 1
  else -1

/-- `remove` of the C library: a file or an empty directory. -/
def remove (tree : Tree) (path : Bytes) : Tree :=
  if isNamed path ∧ (tree.kindOf (resolve cwd path) = some .file ∨
      tree.kindOf (resolve cwd path) = some .directory ∧
        tree.hasEntry (resolve cwd path) = false) then
    tree.delete (resolve cwd path)
  else tree

/-- `__remove_empty_dirs`; `none` when it has not ended within that many
calls. -/
def removeEmptyDirs (basepath : Bytes) : Nat → Bytes → Tree → Option Tree
  | 0, _, _ => none
  | calls + 1, path, tree =>
    if path = [] then some tree
    else if basepath = path then some tree
    else if dirEmpty cwd tree path = 0 then some tree
    else removeEmptyDirs basepath calls (dirname path) (remove cwd tree path)

def fileRemove (root : Bytes) (calls : Nat) (path : Bytes) (tree : Tree) : Option (Bool × Tree) :=
  if path = [] then some (false, tree)
  else
    match prepareFullpath root path with
    | none => some (false, tree)
    | some fullpath =>
      let unlinked := unlink cwd tree fullpath
      (removeEmptyDirs cwd root calls (dirname fullpath) unlinked.2).map
        fun left => (unlinked.1, left)

end Removal

def Below (root location : List Bytes) : Prop := root <:+ location ∧ location ≠ root

instance (root location : List Bytes) : Decidable (Below root location) :=
  inferInstanceAs (Decidable (_ ∧ _))

/-- Nothing is deleted but the file and directories strictly below the root
that have become empty. -/
def ProperRemoval (root file : List Bytes) (tree left : Tree) : Prop :=
  ∀ location, left.kindOf location = tree.kindOf location ∨
    left.kindOf location = none ∧ (tree.kindOf location = some .file ∧ location = file ∨
        tree.kindOf location = some .directory ∧ Below root location ∧
          left.hasEntry location = false)

/-- The tree when the loop has gone up that many times: all it has passed that
can be removed is gone. -/
def passed (cwd : List Bytes) : Nat → Bytes → Tree → Tree
  | 0, _, tree => tree
  | count + 1, path, tree =>
    passed cwd count (dirname path) (if isNamed path then tree.delete (resolve cwd path) else tree)

/-- The loop ends at a path: it is spelled as the root, or a directory with an
entry. -/
def Stops (cwd : List Bytes) (basepath path : Bytes) (tree : Tree) : Prop :=
  path = [] ∨ basepath = path ∨ dirEmpty cwd tree path = 0

/-- A path at which only what may be deleted can stand. -/
def Harmless (cwd : List Bytes) (root file : List Bytes) (tree : Tree) (path : Bytes) : Prop :=
  isNamed path → tree.kindOf (resolve cwd path) = none ∨
    tree.kindOf (resolve cwd path) = some .file ∧ resolve cwd path = file ∨
    tree.kindOf (resolve cwd path) = some .directory ∧ Below root (resolve cwd path)

namespace Tree

variable {tree : Tree} {location other : List Bytes}

theorem kindOf_delete : (tree.delete location).kindOf other =
      if other = location then none else tree.kindOf other := by
  induction tree with
  | nil => exact (ite_self none).symm
  | cons entry tree ih =>
    rw [delete, List.filter_cons]
    split
    next isOther =>
      rw [bne_iff_ne] at isOther
      rw [kindOf, kindOf, List.find?_cons, List.find?_cons]
      cases isSame : entry.1 == other with
      | true =>
        rw [← beq_iff_eq.mp isSame, if_neg isOther]
      | false => exact ih
    next isGone =>
      rw [bne_iff_ne, not_not] at isGone
      refine ih.trans ?_
      split
      next => rfl
      next differs =>
        rw [kindOf, kindOf, List.find?_cons, isGone, beq_eq_false_iff_ne.mpr (Ne.symm differs)]

theorem delete_absent (absent : tree.kindOf location = none) : tree.delete location = tree := by
  rw [kindOf, Option.map_eq_none_iff, List.find?_eq_none] at absent
  apply List.filter_eq_self.mpr
  intro entry isIn
  rw [bne_iff_ne]
  exact fun isSame => absent entry isIn (beq_iff_eq.mpr isSame)

private theorem hasEntry_delete (isEmpty : tree.hasEntry other = false) :
    (tree.delete location).hasEntry other = false := by
  rw [hasEntry, List.any_eq_false] at isEmpty ⊢
  intro entry isIn
  exact isEmpty entry (List.mem_of_mem_filter isIn)

end Tree

section Climb

variable {cwd root file : List Bytes} {basepath path : Bytes}
  {tree original : Tree}

theorem dirEmpty_eq_zero_iff (named : path ≠ []) : dirEmpty cwd tree path = 0 ↔
      tree.kindOf (resolve cwd path) = some .directory ∧
        tree.hasEntry (resolve cwd path) = true := by
  rw [dirEmpty, if_neg named]
  split
  next isDirectory =>
    split
    next full => exact iff_of_true rfl ⟨isDirectory, full⟩
    next empty => exact iff_of_false nofun (fun both => empty both.2)
  next isOther => exact iff_of_false nofun (fun both => isOther both.1)

/-- What the loop passes is gone if it can be removed. -/
theorem remove_eq (goesOn : ¬ Stops cwd basepath path tree) : remove cwd tree path =
      if isNamed path then tree.delete (resolve cwd path) else tree := by
  obtain ⟨named, -, notFull⟩ := by simpa only [Stops, not_or] using goesOn
  rw [dirEmpty_eq_zero_iff named, not_and, Bool.not_eq_true] at notFull
  rw [remove]
  cases isKind : tree.kindOf (resolve cwd path) with
  | none =>
    rw [Tree.delete_absent isKind, ite_self, ite_self]
  | some kind =>
    have removable : some kind = some Kind.file ∨ some kind = some Kind.directory ∧
          tree.hasEntry (resolve cwd path) = false := by
      cases kind with
      | file => exact Or.inl rfl
      | directory => exact Or.inr ⟨rfl, notFull isKind⟩
    exact if_congr (and_iff_left removable) rfl rfl

private theorem removeEmptyDirs_stops (calls : Nat) (stops : Stops cwd basepath path tree) :
    removeEmptyDirs cwd basepath (calls + 1) path tree = some tree := by
  rw [removeEmptyDirs, ← ite_or, ← ite_or]
  exact if_pos (or_assoc.mpr stops)

private theorem removeEmptyDirs_goesOn (calls : Nat) (goesOn : ¬ Stops cwd basepath path tree) :
    removeEmptyDirs cwd basepath (calls + 1) path tree =
      removeEmptyDirs cwd basepath calls (dirname path)
        (if isNamed path then tree.delete (resolve cwd path) else tree) := by
  rw [removeEmptyDirs, ← ite_or, ← ite_or,
    if_neg fun stops => goesOn (or_assoc.mp stops), remove_eq goesOn]

/-- The loop ends at the first path at which it stops. -/
theorem removeEmptyDirs_iff {left : Tree} :
    (∃ calls, removeEmptyDirs cwd basepath calls path tree = some left) ↔ ∃ count,
        Stops cwd basepath (dirname^[count] path) (passed cwd count path tree) ∧
        (∀ before < count, ¬ Stops cwd basepath (dirname^[before] path)
          (passed cwd before path tree)) ∧
        left = passed cwd count path tree := by
  constructor
  · intro ended
    obtain ⟨calls, isLeft⟩ := ended
    induction calls generalizing path tree with
    | zero => cases isLeft
    | succ calls ih =>
      by_cases stops : Stops cwd basepath path tree
      · refine ⟨0, stops, nofun, ?_⟩
        rw [removeEmptyDirs_stops calls stops] at isLeft
        exact (Option.some.inj isLeft).symm
      · rw [removeEmptyDirs_goesOn calls stops] at isLeft
        obtain ⟨count, isStop, goesOn, isPassed⟩ := ih isLeft
        refine ⟨count + 1, isStop, fun before isBefore => ?_, isPassed⟩
        cases before with
        | zero => exact stops
        | succ before => exact goesOn before (Nat.lt_of_succ_lt_succ isBefore)
  · intro ends
    obtain ⟨count, isStop, goesOn, rfl⟩ := ends
    refine ⟨count + 1, ?_⟩
    induction count generalizing path tree with
    | zero => exact removeEmptyDirs_stops 0 isStop
    | succ count ih =>
      refine (removeEmptyDirs_goesOn (count + 1) (goesOn 0 (Nat.succ_pos count))).trans ?_
      exact ih isStop fun before isBefore =>
        goesOn (before + 1) (Nat.succ_lt_succ isBefore)

/-- Deleting keeps a removal proper, if only what may go goes. -/
theorem ProperRemoval.delete {location : List Bytes}
    (proper : ProperRemoval root file original tree)
    (mayGo : original.kindOf location = none ∨
      original.kindOf location = some .file ∧ location = file ∨
      original.kindOf location = some .directory ∧ Below root location)
    (notFull : tree.kindOf location = some .directory → tree.hasEntry location = false) :
    ProperRemoval root file original (tree.delete location) := by
  intro other
  rw [Tree.kindOf_delete]
  by_cases isSame : other = location
  · rw [if_pos isSame, isSame]
    rcases mayGo with absent | isFile | ⟨isDirectory, isBelow⟩
    · exact Or.inl absent.symm
    · exact Or.inr ⟨rfl, Or.inl isFile⟩
    · refine Or.inr ⟨rfl, Or.inr ⟨isDirectory, isBelow, ?_⟩⟩
      apply Tree.hasEntry_delete
      rcases proper location with kept | ⟨-, isFile | gone⟩
      · exact notFull (kept.trans isDirectory)
      · cases isDirectory.symm.trans isFile.1
      · exact gone.2.2
  · rw [if_neg isSame]
    rcases proper other with kept | ⟨gone, isFile | isDirectory⟩
    · exact Or.inl kept
    · exact Or.inr ⟨gone, Or.inl isFile⟩
    · exact Or.inr ⟨gone, Or.inr ⟨isDirectory.1, isDirectory.2.1,
        Tree.hasEntry_delete isDirectory.2.2⟩⟩

theorem ProperRemoval.passed {count : Nat} (proper : ProperRemoval root file original tree)
    (goesOn : ∀ before < count, ¬ Stops cwd basepath (dirname^[before] path)
      (passed cwd before path tree))
    (harmless : ∀ before < count, Harmless cwd root file original (dirname^[before] path)) :
    ProperRemoval root file original (passed cwd count path tree) := by
  induction count generalizing path tree with
  | zero => exact proper
  | succ count ih =>
    refine ih ?_ (fun before isBefore => goesOn (before + 1) (Nat.succ_lt_succ isBefore))
      (fun before isBefore =>
        harmless (before + 1) (Nat.succ_lt_succ isBefore))
    split
    next named =>
      have here := goesOn 0 (Nat.succ_pos count)
      refine proper.delete (harmless 0 (Nat.succ_pos count) named) ?_
      intro isDirectory
      rw [← Bool.not_eq_true]
      intro full
      apply here
      by_cases isEmpty : path = []
      · exact Or.inl isEmpty
      · exact Or.inr (Or.inr ((dirEmpty_eq_zero_iff isEmpty).mpr ⟨isDirectory, full⟩))
    next => exact proper

private theorem kindOf_passed_none {location : List Bytes}
    (absent : tree.kindOf location = none) (count : Nat) (path : Bytes) :
    (passed cwd count path tree).kindOf location = none := by
  induction count generalizing path tree with
  | zero => exact absent
  | succ count ih =>
    apply ih
    split
    next => rw [Tree.kindOf_delete, absent, ite_self]
    next => exact absent

theorem kindOf_passed_gone {count before : Nat} (isBefore : before < count)
    (named : isNamed (dirname^[before] path)) :
    (passed cwd count path tree).kindOf (resolve cwd (dirname^[before] path)) = none := by
  induction before generalizing count path tree with
  | zero =>
    cases count with
    | zero => cases isBefore
    | succ count =>
      refine kindOf_passed_none ?_ count (dirname path)
      rw [Function.iterate_zero_apply] at named ⊢
      rw [if_pos named, Tree.kindOf_delete]
      exact if_pos rfl
  | succ before ih =>
    cases count with
    | zero => cases isBefore
    | succ count => exact ih (Nat.lt_of_succ_lt_succ isBefore) named

private theorem unlink_proper (fullpath : Bytes) : ProperRemoval root (resolve cwd fullpath) tree
      (unlink cwd tree fullpath).2 := by
  intro location
  rw [unlink]
  split
  next removed =>
    dsimp only
    rw [Tree.kindOf_delete]
    by_cases isFile : location = resolve cwd fullpath
    · rw [if_pos isFile, isFile]
      exact Or.inr ⟨rfl, Or.inl ⟨removed.2, rfl⟩⟩
    · rw [if_neg isFile]
      exact Or.inl rfl
  next => exact Or.inl rfl

end Climb

/-- Removing a file ends and deletes only the file and directories strictly
below the root exactly when, on the way up from the file, a path spelled as
the root or a directory with another entry comes before anything else. -/
theorem fileRemove_proper_iff (cwd : List Bytes) (root path fullpath : Bytes)
    (tree : Tree) (named : path ≠ [])
    (accepted : prepareFullpath root path = some fullpath) :
    (∃ calls result left, fileRemove cwd root calls path tree = some (result, left) ∧
        ProperRemoval (resolve cwd root) (resolve cwd fullpath) tree left) ↔
      ∃ count, Stops cwd root (dirname^[count] (dirname fullpath))
          (passed cwd count (dirname fullpath) (unlink cwd tree fullpath).2) ∧
        ∀ before < count, Harmless cwd (resolve cwd root) (resolve cwd fullpath) tree
            (dirname^[before] (dirname fullpath)) := by
  have runs : ∀ calls, fileRemove cwd root calls path tree =
      (removeEmptyDirs cwd root calls (dirname fullpath) (unlink cwd tree fullpath).2).map
          fun left => ((unlink cwd tree fullpath).1, left) := by
    intro calls
    rw [fileRemove, if_neg named, accepted]
  constructor
  · intro removed
    obtain ⟨calls, result, left, ended, proper⟩ := removed
    rw [runs, Option.map_eq_some_iff] at ended
    obtain ⟨tree', climbed, isLeft⟩ := ended
    obtain ⟨count, stops, -, rfl⟩ := removeEmptyDirs_iff.mp ⟨calls, climbed⟩
    cases isLeft
    refine ⟨count, stops, fun before isBefore isName => ?_⟩
    rcases proper (resolve cwd (dirname^[before] (dirname fullpath))) with
      kept | ⟨-, isFile | isDirectory⟩
    · exact Or.inl (kept.symm.trans (kindOf_passed_gone isBefore isName))
    · exact Or.inr (Or.inl isFile)
    · exact Or.inr (Or.inr ⟨isDirectory.1, isDirectory.2.1⟩)
  · intro ends
    obtain ⟨count, isStop, harmless⟩ := ends
    -- The loop ends at the first of the paths at which it can.
    have stops : ∃ count, Stops cwd root (dirname^[count] (dirname fullpath))
        (passed cwd count (dirname fullpath) (unlink cwd tree fullpath).2) :=
      ⟨count, isStop⟩
    classical
    have isFirst := fun before (isBefore : before < Nat.find stops) =>
      Nat.find_min stops isBefore
    obtain ⟨calls, climbed⟩ :=
      removeEmptyDirs_iff.mpr ⟨Nat.find stops, Nat.find_spec stops, isFirst, rfl⟩
    refine ⟨calls, (unlink cwd tree fullpath).1, passed cwd (Nat.find stops)
      (dirname fullpath) (unlink cwd tree fullpath).2, ?_, ?_⟩
    · rw [runs, climbed, Option.map_some]
    · apply (unlink_proper fullpath).passed isFirst
      intro before isBefore
      exact harmless before (Nat.lt_of_lt_of_le isBefore (Nat.find_min' stops isStop))

/-- A root without a slash at its end is reached by its own spelling. -/
theorem fileRemove_proper_plain : ascii "d/a" ≠ [] ∧
    prepareFullpath (ascii "/srv") (ascii "d/a") = some (ascii "/srv/d/a") ∧
    ∃ calls result left, fileRemove [] (ascii "/srv") calls (ascii "d/a")
        [([], .directory), ([ascii "srv"], .directory), ([ascii "d", ascii "srv"], .directory),
          ([ascii "a", ascii "d", ascii "srv"], .file)] =
        some (result, left) ∧
      ProperRemoval (resolve [] (ascii "/srv")) (resolve [] (ascii "/srv/d/a"))
        [([], .directory), ([ascii "srv"], .directory), ([ascii "d", ascii "srv"], .directory),
          ([ascii "a", ascii "d", ascii "srv"], .file)] left := by
  refine ⟨by decide, by decide, ?_⟩
  apply (fileRemove_proper_iff [] (ascii "/srv") (ascii "d/a")
    (ascii "/srv/d/a") _ (by decide) (by decide)).mpr
  refine ⟨1, Or.inr (Or.inl (by decide)), ?_⟩
  intro before isBefore
  obtain rfl : before = 0 := Nat.lt_one_iff.mp isBefore
  exact fun _ => Or.inr (Or.inr (by decide))

/-- A root with a doubled slash is spelled as no path on the way up: when it
becomes empty, it is deleted as well. -/
theorem fileRemove_root : prepareFullpath (ascii "//srv") (ascii "a") = some (ascii "/srv/a") ∧
    fileRemove [] (ascii "//srv") 3 (ascii "a") [([], .directory), ([ascii "etc"], .directory),
        ([ascii "srv"], .directory), ([ascii "a", ascii "srv"], .file)] =
      some (true, [([], .directory), ([ascii "etc"], .directory)]) ∧
    ¬ ProperRemoval (resolve [] (ascii "//srv")) (resolve [] (ascii "/srv/a"))
      [([], .directory), ([ascii "etc"], .directory),
        ([ascii "srv"], .directory), ([ascii "a", ascii "srv"], .file)]
      [([], .directory), ([ascii "etc"], .directory)] := by
  refine ⟨by decide, by decide, ?_⟩
  intro proper
  have ofRoot := proper (resolve [] (ascii "//srv"))
  revert ofRoot
  decide

end CWebFramework.Storage
