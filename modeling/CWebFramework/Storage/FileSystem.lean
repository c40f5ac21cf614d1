import CWebFramework.Misc.Bytes

/-!
# The paths of the file system storage

The functions of `framework/storage/storagefs.c` and `storage.c` that make the
path of a file from a root and a relative path.  The file system is a map from
paths to contents; directories are implicit.
-/

namespace CWebFramework.Storage

abbrev Files := List (Bytes × Bytes)

/-! ## Paths -/

def pathMax : Nat := 4096

/-- `snprintf` into a buffer of `PATH_MAX` bytes. -/
def intoPath (text : Bytes) : Bytes := text.take (pathMax - 1)

/-- The loop of `cmpsubstr_lower`: on a mismatch it starts over behind the
character that does not match. -/
def substrLoop (wanted : Bytes) : Bytes → Bytes → Bool
  | _, [] => true
  | [], _ :: _ => false
  | byte :: text, other :: rest =>
    if tolower byte = tolower other then substrLoop wanted text rest
    else substrLoop wanted text wanted

def cmpsubstrLower (text wanted : Bytes) : Bool := substrLoop wanted text wanted

def mergeLoop : Bool → Bytes → Bytes
  | _, [] => []
  | findSlash, byte :: rest =>
    if findSlash && byte == Byte.slash then mergeLoop true rest
    else byte :: mergeLoop (byte == Byte.slash) rest

theorem mergeLoop_cons (findSlash : Bool) (byte : UInt8) (rest : Bytes) :
    mergeLoop findSlash (byte :: rest) =
      if findSlash && byte == Byte.slash then mergeLoop true rest
      else byte :: mergeLoop (byte == Byte.slash) rest :=
  rfl

def storageMergeSlash (path : Bytes) : Bytes := mergeLoop false path

def prepareFullpath (root relpath : Bytes) : Option Bytes :=
  if cmpsubstrLower relpath (ascii "/../") then none
  else if cmpsubstrLower relpath (ascii "/..") then none
  else if cmpsubstrLower relpath (ascii "../") then none
  else some (storageMergeSlash (intoPath (root ++ Byte.slash :: relpath)))

def patternIn (path : Bytes) : Bool := path.contains 42

/-! ## Merged slashes -/

theorem mergeLoop_append (findSlash : Bool) (text rest : Bytes) :
    mergeLoop findSlash (text ++ Byte.slash :: rest) =
      mergeLoop findSlash (text ++ [Byte.slash]) ++ mergeLoop true rest := by
  induction text generalizing findSlash with
  | nil => cases findSlash <;> rfl
  | cons byte text ih =>
    rw [List.cons_append, List.cons_append, mergeLoop_cons, mergeLoop_cons]
    split
    · exact ih true
    · rw [List.cons_append, ih]

variable {findSlash : Bool} {text : Bytes}

theorem mergeLoop_free (noSlash : Byte.slash ∉ text) : mergeLoop findSlash text = text := by
  induction text generalizing findSlash with
  | nil => rfl
  | cons byte text ih =>
    rw [List.mem_cons, not_or] at noSlash
    have different : (byte == Byte.slash) = false := beq_eq_false_iff_ne.mpr (Ne.symm noSlash.1)
    rw [mergeLoop_cons, different, Bool.and_false, if_neg Bool.false_ne_true, ih noSlash.2]

theorem mem_of_mem_mergeLoop {byte : UInt8}
    (isIn : byte ∈ mergeLoop findSlash text) : byte ∈ text := by
  induction text generalizing findSlash with
  | nil => cases isIn
  | cons first text ih =>
    rw [mergeLoop_cons] at isIn
    split at isIn
    · exact List.mem_cons_of_mem _ (ih isIn)
    · rcases List.mem_cons.mp isIn with same | isBehind
      · rw [same]
        exact List.mem_cons_self
      · exact List.mem_cons_of_mem _ (ih isBehind)

end CWebFramework.Storage
