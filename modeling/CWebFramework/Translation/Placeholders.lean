import CWebFramework.Misc.Bytes
import Mathlib.Data.List.Forall2

/-!
# Placeholders of translations

`replace_placeholders` reads its template twice: once for the size of the
result and once for its bytes.  A C string is the list of the bytes in front of
its terminator, and the variable arguments are pointers, `none` for `NULL`.
-/

namespace CWebFramework.Translation

abbrev openBrace : UInt8 := 123
abbrev closeBrace : UInt8 := 125

/-- The loop that fills `pairs`, for that many free elements. -/
def collectPairs : Nat → List (Option Bytes) → List (Bytes × Bytes)
  | room + 1, some key :: some value :: args =>
    (key, value) :: collectPairs room args
  | _, _ => []

/-- `strchr(start, closeBrace)`: the bytes in front of the brace and behind
it. -/
def splitClosing : Bytes → Option (Bytes × Bytes)
  | [] => none
  | byte :: start =>
    if byte = closeBrace then some ([], start)
    else (splitClosing start).map fun split => (byte :: split.1, split.2)

theorem splitClosing_eq_some_iff {start name rest : Bytes} :
    splitClosing start = some (name, rest) ↔
      start = name ++ closeBrace :: rest ∧ closeBrace ∉ name := by
  induction start generalizing name with
  | nil => exact ⟨nofun, fun both => by cases name <;> cases both.1⟩
  | cons byte start ih =>
    rw [splitClosing]
    split
    next isClose =>
      rw [Option.some.injEq, Prod.mk.injEq, isClose]
      constructor
      · intro both
        obtain ⟨rfl, rfl⟩ := both
        exact ⟨rfl, List.not_mem_nil⟩
      · intro both
        cases name with
        | nil => exact ⟨rfl, (List.cons.inj both.1).2⟩
        | cons first name =>
          have isFirst := (List.cons.inj both.1).1
          exact absurd (isFirst ▸ List.mem_cons_self ..) both.2
    next isOther =>
      rw [Option.map_eq_some_iff]
      constructor
      · intro found
        obtain ⟨⟨before, behind⟩, isSplit, isPair⟩ := found
        cases isPair
        obtain ⟨isStart, notIn⟩ := ih.mp isSplit
        refine ⟨congrArg (byte :: ·) isStart, ?_⟩
        exact List.not_mem_cons_of_ne_of_not_mem (Ne.symm isOther) notIn
      · intro both
        cases name with
        | nil => exact absurd (List.cons.inj both.1).1 isOther
        | cons first name =>
          obtain ⟨rfl, isStart⟩ := List.cons.inj both.1
          have notIn := List.not_mem_of_not_mem_cons both.2
          exact ⟨(name, rest), ih.mpr ⟨isStart, notIn⟩, rfl⟩

theorem splitClosing_name {name : Bytes} (notIn : closeBrace ∉ name) (rest : Bytes) :
    splitClosing (name ++ closeBrace :: rest) = some (name, rest) :=
  splitClosing_eq_some_iff.mpr ⟨rfl, notIn⟩

theorem splitClosing_eq_none_iff {start : Bytes} :
    splitClosing start = none ↔ closeBrace ∉ start := by
  constructor
  · intro isNone isIn
    obtain ⟨name, rest, isStart, notIn⟩ := List.eq_append_cons_of_mem isIn
    rw [splitClosing_eq_some_iff.mpr ⟨isStart, notIn⟩] at isNone
    cases isNone
  · intro notIn
    cases isSplit : splitClosing start with
    | none => rfl
    | some split =>
      have isStart := (splitClosing_eq_some_iff.mp isSplit).1
      rw [isStart] at notIn
      exact absurd (List.mem_append_right _ (List.mem_cons_self ..)) notIn

theorem length_splitClosing {start : Bytes} {split : Bytes × Bytes}
    (isSplit : splitClosing start = some split) :
    split.2.length < start.length := by
  rw [(splitClosing_eq_some_iff.mp isSplit).1, List.length_append, List.length_cons]
  omega

/-- The loop over `pairs` of both passes. -/
def findPair (pairs : List (Bytes × Bytes)) (name : Bytes) : Option (Bytes × Bytes) :=
  pairs.find? fun pair => pair.1.length == name.length && pair.1 == name

def resultSize (pairs : List (Bytes × Bytes)) : Bytes → Nat
  | [] => 0
  | byte :: start =>
    if byte = openBrace then
      match isSplit : splitClosing start with
      | some split =>
        have := length_splitClosing isSplit
        match findPair pairs split.1 with
        | some pair => pair.2.length + resultSize pairs split.2
        | none => split.1.length + 2 + resultSize pairs split.2
      | none => resultSize pairs start + 1
    else resultSize pairs start + 1
termination_by template => template.length
decreasing_by all_goals rw [List.length_cons]; omega

/-- The second pass; `out` is what has been written, and `size` the room for
the result. -/
def emitResult (pairs : List (Bytes × Bytes)) (size : Nat) (out : Bytes) : Bytes → Option Bytes
  | [] => some out
  | byte :: start =>
    if out.length < size then
      if byte = openBrace then
        match isSplit : splitClosing start with
        | some split =>
          have := length_splitClosing isSplit
          match findPair pairs split.1 with
          | some pair =>
            if size < out.length + pair.2.length then none
            else emitResult pairs size (out ++ pair.2) split.2
          | none =>
            if size < out.length + (split.1.length + 2) then none
            else
              emitResult pairs size (out ++ byte :: (split.1 ++ [closeBrace])) split.2
        | none => emitResult pairs size (out ++ [byte]) start
      else emitResult pairs size (out ++ [byte]) start
    else some out
termination_by template => template.length
decreasing_by all_goals rw [List.length_cons]; omega

def replacePlaceholders (allocated : Bool) (template : Bytes)
    (args : List (Option Bytes)) : Option Bytes :=
  let pairs := collectPairs 32 args
  if allocated then
    emitResult pairs (resultSize pairs template) [] template
  else none

/-! ## Templates as pieces -/

inductive Piece where
  | byte (byte : UInt8)
  | hole (name : Bytes)

/-- How a template is made of pieces: a hole is a name in braces, and an
opening brace that is not closed is an ordinary byte. -/
inductive Reads : Bytes → List Piece → Prop where
  | nil : Reads [] []
  | byte {byte : UInt8} {rest : Bytes} {pieces : List Piece} :
      (byte = openBrace → closeBrace ∉ rest) → Reads rest pieces →
      Reads (byte :: rest) (.byte byte :: pieces)
  | hole {name rest : Bytes} {pieces : List Piece} :
      openBrace ∉ name → closeBrace ∉ name → Reads rest pieces →
      Reads (openBrace :: (name ++ closeBrace :: rest)) (.hole name :: pieces)

/-- What stands in the result for a piece. -/
def Piece.Gives (args : List (Bytes × Bytes)) : Piece → Bytes → Prop
  | .byte letter, out => out = [letter]
  | .hole name, out => (name, out) ∈ args ∨ (∀ value, (name, value) ∉ args) ∧
        out = openBrace :: (name ++ [closeBrace])

/-- No opening brace stands between an opening brace and the next closing
one. -/
def Unnested (template : Bytes) : Prop :=
  ∀ front name back, template = front ++ openBrace :: (name ++ closeBrace :: back) →
    closeBrace ∉ name → openBrace ∉ name

theorem Unnested.behind {front rest : Bytes}
    (unnested : Unnested (front ++ rest)) : Unnested rest := by
  intro before name back isRest
  apply unnested (front ++ before) name back
  rw [isRest, List.append_assoc]

theorem exists_reads {template : Bytes} (unnested : Unnested template) :
    ∃ pieces, Reads template pieces := by
  induction isLength : template.length using Nat.strong_induction_on generalizing template with
  | h length ih =>
    subst isLength
    cases template with
    | nil => exact ⟨[], .nil⟩
    | cons byte start =>
      by_cases isHole : byte = openBrace ∧ closeBrace ∈ start
      · obtain ⟨isOpen, isIn⟩ := isHole
        obtain ⟨name, rest, isStart, notIn⟩ := List.eq_append_cons_of_mem isIn
        subst isOpen isStart
        have plain := unnested [] name rest rfl notIn
        have unnestedRest : Unnested rest :=
          @Unnested.behind (openBrace :: (name ++ [closeBrace])) rest
            (by rwa [List.cons_append, List.append_assoc])
        obtain ⟨pieces, reads⟩ := ih rest.length (by
          rw [List.length_cons, List.length_append, List.length_cons]
          omega) unnestedRest rfl
        exact ⟨_, .hole plain notIn reads⟩
      · have unnestedStart : Unnested start := @Unnested.behind [byte] start unnested
        obtain ⟨pieces, reads⟩ := ih start.length (Nat.lt_succ_self _) unnestedStart rfl
        exact ⟨_, .byte (fun isOpen isIn => isHole ⟨isOpen, isIn⟩) reads⟩

/-! ## Both passes -/

variable {pairs : List (Bytes × Bytes)}

/-- What both passes take a piece for. -/
def pieceText (pairs : List (Bytes × Bytes)) : Piece → Bytes
  | .byte byte => [byte]
  | .hole name =>
    match findPair pairs name with
    | some pair => pair.2
    | none => openBrace :: (name ++ [closeBrace])

theorem pieceText_gives (pairs : List (Bytes × Bytes)) (piece : Piece) :
    piece.Gives pairs (pieceText pairs piece) := by
  cases piece with
  | byte letter => rfl
  | hole name =>
    rw [Piece.Gives, pieceText]
    cases isFound : findPair pairs name with
    | some pair =>
      have isName := List.find?_some isFound
      rw [Bool.and_eq_true, beq_iff_eq, beq_iff_eq] at isName
      refine Or.inl ?_
      rw [← isName.2]
      exact List.mem_of_find?_eq_some isFound
    | none =>
      refine Or.inr ⟨fun value isIn => ?_, rfl⟩
      apply List.find?_eq_none.mp isFound _ isIn
      rw [beq_self_eq_true, beq_self_eq_true]
      rfl

theorem resultSize_reads {template : Bytes} {pieces : List Piece} (reads : Reads template pieces) :
    resultSize pairs template = (pieces.flatMap (pieceText pairs)).length := by
  induction reads with
  | nil => rw [resultSize]; rfl
  | @byte letter rest pieces isText _ ih =>
    rw [List.flatMap_cons, List.length_append, ← ih, resultSize, Nat.add_comm]
    split
    next isOpen =>
      split
      next split isSplit =>
        rw [splitClosing_eq_none_iff.mpr (isText isOpen)] at isSplit
        cases isSplit
      next => rfl
    next => rfl
  | @hole name rest pieces _ notIn _ ih =>
    rw [List.flatMap_cons, List.length_append, ← ih, resultSize, if_pos rfl]
    split
    next split isSplit =>
      rw [splitClosing_name notIn] at isSplit
      cases isSplit
      rw [pieceText]
      cases findPair pairs name with
      | some pair => rfl
      | none => simp [Nat.add_assoc]
    next isNone =>
      rw [splitClosing_name notIn] at isNone
      cases isNone

theorem emitResult_reads {size : Nat} {out template : Bytes}
    {pieces : List Piece} (reads : Reads template pieces)
    (isSize : size = out.length + (pieces.flatMap (pieceText pairs)).length) :
    emitResult pairs size out template = some (out ++ pieces.flatMap (pieceText pairs)) := by
  induction reads generalizing out with
  | nil => rw [emitResult, List.flatMap_nil, List.append_nil]
  | @byte letter rest pieces isText _ ih =>
    rw [List.flatMap_cons, List.length_append, ← Nat.add_assoc, ← List.length_append] at isSize
    rw [List.flatMap_cons, ← List.append_assoc, ← ih isSize, emitResult,
      if_pos (by rw [isSize, List.length_append]; exact Nat.lt_add_right _ (Nat.lt_succ_self _))]
    split
    next isOpen =>
      split
      next split isSplit =>
        rw [splitClosing_eq_none_iff.mpr (isText isOpen)] at isSplit
        cases isSplit
      next => rfl
    next => rfl
  | @hole name rest pieces _ notIn _ ih =>
    have whole := isSize
    rw [List.flatMap_cons, List.length_append, ← Nat.add_assoc] at isSize
    have next := @ih (out ++ pieceText pairs (.hole name))
      (by rw [List.length_append]; exact isSize)
    rw [emitResult]
    split
    next =>
      rw [if_pos rfl, List.flatMap_cons, ← List.append_assoc, ← next]
      split
      next split isSplit =>
        rw [splitClosing_name notIn] at isSplit
        cases isSplit
        rw [pieceText] at isSize ⊢
        cases isFound : findPair pairs name with
        | some pair =>
          rw [isFound] at isSize
          exact if_neg (Nat.not_lt.mpr (isSize ▸ Nat.le_add_right _ _))
        | none =>
          rw [isFound] at isSize
          refine if_neg ?_
          dsimp only
          simp only [List.length_cons, List.length_append, List.length_nil] at isSize
          omega
      next isNone =>
        rw [splitClosing_name notIn] at isNone
        cases isNone
    next full =>
      have nothing : ((Piece.hole name :: pieces).flatMap (pieceText pairs)) = [] := by
        apply List.eq_nil_of_length_eq_zero
        omega
      rw [nothing, List.append_nil]

theorem collectPairs_args {room : Nat} {args : List (Bytes × Bytes)} (few : args.length ≤ room) :
    collectPairs room (args.flatMap (fun arg => [some arg.1, some arg.2]) ++ [none]) =
        args := by
  induction args generalizing room with
  | nil => cases room <;> rfl
  | cons arg args ih =>
    cases room with
    | zero => cases few
    | succ room =>
      exact congrArg (arg :: ·) (ih (Nat.le_of_succ_le_succ few))

/-- The result is made of the pieces of the template in their order: a listed
name in braces gives its value and everything else gives itself.  The first
pass computes the length of the result. -/
theorem replacePlaceholders_reads (template : Bytes)
    (unnested : Unnested template) (args : List (Bytes × Bytes))
    (few : args.length ≤ 32) :
    ∃ pieces texts, Reads template pieces ∧ List.Forall₂ (Piece.Gives args) pieces texts ∧
      resultSize args template = texts.flatten.length ∧
      replacePlaceholders true template
        (args.flatMap (fun arg => [some arg.1, some arg.2]) ++ [none]) = some texts.flatten := by
  obtain ⟨pieces, reads⟩ := exists_reads unnested
  refine ⟨pieces, pieces.map (pieceText args), reads, ?_, ?_, ?_⟩
  · rw [List.forall₂_map_right_iff, List.forall₂_same]
    exact fun piece _ => pieceText_gives args piece
  · exact resultSize_reads reads
  · rw [replacePlaceholders, if_pos rfl, collectPairs_args few]
    rw [emitResult_reads reads]
    · rfl
    · rw [resultSize_reads reads]
      exact (Nat.zero_add _).symm

private theorem unnested_of_count {template : Bytes}
    (single : template.count openBrace ≤ 1) : Unnested template := by
  intro front name back isTemplate _ isIn
  have inName := List.count_pos_iff.mpr isIn
  rw [isTemplate, List.count_append, List.count_cons_self, List.count_append] at single
  omega

/-- A value with braces is not read again. -/
theorem replacePlaceholders_reads_braces : ∃ pieces texts, Reads (ascii "{a}!") pieces ∧
      List.Forall₂ (Piece.Gives [(ascii "a", ascii "{a}")]) pieces texts ∧
      resultSize [(ascii "a", ascii "{a}")] (ascii "{a}!") = texts.flatten.length ∧
      replacePlaceholders true (ascii "{a}!") [some (ascii "a"), some (ascii "{a}"), none] =
          some texts.flatten :=
  replacePlaceholders_reads _ (unnested_of_count (by decide)) [(ascii "a", ascii "{a}")] (by decide)

end CWebFramework.Translation
