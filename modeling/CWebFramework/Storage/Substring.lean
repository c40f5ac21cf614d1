import CWebFramework.Storage.FileSystem

/-!
# What `cmpsubstr_lower` finds

The matcher goes through the text once.  When a character does not match, it
starts over behind that character, so what it has compared so far is not looked
at again: `test_helpers.c` expects no backtracking.  It never reports a text that does not occur, and it finds every
occurrence only of a text that repeats one letter.
-/

namespace CWebFramework.Storage

/-- The text occurs, up to ASCII case. -/
def OccursLower (wanted text : Bytes) : Prop := wanted.map tolower <:+: text.map tolower

variable {wanted : Bytes}

theorem substrLoop_match {byte other : UInt8}
    (same : tolower byte = tolower other) (text rest : Bytes) :
    substrLoop wanted (byte :: text) (other :: rest) = substrLoop wanted text rest :=
  if_pos same

theorem substrLoop_mismatch {byte other : UInt8}
    (different : tolower byte ≠ tolower other) (text rest : Bytes) :
    substrLoop wanted (byte :: text) (other :: rest) = cmpsubstrLower text wanted :=
  if_neg different

private theorem substrLoop_front {front matched : Bytes}
    (same : front.map tolower = matched.map tolower) (text rest : Bytes) :
    substrLoop wanted (front ++ text) (matched ++ rest) =
      substrLoop wanted text rest := by
  induction front generalizing matched with
  | nil => rw [List.map_eq_nil_iff.mp same.symm, List.nil_append, List.nil_append]
  | cons byte front ih =>
    cases matched with
    | nil => cases same
    | cons other matched =>
      have ⟨first, others⟩ := List.cons.inj same
      rw [List.cons_append, List.cons_append, substrLoop_match first]
      exact ih others

/-- A text that is read without going back until the wanted text has been
found. An attempt that fails takes a front of the wanted text and one character
that goes on differently. -/
inductive FoundInPass (wanted : Bytes) : Bytes → Prop
  | found {front : Bytes} (same : front.map tolower = wanted.map tolower)
      (rest : Bytes) : FoundInPass wanted (front ++ rest)
  | missed {front matched left text : Bytes} {byte other : UInt8}
      (isWanted : matched ++ other :: left = wanted)
      (same : front.map tolower = matched.map tolower)
      (different : tolower byte ≠ tolower other)
      (later : FoundInPass wanted text) :
      FoundInPass wanted (front ++ byte :: text)

/-- The invariant of the loop: the front of the wanted text that has been
matched stands in front of the rest of the text. -/
theorem foundInPass_of_substrLoop {text seen matched rest : Bytes}
    (isWanted : matched ++ rest = wanted) (same : seen.map tolower = matched.map tolower)
    (found : substrLoop wanted text rest = true) :
    FoundInPass wanted (seen ++ text) := by
  induction text generalizing seen matched rest with
  | nil =>
    cases rest with
    | nil => exact .found (by rw [same, ← isWanted, List.append_nil]) _
    | cons other rest => cases found
  | cons byte text ih =>
    cases rest with
    | nil => exact .found (by rw [same, ← isWanted, List.append_nil]) _
    | cons other rest =>
      by_cases isSame : tolower byte = tolower other
      · rw [substrLoop_match isSame] at found
        have later := @ih (seen ++ [byte]) (matched ++ [other]) rest
          (by rw [List.append_assoc]; exact isWanted)
          (by rw [List.map_append, List.map_append, same]
              exact congrArg (_ ++ [·]) isSame) found
        rwa [List.append_assoc] at later
      · rw [substrLoop_mismatch isSame] at found
        exact .missed isWanted same isSame (@ih [] [] wanted rfl rfl found)

theorem cmpsubstrLower_iff_foundInPass (wanted text : Bytes) :
    cmpsubstrLower text wanted = true ↔ FoundInPass wanted text := by
  refine ⟨@foundInPass_of_substrLoop wanted text [] [] wanted rfl rfl, ?_⟩
  intro isFound
  induction isFound with
  | @found front same rest =>
    have whole := @substrLoop_front wanted front wanted same rest []
    rw [List.append_nil] at whole
    rw [cmpsubstrLower, whole, substrLoop]
  | @missed front matched left text byte other isWanted same different _ ih =>
    have attempt := @substrLoop_front wanted front matched same (byte :: text) (other :: left)
    rw [substrLoop_mismatch different, isWanted] at attempt
    exact attempt.trans ih

theorem FoundInPass.occurs {text : Bytes} (isFound : FoundInPass wanted text) :
    OccursLower wanted text := by
  induction isFound with
  | found same rest =>
    rw [OccursLower, List.map_append, same]
    exact (List.prefix_append _ _).isInfix
  | @missed front _ _ text byte _ _ _ _ _ ih =>
    rw [OccursLower, List.map_append, List.map_cons]
    exact ih.trans ((List.suffix_cons _ _).trans (List.suffix_append _ _)).isInfix

theorem occurs_of_cmpsubstrLower {text : Bytes}
    (found : cmpsubstrLower text wanted = true) : OccursLower wanted text :=
  ((cmpsubstrLower_iff_foundInPass wanted text).mp found).occurs

/-- A word without a letter does not go over an occurrence of that letter. -/
theorem infix_of_append_cons {word left right : Bytes} {letter : UInt8}
    (absent : letter ∉ word) (inside : word <:+: left ++ letter :: right) :
    word <:+: left ∨ word <:+: right := by
  obtain ⟨before, behind, isWhole⟩ := inside
  rw [List.append_assoc] at isWhole
  rcases List.append_eq_append_iff.mp isWhole with
    ⟨middle, isLeft, isWord⟩ | ⟨middle, isBefore, isRest⟩
  · rcases List.append_eq_append_iff.mp isWord with
      ⟨rest, isMiddle, -⟩ | ⟨rest, isWord, isLetter⟩
    · left
      rw [isLeft, isMiddle]
      exact ((List.prefix_append word rest).isInfix).trans (List.suffix_append before _).isInfix
    · cases rest with
      | nil =>
        left
        rw [List.append_nil] at isWord
        rw [isLeft, isWord]
        exact (List.suffix_append before middle).isInfix
      | cons other rest =>
        rw [(List.cons.inj isLetter).1, isWord] at absent
        exact absurd (List.mem_append_right _ List.mem_cons_self) absent
  · cases middle with
    | nil =>
      rw [List.nil_append] at isRest
      cases word with
      | nil => exact .inl (List.nil_infix)
      | cons other word =>
        rw [(List.cons.inj isRest).1] at absent
        exact absurd List.mem_cons_self absent
    | cons other middle =>
      right
      rw [(List.cons.inj isRest).2]
      exact (List.prefix_append word behind).isInfix.trans (List.suffix_append middle _).isInfix

/-- A text that repeats one letter is found wherever it occurs. The induction
is on the text, with the letters that have been matched in front of it. -/
theorem substrLoop_of_uniform {letter : UInt8} (uniform : ∀ byte ∈ wanted, tolower byte = letter)
    {text rest : Bytes} {count : Nat} (isWanted : count + rest.length = wanted.length)
    (uniformRest : ∀ byte ∈ rest, tolower byte = letter)
    (occurs : List.replicate wanted.length letter <:+:
      List.replicate count letter ++ text.map tolower) :
    substrLoop wanted text rest = true := by
  induction text generalizing rest count with
  | nil =>
    cases rest with
    | nil => rfl
    | cons other rest =>
      have length := occurs.length_le
      simp only [List.map_nil, List.append_nil, List.length_replicate,
        List.length_cons] at length isWanted
      omega
  | cons byte text ih =>
    cases rest with
    | nil => rfl
    | cons other rest =>
      have ⟨isLetter, others⟩ := List.forall_mem_cons.mp uniformRest
      rw [List.length_cons] at isWanted
      by_cases same : tolower byte = tolower other
      · rw [substrLoop_match same]
        apply @ih rest (count + 1) (by omega) others
        rw [List.replicate_succ', List.append_assoc]
        rwa [List.map_cons, same, isLetter] at occurs
      · rw [substrLoop_mismatch same]
        rw [isLetter] at same
        apply @ih wanted 0 (Nat.zero_add _) uniform
        rw [List.map_cons] at occurs
        have absent : tolower byte ∉ List.replicate wanted.length letter :=
          fun isIn => same (List.eq_of_mem_replicate isIn)
        rcases infix_of_append_cons absent occurs with inside | inside
        · have length := inside.length_le
          rw [List.length_replicate, List.length_replicate] at length
          omega
        · exact inside

/-- One letter more in front of a repeated letter shifts the match by one. -/
theorem substrLoop_shifted {letter byte : UInt8} {same : Bytes} (isLetter : tolower byte = letter)
    (uniform : ∀ other ∈ same, tolower other = letter) (text rest : Bytes) :
    ∃ last, tolower last = letter ∧ substrLoop wanted (byte :: (same ++ text)) (same ++ rest) =
        substrLoop wanted (last :: text) rest := by
  induction same generalizing byte with
  | nil => exact ⟨byte, isLetter, rfl⟩
  | cons other same ih =>
    have ⟨isOther, others⟩ := List.forall_mem_cons.mp uniform
    rw [List.cons_append, List.cons_append, substrLoop_match (isLetter.trans isOther.symm)]
    exact ih isOther others

/-- A text with two letters is not found behind its own first letter. -/
theorem cmpsubstrLower_shifted {first : UInt8} {others : Bytes}
    (mixed : ¬ ∀ byte ∈ others, tolower byte = tolower first) :
    cmpsubstrLower (first :: first :: others) (first :: others) = false := by
  have isSplit := @List.takeWhile_append_dropWhile _
    (fun byte => tolower byte == tolower first) others
  have uniform : ∀ byte ∈ others.takeWhile fun byte =>
      tolower byte == tolower first, tolower byte = tolower first := by
    intro byte isIn
    have isSame := List.mem_takeWhile_imp isIn
    exact beq_iff_eq.mp isSame
  generalize others.takeWhile _ = same at isSplit uniform
  cases isRest : others.dropWhile fun byte => tolower byte == tolower first with
  | nil =>
    rw [isRest, List.append_nil] at isSplit
    exact absurd (isSplit ▸ uniform) mixed
  | cons other rest =>
    have different : tolower other ≠ tolower first := by
      have stops := List.head?_dropWhile_not (fun byte => tolower byte == tolower first) others
      rw [isRest] at stops
      exact fun isSame => Bool.false_ne_true (stops.symm.trans (beq_iff_eq.mpr isSame))
    rw [isRest] at isSplit
    obtain ⟨last, isLast, run⟩ := @substrLoop_shifted (first :: others)
      (tolower first) first (first :: same) rfl
      (List.forall_mem_cons.mpr ⟨rfl, uniform⟩) (other :: rest)
      (other :: rest)
    rw [List.cons_append, isSplit] at run
    rw [cmpsubstrLower, run, substrLoop_mismatch (isLast ▸ Ne.symm different)]
    by_contra found
    have length := (occurs_of_cmpsubstrLower (eq_true_of_ne_false found)).length_le
    rw [← isSplit] at length
    simp only [List.map_cons, List.map_append, List.length_cons,
      List.length_append, List.length_map] at length
    omega

/-- The text is found exactly if one pass that never goes back comes upon it;
what is found occurs; and all occurrences are found, in every text, exactly if
the wanted text repeats one letter. -/
theorem cmpsubstrLower_spec (first : UInt8) (others : Bytes) :
    (∀ text, cmpsubstrLower text (first :: others) = true ↔ FoundInPass (first :: others) text) ∧
    (∀ text, cmpsubstrLower text (first :: others) = true → OccursLower (first :: others) text) ∧
    ((∀ text, cmpsubstrLower text (first :: others) = true ↔ OccursLower (first :: others) text) ↔
      ∀ byte ∈ others, tolower byte = tolower first) := by
  refine ⟨cmpsubstrLower_iff_foundInPass _,
    fun text found => occurs_of_cmpsubstrLower found, ?_, ?_⟩
  · intro correct
    by_contra mixed
    have missed := cmpsubstrLower_shifted mixed
    have found := (correct (first :: first :: others)).mpr
      (List.suffix_cons (tolower first) _).isInfix
    exact Bool.false_ne_true (missed.symm.trans found)
  · intro others_eq text
    have uniform : ∀ byte ∈ first :: others, tolower byte = tolower first :=
      List.forall_mem_cons.mpr ⟨rfl, others_eq⟩
    refine ⟨occurs_of_cmpsubstrLower, fun occurs => ?_⟩
    have isRepeated : (first :: others).map tolower =
        List.replicate (first :: others).length (tolower first) := by
      rw [List.eq_replicate_iff, List.length_map]
      exact ⟨rfl, List.forall_mem_map.mpr uniform⟩
    rw [OccursLower, isRepeated] at occurs
    exact @substrLoop_of_uniform _ _ uniform text _ 0 (Nat.zero_add _) uniform occurs

/-- The second `a` is compared with `b` and not tried as a start. -/
theorem cmpsubstrLower_misses : OccursLower (ascii "ab") (ascii "aab") ∧
      cmpsubstrLower (ascii "aab") (ascii "ab") = false :=
  ⟨⟨ascii "a", [], by decide⟩, by decide⟩

end CWebFramework.Storage
