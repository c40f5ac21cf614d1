import CWebFramework.Misc.Base64
import CWebFramework.Misc.Numerals

/-!
# DKIM signatures

`dkim_create_sign` of `protocols/smtp/dkim.c` writes the tags of a signature,
signs them behind the canonical headers and folds the signed text.  SHA-1 and
the signature are parameters.  A verifier unfolds the field, takes the value of
the tag `b` out and makes white space canonical; it has to get the text that
was signed.
-/

namespace CWebFramework.Smtp

open Base64

/-! ## Writing -/

/-- The loop of `__dkim_wrap` that copies. -/
def dkimWrapLoop : Nat → Bytes → Bytes
  | _, [] => []
  | lcount, byte :: rest =>
    if byte = Byte.space ∨ lcount = 75 then
      byte :: Byte.cr :: Byte.lf :: Byte.ht :: dkimWrapLoop 0 rest
    else byte :: dkimWrapLoop (lcount + 1) rest

def dkimWrap (text : Bytes) : Bytes := dkimWrapLoop 0 text

/-- `__dkim_header_list_create`, on the names in lower case. -/
def dkimHeaderList (keys : List Bytes) : Bytes :=
  List.intercalate [Byte.colon] (keys.map (List.map tolower))

/-- What is signed.  `canonBody` is the canonical body, whose length is an
`int`; the time is a `long long`. -/
structure Dkim where
  selector : Bytes
  domain : Bytes
  timestamp : Int
  keys : List Bytes
  canonBody : Bytes
  timestamp_small : timestamp.natAbs ≤ 2 ^ 63
  canonBody_small : canonBody.length < 2 ^ 31

/-- The tags that `dkim_create_sign` writes, up to the tag `b`. -/
def Dkim.tags (sha1 : Bytes → Vector UInt8 20) (dkim : Dkim) : Bytes :=
  ascii "v=1; a=rsa-sha1; s=" ++ dkim.selector ++ ascii "; d=" ++
    dkim.domain ++ ascii "; l=" ++ longText dkim.canonBody.length ++
    ascii "; t=" ++ longText dkim.timestamp ++
    ascii "; c=relaxed/relaxed; h=" ++ dkimHeaderList dkim.keys ++
    ascii "; bh=" ++ base64Encode (sha1 dkim.canonBody).toList

/-- The value of the signed field, `data`. -/
def Dkim.data (sha1 : Bytes → Vector UInt8 20) (dkim : Dkim) : Bytes :=
  dkim.tags sha1 ++ ascii "; b="

/-- The last line of `__dkim_make_headers_string`. -/
def Dkim.signedField (sha1 : Bytes → Vector UInt8 20) (dkim : Dkim) : Bytes :=
  ascii "dkim-signature" ++ Byte.colon :: dkim.data sha1

/-- The result of `dkim_create_sign` for a signature. -/
def dkimCreateSign (sha1 : Bytes → Vector UInt8 20) (dkim : Dkim) (sign : Bytes) : Bytes :=
  dkimWrap (dkim.data sha1 ++ base64Encode sign)

/-! ## Verifying -/

/-- A folded text without its line breaks, if every CR and LF belongs to a line
break in front of white space. -/
def unfoldLines : Bytes → Option Bytes
  | [] => some []
  | byte :: rest =>
    if byte = Byte.cr then
      match rest with
      | next :: blank :: more =>
        if next = Byte.lf ∧ isOws blank then unfoldLines (blank :: more)
        else none
      | _ => none
    else if byte = Byte.lf then none
    else (unfoldLines rest).map (byte :: ·)

/-- Runs of white space become one space, and none is left at the end.
`pending` says that the letters in front end with white space. -/
def relaxLoop : Bool → Bytes → Bytes
  | _, [] => []
  | pending, byte :: rest =>
    if isOws byte then relaxLoop true rest
    else (if pending then [Byte.space] else []) ++ byte :: relaxLoop false rest

def relaxedHeader (key value : Bytes) : Option Bytes :=
  (unfoldLines value).map fun text =>
    key.map tolower ++ Byte.colon :: relaxLoop false (text.dropWhile isOws)

def emptyLastTag (value : Bytes) : Bytes :=
  let tag := (value.reverse.takeWhile (· != Byte.semicolon)).reverse
  value.take (value.length - tag.length) ++ tag.takeWhile (· != Byte.equal) ++ [Byte.equal]

/-! ## Folding and unfolding -/

/-- The text that is left of a folded one. -/
def tabbed : Nat → Bytes → Bytes
  | _, [] => []
  | lcount, byte :: rest =>
    if byte = Byte.space ∨ lcount = 75 then
      byte :: Byte.ht :: tabbed 0 rest
    else byte :: tabbed (lcount + 1) rest

variable {byte : UInt8}

theorem unfoldLines_letter (noReturn : byte ≠ Byte.cr) (noFeed : byte ≠ Byte.lf) (rest : Bytes) :
    unfoldLines (byte :: rest) = (unfoldLines rest).map (byte :: ·) := by
  rw [unfoldLines.eq_def]
  simp only [if_neg noReturn, if_neg noFeed]

theorem unfoldLines_fold (rest : Bytes) : unfoldLines (Byte.cr :: Byte.lf :: Byte.ht :: rest) =
      (unfoldLines rest).map (Byte.ht :: ·) := by
  rw [unfoldLines, if_pos rfl, if_pos ⟨rfl, by decide⟩, unfoldLines_letter (by decide) (by decide)]

variable {text : Bytes}

theorem unfoldLines_wrap (plain : ∀ byte ∈ text, byte ≠ Byte.cr ∧ byte ≠ Byte.lf) (lcount : Nat) :
    unfoldLines (dkimWrapLoop lcount text) = some (tabbed lcount text) := by
  induction text generalizing lcount with
  | nil => rfl
  | cons byte rest ih =>
    rw [List.forall_mem_cons] at plain
    obtain ⟨⟨noReturn, noFeed⟩, restPlain⟩ := plain
    by_cases breaks : byte = Byte.space ∨ lcount = 75
    · rw [dkimWrapLoop, if_pos breaks, tabbed, if_pos breaks,
        unfoldLines_letter noReturn noFeed, unfoldLines_fold, ih restPlain]
      rfl
    · rw [dkimWrapLoop, if_neg breaks, tabbed, if_neg breaks,
        unfoldLines_letter noReturn noFeed, ih restPlain]
      rfl

theorem unfoldLines_plain {unfolded : Bytes} (isUnfolded : unfoldLines text = some unfolded) :
    ∀ byte ∈ unfolded, byte ≠ Byte.cr ∧ byte ≠ Byte.lf := by
  fun_induction unfoldLines text generalizing unfolded with
  | case1 =>
    cases isUnfolded
    simp
  | case2 next blank more breaks ih => exact ih isUnfolded
  | case3 | case4 | case5 => cases isUnfolded
  | case6 byte rest noReturn noFeed ih =>
    obtain ⟨inner, isInner, rfl⟩ := Option.map_eq_some_iff.mp isUnfolded
    rw [List.forall_mem_cons]
    exact ⟨⟨noReturn, noFeed⟩, ih isInner⟩

private theorem mem_of_mem_relaxLoop {pending : Bool} (isIn : byte ∈ relaxLoop pending text) :
    byte ∈ text ∨ byte = Byte.space := by
  induction text generalizing pending with
  | nil => cases isIn
  | cons first rest ih =>
    rw [relaxLoop] at isIn
    split_ifs at isIn <;> simp at isIn ⊢ <;> grind

/-! ## Words -/

/-- A word that stays together when the text is folded. -/
def Neat (word : Bytes) : Prop := word ≠ [] ∧ word.length ≤ 76 ∧ Byte.ht ∉ word

/-- The words of a text whose first word goes on behind `lcount` letters. -/
def Fits (lcount : Nat) : List Bytes → Prop
  | [] => False
  | word :: words =>
    Byte.ht ∉ word ∧ lcount + word.length ≤ 76 ∧ ∀ other ∈ words, Neat other

def wordsOf (text : Bytes) : List Bytes := text.splitOnP (· == Byte.space)

theorem wordsOf_space (rest : Bytes) : wordsOf (Byte.space :: rest) = [] :: wordsOf rest := by
  rw [wordsOf, List.splitOnP_cons_eq_if_modifyHead]
  rfl

theorem wordsOf_letter (letter : byte ≠ Byte.space) (rest : Bytes) :
    ∃ word words, wordsOf rest = word :: words ∧
      wordsOf (byte :: rest) = (byte :: word) :: words := by
  obtain ⟨word, words, isWords⟩ :=
    List.exists_cons_of_ne_nil (List.splitOnP_ne_nil (· == Byte.space) rest)
  refine ⟨word, words, isWords, ?_⟩
  rw [wordsOf, List.splitOnP_cons_eq_if_modifyHead, isWords, if_neg (by simpa using letter)]
  rfl

private theorem fits_letter (letter : byte ≠ Byte.space) (noTab : byte ≠ Byte.ht)
    (rest : Bytes) (lcount : Nat) :
    Fits lcount (wordsOf (byte :: rest)) ↔ Fits (lcount + 1) (wordsOf rest) := by
  obtain ⟨word, words, isWords, same⟩ := wordsOf_letter letter rest
  rw [isWords, same]
  simp only [Fits, List.mem_cons, not_or, List.length_cons]
  constructor
  · rintro ⟨⟨-, free⟩, short, others⟩
    exact ⟨free, by omega, others⟩
  · rintro ⟨free, short, others⟩
    exact ⟨⟨Ne.symm noTab, free⟩, by omega, others⟩

theorem not_fits_tab (rest : Bytes) (lcount : Nat) : ¬Fits lcount (wordsOf (Byte.ht :: rest)) := by
  obtain ⟨word, words, -, same⟩ := wordsOf_letter (by decide : Byte.ht ≠ Byte.space) rest
  rw [same]
  exact fun fits => fits.1 List.mem_cons_self

theorem forall_neat_iff (text : Bytes) : (∀ word ∈ wordsOf text, Neat word) ↔
      (wordsOf text).head? ≠ some [] ∧ Fits 0 (wordsOf text) := by
  have nonempty := List.splitOnP_ne_nil (· == Byte.space) text
  cases isWords : wordsOf text with
  | nil => exact absurd isWords nonempty
  | cons word words =>
    simp only [List.forall_mem_cons, List.head?_cons, ne_eq,
      Option.some.injEq, Fits, Neat, Nat.zero_add]
    tauto

/-- White space in front is one space, if a letter follows at all. -/
theorem relaxLoop_true_cases (text : Bytes) :
    relaxLoop true text = [] ∨ ∃ byte rest, isOws byte = false ∧
      relaxLoop true text = Byte.space :: byte :: rest := by
  induction text with
  | nil => exact .inl rfl
  | cons byte rest ih =>
    by_cases blank : isOws byte = true
    · rw [relaxLoop, if_pos blank]
      exact ih
    · rw [relaxLoop, if_neg blank]
      exact .inr ⟨byte, _, Bool.eq_false_iff.mpr blank, rfl⟩

private theorem relaxLoop_true_ne {word : Bytes} (blank : isOws byte = true) :
    relaxLoop true text ≠ Byte.space :: byte :: word ∧
      (byte ≠ Byte.space → relaxLoop true text ≠ byte :: word) := by
  rcases relaxLoop_true_cases text with none | ⟨letter, rest, isLetter, some⟩
  · rw [none]
    exact ⟨by simp, by simp⟩
  · rw [some]
    refine ⟨fun same => ?_, fun notSpace same => ?_⟩
    · injection same with _ tail
      injection tail with isSame
      rw [← isSame, isLetter] at blank
      cases blank
    · injection same with isSame
      exact notSpace isSame.symm

/-- A text is read back exactly if its words stay together: inside a word, right
behind a break, and behind white space. -/
theorem relaxLoop_tabbed (text : Bytes) :
    (∀ lcount ≤ 75, relaxLoop false (tabbed lcount text) = text ↔ Fits lcount (wordsOf text)) ∧
      (relaxLoop true (tabbed 0 text) = text ↔ Fits 76 (wordsOf text)) ∧
      (relaxLoop true (tabbed 0 text) = Byte.space :: text ↔ ∀ word ∈ wordsOf text, Neat word) := by
  induction text with
  | nil =>
    have single : wordsOf [] = [[]] := rfl
    simp only [single, tabbed, relaxLoop, Fits, Neat]
    simp
    omega
  | cons byte rest ih =>
    obtain ⟨inside, behindBreak, behindSpace⟩ := ih
    by_cases isSpace : byte = Byte.space
    · subst isSpace
      have read : ∀ pending lcount, relaxLoop pending (tabbed lcount (Byte.space :: rest)) =
            relaxLoop true (tabbed 0 rest) := by
        intro pending lcount
        rw [tabbed, if_pos (.inl rfl)]
        rfl
      simp only [read, wordsOf_space, Fits, behindSpace]
      refine ⟨fun lcount small => ?_, ?_, ?_⟩
      · simp
        omega
      · simp
      · refine iff_of_false (relaxLoop_true_ne (by decide)).1 fun neat => ?_
        exact (neat [] List.mem_cons_self).1 rfl
    · by_cases isTab : byte = Byte.ht
      · subst isTab
        have read : ∀ pending lcount, ∃ other, relaxLoop pending (tabbed lcount (Byte.ht :: rest)) =
              relaxLoop true other := by
          intro pending lcount
          rw [tabbed]
          split_ifs
          · exact ⟨_, rfl⟩
          · exact ⟨_, rfl⟩
        refine ⟨fun lcount small => ?_, ?_, ?_⟩
        · obtain ⟨other, isRead⟩ := read false lcount
          rw [isRead]
          exact iff_of_false ((relaxLoop_true_ne (by decide)).2 (by decide))
            (not_fits_tab rest lcount)
        · obtain ⟨other, isRead⟩ := read true 0
          rw [isRead]
          exact iff_of_false ((relaxLoop_true_ne (by decide)).2 (by decide)) (not_fits_tab rest 76)
        · obtain ⟨other, isRead⟩ := read true 0
          rw [isRead, forall_neat_iff]
          exact iff_of_false (relaxLoop_true_ne (by decide)).1
            fun neat => not_fits_tab rest 0 neat.2
      · have letter : isOws byte = false := by
          simp [isOws, isSpace, isTab]
        have noBreak : ¬(byte = Byte.space ∨ 0 = 75) := by simp [isSpace]
        have start : relaxLoop true (tabbed 0 (byte :: rest)) =
            Byte.space :: byte :: relaxLoop false (tabbed 1 rest) := by
          rw [tabbed, if_neg noBreak, relaxLoop, if_neg (by simp [letter])]
          rfl
        refine ⟨fun lcount small => ?_, ?_, ?_⟩
        · rw [fits_letter isSpace isTab, tabbed]
          by_cases full : lcount = 75
          · rw [if_pos (.inr full), relaxLoop, if_neg (by simp [letter]), full, ← behindBreak]
            exact List.cons_inj_right byte
          · rw [if_neg (by simp [isSpace, full]), relaxLoop,
              if_neg (by simp [letter]), ← inside (lcount + 1) (by omega)]
            exact List.cons_inj_right byte
        · rw [start, fits_letter isSpace isTab]
          refine iff_of_false (fun same => ?_) fun fits => ?_
          · injection same with isSame
            exact isSpace isSame.symm
          · cases words : wordsOf rest with
            | nil => rw [words] at fits; exact fits
            | cons word others =>
              rw [words] at fits
              have short := fits.2.1
              omega
        · rw [start, forall_neat_iff, fits_letter isSpace isTab, ← inside 1 (by omega)]
          obtain ⟨word, words, -, same⟩ := wordsOf_letter isSpace rest
          simp [same]

/-! ## The last tag -/

private theorem dkimWrapLoop_append (lcount : Nat) (first : Bytes) :
    ∃ between, ∀ second, dkimWrapLoop lcount (first ++ second) =
      dkimWrapLoop lcount first ++ dkimWrapLoop between second := by
  induction first generalizing lcount with
  | nil => exact ⟨lcount, fun _ => rfl⟩
  | cons byte first ih =>
    simp only [List.cons_append, dkimWrapLoop]
    split_ifs
    · obtain ⟨between, split⟩ := ih 0
      exact ⟨between, fun second => by rw [split]; rfl⟩
    · obtain ⟨between, split⟩ := ih (lcount + 1)
      exact ⟨between, fun second => by rw [split]; rfl⟩

private theorem mem_of_mem_dkimWrapLoop {lcount : Nat} (isIn : byte ∈ dkimWrapLoop lcount text) :
    byte ∈ text ∨ byte ∈ [Byte.cr, Byte.lf, Byte.ht] := by
  induction text generalizing lcount with
  | nil => cases isIn
  | cons first rest ih =>
    rw [dkimWrapLoop] at isIn
    split_ifs at isIn <;> simp at isIn ⊢ <;> grind

/-- The tag `b` is written in the same way for every signature. -/
theorem dkimWrapLoop_lastTag (lcount : Nat) :
    ∃ tag, Byte.semicolon ∉ tag ∧ Byte.equal ∉ tag ∧ ∀ sign,
      dkimWrapLoop lcount (ascii "; b=" ++ sign) =
        Byte.semicolon :: (tag ++ Byte.equal :: dkimWrapLoop 2 sign) := by
  have spelled : ascii "; b=" = [Byte.semicolon, Byte.space, 98, Byte.equal] := by
    decide
  by_cases full : lcount = 75
  · refine ⟨[Byte.cr, Byte.lf, Byte.ht, Byte.space, Byte.cr, Byte.lf, Byte.ht,
      98], by decide, by decide, fun sign => ?_⟩
    rw [spelled, full]
    rfl
  · refine ⟨[Byte.space, Byte.cr, Byte.lf, Byte.ht, 98], by decide, by decide, fun sign => ?_⟩
    have noBreak : ¬(Byte.semicolon = Byte.space ∨ lcount = 75) := by
      simp [full]
      decide
    rw [spelled, List.cons_append, dkimWrapLoop, if_neg noBreak]
    rfl

theorem emptyLastTag_append {tag rest : Bytes} (front : Bytes)
    (noSemicolon : Byte.semicolon ∉ tag) (noEqual : Byte.equal ∉ tag)
    (plain : Byte.semicolon ∉ rest) :
    emptyLastTag (front ++ Byte.semicolon :: (tag ++ Byte.equal :: rest)) =
      front ++ Byte.semicolon :: (tag ++ [Byte.equal]) := by
  have last : ((front ++ Byte.semicolon :: (tag ++ Byte.equal :: rest)).reverse.takeWhile
      (· != Byte.semicolon)).reverse = tag ++ Byte.equal :: rest := by
    have free : ∀ byte ∈ (tag ++ Byte.equal :: rest).reverse, (byte != Byte.semicolon) = true := by
      intro byte isIn
      rw [bne_iff_ne]
      rintro rfl
      simp only [List.mem_reverse, List.mem_append, List.mem_cons] at isIn
      rcases isIn with inTag | isEqual | inRest
      · exact noSemicolon inTag
      · exact absurd isEqual (by decide)
      · exact plain inRest
    rw [List.reverse_append, List.reverse_cons, List.append_assoc,
      List.takeWhile_append_of_pos free]
    simp
  have value : (tag ++ Byte.equal :: rest).takeWhile (· != Byte.equal) = tag := by
    have free : ∀ byte ∈ tag, (byte != Byte.equal) = true := by
      intro byte isIn
      rw [bne_iff_ne]
      rintro rfl
      exact noEqual isIn
    rw [List.takeWhile_append_of_pos free]
    simp
  simp only [emptyLastTag, last, value]
  have split : front ++ Byte.semicolon :: (tag ++ Byte.equal :: rest) =
      (front ++ [Byte.semicolon]) ++ (tag ++ Byte.equal :: rest) := by simp
  rw [split, List.length_append, Nat.add_sub_cancel, List.take_left]
  simp

/-- Without the signature, the field is the folded text that was signed. -/
theorem emptyLastTag_sign (sha1 : Bytes → Vector UInt8 20) (dkim : Dkim) (sign : Bytes) :
    emptyLastTag (Byte.space :: dkimCreateSign sha1 dkim sign) =
      Byte.space :: dkimWrap (dkim.data sha1) := by
  obtain ⟨between, split⟩ := dkimWrapLoop_append 0 (dkim.tags sha1)
  obtain ⟨tag, noSemicolon, noEqual, last⟩ := dkimWrapLoop_lastTag between
  have plain : Byte.semicolon ∉ dkimWrapLoop 2 (base64Encode sign) := by
    intro isIn
    rcases mem_of_mem_dkimWrapLoop isIn with inSign | inBreak
    · exact (base64Encode_plain inSign).2 rfl
    · exact absurd inBreak (by decide)
  have whole : dkimWrap (dkim.data sha1) = dkimWrapLoop 0 (dkim.tags sha1) ++
      Byte.semicolon :: (tag ++ [Byte.equal]) := by
    have empty := split (ascii "; b=" ++ [])
    rw [last, List.append_nil] at empty
    exact empty
  rw [whole, dkimCreateSign, dkimWrap, Dkim.data, List.append_assoc, split,
    last, ← List.cons_append, emptyLastTag_append _ noSemicolon noEqual plain]
  rfl

/-! ## The field that is verified -/

/-- A text without line breaks, whose only white space is single spaces, and
whose words have at most 76 characters. -/
def Foldable (text : Bytes) : Prop :=
  (∀ byte ∈ text, byte ≠ Byte.cr ∧ byte ≠ Byte.lf) ∧ ∀ word ∈ wordsOf text, Neat word

instance (word : Bytes) : Decidable (Neat word) := inferInstanceAs (Decidable (_ ∧ _ ∧ _))

instance (text : Bytes) : Decidable (Foldable text) :=
  @instDecidableAnd _ _ (List.decidableBAll _ text) (List.decidableBAll _ (wordsOf text))

private theorem wordsOf_append (first second : Bytes) : wordsOf (first ++ Byte.space :: second) =
      wordsOf first ++ wordsOf second :=
  List.splitOnP_append_cons first second (by decide)

private theorem foldable_append (first second : Bytes) : Foldable (first ++ Byte.space :: second) ↔
      Foldable first ∧ Foldable second := by
  have isPlain : Byte.space ≠ Byte.cr ∧ Byte.space ≠ Byte.lf := by decide
  simp only [Foldable, wordsOf_append, List.forall_mem_append, List.forall_mem_cons]
  tauto

/-- Short words of printable characters. -/
theorem foldable_word {word : Bytes} (nonempty : word ≠ [])
    (short : word.length ≤ 76) (printable : ∀ byte ∈ word, 42 < byte) :
    Foldable word := by
  have absent {blank : UInt8} (small : blank ≤ 42) : blank ∉ word :=
    fun isIn => UInt8.lt_irrefl _ (UInt8.lt_of_le_of_lt small (printable blank isIn))
  have single : wordsOf word = [word] := by
    apply List.splitOnP_eq_singleton
    intro byte isIn
    rw [beq_eq_false_iff_ne]
    rintro rfl
    exact absent (by decide) isIn
  refine ⟨fun byte isIn => ⟨?_, ?_⟩, ?_⟩
  · rintro rfl
    exact absent (by decide) isIn
  · rintro rfl
    exact absent (by decide) isIn
  · rw [single, List.forall_mem_singleton]
    exact ⟨nonempty, short, absent (by decide)⟩

def Dkim.given (dkim : Dkim) : List Bytes :=
  [ascii "s=" ++ dkim.selector ++ [Byte.semicolon], ascii "d=" ++ dkim.domain ++ [Byte.semicolon],
    ascii "h=" ++ dkimHeaderList dkim.keys ++ [Byte.semicolon]]

theorem foldable_longText {name : Bytes} (short : name.length ≤ 4)
    (printable : ∀ byte ∈ name, 42 < byte) {value : Int}
    (small : value.natAbs ≤ 2 ^ 63) :
    Foldable (name ++ longText value ++ [Byte.semicolon]) := by
  have digits : ∀ byte ∈ decimal value.natAbs, 42 < byte :=
    forall_mem_numeral (by decide) (by decide) _
  have width : (decimal value.natAbs).length ≤ 20 :=
    length_numeral_le (by decide) (by decide) (by omega)
  apply foldable_word
  · simp
  · rw [longText]
    split <;> simp <;> omega
  · have signs : 42 < (45 : UInt8) ∧ 42 < Byte.semicolon := by decide
    simp only [longText, List.forall_mem_append, List.forall_mem_singleton]
    refine ⟨⟨printable, ?_⟩, signs.2⟩
    split
    · exact List.forall_mem_cons.mpr ⟨signs.1, digits⟩
    · exact digits

private theorem foldable_hash (hash : Vector UInt8 20) :
    Foldable (ascii "bh=" ++ base64Encode hash.toList ++ [Byte.semicolon]) := by
  have width := length_base64Encode hash.toList
  rw [Vector.length_toList] at width
  apply foldable_word
  · simp
  · simp [width, ascii]
  · intro byte isIn
    simp only [List.mem_append] at isIn
    rcases isIn with (inName | inHash) | isLast
    · exact @forall_mem_of_all _ (fun byte => 42 < byte) _ (ascii "bh=") (by decide) byte inName
    · exact (base64Encode_plain inHash).1
    · rw [List.mem_singleton.mp isLast]
      decide

theorem foldable_data (sha1 : Bytes → Vector UInt8 20) (dkim : Dkim) :
    Foldable (dkim.data sha1) ↔ ∀ tag ∈ dkim.given, Foldable tag := by
  have first : ascii "v=1; a=rsa-sha1; s=" = ascii "v=1;" ++ Byte.space ::
      (ascii "a=rsa-sha1;" ++ Byte.space :: ascii "s=") := by decide
  have second : ascii "; d=" = Byte.semicolon :: Byte.space :: ascii "d=" := by
    decide
  have third : ascii "; l=" = Byte.semicolon :: Byte.space :: ascii "l=" := by
    decide
  have fourth : ascii "; t=" = Byte.semicolon :: Byte.space :: ascii "t=" := by
    decide
  have fifth : ascii "; c=relaxed/relaxed; h=" = Byte.semicolon ::
      Byte.space :: (ascii "c=relaxed/relaxed;" ++ Byte.space :: ascii "h=") := by decide
  have sixth : ascii "; bh=" = Byte.semicolon :: Byte.space :: ascii "bh=" := by
    decide
  have last : ascii "; b=" = Byte.semicolon :: Byte.space :: ascii "b=" := by
    decide
  have spelled : dkim.data sha1 = ascii "v=1;" ++ Byte.space ::
      (ascii "a=rsa-sha1;" ++ Byte.space ::
      (ascii "s=" ++ dkim.selector ++ [Byte.semicolon] ++ Byte.space ::
      (ascii "d=" ++ dkim.domain ++ [Byte.semicolon] ++ Byte.space ::
      (ascii "l=" ++ longText dkim.canonBody.length ++ [Byte.semicolon] ++ Byte.space ::
      (ascii "t=" ++ longText dkim.timestamp ++ [Byte.semicolon] ++ Byte.space ::
      (ascii "c=relaxed/relaxed;" ++ Byte.space ::
      (ascii "h=" ++ dkimHeaderList dkim.keys ++ [Byte.semicolon] ++ Byte.space ::
      (ascii "bh=" ++ base64Encode (sha1 dkim.canonBody).toList ++
        [Byte.semicolon] ++ Byte.space :: ascii "b=")))))))) := by
    simp only [Dkim.data, Dkim.tags, first, second, third, fourth, fifth,
      sixth, last, List.append_assoc, List.cons_append, List.nil_append]
  have constant : Foldable (ascii "v=1;") ∧ Foldable (ascii "a=rsa-sha1;") ∧
      Foldable (ascii "c=relaxed/relaxed;") ∧ Foldable (ascii "b=") := by
    decide
  have length : Foldable (ascii "l=" ++ longText dkim.canonBody.length ++ [Byte.semicolon]) :=
    foldable_longText (by decide) (forall_mem_of_all (by decide))
      (by have := dkim.canonBody_small; omega)
  have time : Foldable (ascii "t=" ++ longText dkim.timestamp ++ [Byte.semicolon]) :=
    foldable_longText (by decide) (forall_mem_of_all (by decide)) dkim.timestamp_small
  simp only [spelled, foldable_append, constant, length, time, foldable_hash,
    Dkim.given, List.forall_mem_cons, List.not_mem_nil, false_imp_iff,
    implies_true, true_and, and_true]

/-- A verifier gets the text that was signed exactly if no tag is broken or
changed by the folding. -/
theorem relaxedHeader_sign_iff (sha1 : Bytes → Vector UInt8 20) (dkim : Dkim) (sign : Bytes) :
    relaxedHeader (ascii "DKIM-Signature")
        (emptyLastTag (Byte.space :: dkimCreateSign sha1 dkim sign)) =
      some (dkim.signedField sha1) ↔ ∀ tag ∈ dkim.given, Foldable tag := by
  have key : (ascii "DKIM-Signature").map tolower = ascii "dkim-signature" := by
    decide
  obtain ⟨rest, spelled⟩ : ∃ rest, dkim.data sha1 = 118 :: rest := ⟨_, rfl⟩
  have isLetter : isOws 118 = false := by decide
  have words : (∀ word ∈ wordsOf (dkim.data sha1), Neat word) ↔
      relaxLoop false (tabbed 0 (dkim.data sha1)) = dkim.data sha1 := by
    rw [(relaxLoop_tabbed _).1 0 (by decide), forall_neat_iff, spelled]
    obtain ⟨word, others, -, same⟩ := wordsOf_letter (by decide : (118 : UInt8) ≠ Byte.space) rest
    simp [same]
  have read (plain : ∀ byte ∈ dkim.data sha1, byte ≠ Byte.cr ∧ byte ≠ Byte.lf) :
      relaxedHeader (ascii "DKIM-Signature") (Byte.space :: dkimWrap (dkim.data sha1)) =
        some (ascii "dkim-signature" ++ Byte.colon ::
          relaxLoop false (tabbed 0 (dkim.data sha1))) := by
    have start : (Byte.space :: tabbed 0 (dkim.data sha1)).dropWhile isOws =
        tabbed 0 (dkim.data sha1) := by
      rw [spelled]
      rfl
    rw [relaxedHeader, unfoldLines_letter (by decide) (by decide), dkimWrap,
      unfoldLines_wrap plain, key]
    simp only [Option.map_some, start]
  rw [emptyLastTag_sign, ← foldable_data sha1]
  constructor
  · intro isSigned
    have plain : ∀ byte ∈ dkim.data sha1, byte ≠ Byte.cr ∧ byte ≠ Byte.lf := by
      obtain ⟨text, isText, same⟩ := Option.map_eq_some_iff.mp isSigned
      rw [key] at same
      have isData := (List.cons_inj_right _).mp (List.append_cancel_left same)
      intro byte isIn
      rw [← isData] at isIn
      rcases mem_of_mem_relaxLoop isIn with inText | rfl
      · exact unfoldLines_plain isText byte ((List.dropWhile_sublist _).subset inText)
      · decide
    rw [read plain, Option.some.injEq] at isSigned
    exact ⟨plain, words.mpr ((List.cons_inj_right _).mp (List.append_cancel_left isSigned))⟩
  · rintro ⟨plain, neat⟩
    rw [read plain, words.mp neat]
    rfl

def longDkim : Dkim where
  selector := ascii "mail"
  domain := List.replicate 80 97 ++ ascii ".org"
  timestamp := 1
  keys := [ascii "From", ascii "To"]
  canonBody := ascii "x\r\n"
  timestamp_small := by decide
  canonBody_small := by decide

/-- The fold inside the domain becomes a space. -/
theorem relaxedHeader_sign_long :
    relaxedHeader (ascii "DKIM-Signature") (emptyLastTag (Byte.space ::
        dkimCreateSign (fun _ => .replicate 20 0) longDkim [1])) ≠
      some (longDkim.signedField fun _ => .replicate 20 0) := by
  decide +kernel

end CWebFramework.Smtp
