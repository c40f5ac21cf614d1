import CWebFramework.Http.Response

/-!
# Not modified

`__check_not_modified` of `filters/http_not_modified_filter.c` against the
entity tags of RFC 7232.  The dates that `strptime` and `timegm` read are a
parameter.
-/

namespace CWebFramework.Http

/-! ## The filter -/

def isSeparator (byte : UInt8) : Bool := isOws byte || byte == Byte.comma

/-- The comparison of `__etag_matches`, by `strncmp`. -/
def sameTag (current etag : Bytes) : Bool :=
  current.length == etag.length && cstring current == cstring etag

def etagLoop (etag text : Bytes) : Bool :=
  let start := text.dropWhile isSeparator
  if _nonempty : start = [] then false
  else
    if sameTag ((start.takeWhile (· ≠ Byte.comma)).rdropWhile isOws) etag then
      true
    else etagLoop etag (start.dropWhile (· ≠ Byte.comma))
termination_by text.length
decreasing_by
  have noSeparator := List.head_dropWhile_not isSeparator _nonempty
  obtain ⟨first, rest, isStart⟩ := List.exists_cons_of_ne_nil _nonempty
  change text.dropWhile isSeparator = first :: rest at isStart
  have shorter := (List.dropWhile_suffix (l := text) isSeparator).length_le
  simp only [isStart, List.head_cons] at noSeparator shorter ⊢
  have notComma : first ≠ Byte.comma := by
    rintro rfl
    cases noSeparator
  rw [List.dropWhile_cons_of_pos (by simpa using notComma)]
  have least := (List.dropWhile_suffix (l := rest)
    (fun byte => decide (byte ≠ Byte.comma))).length_le
  rw [List.length_cons] at shorter
  omega

def etagMatches (ifNoneMatch etag : Bytes) : Bool :=
  ifNoneMatch == ascii "*" || etagLoop etag ifNoneMatch

def requestHeader (headers : List Header) (key : Bytes) : Option Header :=
  headers.find? fun header => cmpstrnLower header.key key

def responseHeader (headers : List Header) (key : Bytes) : Option Header :=
  headers.find? fun header => cmpstrLower header.key key

def checkNotModified (parseHttpDate : Bytes → Option Int) (method : Method)
    (request response : List Header) : Bool :=
  if method ≠ .get ∧ method ≠ .head then false
  else
    match requestHeader request (ascii "If-None-Match"), responseHeader response (ascii "ETag") with
    | some ifNoneMatch, some etag =>
      etagMatches ifNoneMatch.value etag.value
    | _, _ =>
      match requestHeader request (ascii "If-Modified-Since"),
          responseHeader response (ascii "Last-Modified") with
      | some ifModifiedSince, some lastModified =>
        match parseHttpDate ifModifiedSince.value, parseHttpDate lastModified.value with
        | some requestTime, some responseTime =>
          decide (responseTime ≤ requestTime)
        | _, _ => false
      | _, _ => false

/-! ## Entity tags -/

abbrev doubleQuote : UInt8 := 34

structure EntityTag where
  weak : Bool
  tag : Bytes
  chars : ∀ byte ∈ tag, 0x21 ≤ byte ∧ byte ≠ doubleQuote ∧ byte ≠ 0x7F
  deriving DecidableEq

def EntityTag.text (etag : EntityTag) : Bytes :=
  (if etag.weak then ascii "W/" else []) ++ doubleQuote :: (etag.tag ++ [doubleQuote])

/-- A list of entity tags: elements between commas, with white space around
them; elements may be empty. -/
inductive TagList : List EntityTag → Bytes → Prop
  | empty {space : Bytes} (isSpace : ∀ byte ∈ space, isOws byte = true) : TagList [] space
  | tag {before behind : Bytes} (etag : EntityTag) (isBefore : ∀ byte ∈ before, isOws byte = true)
      (isBehind : ∀ byte ∈ behind, isOws byte = true) :
      TagList [etag] (before ++ (etag.text ++ behind))
  | comma {tags others : List EntityTag} {text rest : Bytes}
      (first : TagList tags text) (second : TagList others rest) :
      TagList (tags ++ others) (text ++ Byte.comma :: rest)

/-! ## Pieces between commas -/

def trimmed (piece : Bytes) : Bytes := (piece.dropWhile isOws).rdropWhile isOws

/-- The text ends, or goes on with a comma. -/
def Ends (tail : Bytes) : Prop := ∀ byte ∈ tail.head?, byte = Byte.comma

variable {etag text piece tail : Bytes}

theorem etagLoop_congr (same : text.dropWhile isSeparator = tail.dropWhile isSeparator) :
    etagLoop etag text = etagLoop etag tail := by
  rw [etagLoop.eq_def etag text, etagLoop.eq_def etag tail, same]

theorem etagLoop_comma (text : Bytes) : etagLoop etag (Byte.comma :: text) = etagLoop etag text :=
  etagLoop_congr (List.dropWhile_cons_of_pos rfl)

theorem ends_comma (rest : Bytes) : Ends (Byte.comma :: rest) := by
  rintro byte ⟨⟩
  rfl

theorem Ends.takeWhile (ends : Ends tail) : tail.takeWhile (· ≠ Byte.comma) = [] := by
  cases tail with
  | nil => rfl
  | cons byte tail =>
    rw [ends byte rfl]
    exact List.takeWhile_cons_of_neg (by simp)

theorem Ends.dropWhile (ends : Ends tail) : tail.dropWhile (· ≠ Byte.comma) = tail := by
  cases tail with
  | nil => rfl
  | cons byte tail =>
    rw [ends byte rfl]
    exact List.dropWhile_cons_of_neg (by simp)

private theorem sameTag_nil (nonempty : etag ≠ []) : sameTag [] etag = false := by
  have positive := List.length_pos_of_ne_nil nonempty
  rw [sameTag, Bool.and_eq_false_iff]
  exact Or.inl (beq_false_of_ne (Nat.ne_of_lt positive))

theorem etagLoop_piece (nonempty : etag ≠ []) (noComma : Byte.comma ∉ piece) (ends : Ends tail) :
    etagLoop etag (piece ++ tail) = (sameTag (trimmed piece) etag || etagLoop etag tail) := by
  have separators : ∀ byte ∈ piece, isSeparator byte = isOws byte := by
    intro byte isIn
    have notComma : byte ≠ Byte.comma := fun same => noComma (same ▸ isIn)
    rw [isSeparator, beq_false_of_ne notComma, Bool.or_false]
  by_cases isBlank : ∀ byte ∈ piece, isOws byte = true
  · have noTag : trimmed piece = [] := by
      rw [trimmed, List.dropWhile_eq_nil_iff.mpr isBlank, List.rdropWhile_nil]
    rw [noTag, sameTag_nil nonempty, Bool.false_or]
    apply etagLoop_congr
    apply List.dropWhile_append_of_pos
    intro byte isIn
    rw [separators byte isIn, isBlank byte isIn]
  · have inside : piece.dropWhile isOws ≠ [] :=
      fun isNil => isBlank (List.dropWhile_eq_nil_iff.mp isNil)
    have notOws := List.head_dropWhile_not isOws inside
    have whole := List.takeWhile_append_dropWhile (p := isOws) (l := piece)
    obtain ⟨first, rest, isRest⟩ := List.exists_cons_of_ne_nil inside
    simp only [isRest, List.head_cons] at notOws whole
    have inPiece : ∀ byte ∈ first :: rest, byte ∈ piece := by
      intro byte isIn
      rw [← whole]
      exact List.mem_append_right _ isIn
    have plain : ∀ byte ∈ first :: rest, decide (byte ≠ Byte.comma) = true := by
      intro byte isIn
      rw [decide_eq_true_iff]
      exact fun same => noComma (same ▸ inPiece byte isIn)
    have isStart : (piece ++ tail).dropWhile isSeparator =
        first :: rest ++ tail := by
      rw [← whole, List.append_assoc, List.dropWhile_append_of_pos]
      · rw [List.cons_append, List.dropWhile_cons_of_neg]
        rw [separators first (inPiece first List.mem_cons_self), notOws]
        exact Bool.false_ne_true
      · intro byte isIn
        rw [separators byte ((List.takeWhile_prefix _).subset isIn)]
        exact List.mem_takeWhile_imp isIn
    have taken : (first :: rest ++ tail).takeWhile (· ≠ Byte.comma) =
        first :: rest := by
      rw [List.takeWhile_append_of_pos plain, ends.takeWhile, List.append_nil]
    have dropped : (first :: rest ++ tail).dropWhile (· ≠ Byte.comma) =
        tail := by
      rw [List.dropWhile_append_of_pos plain, ends.dropWhile]
    rw [etagLoop]
    simp only [isStart, taken, dropped]
    rw [trimmed, isRest, dif_neg (by simp)]
    cases sameTag ((first :: rest).rdropWhile isOws) etag <;> rfl

/-! ## Texts of tags -/

namespace EntityTag

variable (tag other : EntityTag)

theorem count_text : tag.text.count doubleQuote = 2 := by
  have noQuote : tag.tag.count doubleQuote = 0 :=
    List.count_eq_zero.mpr fun isIn => (tag.chars _ isIn).2.1 rfl
  rw [text, List.count_append, List.count_cons_self, List.count_append, noQuote]
  cases tag.weak <;> rfl

private theorem noNul_text : 0 ∉ tag.text := by
  have noNul : 0 ∉ tag.tag := fun isIn =>
    absurd (tag.chars 0 isIn).1 (by decide)
  rw [text]
  cases tag.weak <;> simp [noNul] <;> decide

private theorem text_inj {tag other : EntityTag} (same : tag.text = other.text) : tag = other := by
  obtain ⟨weak, bytes, chars⟩ := tag
  obtain ⟨otherWeak, others, otherChars⟩ := other
  have isWeak : weak = otherWeak := by
    cases weak <;> cases otherWeak
    · rfl
    · exact absurd (List.cons.inj same).1 (by decide)
    · exact absurd (List.cons.inj same).1 (by decide)
    · rfl
  subst isWeak
  have tails := (List.cons.inj (List.append_cancel_left same)).2
  obtain rfl := List.append_cancel_right tails
  rfl

variable {tag other} {text before behind : Bytes}

theorem text_ne_nil : tag.text ≠ [] := by
  rw [EntityTag.text]
  simp

theorem sameTag_text (current : Bytes) :
    sameTag current tag.text = decide (current = tag.text) := by
  rw [sameTag, cstring_of_notMem tag.noNul_text, Bool.eq_iff_iff,
    Bool.and_eq_true, beq_iff_eq, beq_iff_eq, decide_eq_true_iff]
  constructor
  · rintro ⟨length, same⟩
    rw [← same] at length ⊢
    exact ((List.takeWhile_prefix _).eq_of_length length.symm).symm
  · rintro rfl
    exact ⟨rfl, cstring_of_notMem tag.noNul_text⟩

/-- A piece with less than two quotes is no tag. -/
theorem sameTag_of_count {piece : Bytes} (few : piece.count doubleQuote ≤ 1) :
    sameTag (trimmed piece) tag.text = false := by
  rw [sameTag_text, decide_eq_false_iff_not]
  intro same
  have sublist : (trimmed piece).Sublist piece :=
    (List.rdropWhile_prefix _ _).sublist.trans (List.dropWhile_suffix _).sublist
  have counted := sublist.count_le doubleQuote
  rw [same, tag.count_text] at counted
  omega

theorem count_blank {space : Bytes} (isSpace : ∀ byte ∈ space, isOws byte = true) :
    space.count doubleQuote = 0 :=
  List.count_eq_zero.mpr fun isIn => nomatch isSpace _ isIn

private theorem trimmed_text (isBefore : ∀ byte ∈ before, isOws byte = true)
    (isBehind : ∀ byte ∈ behind, isOws byte = true) :
    trimmed (before ++ (tag.text ++ behind)) = tag.text := by
  have isFront : (tag.text ++ behind).dropWhile isOws = tag.text ++ behind := by
    rw [EntityTag.text]
    cases tag.weak <;> exact List.dropWhile_cons_of_neg (by decide)
  have isBack : tag.text.reverse.dropWhile isOws = tag.text.reverse := by
    rw [EntityTag.text, List.reverse_append, List.reverse_cons, List.reverse_append]
    exact List.dropWhile_cons_of_neg (by decide)
  rw [trimmed, List.dropWhile_append_of_pos isBefore, isFront,
    List.rdropWhile, List.reverse_append, List.dropWhile_append_of_pos,
    isBack, List.reverse_reverse]
  exact fun byte isIn => isBehind byte (List.mem_reverse.mp isIn)

variable {rest tail : Bytes}

/-- The end of a tag that has a comma. -/
theorem etagLoop_rest (noQuote : doubleQuote ∉ rest)
    (isBehind : ∀ byte ∈ behind, isOws byte = true) (ends : Ends tail) :
    etagLoop tag.text (rest ++ doubleQuote :: (behind ++ tail)) = etagLoop tag.text tail := by
  induction length : rest.length using Nat.strong_induction_on generalizing rest with
  | _ size ih =>
    have count := List.count_eq_zero.mpr noQuote
    by_cases hasComma : Byte.comma ∈ rest
    · obtain ⟨first, others, rfl, noComma⟩ := List.eq_append_cons_of_mem hasComma
      rw [List.count_append] at count
      have few : first.count doubleQuote ≤ 1 := by omega
      have noOther : doubleQuote ∉ others := fun isIn =>
        noQuote (List.mem_append_right _ (List.mem_cons_of_mem _ isIn))
      have shorter : others.length < size := by
        rw [← length, List.length_append, List.length_cons]
        omega
      rw [List.append_assoc, List.cons_append,
        etagLoop_piece text_ne_nil noComma (ends_comma _), sameTag_of_count few,
        Bool.false_or, etagLoop_comma]
      exact ih _ shorter noOther rfl
    · have noComma : Byte.comma ∉ rest ++ doubleQuote :: behind := by
        have noBehind : Byte.comma ∉ behind := fun isIn =>
          nomatch isBehind _ isIn
        simp [hasComma, noBehind]
        decide
      have few : (rest ++ doubleQuote :: behind).count doubleQuote ≤ 1 := by
        rw [List.count_append, count, List.count_cons_self, count_blank isBehind]
      rw [← List.cons_append, ← List.append_assoc,
        etagLoop_piece text_ne_nil noComma ends, sameTag_of_count few,
        Bool.false_or]

theorem etagLoop_tag (isBefore : ∀ byte ∈ before, isOws byte = true)
    (isBehind : ∀ byte ∈ behind, isOws byte = true) (ends : Ends tail) :
    etagLoop tag.text (before ++ (other.text ++ behind) ++ tail) =
      (decide (Byte.comma ∉ other.tag ∧ other = tag) || etagLoop tag.text tail) := by
  have noBefore : Byte.comma ∉ before := fun isIn => nomatch isBefore _ isIn
  have noBehind : Byte.comma ∉ behind := fun isIn => nomatch isBehind _ isIn
  by_cases hasComma : Byte.comma ∈ other.tag
  · obtain ⟨first, others, isTag, noComma⟩ := List.eq_append_cons_of_mem hasComma
    have noQuote : doubleQuote ∉ other.tag :=
      fun isIn => (other.chars _ isIn).2.1 rfl
    rw [isTag, List.mem_append, List.mem_cons, not_or, not_or] at noQuote
    let mark := if other.weak then ascii "W/" else []
    have isMark : mark.count doubleQuote = 0 ∧ Byte.comma ∉ mark := by
      dsimp only [mark]
      cases other.weak <;> decide
    have noCommaPiece : Byte.comma ∉ before ++ (mark ++ doubleQuote :: first) := by
      simp [noBefore, isMark.2, noComma]
      decide
    have few : (before ++ (mark ++ doubleQuote :: first)).count doubleQuote ≤ 1 := by
      rw [List.count_append, List.count_append, List.count_cons_self,
        count_blank isBefore, isMark.1, List.count_eq_zero.mpr noQuote.1]
    have whole : before ++ (other.text ++ behind) ++ tail =
        before ++ (mark ++ doubleQuote :: first) ++ Byte.comma ::
          (others ++ doubleQuote :: (behind ++ tail)) := by
      simp only [EntityTag.text, isTag, mark, List.append_assoc, List.cons_append, List.nil_append]
    rw [whole, etagLoop_piece text_ne_nil noCommaPiece (ends_comma _),
      sameTag_of_count few, Bool.false_or, etagLoop_comma,
      etagLoop_rest noQuote.2.2 isBehind ends,
      decide_eq_false (fun both => both.1 hasComma), Bool.false_or]
  · have noComma : Byte.comma ∉ before ++ (other.text ++ behind) := by
      rw [EntityTag.text]
      cases other.weak <;> simp [noBefore, noBehind, hasComma] <;> decide
    rw [etagLoop_piece text_ne_nil noComma ends, trimmed_text isBefore isBehind, sameTag_text]
    congr 1
    rw [decide_eq_decide]
    constructor
    · exact fun same => ⟨hasComma, text_inj same⟩
    · rintro ⟨-, rfl⟩
      rfl

end EntityTag

/-- The loop finds the tag in a list when it is there and has no comma. -/
theorem TagList.etagLoop {tags : List EntityTag} (isList : TagList tags text)
    (etag : EntityTag) (ends : Ends tail) :
    etagLoop etag.text (text ++ tail) = (decide (Byte.comma ∉ etag.tag ∧ etag ∈ tags) ||
        Http.etagLoop etag.text tail) := by
  induction isList generalizing tail with
  | empty isSpace =>
    have noComma : Byte.comma ∉ _ := fun isIn => nomatch isSpace _ isIn
    rw [etagLoop_piece EntityTag.text_ne_nil noComma ends, EntityTag.sameTag_of_count
        (Nat.le_of_eq (EntityTag.count_blank isSpace) |>.trans (by omega))]
    simp
  | tag other isBefore isBehind =>
    rw [EntityTag.etagLoop_tag isBefore isBehind ends]
    congr 1
    rw [decide_eq_decide, List.mem_singleton]
    constructor
    · rintro ⟨noComma, rfl⟩
      exact ⟨noComma, rfl⟩
    · rintro ⟨noComma, rfl⟩
      exact ⟨noComma, rfl⟩
  | comma first second ihFirst ihSecond =>
    rw [List.append_assoc, List.cons_append, ihFirst (ends_comma _),
      etagLoop_comma, ihSecond ends, ← Bool.or_assoc, ← Bool.decide_or]
    congr 1
    rw [decide_eq_decide, List.mem_append, and_or_left]

theorem TagList.ne_any {tags : List EntityTag} (isList : TagList tags text) : text ≠ ascii "*" := by
  rintro rfl
  generalize isText : ascii "*" = text at isList
  cases isList with
  | empty isSpace =>
    subst isText
    exact absurd (isSpace 42 List.mem_cons_self) (by decide)
  | tag etag _ _ =>
    have counted := congrArg (List.count doubleQuote) isText
    rw [List.count_append, List.count_append, etag.count_text] at counted
    have noQuote : (ascii "*").count doubleQuote = 0 := rfl
    omega
  | comma first second =>
    have isIn : Byte.comma ∈ ascii "*" := by
      rw [isText]
      simp
    exact absurd isIn (by decide)

theorem TagList.etagMatches {tags : List EntityTag}
    (isList : TagList tags text) (etag : EntityTag) :
    etagMatches text etag.text =
      decide (Byte.comma ∉ etag.tag ∧ etag ∈ tags) := by
  have ended : Ends [] := nofun
  have found := isList.etagLoop etag ended
  have isEnd : Http.etagLoop etag.text [] = false := by
    rw [Http.etagLoop]
    rfl
  rw [List.append_nil, isEnd, Bool.or_false] at found
  rw [Http.etagMatches, beq_false_of_ne isList.ne_any, Bool.false_or, found]

theorem checkNotModified_eq {parseHttpDate : Bytes → Option Int}
    {method : Method} (isRead : method = .get ∨ method = .head)
    {request response : List Header} {ifNoneMatch header : Header}
    (asked : requestHeader request (ascii "If-None-Match") = some ifNoneMatch)
    (given : responseHeader response (ascii "ETag") = some header) :
    checkNotModified parseHttpDate method request response =
      etagMatches ifNoneMatch.value header.value := by
  rw [checkNotModified, if_neg, asked, given]
  rcases isRead with rfl | rfl <;> simp

/-- `*` always matches.  A list of tags is answered as the weak comparison asks
exactly when a listed tag with the characters of the `ETag` stands there with
the same mark and has no comma. -/
theorem checkNotModified_iff (parseHttpDate : Bytes → Option Int) (method : Method)
    (isRead : method = .get ∨ method = .head) (request response : List Header)
    (ifNoneMatch header : Header) (etag : EntityTag)
    (asked : requestHeader request (ascii "If-None-Match") = some ifNoneMatch)
    (given : responseHeader response (ascii "ETag") = some header)
    (isTag : header.value = etag.text) :
    (ifNoneMatch.value = ascii "*" →
      checkNotModified parseHttpDate method request response = true) ∧
    ∀ tags, TagList tags ifNoneMatch.value →
      ((checkNotModified parseHttpDate method request response = true ↔
        ∃ tag ∈ tags, tag.tag = etag.tag) ↔
      ((∃ tag ∈ tags, tag.tag = etag.tag) → Byte.comma ∉ etag.tag ∧ etag ∈ tags)) := by
  rw [checkNotModified_eq isRead asked given, isTag]
  constructor
  · intro isAny
    rw [etagMatches, isAny]
    rfl
  · intro tags isList
    rw [isList.etagMatches, decide_eq_true_iff]
    constructor
    · exact fun same => same.mpr
    · intro exactly
      exact ⟨fun both => ⟨etag, both.2, rfl⟩, exactly⟩

theorem checkNotModified_iff_listed : checkNotModified (fun _ => none) .get
      [⟨ascii "if-none-match", ascii "\"a,b\" , W/\"c\""⟩]
      [⟨ascii "ETag", ascii "W/\"c\""⟩] = true := by
  let listed : EntityTag := ⟨true, ascii "c", forall_mem_of_all (by decide)⟩
  let other : EntityTag := ⟨false, ascii "a,b", forall_mem_of_all (by decide)⟩
  have isList : TagList [other, listed] (ascii "\"a,b\" , W/\"c\"") :=
    .comma (@TagList.tag [] (ascii " ") other nofun (forall_mem_of_all (by decide)))
      (@TagList.tag (ascii " ") [] listed (forall_mem_of_all (by decide)) nofun)
  refine (((checkNotModified_iff (fun _ => none) .get (.inl rfl) _ _ _ _
    listed rfl rfl rfl).2 _ isList).mpr ?_).mpr ⟨listed, ?_, rfl⟩
  · intro _
    decide
  · decide

/-- The tag that the server makes for a file is weak.  A client that lists it
without its mark gets the file again. -/
theorem checkNotModified_weak : TagList [⟨false, ascii "c", forall_mem_of_all (by decide)⟩]
      (ascii "\"c\"") ∧
    checkNotModified (fun _ => none) .get [⟨ascii "If-None-Match", ascii "\"c\""⟩]
      [⟨ascii "ETag", ascii "W/\"c\""⟩] = false := by
  let etag : EntityTag := ⟨true, ascii "c", forall_mem_of_all (by decide)⟩
  have isList : TagList [⟨false, ascii "c", forall_mem_of_all (by decide)⟩] (ascii "\"c\"") :=
    @TagList.tag [] [] _ nofun nofun
  refine ⟨isList, ?_⟩
  rw [checkNotModified_eq (.inl rfl) rfl rfl]
  exact (isList.etagMatches etag).trans (by decide)

end CWebFramework.Http
