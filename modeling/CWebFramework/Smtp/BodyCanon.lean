import CWebFramework.Misc.BufferData
import Mathlib.Data.List.DropRight

/-!
# Canonical bodies

`dkimcanonparser_run` brings the body of a mail into the relaxed form that is
signed: runs of white space become one space, white space at the end of a line
and empty lines at the end of the body are left out.  It is compared with the
relaxed form of the lines of the body.  A line ends with a line feed or with
both characters of a line break.
-/

namespace CWebFramework.DkimBody

/-! ## The parser -/

inductive Stage where
  | symbol
  | space
  deriving DecidableEq

structure Parser where
  stage : Stage
  buf : BufferData

def isWsp (ch : UInt8) : Bool := ch == Byte.space || ch == Byte.ht

def isLineEnd (ch : UInt8) : Bool := isWsp ch || ch == Byte.cr

def isBlank (ch : UInt8) : Bool := isLineEnd ch || ch == Byte.lf

/-- The loops with `bufferdata_back` and `bufferdata_pop_back`; they take one
character in each round. -/
def stripBack (strips : UInt8 → Bool) : Nat → BufferData → BufferData
  | 0, buf => buf
  | rounds + 1, buf =>
    if strips (bufferdataBack buf) then
      stripBack strips rounds (bufferdataPopBack buf)
    else buf

/-- A round of the loop of `dkimcanonparser_run`. -/
def canonByte (parser : Parser) (ch : UInt8) : Parser :=
  if isWsp ch then
    { stage := .space
      buf := if parser.stage ≠ .space then bufferdataPush parser.buf Byte.space
        else parser.buf }
  else if ch = Byte.lf then
    let completed := bufferdataComplete parser.buf
    let stripped := stripBack isLineEnd (bufferdataWrited completed) completed
    { stage := .symbol
      buf := bufferdataPush (bufferdataPush stripped Byte.cr) Byte.lf }
  else { stage := .symbol, buf := bufferdataPush parser.buf ch }

def dkimcanonparserRun (buf : BufferData) (body : Bytes) : BufferData :=
  let parser := body.foldl canonByte ⟨.symbol, bufferdataReset buf⟩
  let stripped := stripBack isBlank (bufferdataWrited parser.buf) parser.buf
  bufferdataComplete <|
    if 0 < bufferdataWrited stripped then
      bufferdataPush (bufferdataPush stripped Byte.cr) Byte.lf
    else stripped

def dkimRelaxedBodyCanon (body : Bytes) : Bytes :=
  bufferdataGet (dkimcanonparserRun bufferdataInit (cstring body))

/-! ## The relaxed form -/

abbrev crlf : Bytes := [Byte.cr, Byte.lf]

/-- Every carriage return is followed by a line feed. -/
def NoBareCr : Bytes → Prop
  | [] => True
  | ch :: rest =>
    (ch = Byte.cr → rest.head? = some Byte.lf) ∧ NoBareCr rest

instance decidableNoBareCr : (body : Bytes) → Decidable (NoBareCr body)
  | [] => isTrue trivial
  | _ :: rest =>
    have := decidableNoBareCr rest
    inferInstanceAs (Decidable (_ ∧ _))

/-- The lines of a body behind the start of a line. -/
def bodyLines (line : Bytes) : Bytes → List Bytes
  | [] => [line]
  | ch :: rest =>
    if ch = Byte.lf then line :: bodyLines [] rest
    else if ch = Byte.cr ∧ rest.head? = some Byte.lf then bodyLines line rest
    else bodyLines (line ++ [ch]) rest

/-- A run of white space becomes one space. -/
def collapse (inRun : Bool) : Bytes → Bytes
  | [] => []
  | ch :: rest =>
    if isWsp ch then
      (if inRun then [] else [Byte.space]) ++ collapse true rest
    else ch :: collapse false rest

def relaxedLine (line : Bytes) : Bytes := (collapse false line).rdropWhile isWsp

/-- The relaxed lines without the empty ones at the end. -/
def relaxedLines (body : Bytes) : List Bytes :=
  ((bodyLines [] body).map relaxedLine).rdropWhile List.isEmpty

def relaxedBody (body : Bytes) : Bytes := (relaxedLines body).flatMap (· ++ crlf)

/-! ## Stripping -/

section Stripping

variable {α : Type} {strips more : α → Bool}

theorem rdropWhile_append (front behind : List α) : (front ++ behind).rdropWhile strips =
      if behind.rdropWhile strips = [] then front.rdropWhile strips
      else front ++ behind.rdropWhile strips := by
  induction behind using List.reverseRecOn with
  | nil => simp
  | append_singleton start last ih =>
    rw [← List.append_assoc, List.rdropWhile_concat, List.rdropWhile_concat]
    split
    next => exact ih
    next => simp

private theorem rdropWhile_append_of_self {front : List α}
    (kept : front.rdropWhile strips = front) (behind : List α) :
    (front ++ behind).rdropWhile strips = front ++ behind.rdropWhile strips := by
  rw [rdropWhile_append]
  split
  next empty => rw [kept, empty, List.append_nil]
  next => rfl

theorem rdropWhile_congr {items : List α} (same : ∀ item ∈ items, strips item = more item) :
    items.rdropWhile strips = items.rdropWhile more := by
  induction items using List.reverseRecOn with
  | nil => rfl
  | append_singleton start last ih =>
    rw [List.rdropWhile_concat, List.rdropWhile_concat, same last (by simp),
      ih fun item isIn => same item (List.mem_append_left _ isIn)]

theorem rdropWhile_rdropWhile (implies : ∀ item, strips item → more item) (items : List α) :
    (items.rdropWhile strips).rdropWhile more = items.rdropWhile more := by
  induction items using List.reverseRecOn with
  | nil => rfl
  | append_singleton start last ih =>
    rw [List.rdropWhile_concat]
    split
    next isStripped =>
      rw [ih, List.rdropWhile_concat, if_pos (implies last isStripped)]
    next => rfl

end Stripping

theorem contents_stripBack {strips : UInt8 → Bool} (stops : strips 0 = false)
    (rounds : Nat) (buf : BufferData) (enough : buf.contents.length ≤ rounds) :
    (stripBack strips rounds buf).contents =
      buf.contents.rdropWhile strips := by
  induction rounds generalizing buf with
  | zero =>
    rw [stripBack, List.length_eq_zero_iff.mp (Nat.le_zero.mp enough)]
    rfl
  | succ rounds ih =>
    rw [stripBack, BufferData.back_eq]
    rcases List.eq_nil_or_concat buf.contents with empty | ⟨start, last, all⟩
    · rw [empty, List.getLastD_nil, stops, if_neg Bool.false_ne_true, empty]
      rfl
    · rw [List.concat_eq_append] at all
      rw [all, List.length_append] at enough
      rw [all, List.getLastD_concat, List.rdropWhile_concat]
      split
      next =>
        rw [ih _ (by
          rw [BufferData.contents_popBack, all, List.dropLast_concat]
          exact Nat.le_of_succ_le_succ enough),
          BufferData.contents_popBack, all, List.dropLast_concat]
      next => exact all

/-! ## Lines in the buffer -/

/-- White space stands behind the last character. -/
def runBehind (inRun : Bool) (line : Bytes) : Bool := line.foldl (fun _ ch => isWsp ch) inRun

theorem collapse_concat (inRun : Bool) (line : Bytes) (ch : UInt8) : collapse inRun (line ++ [ch]) =
      collapse inRun line ++
        if isWsp ch then if runBehind inRun line then [] else [Byte.space]
        else [ch] := by
  induction line generalizing inRun with
  | nil =>
    rw [List.nil_append, collapse, collapse]
    split
    · rw [collapse, List.append_nil]
      rfl
    · rfl
  | cons first rest ih =>
    rw [List.cons_append, collapse, collapse]
    cases wsp : isWsp first with
    | true =>
      rw [if_pos rfl, if_pos rfl, ih, List.append_assoc, runBehind, runBehind, List.foldl_cons, wsp]
    | false =>
      rw [if_neg Bool.false_ne_true, if_neg Bool.false_ne_true, ih,
        List.cons_append, runBehind, runBehind, List.foldl_cons, wsp]

theorem runBehind_concat (inRun : Bool) (line : Bytes) (ch : UInt8) :
    runBehind inRun (line ++ [ch]) = isWsp ch := by
  rw [runBehind, List.foldl_append]
  rfl

theorem mem_collapse {inRun : Bool} {line : Bytes} {ch : UInt8}
    (isIn : ch ∈ collapse inRun line) : ch = Byte.space ∨ ch ∈ line := by
  induction line generalizing inRun with
  | nil => cases isIn
  | cons first rest ih =>
    rw [collapse] at isIn
    split at isIn
    next =>
      rcases List.mem_append.mp isIn with isSpace | inRest
      · split at isSpace
        · cases isSpace
        · exact Or.inl (List.mem_singleton.mp isSpace)
      · exact (ih inRest).imp_right (List.mem_cons_of_mem _)
    next =>
      rcases List.mem_cons.mp isIn with rfl | inRest
      · exact Or.inr (List.mem_cons_self ..)
      · exact (ih inRest).imp_right (List.mem_cons_of_mem _)

theorem mem_relaxedLine {line : Bytes} {ch : UInt8}
    (isIn : ch ∈ relaxedLine line) : ch = Byte.space ∨ ch ∈ line :=
  mem_collapse ((List.rdropWhile_prefix isWsp _).subset isIn)

def stageOf (line : Bytes) : Stage :=
  if runBehind false line then .space else .symbol

/-- The buffer holds `done` and, behind it, the start of a line. -/
structure Holds (done line : Bytes) (parser : Parser) : Prop where
  stage : parser.stage = stageOf line
  contents : parser.buf.contents = done ++ collapse false line

variable {done line : Bytes} {parser : Parser}

theorem Holds.wsp (holds : Holds done line parser) {ch : UInt8} (wsp : isWsp ch = true) :
    Holds done (line ++ [ch]) (canonByte parser ch) := by
  rw [canonByte, if_pos wsp]
  refine ⟨?_, ?_⟩
  · rw [stageOf, runBehind_concat, wsp]
    rfl
  · dsimp only
    rw [collapse_concat, if_pos wsp, holds.stage, stageOf]
    cases runBehind false line with
    | true => simpa using holds.contents
    | false => simp [holds.contents]

theorem Holds.plain (holds : Holds done line parser) {ch : UInt8}
    (notWsp : isWsp ch = false) (notFeed : ch ≠ Byte.lf) :
    Holds done (line ++ [ch]) (canonByte parser ch) := by
  rw [canonByte, notWsp, if_neg Bool.false_ne_true, if_neg notFeed]
  refine ⟨?_, ?_⟩
  · rw [stageOf, runBehind_concat, notWsp]
    rfl
  · dsimp only
    rw [collapse_concat, notWsp, if_neg Bool.false_ne_true,
      BufferData.contents_push, holds.contents, List.append_assoc]

/-- A line feed ends the line; what stands behind its last character may be
a carriage return. -/
theorem holds_feed {behind : Bytes}
    (contents : parser.buf.contents = done ++ collapse false line ++ behind)
    (isBehind : ∀ ch ∈ behind, ch = Byte.cr) (noCr : Byte.cr ∉ line)
    (kept : done.rdropWhile isLineEnd = done) :
    Holds (done ++ relaxedLine line ++ crlf) [] (canonByte parser Byte.lf) := by
  have same : (collapse false line).rdropWhile isLineEnd =
      relaxedLine line := by
    apply rdropWhile_congr
    intro ch isIn
    have notCr : ch ≠ Byte.cr := by
      rintro rfl
      exact (mem_collapse isIn).elim (by decide) noCr
    rw [isLineEnd, beq_eq_false_iff_ne.mpr notCr, Bool.or_false]
  have nothing : behind.rdropWhile isLineEnd = [] := by
    rw [List.rdropWhile_eq_nil_iff]
    intro ch isIn
    rw [isBehind ch isIn]
    decide
  rw [canonByte, if_neg (by decide), if_pos rfl]
  refine ⟨rfl, ?_⟩
  dsimp only
  rw [BufferData.contents_push, BufferData.contents_push,
    contents_stripBack (by decide) _ _ (by rw [BufferData.writed_eq]),
    BufferData.contents_complete, contents, rdropWhile_append, if_pos nothing,
    rdropWhile_append_of_self kept, same]
  simp [collapse]

theorem kept_crlf (front : Bytes) : (front ++ crlf).rdropWhile isLineEnd = front ++ crlf := by
  rw [rdropWhile_append]
  rfl

/-- The text of the buffer when the last line has not been ended. -/
def unfinished : List Bytes → Bytes
  | [] => []
  | [last] => collapse false last
  | line :: rest => relaxedLine line ++ crlf ++ unfinished rest

private theorem bodyLines_ne_nil (line body : Bytes) : bodyLines line body ≠ [] := by
  fun_induction bodyLines line body <;> simp_all

theorem unfinished_cons (line : Bytes) {rest : List Bytes} (some : rest ≠ []) :
    unfinished (line :: rest) = relaxedLine line ++ crlf ++ unfinished rest := by
  cases rest with
  | nil => exact absurd rfl some
  | cons next rest => rfl

/-- The loop over a body. -/
theorem contents_loop (body : Bytes) {done line : Bytes} {parser : Parser}
    (holds : Holds done line parser) (noBare : NoBareCr body) (noCr : Byte.cr ∉ line)
    (kept : done.rdropWhile isLineEnd = done) :
    (body.foldl canonByte parser).buf.contents = done ++ unfinished (bodyLines line body) := by
  match body, noBare with
  | [], _ => exact holds.contents
  | ch :: rest, noBare =>
    rw [List.foldl_cons, bodyLines]
    by_cases isFeed : ch = Byte.lf
    · subst isFeed
      have next : Holds _ [] (canonByte parser Byte.lf) :=
        @holds_feed _ _ _ [] (by rw [List.append_nil, holds.contents]) nofun noCr kept
      rw [if_pos rfl, contents_loop rest next noBare.2 (by simp)
        (kept_crlf _), unfinished_cons _ (bodyLines_ne_nil [] rest)]
      simp only [List.append_assoc]
    rw [if_neg isFeed]
    by_cases isCr : ch = Byte.cr
    · subst isCr
      have followed := noBare.1 rfl
      match rest, followed, noBare.2 with
      | feed :: rest, followed, noBare =>
        obtain rfl := Option.some.inj followed
        have taken : Holds _ _ (canonByte parser Byte.cr) := holds.plain (by decide) (by decide)
        have next := @holds_feed _ _ _ [Byte.cr]
          (by rw [taken.contents, collapse_concat, List.append_assoc]; rfl)
          (fun ch isIn => List.mem_singleton.mp isIn) noCr kept
        rw [if_pos ⟨rfl, rfl⟩, bodyLines, if_pos rfl, List.foldl_cons,
          contents_loop rest next noBare.2 (by simp) (kept_crlf _),
          unfinished_cons _ (bodyLines_ne_nil [] rest)]
        simp only [List.append_assoc]
    · rw [if_neg fun both => isCr both.1]
      have next : Holds done (line ++ [ch]) (canonByte parser ch) := by
        cases wsp : isWsp ch with
        | true => exact holds.wsp wsp
        | false => exact holds.plain wsp isFeed
      apply contents_loop rest next noBare.2 _ kept
      simp [noCr, Ne.symm isCr]

/-! ## The end of the body -/

/-- A line as it stands in the canonical body. -/
structure IsRelaxed (line : Bytes) : Prop where
  noFeed : Byte.lf ∉ line
  noCr : Byte.cr ∉ line
  trimmed : line.rdropWhile isWsp = line

theorem isBlank_of_isWsp (ch : UInt8) (wsp : isWsp ch = true) : isBlank ch = true := by
  rw [isBlank, isLineEnd, wsp]
  rfl

theorem IsRelaxed.kept (relaxed : IsRelaxed line) : line.rdropWhile isBlank = line := by
  rw [← relaxed.trimmed, rdropWhile_rdropWhile isBlank_of_isWsp]
  apply rdropWhile_congr
  intro ch isIn
  have notFeed : ch ≠ Byte.lf := fun isFeed => relaxed.noFeed (isFeed ▸ isIn)
  have notCr : ch ≠ Byte.cr := fun isCr => relaxed.noCr (isCr ▸ isIn)
  rw [isBlank, isLineEnd, beq_eq_false_iff_ne.mpr notFeed,
    beq_eq_false_iff_ne.mpr notCr, Bool.or_false, Bool.or_false]

theorem bodyLines_plain {body line : Bytes} (noBare : NoBareCr body)
    (noFeed : Byte.lf ∉ line) (noCr : Byte.cr ∉ line) :
    ∀ other ∈ bodyLines line body, Byte.lf ∉ other ∧ Byte.cr ∉ other := by
  fun_induction bodyLines line body with
  | case1 line => simpa using ⟨noFeed, noCr⟩
  | case2 line rest ih =>
    rw [List.forall_mem_cons]
    exact ⟨⟨noFeed, noCr⟩, ih noBare.2 (by simp) (by simp)⟩
  | case3 line ch rest notFeed isBreak ih => exact ih noBare.2 noFeed noCr
  | case4 line ch rest notFeed noBreak ih =>
    have notCr : ch ≠ Byte.cr := fun isCr =>
      noBreak ⟨isCr, noBare.1 isCr⟩
    exact ih noBare.2 (by simp [noFeed, Ne.symm notFeed]) (by simp [noCr, Ne.symm notCr])

theorem isRelaxed_relaxedLine (noFeed : Byte.lf ∉ line)
    (noCr : Byte.cr ∉ line) : IsRelaxed (relaxedLine line) where
  noFeed isIn := (mem_relaxedLine isIn).elim (by decide) noFeed
  noCr isIn := (mem_relaxedLine isIn).elim (by decide) noCr
  trimmed := List.rdropWhile_idempotent isWsp _

/-- Line breaks at the end are taken away anyway. -/
theorem unfinished_strip (lines : List Bytes) : (unfinished lines).rdropWhile isBlank =
      ((lines.map relaxedLine).flatMap (· ++ crlf)).rdropWhile isBlank := by
  induction lines with
  | nil => rfl
  | cons line rest ih =>
    rw [List.map_cons, List.flatMap_cons]
    by_cases isLast : rest = []
    · rw [isLast, unfinished, List.map_nil, List.flatMap_nil,
        List.append_nil, rdropWhile_append (relaxedLine line),
        if_pos (by decide), relaxedLine,
        rdropWhile_rdropWhile isBlank_of_isWsp]
    · rw [unfinished_cons line isLast, rdropWhile_append, ih, ← rdropWhile_append]

/-- The end of `dkimcanonparser_run`. -/
theorem stripped_lines (lines : List Bytes) (relaxed : ∀ line ∈ lines, IsRelaxed line) :
    (if (lines.flatMap (· ++ crlf)).rdropWhile isBlank = [] then []
      else (lines.flatMap (· ++ crlf)).rdropWhile isBlank ++ crlf) =
      (lines.rdropWhile List.isEmpty).flatMap (· ++ crlf) := by
  induction lines using List.reverseRecOn with
  | nil => rfl
  | append_singleton start last ih =>
    rw [List.forall_mem_append, List.forall_mem_singleton] at relaxed
    have cut : ((start ++ [last]).flatMap (· ++ crlf)).rdropWhile isBlank =
        if last = [] then (start.flatMap (· ++ crlf)).rdropWhile isBlank
        else start.flatMap (· ++ crlf) ++ last := by
      rw [List.flatMap_append, List.flatMap_singleton, ← List.append_assoc,
        rdropWhile_append, if_pos (by decide), rdropWhile_append,
        relaxed.2.kept]
    rw [cut, List.rdropWhile_concat]
    by_cases isEmpty : last = []
    · rw [if_pos isEmpty, isEmpty]
      exact ih relaxed.1
    · rw [if_neg isEmpty, if_neg (by simp [isEmpty]), if_neg (by simpa using isEmpty)]
      simp

theorem contents_run (buf : BufferData) {body : Bytes} (noBare : NoBareCr body) :
    (dkimcanonparserRun buf body).contents = relaxedBody body := by
  have loop := contents_loop body (⟨rfl, rfl⟩ : Holds [] [] ⟨.symbol, bufferdataReset buf⟩) noBare
    (by simp) rfl
  rw [List.nil_append] at loop
  have relaxed : ∀ line ∈ (bodyLines [] body).map relaxedLine,
      IsRelaxed line := by
    intro line isIn
    obtain ⟨source, isSource, rfl⟩ := List.mem_map.mp isIn
    obtain ⟨noFeed, noCr⟩ := bodyLines_plain noBare (by simp) (by simp) source isSource
    exact isRelaxed_relaxedLine noFeed noCr
  rw [dkimcanonparserRun, BufferData.contents_complete, relaxedBody,
    relaxedLines, ← stripped_lines _ relaxed, ← unfinished_strip, ← loop]
  generalize body.foldl canonByte ⟨.symbol, bufferdataReset buf⟩ = parser
  rw [← contents_stripBack (by decide) (bufferdataWrited parser.buf) _
    (by rw [BufferData.writed_eq])]
  generalize stripBack isBlank _ _ = stripped
  rw [BufferData.writed_eq]
  by_cases empty : stripped.contents = []
  · rw [if_pos empty, empty, List.length_nil, if_neg (Nat.lt_irrefl 0), empty]
  · rw [if_neg empty, if_pos (List.length_pos_iff.mpr empty)]
    simp

/-! ## Canonical bodies again -/

/-- White space is single spaces. -/
def Collapsed (inRun : Bool) : Bytes → Prop
  | [] => True
  | ch :: rest =>
    if isWsp ch then inRun = false ∧ ch = Byte.space ∧ Collapsed true rest
    else Collapsed false rest

private theorem collapsed_collapse (inRun : Bool) (line : Bytes) :
    Collapsed inRun (collapse inRun line) := by
  induction line generalizing inRun with
  | nil => trivial
  | cons ch rest ih =>
    rw [collapse]
    cases wsp : isWsp ch with
    | false =>
      rw [if_neg Bool.false_ne_true, Collapsed, wsp, if_neg Bool.false_ne_true]
      exact ih false
    | true =>
      rw [if_pos rfl]
      cases inRun with
      | true => exact ih true
      | false => exact ⟨rfl, rfl, ih true⟩

private theorem collapse_of_collapsed {inRun : Bool} {line : Bytes}
    (collapsed : Collapsed inRun line) : collapse inRun line = line := by
  induction line generalizing inRun with
  | nil => rfl
  | cons ch rest ih =>
    rw [Collapsed] at collapsed
    rw [collapse]
    split at collapsed
    next wsp =>
      obtain ⟨rfl, rfl, behind⟩ := collapsed
      rw [if_pos wsp, ih behind]
      rfl
    next notWsp => rw [if_neg notWsp, ih collapsed]

theorem Collapsed.front {inRun : Bool} {front behind : Bytes}
    (collapsed : Collapsed inRun (front ++ behind)) :
    Collapsed inRun front := by
  induction front generalizing inRun with
  | nil => trivial
  | cons ch rest ih =>
    rw [List.cons_append, Collapsed] at collapsed
    rw [Collapsed]
    split at collapsed
    next wsp =>
      rw [if_pos wsp]
      exact ⟨collapsed.1, collapsed.2.1, ih collapsed.2.2⟩
    next notWsp =>
      rw [if_neg notWsp]
      exact ih collapsed

private theorem relaxedLine_relaxedLine (line : Bytes) :
    relaxedLine (relaxedLine line) = relaxedLine line := by
  have collapsed : Collapsed false (relaxedLine line) := by
    obtain ⟨behind, whole⟩ := List.rdropWhile_prefix isWsp (collapse false line)
    apply @Collapsed.front _ _ behind
    rw [relaxedLine, whole]
    exact collapsed_collapse false line
  rw [relaxedLine, collapse_of_collapsed collapsed]
  exact List.rdropWhile_idempotent isWsp _

private theorem bodyLines_line (text rest : Bytes) (noFeed : Byte.lf ∉ text)
    (noCr : Byte.cr ∉ text) (line : Bytes) :
    bodyLines line (text ++ (crlf ++ rest)) = (line ++ text) :: bodyLines [] rest := by
  induction text generalizing line with
  | nil =>
    have notFeed : Byte.cr ≠ Byte.lf := by decide
    simp [bodyLines, notFeed]
  | cons ch behind ih =>
    simp only [List.mem_cons, not_or] at noFeed noCr
    rw [List.cons_append, bodyLines, if_neg (Ne.symm noFeed.1),
      if_neg (fun both => noCr.1 both.1.symm),
      ih noFeed.2 noCr.2, List.append_assoc]
    rfl

private theorem bodyLines_flatMap (lines : List Bytes) (relaxed : ∀ line ∈ lines, IsRelaxed line) :
    bodyLines [] (lines.flatMap (· ++ crlf)) = lines ++ [[]] := by
  induction lines with
  | nil => rfl
  | cons line rest ih =>
    rw [List.forall_mem_cons] at relaxed
    rw [List.flatMap_cons, List.append_assoc, bodyLines_line line _ relaxed.1.noFeed relaxed.1.noCr,
      ih relaxed.2]
    rfl

private theorem noBareCr_line (text rest : Bytes) (noCr : Byte.cr ∉ text)
    (noBare : NoBareCr rest) : NoBareCr (text ++ (crlf ++ rest)) := by
  induction text with
  | nil => exact ⟨fun _ => rfl, fun isCr => absurd isCr (by decide), noBare⟩
  | cons ch behind ih =>
    rw [List.mem_cons, not_or] at noCr
    exact ⟨fun isCr => absurd isCr.symm noCr.1, ih noCr.2⟩

private theorem noBareCr_flatMap (lines : List Bytes) (relaxed : ∀ line ∈ lines, IsRelaxed line) :
    NoBareCr (lines.flatMap (· ++ crlf)) := by
  induction lines with
  | nil => trivial
  | cons line rest ih =>
    rw [List.forall_mem_cons] at relaxed
    rw [List.flatMap_cons, List.append_assoc]
    exact noBareCr_line line _ relaxed.1.noCr (ih relaxed.2)

theorem mem_bodyLines {body line other : Bytes} {ch : UInt8}
    (isLine : other ∈ bodyLines line body) (isIn : ch ∈ other) :
    ch ∈ line ∨ ch ∈ body := by
  fun_induction bodyLines line body with
  | case1 line =>
    rw [List.mem_singleton.mp isLine] at isIn
    exact Or.inl isIn
  | case2 line rest ih =>
    rcases List.mem_cons.mp isLine with rfl | later
    · exact Or.inl isIn
    · exact Or.inr (List.mem_cons_of_mem _ ((ih later).resolve_left List.not_mem_nil))
  | case3 line first rest notFeed isBreak ih =>
    exact (ih isLine).imp_right (List.mem_cons_of_mem _)
  | case4 line first rest notFeed noBreak ih =>
    rcases ih isLine with inLine | inRest
    · rcases List.mem_append.mp inLine with isOld | isNew
      · exact Or.inl isOld
      · rw [List.mem_singleton.mp isNew]
        exact Or.inr (List.mem_cons_self ..)
    · exact Or.inr (List.mem_cons_of_mem _ inRest)

theorem relaxedLines_facts {body : Bytes} (noBare : NoBareCr body) :
    ∀ line ∈ relaxedLines body, IsRelaxed line ∧ relaxedLine line = line ∧
      (0 ∉ body → 0 ∉ line) := by
  intro line isIn
  obtain ⟨source, isSource, rfl⟩ := List.mem_map.mp
    ((List.rdropWhile_prefix List.isEmpty _).subset isIn)
  obtain ⟨noFeed, noCr⟩ := bodyLines_plain noBare (by simp) (by simp) source isSource
  refine ⟨isRelaxed_relaxedLine noFeed noCr, relaxedLine_relaxedLine source, fun noNul isNul => ?_⟩
  rcases mem_relaxedLine isNul with isSpace | inSource
  · exact absurd isSpace (by decide)
  · exact (mem_bodyLines isSource inSource).elim List.not_mem_nil noNul

private theorem relaxedBody_relaxedBody {body : Bytes} (noBare : NoBareCr body) :
    relaxedBody (relaxedBody body) = relaxedBody body := by
  have facts := relaxedLines_facts noBare
  have same : (relaxedLines body).map relaxedLine = relaxedLines body :=
    (List.map_congr_left fun line isIn => (facts line isIn).2.1).trans (List.map_id _)
  have lines : relaxedLines (relaxedBody body) = relaxedLines body := by
    rw [relaxedLines, relaxedBody, bodyLines_flatMap _ fun line isIn => (facts line isIn).1,
      List.map_append, same, List.map_singleton, List.rdropWhile_concat,
      if_pos (by decide)]
    exact List.rdropWhile_idempotent List.isEmpty _
  rw [relaxedBody, lines, relaxedBody]

/-- The canonical body is the relaxed form of the body, and it does not change
when it is made canonical again. -/
theorem dkimRelaxedBodyCanon_relaxed (body : Bytes) (noBare : NoBareCr (cstring body)) :
    dkimRelaxedBodyCanon body = relaxedBody (cstring body) ∧
    dkimRelaxedBodyCanon (dkimRelaxedBodyCanon body) =
      dkimRelaxedBodyCanon body := by
  have facts := relaxedLines_facts noBare
  have canonical : ∀ text, NoBareCr (cstring text) →
      dkimRelaxedBodyCanon text = relaxedBody (cstring text) := by
    intro text isText
    rw [dkimRelaxedBodyCanon, BufferData.get_eq, contents_run _ isText]
  have noNul : 0 ∉ relaxedBody (cstring body) := by
    intro isNul
    obtain ⟨line, isLine, isIn⟩ := List.mem_flatMap.mp isNul
    rcases List.mem_append.mp isIn with inLine | isBreak
    · exact (facts line isLine).2.2 (zero_notMem_cstring body) inLine
    · exact absurd isBreak (by decide)
  have again : NoBareCr (cstring (relaxedBody (cstring body))) := by
    rw [cstring_of_notMem noNul]
    exact noBareCr_flatMap _ fun line isIn => (facts line isIn).1
  refine ⟨canonical body noBare, ?_⟩
  rw [canonical body noBare, canonical _ again, cstring_of_notMem noNul,
    relaxedBody_relaxedBody noBare]

theorem dkimRelaxedBodyCanon_sample : dkimRelaxedBodyCanon (ascii " a \t b \r\n\r\n  \r\n") =
      ascii " a b\r\n" := by
  have canonical := (dkimRelaxedBodyCanon_relaxed
    (ascii " a \t b \r\n\r\n  \r\n") (by decide +kernel)).1
  rw [canonical]
  decide +kernel

end CWebFramework.DkimBody
