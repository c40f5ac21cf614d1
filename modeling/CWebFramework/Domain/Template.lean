import CWebFramework.Misc.Bytes

/-!
# Domain templates

`domain.c`: a template is turned into a regular expression in memory whose size
another pass has computed before, with counters of type `int`.  The memory is
the list of its cells up to the write position; the first cell stays empty while
the anchor is missing.
-/

namespace CWebFramework.Domain

/-! ## The two passes -/

/-- `domain_parser_t`. The position in the prepared template is the number of
its cells. -/
structure DomainParser where
  pos : Nat
  bracketsCount : Nat
  preparedTemplate : List (Option UInt8)
  deriving DecidableEq, Repr

def insertCustomSymbol (parser : DomainParser) (ch : UInt8) : DomainParser :=
  { parser with preparedTemplate := parser.preparedTemplate ++ [some ch] }

def parseSymbol (length : Nat) (parser : DomainParser) (ch : UInt8) : Option DomainParser :=
  if ch = 40 ∨ ch = Byte.openBracket then
    insertCustomSymbol
      { parser with bracketsCount := parser.bracketsCount + 1 } ch
  else if ch = 41 ∨ ch = Byte.closeBracket then
    if parser.bracketsCount = 0 then none
    else
      insertCustomSymbol
        { parser with bracketsCount := parser.bracketsCount - 1 } ch
  else if ch = 42 then
    if 0 < parser.bracketsCount then insertCustomSymbol parser ch
    else if parser.pos = 0 ∨ parser.pos = length - 1 then
      insertCustomSymbol (insertCustomSymbol parser Byte.dot) ch
    else none
  else if ch = Byte.dot then
    if 0 < parser.bracketsCount then insertCustomSymbol parser ch
    else insertCustomSymbol (insertCustomSymbol parser 92) ch
  else insertCustomSymbol parser ch

def parseLoop (length : Nat) : Bytes → DomainParser → Option DomainParser
  | [], parser => some parser
  | ch :: rest, parser => do
      let parser ← parseSymbol length parser ch
      parseLoop length rest { parser with pos := parser.pos + 1 }

/-- `domain_parse`: the cells of the prepared template. -/
def domainParse (template : Bytes) : Option (List (Option UInt8)) :=
  if template = [] then none
  else
    let needStartAnchor := template.head? ≠ some 94
    let needEndAnchor := template.getLast? ≠ some 36
    let start := if needStartAnchor then [none] else []
    (parseLoop template.length template ⟨0, 0, start⟩).bind fun parser =>
      if parser.bracketsCount ≠ 0 then none
      else
        let parser :=
          if needStartAnchor then
            { parser with
              preparedTemplate := parser.preparedTemplate.set 0 (some 94) }
          else parser
        let parser :=
          if needEndAnchor then insertCustomSymbol parser 36 else parser
        some (insertCustomSymbol parser 0).preparedTemplate

structure Estimate where
  pos : Nat
  bracketsCount : Nat
  pcreLength : Int
  deriving DecidableEq, Repr

def Estimate.add (estimate : Estimate) (count : Nat) : Estimate :=
  { estimate with pcreLength := wrapInt (estimate.pcreLength + count) }

theorem Estimate.add_add (estimate : Estimate) (first second : Nat) :
    (estimate.add first).add second = estimate.add (first + second) := by
  rw [add, add, add, wrapInt_add, Int.natCast_add, Int.add_assoc]

def estimateSymbol (length : Nat) (estimate : Estimate) (ch : UInt8) : Option Estimate :=
  if ch = 40 ∨ ch = Byte.openBracket then
    Estimate.add
      { estimate with bracketsCount := estimate.bracketsCount + 1 } 1
  else if ch = 41 ∨ ch = Byte.closeBracket then
    if estimate.bracketsCount = 0 then none
    else
      Estimate.add
        { estimate with bracketsCount := estimate.bracketsCount - 1 } 1
  else if ch = 42 then
    if 0 < estimate.bracketsCount then estimate.add 1
    else if estimate.pos = 0 ∨ estimate.pos = length - 1 then estimate.add 2
    else none
  else if ch = Byte.dot then
    if 0 < estimate.bracketsCount then estimate.add 1 else estimate.add 2
  else estimate.add 1

def estimateLoop (length : Nat) : Bytes → Estimate → Option Estimate
  | [], estimate => some estimate
  | ch :: rest, estimate => do
      let estimate ← estimateSymbol length estimate ch
      estimateLoop length rest { estimate with pos := estimate.pos + 1 }

/-- `domain_estimate_length`; `none` is a read in front of the template. -/
def domainEstimateLength (template : Bytes) : Option Int :=
  let length := wrapInt template.length
  if length = 0 then some (-1)
  else if length < 0 then none
  else
    match estimateLoop length.toNat (template.take length.toNat) ⟨0, 0, 0⟩ with
    | none => some (-1)
    | some estimate =>
      if estimate.bracketsCount ≠ 0 then some (-1)
      else
        let estimate :=
          if template.head? ≠ some 94 then estimate.add 1 else estimate
        let estimate :=
          if template[length.toNat - 1]? ≠ some 36 then estimate.add 1
          else estimate
        some estimate.pcreLength

/-! ## Their agreement -/

/-- The passes are at the same place, and the cells behind the first ones are
written and as many as were counted. -/
structure InStep (start : List (Option UInt8)) (parser : DomainParser)
    (estimate : Estimate) : Prop where
  pos : parser.pos = estimate.pos
  brackets : parser.bracketsCount = estimate.bracketsCount
  cells : ∃ text : Bytes, parser.preparedTemplate = start ++ text.map some ∧
    wrapInt text.length = estimate.pcreLength

variable {start : List (Option UInt8)} {parser : DomainParser}
  {estimate : Estimate}

theorem InStep.insert (inStep : InStep start parser estimate) (ch : UInt8) :
    InStep start (insertCustomSymbol parser ch) (estimate.add 1) := by
  obtain ⟨text, isText, length⟩ := inStep.cells
  refine ⟨inStep.pos, inStep.brackets, text ++ [ch], ?_, ?_⟩
  · rw [insertCustomSymbol, isText, List.map_append, List.append_assoc]
    rfl
  · rw [Estimate.add, ← length, wrapInt_add, List.length_append,
      List.length_singleton, Int.natCast_add]

theorem InStep.brackets_eq (inStep : InStep start parser estimate) (change : Nat → Nat) :
    InStep start
      { parser with bracketsCount := change parser.bracketsCount }
      { estimate with bracketsCount := change estimate.bracketsCount } :=
  ⟨inStep.pos, congrArg change inStep.brackets, inStep.cells⟩

/-- Both passes take the same branch for every character. -/
theorem symbol_inStep (inStep : InStep start parser estimate) (length : Nat) (ch : UInt8) :
    Option.Rel (InStep start) (parseSymbol length parser ch)
      (estimateSymbol length estimate ch) := by
  have one := inStep.insert
  have two : ∀ first second, InStep start (insertCustomSymbol
      (insertCustomSymbol parser first) second) (estimate.add 2) :=
    fun first second =>
      estimate.add_add 1 1 ▸ (inStep.insert first).insert second
  rw [parseSymbol, estimateSymbol, inStep.brackets, inStep.pos]
  split_ifs
  · have more := (inStep.brackets_eq (· + 1)).insert ch
    rw [inStep.brackets, inStep.pos] at more
    exact .some more
  · exact .none
  · have less := (inStep.brackets_eq (· - 1)).insert ch
    rw [inStep.brackets, inStep.pos] at less
    exact .some less
  · exact .some (one ch)
  · exact .some (two _ ch)
  · exact .none
  · exact .some (one ch)
  · exact .some (two _ ch)
  · exact .some (one ch)

private theorem loop_inStep (inStep : InStep start parser estimate) (length : Nat) (rest : Bytes) :
    Option.Rel (InStep start) (parseLoop length rest parser)
      (estimateLoop length rest estimate) := by
  induction rest generalizing parser estimate with
  | nil => exact .some inStep
  | cons ch rest ih =>
    have step := symbol_inStep inStep length ch
    rw [parseLoop, estimateLoop]
    generalize parseSymbol length parser ch = parsed at step ⊢
    generalize estimateSymbol length estimate ch = estimated at step ⊢
    cases step with
    | none => exact .none
    | some step =>
      exact ih ⟨congrArg (· + 1) step.pos, step.brackets, step.cells⟩

theorem domainEstimateLength_of_le {template : Bytes}
    (isInt : template.length ≤ intMax) (some_char : template ≠ []) :
    domainEstimateLength template =
      match estimateLoop template.length template ⟨0, 0, 0⟩ with
      | none => some (-1)
      | some estimate =>
        if estimate.bracketsCount ≠ 0 then some (-1)
        else
          let estimate :=
            if template.head? ≠ some 94 then estimate.add 1 else estimate
          let estimate :=
            if template.getLast? ≠ some 36 then estimate.add 1 else estimate
          some estimate.pcreLength := by
  have pos := List.length_pos_iff.mpr some_char
  rw [domainEstimateLength, wrapInt_of_le (by omega) (by omega)]
  dsimp only
  rw [if_neg (by omega), if_neg (by omega), Int.toNat_natCast,
    List.take_length, List.getLast?_eq_getElem?]

/-- What the second pass writes, against the number that the first one has
counted. -/
theorem domainEstimateLength_eq {template : Bytes} (isInt : template.length ≤ intMax) :
    domainEstimateLength template = some ((domainParse template).elim (-1)
        fun cells => wrapInt (cells.length - 1)) ∧
      ∀ cells ∈ domainParse template, ∃ text : Bytes, cells = (text ++ [0]).map some := by
  by_cases isEmpty : template = []
  · subst isEmpty
    exact ⟨rfl, nofun⟩
  rw [domainEstimateLength_of_le isInt isEmpty, domainParse, if_neg isEmpty]
  dsimp only
  have loops := @loop_inStep (if template.head? ≠ some 94 then [none] else [])
    ⟨0, 0, if template.head? ≠ some 94 then [none] else []⟩ ⟨0, 0, 0⟩
    ⟨rfl, rfl, [], (List.append_nil _).symm, rfl⟩ template.length template
  generalize parseLoop _ _ _ = parsed at loops ⊢
  generalize estimateLoop _ _ _ = estimated at loops ⊢
  cases loops with
  | none => exact ⟨rfl, nofun⟩
  | @some parser estimate inStep =>
    obtain ⟨text, isText, length⟩ := inStep.cells
    rw [Option.bind_some, inStep.brackets]
    by_cases isOpen : estimate.bracketsCount = 0
    · rw [if_neg (not_not_intro isOpen)]
      simp only [if_neg (not_not_intro isOpen), Option.elim_some, Option.mem_some_iff, forall_eq']
      split_ifs at isText ⊢
      · refine ⟨?_, 94 :: (text ++ [36]), ?_⟩
        · simp [insertCustomSymbol, isText, Estimate.add, ← length,
            wrapInt_add, add_assoc, add_sub_assoc]
        · simp [insertCustomSymbol, isText]
      · refine ⟨?_, text ++ [36], ?_⟩
        · simp [insertCustomSymbol, isText, Estimate.add, ← length, wrapInt_add, add_sub_assoc]
        · simp [insertCustomSymbol, isText]
      · refine ⟨?_, 94 :: text, ?_⟩
        · simp [insertCustomSymbol, isText, Estimate.add, ← length, wrapInt_add]
        · simp [insertCustomSymbol, isText]
      · refine ⟨?_, text, ?_⟩
        · simp [insertCustomSymbol, isText, ← length]
        · simp [insertCustomSymbol, isText]
    · rw [if_pos isOpen]
      simp [isOpen]

/-- Both passes refuse the same templates, and the second one writes every cell
of the length that the first one has computed, and the terminating one, exactly
if the length fits the `int`. -/
theorem domainParse_estimate (template : Bytes) (isInt : template.length ≤ intMax) :
    (domainParse template = none → domainEstimateLength template = some (-1)) ∧
    ∀ cells, domainParse template = some cells → ∃ text : Bytes, cells = (text ++ [0]).map some ∧
        (domainEstimateLength template = some (text.length : Int) ↔ text.length ≤ intMax) := by
  obtain ⟨isEstimate, areWritten⟩ := domainEstimateLength_eq isInt
  constructor
  · intro refused
    rw [isEstimate, refused]
    rfl
  · intro cells accepted
    obtain ⟨text, rfl⟩ := areWritten cells accepted
    refine ⟨text, rfl, ?_⟩
    rw [isEstimate, accepted, Option.elim_some, List.length_map,
      List.length_append, List.length_singleton, Int.natCast_add,
      Int.natCast_one, Int.add_sub_cancel, Option.some_inj,
      wrapInt_eq_self_iff (Int.natCast_nonneg _)]
    omega

theorem domainParse_estimate_wildcard : (ascii "*.a").length ≤ intMax ∧ domainParse (ascii "*.a") =
        some ((ascii "^.*\\.a$" ++ [0]).map some) ∧
      domainEstimateLength (ascii "*.a") = some 7 := by
  have isInt : (ascii "*.a").length ≤ intMax := by decide
  have accepted : domainParse (ascii "*.a") = some ((ascii "^.*\\.a$" ++ [0]).map some) := by decide
  refine ⟨isInt, accepted, ?_⟩
  obtain ⟨text, isText, isLength⟩ := (domainParse_estimate (ascii "*.a") isInt).2 _ accepted
  have length : text.length = 7 := by
    have cells := congrArg List.length isText
    rw [List.length_map, List.length_map, List.length_append, List.length_append] at cells
    exact (Nat.add_right_cancel cells).symm
  rw [length] at isLength
  exact isLength.mpr (by decide)

theorem parseLoop_dots (length count : Nat) {parser : DomainParser}
    (outside : parser.bracketsCount = 0) :
    ∃ parsed, parseLoop length (List.replicate count Byte.dot) parser =
        some parsed ∧ parsed.bracketsCount = 0 ∧
      parsed.preparedTemplate.length = parser.preparedTemplate.length + 2 * count := by
  induction count generalizing parser with
  | zero => exact ⟨parser, rfl, outside, rfl⟩
  | succ count ih =>
    have symbol : parseSymbol length parser Byte.dot = some
        (insertCustomSymbol (insertCustomSymbol parser 92) Byte.dot) := by
      rw [parseSymbol, outside]
      rfl
    rw [List.replicate_succ, parseLoop, symbol]
    obtain ⟨parsed, isParsed, none_open, cells⟩ := @ih
      { insertCustomSymbol (insertCustomSymbol parser 92) Byte.dot with
        pos := parser.pos + 1 } outside
    refine ⟨parsed, isParsed, none_open, ?_⟩
    rw [cells]
    simp only [insertCustomSymbol, List.length_append, List.length_singleton]
    omega

theorem domainParse_dots {count : Nat} (pos : 0 < count) :
    ∃ cells, domainParse (List.replicate count Byte.dot) = some cells ∧
      cells.length = 2 * count + 3 := by
  obtain ⟨rest, rfl⟩ := Nat.exists_eq_add_of_lt pos
  obtain ⟨parsed, isParsed, none_open, cells⟩ :=
    @parseLoop_dots (List.replicate (0 + rest + 1) Byte.dot).length
      (0 + rest + 1) ⟨0, 0, [none]⟩ rfl
  rw [domainParse, if_neg (by simp)]
  simp only [List.head?_replicate, List.getLast?_replicate]
  have notStart : some Byte.dot ≠ some (94 : UInt8) := by decide
  have notEnd : some Byte.dot ≠ some (36 : UInt8) := by decide
  rw [if_neg (Nat.succ_ne_zero _), if_pos notStart, isParsed,
    Option.bind_some, if_neg (not_not_intro none_open), if_pos notStart,
    if_pos notEnd]
  refine ⟨_, rfl, ?_⟩
  simp only [insertCustomSymbol, List.length_append, List.length_set, cells, List.length_singleton]
  omega

/-- The first pass overflows its `int` for a template that the second one
accepts. -/
theorem domainEstimateLength_overflow :
    ∃ cells, domainParse (List.replicate 1073741823 Byte.dot) = some cells ∧
      cells.length = 2147483649 ∧
      domainEstimateLength (List.replicate 1073741823 Byte.dot) = some (-2147483648) := by
  obtain ⟨cells, accepted, length⟩ := @domainParse_dots 1073741823 (by decide)
  refine ⟨cells, accepted, length, ?_⟩
  have isInt : (List.replicate 1073741823 Byte.dot).length ≤ intMax := by
    rw [List.length_replicate]
    decide
  rw [(domainEstimateLength_eq isInt).1, accepted, Option.elim_some, length]
  rfl

end CWebFramework.Domain
