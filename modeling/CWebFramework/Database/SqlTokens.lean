import CWebFramework.Database.SqlScan

/-!
# The parameters of a query

The tokens of a query whose regions are known: a marker outside literals and
comments begins a parameter unless it belongs to a cast, and the name is made
of the bytes directly behind it that can belong to a name.  On a regular query
`parse_sql_parameters` expands exactly these parameters.
-/

namespace CWebFramework.Database

open Model

variable {Scalar Data : Type}

/-! ## Tokens -/

/-- A byte that is copied, or a marker with its possibly empty name and the
regions behind it. -/
inductive Token where
  | byte (byte : UInt8)
  | mark (marker : UInt8) (name : Bytes) (behind : List Region)
  deriving DecidableEq, Repr

def Region.isName (region : Region) : Bool := region.shown && !isSpecSymbol region.byte

def Region.isCast (region : Region) (next : Option UInt8) : Bool :=
  region.shown && region.byte == Byte.colon && next == some Byte.colon

/-- A parameter ends in front of the regions `behind`. -/
def closeToken (behind : List Region) : Option Bytes → List Token
  | some (marker :: name) => [.mark marker name behind]
  | _ => []

/-- The tokens behind the first colon of a cast, or behind the beginning of a
parameter. -/
def tokensFrom : Bool → Option Bytes → List Region → List Token
  | _, started, [] => closeToken [] started
  | true, _, region :: rest => .byte region.byte :: tokensFrom false none rest
  | false, started, region :: rest =>
    if region.isName then
      match started with
      | none => .byte region.byte :: tokensFrom false none rest
      | some text => tokensFrom false (some (text ++ [region.byte])) rest
    else
      closeToken (region :: rest) started ++
        if region.isCast (rest.head?.map Region.byte) then
          .byte region.byte :: tokensFrom true none rest
        else if region.shown && isMarker region.byte then
          tokensFrom false (some [region.byte]) rest
        else .byte region.byte :: tokensFrom false none rest

def tokens (query : List Region) : List Token := tokensFrom false none query

def concats : List Region → Bool
  | [] => false
  | region :: rest =>
    region.shown && isMarker region.byte && !region.isCast (rest.head?.map Region.byte)

/-- What the tokens of a query expand to. Parameters without a separator are
refused. -/
def evaluate (expand : UInt8 → Bytes → Data → Option (List (Fragment Scalar) × Data)) :
    List Token → Data → Option (List (Emission Scalar) × Data)
  | [], data => some ([], data)
  | .byte byte :: rest, data =>
    (evaluate expand rest data).map fun (emitted, data) =>
      (.copied byte :: emitted, data)
  | .mark marker name behind :: rest, data =>
    if concats behind then none
    else if name = [] then
      (evaluate expand rest data).map fun (emitted, data) =>
        (.copied marker :: emitted, data)
    else
      (expand marker name data).bind fun (fragments, data) =>
        (evaluate expand rest data).map fun (emitted, data) =>
          (.expanded marker name fragments :: emitted, data)

/-! ## Regular queries -/

def singleCast : List Region → Bool
  | first :: second :: rest =>
    !first.isCast (some second.byte) ||
      second.shown && rest.head?.map Region.byte != some Byte.colon
  | _ => true

/-- The name fits into its buffer, no literal or comment follows it directly,
and at most one cast does. -/
def Token.regular : Token → Bool
  | .byte _ => true
  | .mark _ name behind =>
    decide (name.length < maxParamName) && behind.head?.all (fun region =>
        region.shown && !isQuote region.byte) &&
      singleCast behind

def Regular (query : List Region) : Prop := ∀ token ∈ tokens query, token.regular = true

/-! ## The scan of a regular query -/

namespace Scan

/-- What has been emitted or held back in front of the parameter in
progress. -/
def base (scan : Scan Scalar Data) : List (Emission Scalar) := scan.emitted ++ scan.held.map .copied

def total (scan : Scan Scalar Data) : List (Emission Scalar) × Data :=
  (scan.emitted ++ scan.waiting.map .copied, scan.data)

theorem total_of_idle {scan : Scan Scalar Data}
    (idle : scan.pending = none) : scan.total = (scan.base, scan.data) := by
  simp [total, base, waiting, idle]

theorem keep_base {scan : Scan Scalar Data} (idle : scan.pending = none) (byte : UInt8) :
    (scan.keep byte).base = scan.base ++ [.copied byte] := by
  simp [keep, base, idle]

theorem flush_base (scan : Scan Scalar Data) : scan.flush.base = scan.base := by
  simp [flush, base]

end Scan

def behindBase (base : List (Emission Scalar)) (result : List (Emission Scalar) × Data) :
    List (Emission Scalar) × Data :=
  (base ++ result.1, result.2)

/-- The scan and the tokens have come to the same place. -/
inductive InStep : Bool → Option Bytes → List Region → Scan Scalar Data → Prop where
  | idle {rest : List Region} {scan : Scan Scalar Data}
      (still : scan.passed = false) (idle : scan.pending = none)
      (unskipped : scan.skipNextColon = false) :
      InStep false none rest scan
  | inName {rest : List Region} {scan : Scan Scalar Data}
      {marker : UInt8} {name : Bytes} (still : scan.passed = false)
      (pending : scan.pending = some (marker :: name))
      (unskipped : scan.skipNextColon = false)
      (more : name ≠ [] → rest ≠ []) :
      InStep false (some (marker :: name)) rest scan
  | passed {region : Region} {rest : List Region} {scan : Scan Scalar Data}
      (passed : scan.passed = true) (idle : scan.pending = none)
      (unskipped : scan.skipNextColon = false) :
      InStep true none (region :: rest) scan
  | skipping {region : Region} {rest : List Region}
      {scan : Scan Scalar Data} (still : scan.passed = false)
      (idle : scan.pending = none) (skips : scan.skipNextColon = true)
      (shown : region.shown = true) (isColon : region.byte = Byte.colon)
      (single : rest.head?.map Region.byte ≠ some Byte.colon) :
      InStep true none (region :: rest) scan

section Scanner

variable {expand : UInt8 → Bytes → Data → Option (List (Fragment Scalar) × Data)}

theorem evaluate_byte (byte : UInt8) (rest : List Token) (data : Data)
    (base : List (Emission Scalar)) :
    (evaluate expand (.byte byte :: rest) data).map (behindBase base) =
      (evaluate expand rest data).map (behindBase (base ++ [.copied byte])) := by
  rw [evaluate, Option.map_map]
  congr 1
  funext result
  simp [behindBase]

variable {marker : UInt8} {name : Bytes}

theorem finishParameter_evaluate (scan : Scan Scalar Data) {behind : List Region}
    {rest : List Token} (short : name.length < maxParamName) (separated : concats behind = false)
    {proceed : Scan Scalar Data → Option (Scan Scalar Data)}
    (proceeds : ∀ next : Scan Scalar Data, next.pending = none →
      next.passed = scan.passed →
      next.skipNextColon = scan.skipNextColon → (proceed next).map Scan.total =
          (evaluate expand rest next.data).map (behindBase next.base)) :
    ((finishParameter expand scan (marker :: name)).bind proceed).map Scan.total =
      (evaluate expand (.mark marker name behind :: rest) scan.data).map
        (behindBase scan.base) := by
  by_cases unnamed : name = []
  · have finished : finishParameter expand scan (marker :: name) = some { scan with
          pending := none
          held := scan.held ++ [marker] } := by
      simp [finishParameter, unnamed]
    have continued := proceeds
      { scan with
        pending := none
        held := scan.held ++ [marker] } rfl rfl rfl
    rw [finished, Option.bind_some, continued]
    simp only [evaluate, separated, Bool.false_eq_true, if_false, unnamed, if_true, Option.map_map]
    congr 1
    funext result
    simp [behindBase, Scan.base]
  · have named : 0 < name.length := List.length_pos_iff.mpr unnamed
    simp only [finishParameter, named, short, and_self, if_true, evaluate,
      separated, Bool.false_eq_true, if_false, unnamed]
    cases expanded : expand marker name scan.data with
    | none => rfl
    | some result =>
      have continued := proceeds
        { scan with
          pending := none
          held := []
          emitted := scan.emitted ++ scan.held.map .copied ++ [.expanded marker name result.1]
          data := result.2 } rfl rfl rfl
      simp only [Option.map_some, Option.bind_some]
      rw [continued, Option.map_map]
      congr 1
      funext others
      simp [behindBase, Scan.base]

variable {scan : Scan Scalar Data} {rest : List Region}

theorem keep_evaluate {byte : UInt8} {later : List Token}
    (still : scan.passed = false) (idle : scan.pending = none)
    (unskipped : scan.skipNextColon = false) (ih : ∀ next : Scan Scalar Data,
      next.passed = false → next.pending = none →
      next.skipNextColon = false → (scanRegions expand rest next).map Scan.total =
          (evaluate expand later next.data).map (behindBase next.base))
    (ends : Bool) :
    ((some (if ends then (scan.keep byte).flush
        else scan.keep byte)).bind (scanRegions expand rest)).map
        Scan.total =
      (evaluate expand (.byte byte :: later) scan.data).map (behindBase scan.base) := by
  have kept : (scan.keep byte).skipNextColon = false ∧ (scan.keep byte).data = scan.data := by
    simp [Scan.keep, idle, unskipped]
  have samePassed : (scan.keep byte).passed = false := by
    rw [scan.keep_passed, still]
  have sameIdle := Scan.keep_pending_of_none idle byte
  rw [evaluate_byte, ← Scan.keep_base idle, ← kept.2, Option.bind_some]
  cases ends with
  | true =>
    have continued := ih (scan.keep byte).flush samePassed sameIdle kept.1
    rw [Scan.flush_base] at continued
    exact continued
  | false =>
    exact ih (scan.keep byte) samePassed sameIdle kept.1

variable {region : Region}

private theorem tokensFrom_close (notName : region.isName = false)
    (started : Option Bytes) (rest : List Region) :
    tokensFrom false started (region :: rest) = closeToken (region :: rest) started ++
        tokensFrom false none (region :: rest) := by
  simp [tokensFrom, notName, closeToken]

theorem tokensFrom_cast (cast : region.isCast (rest.head?.map Region.byte) = true) :
    tokensFrom false none (region :: rest) = .byte region.byte :: tokensFrom true none rest := by
  have isColon : region.byte = Byte.colon := by
    simp only [Region.isCast, Bool.and_eq_true, beq_iff_eq] at cast
    exact cast.1.2
  have notName : region.isName = false := by
    rw [Region.isName, isColon]
    exact Bool.and_false _
  simp [tokensFrom, notName, closeToken, cast]

private theorem tokensFrom_marker (noCast : region.isCast (rest.head?.map Region.byte) = false)
    (shown : region.shown = true) (marker : isMarker region.byte = true) :
    tokensFrom false none (region :: rest) = tokensFrom false (some [region.byte]) rest := by
  have notName : region.isName = false := by
    rw [Region.isName, isSpecSymbol_of_isMarker marker]
    exact Bool.and_false _
  simp [tokensFrom, notName, closeToken, noCast, shown, marker]

theorem tokensFrom_plain (plain : region.isName = true ∨ region.shown = false ∨
      isMarker region.byte = false) :
    tokensFrom false none (region :: rest) = .byte region.byte :: tokensFrom false none rest := by
  by_cases isName : region.isName = true
  · rw [tokensFrom, if_pos isName]
  · have unmarked : (region.shown && isMarker region.byte) = false := by
      rcases plain with named | hidden | notMarker
      · exact absurd named isName
      · rw [hidden]
        rfl
      · rw [notMarker, Bool.and_false]
    have noCast : region.isCast (rest.head?.map Region.byte) = false := by
      unfold Region.isCast
      by_contra cast
      simp only [Bool.not_eq_false, Bool.and_eq_true, beq_iff_eq] at cast
      rw [cast.1.1, cast.1.2] at unmarked
      cases unmarked
    rw [tokensFrom, if_neg isName, noCast, unmarked]
    rfl

variable (expand) in
theorem scanRegion_unmarked (following : Option UInt8)
    (still : scan.passed = false) (shown : region.shown = true)
    (unmarked : isMarker region.byte = false) :
    scanRegion expand region following scan = paramEndCheck expand region.byte following
        { scan with skipNextColon := false } := by
  have notColon : region.byte ≠ Byte.colon := by
    intro isColon
    rw [isColon] at unmarked
    cases unmarked
  simp only [scanRegion, still, Bool.false_eq_true, if_false, shown, if_true,
    scanShown, notColon, false_and, and_false, unmarked]

theorem Scan.unskip (unskipped : scan.skipNextColon = false) :
    { scan with skipNextColon := false } = scan := by
  rw [← unskipped]

theorem Region.isName_unmarked (isName : region.isName = true) : isMarker region.byte = false := by
  by_contra marked
  rw [Region.isName, isSpecSymbol_of_isMarker (by simpa using marked)] at isName
  simp at isName

variable (expand) in
theorem scanRegion_idle (rest : List Region) (still : scan.passed = false)
    (idle : scan.pending = none) (unskipped : scan.skipNextColon = false)
    (plain : region.isName = true ∨ region.shown = false ∨ isMarker region.byte = false) :
    ∃ ends : Bool, scanRegion expand region (rest.head?.map Region.byte)
        scan = some (if ends then (scan.keep region.byte).flush
          else scan.keep region.byte) := by
  by_cases shown : region.shown = true
  · have unmarked : isMarker region.byte = false := by
      rcases plain with isName | hidden | notMarker
      · exact Region.isName_unmarked isName
      · rw [shown] at hidden
        cases hidden
      · exact notMarker
    refine ⟨(rest.head?.map Region.byte).isNone, ?_⟩
    rw [scanRegion_unmarked expand _ still shown unmarked,
      Scan.unskip unskipped, paramEndCheck, idle]
  · exact ⟨false, by simp [scanRegion, still, shown]⟩

variable (expand) in
/-- What is to be shown for the rest of a query. -/
def Evaluates (rest : List Region) : Prop :=
  ∀ {second : Bool} {started : Option Bytes} (scan : Scan Scalar Data),
    InStep second started rest scan →
    (∀ token ∈ tokensFrom second started rest, token.regular = true) →
      (scanRegions expand rest scan).map Scan.total =
        (evaluate expand (tokensFrom second started rest) scan.data).map (behindBase scan.base)

theorem idle_evaluate (still : scan.passed = false)
    (idle : scan.pending = none) (unskipped : scan.skipNextColon = false)
    (regular : ∀ token ∈ tokensFrom false none (region :: rest),
      token.regular = true) (behind : Evaluates expand rest) :
    (scanRegions expand (region :: rest) scan).map Scan.total =
      (evaluate expand (tokensFrom false none (region :: rest))
        scan.data).map (behindBase scan.base) := by
  by_cases plain : region.isName = true ∨ region.shown = false ∨ isMarker region.byte = false
  · obtain ⟨ends, step⟩ := scanRegion_idle expand rest still idle unskipped plain
    rw [tokensFrom_plain plain] at regular ⊢
    rw [scanRegions, step]
    apply keep_evaluate still idle unskipped
    intro next still idle unskipped
    exact behind next (.idle still idle unskipped) fun token isIn =>
      regular token (List.mem_cons_of_mem _ isIn)
  · simp only [not_or, Bool.not_eq_true, Bool.not_eq_false] at plain
    obtain ⟨notName, shown, marker⟩ := plain
    by_cases cast : region.isCast (rest.head?.map Region.byte) = true
    · rw [tokensFrom_cast cast] at regular ⊢
      have colons : region.byte = Byte.colon ∧ rest.head?.map Region.byte = some Byte.colon := by
        simpa [Region.isCast, shown] using cast
      have step : scanRegion expand region (rest.head?.map Region.byte) scan =
            some { scan.keep region.byte with passed := true } := by
        simp only [scanRegion, still, Bool.false_eq_true, if_false, shown,
          if_true, scanShown, colons, and_self, idle]
      cases rest with
      | nil => cases colons.2
      | cons second more =>
        have continued := behind
          { scan.keep region.byte with passed := true }
          (.passed rfl (Scan.keep_pending_of_none idle region.byte)
            (by simp [Scan.keep, idle, unskipped]))
          fun token isIn => regular token (List.mem_cons_of_mem _ isIn)
        rw [scanRegions, step, Option.bind_some, continued, evaluate_byte, ← Scan.keep_base idle]
        simp [Scan.keep, idle, Scan.base]
    · have noCast : region.isCast (rest.head?.map Region.byte) = false := by
        simpa using cast
      rw [tokensFrom_marker noCast shown marker] at regular ⊢
      have noColons : ¬ (region.byte = Byte.colon ∧
          rest.head?.map Region.byte = some Byte.colon) := by
        intro colons
        apply cast
        simp [Region.isCast, shown, colons]
      have step : scanRegion expand region (rest.head?.map Region.byte) scan = some { scan with
              skipNextColon := false
              pending := some [region.byte] } := by
        simp only [scanRegion, still, Bool.false_eq_true, if_false, shown,
          if_true, scanShown, noColons, unskipped, false_and, marker, idle]
      rw [scanRegions, step, Option.bind_some]
      exact behind _ (.inName still rfl rfl fun named => absurd rfl named) regular

theorem second_evaluate (idle : scan.pending = none)
    (step : scanRegion expand region (rest.head?.map Region.byte) scan = some { scan with
        passed := false
        skipNextColon := false
        held := scan.held ++ [region.byte] })
    (regular : ∀ token ∈ tokensFrom true none (region :: rest),
      token.regular = true) (behind : Evaluates expand rest) :
    (scanRegions expand (region :: rest) scan).map Scan.total =
      (evaluate expand (tokensFrom true none (region :: rest))
        scan.data).map (behindBase scan.base) := by
  rw [tokensFrom] at regular ⊢
  have continued := behind
    { scan with
      passed := false
      skipNextColon := false
      held := scan.held ++ [region.byte] }
    (.idle rfl idle rfl)
    fun token isIn => regular token (List.mem_cons_of_mem _ isIn)
  rw [scanRegions, step, Option.bind_some, continued, evaluate_byte]
  simp [Scan.base]

theorem inName_evaluate (still : scan.passed = false)
    (pending : scan.pending = some (marker :: name))
    (unskipped : scan.skipNextColon = false) (isName : region.isName = true)
    (regular : ∀ token ∈ tokensFrom false (some (marker :: name)) (region :: rest),
        token.regular = true) (behind : Evaluates expand rest) :
    (scanRegions expand (region :: rest) scan).map Scan.total = (evaluate expand
        (tokensFrom false (some (marker :: name)) (region :: rest))
        scan.data).map (behindBase scan.base) := by
  have facts : region.shown = true ∧ isSpecSymbol region.byte = false := by
    simpa [Region.isName] using isName
  obtain ⟨shown, notSpecial⟩ := facts
  rw [tokensFrom, if_pos isName, List.cons_append] at regular ⊢
  rw [scanRegions, scanRegion_unmarked expand _ still shown (Region.isName_unmarked isName),
    Scan.unskip unskipped, paramEndCheck, pending, notSpecial]
  cases rest with
  | nil =>
    have short : (name ++ [region.byte]).length < maxParamName := by
      have isRegular := regular (.mark marker (name ++ [region.byte]) []) List.mem_cons_self
      simpa [Token.regular, singleCast] using isRegular
    simp only [List.head?_nil, Option.map_none, Option.isNone_none, if_true,
      Bool.false_eq_true, if_false, List.cons_append, Option.bind_map]
    apply finishParameter_evaluate scan short rfl
    intro next idle _ _
    have flushed : next.flush.total = (next.base, next.data) := by
      rw [Scan.total_of_idle, Scan.flush_base]
      · rfl
      · exact idle
    simp only [Function.comp_apply, scanRegions, Option.map_some, flushed,
      evaluate, behindBase, List.append_nil]
  | cons second more =>
    have continued := behind (scan.keep region.byte) (.inName (by rw [scan.keep_passed, still])
        (by simp [Scan.keep, pending])
        (by simp [Scan.keep, pending, unskipped])
        fun _ => List.cons_ne_nil second more) regular
    simp only [List.head?_cons, Option.map_some, Option.isNone_some,
      Bool.false_eq_true, if_false, Option.bind_some]
    rw [continued]
    simp [Scan.keep, pending, Scan.base]

theorem cast_evaluate (still : scan.passed = false) (pending : scan.pending = some (marker :: name))
    (short : name.length < maxParamName) (shown : region.shown = true)
    (cast : region.isCast (rest.head?.map Region.byte) = true)
    (single : singleCast (region :: rest) = true)
    (regular : ∀ token ∈ .mark marker name (region :: rest) ::
      tokensFrom false none (region :: rest), token.regular = true)
    (behind : Evaluates expand rest) :
    (scanRegions expand (region :: rest) scan).map Scan.total =
      (evaluate expand (.mark marker name (region :: rest) ::
        tokensFrom false none (region :: rest)) scan.data).map (behindBase scan.base) := by
  have colons : region.byte = Byte.colon ∧ rest.head?.map Region.byte = some Byte.colon := by
    simpa [Region.isCast, shown] using cast
  obtain ⟨isColon, nextColon⟩ := colons
  rw [tokensFrom_cast cast] at regular ⊢
  cases rest with
  | nil => cases nextColon
  | cons second more =>
    have secondShown : second.shown = true ∧ more.head?.map Region.byte ≠ some Byte.colon := by
      have isCast : region.isCast (some second.byte) = true := cast
      simpa [singleCast, isCast, -Option.map_eq_some_iff] using single
    have secondColon : second.byte = Byte.colon := Option.some.inj nextColon
    have special : isSpecSymbol region.byte = true := by
      rw [isColon]
      decide
    have step : scanRegion expand region (some second.byte) scan =
        (finishParameter expand { scan with skipNextColon := true }
          (marker :: name)).map fun next => next.keep region.byte := by
      simp only [scanRegion, still, Bool.false_eq_true, if_false, shown,
        if_true, scanShown, isColon, secondColon, and_self, pending,
        paramEndCheck, Option.isNone_some]
      rw [← isColon, special, if_pos rfl]
    rw [scanRegions, List.head?_cons, Option.map_some, step, Option.bind_map]
    refine finishParameter_evaluate { scan with skipNextColon := true } short ?_ ?_
    · have isCast : region.isCast (some second.byte) = true := cast
      simp [concats, isCast]
    · intro next idle samePassed sameSkip
      have keptSkip : (next.keep region.byte).skipNextColon = true := by
        simp [Scan.keep, idle, sameSkip]
      have continued := behind (next.keep region.byte)
        (.skipping (by rw [next.keep_passed, samePassed, still])
          (Scan.keep_pending_of_none idle region.byte) keptSkip
          secondShown.1 secondColon secondShown.2)
        fun token isIn => regular token (List.mem_cons_of_mem _ (List.mem_cons_of_mem _ isIn))
      rw [Function.comp_apply, continued, evaluate_byte, Scan.keep_base idle]
      simp [Scan.keep, idle]

theorem name_evaluate (still : scan.passed = false) (pending : scan.pending = some (marker :: name))
    (unskipped : scan.skipNextColon = false) (regular : ∀ token ∈
      tokensFrom false (some (marker :: name)) (region :: rest),
        token.regular = true) (behind : Evaluates expand rest) :
    (scanRegions expand (region :: rest) scan).map Scan.total = (evaluate expand
        (tokensFrom false (some (marker :: name)) (region :: rest))
        scan.data).map (behindBase scan.base) := by
  by_cases isName : region.isName = true
  · exact inName_evaluate still pending unskipped isName regular behind
  · rw [tokensFrom_close (by simpa using isName), closeToken, List.singleton_append] at regular ⊢
    have isRegular := regular (.mark marker name (region :: rest)) List.mem_cons_self
    simp only [Token.regular, List.head?_cons, Option.all_some,
      Bool.and_eq_true, decide_eq_true_eq] at isRegular
    obtain ⟨⟨short, shown, -⟩, single⟩ := isRegular
    have special : isSpecSymbol region.byte = true := by
      simpa [Region.isName, shown] using isName
    by_cases cast : region.isCast (rest.head?.map Region.byte) = true
    · exact cast_evaluate still pending short shown cast single regular behind
    have noCast : region.isCast (rest.head?.map Region.byte) = false := by
      simpa using cast
    by_cases marked : isMarker region.byte = true
    · have noColons : ¬ (region.byte = Byte.colon ∧
          rest.head?.map Region.byte = some Byte.colon) := by
        intro colons
        apply cast
        simp [Region.isCast, shown, colons]
      rw [scanRegions, scanRegion, still, if_neg Bool.false_ne_true, shown,
        if_pos rfl, scanShown, if_neg noColons, unskipped,
        if_neg fun skips => Bool.false_ne_true skips.1, if_pos marked,
        pending]
      simp [evaluate, concats, shown, marked, noCast]
    · have unmarked : isMarker region.byte = false := by
        simpa using marked
      rw [tokensFrom_plain (.inr (.inr unmarked))] at regular ⊢
      rw [scanRegions, scanRegion_unmarked expand _ still shown unmarked,
        Scan.unskip unskipped, paramEndCheck, pending, special]
      simp only [if_true, Option.bind_map]
      apply finishParameter_evaluate scan short
      · simp [concats, unmarked]
      · intro next idle samePassed sameSkip
        apply keep_evaluate (samePassed.trans still) idle (sameSkip.trans unskipped)
        intro next still idle unskipped
        exact behind next (.idle still idle unskipped) fun token isIn =>
          regular token (List.mem_cons_of_mem _ (List.mem_cons_of_mem _ isIn))

theorem scanRegions_evaluate {second : Bool} {started : Option Bytes}
    (inStep : InStep second started rest scan)
    (regular : ∀ token ∈ tokensFrom second started rest, token.regular = true) :
    (scanRegions expand rest scan).map Scan.total =
      (evaluate expand (tokensFrom second started rest) scan.data).map (behindBase scan.base) := by
  induction rest generalizing second started scan with
  | nil =>
    cases inStep with
    | idle still idle unskipped =>
      simp [scanRegions, tokensFrom, closeToken, evaluate, behindBase, Scan.total_of_idle idle]
    | @inName _ _ marker name still pending unskipped more =>
      have unnamed : name = [] := by
        by_contra named
        exact more named rfl
      simp [scanRegions, tokensFrom, closeToken, evaluate, concats,
        unnamed, behindBase, Scan.total, Scan.base, Scan.waiting,
        pending]
  | cons region rest ih =>
    cases inStep with
    | idle still idle unskipped =>
      exact idle_evaluate still idle unskipped regular fun _ inStep regular => ih inStep regular
    | passed passed idle unskipped =>
      apply second_evaluate idle _ regular fun _ inStep regular => ih inStep regular
      simp [scanRegion, passed, Scan.keep, idle, unskipped]
    | skipping still idle skips shown isColon single =>
      apply second_evaluate idle _ regular fun _ inStep regular => ih inStep regular
      simp [scanRegion, still, shown, scanShown, isColon, single, skips, Scan.keep, idle]
    | @inName _ _ marker name still pending unskipped more =>
      exact name_evaluate still pending unskipped regular fun _ inStep regular => ih inStep regular

/-! ## Whole queries -/

theorem scanFrom_initial (query : Bytes) (data : Data) :
    scanFrom expand none query ⟨.initial, false⟩ (.initial data) =
      scanRegions expand (regions query) (.initial data) := by
  apply scanFrom_eq
  intro passed
  cases passed

/-- Without what is lost at its end, a regular query becomes what its tokens
expand to. -/
theorem scanRegions_tokens {query : List Region} (regular : Regular query) (data : Data) :
    (scanRegions expand query (.initial data)).map Scan.total =
      evaluate expand (tokens query) data := by
  have inStep : InStep false none query (.initial data : Scan Scalar Data) := .idle rfl rfl rfl
  rw [scanRegions_evaluate inStep regular]
  exact Option.map_id_apply

/-- Nothing is held back at the end of a query that ends outside literals and
comments and not with a marker. -/
theorem scanRegions_waiting {query : Bytes} {data : Data} {final : Scan Scalar Data}
    (scanned : scanRegions expand (regions query) (.initial data) =
      some final) : final.waiting = [] ↔ EndsShown query := by
  cases query with
  | nil =>
    cases scanned
    simp [EndsShown, Scan.waiting, Scan.initial]
  | cons byte rest =>
    rw [scanRegions_end (fun passed => by cases passed) (by simp [regions, regionsFrom]) scanned]
    simp [EndsShown]

end Scanner

section Parse

variable (formats : Formats Scalar) (processor : Processor Scalar Data)
  (params : List (MField Scalar)) (data : Data)

/-- The result represents the whole query exactly if the query ends outside
literals and comments and not with a marker. -/
theorem parseSqlParameters_source {query : Bytes} {emitted : List (Emission Scalar)} {final : Data}
    (parsed : parseSqlParameters formats processor params data query = some (emitted, final)) :
    emitted.flatMap Emission.source = query ↔ EndsShown query := by
  obtain ⟨scan, scanned, same⟩ := Option.map_eq_some_iff.mp parsed
  cases same
  rw [scanFrom_initial] at scanned
  have covers := scanRegions_covered scanned
  rw [regions, regionsFrom_bytes] at covers
  have split : scan.emitted.flatMap Emission.source ++ scan.waiting =
      query := by
    rw [Scan.waiting, ← List.append_assoc]
    exact covers
  rw [← scanRegions_waiting scanned]
  constructor
  · intro whole
    rw [whole] at split
    simpa using split
  · intro nothing
    rw [nothing, List.append_nil] at split
    exact split

theorem parseSqlParameters_tokens {query : Bytes} (ends : EndsShown query)
    (regular : Regular (regions query)) :
    parseSqlParameters formats processor params data query =
      evaluate (expandParameter formats processor params) (tokens (regions query)) data := by
  rw [parseSqlParameters, scanFrom_initial, ← scanRegions_tokens regular]
  cases scanned : scanRegions (expandParameter formats processor params)
      (regions query) (.initial data) with
  | none => rfl
  | some final =>
    have nothing := (scanRegions_waiting scanned).mpr ends
    simp [Scan.total, nothing]

end Parse

end CWebFramework.Database
