import CWebFramework.Database.SqlParameters

/-!
# What the scan keeps

Every byte of a query is at any time either represented in what has been
emitted, or held back, or part of the parameter in progress.  At the end of
the query nothing is held back exactly if the last byte stands outside
literals and comments and is no marker.
-/

namespace CWebFramework.Database

open Model

variable {Scalar Data : Type}

namespace Scan

def covered (scan : Scan Scalar Data) : Bytes :=
  scan.emitted.flatMap Emission.source ++ scan.held ++ scan.pending.getD []

def waiting (scan : Scan Scalar Data) : Bytes := scan.held ++ scan.pending.getD []

theorem flatMap_source_copied (bytes : Bytes) :
    (bytes.map (Emission.copied : UInt8 → Emission Scalar)).flatMap Emission.source = bytes := by
  induction bytes with
  | nil => rfl
  | cons byte rest ih =>
    rw [List.map_cons, List.flatMap_cons, ih]
    rfl

theorem keep_covered (scan : Scan Scalar Data) (byte : UInt8) :
    (scan.keep byte).covered = scan.covered ++ [byte] := by
  unfold keep covered
  cases pending : scan.pending with
  | none => simp
  | some text => simp

private theorem flush_covered (scan : Scan Scalar Data) : scan.flush.covered = scan.covered := by
  simp [flush, covered, flatMap_source_copied]

private theorem keep_waiting (scan : Scan Scalar Data) (byte : UInt8) :
    (scan.keep byte).waiting = scan.waiting ++ [byte] := by
  unfold keep waiting
  cases pending : scan.pending with
  | none => simp
  | some text => simp

theorem keep_waiting_ne_nil (scan : Scan Scalar Data) (byte : UInt8) :
    (scan.keep byte).waiting ≠ [] := by
  rw [keep_waiting]
  exact List.append_ne_nil_of_right_ne_nil _ (List.cons_ne_nil _ _)

theorem keep_pending_of_none {scan : Scan Scalar Data} (idle : scan.pending = none) (byte : UInt8) :
    (scan.keep byte).pending = none := by
  unfold keep
  rw [idle]

private theorem flush_waiting {scan : Scan Scalar Data}
    (idle : scan.pending = none) : scan.flush.waiting = [] := by
  simp [flush, waiting, idle]

end Scan

section Scanner

variable {expand : UInt8 → Bytes → Data → Option (List (Fragment Scalar) × Data)}

/-! ## Coverage -/

variable {scan next : Scan Scalar Data}

theorem finishParameter_spec {text : Bytes}
    (finished : finishParameter expand scan text = some next) :
    next.pending = none ∧
      next.covered = scan.emitted.flatMap Emission.source ++ scan.held ++ text := by
  unfold finishParameter at finished
  split at finished
  · cases finished
    simp [Scan.covered]
  · split at finished
    · obtain ⟨⟨fragments, data⟩, -, same⟩ := Option.map_eq_some_iff.mp finished
      cases same
      simp [Scan.covered, Scan.flatMap_source_copied, Emission.source]
    · cases finished
      simp [Scan.covered]

variable {byte : UInt8} {following : Option UInt8}

theorem paramEndCheck_covered (checked : paramEndCheck expand byte following scan = some next) :
    next.covered = scan.covered ++ [byte] := by
  unfold paramEndCheck at checked
  dsimp only at checked
  split at checked
  · rename_i text isPending
    have before : scan.covered = scan.emitted.flatMap Emission.source ++ scan.held ++ text := by
      rw [Scan.covered, isPending]
      rfl
    split at checked
    · obtain ⟨finished, isFinished, same⟩ := Option.map_eq_some_iff.mp checked
      obtain ⟨-, covers⟩ := finishParameter_spec isFinished
      rw [before, ← covers, ← same]
      split
      · rw [Scan.flush_covered, Scan.keep_covered]
      · rw [Scan.keep_covered]
    · split at checked
      · obtain ⟨finished, isFinished, same⟩ := Option.map_eq_some_iff.mp checked
        obtain ⟨-, covers⟩ := finishParameter_spec isFinished
        rw [← same, Scan.flush_covered, covers, before]
        simp only [List.append_assoc]
      · cases checked
        rw [Scan.keep_covered]
  · cases checked
    split
    · rw [Scan.flush_covered, Scan.keep_covered]
    · rw [Scan.keep_covered]

theorem scanShown_covered (scanned : scanShown expand byte following scan = some next) :
    next.covered = scan.covered ++ [byte] := by
  unfold scanShown at scanned
  split at scanned
  · split at scanned
    · have covers := paramEndCheck_covered scanned
      exact covers
    · cases scanned
      exact Scan.keep_covered scan byte
  · split at scanned
    · cases scanned
      exact Scan.keep_covered scan byte
    · split at scanned
      · split at scanned
        · cases scanned
        · rename_i idle
          cases scanned
          simp [Scan.covered, idle]
      · have covers := paramEndCheck_covered scanned
        exact covers

/-! ## The scan of the regions -/

variable (expand) in
def scanRegion (region : Region) (following : Option UInt8)
    (scan : Scan Scalar Data) : Option (Scan Scalar Data) :=
  if scan.passed then some { scan.keep region.byte with passed := false }
  else if region.shown then scanShown expand region.byte following scan
  else some (scan.keep region.byte)

variable (expand) in
def scanRegions : List Region → Scan Scalar Data → Option (Scan Scalar Data)
  | [], scan => some scan
  | region :: rest, scan =>
    (scanRegion expand region (rest.head?.map Region.byte) scan).bind (scanRegions rest)

private theorem updateSqlParseState_colon {state : SqlParseState}
    (outside : state.skips = false) (previous next : Option UInt8) :
    updateSqlParseState previous Byte.colon next state = ⟨state, false, false⟩ := by
  obtain ⟨inString, quoteChar, inLineComment, inBlockComment⟩ := state
  simp only [SqlParseState.skips, Bool.or_eq_false_iff] at outside
  obtain ⟨⟨rfl, rfl⟩, rfl⟩ := outside
  rfl

variable {lex : LexState}

private theorem lexByte_colon (still : lex.moved = false)
    (outside : lex.state.skips = false) (previous next : Option UInt8) :
    lexByte previous Byte.colon next lex = (lex, true) := by
  obtain ⟨state, moved⟩ := lex
  cases still
  simp only [lexByte, updateSqlParseState_colon outside, Bool.false_eq_true, if_false, outside]
  rfl

theorem lexByte_shown {previous next : Option UInt8}
    (shown : (lexByte previous byte next lex).2 = true) :
    (lexByte previous byte next lex).1.moved = false ∧
      (lexByte previous byte next lex).1.state.skips = false := by
  unfold lexByte at shown ⊢
  split at shown
  · cases shown
  · rename_i still
    rw [if_neg still]
    simp only [Bool.not_eq_true', Bool.or_eq_false_iff] at shown ⊢
    refine ⟨?_, shown.2⟩
    have notReturned := shown.1
    have outside := shown.2
    simp only [SqlParseState.skips, Bool.or_eq_false_iff] at outside
    have outsideString := outside.1.1
    unfold updateSqlParseState updateComment at notReturned outsideString ⊢
    unfold updateQuote at notReturned outsideString ⊢
    grind

private theorem head?_regionsFrom (previous : Option UInt8) (lex : LexState) (query : Bytes) :
    (regionsFrom previous lex query).head?.map Region.byte = query.head? := by
  cases query with
  | nil => rfl
  | cons byte rest => rfl

theorem Scan.keep_passed (scan : Scan Scalar Data) (byte : UInt8) :
    (scan.keep byte).passed = scan.passed := by
  unfold Scan.keep
  cases scan.pending <;> rfl

private theorem finishParameter_passed {text : Bytes}
    (finished : finishParameter expand scan text = some next) :
    next.passed = scan.passed := by
  unfold finishParameter at finished
  split at finished
  · cases finished
    rfl
  · split at finished
    · obtain ⟨result, -, same⟩ := Option.map_eq_some_iff.mp finished
      cases same
      rfl
    · cases finished
      rfl

theorem paramEndCheck_passed (checked : paramEndCheck expand byte following scan = some next) :
    next.passed = scan.passed := by
  have ended : ∀ scan : Scan Scalar Data, (if following.isNone = true then (scan.keep byte).flush
        else scan.keep byte).passed = scan.passed := by
    intro scan
    split <;> exact scan.keep_passed byte
  unfold paramEndCheck at checked
  dsimp only at checked
  split at checked
  · split at checked
    · obtain ⟨finished, isFinished, same⟩ := Option.map_eq_some_iff.mp checked
      rw [← same, ended, finishParameter_passed isFinished]
    · split at checked
      · obtain ⟨finished, isFinished, same⟩ := Option.map_eq_some_iff.mp checked
        have samePassed := finishParameter_passed isFinished
        rw [← same]
        exact samePassed
      · cases checked
        exact scan.keep_passed byte
  · cases checked
    exact ended scan

theorem scanShown_passed (still : scan.passed = false)
    (scanned : scanShown expand byte following scan = some next)
    (passes : next.passed = true) :
    byte = Byte.colon ∧ following = some Byte.colon := by
  unfold scanShown at scanned
  split at scanned
  · assumption
  · exfalso
    have unmoved : next.passed = scan.passed := by
      split at scanned
      · cases scanned
        exact scan.keep_passed byte
      · split at scanned
        · split at scanned
          · cases scanned
          · cases scanned
            rfl
        · have same := paramEndCheck_passed scanned
          exact same
    rw [passes, still] at unmoved
    cases unmoved

theorem scanFrom_eq {previous : Option UInt8} {query : Bytes}
    (ready : scan.passed = true → lex.moved = false ∧
      lex.state.skips = false ∧ query.head? = some Byte.colon) :
    scanFrom expand previous query lex scan =
      scanRegions expand (regionsFrom previous lex query) scan := by
  induction query generalizing previous lex scan with
  | nil => rfl
  | cons byte rest ih =>
    rw [scanFrom, scanByte, regionsFrom, scanRegions, scanRegion, head?_regionsFrom]
    rcases Bool.eq_false_or_eq_true scan.passed with passed | still
    · obtain ⟨unmoved, outside, isColon⟩ := ready passed
      have sameByte : byte = Byte.colon := Option.some.inj isColon
      rw [if_pos passed, if_pos passed, Option.bind_some, Option.bind_some,
        sameByte, lexByte_colon unmoved outside]
      exact ih fun again => absurd again Bool.false_ne_true
    · have notPassed : ¬ scan.passed = true := by
        rw [still]
        exact Bool.false_ne_true
      rw [if_neg notPassed, if_neg notPassed]
      dsimp only
      by_cases shown : (lexByte previous byte rest.head? lex).2 = true
      · rw [if_pos shown, if_pos shown]
        cases scanned : scanShown expand byte rest.head? scan with
        | none => rfl
        | some next =>
          obtain ⟨unmoved, outside⟩ := lexByte_shown shown
          apply ih
          intro passes
          exact ⟨unmoved, outside, (scanShown_passed still scanned passes).2⟩
      · rw [if_neg shown, if_neg shown]
        apply ih
        intro passes
        rw [scan.keep_passed, still] at passes
        cases passes

/-! ## Whole queries -/

theorem scanRegion_covered {region : Region} (scanned : scanRegion expand region following scan =
      some next) : next.covered = scan.covered ++ [region.byte] := by
  unfold scanRegion at scanned
  split at scanned
  · cases scanned
    exact scan.keep_covered region.byte
  · split at scanned
    · exact scanShown_covered scanned
    · cases scanned
      exact scan.keep_covered region.byte

theorem scanRegions_covered {rest : List Region} {last : Scan Scalar Data}
    (scanned : scanRegions expand rest scan = some last) :
    last.covered = scan.covered ++ rest.map Region.byte := by
  induction rest generalizing scan with
  | nil =>
    cases scanned
    exact (List.append_nil _).symm
  | cons region rest ih =>
    obtain ⟨next, stepped, behind⟩ := Option.bind_eq_some_iff.mp scanned
    rw [ih behind, scanRegion_covered stepped,
      List.append_assoc, List.map_cons, List.singleton_append]

theorem paramEndCheck_end (checked : paramEndCheck expand byte none scan = some next) :
    next.waiting = [] := by
  unfold paramEndCheck at checked
  simp only [Option.isNone_none, if_true] at checked
  split at checked
  · split at checked
    · obtain ⟨finished, isFinished, same⟩ := Option.map_eq_some_iff.mp checked
      obtain ⟨idle, -⟩ := finishParameter_spec isFinished
      rw [← same]
      exact Scan.flush_waiting (Scan.keep_pending_of_none idle byte)
    · obtain ⟨finished, isFinished, same⟩ := Option.map_eq_some_iff.mp checked
      obtain ⟨idle, -⟩ := finishParameter_spec isFinished
      rw [← same]
      exact Scan.flush_waiting idle
  · rename_i idle
    cases checked
    exact Scan.flush_waiting (Scan.keep_pending_of_none idle byte)

theorem scanShown_end (scanned : scanShown expand byte none scan = some next) :
    next.waiting = [] ↔ isMarker byte = false := by
  unfold scanShown at scanned
  rw [if_neg (by simp)] at scanned
  split at scanned
  · rename_i skipped
    cases scanned
    have isColon : isMarker byte = true := by
      rw [skipped.2]
      rfl
    simp only [isColon, Bool.true_eq_false, iff_false]
    exact scan.keep_waiting_ne_nil byte
  · split at scanned
    · rename_i marker
      split at scanned
      · cases scanned
      · cases scanned
        simp [Scan.waiting, marker]
    · rename_i notMarker
      simpa [notMarker] using paramEndCheck_end scanned

theorem scanRegions_end {rest : List Region} {final : Scan Scalar Data}
    (ready : scan.passed = true → rest.head?.map Region.byte = some Byte.colon) (filled : rest ≠ [])
    (scanned : scanRegions expand rest scan = some final) :
    final.waiting = [] ↔ ∃ last ∈ rest.getLast?,
      last.shown = true ∧ isMarker last.byte = false := by
  induction rest generalizing scan with
  | nil => exact absurd rfl filled
  | cons region rest ih =>
    obtain ⟨next, stepped, behind⟩ := Option.bind_eq_some_iff.mp scanned
    cases rest with
    | nil =>
      cases behind
      simp only [scanRegion, List.head?_nil, Option.map_none] at stepped
      simp only [List.getLast?_singleton, Option.mem_def, Option.some.injEq, exists_eq_left']
      split at stepped
      · rename_i passed
        cases stepped
        have isColon : isMarker region.byte = true := by
          rw [Option.some.inj (ready passed)]
          rfl
        simp only [isColon, Bool.true_eq_false, and_false, iff_false]
        exact scan.keep_waiting_ne_nil region.byte
      · split at stepped
        · rename_i shown
          rw [scanShown_end stepped]
          simp [shown]
        · rename_i hidden
          cases stepped
          simpa [hidden] using scan.keep_waiting_ne_nil region.byte
    | cons second more =>
      rw [List.getLast?_cons_cons]
      apply ih _ (List.cons_ne_nil second more) behind
      intro passes
      unfold scanRegion at stepped
      split at stepped
      · cases stepped
        cases passes
      · rename_i still
        split at stepped
        · exact (scanShown_passed (by simpa using still) stepped passes).2
        · cases stepped
          rw [scan.keep_passed] at passes
          exact absurd passes still

/-! ## Invariants of the result -/

variable (expand) in
/-- What holds of the result and of the data of the processor while bytes are
copied and parameters are expanded. -/
structure Emits (holds : List (Emission Scalar) → Data → Prop) : Prop where
  copied : ∀ {emitted data} byte, holds emitted data → holds (emitted ++ [.copied byte]) data
  expanded : ∀ {emitted data marker name fragments next},
    holds emitted data → expand marker name data = some (fragments, next) →
      holds (emitted ++ [.expanded marker name fragments]) next

section Invariant

variable {holds : List (Emission Scalar) → Data → Prop} (emits : Emits expand holds)

include emits

theorem Emits.copiedAll {emitted : List (Emission Scalar)} {data : Data}
    (bytes : Bytes) (held : holds emitted data) :
    holds (emitted ++ bytes.map .copied) data := by
  induction bytes generalizing emitted with
  | nil => rwa [List.map_nil, List.append_nil]
  | cons byte rest ih =>
    rw [List.map_cons, ← List.singleton_append, ← List.append_assoc]
    exact ih (emits.copied byte held)

variable {scan next : Scan Scalar Data}

private theorem finishParameter_holds {text : Bytes} (held : holds scan.emitted scan.data)
    (finished : finishParameter expand scan text = some next) :
    holds next.emitted next.data := by
  unfold finishParameter at finished
  split at finished
  · cases finished
    exact held
  · split at finished
    · obtain ⟨result, expanded, same⟩ := Option.map_eq_some_iff.mp finished
      cases same
      exact emits.expanded (emits.copiedAll scan.held held) expanded
    · cases finished
      exact held

theorem ended_holds (byte : UInt8) (ends : Bool) (held : holds scan.emitted scan.data) :
    holds (if ends then (scan.keep byte).flush else scan.keep byte).emitted
      (if ends then (scan.keep byte).flush else scan.keep byte).data := by
  have kept : holds (scan.keep byte).emitted (scan.keep byte).data := by
    unfold Scan.keep
    cases scan.pending <;> exact held
  cases ends with
  | true => exact emits.copiedAll (scan.keep byte).held kept
  | false => exact kept

theorem paramEndCheck_holds {byte : UInt8} {following : Option UInt8}
    (checked : paramEndCheck expand byte following scan = some next)
    (held : holds scan.emitted scan.data) : holds next.emitted next.data := by
  unfold paramEndCheck at checked
  dsimp only at checked
  split at checked
  · split at checked
    · obtain ⟨finished, isFinished, same⟩ := Option.map_eq_some_iff.mp checked
      rw [← same]
      exact ended_holds emits byte _ (finishParameter_holds emits held isFinished)
    · split at checked
      · obtain ⟨finished, isFinished, same⟩ := Option.map_eq_some_iff.mp checked
        rw [← same]
        exact emits.copiedAll finished.held (finishParameter_holds emits held isFinished)
      · cases checked
        exact ended_holds emits byte false held
  · cases checked
    exact ended_holds emits byte _ held

theorem scanRegion_holds {region : Region} {following : Option UInt8}
    (held : holds scan.emitted scan.data)
    (scanned : scanRegion expand region following scan = some next) :
    holds next.emitted next.data := by
  have kept := ended_holds emits region.byte false held
  unfold scanRegion at scanned
  split at scanned
  · cases scanned
    exact kept
  · split at scanned
    · unfold scanShown at scanned
      split at scanned
      · split at scanned
        · exact paramEndCheck_holds emits scanned held
        · cases scanned
          exact kept
      · split at scanned
        · cases scanned
          exact kept
        · split at scanned
          · split at scanned
            · cases scanned
            · cases scanned
              exact held
          · exact paramEndCheck_holds emits scanned held
    · cases scanned
      exact kept

theorem scanRegions_holds {rest : List Region} {final : Scan Scalar Data}
    (held : holds scan.emitted scan.data)
    (scanned : scanRegions expand rest scan = some final) :
    holds final.emitted final.data := by
  induction rest generalizing scan with
  | nil =>
    cases scanned
    exact held
  | cons region rest ih =>
    obtain ⟨next, stepped, behind⟩ := Option.bind_eq_some_iff.mp scanned
    exact ih (scanRegion_holds emits held stepped) behind

end Invariant

end Scanner

/-- The last byte of the query stands outside literals and comments and is no
marker. -/
def EndsShown (query : Bytes) : Prop :=
  query = [] ∨ ∃ last ∈ (regions query).getLast?, last.shown = true ∧ isMarker last.byte = false

instance (query : Bytes) : Decidable (EndsShown query) := inferInstanceAs (Decidable (_ ∨ _))

end CWebFramework.Database
