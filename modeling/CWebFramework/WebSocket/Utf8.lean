import CWebFramework.Misc.Bytes
import CWebFramework.Text.Utf8

/-!
# The streaming UTF-8 validator

`ws_utf8.h`.  The validator is fed the payload of a TEXT message chunk by
chunk.  From a state between two scalar values it accepts a byte string, in
any division into chunks, exactly when the string is UTF-8 (`accepts_iff`).
-/

namespace CWebFramework.WebSocket

open Text

structure Utf8Validator where
  /-- Continuation bytes still expected. -/
  needed : Nat
  /-- Continuation bytes of the current sequence. -/
  seqLen : Nat
  minFirst : UInt8
  maxFirst : UInt8
  deriving DecidableEq, Repr

def wsUtf8ValidatorReset : Utf8Validator where
  needed := 0
  seqLen := 0
  minFirst := 0x80
  maxFirst := 0xBF

/-- The state behind the lead byte of a sequence. -/
def sequenceState (needed : Nat) (minFirst maxFirst : UInt8) : Utf8Validator where
  needed := needed
  seqLen := needed
  minFirst := minFirst
  maxFirst := maxFirst

/-- The body of the loop of `ws_utf8_validator_feed`; `none` stands for
`return 0`. -/
def wsUtf8ValidatorByte (validator : Utf8Validator) (byte : UInt8) : Option Utf8Validator :=
  if validator.needed = 0 then
    if byte ≤ 0x7F then some validator
    else if 0xC2 ≤ byte ∧ byte ≤ 0xDF then some (sequenceState 1 0x80 0xBF)
    else if byte = 0xE0 then some (sequenceState 2 0xA0 0xBF)
    else if 0xE1 ≤ byte ∧ byte ≤ 0xEC then some (sequenceState 2 0x80 0xBF)
    else if byte = 0xED then some (sequenceState 2 0x80 0x9F)
    else if byte = 0xEE ∨ byte = 0xEF then some (sequenceState 2 0x80 0xBF)
    else if byte = 0xF0 then some (sequenceState 3 0x90 0xBF)
    else if 0xF1 ≤ byte ∧ byte ≤ 0xF3 then some (sequenceState 3 0x80 0xBF)
    else if byte = 0xF4 then some (sequenceState 3 0x80 0x8F)
    else none
  else
    let isFirst := validator.needed = validator.seqLen
    let lo := if isFirst then validator.minFirst else 0x80
    let hi := if isFirst then validator.maxFirst else 0xBF
    if byte < lo ∨ hi < byte then none
    else
      let needed := validator.needed - 1
      some { validator with
        needed := needed
        seqLen := if needed = 0 then 0 else validator.seqLen }

def wsUtf8ValidatorFeed (validator : Utf8Validator) : Bytes → Option Utf8Validator
  | [] => some validator
  | byte :: rest =>
    match wsUtf8ValidatorByte validator byte with
    | none => none
    | some next => wsUtf8ValidatorFeed next rest

def wsUtf8ValidatorFinish (validator : Utf8Validator) : Bool := validator.needed == 0

/-- The chunks of a message are fed one after the other, up to the first that
is refused. -/
def wsUtf8ValidatorFeedAll (validator : Utf8Validator) : List Bytes → Option Utf8Validator
  | [] => some validator
  | chunk :: rest =>
    match wsUtf8ValidatorFeed validator chunk with
    | none => none
    | some next => wsUtf8ValidatorFeedAll next rest

theorem wsUtf8ValidatorFeed_append (validator : Utf8Validator) (first second : Bytes) :
    wsUtf8ValidatorFeed validator (first ++ second) =
      (wsUtf8ValidatorFeed validator first).bind fun next =>
        wsUtf8ValidatorFeed next second := by
  induction first generalizing validator with
  | nil => rfl
  | cons byte first ih =>
    simp only [List.cons_append, wsUtf8ValidatorFeed]
    cases wsUtf8ValidatorByte validator byte with
    | none => rfl
    | some next => exact ih next

theorem wsUtf8ValidatorFeedAll_eq (validator : Utf8Validator) (chunks : List Bytes) :
    wsUtf8ValidatorFeedAll validator chunks = wsUtf8ValidatorFeed validator chunks.flatten := by
  induction chunks generalizing validator with
  | nil => rfl
  | cons chunk chunks ih =>
    rw [wsUtf8ValidatorFeedAll, List.flatten_cons, wsUtf8ValidatorFeed_append]
    cases wsUtf8ValidatorFeed validator chunk with
    | none => rfl
    | some next => exact ih next

/-- The validator takes the bytes and ends between two scalar values. -/
def Utf8Validator.Accepts (validator : Utf8Validator) (bytes : Bytes) :
    Prop :=
  ∃ reached, wsUtf8ValidatorFeed validator bytes = some reached ∧
    wsUtf8ValidatorFinish reached = true

namespace Utf8Validator

theorem accepts_cons (validator : Utf8Validator) (byte : UInt8) (rest : Bytes) :
    validator.Accepts (byte :: rest) ↔ ∃ next, wsUtf8ValidatorByte validator byte = some next ∧
        next.Accepts rest := by
  simp only [Accepts, wsUtf8ValidatorFeed]
  cases wsUtf8ValidatorByte validator byte with
  | none => simp
  | some next => simp

theorem accepts_nil (validator : Utf8Validator) : validator.Accepts [] ↔ validator.needed = 0 := by
  simp [Accepts, wsUtf8ValidatorFeed, wsUtf8ValidatorFinish]

section Lead

variable {validator : Utf8Validator} (between : validator.needed = 0)
  {byte : UInt8}

include between

theorem byte_ascii (ascii : byte ≤ 0x7F) : wsUtf8ValidatorByte validator byte = some validator := by
  rw [wsUtf8ValidatorByte, if_pos between, if_pos ascii]

theorem byte_lead (count : Nat) (positive : 0 < count) (short : count ≤ 3)
    (lead : Within (leadRange count) byte) :
    wsUtf8ValidatorByte validator byte = some (sequenceState count (secondRange byte).1
        (secondRange byte).2) := by
  have counts : count = 1 ∨ count = 2 ∨ count = 3 := by omega
  have bounds := (within_iff _ _).mp lead
  rw [wsUtf8ValidatorByte, if_pos between]
  simp only [← UInt8.toNat_inj, UInt8.le_iff_toNat_le, UInt8.reduceToNat, secondRange]
  rcases counts with rfl | rfl | rfl <;>
    simp only [leadRange, UInt8.reduceToNat] at bounds
  · simp (disch := omega) only [if_neg, if_pos]
  · by_cases isE0 : byte.toNat = 0xE0
    · simp (disch := omega) only [if_neg, if_pos]
    · by_cases isED : byte.toNat = 0xED
      · simp (disch := omega) only [if_neg, if_pos]
      · by_cases low : byte.toNat ≤ 0xEC
        · simp (disch := omega) only [if_neg, if_pos]
        · simp (disch := omega) only [if_neg, if_pos]
  · by_cases isF0 : byte.toNat = 0xF0
    · simp (disch := omega) only [if_neg, if_pos]
    · by_cases isF4 : byte.toNat = 0xF4
      · simp (disch := omega) only [if_neg, if_pos]
      · simp (disch := omega) only [if_neg, if_pos]

private theorem byte_refused (notAscii : ¬ byte ≤ 0x7F) (noLead : ∀ count, 0 < count → count ≤ 3 →
      ¬ Within (leadRange count) byte) :
    wsUtf8ValidatorByte validator byte = none := by
  have notOne := noLead 1 (by decide) (by decide)
  have notTwo := noLead 2 (by decide) (by decide)
  have notThree := noLead 3 (by decide) (by decide)
  rw [wsUtf8ValidatorByte, if_pos between]
  simp only [leadRange, within_iff, UInt8.reduceToNat, ← UInt8.toNat_inj,
    UInt8.le_iff_toNat_le] at *
  split_ifs <;> first | rfl | omega

end Lead

def nextRange (validator : Utf8Validator) : UInt8 × UInt8 :=
  if validator.needed = validator.seqLen then
    (validator.minFirst, validator.maxFirst)
  else tailRange

def advanced (validator : Utf8Validator) : Utf8Validator :=
  { validator with
    needed := validator.needed - 1
    seqLen := if validator.needed - 1 = 0 then 0 else validator.seqLen }

variable {validator : Utf8Validator}

theorem byte_continuation (inside : validator.needed ≠ 0) (byte : UInt8) :
    wsUtf8ValidatorByte validator byte = some validator.advanced ∧ Within validator.nextRange byte ∨
      wsUtf8ValidatorByte validator byte = none ∧ ¬ Within validator.nextRange byte := by
  rw [wsUtf8ValidatorByte, if_neg inside]
  simp only [nextRange, Within, tailRange, advanced]
  grind

private theorem accepts_continuation (inside : validator.needed ≠ 0) (byte : UInt8) (rest : Bytes) :
    validator.Accepts (byte :: rest) ↔
      Within validator.nextRange byte ∧ validator.advanced.Accepts rest := by
  rw [accepts_cons]
  rcases byte_continuation inside byte with ⟨taken, fits⟩ | ⟨refused, not⟩
  · simp [taken, fits]
  · simp [refused, not]

/-- Between two scalar values only `needed` matters. -/
theorem accepts_between (between : validator.needed = 0) (bytes : Bytes) :
    validator.Accepts bytes ↔ wsUtf8ValidatorReset.Accepts bytes := by
  have resetBetween : wsUtf8ValidatorReset.needed = 0 := rfl
  induction bytes with
  | nil => simp [accepts_nil, between, resetBetween]
  | cons byte rest ih =>
    simp only [accepts_cons]
    by_cases ascii : byte ≤ 0x7F
    · simpa [byte_ascii between ascii, byte_ascii resetBetween ascii] using ih
    · simp only [wsUtf8ValidatorByte, between, resetBetween, ascii, if_true, if_false]

theorem accepts_inside (count : Nat) (validator : Utf8Validator) (owed : validator.needed = count)
    (started : validator.needed ≤ validator.seqLen) (bytes : Bytes) :
    validator.Accepts bytes ↔ ∃ tail rest, bytes = tail ++ rest ∧
        Continues count validator.nextRange tail ∧
          wsUtf8ValidatorReset.Accepts rest := by
  induction count generalizing validator bytes with
  | zero =>
    rw [accepts_between owed]
    simp [Continues]
  | succ count ih =>
    cases bytes with
    | nil =>
      simp only [accepts_nil, owed]
      constructor
      · intro impossible
        omega
      · rintro ⟨tail, rest, split, ⟨byte, behind, rfl, -⟩, -⟩
        simp at split
    | cons byte bytes =>
      have nextOwed : validator.advanced.needed = count := by
        simp [advanced, owed]
      have nextStarted : validator.advanced.needed ≤ validator.advanced.seqLen := by
        simp only [advanced]
        split <;> omega
      rw [accepts_continuation (by omega), ih _ nextOwed nextStarted]
      have laterRange : ∀ tail, Continues count validator.advanced.nextRange tail ↔
            Continues count tailRange tail := by
        intro tail
        cases count with
        | zero => rfl
        | succ count =>
          have later : validator.advanced.nextRange = tailRange := by
            simp only [nextRange, advanced, owed, Nat.add_sub_cancel]
            rw [if_neg (Nat.succ_ne_zero count), if_neg (by omega)]
          rw [later]
      simp only [laterRange]
      constructor
      · rintro ⟨fits, tail, rest, rfl, continues, accepted⟩
        exact ⟨byte :: tail, rest, rfl, ⟨byte, tail, rfl, fits, continues⟩, accepted⟩
      · rintro ⟨_, rest, split, ⟨first, tail, rfl, fits, continues⟩, accepted⟩
        obtain ⟨rfl, rfl⟩ := List.cons.inj split
        exact ⟨fits, tail, rest, rfl, continues, accepted⟩

private theorem accepts_sequence (count : Nat) (range : UInt8 × UInt8) (bytes : Bytes) :
    (sequenceState count range.1 range.2).Accepts bytes ↔
      ∃ tail rest, bytes = tail ++ rest ∧ Continues count range tail ∧
        wsUtf8ValidatorReset.Accepts rest := by
  have first : (sequenceState count range.1 range.2).nextRange = range := by
    simp [nextRange, sequenceState]
  rw [accepts_inside count _ rfl (Nat.le_refl _), first]

theorem accepts_reset_cons (byte : UInt8) (bytes : Bytes) :
    wsUtf8ValidatorReset.Accepts (byte :: bytes) ↔
      ∃ letter rest, byte :: bytes = letter ++ rest ∧ EncodedChar letter ∧
        wsUtf8ValidatorReset.Accepts rest := by
  rw [accepts_cons]
  constructor
  · rintro ⟨next, taken, accepted⟩
    by_cases ascii : byte ≤ 0x7F
    · rw [byte_ascii rfl ascii] at taken
      cases taken
      exact ⟨[byte], bytes, rfl, .ascii ascii, accepted⟩
    by_cases lead : ∃ count, 0 < count ∧ count ≤ 3 ∧ Within (leadRange count) byte
    · obtain ⟨count, positive, short, leadFits⟩ := lead
      rw [byte_lead rfl count positive short leadFits] at taken
      cases taken
      obtain ⟨tail, rest, rfl, continues, acceptedRest⟩ :=
        (accepts_sequence count _ bytes).mp accepted
      exact ⟨byte :: tail, rest, rfl,
        .sequence count positive short leadFits continues, acceptedRest⟩
    · have noLead : ∀ count, 0 < count → count ≤ 3 → ¬ Within (leadRange count) byte :=
        fun count positive short fits => lead ⟨count, positive, short, fits⟩
      rw [byte_refused rfl ascii noLead] at taken
      cases taken
  · rintro ⟨_, rest, split, encoded, accepted⟩
    cases encoded with
    | ascii fits =>
      obtain ⟨rfl, rfl⟩ := List.cons.inj split
      exact ⟨_, byte_ascii rfl fits, accepted⟩
    | sequence count positive short leadFits tailFits =>
      obtain ⟨rfl, rfl⟩ := List.cons.inj split
      exact ⟨_, byte_lead rfl count positive short leadFits,
        (accepts_sequence count _ _).mpr ⟨_, rest, rfl, tailFits, accepted⟩⟩

theorem accepts_iff (between : validator.needed = 0) (bytes : Bytes) :
    validator.Accepts bytes ↔ ValidUtf8 bytes := by
  rw [accepts_between between]
  induction sized : bytes.length using Nat.strongRecOn generalizing bytes with
  | _ size ih =>
    cases bytes with
    | nil => simp [accepts_nil, wsUtf8ValidatorReset]
    | cons byte bytes =>
      have shorter : ∀ letter rest, byte :: bytes = letter ++ rest →
          EncodedChar letter → rest.length < size := by
        intro letter rest split encoded
        have consumed := List.length_pos_of_ne_nil encoded.ne_nil
        rw [split, List.length_append] at sized
        omega
      rw [accepts_reset_cons]
      constructor
      · rintro ⟨letter, rest, split, encoded, accepted⟩
        rw [split]
        exact encoded.append_valid ((ih _ (shorter _ _ split encoded) rest rfl).mp accepted)
      · intro valid
        obtain ⟨letter, rest, split, encoded, restValid⟩ := valid.split (List.cons_ne_nil _ _)
        exact ⟨letter, rest, split, encoded, (ih _ (shorter _ _ split encoded) rest
            rfl).mpr restValid⟩

end Utf8Validator

/-- In every division into chunks, the validator takes exactly the texts in
UTF-8. -/
theorem wsUtf8ValidatorFeedAll_iff (chunks : List Bytes) : (∃ reached,
      wsUtf8ValidatorFeedAll wsUtf8ValidatorReset chunks = some reached ∧
      wsUtf8ValidatorFinish reached = true) ↔ ValidUtf8 chunks.flatten := by
  have whole := Utf8Validator.accepts_iff (rfl : wsUtf8ValidatorReset.needed = 0) chunks.flatten
  rw [Utf8Validator.Accepts, ← wsUtf8ValidatorFeedAll_eq] at whole
  exact whole

namespace Utf8Validator

/-- The bytes that are still expected exist. -/
def Open (validator : Utf8Validator) : Prop :=
  validator.needed ≤ validator.seqLen ∧ validator.minFirst ≤ validator.maxFirst

variable {validator : Utf8Validator}

theorem Open.byte (isOpen : validator.Open) {byte : UInt8} {next : Utf8Validator}
    (taken : wsUtf8ValidatorByte validator byte = some next) : next.Open := by
  by_cases between : validator.needed = 0
  · rw [wsUtf8ValidatorByte, if_pos between] at taken
    split_ifs at taken <;> cases taken
    · exact isOpen
    all_goals exact ⟨Nat.le_refl _, by decide⟩
  · rcases byte_continuation between byte with ⟨isNext, -⟩ | ⟨isNone, -⟩
    · cases isNext.symm.trans taken
      refine ⟨?_, isOpen.2⟩
      have started := isOpen.1
      simp only [advanced]
      split <;> omega
    · cases isNone.symm.trans taken

theorem Open.feed (isOpen : validator.Open) {bytes : Bytes} {reached : Utf8Validator}
    (fed : wsUtf8ValidatorFeed validator bytes = some reached) :
    reached.Open := by
  induction bytes generalizing validator with
  | nil => exact Option.some.inj fed ▸ isOpen
  | cons byte rest ih =>
    rw [wsUtf8ValidatorFeed] at fed
    split at fed
    · cases fed
    · exact ih (isOpen.byte ‹_›) fed

private theorem exists_continues (count : Nat) {range : UInt8 × UInt8}
    (ordered : range.1 ≤ range.2) : ∃ tail, Continues count range tail := by
  induction count generalizing range with
  | zero => exact ⟨[], rfl⟩
  | succ count ih =>
    obtain ⟨tail, continues⟩ := @ih tailRange (by decide)
    exact ⟨_, range.1, tail, rfl, ⟨UInt8.le_refl _, ordered⟩, continues⟩

theorem Open.accepts (isOpen : validator.Open) : ∃ rest, validator.Accepts rest := by
  have ordered : validator.nextRange.1 ≤ validator.nextRange.2 := by
    rw [nextRange]
    split
    · exact isOpen.2
    · decide
  obtain ⟨tail, continues⟩ := exists_continues validator.needed ordered
  refine ⟨tail, (accepts_inside _ _ rfl isOpen.1 _).mpr ⟨tail, [], ?_⟩⟩
  exact ⟨(List.append_nil tail).symm, continues, (accepts_nil _).mpr rfl⟩

end Utf8Validator

/-- In every division into chunks, a chunk is refused exactly when no text in
UTF-8 begins with the bytes up to its end. -/
theorem wsUtf8ValidatorFeedAll_isSome_iff (chunks : List Bytes) :
    (wsUtf8ValidatorFeedAll wsUtf8ValidatorReset chunks).isSome ↔
      ∃ rest, ValidUtf8 (chunks.flatten ++ rest) := by
  simp only [← Utf8Validator.accepts_iff
    (rfl : wsUtf8ValidatorReset.needed = 0), Utf8Validator.Accepts,
    wsUtf8ValidatorFeed_append, wsUtf8ValidatorFeedAll_eq]
  cases fed : wsUtf8ValidatorFeed wsUtf8ValidatorReset chunks.flatten with
  | none => simp
  | some reached =>
    have isOpen : wsUtf8ValidatorReset.Open := ⟨Nat.le_refl _, by decide⟩
    exact iff_of_true rfl (isOpen.feed fed).accepts

end CWebFramework.WebSocket
