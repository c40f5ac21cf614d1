import CWebFramework.Ratelimiter.Limiter
import CWebFramework.Transition.Runs

/-!
# The cleanup among other threads

`cleanup_old_buckets` with the single reads of its two passes, while other
threads read the clock, store it as the last access of a bucket and make new
buckets.  New buckets need the write lock, which the cleanup has during its
passes; the last access of a bucket can be stored at any time.
-/

namespace CWebFramework.Ratelimiter

/-! ## The system -/

/-- Where the cleanup stands; `now` is the time it has read.  `left` are the
addresses that a pass has not visited, and `slots` the elements of
`ips_to_delete` that have not been erased; an element that has not been
written is `none`. -/
inductive Stage where
  | outside
  | started (now : Nat)
  | waiting (now : Nat)
  | counting (now : Nat) (left : List Nat) (count : Nat)
  | collecting (now : Nat) (left : List Nat) (count : Nat) (stored : List Nat)
  | erasing (now : Nat) (slots : List (Option Nat))
  deriving DecidableEq

/-- What the threads share.  `ips` are the addresses of the map in its order,
and `pending` the time that a thread has read for a bucket and not yet
stored. -/
structure Shared where
  intervalNs : Nat
  clock : Nat
  lastCleanupNs : Nat
  ips : List Nat
  lastAccessNs : Nat → Nat
  pending : Nat → Option Nat
  stage : Stage

def Shared.init (config : Config) (clock : Nat) : Shared where
  intervalNs := config.cleanupIntervalNs
  clock := clock
  lastCleanupNs := clock
  ips := []
  lastAccessNs _ := 0
  pending _ := none
  stage := .outside

inductive Event where
  /-- The clock goes on. -/
  | tick (clock : Nat)
  /-- `ratelimiter_allow` reads the clock for a bucket. -/
  | read (ip : Nat)
  /-- `ratelimiter_allow` stores what it has read. -/
  | store (ip : Nat)
  /-- `find_or_create_bucket` inserts a bucket with a time read before. -/
  | create (ip time : Nat)
  /-- The cleanup goes on.  `allocated` is the success of `malloc`, and
  `garbage` what an element holds that has not been written. -/
  | cleanup (allocated : Bool) (garbage : Nat)
  deriving DecidableEq

/-- The write lock is free. -/
def Stage.unlocked : Stage → Bool
  | .outside | .started _ | .waiting _ => true
  | _ => false

/-- The comparison of both passes. -/
def Shared.isOld (shared : Shared) (now ip : Nat) : Bool :=
  decide (shared.intervalNs < elapsed now (shared.lastAccessNs ip))

/-- The loop over `to_delete_count` elements finds what was stored and what
was not written. -/
def slotsOf (count : Nat) (stored : List Nat) : List (Option Nat) :=
  (stored.take count).map some ++ List.replicate (count - stored.length) none

/-- The next step of `cleanup_old_buckets`. -/
def Shared.cleanup (shared : Shared) (allocated : Bool) (garbage : Nat) :
    Shared :=
  match shared.stage with
  | .outside => { shared with stage := .started shared.clock }
  | .started now =>
    if elapsed now shared.lastCleanupNs < shared.intervalNs then
      { shared with stage := .outside }
    else { shared with lastCleanupNs := now, stage := .waiting now }
  | .waiting now => { shared with stage := .counting now shared.ips 0 }
  | .counting now (ip :: left) count =>
    let counted := if shared.isOld now ip then count + 1 else count
    { shared with stage := .counting now left counted }
  | .counting now [] count =>
    if 0 < count ∧ allocated then
      { shared with stage := .collecting now shared.ips count [] }
    else { shared with stage := .outside }
  | .collecting now (ip :: left) count stored =>
    let more := if shared.isOld now ip then stored ++ [ip] else stored
    { shared with stage := .collecting now left count more }
  | .collecting now [] count stored =>
    { shared with stage := .erasing now (slotsOf count stored) }
  | .erasing now (slot :: slots) =>
    { shared with
      ips := shared.ips.erase (slot.getD garbage)
      stage := .erasing now slots }
  | .erasing _ [] => { shared with stage := .outside }

/-- A thread stores the time it has read as the last access of a bucket. -/
def Shared.touch (shared : Shared) (ip time : Nat) : Shared :=
  { shared with
    lastAccessNs := Function.update shared.lastAccessNs ip time
    pending := Function.update shared.pending ip none }

def sharedSystem : Transition.System Shared Event where
  perform shared event :=
    match event with
    | .tick clock =>
      if shared.clock ≤ clock ∧ clock < 2 ^ 64 then
        some { shared with clock := clock }
      else none
    | .read ip =>
      if ip ∈ shared.ips then
        some { shared with
          pending := Function.update shared.pending ip (some shared.clock) }
      else none
    | .store ip =>
      if ip ∈ shared.ips then
        (shared.pending ip).map fun time => shared.touch ip time
      else none
    | .create ip time =>
      if ip ∉ shared.ips ∧ time ≤ shared.clock ∧ shared.stage.unlocked then
        some { shared.touch ip time with ips := ip :: shared.ips }
      else none
    | .cleanup allocated garbage => some (shared.cleanup allocated garbage)

/-! ## What a cleanup may do -/

/-- No address is stored behind the end of `ips_to_delete`, and no bucket is
erased that was used within the interval. -/
def isProper (shared : Shared) : Event → Bool
  | .cleanup _ garbage =>
    match shared.stage with
    | .collecting now (ip :: _) count stored =>
      decide (shared.isOld now ip → stored.length < count)
    | .erasing now (slot :: _) =>
      decide (slot.getD garbage ∈ shared.ips →
        shared.lastAccessNs (slot.getD garbage) + shared.intervalNs < now)
    | _ => true
  | _ => true

def Proper (shared : Shared) (event : Event) : Prop := isProper shared event = true

instance (shared : Shared) (event : Event) : Decidable (Proper shared event) :=
  inferInstanceAs (Decidable (_ = _))

/-- A time that can take the place of a last access between two reads of it:
it is not later than the time of the cleanup, and both lie on the same side of
the interval. -/
def Shared.Agrees (shared : Shared) (now ip time : Nat) : Prop :=
  time ≤ now ∧ (time + shared.intervalNs < now ↔ shared.lastAccessNs ip + shared.intervalNs < now)

instance (shared : Shared) (now ip time : Nat) : Decidable (shared.Agrees now ip time) :=
  inferInstanceAs (Decidable (_ ∧ _))

/-- The times that can be stored for a bucket while the cleanup stands
somewhere.  Before a bucket has been counted the time must not be later than
that of the cleanup.  From then on until it has been passed over or erased the
bucket must also stay on its side of the interval. -/
def Stage.Admits (shared : Shared) (ip time : Nat) : Stage → Prop
  | .outside => True
  | .started now =>
    shared.intervalNs ≤ elapsed now shared.lastCleanupNs → time ≤ now
  | .waiting now => time ≤ now
  | .counting now left _ =>
    time ≤ now ∧ (ip ∉ left → shared.Agrees now ip time)
  | .collecting now left _ stored =>
    ip ∈ left ∨ ip ∈ stored → shared.Agrees now ip time
  | .erasing now slots => some ip ∈ slots → shared.Agrees now ip time

instance (shared : Shared) (ip time : Nat) (stage : Stage) :
    Decidable (stage.Admits shared ip time) :=
  match stage with
  | .outside => isTrue trivial
  | .started _ => inferInstanceAs (Decidable (_ → _))
  | .waiting now => inferInstanceAs (Decidable (time ≤ now))
  | .counting .. => inferInstanceAs (Decidable (_ ∧ (_ → _)))
  | .collecting .. => inferInstanceAs (Decidable (_ ∨ _ → _))
  | .erasing .. => inferInstanceAs (Decidable (_ → _))

def Quiet (shared : Shared) : Event → Prop
  | .store ip =>
    ∀ time ∈ shared.pending ip, shared.stage.Admits shared ip time
  | .create ip time => shared.stage.Admits shared ip time
  | _ => True

instance (shared : Shared) (event : Event) : Decidable (Quiet shared event) :=
  match event with
  | .store ip =>
    inferInstanceAs (Decidable (∀ time ∈ shared.pending ip, shared.stage.Admits shared ip time))
  | .create ip time =>
    inferInstanceAs (Decidable (shared.stage.Admits shared ip time))
  | .tick _ | .read _ | .cleanup .. => isTrue trivial

/-! ## The passes -/

/-- What holds of the buckets that the passes have visited and of those that
they will visit. -/
def Stage.Kept (shared : Shared) : Stage → Prop
  | .outside => True
  | .started now =>
    now ≤ shared.clock ∧ (shared.intervalNs ≤ elapsed now shared.lastCleanupNs →
        ∀ ip ∈ shared.ips, shared.lastAccessNs ip ≤ now)
  | .waiting now =>
    now ≤ shared.clock ∧ ∀ ip ∈ shared.ips, shared.lastAccessNs ip ≤ now
  | .counting now left count =>
    now ≤ shared.clock ∧ (∀ ip ∈ shared.ips, shared.lastAccessNs ip ≤ now) ∧
      ∃ seen, shared.ips = seen ++ left ∧ count = (seen.filter (shared.isOld now)).length
  | .collecting now left count stored =>
    now ≤ shared.clock ∧ (∀ ip ∈ left, shared.lastAccessNs ip ≤ now) ∧
      (∀ ip ∈ stored, shared.lastAccessNs ip + shared.intervalNs < now) ∧
      count = stored.length + (left.filter (shared.isOld now)).length
  | .erasing now slots =>
    now ≤ shared.clock ∧ ∃ chosen : List Nat, slots = chosen.map some ∧
      ∀ ip ∈ chosen, shared.lastAccessNs ip + shared.intervalNs < now

/-- The times that have been read are not later than the clock. -/
structure Shared.Kept (shared : Shared) : Prop where
  fits : shared.clock < 2 ^ 64
  distinct : shared.ips.Nodup
  accessed : ∀ ip ∈ shared.ips, shared.lastAccessNs ip ≤ shared.clock
  pending : ∀ ip, ∀ time ∈ shared.pending ip, time ≤ shared.clock
  stage : shared.stage.Kept shared

theorem slotsOf_self (stored : List Nat) : slotsOf stored.length stored = stored.map some := by
  rw [slotsOf, List.take_length, Nat.sub_self, List.replicate_zero, List.append_nil]

private theorem filter_concat (isOld : Nat → Bool) (seen : List Nat) (ip : Nat) :
    (seen ++ [ip]).filter isOld =
      if isOld ip then seen.filter isOld ++ [ip] else seen.filter isOld := by
  rw [List.filter_append, List.filter_singleton]
  cases isOld ip <;> simp

variable {shared : Shared}

/-- The unsigned difference is the age of a bucket that was not used later. -/
theorem isOld_iff {now ip : Nat} (fits : now < 2 ^ 64) (earlier : shared.lastAccessNs ip ≤ now) :
    shared.isOld now ip = true ↔ shared.lastAccessNs ip + shared.intervalNs < now := by
  rw [Shared.isOld, decide_eq_true_iff, elapsed]
  omega

theorem Shared.Kept.proper (kept : shared.Kept) (event : Event) :
    Proper shared event := by
  have stage := kept.stage
  unfold Proper
  cases event with
  | cleanup allocated garbage =>
    rw [isProper]
    split
    next now ip left count stored isStage =>
      rw [isStage] at stage
      obtain ⟨-, -, -, isCount⟩ := stage
      rw [decide_eq_true_iff]
      intro isOld
      rw [isCount, List.filter_cons_of_pos isOld, List.length_cons]
      omega
    next now slot slots isStage =>
      rw [isStage] at stage
      obtain ⟨-, chosen, isSlots, areOld⟩ := stage
      rw [decide_eq_true_iff]
      intro _
      cases chosen with
      | nil => cases isSlots
      | cons first rest =>
        obtain ⟨rfl, -⟩ := List.cons.inj isSlots
        exact areOld first (List.mem_cons_self ..)
    next => rfl
  | _ => rfl

/-- The second pass stores what the first has counted. -/
theorem Stage.Kept.collect {now ip count : Nat} {left stored : List Nat}
    (kept : (Stage.collecting now (ip :: left) count stored).Kept shared)
    (fits : shared.clock < 2 ^ 64) :
    (Stage.collecting now left count (if shared.isOld now ip then stored ++ [ip] else stored)).Kept
        shared := by
  obtain ⟨past, earlier, areOld, isCount⟩ := kept
  obtain ⟨first, others⟩ := List.forall_mem_cons.mp earlier
  have side := isOld_iff (past.trans_lt fits) first
  refine ⟨past, others, ?_⟩
  split
  next isOld =>
    rw [List.filter_cons_of_pos isOld, List.length_cons] at isCount
    refine ⟨?_, ?_⟩
    · exact List.forall_mem_append.mpr ⟨areOld, List.forall_mem_singleton.mpr (side.mp isOld)⟩
    · rw [isCount, List.length_append, List.length_singleton]
      omega
  next isNew =>
    rw [List.filter_cons_of_neg isNew] at isCount
    exact ⟨areOld, isCount⟩

theorem Shared.Kept.cleanup (kept : shared.Kept) (allocated : Bool)
    (garbage : Nat) : (shared.cleanup allocated garbage).Kept := by
  have stage := kept.stage
  -- every step but the erasing ones changes the stage only
  have restage : ∀ next : Stage, next.Kept { shared with stage := next } →
      ({ shared with stage := next } : Shared).Kept :=
    fun next isNext =>
      ⟨kept.fits, kept.distinct, kept.accessed, kept.pending, isNext⟩
  rw [Shared.cleanup]
  split <;> rename_i isStage <;> rw [isStage] at stage
  · exact restage _ ⟨Nat.le_refl _, fun _ => kept.accessed⟩
  · split
    · exact restage _ trivial
    next goesOn =>
      exact ⟨kept.fits, kept.distinct, kept.accessed, kept.pending, stage.1,
        stage.2 (Nat.not_lt.mp goesOn)⟩
  · exact restage _ ⟨stage.1, stage.2, [], rfl, rfl⟩
  · obtain ⟨past, earlier, seen, all, isCount⟩ := stage
    refine restage _ ⟨past, earlier, seen ++ [_], by simpa using all, ?_⟩
    refine Eq.trans ?_ (congrArg List.length (filter_concat (shared.isOld _) seen _)).symm
    rw [isCount, apply_ite List.length, List.length_append]
    rfl
  · split
    · obtain ⟨past, earlier, seen, all, isCount⟩ := stage
      rw [List.append_nil] at all
      refine restage _ ⟨past, earlier, List.forall_mem_nil _, ?_⟩
      rw [List.length_nil, Nat.zero_add, isCount, all]
      rfl
    · exact restage _ trivial
  · exact restage _ (stage.collect kept.fits)
  · obtain ⟨past, -, areOld, isCount⟩ := stage
    rw [List.filter_nil, List.length_nil, Nat.add_zero] at isCount
    rw [isCount, slotsOf_self]
    exact restage (.erasing _ _) ⟨past, _, rfl, areOld⟩
  · obtain ⟨past, chosen, isSlots, areOld⟩ := stage
    cases chosen with
    | nil => cases isSlots
    | cons first rest =>
      obtain ⟨-, isRest⟩ := List.cons.inj isSlots
      exact ⟨kept.fits, kept.distinct.erase _,
        fun ip isIn => kept.accessed ip (List.mem_of_mem_erase isIn),
        kept.pending, past, rest, isRest,
        fun ip isIn => areOld ip (List.mem_cons_of_mem _ isIn)⟩
  · exact restage _ trivial

/-- What the stage says stays true when the clock goes on. -/
theorem Stage.Kept.later {stage : Stage} {clock : Nat}
    (kept : stage.Kept shared) (later : shared.clock ≤ clock) :
    stage.Kept { shared with clock := clock } := by
  cases stage with
  | outside => trivial
  | _ => exact ⟨kept.1.trans later, kept.2⟩

/-! ### Stored times -/

variable {ip time : Nat}

theorem touch_lastAccess (other : Nat) : (shared.touch ip time).lastAccessNs other =
      if other = ip then time else shared.lastAccessNs other :=
  Function.update_apply ..

theorem touch_le {bound other : Nat} (stored : other = ip → time ≤ bound)
    (before : other ≠ ip → shared.lastAccessNs other ≤ bound) :
    (shared.touch ip time).lastAccessNs other ≤ bound := by
  rw [touch_lastAccess]
  split
  next same => exact stored same
  next different => exact before different

/-- A bucket for which a time was stored that agrees stays on its side. -/
theorem touch_side {now other : Nat} (agrees : other = ip → shared.Agrees now ip time) :
    (shared.touch ip time).lastAccessNs other + shared.intervalNs < now ↔
      shared.lastAccessNs other + shared.intervalNs < now := by
  rw [touch_lastAccess]
  split
  next same =>
    rw [same]
    exact (agrees same).2
  next => exact Iff.rfl

private theorem touch_isOld {now other : Nat} (fits : now < 2 ^ 64)
    (earlier : shared.lastAccessNs other ≤ now)
    (agrees : other = ip → shared.Agrees now ip time) :
    (shared.touch ip time).isOld now other = shared.isOld now other := by
  have later : (shared.touch ip time).lastAccessNs other ≤ now :=
    touch_le (fun same => (agrees same).1) (fun _ => earlier)
  rw [Bool.eq_iff_iff, isOld_iff fits later, isOld_iff fits earlier]
  exact touch_side agrees

/-- A pass counts the same when the buckets stay on their side. -/
theorem touch_filter {now : Nat} {ips : List Nat} (fits : now < 2 ^ 64)
    (earlier : ∀ other ∈ ips, shared.lastAccessNs other ≤ now)
    (agrees : ip ∈ ips → shared.Agrees now ip time) :
    ips.filter ((shared.touch ip time).isOld now) = ips.filter (shared.isOld now) := by
  apply List.filter_congr
  intro other isIn
  apply touch_isOld fits (earlier other isIn)
  intro same
  exact agrees (same ▸ isIn)

/-- A time that the stage admits can be stored. -/
theorem Stage.Kept.touch {stage : Stage} (kept : stage.Kept shared)
    (fits : shared.clock < 2 ^ 64) (distinct : shared.ips.Nodup)
    (admits : stage.Admits shared ip time) :
    stage.Kept (shared.touch ip time) := by
  cases stage with
  | outside => trivial
  | started now =>
    refine ⟨kept.1, fun goesOn other isIn => ?_⟩
    exact touch_le (fun _ => admits goesOn) (fun _ => kept.2 goesOn other isIn)
  | waiting now =>
    refine ⟨kept.1, fun other isIn => ?_⟩
    exact touch_le (fun _ => admits) (fun _ => kept.2 other isIn)
  | counting now left count =>
    obtain ⟨past, earlier, seen, all, isCount⟩ := kept
    have apart := (List.nodup_append.mp (all ▸ distinct)).2.2
    refine ⟨past, fun other isIn => ?_, seen, all, ?_⟩
    · exact touch_le (fun _ => admits.1) (fun _ => earlier other isIn)
    · rw [isCount, touch_filter (past.trans_lt fits)]
      · intro other isIn
        exact earlier other (all ▸ List.mem_append_left left isIn)
      · intro isIn
        exact admits.2 (fun isLeft => apart ip isIn ip isLeft rfl)
  | collecting now left count stored =>
    obtain ⟨past, earlier, areOld, isCount⟩ := kept
    refine ⟨past, fun other isIn => ?_, fun other isIn => ?_, ?_⟩
    · exact touch_le (fun same => (admits (Or.inl (same ▸ isIn))).1) (fun _ => earlier other isIn)
    · apply (touch_side ?_).mpr (areOld other isIn)
      intro same
      exact admits (Or.inr (same ▸ isIn))
    · rw [isCount, touch_filter (past.trans_lt fits) earlier]
      exact fun isIn => admits (Or.inl isIn)
  | erasing now slots =>
    obtain ⟨past, chosen, isSlots, areOld⟩ := kept
    refine ⟨past, chosen, isSlots, fun other isIn => ?_⟩
    apply (touch_side ?_).mpr (areOld other isIn)
    intro same
    apply admits
    rw [isSlots, ← same]
    exact List.mem_map_of_mem isIn

/-- While the lock is free the stage says nothing about a bucket but that it
was not used later. -/
theorem Stage.Kept.create {stage : Stage} (kept : stage.Kept shared)
    (unlocked : stage.unlocked) (admits : stage.Admits shared ip time) :
    stage.Kept { shared.touch ip time with ips := ip :: shared.ips } := by
  have others : ∀ {other}, other ∈ ip :: shared.ips → other ≠ ip → other ∈ shared.ips :=
    fun isIn different => (List.mem_cons.mp isIn).resolve_left different
  cases stage with
  | outside => trivial
  | started now =>
    refine ⟨kept.1, fun goesOn other isIn => ?_⟩
    exact touch_le (fun _ => admits goesOn)
      (fun different => kept.2 goesOn other (others isIn different))
  | waiting now =>
    refine ⟨kept.1, fun other isIn => ?_⟩
    exact touch_le (fun _ => admits) (fun different => kept.2 other (others isIn different))
  | _ => cases unlocked

theorem Shared.Kept.pending_touch (kept : shared.Kept) (ip time other : Nat) :
    ∀ later ∈ (shared.touch ip time).pending other, later ≤ shared.clock := by
  intro later isPending
  dsimp only [Shared.touch] at isPending
  rw [Function.update_apply] at isPending
  split at isPending
  · cases isPending
  · exact kept.pending other later isPending

/-! ### Steps -/

theorem Shared.Kept.perform (kept : shared.Kept) {event : Event}
    {next : Shared} (quiet : Quiet shared event)
    (performed : sharedSystem.perform shared event = some next) :
    next.Kept := by
  cases event with
  | tick clock =>
    simp only [sharedSystem] at performed
    split at performed
    next ordered =>
      cases performed
      exact ⟨ordered.2, kept.distinct, fun ip isIn => (kept.accessed ip isIn).trans ordered.1,
        fun ip time isIn => (kept.pending ip time isIn).trans ordered.1,
        kept.stage.later ordered.1⟩
    next => cases performed
  | read ip =>
    simp only [sharedSystem] at performed
    split at performed
    next =>
      cases performed
      refine ⟨kept.fits, kept.distinct, kept.accessed, fun other time isPending => ?_, kept.stage⟩
      dsimp only at isPending
      rw [Function.update_apply] at isPending
      split at isPending
      · cases isPending
        exact Nat.le_refl _
      · exact kept.pending other time isPending
    next => cases performed
  | store ip =>
    simp only [sharedSystem] at performed
    split at performed
    next =>
      obtain ⟨time, isPending, rfl⟩ := Option.map_eq_some_iff.mp performed
      have past := kept.pending ip time isPending
      refine ⟨kept.fits, kept.distinct, fun other isIn => ?_, kept.pending_touch ip time, ?_⟩
      · exact touch_le (fun _ => past) (fun _ => kept.accessed other isIn)
      · exact kept.stage.touch kept.fits kept.distinct (quiet time isPending)
    next => cases performed
  | create ip time =>
    simp only [sharedSystem] at performed
    split at performed
    next enabled =>
      cases performed
      obtain ⟨isNew, past, unlocked⟩ := enabled
      refine ⟨kept.fits, List.nodup_cons.mpr ⟨isNew, kept.distinct⟩,
        fun other isIn => ?_, kept.pending_touch ip time, ?_⟩
      · exact touch_le (fun _ => past) (fun different =>
          kept.accessed other ((List.mem_cons.mp isIn).resolve_left different))
      · exact kept.stage.create unlocked quiet
    next => cases performed
  | cleanup allocated garbage =>
    cases performed
    exact kept.cleanup allocated garbage

/-! ## Whole runs -/

theorem Shared.kept_init (config : Config) {clock : Nat}
    (fits : clock < 2 ^ 64) : (Shared.init config clock).Kept :=
  ⟨fits, List.nodup_nil, nofun, nofun, trivial⟩

/-- In every run in which the stored times are admitted the cleanups store no
more addresses than they have allocated and erase only old buckets. -/
theorem cleanup_proper (config : Config) (clock : Nat) (fits : clock < 2 ^ 64) (events : List Event)
    (quiet : sharedSystem.Meets Quiet (Shared.init config clock) events) :
    sharedSystem.Meets Proper (Shared.init config clock) events :=
  sharedSystem.meets_of_invariant (fun isQuiet performed kept =>
      Shared.Kept.perform kept isQuiet performed)
    (fun kept => Shared.Kept.proper kept _) quiet
    (Shared.kept_init config fits)

/-- A cleanup with the given number of steps. -/
def cleanupSteps (steps : Nat) : List Event := List.replicate steps (.cleanup true 0)

/-- A recent bucket can be used between the passes. -/
theorem cleanup_proper_unused : sharedSystem.Meets Proper (Shared.init ⟨1, 1, 1⟩ 0)
      ([.create 7 0, .tick 500000000, .create 8 500000000,
        .tick 1000000001, .read 8] ++ cleanupSteps 6 ++ [.store 8] ++
        cleanupSteps 6) :=
  cleanup_proper ⟨1, 1, 1⟩ 0 (by decide) _ (by decide +kernel)

/-- A bucket that is used behind the clock of the cleanup seems to be older than
the interval: used between the passes it is stored without having been counted,
and used before them it is erased. -/
theorem cleanup_late_access : ¬ sharedSystem.Meets Proper (Shared.init ⟨1, 1, 1⟩ 0)
        ([.create 7 0, .tick 500000000, .create 8 500000000, .tick 1000000001] ++ cleanupSteps 6 ++
          [.tick 1000000002, .read 8, .store 8] ++ cleanupSteps 2) ∧
    ¬ sharedSystem.Meets Proper (Shared.init ⟨1, 1, 1⟩ 0)
        ([.create 8 0, .tick 1000000001] ++ cleanupSteps 1 ++
          [.tick 1000000002, .read 8, .store 8] ++ cleanupSteps 7) := by
  decide +kernel

end CWebFramework.Ratelimiter
