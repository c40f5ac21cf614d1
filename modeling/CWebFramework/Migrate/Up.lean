import CWebFramework.Misc.Numerals
import CWebFramework.Transition.Runs

/-!
# Migrations

`migrate up` of `apps/migrate/main.c`.  Every query of a run may fail, and a
query that fails changes nothing.  The `up` function of a migration is code of
the application; it is assumed to leave the table of the migrations alone.
-/

namespace CWebFramework.Migrate

open Transition

/-! ## The directory -/

structure Dirent where
  name : Bytes
  dType : Nat
  deriving DecidableEq

structure Directory where
  entries : List Dirent
  distinct : (entries.map Dirent.name).Nodup

/-- `mg_sort_asc`.  The program stays in the "C" locale, in which `strcoll`
compares bytes. -/
def mgSortAsc (first second : Dirent) : Prop := first.name ≤ second.name

instance : DecidableRel mgSortAsc := fun first second =>
  inferInstanceAs (Decidable (first.name ≤ second.name))

/-- `scandir`, which counts the entries with an `int`. -/
def scandir (directory : Directory) : Option (List Dirent) :=
  if directory.entries.length < 2 ^ 31 then
    some (directory.entries.insertionSort mgSortAsc)
  else none

def regFile : Nat := 8

/-! ## The database -/

abbrev Database := Option (List Bytes)

/-- What the calls in one `mg_migrate_run` return: whether the library and its
function are found, whether the queries succeed, and the result of the
function.  Only the calls that are made matter. -/
structure Calls where
  dlopen : Bool
  dlsym : Bool
  tableExist : Bool
  tableCreate : Bool
  select : Bool
  up : Bool
  insert : Bool

section Queries

variable (calls : Calls) (database : Database)

def mgMigrationTableExist : Bool := calls.tableExist && database.isSome

/-- `mg_migration_table_create`.  A table that exists stays as it is if the
query succeeds for it. -/
def mgMigrationTableCreate : Option Database :=
  if calls.tableCreate then some (some (database.getD [])) else none

def mgMigrationExist (filename : Bytes) : Bool :=
  calls.select && (database.getD []).contains filename

/-- `mg_migration_commit`.  The version is the primary key. -/
def mgMigrationCommit (filename : Bytes) : Database :=
  match database with
  | none => none
  | some versions =>
    if calls.insert && !versions.contains filename then
      some (versions ++ [filename])
    else some versions

end Queries

/-! ## A run -/

/-- A run of the program, with the calls of `up` and their results. -/
structure Process where
  database : Database
  countApplied : Nat
  executed : List (Bytes × Bool)

/-- The part of `mg_migrate_run` behind the checks of the table. -/
def runUp (calls : Calls) (filename : Bytes) (process : Process) : Process × Bool :=
  if mgMigrationExist calls process.database filename then (process, true)
  else if calls.up then
    -- the result of the commit is not looked at
    ({ database := mgMigrationCommit calls process.database filename
       countApplied := process.countApplied + 1
       executed := process.executed ++ [(filename, true)] }, true)
  else
    ({ process with
       executed := process.executed ++ [(filename, false)] }, false)

/-- `mg_migrate_run`; `false` for the result -1. -/
def mgMigrateRun (calls : Calls) (filename : Bytes) (process : Process) : Process × Bool :=
  if !calls.dlopen then (process, false)
  else if !calls.dlsym then (process, false)
  else if mgMigrationTableExist calls process.database then
    runUp calls filename process
  else
    match mgMigrationTableCreate calls process.database with
    | none => (process, false)
    | some database =>
      runUp calls filename { process with database := database }

def processLoop (countMigrations : Int) (calls : Bytes → Calls) : List Dirent → Process → Process
  | [], process => process
  | entry :: rest, process =>
    if entry.dType = regFile then
      if 0 < countMigrations ∧ process.countApplied = countMigrations then
        process
      else
        match mgMigrateRun (calls entry.name) entry.name process with
        | (next, false) => next
        | (next, true) => processLoop countMigrations calls rest next
    else processLoop countMigrations calls rest process

/-- The arguments of `migrate up` in front of the configuration. -/
inductive Request where
  | single
  | argument (text : Bytes)

/-- `atoi` of digits: `strtol`, cut to an `int`. -/
def atoi (digits : Bytes) : Int := Int.bmod (min (digitsValue digits) (2 ^ 63 - 1)) (2 ^ 32)

/-- `mg_parse_action_up`; 0 stands for all migrations. -/
def mgParseActionUp : Request → Option Int
  | .single => some 1
  | .argument text =>
    if text.all isdigit then some (atoi text)
    else if text = ascii "all" then some 0
    else none

/-- A `migrate up` with what the calls for each file return. -/
structure UpRun where
  request : Request
  calls : Bytes → Calls

def UpRun.executed (run : UpRun) (directory : Directory) (database : Database) : Process :=
  let start := { database := database, countApplied := 0, executed := [] }
  match mgParseActionUp run.request, scandir directory with
  | some count, some entries => processLoop count run.calls entries start
  | _, _ => start

/-! ## One file -/

def versions (database : Database) : List Bytes := database.getD []

/-- What `mg_migrate_run` can do for a file. -/
inductive Outcome (calls : Calls) (filename : Bytes) (process : Process) : Process × Bool → Prop
  | skipped {database : Database} {result : Bool}
      (same : versions database = versions process.database) :
      Outcome calls filename process ({ process with database := database }, result)
  | failed {database : Database} (same : versions database = versions process.database)
      (missing : mgMigrationExist calls database filename = false) :
      Outcome calls filename process ({ process with
           database := database
           executed := process.executed ++ [(filename, false)] }, false)
  | applied {database : Database} (same : versions database = versions process.database)
      (missing : mgMigrationExist calls database filename = false)
      (up : calls.up = true) (table : database.isSome = true) :
      Outcome calls filename process
        ({ database := mgMigrationCommit calls database filename
           countApplied := process.countApplied + 1
           executed := process.executed ++ [(filename, true)] }, true)

variable {process : Process}

private theorem runUp_outcome {calls : Calls} {filename : Bytes} {database : Database}
    (same : versions database = versions process.database)
    (table : database.isSome = true) :
    Outcome calls filename process
      (runUp calls filename { process with database := database }) := by
  unfold runUp
  dsimp only
  split_ifs with isRecorded up
  · exact .skipped same
  · exact .applied same (Bool.eq_false_iff.mpr isRecorded) up table
  · exact .failed same (Bool.eq_false_iff.mpr isRecorded)

theorem mgMigrateRun_outcome (calls : Calls) (filename : Bytes) (process : Process) :
    Outcome calls filename process (mgMigrateRun calls filename process) := by
  unfold mgMigrateRun
  split_ifs with unopened nameless hasTable
  · exact .skipped rfl
  · exact .skipped rfl
  · exact runUp_outcome rfl (Bool.and_eq_true_iff.mp hasTable).2
  · cases created : mgMigrationTableCreate calls process.database with
    | none => exact .skipped rfl
    | some database =>
      unfold mgMigrationTableCreate at created
      split_ifs at created
      cases created
      exact runUp_outcome rfl rfl

/-- The calls for a file do not reach a defect: a migration that is recorded is
found, and one that succeeds is recorded. -/
def Calls.Careful (calls : Calls) (recorded : Prop) : Prop :=
  (recorded → calls.select = true) ∧ (calls.up = true → calls.insert = true)

section Files

variable {calls : Calls} {filename : Bytes} {database : Database}

private theorem notMem_of_missing {recorded : Prop} (careful : calls.Careful recorded)
    (isRecorded : filename ∈ versions database → recorded)
    (missing : mgMigrationExist calls database filename = false) :
    filename ∉ versions database := by
  intro isIn
  have found : mgMigrationExist calls database filename = true := by
    rw [mgMigrationExist, careful.1 (isRecorded isIn), Bool.true_and]
    exact List.contains_iff_mem.mpr isIn
  rw [missing] at found
  cases found

private theorem versions_commit (inserted : calls.insert = true)
    (table : database.isSome = true) (isNew : filename ∉ versions database) :
    versions (mgMigrationCommit calls database filename) = versions database ++ [filename] := by
  cases database with
  | none => cases table
  | some recorded =>
    have absent : filename ∉ recorded := isNew
    simp [mgMigrationCommit, versions, inserted, absent]

end Files

/-! ## One run -/

/-- What the loop adds to the executions: files in their order that were not
recorded before, and the ones that succeed are recorded. -/
structure Extends (names : List Bytes) (process next : Process)
    (added : List (Bytes × Bool)) : Prop where
  executed : next.executed = process.executed ++ added
  order : (added.map Prod.fst).Sublist names
  kept : versions process.database ⊆ versions next.database
  recorded : ∀ name, (name, true) ∈ added → name ∈ versions next.database
  fresh : ∀ name ∈ added.map Prod.fst, name ∉ versions process.database

theorem Extends.skip {names : List Bytes} {between next : Process}
    {added : List (Bytes × Bool)} (rest : Extends names between next added)
    (same : versions between.database = versions process.database)
    (sameExecuted : between.executed = process.executed) (name : Bytes) :
    Extends (name :: names) process next added where
  executed := sameExecuted ▸ rest.executed
  order := rest.order.cons name
  kept := same ▸ rest.kept
  recorded := rest.recorded
  fresh := same ▸ rest.fresh

theorem Extends.refl (names : List Bytes) {process next : Process}
    (same : versions next.database = versions process.database)
    (sameExecuted : next.executed = process.executed) :
    Extends names process next [] where
  executed := by rw [sameExecuted, List.append_nil]
  order := List.nil_sublist names
  kept := same ▸ List.Subset.refl _
  recorded := by simp
  fresh := by simp

/-- A file that is executed in front of the others. -/
theorem Extends.cons {name : Bytes} {result : Bool} {names : List Bytes} {between next : Process}
    {added : List (Bytes × Bool)} (rest : Extends names between next added)
    (executed : between.executed = process.executed ++ [(name, result)])
    (isNew : name ∉ versions process.database)
    (kept : versions process.database ⊆ versions between.database)
    (recorded : result = true → name ∈ versions between.database) :
    Extends (name :: names) process next ((name, result) :: added) where
  executed := by rw [rest.executed, executed, List.append_assoc]; rfl
  order := rest.order.cons_cons name
  kept := fun _ isIn => rest.kept (kept isIn)
  recorded := by
    intro other isIn
    rcases List.mem_cons.mp isIn with same | behind
    · cases same
      exact rest.kept (recorded rfl)
    · exact rest.recorded other behind
  fresh := by
    intro other isIn
    rcases List.mem_cons.mp isIn with rfl | behind
    · exact isNew
    · exact fun wasIn => rest.fresh other behind (kept wasIn)

theorem processLoop_extends {count : Int} {calls : Bytes → Calls}
    {entries : List Dirent} (distinct : (entries.map Dirent.name).Nodup)
    (careful : ∀ entry ∈ entries, (calls entry.name).Careful
      (entry.name ∈ versions process.database)) :
    ∃ added, Extends (entries.map Dirent.name) process
      (processLoop count calls entries process) added := by
  induction entries generalizing process with
  | nil => exact ⟨[], .refl _ rfl rfl⟩
  | cons entry rest ih =>
    rw [List.map_cons, List.nodup_cons] at distinct
    rw [List.forall_mem_cons] at careful
    unfold processLoop
    split_ifs with isFile enough
    · exact ⟨[], .refl _ rfl rfl⟩
    · have outcome := mgMigrateRun_outcome (calls entry.name) entry.name process
      generalize mgMigrateRun (calls entry.name) entry.name process = ended at outcome
      cases outcome with
      | @skipped database result same =>
        cases result with
        | false => exact ⟨[], .refl _ same rfl⟩
        | true =>
          obtain ⟨added, extended⟩ :=
            @ih { process with database := database } distinct.2 (same ▸ careful.2)
          exact ⟨added, extended.skip same rfl entry.name⟩
      | failed same missing =>
        have isNew := notMem_of_missing careful.1 (same ▸ id) missing
        exact ⟨[(entry.name, false)], (Extends.refl _ rfl rfl).cons rfl
          (same ▸ isNew) (same ▸ List.Subset.refl _) (by simp)⟩
      | @applied database same missing up table =>
        have isNew := notMem_of_missing careful.1 (same ▸ id) missing
        have committed := versions_commit (careful.1.2 up) table isNew
        obtain ⟨added, extended⟩ := @ih
          { database := mgMigrationCommit (calls entry.name) database entry.name
            countApplied := process.countApplied + 1
            executed := process.executed ++ [(entry.name, true)] }
          distinct.2 (by
            intro other isIn
            -- the file that was recorded last is none of the others
            refine ⟨fun isRecorded => (careful.2 other isIn).1 ?_, (careful.2 other isIn).2⟩
            rw [committed, List.mem_append, List.mem_singleton] at isRecorded
            rcases isRecorded with before | isLast
            · rwa [same] at before
            · exact absurd (isLast ▸ List.mem_map_of_mem isIn) distinct.1)
        refine ⟨_, extended.cons rfl (same ▸ isNew) ?_ fun _ => ?_⟩
        · rw [committed, same]
          exact List.subset_append_left _ _
        · rw [committed]
          exact List.mem_append_right _ (List.mem_singleton_self _)
    · obtain ⟨added, extended⟩ := ih distinct.2 careful.2
      exact ⟨added, extended.skip rfl rfl entry.name⟩

/-- The count of a run bounds what is executed: a failure ends the run. -/
theorem processLoop_length {count : Int} (counted : 0 < count)
    (calls : Bytes → Calls) (entries : List Dirent)
    (below : process.countApplied ≤ count) :
    ((processLoop count calls entries process).executed.length : Int) +
      process.countApplied ≤ process.executed.length + count := by
  induction entries generalizing process with
  | nil =>
    rw [processLoop]
    omega
  | cons entry rest ih =>
    unfold processLoop
    split_ifs with isFile enough
    · omega
    · have outcome := mgMigrateRun_outcome (calls entry.name) entry.name process
      generalize mgMigrateRun (calls entry.name) entry.name process = ended at outcome
      cases outcome with
      | @skipped database result same =>
        cases result with
        | false => exact Int.add_le_add_left below _
        | true => exact @ih { process with database := database } below
      | failed same missing =>
        simp only [List.length_append, List.length_singleton]
        omega
      | @applied database same missing up table =>
        have rest := @ih
          { database := mgMigrationCommit (calls entry.name) database entry.name
            countApplied := process.countApplied + 1
            executed := process.executed ++ [(entry.name, true)] }
          (by simp only; omega)
        simp only [List.length_append, List.length_singleton] at rest ⊢
        omega
    · exact ih below

def Request.number : Request → Option Nat
  | .single => some 1
  | .argument text =>
    if text ≠ [] ∧ text.all isdigit then some (digitsValue text) else none

private theorem atoi_of_lt {text : Bytes} (small : digitsValue text < 2 ^ 31) :
    atoi text = digitsValue text := by
  rw [atoi, Int.bmod_eq_of_le (by omega) (by omega)]
  omega

def Directory.names (directory : Directory) : List Bytes :=
  (directory.entries.insertionSort mgSortAsc).map Dirent.name

theorem Directory.nodup_names (directory : Directory) :
    directory.names.Nodup :=
  ((directory.entries.perm_insertionSort mgSortAsc).map _).nodup_iff.mpr directory.distinct

theorem Directory.ascending_names (directory : Directory) : directory.names.Pairwise (· < ·) := by
  have total : Std.Total mgSortAsc := ⟨fun first second => List.le_total first.name second.name⟩
  have trans : IsTrans Dirent mgSortAsc := ⟨fun _ _ _ below above => List.le_trans below above⟩
  have sorted : directory.names.Pairwise (· ≤ ·) :=
    List.pairwise_map.mpr (directory.entries.pairwise_insertionSort mgSortAsc)
  exact sorted.imp₂ (fun _ _ => Std.lt_of_le_of_ne) directory.nodup_names

/-- The request is not the number 0, which stands for all migrations, and no
call of the run reaches a defect. -/
def UpRun.Careful (run : UpRun) (database : Database) : Prop :=
  run.request.number ≠ some 0 ∧ ∀ name, (run.calls name).Careful (name ∈ versions database)

section Run

variable {run : UpRun} {database : Database} (directory : Directory)

theorem UpRun.executed_extends (careful : run.Careful database) : Extends directory.names
      { database := database, countApplied := 0, executed := [] }
      (run.executed directory database)
      (run.executed directory database).executed := by
  suffices found : ∃ added, Extends directory.names
      { database := database, countApplied := 0, executed := [] }
      (run.executed directory database) added by
    obtain ⟨added, extended⟩ := found
    have same := extended.executed
    rw [List.nil_append] at same
    rwa [same]
  unfold UpRun.executed scandir
  cases mgParseActionUp run.request with
  | none => exact ⟨[], .refl _ rfl rfl⟩
  | some count =>
    by_cases few : directory.entries.length < 2 ^ 31
    · rw [if_pos few]
      exact processLoop_extends directory.nodup_names fun entry _ => careful.2 entry.name
    · rw [if_neg few]
      exact ⟨[], .refl _ rfl rfl⟩

theorem UpRun.executed_length (careful : run.Careful database) {number : Nat}
    (requested : run.request.number = some number) :
    (run.executed directory database).executed.length ≤ number := by
  have positive : 0 < number := by
    have nonzero := careful.1
    rw [requested, ne_eq, Option.some.injEq] at nonzero
    omega
  by_cases few : directory.entries.length < 2 ^ 31
  · by_cases small : number < 2 ^ 31
    · have parsed : mgParseActionUp run.request = some (number : Int) := by
        cases isRequest : run.request with
        | single =>
          rw [isRequest] at requested
          cases requested
          rfl
        | argument text =>
          rw [isRequest, Request.number] at requested
          split_ifs at requested with digits
          cases requested
          rw [mgParseActionUp, if_pos digits.2, atoi_of_lt small]
      have bounded := @processLoop_length
        { database := database, countApplied := 0, executed := [] } _
        (Int.natCast_pos.mpr positive) run.calls
        (directory.entries.insertionSort mgSortAsc)
        (Int.natCast_nonneg number)
      unfold UpRun.executed scandir
      rw [parsed, if_pos few]
      simpa using bounded
    · have order := (UpRun.executed_extends directory careful).order.length_le
      rw [List.length_map, Directory.names, List.length_map, List.length_insertionSort] at order
      omega
  · unfold UpRun.executed scandir
    rw [if_neg few]
    cases mgParseActionUp run.request <;> exact Nat.zero_le _

end Run

/-! ## Runs that follow each other -/

/-- The database between two runs, and what was executed in the runs. -/
structure World where
  database : Database
  history : List (Request × List (Bytes × Bool))

/-- `migrate up`, again and again. -/
def upSystem (directory : Directory) : System World UpRun where
  perform world run :=
    let process := run.executed directory world.database
    some { database := process.database
           history := world.history ++ [(run.request, process.executed)] }

/-- Each run executes files in ascending order and not more than requested, and
a migration that has succeeded is not executed again. -/
structure World.Correct (world : World) : Prop where
  ascending : ∀ turn ∈ world.history, (turn.2.map Prod.fst).Pairwise (· < ·)
  bounded : ∀ turn ∈ world.history, ∀ number, turn.1.number = some number → turn.2.length ≤ number
  once : world.history.Pairwise fun earlier later =>
    ∀ name, (name, true) ∈ earlier.2 → name ∉ later.2.map Prod.fst

/-- A run in which no defect is reached keeps the history correct, and what has
succeeded is recorded. -/
theorem upSystem_step {directory : Directory} {world next : World}
    {run : UpRun} (careful : run.Careful world.database)
    (step : (upSystem directory).perform world run = some next)
    (before : world.Correct ∧ ∀ turn ∈ world.history, ∀ name,
      (name, true) ∈ turn.2 → name ∈ versions world.database) :
    next.Correct ∧ ∀ turn ∈ next.history, ∀ name,
      (name, true) ∈ turn.2 → name ∈ versions next.database := by
  cases step
  obtain ⟨correct, recorded⟩ := before
  have extended := UpRun.executed_extends directory careful
  refine ⟨⟨?_, ?_, ?_⟩, ?_⟩
  · rw [List.forall_mem_append, List.forall_mem_singleton]
    exact ⟨correct.ascending, directory.ascending_names.sublist extended.order⟩
  · rw [List.forall_mem_append, List.forall_mem_singleton]
    exact ⟨correct.bounded, fun _ => UpRun.executed_length directory careful⟩
  · rw [List.pairwise_append]
    refine ⟨correct.once, List.pairwise_singleton _ _, ?_⟩
    intro earlier isEarlier later isLast name succeeded again
    rw [List.mem_singleton.mp isLast] at again
    exact extended.fresh name again (recorded earlier isEarlier name succeeded)
  · rw [List.forall_mem_append, List.forall_mem_singleton]
    exact ⟨fun turn isTurn name succeeded =>
      extended.kept (recorded turn isTurn name succeeded), extended.recorded⟩

/-- In all runs of `migrate up` in which no request is the number 0, no query
for a recorded migration fails and no commit of a migration that has succeeded
fails. -/
theorem migrations_correct (directory : Directory) (database : Database)
    {runs : List UpRun} {reached : World}
    (careful : (upSystem directory).Meets (fun world run => run.Careful world.database)
      { database := database, history := [] } runs)
    (ran : (upSystem directory).exec
      { database := database, history := [] } runs = some reached) :
    reached.Correct :=
  ((upSystem directory).exec_invariant (fun meets => upSystem_step meets)
    careful ran ⟨⟨by simp, by simp, .nil⟩, by simp⟩).1

def sampleDirectory : Directory where
  entries := [⟨ascii "b.so", regFile⟩, ⟨ascii "a.so", regFile⟩]
  distinct := by decide

def Calls.ok : Calls := ⟨true, true, true, true, true, true, true⟩

/-- A `migrate up` in which the calls return the same for every file. -/
def UpRun.uniform (request : Request) (calls : Calls) : UpRun := ⟨request, fun _ => calls⟩

def afterTwo (first second : UpRun) : Option World :=
  (upSystem sampleDirectory).exec { database := none, history := [] } [first, second]

/-- Two runs for one migration each. -/
theorem migrations_correct_two_runs :
    ∃ reached, afterTwo (.uniform .single .ok) (.uniform .single .ok) = some reached ∧
      reached.history = [(.single, [(ascii "a.so", true)]),
        (.single, [(ascii "b.so", true)])] ∧ reached.Correct := by
  have careful : ∀ database, (UpRun.uniform .single .ok).Careful database :=
    fun _ => ⟨by decide, fun _ => ⟨fun _ => rfl, fun _ => rfl⟩⟩
  refine ⟨_, rfl, rfl, @migrations_correct sampleDirectory none
    [.uniform .single .ok, .uniform .single .ok] _ ?_ rfl⟩
  exact ⟨careful _, fun _ _ => ⟨careful _, fun _ _ => trivial⟩⟩

/-- After a commit that fails, and when the query for a recorded migration
fails, `a.so` is executed again; `migrate up 0` executes all migrations. -/
theorem migrations_again : (∃ reached, afterTwo (.uniform .single { Calls.ok with insert := false })
        (.uniform .single .ok) = some reached ∧ ¬reached.Correct) ∧
    (∃ reached, afterTwo (.uniform .single .ok)
        (.uniform .single { Calls.ok with select := false }) = some reached ∧ ¬reached.Correct) ∧
    ∃ reached, afterTwo (.uniform (.argument (ascii "0")) .ok)
        (.uniform .single .ok) = some reached ∧ ¬reached.Correct := by
  refine ⟨⟨_, rfl, fun correct => ?_⟩, ⟨_, rfl, fun correct => ?_⟩, ⟨_, rfl, fun correct => ?_⟩⟩
  · exact List.pairwise_pair.mp correct.once (ascii "a.so") (by decide) (by decide)
  · exact List.pairwise_pair.mp correct.once (ascii "a.so") (by decide) (by decide)
  · exact absurd (correct.bounded _ List.mem_cons_self 0 rfl) (by decide)

end CWebFramework.Migrate
