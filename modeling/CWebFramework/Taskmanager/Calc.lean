import CWebFramework.Time.Calendar

/-!
# The next run of a task

The functions of `framework/taskmanager/taskmanager_calc.c`, in UTC.  `clock` is
the time that `time(NULL)` gives; it stands in for a base time that is not
positive.
-/

namespace CWebFramework.Taskmanager

open Time

/-! ## The code -/

variable (clock : Nat) (baseTime : Int)

/-- The time `now` of the functions. -/
def startTime : Nat := if 0 < baseTime then baseTime.toNat else clock

def taskmanagerCalcNextDaily (hour minute : Nat) : Nat :=
  let now := startTime clock baseTime
  let tm := { localtime now with hour := hour, min := minute, sec := 0 }
  let target := mktime tm
  if target ≤ now then
    -- `mktime` has brought the fields into their ranges
    let tm := localtime target
    mktime { tm with mday := tm.mday + 1 }
  else target

def taskmanagerCalcNextWeekly (weekday hour minute : Nat) : Nat :=
  let now := startTime clock baseTime
  let tm := { localtime now with hour := hour, min := minute, sec := 0 }
  let daysAhead : Int := weekday - tm.wday
  if daysAhead < 0 then
    mktime { tm with mday := tm.mday + (daysAhead + 7).toNat }
  else if daysAhead = 0 then
    let target := mktime tm
    let tm := localtime target
    mktime { tm with mday := tm.mday + if target ≤ now then 7 else 0 }
  else mktime { tm with mday := tm.mday + daysAhead.toNat }

def taskmanagerCalcNextMonthly (day hour minute : Nat) : Nat :=
  let now := startTime clock baseTime
  let tm := { localtime now with
    hour := hour, min := minute, sec := 0, mday := day }
  let target := mktime tm
  if target ≤ now then
    let tm := localtime target
    mktime { tm with mon := tm.mon + 1 }
  else target

/-! ## The runs of a schedule -/

/-- The times behind `now` at a time of day, on chosen days. -/
def runs (now hour minute : Nat) (chosen : Tm → Prop) : Set Nat :=
  {time | now < time ∧ (localtime time).hour = hour ∧
    (localtime time).min = minute ∧ (localtime time).sec = 0 ∧
    chosen (localtime time)}

/-- The day of a month at a time of day, also if the month has fewer days. -/
def nominal (day hour minute month : Nat) : Nat :=
  86400 * (monthStart month + day - 1) + 3600 * hour + 60 * minute

/-- The month of the next run: this month, or the next one if the day of this
month has passed. -/
def runMonth (now day hour minute : Nat) : Nat :=
  let month := (date (now / 86400)).1
  if nominal day hour minute month ≤ now then month + 1 else month

variable (hour : Fin 24) (minute : Fin 60)

theorem mem_runs (now time : Nat) (chosen : Tm → Prop) :
    time ∈ runs now hour minute chosen ↔ now < time ∧
      time % 86400 = 3600 * hour + 60 * minute ∧ chosen (localtime time) := by
  have hourBound := hour.isLt
  have minuteBound := minute.isLt
  simp only [runs, Set.mem_ofPred_eq, localtime]
  constructor
  · rintro ⟨later, isHour, isMinute, isSecond, isChosen⟩
    exact ⟨later, by omega, isChosen⟩
  · rintro ⟨later, isTime, isChosen⟩
    exact ⟨later, by omega, by omega, by omega, isChosen⟩

theorem taskmanagerCalcNextDaily_isLeast :
    IsLeast (runs (startTime clock baseTime) hour minute fun _ => True)
      (taskmanagerCalcNextDaily clock baseTime hour minute) := by
  have hourBound := hour.isLt
  have minuteBound := minute.isLt
  generalize isNow : startTime clock baseTime = now
  have today := mktime_localtime now hour minute 0
  have later := mktime_later (86400 * (now / 86400) + (3600 * hour + 60 * minute)) 1
  rw [Nat.add_zero, Nat.add_zero] at today
  simp only [taskmanagerCalcNextDaily, isNow, today, later]
  constructor
  · rw [mem_runs]
    split_ifs <;> exact ⟨by omega, by omega, trivial⟩
  · intro time isRun
    obtain ⟨isLater, isTime, -⟩ := (mem_runs ..).mp isRun
    split_ifs <;> omega

/-- The weekday is reached within a week; a whole week passes only if its time
has passed today. -/
theorem taskmanagerCalcNextWeekly_eq (weekday : Fin 7) :
    ∃ ahead ≤ 7, taskmanagerCalcNextWeekly clock baseTime weekday hour minute =
        86400 * (startTime clock baseTime / 86400 + ahead) + (3600 * hour + 60 * minute) ∧
      (startTime clock baseTime / 86400 + ahead + 4) % 7 = weekday ∧
      (ahead = 0 → startTime clock baseTime < 86400 * (startTime clock baseTime / 86400) +
          (3600 * hour + 60 * minute)) ∧
      (ahead = 7 → 86400 * (startTime clock baseTime / 86400) +
        (3600 * hour + 60 * minute) ≤ startTime clock baseTime) := by
  have weekdayBound := weekday.isLt
  generalize isNow : startTime clock baseTime = now
  have today := mktime_localtime now hour minute 0
  rw [Nat.add_zero, Nat.add_zero] at today
  have isDay : (localtime now).wday = (now / 86400 + 4) % 7 := rfl
  simp only [taskmanagerCalcNextWeekly, isNow, today]
  split_ifs with before same passed
  · rw [mktime_localtime]
    exact ⟨_, by omega, rfl, by omega, by omega, by omega⟩
  · rw [mktime_later]
    exact ⟨7, le_rfl, by omega, by omega, by omega, fun _ => passed⟩
  · rw [mktime_later]
    exact ⟨0, by omega, by omega, by omega, by omega, by omega⟩
  · rw [mktime_localtime]
    exact ⟨_, by omega, rfl, by omega, by omega, by omega⟩

theorem taskmanagerCalcNextWeekly_isLeast (weekday : Fin 7) :
    IsLeast (runs (startTime clock baseTime) hour minute (·.wday = weekday))
      (taskmanagerCalcNextWeekly clock baseTime weekday hour minute) := by
  have hourBound := hour.isLt
  have minuteBound := minute.isLt
  obtain ⟨ahead, bound, value, isDay, notPassed, passed⟩ :=
    taskmanagerCalcNextWeekly_eq clock baseTime hour minute weekday
  rw [value]
  constructor
  · rw [mem_runs]
    simp only [localtime]
    exact ⟨by omega, by omega, by omega⟩
  · intro time isRun
    obtain ⟨isLater, isTime, isWeekday⟩ := (mem_runs ..).mp isRun
    simp only [localtime] at isWeekday
    omega

/-! ## Months -/

variable (day : Fin 31)

theorem nominal_eq (month : Nat) : nominal (day + 1) hour minute month =
      86400 * (monthStart month + day) + (3600 * hour + 60 * minute) := by
  simp only [nominal]
  omega

theorem nominal_day (month : Nat) :
    nominal (day + 1) hour minute month / 86400 = monthStart month + day := by
  have hourBound := hour.isLt
  have minuteBound := minute.isLt
  rw [nominal_eq]
  omega

theorem taskmanagerCalcNextMonthly_eq :
    taskmanagerCalcNextMonthly clock baseTime (day + 1) hour minute = nominal (day + 1) hour minute
        (runMonth (startTime clock baseTime) (day + 1) hour minute) := by
  have hourBound := hour.isLt
  have minuteBound := minute.isLt
  generalize isNow : startTime clock baseTime = now
  have inside := date_inside (now / 86400)
  have isDay := date_spec (now / 86400)
  have today : mktime { localtime now with
      sec := 0, min := minute, hour := hour, mday := day + 1 } =
      nominal (day + 1) hour minute (date (now / 86400)).1 := by
    simp only [mktime, localtime, nominal, Nat.div_add_mod]
    rfl
  simp only [taskmanagerCalcNextMonthly, isNow, today, runMonth]
  split_ifs with passed
  · -- the day has passed, so the month has it and `mktime` keeps the date
    generalize (date (now / 86400)).1 = month at *
    have isTarget := nominal_eq hour minute day month
    have isDate : date (nominal (day + 1) hour minute month / 86400) = (month, (day : Nat)) := by
      rw [nominal_day]
      exact date_eq (by omega)
    have isNext : 12 * (month / 12) + (month % 12 + 1) = month + 1 := by omega
    rw [nominal_eq _ _ _ (month + 1)]
    simp only [mktime, localtime, isDate, isNext]
    omega
  · rfl

/-- The run of the month is the least one exactly if the month has the day. -/
theorem taskmanagerCalcNextMonthly_isLeast_iff :
    IsLeast (runs (startTime clock baseTime) hour minute (·.mday = day + 1))
        (taskmanagerCalcNextMonthly clock baseTime (day + 1) hour minute) ↔
      day + 1 ≤ monthLength (runMonth (startTime clock baseTime) (day + 1) hour minute) := by
  have hourBound := hour.isLt
  have minuteBound := minute.isLt
  rw [taskmanagerCalcNextMonthly_eq]
  generalize startTime clock baseTime = now
  have inside := date_inside (now / 86400)
  have isDay := date_spec (now / 86400)
  have isMonth : runMonth now (day + 1) hour minute =
      if nominal (day + 1) hour minute (date (now / 86400)).1 ≤ now then
        (date (now / 86400)).1 + 1
      else (date (now / 86400)).1 := rfl
  generalize runMonth now (day + 1) hour minute = month at *
  have isTarget := nominal_eq hour minute day month
  have bounds := monthLength_bounds month
  have nextBounds := monthLength_bounds (month + 1)
  constructor
  · rintro ⟨isRun, -⟩
    obtain ⟨-, -, isDate⟩ := (mem_runs ..).mp isRun
    by_contra short
    -- the days that the month lacks are taken from the next one
    have behind : date (nominal (day + 1) hour minute month / 86400) =
        (month + 1, day - monthLength month) := by
      rw [nominal_day, show monthStart month + day =
        monthStart (month + 1) + (day - monthLength month) by
          rw [monthStart]; omega]
      exact date_eq (by omega)
    simp only [localtime, behind] at isDate
    omega
  · intro long
    have isDate : date (nominal (day + 1) hour minute month / 86400) = (month, (day : Nat)) := by
      rw [nominal_day]
      exact date_eq long
    constructor
    · rw [mem_runs]
      refine ⟨?_, by omega, by simp only [localtime, isDate]⟩
      split_ifs at isMonth with passed
      · rw [isTarget, isMonth, monthStart]
        omega
      · rw [isMonth]
        omega
    · intro time isRun
      obtain ⟨isLater, isTime, sameDay⟩ := (mem_runs ..).mp isRun
      have otherInside := date_inside (time / 86400)
      have otherDay := date_spec (time / 86400)
      simp only [localtime, Nat.add_right_cancel_iff] at sameDay
      generalize (date (time / 86400)).1 = other at *
      have isNominal : time = nominal (day + 1) hour minute other := by
        rw [nominal_eq]
        omega
      have notEarlier : (date (now / 86400)).1 ≤ other := by
        by_contra earlier
        have bound := monthStart_le (not_le.mp earlier)
        omega
      have start : monthStart month ≤ monthStart other := by
        apply monthStart_mono
        split_ifs at isMonth with passed
        · rcases Nat.lt_or_eq_of_le notEarlier with later | same
          · omega
          · rw [same, ← isNominal] at passed
            omega
        · omega
      rw [isNominal, nominal_eq, nominal_eq]
      omega

/-- The next run of each schedule.  A base time that is not positive stands for
the current time, and a month that lacks the day runs on a day of the month
behind it. -/
theorem taskmanagerCalcNext_spec (weekday : Fin 7) :
    IsLeast (runs (startTime clock baseTime) hour minute fun _ => True)
        (taskmanagerCalcNextDaily clock baseTime hour minute) ∧
      IsLeast (runs (startTime clock baseTime) hour minute (·.wday = weekday))
        (taskmanagerCalcNextWeekly clock baseTime weekday hour minute) ∧
      taskmanagerCalcNextMonthly clock baseTime (day + 1) hour minute =
        nominal (day + 1) hour minute (runMonth (startTime clock baseTime) (day + 1) hour minute) ∧
      (IsLeast (runs (startTime clock baseTime) hour minute (·.mday = day + 1))
          (taskmanagerCalcNextMonthly clock baseTime (day + 1) hour minute) ↔
        day + 1 ≤ monthLength (runMonth (startTime clock baseTime) (day + 1) hour minute)) :=
  ⟨taskmanagerCalcNextDaily_isLeast clock baseTime hour minute,
    taskmanagerCalcNextWeekly_isLeast clock baseTime hour minute weekday,
    taskmanagerCalcNextMonthly_eq clock baseTime hour minute day,
    taskmanagerCalcNextMonthly_isLeast_iff clock baseTime hour minute day⟩

/-- On 1 February 1970 at 10:00 the next 31st is 3 March, and a base time before
1970 is replaced by the current time. -/
theorem taskmanagerCalcNext_fails : ¬IsLeast (runs 2714400 10 0 (·.mday = 31))
        (taskmanagerCalcNextMonthly 0 2714400 31 10 0) ∧
      ¬IsLeast {time : Int | -5 < time ∧ time % 86400 = 0}
        (taskmanagerCalcNextDaily 100000 (-5) 0 0) := by
  constructor
  · rintro ⟨isRun, -⟩
    exact absurd isRun.2.2.2.2 (by decide)
  · rintro ⟨-, isBound⟩
    exact absurd (isBound (show (0 : Int) ∈ _ by decide)) (by decide)

end CWebFramework.Taskmanager
