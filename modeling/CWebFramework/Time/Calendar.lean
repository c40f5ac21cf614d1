import Mathlib.Order.Bounds.Basic

/-!
# The calendar

`localtime` and `mktime` in UTC, as POSIX has them: the Gregorian calendar from
January 1970 on, with days of 86400 seconds.  `mktime` takes fields out of their
ranges.
-/

namespace CWebFramework.Time

/-! ## Months -/

def isLeap (year : Nat) : Bool := year % 4 == 0 && (year % 100 != 0 || year % 400 == 0)

/-- The number of days of a month, counted from January 1970. -/
def monthLength (month : Nat) : Nat :=
  match month % 12 with
  | 1 => if isLeap (1970 + month / 12) then 29 else 28
  | 3 | 5 | 8 | 10 => 30
  | _ => 31

/-- The number of days in front of a month. -/
def monthStart : Nat → Nat
  | 0 => 0
  | month + 1 => monthStart month + monthLength month

/-- The month of a day that lies behind the start of a month, and the day in
that month. -/
def dateLoop : Nat → Nat → Nat → Nat × Nat
  | 0, month, day => (month, day)
  | fuel + 1, month, day =>
    if day < monthLength month then (month, day)
    else dateLoop fuel (month + 1) (day - monthLength month)

/-- The month of a day, and the day in that month. -/
def date (day : Nat) : Nat × Nat := dateLoop day 0 day

theorem monthLength_bounds (month : Nat) : 28 ≤ monthLength month ∧ monthLength month ≤ 31 := by
  unfold monthLength
  split
  · split <;> omega
  · omega
  · omega
  · omega
  · omega
  · omega

theorem dateLoop_spec {fuel day : Nat} (enough : day ≤ fuel) (month : Nat) :
    (dateLoop fuel month day).2 < monthLength (dateLoop fuel month day).1 ∧
      monthStart (dateLoop fuel month day).1 + (dateLoop fuel month day).2 =
        monthStart month + day := by
  induction fuel generalizing month day with
  | zero =>
    have bounds := monthLength_bounds month
    exact ⟨by simp only [dateLoop]; omega, rfl⟩
  | succ fuel ih =>
    have bounds := monthLength_bounds month
    rw [dateLoop]
    split_ifs with inside
    · exact ⟨inside, rfl⟩
    · have smaller : day - monthLength month ≤ fuel := by omega
      obtain ⟨isInside, same⟩ := ih smaller (month + 1)
      refine ⟨isInside, same.trans ?_⟩
      rw [monthStart]
      omega

theorem date_inside (day : Nat) : (date day).2 < monthLength (date day).1 :=
  (dateLoop_spec le_rfl 0).1

theorem date_spec (day : Nat) : monthStart (date day).1 + (date day).2 = day := by
  have spec := (dateLoop_spec (le_refl day) 0).2
  rw [monthStart, Nat.zero_add] at spec
  exact spec

theorem monthStart_le {first second : Nat} (before : first < second) :
    monthStart first + monthLength first ≤ monthStart second := by
  induction second with
  | zero => exact absurd before (Nat.not_lt_zero _)
  | succ month ih =>
    rw [monthStart]
    rcases Nat.lt_succ_iff_lt_or_eq.mp before with earlier | rfl
    · exact Nat.le_add_right_of_le (ih earlier)
    · exact le_rfl

theorem monthStart_mono {first second : Nat} (ordered : first ≤ second) :
    monthStart first ≤ monthStart second := by
  rcases Nat.lt_or_eq_of_le ordered with before | rfl
  · exact Nat.le_of_add_right_le (monthStart_le before)
  · exact le_rfl

/-- The month and the day in it are determined by the day. -/
theorem date_eq {month offset : Nat} (inside : offset < monthLength month) :
    date (monthStart month + offset) = (month, offset) := by
  have isInside := date_inside (monthStart month + offset)
  have same := date_spec (monthStart month + offset)
  have sameMonth : (date (monthStart month + offset)).1 = month := by
    rcases Nat.lt_trichotomy (date (monthStart month + offset)).1 month with
      earlier | isSame | later
    · have bound := monthStart_le earlier
      omega
    · exact isSame
    · have bound := monthStart_le later
      omega
  rw [sameMonth] at same
  exact Prod.ext sameMonth (by omega)

/-! ## Broken-down times -/

/-- `struct tm`, with the years counted from 1970. -/
structure Tm where
  sec : Nat
  min : Nat
  hour : Nat
  mday : Nat
  mon : Nat
  year : Nat
  wday : Nat

def localtime (time : Nat) : Tm where
  sec := time % 60
  min := time / 60 % 60
  hour := time / 3600 % 24
  mday := (date (time / 86400)).2 + 1
  mon := (date (time / 86400)).1 % 12
  year := (date (time / 86400)).1 / 12
  wday := (time / 86400 + 4) % 7

def mktime (tm : Tm) : Nat :=
  86400 * (monthStart (12 * tm.year + tm.mon) + tm.mday - 1) + 3600 * tm.hour + 60 * tm.min + tm.sec

/-- A later day at another time of day. -/
theorem mktime_localtime (time hour minute days : Nat) : mktime { localtime time with
      sec := 0, min := minute, hour := hour
      mday := (localtime time).mday + days } =
      86400 * (time / 86400 + days) + (3600 * hour + 60 * minute) := by
  have same := date_spec (time / 86400)
  have isDay : monthStart (date (time / 86400)).1 +
      ((date (time / 86400)).2 + 1 + days) - 1 = time / 86400 + days := by
    omega
  simp only [mktime, localtime, Nat.div_add_mod, isDay]
  omega

theorem mktime_later (time days : Nat) :
    mktime { localtime time with mday := (localtime time).mday + days } = time + 86400 * days := by
  have later := mktime_localtime time (localtime time).hour (localtime time).min days
  simp only [mktime, localtime] at later ⊢
  omega

end CWebFramework.Time
