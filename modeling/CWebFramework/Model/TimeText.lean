import CWebFramework.Misc.Numerals

/-!
# The texts of times with a zone

`model_timestamptz_to_str`, `model_timetz_to_str` and the functions of
`framework/model/model.c` that read their texts.  `strftime` and `strptime` are
modelled for the directives that are used; `yearWidth` is the number of digits
that `strptime` takes for `%Y`.
-/

namespace CWebFramework.Model

structure Date where
  year : Nat
  month : Nat
  day : Nat
  deriving DecidableEq

/-- A time of day and the offset of its zone in seconds. -/
structure Clock where
  hour : Nat
  minute : Nat
  second : Nat
  usec : Nat
  gmtoff : Int
  deriving DecidableEq

structure Date.Valid (date : Date) : Prop where
  year : 1901 ≤ date.year
  month : 1 ≤ date.month ∧ date.month ≤ 12
  day : 1 ≤ date.day ∧ date.day ≤ 31

/-- The offset is a number of minutes, at most 14 hours. -/
structure Clock.Valid (clock : Clock) : Prop where
  hour : clock.hour ≤ 23
  minute : clock.minute ≤ 59
  second : clock.second ≤ 60
  usec : clock.usec < 1000000
  whole : clock.gmtoff % 60 = 0
  bounded : clock.gmtoff.natAbs ≤ 50400

/-! ## Writing -/

/-- `%02d` and the like. -/
def zeroPadded (width value : Nat) : Bytes :=
  List.replicate (width - (decimal value).length) 48 ++ decimal value

def zoneText (gmtoff : Int) : Bytes :=
  (if gmtoff < 0 then 45 else 43) :: (zeroPadded 2 (gmtoff.natAbs / 3600) ++
      zeroPadded 2 (gmtoff.natAbs / 60 % 60))

def fractionText (usec : Nat) : Bytes :=
  if usec = 0 then [] else 46 :: zeroPadded 6 usec

def modelTimetzToStr (clock : Clock) : Bytes :=
  zeroPadded 2 clock.hour ++ Byte.colon :: (zeroPadded 2 clock.minute ++
    Byte.colon :: (zeroPadded 2 clock.second ++ (fractionText clock.usec ++ zoneText clock.gmtoff)))

def modelTimestamptzToStr (date : Date) (clock : Clock) : Bytes :=
  decimal date.year ++ 45 :: (zeroPadded 2 date.month ++
    45 :: (zeroPadded 2 date.day ++ Byte.space :: modelTimetzToStr clock))

/-! ## Reading -/

/-- A number of at most `width` digits, as `strptime` reads it. -/
def readNumber (width low high : Nat) (text : Bytes) : Option (Nat × Bytes) :=
  let digits := (text.take width).takeWhile isdigit
  if digits = [] ∨ digitsValue digits < low ∨ high < digitsValue digits then
    none
  else some (digitsValue digits, text.drop digits.length)

def expect (byte : UInt8) : Bytes → Option Bytes
  | [] => none
  | first :: rest => if first = byte then some rest else none

/-- `strptime` with `%H:%M:%S`. -/
def strptimeTime (text : Bytes) : Option ((Nat × Nat × Nat) × Bytes) := do
  let (hour, text) ← readNumber 2 0 23 text
  let (minute, text) ← readNumber 2 0 59 (← expect Byte.colon text)
  let (second, text) ← readNumber 2 0 60 (← expect Byte.colon text)
  return ((hour, minute, second), text)

/-- `strptime` with `%Y-%m-%d`. -/
def strptimeDate (yearWidth : Nat) (text : Bytes) : Option (Date × Bytes) := do
  let (year, text) ← readNumber yearWidth 0 (10 ^ yearWidth) text
  let (month, text) ← readNumber 2 1 12 (← expect 45 text)
  let (day, text) ← readNumber 2 1 31 (← expect 45 text)
  return (⟨year, month, day⟩, text)

def parseUsec (text : Bytes) : Nat × Bytes :=
  let digits := (text.take 6).takeWhile isdigit
  (digitsValue digits * 10 ^ (6 - digits.length), text.drop digits.length)

def parseDatetimeRest (text : Bytes) : Nat × Bytes :=
  match text.dropWhile fun byte => byte ∉ [46, 43, 45, 90] with
  | 46 :: rest => parseUsec rest
  | rest => (0, rest)

def scanInt (text : Bytes) : Option (Int × Bytes) :=
  let start := text.dropWhile isspace
  let (negative, number) := match start with
    | 45 :: rest => (true, rest)
    | 43 :: rest => (false, rest)
    | _ => (false, start)
  let digits := number.takeWhile isdigit
  if digits = [] then none
  else some (if negative then -digitsValue digits else digitsValue digits,
    number.drop digits.length)

def parseTzOffset : Bytes → Option Int
  | [] => none
  | byte :: text =>
    if byte = 90 then some 0
    else if byte ≠ 43 ∧ byte ≠ 45 then none
    else do
      -- `sscanf` with `%d:%d`, which needs only the hours
      let (hours, rest) ← scanInt text
      let mins := ((expect Byte.colon rest).bind scanInt).elim 0 Prod.fst
      return (if byte = 45 then -1 else 1) * (hours * 3600 + mins * 60)

/-- The end of the functions that read a text with a zone. -/
def readZone (time : Nat × Nat × Nat) (text : Bytes) : Clock :=
  let (usec, rest) := parseDatetimeRest text
  ⟨time.1, time.2.1, time.2.2, usec, (parseTzOffset rest).getD 0⟩

def modelSetTimetzFromStr (text : Bytes) : Option Clock :=
  (strptimeTime text).map fun (time, rest) => readZone time rest

/-- A date and a time with a separator between them. -/
def strptimeStamp (yearWidth : Nat) (separate : Bytes → Option Bytes)
    (text : Bytes) : Option (Date × (Nat × Nat × Nat) × Bytes) := do
  let (date, text) ← strptimeDate yearWidth text
  let (time, rest) ← strptimeTime (← separate text)
  return (date, time, rest)

def strptimeFlex (yearWidth : Nat) (text : Bytes) : Option (Date × (Nat × Nat × Nat) × Bytes) :=
  (strptimeStamp yearWidth (fun text => some (text.dropWhile isspace))
    text).orElse fun _ => strptimeStamp yearWidth (expect 84) text

def modelSetTimestamptzFromStr (yearWidth : Nat) (text : Bytes) : Option (Date × Clock) :=
  (strptimeFlex yearWidth text).map fun (date, time, rest) =>
    (date, readZone time rest)

/-! ## Numbers -/

theorem digitsValue_zeroPadded (width value : Nat) :
    digitsValue (zeroPadded width value) = value := by
  have zeros (count : Nat) (digits : Bytes) :
      digitsValue (List.replicate count 48 ++ digits) = digitsValue digits := by
    induction count with
    | zero => rfl
    | succ count ih => exact ih
  rw [zeroPadded, zeros, digitsValue_decimal]

theorem isdigit_zeroPadded (width value : Nat) :
    ∀ byte ∈ zeroPadded width value, isdigit byte = true := by
  refine List.forall_mem_append.mpr ⟨fun byte isIn => ?_, isdigit_decimal value⟩
  rw [List.eq_of_mem_replicate isIn]
  decide

theorem length_zeroPadded {width value : Nat} (positive : 0 < width)
    (small : value < 10 ^ width) : (zeroPadded width value).length = width := by
  have short : (decimal value).length ≤ width := length_numeral_le (by decide) positive small
  rw [zeroPadded, List.length_append, List.length_replicate]
  omega

/-- All digits are taken, if they are as many as can be, or no digit follows. -/
theorem takeWhile_take {width : Nat} {digits rest : Bytes}
    (areDigits : ∀ byte ∈ digits, isdigit byte = true) (short : digits.length ≤ width)
    (ends : digits.length = width ∨ ∀ byte ∈ rest.head?, isdigit byte = false) :
    ((digits ++ rest).take width).takeWhile isdigit = digits := by
  rw [List.take_append, List.take_of_length_le short, List.takeWhile_append_of_pos areDigits]
  rcases ends with full | stops
  · simp [full]
  · cases rest with
    | nil => simp
    | cons byte rest =>
      have noDigit := stops byte rfl
      cases width - digits.length with
      | zero => simp
      | succ count => simp [noDigit]

theorem readNumber_zeroPadded {width low high value : Nat} (positive : 0 < width)
    (small : value < 10 ^ width) (isLow : low ≤ value) (isHigh : value ≤ high)
    (rest : Bytes) :
    readNumber width low high (zeroPadded width value ++ rest) = some (value, rest) := by
  have length := length_zeroPadded positive small
  have taken := @takeWhile_take width (zeroPadded width value) rest
    (isdigit_zeroPadded width value) length.le (.inl length)
  have nonempty : zeroPadded width value ≠ [] := by
    intro empty
    rw [empty] at length
    simp at length
    omega
  simp only [readNumber, taken, digitsValue_zeroPadded, nonempty, false_or]
  rw [if_neg (by omega), List.drop_left]

/-! ## Times -/

variable {clock : Clock}

theorem strptimeTime_toStr (valid : clock.Valid) : strptimeTime (modelTimetzToStr clock) =
      some ((clock.hour, clock.minute, clock.second),
        fractionText clock.usec ++ zoneText clock.gmtoff) := by
  have isHour := valid.hour
  have isMinute := valid.minute
  have isSecond := valid.second
  rw [strptimeTime, modelTimetzToStr,
    readNumber_zeroPadded (by decide) (by omega) (by omega) isHour]
  simp only [Option.bind_eq_bind, Option.bind_some, expect, if_true]
  rw [readNumber_zeroPadded (by decide) (by omega) (by omega) isMinute]
  simp only [Option.bind_some, if_true]
  rw [readNumber_zeroPadded (by decide) (by omega) (by omega) isSecond]
  rfl

theorem parseDatetimeRest_fractionText {usec : Nat} (small : usec < 1000000) (gmtoff : Int) :
    parseDatetimeRest (fractionText usec ++ zoneText gmtoff) = (usec, zoneText gmtoff) := by
  have length := length_zeroPadded (by decide : 0 < 6) small
  have taken := @takeWhile_take 6 (zeroPadded 6 usec) (zoneText gmtoff)
    (isdigit_zeroPadded 6 usec) length.le (.inl length)
  by_cases isZero : usec = 0
  · rw [parseDatetimeRest, fractionText, if_pos isZero, zoneText, isZero]
    by_cases negative : gmtoff < 0
    · simp [negative]
    · simp [negative]
  · rw [parseDatetimeRest, fractionText, if_neg isZero, List.cons_append]
    have parsed : parseUsec (zeroPadded 6 usec ++ zoneText gmtoff) = (usec, zoneText gmtoff) := by
      simp only [parseUsec, taken, digitsValue_zeroPadded, List.drop_left]
      simp [length]
    simp [parsed]

/-- The offset that is read from the text of an offset: its hours and minutes
are taken for a number of hours. -/
def misread (gmtoff : Int) : Int :=
  (if gmtoff < 0 then -1 else 1) *
    ((100 * (gmtoff.natAbs / 3600) + gmtoff.natAbs / 60 % 60 : Nat) * 3600)

private theorem digitsValue_append (first second : Bytes) : digitsValue (first ++ second) =
      digitsValue first * 10 ^ second.length + digitsValue second := by
  have general (start : Nat) : second.foldl
      (fun value digit => 10 * value + (digit - 48).toNat) start =
        start * 10 ^ second.length + digitsValue second := by
    induction second generalizing start with
    | nil => simp [digitsValue]
    | cons digit rest ih =>
      have whole : digitsValue (digit :: rest) = (10 * 0 + (digit - 48).toNat) * 10 ^ rest.length +
            digitsValue rest := ih _
      rw [List.foldl_cons, ih, whole, List.length_cons]
      ring
  rw [digitsValue, List.foldl_append, general]
  rfl

private theorem scanInt_digits {digits : Bytes} (nonempty : digits ≠ [])
    (areDigits : ∀ byte ∈ digits, isdigit byte = true) :
    scanInt digits = some ((digitsValue digits : Int), []) := by
  have start : ∀ byte, isdigit byte = true → isspace byte = false ∧ byte ≠ 45 ∧ byte ≠ 43 :=
    forall_byte (by decide +kernel)
  obtain ⟨first, rest, rfl⟩ := List.exists_cons_of_ne_nil nonempty
  obtain ⟨noSpace, noMinus, noPlus⟩ := start first (areDigits _ (by simp))
  have all : (first :: rest).takeWhile isdigit = first :: rest :=
    List.takeWhile_eq_self_iff.mpr areDigits
  simp [scanInt, noSpace, noMinus, noPlus, all]

private theorem parseTzOffset_zoneText (gmtoff : Int) :
    parseTzOffset (zoneText gmtoff) = some (misread gmtoff) := by
  have length : (zeroPadded 2 (gmtoff.natAbs / 60 % 60)).length = 2 :=
    length_zeroPadded (by decide) (by omega)
  have scanned := @scanInt_digits (zeroPadded 2 (gmtoff.natAbs / 3600) ++
      zeroPadded 2 (gmtoff.natAbs / 60 % 60))
    (List.append_ne_nil_of_right_ne_nil _ (List.ne_nil_of_length_eq_add_one length))
    (List.forall_mem_append.mpr ⟨isdigit_zeroPadded 2 _, isdigit_zeroPadded 2 _⟩)
  rw [digitsValue_append, length, digitsValue_zeroPadded, digitsValue_zeroPadded] at scanned
  rw [zoneText, parseTzOffset, misread]
  by_cases negative : gmtoff < 0
  · simp [negative, scanned, expect]
    ring
  · simp [negative, scanned, expect]
    ring

private theorem modelSetTimetzFromStr_toStr (valid : clock.Valid) :
    modelSetTimetzFromStr (modelTimetzToStr clock) =
      some { clock with gmtoff := misread clock.gmtoff } := by
  rw [modelSetTimetzFromStr, strptimeTime_toStr valid]
  simp only [Option.map_some, readZone,
    parseDatetimeRest_fractionText valid.usec, parseTzOffset_zoneText,
    Option.getD_some]

private theorem misread_eq_iff (valid : clock.Valid) :
    misread clock.gmtoff = clock.gmtoff ↔ clock.gmtoff = 0 := by
  have whole := valid.whole
  have bounded := valid.bounded
  unfold misread
  split <;> omega

/-! ## Dates -/

variable {date : Date} {yearWidth : Nat}

theorem strptimeDate_toStr (valid : date.Valid)
    (short : date.year < 10 ^ yearWidth) (rest : Bytes) :
    strptimeDate yearWidth (decimal date.year ++ 45 ::
      (zeroPadded 2 date.month ++ 45 :: (zeroPadded 2 date.day ++ rest))) =
      some (date, rest) := by
  have isYear := valid.year
  obtain ⟨monthLow, monthHigh⟩ := valid.month
  obtain ⟨dayLow, dayHigh⟩ := valid.day
  have positive : 0 < yearWidth := by
    by_contra none
    rw [Nat.eq_zero_of_not_pos none] at short
    omega
  have taken := @takeWhile_take yearWidth (decimal date.year)
    (45 :: (zeroPadded 2 date.month ++ 45 :: (zeroPadded 2 date.day ++ rest)))
    (isdigit_decimal _) (length_numeral_le (by decide) positive short)
    (.inr (by rintro byte ⟨⟩; decide))
  have nonempty : decimal date.year ≠ [] := numeral_ne_nil 10 _
  rw [strptimeDate, readNumber]
  simp only [taken, digitsValue_decimal, nonempty, false_or]
  rw [if_neg (by omega), List.drop_left]
  simp only [Option.bind_eq_bind, Option.bind_some, expect, if_true]
  rw [readNumber_zeroPadded (by decide) (by omega) monthLow monthHigh]
  simp only [Option.bind_some, if_true]
  rw [readNumber_zeroPadded (by decide) (by omega) dayLow dayHigh]
  rfl

/-- A year with more digits is cut, and a digit stands where the separator is
expected. -/
theorem strptimeDate_long (nonzero : date.year ≠ 0)
    (long : ¬date.year < 10 ^ yearWidth) (rest : Bytes) :
    strptimeDate yearWidth (decimal date.year ++ rest) = none := by
  have digits := isdigit_decimal date.year
  have longer : yearWidth < (decimal date.year).length := by
    rw [decimal, numeral, if_neg nonzero, List.length_map, List.length_reverse]
    rw [← Nat.digits_length_le_iff (by decide : 1 < 10)] at long
    omega
  have taken : ((decimal date.year ++ rest).take yearWidth).takeWhile isdigit =
      (decimal date.year).take yearWidth := by
    rw [List.take_append_of_le_length longer.le]
    exact List.takeWhile_eq_self_iff.mpr fun byte isIn =>
      digits byte (List.mem_of_mem_take isIn)
  obtain ⟨next, more, isNext⟩ := List.exists_cons_of_ne_nil
    (List.ne_nil_of_length_pos (by rw [List.length_drop]; omega) :
      (decimal date.year).drop yearWidth ≠ [])
  have isDigit := digits next (List.mem_of_mem_drop (isNext ▸ List.mem_cons_self))
  have noDash : next ≠ 45 := by
    rintro rfl
    cases isDigit
  rw [strptimeDate, readNumber]
  simp only [taken, List.length_take, Nat.min_eq_left longer.le,
    List.drop_append_of_le_length longer.le, isNext]
  split
  · rfl
  · simp [expect, noDash]

/-! ## Reading back -/

/-- What is read from the texts that are written: the same time exactly if its
offset is zero, and its year is not too long. -/
theorem timeTexts_readBack (yearWidth : Nat) (isDate : date.Valid) (isClock : clock.Valid) :
    (modelSetTimestamptzFromStr yearWidth (modelTimestamptzToStr date clock) = some (date, clock) ↔
      clock.gmtoff = 0 ∧ date.year < 10 ^ yearWidth) ∧
      (modelSetTimetzFromStr (modelTimetzToStr clock) = some clock ↔ clock.gmtoff = 0) := by
  have isSame : { clock with gmtoff := misread clock.gmtoff } = clock ↔ clock.gmtoff = 0 := by
    rw [← misread_eq_iff isClock]
    exact ⟨congrArg Clock.gmtoff, fun same => by rw [same]⟩
  have isRead := modelSetTimetzFromStr_toStr isClock
  refine ⟨?_, by rw [isRead, Option.some.injEq, isSame]⟩
  by_cases short : date.year < 10 ^ yearWidth
  · have stripped : (Byte.space :: modelTimetzToStr clock).dropWhile isspace =
        modelTimetzToStr clock := by
      have start : ∀ byte, isdigit byte = true → isspace byte = false :=
        forall_byte (by decide +kernel)
      obtain ⟨first, more, isText⟩ := List.exists_cons_of_length_eq_add_one
        (@length_zeroPadded 2 clock.hour (by decide) (by have := isClock.hour; omega))
      have isDigit := isdigit_zeroPadded 2 clock.hour first (by simp [isText])
      have blank : isspace Byte.space = true := by decide
      rw [modelTimetzToStr, isText]
      simp [start first isDigit, blank]
    rw [modelSetTimetzFromStr, strptimeTime_toStr isClock, Option.map_some,
      Option.some.injEq] at isRead
    have read : strptimeFlex yearWidth (modelTimestamptzToStr date clock) =
        some (date, (clock.hour, clock.minute, clock.second),
          fractionText clock.usec ++ zoneText clock.gmtoff) := by
      simp [strptimeFlex, strptimeStamp, modelTimestamptzToStr,
        strptimeDate_toStr isDate short, stripped, strptimeTime_toStr isClock]
    simp only [modelSetTimestamptzFromStr, read, Option.map_some, isRead,
      Option.some.injEq, Prod.mk.injEq, true_and, isSame, short, and_true]
  · have isYear := isDate.year
    have long := strptimeDate_long (by omega) short
    simp [modelSetTimestamptzFromStr, modelTimestamptzToStr, strptimeFlex,
      strptimeStamp, long, short]

theorem timeTexts_readBack_utc : modelSetTimestamptzFromStr 4
        (modelTimestamptzToStr ⟨2024, 4, 21⟩ ⟨15, 30, 45, 123456, 0⟩) =
      some (⟨2024, 4, 21⟩, ⟨15, 30, 45, 123456, 0⟩) :=
  (timeTexts_readBack 4 ⟨by decide, by decide, by decide⟩
    ⟨by decide, by decide, by decide, by decide, by decide, by decide⟩).1.mpr ⟨rfl, by decide⟩

/-- The offset `+0300` is read as 300 hours. -/
theorem timeTexts_misread : modelSetTimestamptzFromStr 4
        (modelTimestamptzToStr ⟨2024, 4, 21⟩ ⟨15, 30, 45, 0, 10800⟩) =
      some (⟨2024, 4, 21⟩, ⟨15, 30, 45, 0, 1080000⟩) := by
  decide +kernel

end CWebFramework.Model
