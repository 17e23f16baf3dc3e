/-
The proleptic Gregorian calendar of the years 1 to 9999: the seconds of a local
time since the beginning of year 1, and that they stay within the calendar.
-/
import Mathlib.Data.Nat.Init
import Mathlib.Order.Basic

namespace Localmail

def isLeapYear (year : Nat) : Bool :=
  year % 4 = 0 && (year % 100 ≠ 0 || year % 400 = 0)

def daysInMonth (year month : Nat) : Nat :=
  if month = 2 then if isLeapYear year then 29 else 28
  else if month = 4 ∨ month = 6 ∨ month = 9 ∨ month = 11 then 30 else 31

/-- A `datetime.date`. -/
structure CalendarDate where
  year : Nat
  month : Nat
  day : Nat
  yearRange : 1 ≤ year ∧ year ≤ 9999
  monthRange : 1 ≤ month ∧ month ≤ 12
  dayRange : 1 ≤ day ∧ day ≤ daysInMonth year month
deriving DecidableEq

/-- `_days_before_year`. -/
def daysBeforeYear (year : Nat) : Nat :=
  let y := year - 1
  y * 365 + y / 4 - y / 100 + y / 400

/-- `_days_before_month`. -/
def daysBeforeMonth (year month : Nat) : Nat :=
  [0, 31, 59, 90, 120, 151, 181, 212, 243, 273, 304, 334].getD (month - 1) 0 +
    if 2 < month ∧ isLeapYear year then 1 else 0

/-- `_ymd2ord`. -/
def CalendarDate.ordinal (date : CalendarDate) : Nat :=
  daysBeforeYear date.year + daysBeforeMonth date.year date.month + date.day

/-- A `datetime` without an offset; its fields are in their ranges. -/
structure LocalTime where
  date : CalendarDate
  hour : Nat
  minute : Nat
  second : Nat
  hourRange : hour < 24
  minuteRange : minute < 60
  secondRange : second < 60
deriving DecidableEq

/-- The seconds since midnight. -/
def LocalTime.timeOfDay (time : LocalTime) : Nat :=
  time.hour * 3600 + time.minute * 60 + time.second

/-- The seconds since the beginning of year 1. -/
def LocalTime.seconds (time : LocalTime) : Nat :=
  (time.date.ordinal - 1) * 86400 + time.timeOfDay

/-- The seconds of the years 1 to 9999. -/
def calendarEnd : Nat := daysBeforeYear 10000 * 86400

/-- An instant of the years 1 to 9999. -/
def InCalendar (instant : Int) : Prop :=
  0 ≤ instant ∧ instant < calendarEnd

instance (instant : Int) : Decidable (InCalendar instant) :=
  inferInstanceAs (Decidable (_ ∧ _))

theorem daysBeforeYear_succ {year : Nat} (hyear : 1 ≤ year) :
    daysBeforeYear (year + 1) =
      daysBeforeYear year + if isLeapYear year then 366 else 365 := by
  obtain ⟨y, rfl⟩ : ∃ y, year = y + 1 := ⟨year - 1, by omega⟩
  have hleap : isLeapYear (y + 1) = true ↔
      (y + 1) % 4 = 0 ∧ ((y + 1) % 100 ≠ 0 ∨ (y + 1) % 400 = 0) := by
    simp [isLeapYear]
  have hfour := @Nat.succ_div y 4
  have hhundred := @Nat.succ_div y 100
  have hlong := @Nat.succ_div y 400
  simp only [Nat.dvd_iff_mod_eq_zero] at hfour hhundred hlong
  simp only [daysBeforeYear, hleap, Nat.add_sub_cancel]
  split at hfour <;> split at hhundred <;> split at hlong <;> split <;> omega

theorem daysBeforeYear_mono {year other : Nat} (hfirst : 1 ≤ year)
    (hyears : year ≤ other) : daysBeforeYear year ≤ daysBeforeYear other := by
  induction other, hyears using Nat.le_induction with
  | base => exact Nat.le_refl _
  | succ other hother ih =>
      rw [daysBeforeYear_succ (Nat.le_trans hfirst hother)]
      exact Nat.le_trans ih (Nat.le_add_right _ _)

/-- A day of a month is a day of its year. -/
theorem dayOfYear_le (date : CalendarDate) :
    daysBeforeMonth date.year date.month + date.day ≤
      if isLeapYear date.year then 366 else 365 := by
  have hall : ∀ leap : Bool, ∀ month < 13, 1 ≤ month →
      ([0, 31, 59, 90, 120, 151, 181, 212, 243, 273, 304, 334].getD
          (month - 1) 0 + if 2 < month ∧ leap = true then 1 else 0) +
        (if month = 2 then if leap = true then 29 else 28
          else if month = 4 ∨ month = 6 ∨ month = 9 ∨ month = 11 then 30
            else 31) ≤ if leap = true then 366 else 365 := by
    decide
  calc daysBeforeMonth date.year date.month + date.day
      ≤ daysBeforeMonth date.year date.month +
          daysInMonth date.year date.month :=
        Nat.add_le_add_left date.dayRange.2 _
    _ ≤ _ := hall (isLeapYear date.year) date.month
        (Nat.lt_succ_of_le date.monthRange.2) date.monthRange.1

theorem ordinal_bounds (date : CalendarDate) :
    1 ≤ date.ordinal ∧ date.ordinal ≤ daysBeforeYear (date.year + 1) := by
  have hyear := daysBeforeYear_succ date.yearRange.1
  have hday := dayOfYear_le date
  have hfirst := date.dayRange.1
  rw [CalendarDate.ordinal]
  omega

theorem ordinal_le_last (date : CalendarDate) :
    date.ordinal ≤ daysBeforeYear 10000 :=
  Nat.le_trans (ordinal_bounds date).2
    (daysBeforeYear_mono (Nat.le_add_left 1 _)
      (Nat.succ_le_succ date.yearRange.2))

theorem timeOfDay_lt (time : LocalTime) : time.timeOfDay < 86400 := by
  have hhour := time.hourRange
  have hminute := time.minuteRange
  have hsecond := time.secondRange
  rw [LocalTime.timeOfDay]
  omega

theorem seconds_lt (time : LocalTime) : time.seconds < calendarEnd := by
  have hfirst := (ordinal_bounds time.date).1
  have hdays : time.date.ordinal * 86400 ≤ calendarEnd :=
    Nat.mul_le_mul_right _ (ordinal_le_last time.date)
  have htime := timeOfDay_lt time
  rw [LocalTime.seconds]
  omega

/-- Day 1 is 1 January of year 1. -/
theorem ordinal_eq_one_iff (date : CalendarDate) :
    date.ordinal = 1 ↔ date.year = 1 ∧ date.month = 1 ∧ date.day = 1 := by
  rw [CalendarDate.ordinal]
  constructor
  · intro hone
    have hday := date.dayRange.1
    have hmonth : ∀ month < 13, 1 < month →
        0 < [0, 31, 59, 90, 120, 151, 181, 212, 243, 273, 304, 334].getD
          (month - 1) 0 := by
      decide
    have hyear : ¬ 2 ≤ date.year := by
      intro hlater
      have hbefore : 365 ≤ daysBeforeYear date.year :=
        daysBeforeYear_mono (by decide) hlater
      omega
    have hfirst : ¬ 1 < date.month := by
      intro hlater
      have hbefore := hmonth date.month
        (Nat.lt_succ_of_le date.monthRange.2) hlater
      rw [daysBeforeMonth] at hone
      omega
    have hyears := date.yearRange.1
    have hmonths := date.monthRange.1
    omega
  · rintro ⟨hyear, hmonth, hday⟩
    rw [hyear, hmonth, hday]
    rfl

/-- The last day of the calendar is 31 December 9999. -/
theorem ordinal_eq_last_iff (date : CalendarDate) :
    date.ordinal = daysBeforeYear 10000 ↔
      date.year = 9999 ∧ date.month = 12 ∧ date.day = 31 := by
  constructor
  · intro hlast
    obtain ⟨-, hday⟩ := ordinal_bounds date
    have hyear : date.year = 9999 := by
      by_contra hearlier
      have hbound : daysBeforeYear (date.year + 1) ≤ daysBeforeYear 9999 := by
        apply daysBeforeYear_mono
        · omega
        · have hlatest := date.yearRange.2
          omega
      have hshort : daysBeforeYear 9999 < daysBeforeYear 10000 := by decide
      omega
    have hmonths : ∀ month < 12,
        daysBeforeMonth 9999 month + daysInMonth 9999 month < 365 := by
      decide
    have hown : daysBeforeMonth 9999 date.month + date.day = 365 := by
      have hbefore : daysBeforeYear 9999 + 365 = daysBeforeYear 10000 := by
        decide
      rw [CalendarDate.ordinal, hyear] at hlast
      omega
    have hlength := date.dayRange.2
    rw [hyear] at hlength
    have hmonth : date.month = 12 := by
      by_contra hearlier
      have hlatest := date.monthRange.2
      have hshort := hmonths date.month (by omega)
      omega
    rw [hmonth] at hown
    have hdecember : daysBeforeMonth 9999 12 = 334 := rfl
    exact ⟨hyear, hmonth, by omega⟩
  · rintro ⟨hyear, hmonth, hday⟩
    rw [CalendarDate.ordinal, hyear, hmonth, hday]
    rfl

/-- A local time less than a day ahead of UTC or behind it is an instant of the
calendar, unless it is on the first day and nearer to its beginning than the
offset, or on the last and no further from its end. -/
theorem inCalendar_sub_iff (time : LocalTime) {offset : Int}
    (hbehind : -86400 < offset) (hahead : offset < 86400) :
    InCalendar (time.seconds - offset) ↔
      ¬ ((time.date.year = 1 ∧ time.date.month = 1 ∧ time.date.day = 1) ∧
          (time.timeOfDay : Int) < offset) ∧
        ¬ ((time.date.year = 9999 ∧ time.date.month = 12 ∧
            time.date.day = 31) ∧ 86400 ≤ (time.timeOfDay : Int) - offset) := by
  have hfirst := (ordinal_bounds time.date).1
  have hlast := ordinal_le_last time.date
  have htime := timeOfDay_lt time
  have hend : calendarEnd = daysBeforeYear 10000 * 86400 := rfl
  rw [← ordinal_eq_one_iff, ← ordinal_eq_last_iff, InCalendar,
    LocalTime.seconds]
  obtain ⟨last, hyears⟩ : ∃ last, last = daysBeforeYear 10000 := ⟨_, rfl⟩
  rw [← hyears] at hend hlast ⊢
  omega

end Localmail
