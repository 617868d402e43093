import Mathlib.Algebra.Order.Ring.Int

/-!
# The proleptic Gregorian calendar

Day numbers count from 1970-01-01. Years run from March inside a 400-year era of 146097 days, so
that a leap day is the last day of its year. `civil` splits an era into centuries, four-year cycles
and years; `dayNumber` puts a date together again. `dayNumber_civil` and `isDate_civil` are the
round trip: every day has a valid date that names it.
-/

namespace BalanceFrame.Library

/-- A civil date. -/
structure CivilDate where
  year : Int
  month : Int
  day : Int
  deriving DecidableEq, Repr

/-- Leap years. -/
def isLeapYear (y : Int) : Bool := y % 4 == 0 && (y % 100 != 0 || y % 400 == 0)

/-- The length of a month. -/
def daysInMonth (y m : Int) : Int :=
  if m = 2 then (if isLeapYear y then 29 else 28)
  else if m = 4 ∨ m = 6 ∨ m = 9 ∨ m = 11 then 30 else 31

/-- The date exists. -/
def CivilDate.isDate (c : CivilDate) : Bool :=
  1 ≤ c.month && c.month ≤ 12 && 1 ≤ c.day && c.day ≤ daysInMonth c.year c.month

/-- The number of a date's day. -/
def CivilDate.dayNumber (c : CivilDate) : Int :=
  let y := if c.month ≤ 2 then c.year - 1 else c.year
  let monthOfYear := if c.month ≤ 2 then c.month + 9 else c.month - 3
  let dayOfYear := (153 * monthOfYear + 2) / 5 + c.day - 1
  let dayOfEra := y % 400 * 365 + y % 400 / 4 - y % 400 / 100 + dayOfYear
  y / 400 * 146097 + dayOfEra - 719468

/-- Century, four-year cycle, year and day inside an era, the last of each taking its leap day. -/
structure EraDay where
  century : Int
  cycle : Int
  year : Int
  day : Int

/-- Split a day of an era. -/
def eraDay (dayOfEra : Int) : EraDay :=
  let century := min (dayOfEra / 36524) 3
  let dayOfCentury := dayOfEra - 36524 * century
  let cycle := dayOfCentury / 1461
  let dayOfCycle := dayOfCentury - 1461 * cycle
  let year := min (dayOfCycle / 365) 3
  { century := century, cycle := cycle, year := year, day := dayOfCycle - 365 * year }

/-- The date of a day. -/
def civil (n : Int) : CivilDate :=
  let e := eraDay ((n + 719468) % 146097)
  let y := (n + 719468) / 146097 * 400 + (100 * e.century + 4 * e.cycle + e.year)
  let monthOfYear := (5 * e.day + 2) / 153
  let month := if monthOfYear < 10 then monthOfYear + 3 else monthOfYear - 9
  { year := if month ≤ 2 then y + 1 else y
    month := month
    day := e.day - (153 * monthOfYear + 2) / 5 + 1 }

/-- Day of the week, Monday first: `1` to `7`. -/
def weekdayFromMonday (n : Int) : Int := (n + 3) % 7 + 1

/-- What `eraDay` guarantees. -/
structure EraDay.Valid (d : Int) (e : EraDay) : Prop where
  century : 0 ≤ e.century ∧ e.century ≤ 3
  cycle : 0 ≤ e.cycle ∧ e.cycle ≤ 24
  year : 0 ≤ e.year ∧ e.year ≤ 3
  day : 0 ≤ e.day ∧ e.day ≤ 365
  sum : 36524 * e.century + 1461 * e.cycle + 365 * e.year + e.day = d
  leap : e.day = 365 → e.year = 3 ∧ (e.cycle = 24 → e.century = 3)

theorem eraDay_valid {d : Int} (h0 : 0 ≤ d) (h1 : d ≤ 146096) : (eraDay d).Valid d := by
  unfold eraDay
  constructor <;> dsimp only <;> omega

theorem dayNumber_civil (n : Int) : (civil n).dayNumber = n := by
  have hv := eraDay_valid (d := (n + 719468) % 146097) (by omega) (by omega)
  obtain ⟨hc, hq, hy, hd, hsum, -⟩ := hv
  unfold civil CivilDate.dayNumber
  generalize eraDay ((n + 719468) % 146097) = e at *
  dsimp only
  generalize hera : (n + 719468) / 146097 = era
  generalize hyear : era * 400 + (100 * e.century + 4 * e.cycle + e.year) = y
  have hdiv : y / 400 = era := by omega
  have hmod : y % 400 = 100 * e.century + 4 * e.cycle + e.year := by omega
  have h4 : (100 * e.century + 4 * e.cycle + e.year) / 4 = 25 * e.century + e.cycle := by omega
  have h100 : (100 * e.century + 4 * e.cycle + e.year) / 100 = e.century := by omega
  by_cases hm : (5 * e.day + 2) / 153 < 10
  · have h2 : ¬ ((5 * e.day + 2) / 153 + 3 ≤ 2) := by omega
    simp only [hm, if_true, h2, if_false, add_sub_cancel_right, hdiv, h4, h100, hmod]
    omega
  · have h2 : (5 * e.day + 2) / 153 - 9 ≤ 2 := by omega
    simp only [hm, if_false, h2, if_true, add_sub_cancel_right, sub_add_cancel, hdiv, h4, h100,
      hmod]
    omega

theorem isLeapYear_iff (y : Int) :
    isLeapYear y = true ↔ y % 4 = 0 ∧ (y % 100 ≠ 0 ∨ y % 400 = 0) := by
  simp [isLeapYear]

theorem isDate_civil (n : Int) : (civil n).isDate = true := by
  have hv := eraDay_valid (d := (n + 719468) % 146097) (by omega) (by omega)
  obtain ⟨hc, hq, hy, hd, hsum, hleap⟩ := hv
  unfold civil CivilDate.isDate
  generalize eraDay ((n + 719468) % 146097) = e at *
  dsimp only
  simp only [Bool.and_eq_true, decide_eq_true_eq]
  by_cases hm : (5 * e.day + 2) / 153 < 10
  · simp only [hm, if_true]
    refine ⟨⟨⟨by omega, by omega⟩, by omega⟩, ?_⟩
    unfold daysInMonth
    have h2 : ¬ ((5 * e.day + 2) / 153 + 3 = 2) := by omega
    simp only [h2, if_false]
    split <;> omega
  · simp only [hm, if_false]
    have h2 : (5 * e.day + 2) / 153 - 9 ≤ 2 := by omega
    simp only [h2, if_true]
    refine ⟨⟨⟨by omega, by omega⟩, by omega⟩, ?_⟩
    unfold daysInMonth
    split
    · -- February: the leap day is day 365 of a year that ends in a leap year
      by_cases h365 : e.day = 365
      · obtain ⟨h3, h24⟩ := hleap h365
        rw [if_pos]
        · omega
        · rw [isLeapYear_iff]
          omega
      · split <;> omega
    · split <;> omega

end BalanceFrame.Library
