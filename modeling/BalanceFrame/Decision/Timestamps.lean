import BalanceFrame.Liquidity.Evidence
import Mathlib.Tactic.IntervalCases

/-!
# Timestamps of a decision card

Model of `CanonicalTimestamp`, `CanonicalDate`, `decimal`, `days_in_month`, `canonical_date`,
`canonical_timestamp`, `obligation_in_horizon` and `category_month`
(`crates/core-protocol/src/decision_card.rs`). The card reads times on its own, as tuples of
calendar fields compared from left to right; the engine under it compares instants.
-/

namespace BalanceFrame.Decision

open Library Liquidity Option

structure CanonicalTimestamp where
  year : Nat
  month : Nat
  day : Nat
  hour : Nat
  minute : Nat
  second : Nat
  nanosecond : Nat
  deriving DecidableEq

structure CanonicalDate where
  year : Nat
  month : Nat
  day : Nat
  deriving DecidableEq

/-- `CanonicalTimestamp::date`, as the fields a comparison goes through. -/
def CanonicalTimestamp.date (t : CanonicalTimestamp) : List Nat := [t.year, t.month, t.day]

def CanonicalDate.date (d : CanonicalDate) : List Nat := [d.year, d.month, d.day]

/-- The derived `<`: fields are compared in the order of their declaration. -/
def CanonicalTimestamp.before (t u : CanonicalTimestamp) : Bool :=
  decide (t.date ++ [t.hour, t.minute, t.second, t.nanosecond] <
    u.date ++ [u.hour, u.minute, u.second, u.nanosecond])

/-- `decimal`, for the two and four digits it is called with: they do not overflow a `u32`. -/
def decimal (b : List Nat) (start length : Nat) : Option Nat :=
  if start + length ≤ b.length then number (slice b start length) else none

def leapYear (year : Nat) : Bool := year % 4 == 0 && (year % 100 != 0 || year % 400 == 0)

def daysInMonth (year : Nat) : Nat → Nat
  | 1 | 3 | 5 | 7 | 8 | 10 | 12 => 31
  | 4 | 6 | 9 | 11 => 30
  | 2 => if leapYear year then 29 else 28
  | _ => 0

def canonicalDate (value : String) : Checked CanonicalDate := do
  let b := bytes value
  reject (b.length != 10 || b[4]? != some 45 || b[7]? != some 45) "invalid_canonical_timestamp"
  let year ← orStop (decimal b 0 4) "invalid_canonical_timestamp"
  let month ← orStop (decimal b 5 2) "invalid_canonical_timestamp"
  let day ← orStop (decimal b 8 2) "invalid_canonical_timestamp"
  reject (month == 0 || day == 0 || decide (daysInMonth year month < day))
    "invalid_canonical_timestamp"
  pure { year := year, month := month, day := day }

/-- `canonical_timestamp`. Nine digits of a fraction fit a `u32`. -/
def canonicalTimestamp (value : String) : Checked CanonicalTimestamp := do
  let b := bytes value
  reject (!isCanonicalShape b) "invalid_canonical_timestamp"
  let year ← orStop (decimal b 0 4) "invalid_canonical_timestamp"
  let month ← orStop (decimal b 5 2) "invalid_canonical_timestamp"
  let day ← orStop (decimal b 8 2) "invalid_canonical_timestamp"
  let hour ← orStop (decimal b 11 2) "invalid_canonical_timestamp"
  let minute ← orStop (decimal b 14 2) "invalid_canonical_timestamp"
  let second ← orStop (decimal b 17 2) "invalid_canonical_timestamp"
  reject (month == 0 || day == 0 || decide (daysInMonth year month < day) || decide (23 < hour) ||
    decide (59 < minute) || decide (60 < second)) "invalid_canonical_timestamp"
  let nanosecond ← orStop (secondFraction b) "invalid_canonical_timestamp"
  pure
    { year := year, month := month, day := day, hour := hour, minute := minute, second := second
      nanosecond := nanosecond }

/-- `obligation_in_horizon`: a bare date counts through the day on which the horizon ends. -/
def obligationInHorizon (dueAt horizonEnd : String) : Bool :=
  match canonicalTimestamp horizonEnd with
  | .error _ => false
  | .ok ends =>
    if (bytes dueAt).length = 10 then
      match canonicalDate dueAt with
      | .error _ => false
      | .ok date => !decide (ends.date < date.date)
    else
      match canonicalTimestamp dueAt with
      | .error _ => false
      | .ok due => due.before ends

/-- `category_month`: the year and the month. -/
def categoryMonth (value : String) : Checked (Nat × Nat) := do
  let b := bytes value
  reject (b.length != 7 || b[4]? != some 45) "invalid_as_of_month"
  let year ← orStop (decimal b 0 4) "invalid_as_of_month"
  let month ← orStop (decimal b 5 2) "invalid_as_of_month"
  reject (month == 0 || decide (12 < month)) "invalid_as_of_month"
  pure (year, month)

/-! ## The order of dates -/

/-- The year that starts in March. -/
def marchYear (c : CivilDate) : Int := if c.month ≤ 2 then c.year - 1 else c.year

/-- The month in that year. -/
def marchMonth (m : Int) : Int := if m ≤ 2 then m + 9 else m - 3

/-- The day in that year. -/
def marchDay (c : CivilDate) : Int := (153 * marchMonth c.month + 2) / 5 + c.day - 1

/-- The days before a year that starts in March. -/
def daysBefore (y : Int) : Int := 365 * y + y / 4 - y / 100 + y / 400

theorem dayNumber_eq (c : CivilDate) :
    c.dayNumber = daysBefore (marchYear c) + marchDay c - 719468 := by
  change marchYear c / 400 * 146097 + (marchYear c % 400 * 365 + marchYear c % 400 / 4 -
    marchYear c % 400 / 100 + marchDay c) - 719468 = _
  have hfour : marchYear c % 400 / 4 = marchYear c / 4 - marchYear c / 400 * 100 := by omega
  have hcent : marchYear c % 400 / 100 = marchYear c / 100 - marchYear c / 400 * 4 := by omega
  rw [hfour, hcent, daysBefore]
  omega

theorem daysBefore_succ (y : Int) :
    daysBefore y + 365 + (if isLeapYear (y + 1) = true then 1 else 0) = daysBefore (y + 1) := by
  have hfour : (y + 1) / 4 = y / 4 + if (y + 1) % 4 = 0 then 1 else 0 := by split <;> omega
  have hcent : (y + 1) / 100 = y / 100 + if (y + 1) % 100 = 0 then 1 else 0 := by split <;> omega
  have hera : (y + 1) / 400 = y / 400 + if (y + 1) % 400 = 0 then 1 else 0 := by split <;> omega
  unfold daysBefore
  rw [hfour, hcent, hera]
  simp only [isLeapYear_iff]
  by_cases h400 : (y + 1) % 400 = 0
  · have h100 : (y + 1) % 100 = 0 := by omega
    have h4 : (y + 1) % 4 = 0 := by omega
    simp only [h400, h100, h4, if_true, true_and, or_true]
    omega
  · by_cases h100 : (y + 1) % 100 = 0
    · have h4 : (y + 1) % 4 = 0 := by omega
      simp only [h400, h100, h4, if_true, if_false, ne_eq, not_true_eq_false, true_and, or_false]
      omega
    · by_cases h4 : (y + 1) % 4 = 0
      · simp only [h400, h100, h4, if_true, if_false, ne_eq, not_false_eq_true, true_and, true_or]
        omega
      · simp only [h400, h100, h4, if_false, false_and]
        omega

theorem daysBefore_mono {y z : Int} (h : y ≤ z) : daysBefore y ≤ daysBefore z := by
  unfold daysBefore
  omega

theorem month_end {y m k : Int} (h1 : 1 ≤ m) (h12 : m ≤ 12) (hk : k ≤ Library.daysInMonth y m) :
    (153 * marchMonth m + 2) / 5 + k ≤ 366 ∧
      (m ≠ 2 → (153 * marchMonth m + 2) / 5 + k ≤ (153 * (marchMonth m + 1) + 2) / 5) ∧
      ((153 * marchMonth m + 2) / 5 + k = 366 → m = 2 ∧ isLeapYear y = true) := by
  unfold Library.daysInMonth at hk
  unfold marchMonth
  by_cases hm : m = 2
  · subst hm
    simp only [if_true] at hk
    split at hk
    · rename_i hleap
      exact ⟨by omega, fun h => absurd rfl h, fun _ => ⟨rfl, hleap⟩⟩
    · exact ⟨by omega, fun h => absurd rfl h, fun h => by omega⟩
  · rw [if_neg hm] at hk
    have hsum : (153 * (if m ≤ 2 then m + 9 else m - 3) + 2) / 5 + k ≤
        (153 * ((if m ≤ 2 then m + 9 else m - 3) + 1) + 2) / 5 := by
      interval_cases m <;> simp at hk ⊢ <;> omega
    have hlast : (153 * ((if m ≤ 2 then m + 9 else m - 3) + 1) + 2) / 5 ≤ 337 := by
      split <;> omega
    exact ⟨by omega, fun _ => hsum, fun h => by omega⟩

theorem marchDay_range {c : CivilDate} (hc : c.isDate = true) :
    0 ≤ marchDay c ∧ marchDay c ≤ 365 ∧
      (marchDay c = 365 → isLeapYear (marchYear c + 1) = true) := by
  simp only [CivilDate.isDate, Bool.and_eq_true, decide_eq_true_eq] at hc
  obtain ⟨⟨⟨h1, h12⟩, hk1⟩, hk⟩ := hc
  obtain ⟨hend, -, hleap⟩ := month_end h1 h12 hk
  have hmonth : 0 ≤ marchMonth c.month := by
    unfold marchMonth
    split <;> omega
  unfold marchDay
  refine ⟨by omega, by omega, fun h => ?_⟩
  obtain ⟨hfeb, hyear⟩ := hleap (by omega)
  unfold marchYear
  rwa [if_pos (by omega), sub_add_cancel]

theorem marchDay_lt {c d : CivilDate} (hc : c.isDate = true) (hd : d.isDate = true)
    (h : marchMonth c.month < marchMonth d.month ∨ c.month = d.month ∧ c.day < d.day) :
    marchDay c < marchDay d := by
  simp only [CivilDate.isDate, Bool.and_eq_true, decide_eq_true_eq] at hc hd
  obtain ⟨⟨⟨h1, h12⟩, -⟩, hk⟩ := hc
  obtain ⟨⟨⟨-, hd12⟩, hdk⟩, -⟩ := hd
  unfold marchDay
  rcases h with hlt | ⟨heq, hday⟩
  · have hnot : c.month ≠ 2 := by
      intro hfeb
      unfold marchMonth at hlt
      split at hlt <;> split at hlt <;> omega
    have hend := (month_end h1 h12 hk).2.1 hnot
    omega
  · rw [heq]
    omega

theorem dayNumber_lt {c d : CivilDate} (hc : c.isDate = true) (hd : d.isDate = true)
    (h : c.year < d.year ∨ c.year = d.year ∧
      (c.month < d.month ∨ c.month = d.month ∧ c.day < d.day)) : c.dayNumber < d.dayNumber := by
  have hyears : marchYear c < marchYear d ∨ marchYear c = marchYear d ∧
      (marchMonth c.month < marchMonth d.month ∨ c.month = d.month ∧ c.day < d.day) := by
    simp only [CivilDate.isDate, Bool.and_eq_true, decide_eq_true_eq] at hc hd
    unfold marchYear marchMonth
    split <;> split <;> omega
  rw [dayNumber_eq, dayNumber_eq]
  rcases hyears with hlt | ⟨heq, hmonths⟩
  · obtain ⟨-, hc365, hleap⟩ := marchDay_range hc
    obtain ⟨hd0, -, -⟩ := marchDay_range hd
    have hsucc := daysBefore_succ (marchYear c)
    have hmono := daysBefore_mono hlt
    split at hsucc
    · omega
    · rename_i hcommon
      have hlast : marchDay c ≠ 365 := fun h => hcommon (hleap h)
      omega
  · have hdays := marchDay_lt hc hd hmonths
    rw [heq]
    omega

/-! ## The engine's instants -/

/-- The date of a timestamp. -/
def CanonicalTimestamp.civil (t : CanonicalTimestamp) : CivilDate := ⟨t.year, t.month, t.day⟩

/-- The moment a timestamp names. -/
def CanonicalTimestamp.moment (t : CanonicalTimestamp) : Int :=
  (t.civil.dayNumber * 86400 + t.hour * 3600 + t.minute * 60 + t.second) * nanosPerSecond +
    t.nanosecond

/-- A timestamp without a leap second. -/
structure CanonicalTimestamp.Regular (t : CanonicalTimestamp) : Prop where
  date : t.civil.isDate = true
  hour : t.hour ≤ 23
  minute : t.minute ≤ 59
  second : t.second ≤ 59
  nanosecond : t.nanosecond < 1000000000

theorem isLeapYear_cast (y : Nat) : isLeapYear y = leapYear y := by
  rw [Bool.eq_iff_iff, isLeapYear_iff]
  simp only [leapYear, Bool.and_eq_true, Bool.or_eq_true, beq_iff_eq, bne_iff_ne]
  omega

theorem daysInMonth_cast {y m : Nat} (h1 : 1 ≤ m) (h12 : m ≤ 12) :
    Library.daysInMonth y m = daysInMonth y m := by
  unfold Library.daysInMonth
  rw [isLeapYear_cast]
  interval_cases m <;> simp [daysInMonth]

theorem isDate_cast {y m k : Nat} (h : (CivilDate.mk y m k).isDate = true) :
    m ≠ 0 ∧ k ≠ 0 ∧ k ≤ daysInMonth y m := by
  simp only [CivilDate.isDate, Bool.and_eq_true, decide_eq_true_eq] at h
  obtain ⟨⟨⟨h1, h12⟩, hk1⟩, hk⟩ := h
  rw [daysInMonth_cast (by omega) (by omega)] at hk
  omega

theorem decimal_of_number {b : List Nat} {start length n : Nat} (hb : start + length ≤ b.length)
    (h : number (slice b start length) = some n) : decimal b start length = some n := by
  rw [decimal, if_pos hb, h]

theorem instant_fields {s : String} {t : Instant} (h : instant s = .ok t) :
    isCanonicalShape (bytes s) = true ∧ ∃ c : CanonicalTimestamp, c.Regular ∧ c.moment = t ∧
      decimal (bytes s) 0 4 = some c.year ∧ decimal (bytes s) 5 2 = some c.month ∧
      decimal (bytes s) 8 2 = some c.day ∧ decimal (bytes s) 11 2 = some c.hour ∧
      decimal (bytes s) 14 2 = some c.minute ∧ decimal (bytes s) 17 2 = some c.second ∧
      secondFraction (bytes s) = some c.nanosecond := by
  unfold instant at h
  simp only [bind_ok, reject_ok, orStop_ok, pure_ok, Except.ok.injEq] at h
  obtain ⟨-, hshape, ⟨seconds, nanos⟩, hparse, -, hleap, rfl⟩ := h
  rw [Bool.not_eq_false'] at hshape
  have hlen : 20 ≤ (bytes s).length := by
    simp only [isCanonicalShape, Bool.and_eq_true, Bool.or_eq_true, beq_iff_eq,
      decide_eq_true_eq] at hshape
    omega
  unfold parseFromRfc3339 at hparse
  simp only [bind_eq_bind, bind_eq_some_iff, ite_none_right_eq_some,
    Option.some.injEq, Prod.mk.injEq, Bool.and_eq_true, decide_eq_true_eq] at hparse
  obtain ⟨year, hy, month, hm, day, hd, hour, hh, minute, hmi, second, hs, fraction, hf,
    ⟨⟨⟨hdate, hh23⟩, hmi59⟩, hs60⟩, rfl, rfl⟩ := hparse
  have hsecond : second ≠ 60 := by
    rintro rfl
    simp only [if_true, decide_eq_false_iff_not, not_le] at hleap
    omega
  simp only [if_neg hsecond, Int.add_zero, decide_eq_false_iff_not, not_le] at hleap ⊢
  have hs59 : second ≤ 59 := by omega
  have hnano : fraction < 1000000000 := by
    unfold nanosPerSecond at hleap
    omega
  have hmin : min second 59 = second := by omega
  refine ⟨hshape, ⟨year, month, day, hour, minute, second, fraction⟩,
    ⟨hdate, hh23, hmi59, hs59, hnano⟩, ?_, decimal_of_number (by omega) hy,
    decimal_of_number (by omega) hm, decimal_of_number (by omega) hd,
    decimal_of_number (by omega) hh, decimal_of_number (by omega) hmi,
    decimal_of_number (by omega) hs, hf⟩
  simp only [CanonicalTimestamp.moment, CanonicalTimestamp.civil, hmin]

/-- **What the engine reads, the card reads**, and as the same moment. -/
theorem canonicalTimestamp_of_instant {s : String} {t : Instant} (h : instant s = .ok t) :
    ∃ c, canonicalTimestamp s = .ok c ∧ c.Regular ∧ c.moment = t := by
  obtain ⟨hshape, c, hc, ht, hy, hm, hd, hh, hmi, hs, hf⟩ := instant_fields h
  refine ⟨c, ?_, hc, ht⟩
  obtain ⟨hm0, hd0, hlast⟩ := isDate_cast hc.date
  have hgood : (c.month == 0 || c.day == 0 || decide (daysInMonth c.year c.month < c.day) ||
      decide (23 < c.hour) || decide (59 < c.minute) || decide (60 < c.second)) = false := by
    simp only [Bool.or_eq_false_iff, beq_eq_false_iff_ne, decide_eq_false_iff_not, not_lt]
    exact ⟨⟨⟨⟨⟨hm0, hd0⟩, hlast⟩, hc.hour⟩, hc.minute⟩, hc.second.trans (by omega)⟩
  unfold canonicalTimestamp
  dsimp only
  simp only [hy, hm, hd, hh, hmi, hs, hf, hshape, Bool.not_true, orStop_some, ok_bind, hgood,
    reject_false, pure_ok]

/-- The second of the day. -/
def CanonicalTimestamp.secondOfDay (t : CanonicalTimestamp) : Int :=
  t.hour * 3600 + t.minute * 60 + t.second

theorem CanonicalTimestamp.moment_eq (t : CanonicalTimestamp) : t.moment =
    (t.civil.dayNumber * 86400 + t.secondOfDay) * 1000000000 + t.nanosecond := by
  unfold moment secondOfDay nanosPerSecond
  omega

theorem moment_lt {t u : CanonicalTimestamp} (ht : t.Regular) (hu : u.Regular)
    (h : t.before u = true) : t.moment < u.moment := by
  simp only [CanonicalTimestamp.before, CanonicalTimestamp.date, List.cons_append, List.nil_append,
    decide_eq_true_eq, List.cons_lt_cons_iff, List.not_lt_nil, and_false, or_false] at h
  obtain ⟨hdate, hh, hm, hs, hn⟩ := ht
  obtain ⟨hdate', hh', hm', hs', hn'⟩ := hu
  have hday : 0 ≤ t.secondOfDay ∧ t.secondOfDay < 86400 := by
    unfold CanonicalTimestamp.secondOfDay
    omega
  have hday' : 0 ≤ u.secondOfDay ∧ u.secondOfDay < 86400 := by
    unfold CanonicalTimestamp.secondOfDay
    omega
  rw [t.moment_eq, u.moment_eq]
  by_cases heq : t.year = u.year ∧ t.month = u.month ∧ t.day = u.day
  · have hciv : t.civil = u.civil := by simp [CanonicalTimestamp.civil, heq]
    have hlater : t.secondOfDay < u.secondOfDay ∨
        t.secondOfDay = u.secondOfDay ∧ t.nanosecond < u.nanosecond := by
      unfold CanonicalTimestamp.secondOfDay
      omega
    rw [hciv]
    omega
  · have hlt : t.civil.dayNumber < u.civil.dayNumber := by
      refine dayNumber_lt hdate hdate' ?_
      unfold CanonicalTimestamp.civil
      dsimp only
      omega
    omega

theorem before_trichotomy (t u : CanonicalTimestamp) :
    t.before u = true ∨ t = u ∨ u.before t = true := by
  simp only [CanonicalTimestamp.before, CanonicalTimestamp.date, List.cons_append, List.nil_append,
    decide_eq_true_eq, List.cons_lt_cons_iff, List.not_lt_nil, and_false, or_false]
  by_cases heq : t = u
  · exact .inr (.inl heq)
  · obtain ⟨y, mo, k, h, mi, s, n⟩ := t
    obtain ⟨y', mo', k', h', mi', s', n'⟩ := u
    simp only [CanonicalTimestamp.mk.injEq] at heq ⊢
    omega

theorem before_iff {t u : CanonicalTimestamp} (ht : t.Regular) (hu : u.Regular) :
    t.before u = true ↔ t.moment < u.moment := by
  refine ⟨moment_lt ht hu, fun h => ?_⟩
  rcases before_trichotomy t u with hlt | rfl | hgt
  · exact hlt
  · exact absurd h (lt_irrefl _)
  · exact absurd (moment_lt hu ht hgt) (not_lt.mpr h.le)

end BalanceFrame.Decision
