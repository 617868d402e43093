import BalanceFrame.Decision.Timestamps

/-!
# Timestamps of a prospective decision

Model of `ParsedTimestamp`, `parse_digits`, `days_in_month`, `days_from_civil` and `parse_rfc3339`
(`crates/core-protocol/src/prospective_decision.rs`). A prospective decision reads times on its own:
with an offset, with at most nine digits of a fraction, and without leap seconds.
-/

namespace BalanceFrame.Prospective

open Library Liquidity Decision Bool Option

structure ParsedTimestamp where
  seconds : Int
  nanoseconds : Nat
  deriving DecidableEq

/-- The derived `<`: the seconds are compared first. -/
def ParsedTimestamp.before (t u : ParsedTimestamp) : Bool :=
  decide (t.seconds < u.seconds) || t.seconds == u.seconds && decide (t.nanoseconds < u.nanoseconds)

def daysInMonth (year : Nat) : Nat → Nat
  | 2 => if year % 4 == 0 && (year % 100 != 0 || year % 400 == 0) then 29 else 28
  | 4 | 6 | 9 | 11 => 30
  | _ => 31

def daysFromCivil (year month day : Nat) : Int :=
  let adjustedYear : Int := if month ≤ 2 then year - 1 else year
  let era := adjustedYear / 400
  let yearOfEra := adjustedYear - era * 400
  let shiftedMonth : Int := if month > 2 then month - 3 else month + 9
  let dayOfYear := (153 * shiftedMonth + 2) / 5 + day - 1
  let dayOfEra := yearOfEra * 365 + yearOfEra / 4 - yearOfEra / 100 + dayOfYear
  era * 146097 + dayOfEra - 719468

/-- The fraction, in nanoseconds, and the position after it. -/
def fraction (b : List Nat) : Option (Nat × Nat) :=
  if b[19]? == some 46 then
    let digits := ((b.drop 20).takeWhile isAsciiDigit).length
    if digits == 0 || 9 < digits then none
    else (decimal b 20 digits).map fun n => (n * 10 ^ (9 - digits), 20 + digits)
  else some (0, 19)

/-- The seconds of the offset that ends the text: a `Z`, or a sign, hours and minutes. -/
def offsetSeconds (b : List Nat) (position : Nat) : Option Int :=
  match b[position]? with
  | some 90 => if position + 1 = b.length then some 0 else none
  | some sign =>
    if (sign == 43 || sign == 45) && position + 6 == b.length && b[position + 3]? == some 58 then do
      let hour ← decimal b (position + 1) 2
      let minute ← decimal b (position + 4) 2
      if 23 < hour || 59 < minute then none
      else some (if sign = 43 then hour * 3600 + minute * 60 else -(hour * 3600 + minute * 60))
    else none
  | none => none

/-- `parse_rfc3339`. Nothing overflows: a year has four digits, and nine digits of a fraction fit a
`u32`. -/
def parseRfc3339 (value : String) : Option ParsedTimestamp := do
  let b := bytes value
  if b.length < 20 || b[4]? != some 45 || b[7]? != some 45 || b[10]? != some 84 ||
      b[13]? != some 58 || b[16]? != some 58 then none
  else
    let year ← decimal b 0 4
    let month ← decimal b 5 2
    let day ← decimal b 8 2
    let hour ← decimal b 11 2
    let minute ← decimal b 14 2
    let second ← decimal b 17 2
    if month < 1 || 12 < month || day == 0 || daysInMonth year month < day || 23 < hour ||
        59 < minute || 59 < second then none
    else
      let (nanoseconds, position) ← fraction b
      let offset ← offsetSeconds b position
      some ⟨daysFromCivil year month day * 86400 + hour * 3600 + minute * 60 + second - offset,
        nanoseconds⟩

/-! ## The engine's instants -/

/-- The moment a timestamp names. -/
def ParsedTimestamp.moment (t : ParsedTimestamp) : Int :=
  t.seconds * nanosPerSecond + t.nanoseconds

theorem before_iff {t u : ParsedTimestamp} (ht : t.nanoseconds < 1000000000)
    (hu : u.nanoseconds < 1000000000) : t.before u = true ↔ t.moment < u.moment := by
  simp only [ParsedTimestamp.before, ParsedTimestamp.moment, nanosPerSecond, or_eq_true,
    and_eq_true, decide_eq_true_eq, beq_iff_eq]
  omega

theorem daysFromCivil_eq (year month day : Nat) :
    daysFromCivil year month day = (CivilDate.mk year month day).dayNumber := by
  unfold daysFromCivil CivilDate.dayNumber
  dsimp only
  by_cases hmonth : month ≤ 2
  · have hint : (month : Int) ≤ 2 := by omega
    rw [if_pos hmonth, if_neg (not_lt.mpr hmonth), if_pos hint, if_pos hint]
    omega
  · have hint : ¬ (month : Int) ≤ 2 := by omega
    rw [if_neg hmonth, if_pos (not_le.mp hmonth), if_neg hint, if_neg hint]
    omega

theorem daysInMonth_eq {year month : Nat} (h1 : 1 ≤ month) (h12 : month ≤ 12) :
    daysInMonth year month = Decision.daysInMonth year month := by
  interval_cases month <;> simp [daysInMonth, Decision.daysInMonth, leapYear]

theorem fraction_of_canonical {b : List Nat} {n : Nat} (hshape : isCanonicalShape b = true)
    (hn : secondFraction b = some n) :
    fraction b = some (n, b.length - 1) ∧ offsetSeconds b (b.length - 1) = some 0 := by
  simp only [isCanonicalShape, and_eq_true, or_eq_true, beq_iff_eq,
    decide_eq_true_eq] at hshape
  obtain ⟨⟨⟨⟨⟨⟨hlen, hlast⟩, -⟩, -⟩, -⟩, -⟩, -⟩ := hshape
  have hpos : 20 ≤ b.length := by omega
  rw [List.getLast?_eq_getElem?] at hlast
  have hzero : offsetSeconds b (b.length - 1) = some 0 := by
    unfold offsetSeconds
    rw [hlast]
    exact if_pos (by omega)
  refine ⟨?_, hzero⟩
  rcases hlen with h20 | ⟨⟨⟨h22, h30⟩, hdot⟩, hdigits⟩
  · rw [secondFraction, if_pos h20] at hn
    have hnine : b[19]? = some 90 := by
      rw [← hlast, h20]
    unfold fraction
    rw [hnine, ← some.inj hn, h20]
    rfl
  · rw [secondFraction, if_neg (by omega)] at hn
    obtain ⟨value, hvalue, rfl⟩ := map_eq_some_iff.mp hn
    have hsplit : b.drop 20 = slice b 20 (b.length - 21) ++ [90] := by
      have htail : (b.drop 20).drop (b.length - 21) = [90] := by
        rw [List.drop_drop, show 20 + (b.length - 21) = b.length - 1 by omega]
        rw [List.drop_eq_getElem_cons (by omega), List.drop_of_length_le (by omega)]
        rw [List.getElem?_eq_getElem (by omega)] at hlast
        rw [some.inj hlast]
      rw [← htail, slice, List.take_append_drop]
    have hwidth : (slice b 20 (b.length - 21)).length = b.length - 21 := by
      rw [slice, List.length_take, List.length_drop]
      omega
    have hrun : (b.drop 20).takeWhile isAsciiDigit = slice b 20 (b.length - 21) := by
      rw [hsplit, List.takeWhile_append_of_pos (List.all_eq_true.mp hdigits)]
      rw [List.takeWhile_cons_of_neg (by decide), List.append_nil]
    unfold fraction
    rw [hdot, hrun, hwidth]
    have hbound : (b.length - 21 == 0 || decide (9 < b.length - 21)) = false := by
      simp only [or_eq_false_iff, beq_eq_false_iff_ne, decide_eq_false_iff_not]
      omega
    simp only [beq_self_eq_true, if_true, hbound, false_eq_true, if_false]
    rw [decimal_of_number (by omega) hvalue]
    have hend : 20 + (b.length - 21) = b.length - 1 := by omega
    rw [map_some, hend]

/-- **What the engine reads, a prospective decision reads**, and as the same moment. -/
theorem parseRfc3339_of_instant {s : String} {t : Instant} (h : instant s = .ok t) :
    ∃ p, parseRfc3339 s = some p ∧ p.nanoseconds < 1000000000 ∧ p.moment = t := by
  unfold instant at h
  simp only [bind_ok, reject_ok, orStop_ok, pure_ok, Except.ok.injEq] at h
  obtain ⟨-, hshape, ⟨seconds, nanos⟩, hparse, -, hleap, rfl⟩ := h
  rw [not_eq_false'] at hshape
  unfold parseFromRfc3339 at hparse
  simp only [bind_eq_bind, bind_eq_some_iff, ite_none_right_eq_some,
    Option.some.injEq, Prod.mk.injEq, and_eq_true, decide_eq_true_eq] at hparse
  obtain ⟨year, hy, month, hm, day, hd, hour, hh, minute, hmi, second, hs, nanoseconds, hf,
    ⟨⟨⟨hdate, hh23⟩, hmi59⟩, hs60⟩, rfl, rfl⟩ := hparse
  have hsecond : second ≠ 60 := by
    rintro rfl
    simp only [if_true, decide_eq_false_iff_not, not_le] at hleap
    omega
  simp only [if_neg hsecond, Int.add_zero, decide_eq_false_iff_not, not_le] at hleap ⊢
  obtain ⟨hm0, hd0, hlast⟩ := isDate_cast hdate
  have hm12 : month ≤ 12 := by
    simp only [CivilDate.isDate, and_eq_true, decide_eq_true_eq] at hdate
    omega
  rw [← daysInMonth_eq (by omega) hm12] at hlast
  obtain ⟨hfraction, hoffset⟩ := fraction_of_canonical hshape hf
  have hopen := hshape
  simp only [isCanonicalShape, and_eq_true, or_eq_true, beq_iff_eq,
    decide_eq_true_eq] at hopen
  obtain ⟨⟨⟨⟨⟨⟨hlen, -⟩, h4⟩, h7⟩, h10⟩, h13⟩, h16⟩ := hopen
  have hpos : 20 ≤ (bytes s).length := by omega
  have hseparated : (decide ((bytes s).length < 20) || (bytes s)[4]? != some 45 ||
      (bytes s)[7]? != some 45 || (bytes s)[10]? != some 84 || (bytes s)[13]? != some 58 ||
      (bytes s)[16]? != some 58) = false := by
    simp [h4, h7, h10, h13, h16, hpos]
  have hfields : (decide (month < 1) || decide (12 < month) || day == 0 ||
      decide (daysInMonth year month < day) || decide (23 < hour) || decide (59 < minute) ||
      decide (59 < second)) = false := by
    simp only [or_eq_false_iff, beq_eq_false_iff_ne, decide_eq_false_iff_not, not_lt]
    omega
  refine ⟨⟨daysFromCivil year month day * 86400 + hour * 3600 + minute * 60 + second - 0,
    nanoseconds⟩, ?_, ?_, ?_⟩
  · unfold parseRfc3339
    dsimp only
    rw [decimal_of_number (by omega) hy, decimal_of_number (by omega) hm,
      decimal_of_number (by omega) hd, decimal_of_number (by omega) hh,
      decimal_of_number (by omega) hmi, decimal_of_number (by omega) hs, hfraction]
    simp only [hseparated, hfields, hoffset, bind_eq_bind, bind_some, if_false,
      false_eq_true]
  · unfold nanosPerSecond at hleap
    dsimp only
    omega
  · have hmin : min second 59 = second := by omega
    simp only [ParsedTimestamp.moment, daysFromCivil_eq, hmin, Int.sub_zero]

/-- **A prospective decision orders the engine's moments as the engine does.** -/
theorem before_of_instants {s u : String} {t v : Instant} {p q : ParsedTimestamp}
    (ht : instant s = .ok t) (hv : instant u = .ok v) (hp : parseRfc3339 s = some p)
    (hq : parseRfc3339 u = some q) : p.before q = true ↔ t < v := by
  obtain ⟨p', hp', hnanos, rfl⟩ := parseRfc3339_of_instant ht
  obtain ⟨q', hq', hnanos', rfl⟩ := parseRfc3339_of_instant hv
  obtain rfl : p = p' := some.inj (hp.symm.trans hp')
  obtain rfl : q = q' := some.inj (hq.symm.trans hq')
  exact before_iff hnanos hnanos'

/-- **What is written is read back.** The engine reads the moments of the years 0000–9999; those it
writes so that it, a decision card and a prospective decision read the same moment. -/
theorem stamp_read_back (t : Instant) : ((∃ s, instant s = .ok t) ↔ Canonical t) ∧
    (Canonical t ↔ instant (stamp t) = .ok t ∧
      (∃ c, canonicalTimestamp (stamp t) = .ok c ∧ c.moment = t) ∧
      ∃ p, parseRfc3339 (stamp t) = some p ∧ p.moment = t) := by
  refine ⟨⟨fun ⟨_, h⟩ => canonical_of_instant h, fun h => ⟨_, instant_stamp h⟩⟩, fun h => ?_,
    fun h => canonical_of_instant h.1⟩
  have hread := instant_stamp h
  obtain ⟨c, hc, -, hmoment⟩ := canonicalTimestamp_of_instant hread
  obtain ⟨p, hp, -, hmoment'⟩ := parseRfc3339_of_instant hread
  exact ⟨hread, ⟨c, hc, hmoment⟩, p, hp, hmoment'⟩

end BalanceFrame.Prospective
