import BalanceFrame.Decision.Timestamps
import BalanceFrame.Liquidity.Time
import Mathlib.Data.List.Lex
import Mathlib.Data.String.Basic

/-!
# Timestamps of the stores

Model of `isoTime` (`packages/workflow-store/src/governance.ts`) and `timestampMillis`
(`packages/workflow-store/src/store.ts`), which read the same texts, with `Date.parse` and
`Date.prototype.toISOString`. A time is a number of milliseconds since 1970-01-01T00:00:00Z. As in
`Date.parse`, a day number up to 31 past the end of its month runs on into the next one, 24:00:00
is midnight, and digits of a fraction after the third are dropped.
-/

namespace BalanceFrame.Governance

open Library List Option
open Liquidity (bytes isAsciiDigit number slice pad mem_pad all_pad foldl_pad number_pad
  exists_pad_two exists_pad_four pad_succ bytes_ofList)

def millisPerDay : Int := 86400000

/-- Two or four digits at a place. -/
def digitsAt (b : List Nat) (i w : Nat) : Option Nat :=
  if (slice b i w).length = w then number (slice b i w) else none

/-- The first three digits of a fraction. -/
def fractionMillis (digits : List Nat) : Nat :=
  ((digits ++ [48, 48]).take 3).foldl (fun n b => 10 * n + (b - 48)) 0

/-- `Z`, or a signed offset in minutes. -/
def zoneMinutes (zone : List Nat) : Option Int :=
  match zone with
  | [90] => some 0
  | [sign, _, _, 58, _, _] => do
    let hours ← digitsAt zone 1 2
    let minutes ← digitsAt zone 4 2
    if hours ≤ 23 && minutes ≤ 59 then
      if sign = 43 then some (hours * 60 + minutes)
      else if sign = 45 then some (-(hours * 60 + minutes)) else none
    else none
  | _ => none

/-- The fraction and the zone that follow the seconds. -/
def fractionAndZone (rest : List Nat) : Option (Nat × Int) :=
  match rest with
  | 46 :: tail =>
    let digits := tail.takeWhile isAsciiDigit
    if digits.isEmpty then none
    else (zoneMinutes (tail.dropWhile isAsciiDigit)).map fun z => (fractionMillis digits, z)
  | rest => (zoneMinutes rest).map fun z => (0, z)

def timestampMillis (value : String) : Option Int := do
  let b := bytes value
  let year ← digitsAt b 0 4
  let month ← digitsAt b 5 2
  let day ← digitsAt b 8 2
  let hour ← digitsAt b 11 2
  let minute ← digitsAt b 14 2
  let second ← digitsAt b 17 2
  let (millis, zone) ← fractionAndZone (b.drop 19)
  if b[4]? == some 45 && b[7]? == some 45 && b[10]? == some 84 && b[13]? == some 58 &&
      b[16]? == some 58 && 1 ≤ month && month ≤ 12 && 1 ≤ day && day ≤ 31 &&
      (hour ≤ 23 && minute ≤ 59 && second ≤ 59 ||
        hour == 24 && minute == 0 && second == 0 && millis == 0) then
    some ((CivilDate.mk year month day).dayNumber * millisPerDay + hour * 3600000 +
      minute * 60000 + second * 1000 + millis - zone * 60000)
  else none

/-- `isoTime`: the time, or an error. -/
def isoTime (value : String) : Except String Int :=
  orStop (timestampMillis value) "Invalid governance timestamp"

/-- `new Date(t).toISOString()`: years outside 0000–9999 with a sign and six digits. -/
def isoYear (y : Int) : List Nat :=
  if 0 ≤ y ∧ y ≤ 9999 then pad 4 y.toNat else (if y < 0 then 45 else 43) :: pad 6 y.natAbs

/-- The bytes of `toISOString`. -/
def isoBytes (t : Int) : List Nat :=
  let date := civil (t / millisPerDay)
  let second := (t % millisPerDay / 1000).toNat
  isoYear date.year ++ 45 :: pad 2 date.month.toNat ++ 45 :: pad 2 date.day.toNat ++
    84 :: pad 2 (second / 3600) ++ 58 :: pad 2 (second / 60 % 60) ++ 58 :: pad 2 (second % 60) ++
    46 :: pad 3 (t % 1000).toNat ++ [90]

def toISOString (t : Int) : String := String.ofList ((isoBytes t).map Char.ofNat)

/-- JavaScript's white space and line terminators. -/
def isJsSpace (c : Char) : Bool :=
  [0x9, 0xa, 0xb, 0xc, 0xd, 0x20, 0xa0, 0x1680, 0x2028, 0x2029, 0x202f, 0x205f, 0x3000,
    0xfeff].contains c.toNat || (0x2000 ≤ c.toNat && c.toNat ≤ 0x200a)

/-- `!value.trim()`. -/
def isBlank (value : String) : Bool := value.toList.all isJsSpace

/-! ## The round trip -/

theorem isoBytes_ascii (t : Int) : ∀ b ∈ isoBytes t, b < 128 := by
  have hpad : ∀ {w n b : Nat}, b ∈ pad w n → b < 128 := fun h => by
    have := mem_pad h
    omega
  have hyear : ∀ b ∈ isoYear (civil (t / millisPerDay)).year, b < 128 := by
    intro b hb
    unfold isoYear at hb
    split at hb
    · exact hpad hb
    · rcases mem_cons.mp hb with rfl | hb
      · split <;> omega
      · exact hpad hb
  intro b hb
  simp only [isoBytes, mem_append, mem_cons, not_mem_nil, or_false] at hb
  rcases hb with (((((((h | h | h) | h | h) | h | h) | h | h) | h | h) | h | h) | h)
  all_goals first | exact hpad h | exact hyear b h | omega

theorem exists_pad_three (n : Nat) : ∃ a b c, pad 3 n = [a, b, c] :=
  ⟨_, _, _, by rw [pad_succ, pad_succ, pad_succ]; rfl⟩

theorem fractionAndZone_pad {ms : Nat} (h : ms < 1000) :
    fractionAndZone (46 :: pad 3 ms ++ [90]) = some (ms, 0) := by
  have hfold := foldl_pad ms 3 0
  have hall := all_pad 3 ms
  obtain ⟨a, b, c, e⟩ := exists_pad_three ms
  rw [e] at hfold hall ⊢
  simp only [all_cons, all_nil, Bool.and_true, Bool.and_eq_true] at hall
  obtain ⟨ha, hb, hc⟩ := hall
  have hz : isAsciiDigit 90 = false := by decide
  simp only [fractionAndZone, List.cons_append, nil_append, takeWhile_cons,
    dropWhile_cons, ha, hb, hc, hz, if_true, Bool.false_eq_true, if_false, isEmpty_cons,
    zoneMinutes, map_some, Option.some.injEq, Prod.mk.injEq, and_true]
  simp only [fractionMillis, List.cons_append, nil_append, take_succ_cons,
    take_zero]
  rw [hfold]
  omega

theorem timestampMillis_layout {s : String} (y m d h mi sec ms : Nat) {u : Int} (hy : y < 10 ^ 4)
    (hm : m < 10 ^ 2) (hd : d < 10 ^ 2) (hh : h < 10 ^ 2) (hmi : mi < 10 ^ 2) (hsec : sec < 10 ^ 2)
    (hms : ms < 1000)
    (hb : bytes s = pad 4 y ++ 45 :: pad 2 m ++ 45 :: pad 2 d ++ 84 :: pad 2 h ++ 58 :: pad 2 mi ++
      58 :: pad 2 sec ++ 46 :: pad 3 ms ++ [90])
    (hu : timestampMillis s = some u) :
    u = (CivilDate.mk y m d).dayNumber * millisPerDay + h * 3600000 + mi * 60000 + sec * 1000 +
      ms := by
  have ny := number_pad hy
  have nm := number_pad hm
  have nd := number_pad hd
  have nh := number_pad hh
  have nmi := number_pad hmi
  have ns := number_pad hsec
  have hfz := fractionAndZone_pad hms
  obtain ⟨y3, y2, y1, y0, ey⟩ := exists_pad_four y
  obtain ⟨m1, m0, em⟩ := exists_pad_two m
  obtain ⟨d1, d0, ed⟩ := exists_pad_two d
  obtain ⟨h1, h0, eh⟩ := exists_pad_two h
  obtain ⟨i1, i0, ei⟩ := exists_pad_two mi
  obtain ⟨s1, s0, es⟩ := exists_pad_two sec
  obtain ⟨f2, f1, f0, ef⟩ := exists_pad_three ms
  rw [ey] at ny hb
  rw [em] at nm hb
  rw [ed] at nd hb
  rw [eh] at nh hb
  rw [ei] at nmi hb
  rw [es] at ns hb
  rw [ef] at hfz hb
  have g1 : digitsAt (bytes s) 0 4 = some y := by rw [hb, ← ny]; rfl
  have g2 : digitsAt (bytes s) 5 2 = some m := by rw [hb, ← nm]; rfl
  have g3 : digitsAt (bytes s) 8 2 = some d := by rw [hb, ← nd]; rfl
  have g4 : digitsAt (bytes s) 11 2 = some h := by rw [hb, ← nh]; rfl
  have g5 : digitsAt (bytes s) 14 2 = some mi := by rw [hb, ← nmi]; rfl
  have g6 : digitsAt (bytes s) 17 2 = some sec := by rw [hb, ← ns]; rfl
  have g7 : fractionAndZone ((bytes s).drop 19) = some (ms, 0) := by rw [hb, ← hfz]; rfl
  simp only [timestampMillis, g1, g2, g3, g4, g5, g6, g7, bind_eq_bind,
    bind_some] at hu
  split at hu
  · cases hu
    omega
  · cases hu

theorem digitsAt_sign {b : Nat} (l : List Nat) (h : isAsciiDigit b = false) :
    digitsAt (b :: l) 0 4 = none := by
  unfold digitsAt
  split
  · simp [number, slice, h]
  · rfl

/-- **What `toISOString` writes, where it is read at all, is read back as the same time.** -/
theorem timestampMillis_toISOString {t u : Int} (h : timestampMillis (toISOString t) = some u) :
    u = t := by
  have hb : bytes (toISOString t) = isoBytes t := bytes_ofList (isoBytes_ascii t)
  have hname := dayNumber_civil (t / millisPerDay)
  have hdate := isDate_civil (t / millisPerDay)
  generalize hc : civil (t / millisPerDay) = c at hname hdate
  simp only [CivilDate.isDate, Bool.and_eq_true, decide_eq_true_eq] at hdate
  have hlen : daysInMonth c.year c.month ≤ 31 := by
    unfold daysInMonth
    split <;> split <;> omega
  by_cases hy : 0 ≤ c.year ∧ c.year ≤ 9999
  · have hsec : 0 ≤ t % millisPerDay / 1000 ∧ t % millisPerDay / 1000 < 86400 := by
      unfold millisPerDay
      omega
    have hu := timestampMillis_layout c.year.toNat c.month.toNat c.day.toNat
      ((t % millisPerDay / 1000).toNat / 3600) ((t % millisPerDay / 1000).toNat / 60 % 60)
      ((t % millisPerDay / 1000).toNat % 60) (t % 1000).toNat (by omega) (by omega) (by omega) (by omega) (by omega) (by omega) (by omega)
      (by rw [hb, isoBytes, hc, isoYear, if_pos hy]) h
    have hcivil : CivilDate.mk (c.year.toNat : Int) (c.month.toNat : Int) (c.day.toNat : Int) =
        c := by
      rw [Int.toNat_of_nonneg hy.1, Int.toNat_of_nonneg (by omega), Int.toNat_of_nonneg (by omega)]
    rw [hcivil, hname] at hu
    unfold millisPerDay at *
    omega
  · -- a sign opens the year, so no four digits are read
    have hfirst : digitsAt (bytes (toISOString t)) 0 4 = none := by
      rw [hb, isoBytes, hc, isoYear, if_neg hy]
      exact digitsAt_sign _ (by split <;> decide)
    simp only [timestampMillis, hfirst, bind_eq_bind, bind_none] at h
    cases h

end BalanceFrame.Governance

/-!
## The order of timestamps as texts

The stores compare timestamps as texts. From 1970 to the end of the year 9999, texts of
`toISOString` are in the order of their times; a later year has a sign, which stands before every
digit.
-/

namespace BalanceFrame.Governance

open Library
open Liquidity (bytes pad pad_succ length_pad bytes_ofList)

/-- 10000-01-01T00:00:00Z. -/
def year10000 : Int := 253402300800000

variable {n m w : Nat} {t u : Int}

theorem toNat_ofNat (h : n.isValidChar) : (Char.ofNat n).toNat = n := by
  unfold Char.ofNat
  rw [dif_pos h]
  rfl

theorem append_lt_append {α : Type} [LinearOrder α] {a b : List α} (h : a.length = b.length)
    (x y : List α) : a ++ x < b ++ y ↔ a < b ∨ a = b ∧ x < y := by
  induction a generalizing b with
  | nil =>
    obtain rfl := List.eq_nil_of_length_eq_zero h.symm
    simp
  | cons i a ih =>
    cases b with
    | nil => cases h
    | cons j b =>
      have hrest := ih (Nat.succ.inj h)
      rw [List.cons_append, List.cons_append, List.cons_lt_cons_iff, List.cons_lt_cons_iff, hrest,
        List.cons.injEq]
      tauto

theorem pad_lt_mod (w m n : Nat) : pad w m < pad w n ↔ m % 10 ^ w < n % 10 ^ w := by
  induction w with
  | zero => simp [pad, Nat.mod_one]
  | succ w ih =>
    have hpos : 0 < 10 ^ w := Nat.pow_pos (by decide)
    have hm := Nat.mod_lt m hpos
    have hn := Nat.mod_lt n hpos
    rw [pad_succ, pad_succ, List.cons_lt_cons_iff, ih, Nat.mod_pow_succ, Nat.mod_pow_succ]
    rcases Nat.lt_trichotomy (m / 10 ^ w % 10) (n / 10 ^ w % 10) with hlt | heq | hgt
    · have hle := Nat.mul_le_mul_left (10 ^ w) hlt
      rw [Nat.mul_succ] at hle
      omega
    · rw [heq]
      omega
    · have hle := Nat.mul_le_mul_left (10 ^ w) hgt
      rw [Nat.mul_succ] at hle
      omega

theorem pad_lt (hm : m < 10 ^ w) (hn : n < 10 ^ w) : pad w m < pad w n ↔ m < n := by
  rw [pad_lt_mod, Nat.mod_eq_of_lt hm, Nat.mod_eq_of_lt hn]

theorem pad_eq (hm : m < 10 ^ w) (hn : n < 10 ^ w) : pad w m = pad w n ↔ m = n := by
  refine ⟨fun h => ?_, congrArg (pad w)⟩
  have hmn : ¬ m < n := fun hlt => ((pad_lt hm hn).mpr hlt).ne h
  have hnm : ¬ n < m := fun hlt => ((pad_lt hn hm).mpr hlt).ne h.symm
  omega

theorem pad_append_lt (hm : m < 10 ^ w) (hn : n < 10 ^ w) (x y : List Nat) :
    pad w m ++ x < pad w n ++ y ↔ m < n ∨ m = n ∧ x < y := by
  rw [append_lt_append (by rw [length_pad, length_pad]), pad_lt hm hn, pad_eq hm hn]

theorem cons_lt_cons_same (b : Nat) (x y : List Nat) : b :: x < b :: y ↔ x < y := by
  rw [List.cons_lt_cons_iff]
  simp

/-! ## Fields -/

theorem year_range (h0 : 0 ≤ t) (h1 : t < year10000) :
    1970 ≤ (civil (t / millisPerDay)).year ∧ (civil (t / millisPerDay)).year ≤ 9999 := by
  have hdate := isDate_civil (t / millisPerDay)
  have hday := dayNumber_civil (t / millisPerDay)
  unfold millisPerDay at *
  unfold year10000 at h1
  generalize civil (t / 86400000) = c at hdate hday ⊢
  constructor
  · by_contra hyear
    have hlt := Decision.dayNumber_lt hdate (by decide : (CivilDate.mk 1970 1 1).isDate = true)
      (.inl (not_le.mp hyear))
    have hzero : (CivilDate.mk 1970 1 1).dayNumber = 0 := by decide
    omega
  · by_contra hyear
    have hfirst : (CivilDate.mk 9999 12 31).dayNumber < c.dayNumber :=
      Decision.dayNumber_lt (by decide) hdate (.inl (not_le.mp hyear))
    have hlast : (CivilDate.mk 9999 12 31).dayNumber = 2932896 := by decide
    omega

theorem isoBytes_eq (hyear : 0 ≤ (civil (t / millisPerDay)).year ∧
    (civil (t / millisPerDay)).year ≤ 9999) :
    isoBytes t = pad 4 (civil (t / millisPerDay)).year.toNat ++ 45 ::
      (pad 2 (civil (t / millisPerDay)).month.toNat ++ 45 ::
      (pad 2 (civil (t / millisPerDay)).day.toNat ++ 84 ::
      (pad 2 ((t % millisPerDay / 1000).toNat / 3600) ++ 58 ::
      (pad 2 ((t % millisPerDay / 1000).toNat / 60 % 60) ++ 58 ::
      (pad 2 ((t % millisPerDay / 1000).toNat % 60) ++ 46 ::
      (pad 3 (t % 1000).toNat ++ [90])))))) := by
  unfold isoBytes isoYear
  dsimp only
  rw [if_pos hyear]
  simp only [List.append_assoc, List.cons_append]

theorem year_le (htu : t ≤ u) : (civil (t / millisPerDay)).year ≤ (civil (u / millisPerDay)).year := by
  by_contra hlt
  have hday := Decision.dayNumber_lt (isDate_civil _) (isDate_civil _) (.inl (not_le.mp hlt))
  rw [dayNumber_civil, dayNumber_civil] at hday
  exact absurd (Int.ediv_le_ediv (by decide) htu) (not_le.mpr hday)

/-- **Texts of timestamps are in the order of their times**, as bytes. -/
theorem isoBytes_lt (htu : t < u) (hlow : 0 ≤ (civil (t / millisPerDay)).year)
    (huhigh : (civil (u / millisPerDay)).year ≤ 9999) : isoBytes t < isoBytes u := by
  have hyears := year_le htu.le
  have hthigh := hyears.trans huhigh
  have hulow := hlow.trans hyears
  have htdate := isDate_civil (t / millisPerDay)
  have hudate := isDate_civil (u / millisPerDay)
  have htday := dayNumber_civil (t / millisPerDay)
  have huday := dayNumber_civil (u / millisPerDay)
  rw [isoBytes_eq ⟨hlow, hthigh⟩, isoBytes_eq ⟨hulow, huhigh⟩]
  unfold millisPerDay at *
  generalize civil (t / 86400000) = c at *
  generalize civil (u / 86400000) = d at *
  -- a later date comes on a later day, and on one day the time decides
  have hdates : (c.year < d.year ∨ c.year = d.year ∧
      (c.month < d.month ∨ c.month = d.month ∧ c.day < d.day)) ∨
      c = d ∧ t % 86400000 < u % 86400000 := by
    by_cases hlt : c.year < d.year ∨ c.year = d.year ∧
        (c.month < d.month ∨ c.month = d.month ∧ c.day < d.day)
    · exact .inl hlt
    · by_cases hgt : d.year < c.year ∨ d.year = c.year ∧
          (d.month < c.month ∨ d.month = c.month ∧ d.day < c.day)
      · have := Decision.dayNumber_lt hudate htdate hgt
        omega
      · have hcd : c = d := by
          cases c
          cases d
          simp only [CivilDate.mk.injEq] at hlt hgt ⊢
          omega
        subst hcd
        exact .inr ⟨rfl, by omega⟩
  have hmonth : ∀ y m, daysInMonth y m ≤ 31 := by
    intro y m
    unfold daysInMonth
    split_ifs <;> omega
  have htmonth := hmonth c.year c.month
  have humonth := hmonth d.year d.month
  simp only [CivilDate.isDate, Bool.and_eq_true, decide_eq_true_eq] at htdate hudate
  rw [pad_append_lt (by omega) (by omega), cons_lt_cons_same, pad_append_lt (by omega) (by omega),
    cons_lt_cons_same, pad_append_lt (by omega) (by omega), cons_lt_cons_same,
    pad_append_lt (by omega) (by omega), cons_lt_cons_same, pad_append_lt (by omega) (by omega),
    cons_lt_cons_same, pad_append_lt (by omega) (by omega), cons_lt_cons_same,
    pad_append_lt (by omega) (by omega)]
  rcases hdates with hlt | ⟨rfl, htime⟩
  · omega
  · omega

theorem isoBytes_lt_of_sign (ht : (civil (t / millisPerDay)).year < 0)
    (hu : 0 ≤ (civil (u / millisPerDay)).year ∧ (civil (u / millisPerDay)).year ≤ 9999) :
    isoBytes t < isoBytes u := by
  rw [isoBytes_eq hu, pad_succ]
  unfold isoBytes isoYear
  dsimp only
  rw [if_neg (by omega), if_pos ht]
  simp only [List.cons_append]
  rw [List.cons_lt_cons_iff]
  left
  omega

theorem map_ofNat_lt {a b : List Nat} (ha : ∀ i ∈ a, i < 128) (hb : ∀ i ∈ b, i < 128)
    (h : a < b) : a.map Char.ofNat < b.map Char.ofNat := by
  induction a generalizing b with
  | nil =>
    cases b with
    | nil => exact absurd h (lt_irrefl _)
    | cons j b => exact List.nil_lt_cons _ _
  | cons i a ih =>
    cases b with
    | nil => exact absurd h (List.not_lt_nil _)
    | cons j b =>
      rw [List.forall_mem_cons] at ha hb
      rw [List.map_cons, List.map_cons, List.cons_lt_cons_iff]
      rcases List.cons_lt_cons_iff.mp h with hij | ⟨rfl, hrest⟩
      · refine .inl (show (Char.ofNat i).toNat < (Char.ofNat j).toNat from ?_)
        rwa [toNat_ofNat (.inl (by omega)), toNat_ofNat (.inl (by omega))]
      · exact .inr ⟨rfl, ih ha.2 hb.2 hrest⟩

theorem map_ofNat_inj {a b : List Nat} (ha : ∀ i ∈ a, i < 128) (hb : ∀ i ∈ b, i < 128)
    (h : a.map Char.ofNat = b.map Char.ofNat) : a = b := by
  rcases lt_trichotomy a b with hlt | heq | hgt
  · exact absurd h (map_ofNat_lt ha hb hlt).ne
  · exact heq
  · exact absurd h.symm (map_ofNat_lt hb ha hgt).ne

theorem toISOString_lt_of_year (htu : t < u)
    (hu : 0 ≤ (civil (u / millisPerDay)).year ∧ (civil (u / millisPerDay)).year ≤ 9999) :
    toISOString t < toISOString u := by
  rw [String.lt_iff_toList_lt]
  unfold toISOString
  rw [String.toList_ofList, String.toList_ofList]
  refine map_ofNat_lt (isoBytes_ascii t) (isoBytes_ascii u) ?_
  by_cases hlow : 0 ≤ (civil (t / millisPerDay)).year
  · exact isoBytes_lt htu hlow hu.2
  · exact isoBytes_lt_of_sign (not_le.mp hlow) hu

theorem toISOString_lt (h0 : 0 ≤ t) (htu : t < u) (h1 : u < year10000) :
    toISOString t < toISOString u := by
  obtain ⟨hlow, hhigh⟩ := year_range (h0.trans htu.le) h1
  exact toISOString_lt_of_year htu ⟨by omega, hhigh⟩

theorem toISOString_le (h0 : 0 ≤ t) (htu : t ≤ u) (h1 : u < year10000) :
    ¬ toISOString u < toISOString t := by
  rcases lt_or_eq_of_le htu with hlt | rfl
  · exact lt_asymm (toISOString_lt h0 hlt h1)
  · exact lt_irrefl _

end BalanceFrame.Governance
