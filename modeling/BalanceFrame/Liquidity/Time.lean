import BalanceFrame.Liquidity.Money
import BalanceFrame.Library.Calendar
import Mathlib.Tactic.Ring

/-!
# Instants

Model of `instant` and `stamp` (`crates/financial-core/src/liquidity_engine.rs`) with the parts of
`chrono` they call. An instant is a number of nanoseconds since 1970-01-01T00:00:00Z; a leap second
never becomes one, because `instant` rejects it. Texts are read as their UTF-8 bytes, as the source
does.
-/

namespace BalanceFrame.Liquidity

open Library List

/-- `DateTime<FixedOffset>`, compared as instants. -/
abbrev Instant := Int

/-- `s.as_bytes()`. -/
def bytes (s : String) : List Nat := s.toList.flatMap fun c => (String.utf8EncodeChar c).map UInt8.toNat

def isAsciiDigit (b : Nat) : Bool := 48 ≤ b && b ≤ 57

/-- The value of a run of ASCII digits. -/
def number (l : List Nat) : Option Nat :=
  if l.all isAsciiDigit then some (l.foldl (fun n b => 10 * n + (b - 48)) 0) else none

/-- `w` bytes from position `i`. -/
def slice (b : List Nat) (i w : Nat) : List Nat := (b.drop i).take w

def nanosPerSecond : Int := 1000000000

def nanosPerDay : Int := 86400000000000

/-- The digits of a fraction, scaled to nanoseconds. -/
def fractionNanos (digits : List Nat) : Option Nat :=
  (number digits).map fun n => n * 10 ^ (9 - digits.length)

/-- The fraction of a timestamp whose shape was checked. -/
def secondFraction (b : List Nat) : Option Nat :=
  if b.length = 20 then some 0 else fractionNanos (slice b 20 (b.length - 21))

/-- `DateTime::parse_from_rfc3339` on bytes whose separators and final `Z` were checked: seconds
and nanoseconds, the latter past a full second for a leap second. -/
def parseFromRfc3339 (b : List Nat) : Option (Int × Int) := do
  let year ← number (slice b 0 4)
  let month ← number (slice b 5 2)
  let day ← number (slice b 8 2)
  let hour ← number (slice b 11 2)
  let minute ← number (slice b 14 2)
  let second ← number (slice b 17 2)
  let nanos ← secondFraction b
  let date : CivilDate := ⟨year, month, day⟩
  if date.isDate && hour ≤ 23 && minute ≤ 59 && second ≤ 60 then
    some (date.dayNumber * 86400 + hour * 3600 + minute * 60 + min second 59,
      nanos + if second = 60 then nanosPerSecond else 0)
  else none

/-- The check on lengths and separators that opens `instant`. -/
def isCanonicalShape (b : List Nat) : Bool :=
  (b.length == 20 || (22 ≤ b.length && b.length ≤ 30 && b[19]? == some 46 &&
    (slice b 20 (b.length - 21)).all isAsciiDigit)) &&
  b.getLast? == some 90 && b[4]? == some 45 && b[7]? == some 45 && b[10]? == some 84 &&
  b[13]? == some 58 && b[16]? == some 58

/-- `instant`: a canonical UTC timestamp. -/
def instant (s : String) : Checked Instant := do
  let b := bytes s
  reject (!isCanonicalShape b) "invalid_canonical_timestamp"
  let parsed ← orStop (parseFromRfc3339 b) "invalid_timestamp"
  reject (decide (nanosPerSecond ≤ parsed.2)) "invalid_canonical_timestamp"
  pure (parsed.1 * nanosPerSecond + parsed.2)

/-- `w` decimal digits of `n`. -/
def pad (w n : Nat) : List Nat := (List.range w).reverse.map fun k => 48 + n / 10 ^ k % 10

/-- A year as `chrono` writes it: four digits, or a sign and at least four. -/
def yearDigits (y : Int) : List Nat :=
  if 0 ≤ y ∧ y ≤ 9999 then pad 4 y.toNat
  else (if y < 0 then 45 else 43) :: pad (max 4 (toString y.natAbs).length) y.natAbs

/-- `SecondsFormat::AutoSi`: no fraction, or three, six or nine digits. -/
def fractionDigits (nanos : Nat) : List Nat :=
  if nanos = 0 then []
  else if nanos % 1000000 = 0 then 46 :: pad 3 (nanos / 1000000)
  else if nanos % 1000 = 0 then 46 :: pad 6 (nanos / 1000)
  else 46 :: pad 9 nanos

/-- The bytes `stamp` writes. -/
def stampBytes (t : Instant) : List Nat :=
  let date := civil (t / nanosPerDay)
  let second := (t % nanosPerDay / nanosPerSecond).toNat
  yearDigits date.year ++ 45 :: pad 2 date.month.toNat ++ 45 :: pad 2 date.day.toNat ++
    84 :: pad 2 (second / 3600) ++ 58 :: pad 2 (second / 60 % 60) ++ 58 :: pad 2 (second % 60) ++
    fractionDigits (t % nanosPerSecond).toNat ++ [90]

/-- `stamp`: `to_rfc3339_opts(AutoSi, true)` in UTC. -/
def stamp (t : Instant) : String := String.ofList ((stampBytes t).map Char.ofNat)

/-- `date_naive()` of a UTC instant, as a day number. -/
def dateNaive (t : Instant) : Int := t / nanosPerDay

theorem encode_ascii :
    ∀ b < 128, (String.utf8EncodeChar (Char.ofNat b)).map UInt8.toNat = [b] := by
  decide

theorem bytes_ofList {l : List Nat} (h : ∀ b ∈ l, b < 128) :
    bytes (String.ofList (l.map Char.ofNat)) = l := by
  rw [bytes, String.toList_ofList]
  induction l with
  | nil => rfl
  | cons b l ih =>
    rw [map_cons, flatMap_cons, encode_ascii b (h b mem_cons_self),
      ih fun c hc => h c (mem_cons_of_mem _ hc)]
    rfl

/-! ## Digits -/

theorem pad_succ (w n : Nat) : pad (w + 1) n = (48 + n / 10 ^ w % 10) :: pad w n := by
  rw [pad, range_succ, reverse_append]
  rfl

theorem length_pad (w n : Nat) : (pad w n).length = w := by
  rw [pad, length_map, length_reverse, length_range]

theorem mem_pad {w n b : Nat} (h : b ∈ pad w n) : 48 ≤ b ∧ b ≤ 57 := by
  obtain ⟨k, -, rfl⟩ := mem_map.mp h
  omega

theorem all_pad (w n : Nat) : (pad w n).all isAsciiDigit = true := by
  rw [all_eq_true]
  intro b hb
  have := mem_pad hb
  simp [isAsciiDigit, this.1, this.2]

theorem foldl_pad (n : Nat) :
    ∀ (w acc : Nat), (pad w n).foldl (fun n b => 10 * n + (b - 48)) acc = acc * 10 ^ w + n % 10 ^ w
  | 0, acc => by simp [pad, Nat.mod_one]
  | w + 1, acc => by
    rw [pad_succ, foldl_cons, foldl_pad n w, Nat.mod_pow_succ, Nat.add_sub_cancel_left, pow_succ]
    ring

theorem number_pad {w n : Nat} (h : n < 10 ^ w) : number (pad w n) = some n := by
  rw [number, if_pos (all_pad w n), foldl_pad, zero_mul, zero_add, Nat.mod_eq_of_lt h]

theorem exists_pad_two (n : Nat) : ∃ a b, pad 2 n = [a, b] :=
  ⟨_, _, by rw [pad_succ, pad_succ]; rfl⟩

theorem exists_pad_four (n : Nat) : ∃ a b c d, pad 4 n = [a, b, c, d] :=
  ⟨_, _, _, _, by rw [pad_succ, pad_succ, pad_succ, pad_succ]; rfl⟩

/-- What `fractionDigits` writes: nothing, or a point and up to nine digits worth the fraction. -/
theorem fractionDigits_spec (nanos : Nat) (h : nanos < 1000000000) :
    (fractionDigits nanos = [] ∧ nanos = 0) ∨
      ∃ digits, fractionDigits nanos = 46 :: digits ∧ 1 ≤ digits.length ∧ digits.length ≤ 9 ∧
        digits.all isAsciiDigit = true ∧ (∀ b ∈ digits, b < 128) ∧
        fractionNanos digits = some nanos := by
  have hcase : ∀ w k : Nat, 1 ≤ w → w ≤ 9 → k < 10 ^ w → nanos = k * 10 ^ (9 - w) →
      ∃ digits, (46 :: pad w k) = 46 :: digits ∧ 1 ≤ digits.length ∧ digits.length ≤ 9 ∧
        digits.all isAsciiDigit = true ∧ (∀ b ∈ digits, b < 128) ∧
        fractionNanos digits = some nanos := by
    intro w k hw1 hw9 hk hnanos
    refine ⟨pad w k, rfl, by rw [length_pad]; exact hw1, by rw [length_pad]; exact hw9,
      all_pad w k, fun b hb => by have := mem_pad hb; omega, ?_⟩
    rw [fractionNanos, number_pad hk, length_pad, Option.map_some, hnanos]
  unfold fractionDigits
  split
  · rename_i h0
    exact Or.inl ⟨rfl, h0⟩
  · right
    split
    · exact hcase 3 _ (by omega) (by omega) (by omega) (by omega)
    · split
      · exact hcase 6 _ (by omega) (by omega) (by omega) (by omega)
      · exact hcase 9 _ (by omega) (by omega) (by omega) (by omega)

/-! ## The round trip -/

/-- The instants of the years 0000–9999. -/
def Canonical (t : Int) : Prop :=
  -719528 * nanosPerDay ≤ t ∧ t < 2932897 * nanosPerDay

theorem year_of_canonical {n : Int} (h0 : -719528 ≤ n) (h1 : n ≤ 2932896) :
    0 ≤ (civil n).year ∧ (civil n).year ≤ 9999 := by
  have hn := dayNumber_civil n
  have hd := isDate_civil n
  generalize civil n = c at *
  obtain ⟨y, m, d⟩ := c
  simp only [CivilDate.isDate, Bool.and_eq_true, decide_eq_true_eq] at hd
  obtain ⟨⟨⟨hm1, hm12⟩, hd1⟩, hd31⟩ := hd
  have hlen : d ≤ 31 := by
    refine hd31.trans ?_
    unfold daysInMonth
    split <;> split <;> omega
  unfold CivilDate.dayNumber at hn
  dsimp only at hn ⊢
  split at hn
  · omega
  · have hyear : y % 400 * 365 + y % 400 / 4 - y % 400 / 100 ≤ 145731 := by omega
    have hmonth : (153 * (m - 3) + 2) / 5 ≤ 275 := by omega
    omega

theorem dayNumber_range {c : CivilDate} (hc : c.isDate = true) (h0 : 0 ≤ c.year)
    (h1 : c.year ≤ 9999) : -719528 ≤ c.dayNumber ∧ c.dayNumber ≤ 2932896 := by
  obtain ⟨y, m, d⟩ := c
  simp only [CivilDate.isDate, Bool.and_eq_true, decide_eq_true_eq] at hc
  obtain ⟨⟨⟨hm1, hm12⟩, hd1⟩, hd31⟩ := hc
  have hlen : d ≤ 31 := by
    refine hd31.trans ?_
    unfold daysInMonth
    split <;> split <;> omega
  unfold CivilDate.dayNumber
  dsimp only at *
  split <;> omega

theorem number_lt {l : List Nat} {n : Nat} (h : number l = some n) : n < 10 ^ l.length := by
  unfold number at h
  split at h
  · rename_i hall
    obtain rfl := Option.some.inj h
    have hfold : ∀ (l : List Nat) (acc : Nat), l.all isAsciiDigit = true →
        l.foldl (fun n b => 10 * n + (b - 48)) acc < (acc + 1) * 10 ^ l.length := by
      intro l
      induction l with
      | nil => intro acc _; simp
      | cons b l ih =>
        intro acc hall
        simp only [all_cons, Bool.and_eq_true, isAsciiDigit, decide_eq_true_eq] at hall
        have hstep := ih (10 * acc + (b - 48)) (by simpa [isAsciiDigit] using hall.2)
        rw [foldl_cons, length_cons, pow_succ]
        calc _ < (10 * acc + (b - 48) + 1) * 10 ^ l.length := hstep
          _ ≤ ((acc + 1) * 10) * 10 ^ l.length := Nat.mul_le_mul_right _ (by omega)
          _ = (acc + 1) * (10 ^ l.length * 10) := by ring
    simpa using hfold l 0 hall
  · exact absurd h (by simp)

/-- **`instant` yields instants of the years 0000–9999 only.** -/
theorem canonical_of_instant {s : String} {t : Int} (h : instant s = .ok t) : Canonical t := by
  simp only [instant, bind_ok, orStop_ok, reject_ok, pure_ok, Except.ok.injEq] at h
  obtain ⟨-, -, p, hp, -, hn, rfl⟩ := h
  unfold parseFromRfc3339 at hp
  simp only [Option.bind_eq_bind, Option.bind_eq_some_iff] at hp
  obtain ⟨year, hyear, month, -, day, -, hour, -, minute, -, second, -, nanos, -, hp⟩ := hp
  split at hp
  · rename_i hvalid
    simp only [Bool.and_eq_true, decide_eq_true_eq] at hvalid
    obtain ⟨⟨⟨hdate, hh⟩, hm⟩, hs⟩ := hvalid
    obtain rfl := Option.some.inj hp
    have hy := number_lt hyear
    have hlen : (slice (bytes s) 0 4).length ≤ 4 := length_take_le _ _
    have hy' : year < 10 ^ 4 := lt_of_lt_of_le hy (Nat.pow_le_pow_right (by omega) hlen)
    have hrange := dayNumber_range hdate (by simp) (by simp; omega)
    have hnanos := of_decide_eq_false hn
    unfold Canonical nanosPerDay
    generalize CivilDate.dayNumber _ = n at *
    unfold nanosPerSecond at hnanos ⊢
    dsimp only at hnanos ⊢
    split at hnanos <;> omega
  · exact absurd hp (by simp)

theorem stampBytes_ascii {t : Int}
    (hy : 0 ≤ (civil (t / nanosPerDay)).year ∧ (civil (t / nanosPerDay)).year ≤ 9999) :
    ∀ b ∈ stampBytes t, b < 128 := by
  have hpad : ∀ {w n b : Nat}, b ∈ pad w n → b < 128 := fun h => by
    have := mem_pad h
    omega
  have hfrac : ∀ b ∈ fractionDigits (t % nanosPerSecond).toNat, b < 128 := by
    rcases fractionDigits_spec (t % nanosPerSecond).toNat
      (by unfold nanosPerSecond; omega) with ⟨h, -⟩ | ⟨digits, h, -, -, -, hall, -⟩
    · rw [h]
      simp
    · rw [h]
      intro b hb
      rcases mem_cons.mp hb with rfl | hb
      · omega
      · exact hall b hb
  intro b hb
  simp only [stampBytes, yearDigits, if_pos hy, mem_append, mem_cons,
    not_mem_nil, or_false] at hb
  rcases hb with (((((((h | h | h) | h | h) | h | h) | h | h) | h | h) | h) | h)
  all_goals first | exact hpad h | exact hfrac b h | omega

/-- A text in the canonical layout: its shape is accepted and its fields are read where they
stand. -/
theorem parse_layout {y m d h : Nat} (mi sec nanos : Nat) (hy : y < 10 ^ 4) (hm : m < 10 ^ 2)
    (hd : d < 10 ^ 2) (hh : h < 24) (hmi : mi < 60) (hsec : sec < 60) (hnanos : nanos < 1000000000)
    (hdate : (CivilDate.mk y m d).isDate = true) {b : List Nat}
    (hb : b = pad 4 y ++ 45 :: pad 2 m ++ 45 :: pad 2 d ++ 84 :: pad 2 h ++ 58 :: pad 2 mi ++
      58 :: pad 2 sec ++ fractionDigits nanos ++ [90]) :
    isCanonicalShape b = true ∧ parseFromRfc3339 b =
      some ((CivilDate.mk y m d).dayNumber * 86400 + h * 3600 + mi * 60 + sec, (nanos : Int)) := by
  have nm := number_pad hm
  have nd := number_pad hd
  have nh := number_pad (w := 2) (n := h) (by omega)
  have nmi := number_pad (w := 2) (n := mi) (by omega)
  have ns := number_pad (w := 2) (n := sec) (by omega)
  have ny := number_pad hy
  obtain ⟨y3, y2, y1, y0, ey⟩ := exists_pad_four y
  obtain ⟨m1, m0, em⟩ := exists_pad_two m
  obtain ⟨d1, d0, ed⟩ := exists_pad_two d
  obtain ⟨h1, h0, eh⟩ := exists_pad_two h
  obtain ⟨i1, i0, ei⟩ := exists_pad_two mi
  obtain ⟨s1, s0, es⟩ := exists_pad_two sec
  rw [ey] at ny hb
  rw [em] at nm hb
  rw [ed] at nd hb
  rw [eh] at nh hb
  rw [ei] at nmi hb
  rw [es] at ns hb
  -- the fraction is empty, or a point and its digits
  have hparse : ∀ fr, secondFraction b = some fr → fr = nanos →
      parseFromRfc3339 b =
        some ((CivilDate.mk y m d).dayNumber * 86400 + h * 3600 + mi * 60 + sec, (nanos : Int)) := by
    rintro fr hfr rfl
    have g1 : slice b 0 4 = [y3, y2, y1, y0] := by rw [hb]; rfl
    have g2 : slice b 5 2 = [m1, m0] := by rw [hb]; rfl
    have g3 : slice b 8 2 = [d1, d0] := by rw [hb]; rfl
    have g4 : slice b 11 2 = [h1, h0] := by rw [hb]; rfl
    have g5 : slice b 14 2 = [i1, i0] := by rw [hb]; rfl
    have g6 : slice b 17 2 = [s1, s0] := by rw [hb]; rfl
    have hs60 : sec ≠ 60 := by omega
    have hmin : min sec 59 = sec := by omega
    simp only [parseFromRfc3339, g1, g2, g3, g4, g5, g6, ny, nm, nd, nh, nmi, ns, hfr,
      Option.bind_eq_bind, Option.bind_some, hdate, Bool.true_and]
    rw [if_pos (by simp only [Bool.and_eq_true, decide_eq_true_eq]; omega), if_neg hs60, hmin,
      add_zero]
  rcases fractionDigits_spec nanos hnanos with ⟨hf, h0'⟩ | ⟨digits, hf, h1', h9, hall, -, hval⟩
  · rw [hf] at hb
    have hlen : b.length = 20 := by rw [hb]; rfl
    refine ⟨?_, hparse 0 (if_pos hlen) h0'.symm⟩
    rw [hb]
    rfl
  · rw [hf] at hb
    have hlen : b.length = 21 + digits.length := by
      rw [hb]
      simp
      omega
    have hslice : slice b 20 (b.length - 21) = digits := by
      rw [hlen, Nat.add_sub_cancel_left, hb]
      exact take_left' rfl
    refine ⟨?_, hparse nanos ?_ rfl⟩
    · have hlast : b.getLast? = some 90 := by
        rw [hb, getLast?_concat]
      have hshape : b[19]? = some 46 ∧ b[4]? = some 45 ∧ b[7]? = some 45 ∧ b[10]? = some 84 ∧
          b[13]? = some 58 ∧ b[16]? = some 58 := by
        rw [hb]
        exact ⟨rfl, rfl, rfl, rfl, rfl, rfl⟩
      obtain ⟨e19, e4, e7, e10, e13, e16⟩ := hshape
      unfold isCanonicalShape
      rw [hslice, hall, hlast, e19, e4, e7, e10, e13, e16, hlen]
      simp only [beq_self_eq_true, Bool.and_true, Bool.or_eq_true, Bool.and_eq_true,
        decide_eq_true_eq]
      exact Or.inr ⟨by omega, by omega⟩
    · rw [secondFraction, if_neg (by omega), hslice, hval]

theorem instant_stamp {t : Int} (h : Canonical t) : instant (stamp t) = .ok t := by
  have hday : -719528 ≤ t / nanosPerDay ∧ t / nanosPerDay ≤ 2932896 := by
    unfold Canonical nanosPerDay at h
    unfold nanosPerDay
    omega
  have hy := year_of_canonical hday.1 hday.2
  have hb : bytes (stamp t) = stampBytes t := bytes_ofList (stampBytes_ascii hy)
  have hdate := isDate_civil (t / nanosPerDay)
  have hname := dayNumber_civil (t / nanosPerDay)
  have hsec : (t % nanosPerDay / nanosPerSecond).toNat < 86400 := by
    unfold nanosPerDay nanosPerSecond
    omega
  have hfields : 0 ≤ (civil (t / nanosPerDay)).month ∧ (civil (t / nanosPerDay)).month ≤ 12 ∧
      0 ≤ (civil (t / nanosPerDay)).day ∧ (civil (t / nanosPerDay)).day ≤ 31 := by
    simp only [CivilDate.isDate, Bool.and_eq_true, decide_eq_true_eq] at hdate
    have hlen : daysInMonth (civil (t / nanosPerDay)).year (civil (t / nanosPerDay)).month ≤ 31 := by
      unfold daysInMonth
      split <;> split <;> omega
    omega
  have hsplit : t = t / nanosPerDay * nanosPerDay +
      (t % nanosPerDay / nanosPerSecond) * nanosPerSecond + t % nanosPerSecond := by
    unfold nanosPerDay nanosPerSecond
    omega
  have hcivil : CivilDate.mk ((civil (t / nanosPerDay)).year.toNat : Int)
      ((civil (t / nanosPerDay)).month.toNat : Int) ((civil (t / nanosPerDay)).day.toNat : Int) =
      civil (t / nanosPerDay) := by
    rw [Int.toNat_of_nonneg hy.1, Int.toNat_of_nonneg hfields.1, Int.toNat_of_nonneg hfields.2.2.1]
  have hnonneg : 0 ≤ t % nanosPerDay / nanosPerSecond := by
    unfold nanosPerDay nanosPerSecond
    omega
  have hnanos : 0 ≤ t % nanosPerSecond ∧ t % nanosPerSecond < nanosPerSecond := by
    unfold nanosPerSecond
    omega
  obtain ⟨hshape, hparse⟩ := parse_layout (y := (civil (t / nanosPerDay)).year.toNat)
    (m := (civil (t / nanosPerDay)).month.toNat) (d := (civil (t / nanosPerDay)).day.toNat)
    (h := (t % nanosPerDay / nanosPerSecond).toNat / 3600)
    ((t % nanosPerDay / nanosPerSecond).toNat / 60 % 60)
    ((t % nanosPerDay / nanosPerSecond).toNat % 60) (t % nanosPerSecond).toNat (b := stampBytes t) (by omega) (by omega) (by omega)
    (by omega) (by omega) (by omega) (by unfold nanosPerSecond at hnanos ⊢; omega)
    (by rw [hcivil]; exact hdate)
    (by simp only [stampBytes, yearDigits, if_pos hy])
  rw [hcivil, hname, Int.toNat_of_nonneg hnanos.1] at hparse
  have hvalue : ((t / nanosPerDay * 86400 +
      ((t % nanosPerDay / nanosPerSecond).toNat / 3600 : Nat) * 3600 +
      ((t % nanosPerDay / nanosPerSecond).toNat / 60 % 60 : Nat) * 60 +
      ((t % nanosPerDay / nanosPerSecond).toNat % 60 : Nat) : Int)) * nanosPerSecond +
      t % nanosPerSecond = t := by
    have hsum : (((t % nanosPerDay / nanosPerSecond).toNat / 3600 : Nat) : Int) * 3600 +
        ((t % nanosPerDay / nanosPerSecond).toNat / 60 % 60 : Nat) * 60 +
        ((t % nanosPerDay / nanosPerSecond).toNat % 60 : Nat) = t % nanosPerDay / nanosPerSecond := by
      omega
    rw [add_assoc, add_assoc, ← add_assoc (_ * 3600), hsum]
    conv_rhs => rw [hsplit]
    unfold nanosPerDay nanosPerSecond
    ring
  simp only [instant, hb, hshape, Bool.not_true, reject_false, ok_bind, hparse, orStop_some,
    hvalue, pure_ok]
  rw [show decide (nanosPerSecond ≤ t % nanosPerSecond) = false from
    decide_eq_false (not_le.mpr hnanos.2)]
  rfl

end BalanceFrame.Liquidity
