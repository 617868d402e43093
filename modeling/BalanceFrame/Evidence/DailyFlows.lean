import BalanceFrame.Decision.Timestamps
import BalanceFrame.Evidence.CaptureOrder
import BalanceFrame.Evidence.Check
import BalanceFrame.Evidence.Resolve
import BalanceFrame.Library.DailySums
import Mathlib.Data.List.Lex
import Mathlib.Data.String.Basic

/-!
# The order of dates as texts

The evidence compares dates as texts and counts them as ordinals. On the texts that have an ordinal
the two orders are the same: such a text is `DateDigits`, four, two and two digits with a dash
between, so texts are in the order of year, month and day, and so are the days.
-/

namespace BalanceFrame.Evidence

open Library List Option
open Liquidity (bytes codePoints isAsciiDigit number isWhitespace scanNumber scanYear
  scanTwoDigits scanDash parseNaiveDate encode_ascii)

/-! ## Bytes and characters -/

theorem utf8EncodeChar_head {c : Char} (h : 128 ≤ c.toNat) :
    ∃ b rest, String.utf8EncodeChar c = b :: rest ∧ 128 ≤ b.toNat := by
  have hv : 127 < c.val.toNat := h
  unfold String.utf8EncodeChar
  dsimp only
  rw [if_neg (by omega)]
  split
  · exact ⟨_, _, rfl, by rw [UInt8.toNat_ofNat']; omega⟩
  · split
    · exact ⟨_, _, rfl, by rw [UInt8.toNat_ofNat']; omega⟩
    · exact ⟨_, _, rfl, by rw [UInt8.toNat_ofNat']; omega⟩

theorem map_toNat_eq_bytes {l : List Char}
    (h : ∀ b ∈ l.flatMap fun c => (String.utf8EncodeChar c).map UInt8.toNat, b < 128) :
    l.map Char.toNat = l.flatMap fun c => (String.utf8EncodeChar c).map UInt8.toNat := by
  induction l with
  | nil => rfl
  | cons c l ih =>
    rw [flatMap_cons] at h
    have hc : c.toNat < 128 := by
      by_contra hc
      obtain ⟨b, rest, heq, hb⟩ := utf8EncodeChar_head (not_lt.mp hc)
      have := h b.toNat (List.mem_append_left _ (by rw [heq]; exact List.mem_cons_self))
      omega
    have hone := encode_ascii c.toNat hc
    rw [Char.ofNat_toNat] at hone
    rw [map_cons, flatMap_cons, hone, ih fun b hb => h b (List.mem_append_right _ hb)]
    rfl

variable {s : String}

theorem codePoints_eq_bytes (h : ∀ b ∈ bytes s, b < 128) : codePoints s = bytes s :=
  map_toNat_eq_bytes h

/-! ## The digits of a date -/

/-- A text `dddd-dd-dd`. -/
structure DateDigits where
  (y₁ y₂ y₃ y₄ m₁ m₂ d₁ d₂ : Nat)
  bounds : ∀ n ∈ [y₁, y₂, y₃, y₄, m₁, m₂, d₁, d₂], 48 ≤ n ∧ n ≤ 57

namespace DateDigits

def text (c : DateDigits) : List Nat := [c.y₁, c.y₂, c.y₃, c.y₄, 45, c.m₁, c.m₂, 45, c.d₁, c.d₂]

def year (c : DateDigits) : Nat :=
  1000 * (c.y₁ - 48) + 100 * (c.y₂ - 48) + 10 * (c.y₃ - 48) + (c.y₄ - 48)

def month (c : DateDigits) : Nat := 10 * (c.m₁ - 48) + (c.m₂ - 48)

def day (c : DateDigits) : Nat := 10 * (c.d₁ - 48) + (c.d₂ - 48)

def civil (c : DateDigits) : CivilDate := ⟨c.year, c.month, c.day⟩

theorem lt_of_text_lt {c e : DateDigits} (h : c.text < e.text) :
    c.civil.year < e.civil.year ∨ c.civil.year = e.civil.year ∧
      (c.civil.month < e.civil.month ∨
        c.civil.month = e.civil.month ∧ c.civil.day < e.civil.day) := by
  obtain ⟨y₁, y₂, y₃, y₄, m₁, m₂, d₁, d₂, hc⟩ := c
  obtain ⟨y₁', y₂', y₃', y₄', m₁', m₂', d₁', d₂', he⟩ := e
  simp only [forall_mem_cons, not_mem_nil, false_implies, implies_true, and_true] at hc he
  simp only [text, cons_lt_cons_iff, lt_irrefl, false_or, true_and,
    and_false, or_false] at h
  simp only [civil, year, month, day]
  omega

end DateDigits

theorem exists_of_shape {b : List Nat} (h : isDateShape b = true) :
    ∃ c : DateDigits, b = c.text := by
  unfold isDateShape at h
  rw [Bool.and_eq_true, beq_iff_eq] at h
  obtain ⟨hlen, hall⟩ := h
  obtain ⟨y₁, y₂, y₃, y₄, s, m₁, m₂, t, d₁, d₂, rfl⟩ :
      ∃ y₁ y₂ y₃ y₄ s m₁ m₂ t d₁ d₂, b = [y₁, y₂, y₃, y₄, s, m₁, m₂, t, d₁, d₂] := by
    match b, hlen with
    | [y₁, y₂, y₃, y₄, s, m₁, m₂, t, d₁, d₂], _ => exact ⟨_, _, _, _, _, _, _, _, _, _, rfl⟩
  simp [isAsciiDigit, List.zipIdx] at hall
  obtain ⟨h1, h2, h3, h4, rfl, h5, h6, rfl, h7, h8⟩ := hall
  exact ⟨⟨y₁, y₂, y₃, y₄, m₁, m₂, d₁, d₂, by simp [*]⟩, rfl⟩

theorem isWhitespace_digit {n : Nat} (h : 48 ≤ n ∧ n ≤ 57) : isWhitespace n = false := by
  unfold isWhitespace
  simp
  omega

theorem isAsciiDigit_iff {n : Nat} : isAsciiDigit n = true ↔ 48 ≤ n ∧ n ≤ 57 := by
  unfold isAsciiDigit
  rw [Bool.and_eq_true, decide_eq_true_iff, decide_eq_true_iff]

theorem scanTwoDigits_digits {a b : Nat} (ha : 48 ≤ a ∧ a ≤ 57) (hb : 48 ≤ b ∧ b ≤ 57)
    (rest : List Nat) :
    scanTwoDigits (a :: b :: rest) = some (10 * (a - 48) + (b - 48), rest) := by
  have hda := isAsciiDigit_iff.mpr ha
  have hdb := isAsciiDigit_iff.mpr hb
  simp [scanTwoDigits, isWhitespace_digit ha, scanNumber, number, List.takeWhile, hda, hdb]

theorem scanYear_digits {a b c d : Nat} (ha : 48 ≤ a ∧ a ≤ 57) (hb : 48 ≤ b ∧ b ≤ 57)
    (hc : 48 ≤ c ∧ c ≤ 57) (hd : 48 ≤ d ∧ d ≤ 57) (rest : List Nat) :
    scanYear (a :: b :: c :: d :: rest) =
      some (((1000 * (a - 48) + 100 * (b - 48) + 10 * (c - 48) + (d - 48) : Nat) : Int), rest) := by
  have hnum : scanNumber 4 (a :: b :: c :: d :: rest) =
      some (1000 * (a - 48) + 100 * (b - 48) + 10 * (c - 48) + (d - 48), rest) := by
    simp [scanNumber, number, List.takeWhile, isAsciiDigit_iff.mpr ha, isAsciiDigit_iff.mpr hb,
      isAsciiDigit_iff.mpr hc, isAsciiDigit_iff.mpr hd]
    omega
  unfold scanYear
  rw [dropWhile_cons_of_neg (by rw [isWhitespace_digit ha]; exact Bool.false_ne_true)]
  split
  · rename_i heq
    cases heq
    omega
  · rename_i heq
    cases heq
    omega
  · rw [hnum]
    rfl

theorem exists_digits {n : Int} (h : evidenceDateOrdinal s = some n) :
    ∃ c : DateDigits, codePoints s = c.text ∧ c.civil.isDate = true ∧
      n = c.civil.dayNumber + 719163 := by
  unfold evidenceDateOrdinal at h
  split at h
  · cases h
  · rename_i hshape
    obtain ⟨c, hc⟩ := exists_of_shape (by simpa using hshape)
    have hcode : codePoints s = c.text := by
      rw [← hc]
      refine codePoints_eq_bytes fun b hb => ?_
      rw [hc] at hb
      have := c.bounds
      simp only [DateDigits.text, mem_cons, not_mem_nil, or_false] at hb
      simp only [forall_mem_cons, not_mem_nil, false_implies, implies_true,
        and_true] at this
      omega
    obtain ⟨day, hday, h⟩ := bind_eq_some_iff.mp h
    rw [ite_none_right_eq_some, Option.some.injEq] at h
    obtain ⟨-, rfl⟩ := h
    have hb := c.bounds
    simp only [forall_mem_cons, not_mem_nil, false_implies, implies_true, and_true] at hb
    obtain ⟨h1, h2, h3, h4, h5, h6, h7, h8⟩ := hb
    unfold parseNaiveDate at hday
    rw [hcode, DateDigits.text, scanYear_digits h1 h2 h3 h4] at hday
    simp only [bind_eq_bind, bind_some, scanDash, scanTwoDigits_digits h5 h6,
      scanTwoDigits_digits h7 h8, ite_none_right_eq_some, Option.some.injEq,
      Bool.and_eq_true] at hday
    exact ⟨c, hcode, hday.1.2, by rw [← hday.2]; rfl⟩

/-! ## The order -/

theorem map_toNat_lt {l l' : List Char} : l.map Char.toNat < l'.map Char.toNat ↔ l < l' := by
  induction l generalizing l' with
  | nil =>
    cases l' with
    | nil => simp
    | cons d l' => simp
  | cons c l ih =>
    cases l' with
    | nil => simp
    | cons d l' =>
      rw [map_cons, map_cons, cons_lt_cons_iff, cons_lt_cons_iff, ih,
        Char.toNat_inj]
      rfl

theorem codePoints_lt {t : String} : codePoints s < codePoints t ↔ s < t := by
  rw [String.lt_iff_toList_lt]
  exact map_toNat_lt

theorem ordinal_lt_of_lt {t : String} {m n : Int} (hs : evidenceDateOrdinal s = some m)
    (ht : evidenceDateOrdinal t = some n) (h : s < t) : m < n := by
  obtain ⟨c, hc, hdate, rfl⟩ := exists_digits hs
  obtain ⟨e, he, hdate', rfl⟩ := exists_digits ht
  have hlt : c.text < e.text := by rw [← hc, ← he]; exact codePoints_lt.mpr h
  have := Decision.dayNumber_lt hdate hdate' (DateDigits.lt_of_text_lt hlt)
  omega

theorem ordinal_le_iff {t : String} {m n : Int} (hs : evidenceDateOrdinal s = some m)
    (ht : evidenceDateOrdinal t = some n) : s ≤ t ↔ m ≤ n := by
  constructor
  · intro hle
    rcases lt_or_eq_of_le hle with hlt | rfl
    · exact (ordinal_lt_of_lt hs ht hlt).le
    · exact (some.inj (hs.symm.trans ht)).le
  · intro hle
    by_contra hlt
    have := ordinal_lt_of_lt ht hs (not_le.mp hlt)
    omega

end BalanceFrame.Evidence

/-!
## The flows of a day

Wallets sum the activity by date, with an inflow and an outflow for each. `DailyOf` says that a map
holds these sums of some observations; both ways to resolve a wallet build one, a step for each
observation (`DailyOf.add`).
-/

namespace BalanceFrame.Evidence

open Library
open Liquidity (I64 InI64 Money Checked)

/-- The amount is not negative and the date is one. -/
structure Dated (o : Observed) : Prop where
  amount : 0 ≤ (o.amount.minorUnits : Int)
  date : evidenceDateOrdinal o.date = some (ordinal o.date)

theorem dated_of_validate {r : TransactionEvidenceRequest} {u : Unit} (h : validate r = .ok u) :
    ∀ o ∈ r.observations, Dated o.toObserved := by
  intro o ho
  obtain ⟨-, -, ⟨-, hall⟩, -⟩ := validate_eq_ok.mp h
  have hone := hall o ho
  simp only [checkObservation, checkObserved, bind_ok, require_eq_ok, Bool.and_eq_true,
    civil, orStop_ok] at hone
  obtain ⟨-, ⟨-, hfirst, -, -, -, -, -, -, -, -, n, hdate, -⟩, -⟩ := hone
  refine ⟨?_, ?_⟩
  · have hmoney := hfirst.1.2
    unfold isMoney at hmoney
    rw [Bool.and_eq_true, decide_eq_true_iff] at hmoney
    exact hmoney.1
  · rw [hdate, ordinal, hdate, Option.getD_some]

/-- The civil day of an observation. -/
def dayOf (o : Observed) : Int := ordinal o.date

/-- What an observation adds to a balance. -/
def netOf (o : Observed) : Int :=
  if o.direction == "inflow" then o.amount.minorUnits else -(o.amount.minorUnits : Int)

variable {o : Observed}

theorem signed_eq (h : Dated o) : (signed o : Int) = netOf o := by
  unfold signed netOf
  split
  · rfl
  · exact coe_neg_of_nonneg h.amount

theorem date_lt_iff {o' : Observed} (h : Dated o) (h' : Dated o') :
    o.date < o'.date ↔ dayOf o < dayOf o' := by
  rw [← not_le, ordinal_le_iff h'.date h.date, not_le]
  rfl

theorem date_eq_iff {o' : Observed} (h : Dated o) (h' : Dated o') :
    o.date = o'.date ↔ dayOf o = dayOf o' := by
  refine ⟨fun heq => congrArg ordinal heq, fun heq => ?_⟩
  rcases lt_trichotomy o.date o'.date with hlt | heq' | hlt
  · exact absurd heq ((date_lt_iff h h').mp hlt).ne
  · exact heq'
  · exact absurd heq.symm ((date_lt_iff h' h).mp hlt).ne

/-! ## Sums by date -/

/-- The map holds the net and the outflow of every date of the observations. -/
structure DailyOf {ν : Type} (inflow outflow : ν → Int) (done : List Observed)
    (m : SortedMap String ν) : Prop where
  total : ∀ (p : String → Prop) [DecidablePred p],
    m.total (fun k v => if p k then inflow v - outflow v else 0) =
      (done.map fun o => if p o.date then netOf o else 0).sum
  outflow : ∀ k v, m.get? k = some v →
    outflow v = DailySums.spent (·.date) netOf done k
  dates : ∀ k, (m.get? k).isSome ↔ ∃ o ∈ done, o.date = k

theorem dailyOf_nil {ν : Type} (inflow outflow : ν → Int) :
    DailyOf inflow outflow [] (SortedMap.empty : SortedMap String ν) where
  total _ _ := rfl
  outflow k v h := by cases h
  dates k := by simp

theorem spent_eq_zero {done : List Observed} {k : String} (h : ∀ o ∈ done, o.date ≠ k) :
    DailySums.spent (·.date) netOf done k = 0 := by
  refine List.sum_eq_zero fun x hx => ?_
  obtain ⟨o, ho, rfl⟩ := List.mem_map.mp hx
  exact if_neg (h o ho)

theorem spent_snoc (done : List Observed) (o : Observed) (k : String) :
    DailySums.spent (·.date) netOf (done ++ [o]) k =
      DailySums.spent (·.date) netOf done k +
        if o.date = k then max 0 (-netOf o) else 0 := by
  unfold DailySums.spent
  rw [List.map_append, List.sum_append, List.map_singleton, List.sum_singleton]

theorem DailyOf.add {ν : Type} {inflow outflow : ν → Int} {done : List Observed}
    {m : SortedMap String ν} (h : DailyOf inflow outflow done m) {v : ν} (zero : ν)
    (hin : inflow zero = 0) (hout : outflow zero = 0)
    (hnet : inflow v - outflow v = inflow ((m.get? o.date).getD zero) -
      outflow ((m.get? o.date).getD zero) + netOf o)
    (hspent : outflow v = outflow ((m.get? o.date).getD zero) + max 0 (-netOf o)) :
    DailyOf inflow outflow (done ++ [o]) (m.insert o.date v) where
  total p _ := by
    have hinsert := m.total_insert (fun k v => if p k then inflow v - outflow v else 0) o.date v
    rw [h.total p] at hinsert
    rw [List.map_append, List.sum_append, List.map_singleton, List.sum_singleton]
    cases hget : m.get? o.date with
    | none =>
      rw [hget] at hinsert hnet
      rw [Option.getD_none, hin, hout] at hnet
      rw [Option.elim_none] at hinsert
      by_cases hp : p o.date
      · rw [if_pos hp] at hinsert ⊢
        omega
      · rw [if_neg hp] at hinsert ⊢
        omega
    | some w =>
      rw [hget] at hinsert hnet
      rw [Option.getD_some] at hnet
      rw [Option.elim_some] at hinsert
      by_cases hp : p o.date
      · rw [if_pos hp, if_pos hp] at hinsert
        rw [if_pos hp]
        omega
      · rw [if_neg hp, if_neg hp] at hinsert
        rw [if_neg hp]
        omega
  outflow k w hw := by
    rw [spent_snoc]
    rw [SortedMap.get?_insert] at hw
    split at hw
    · rename_i heq
      subst heq
      cases hw
      rw [if_pos rfl, hspent]
      cases hget : m.get? o.date with
      | none =>
        have hnone : ∀ o' ∈ done, o'.date ≠ o.date := by
          intro o' ho' heq
          have := (h.dates o.date).mpr ⟨o', ho', heq⟩
          rw [hget] at this
          cases this
        rw [Option.getD_none, hout, spent_eq_zero hnone]
      | some v => rw [Option.getD_some, h.outflow _ _ hget]
    · rename_i hne
      rw [if_neg hne, add_zero]
      exact h.outflow k w hw
  dates k := by
    rw [SortedMap.get?_insert]
    by_cases heq : o.date = k
    · rw [if_pos heq]
      exact ⟨fun _ => ⟨o, List.mem_append_right _ List.mem_cons_self, heq⟩, fun _ => rfl⟩
    · rw [if_neg heq, h.dates k]
      constructor
      · rintro ⟨o', ho', hk⟩
        exact ⟨o', List.mem_append_left _ ho', hk⟩
      · rintro ⟨o', ho', hk⟩
        rcases List.mem_append.mp ho' with ho' | ho'
        · exact ⟨o', ho', hk⟩
        · exact absurd ((List.mem_singleton.mp ho') ▸ hk) heq

end BalanceFrame.Evidence
