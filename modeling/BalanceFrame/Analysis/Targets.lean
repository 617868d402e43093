import BalanceFrame.Liquidity.Money
import Mathlib.Order.Bounds.Basic

/-!
# Target health

Model of `compute_target_status`, `is_behind` and `compute_months_remaining`
(`crates/financial-core/src/targets.rs`). Amounts are `i64`. A checked product that leaves the range
is `None`; an unchecked operator that does is a panic, which the model returns as the error with
Rust's message (a build without overflow checks wraps instead, and is no more exact). The `f64`
fields `progress_percent` and `uncertainty` are left out: nothing below reads them.

* **`target_exact_iff`**: the status is exact iff the amounts are `Tame`.
-/

namespace BalanceFrame.Analysis

open Library
open Liquidity (I64 InI64 Money)

inductive TargetHealth
  | behind
  | onTrack
  | complete
  deriving DecidableEq

/-- What `TargetStatus` holds beside its two `f64` fields. -/
structure TargetStatus where
  targetId : String
  targetName : String
  goalAmount : Money
  currentAmount : Money
  monthlyContribution : Money
  health : TargetHealth
  monthsRemaining : Option UInt32
  label : String
  assumptions : List String
  deriving DecidableEq

/-- A computation that a panic may end. -/
abbrev Panics (α : Type) := Except String α

/-- The result of an unchecked `i64` operator. -/
def arith (n : Int) (panic : String) : Panics I64 :=
  if h : InI64 n then .ok ⟨n, h⟩ else .error panic

theorem arith_ok {n : Int} {panic : String} {k : I64} : arith n panic = .ok k ↔ (k : Int) = n := by
  unfold arith
  split
  · rw [Except.ok.injEq, Subtype.ext_iff]
    exact eq_comm
  · rename_i h
    simp only [reduceCtorEq, false_iff]
    intro hk
    exact h (hk ▸ k.2)

/-- `n.checked_mul(k)`. -/
def checkedMul (n k : Int) : Option I64 := if h : InI64 (n * k) then some ⟨n * k, h⟩ else none

def isBehind (goal current : Money) (monthsElapsed totalMonths : UInt32) : Bool :=
  if totalMonths = 0 then false
  else if monthsElapsed = 0 then false
  else
    match checkedMul current.minorUnits totalMonths.toNat with
    | some lhs =>
      match checkedMul goal.minorUnits monthsElapsed.toNat with
      | some rhs => decide ((lhs : Int) < rhs)
      | none => false
    | none => false

/-- `(n.min(u32::MAX as i64)) as u32`; a negative number keeps its low 32 bits. -/
def narrow (n : I64) : UInt32 := UInt32.ofNat ((min (n : Int) 4294967295) % 4294967296).toNat

def computeMonthsRemaining (goal current monthly : Money) : Panics (Option UInt32) :=
  if (monthly.minorUnits : Int) = 0 then .ok none
  else do
    let remaining ← arith (goal.minorUnits - current.minorUnits : Int)
      "attempt to subtract with overflow"
    if (remaining : Int) ≤ 0 then .ok none
    else
      let contrib := monthly.minorUnits
      -- Ceiling division for conservative estimate
      let total ← arith (remaining + contrib : Int) "attempt to add with overflow"
      let upper ← arith (total - 1 : Int) "attempt to subtract with overflow"
      let months ← arith ((upper : Int).tdiv contrib) "attempt to divide with overflow"
      .ok (some (narrow months))

/-- `current_amount` is not negative and reaches `goal_amount`. -/
def reached (goal current : Money) : Bool :=
  !current.isNegative && decide ((goal.minorUnits : Int) ≤ current.minorUnits)

/-- The `health` of `compute_target_status`. -/
def targetHealth (goal current : Money) (monthsElapsed totalMonths : UInt32) : TargetHealth :=
  if reached goal current then .complete
  else if isBehind goal current monthsElapsed totalMonths then .behind
  else .onTrack

def computeTargetStatus (targetId targetName : String)
    (goalAmount currentAmount monthlyContribution : Money) (monthsElapsed totalMonths : UInt32) :
    Panics TargetStatus := do
  reject (goalAmount.currency != currentAmount.currency)
    "currency mismatch between goal_amount and current_amount"
  let health := targetHealth goalAmount currentAmount monthsElapsed totalMonths
  let monthsRemaining ← computeMonthsRemaining goalAmount currentAmount monthlyContribution
  .ok
    { targetId, targetName, goalAmount, currentAmount, monthlyContribution, health,
      monthsRemaining
      label := "Advice"
      assumptions :=
        ["Monthly contribution remains constant", "Linear progress toward goal",
          "No unexpected expenses affecting goal progress"] }

/-! ## Pace -/

section

variable {goal current monthly : Money} {elapsed total : UInt32}

theorem reached_iff : reached goal current = true ↔
    0 ≤ (current.minorUnits : Int) ∧ (goal.minorUnits : Int) ≤ current.minorUnits := by
  simp [reached, Money.isNegative]

/-- Behind the linear pace, over the integers. -/
def Lags (goal current : Money) (elapsed total : UInt32) : Prop :=
  (current.minorUnits * total.toNat : Int) < goal.minorUnits * elapsed.toNat

/-- Both products of the pace test are `i64` values. -/
def PaceFits (goal current : Money) (elapsed total : UInt32) : Prop :=
  InI64 (current.minorUnits * total.toNat) ∧ InI64 (goal.minorUnits * elapsed.toNat)

instance : Decidable (Lags goal current elapsed total) := inferInstanceAs (Decidable (_ < _))

instance : Decidable (PaceFits goal current elapsed total) := inferInstanceAs (Decidable (_ ∧ _))

theorem isBehind_iff (he : 0 < elapsed) (ht : 0 < total) :
    isBehind goal current elapsed total = true ↔
      PaceFits goal current elapsed total ∧ Lags goal current elapsed total := by
  have he' : elapsed ≠ 0 := fun h => absurd he (by simp [h])
  have ht' : total ≠ 0 := fun h => absurd ht (by simp [h])
  unfold isBehind checkedMul PaceFits Lags
  rw [if_neg ht', if_neg he']
  by_cases hl : InI64 (current.minorUnits * total.toNat)
  · by_cases hr : InI64 (goal.minorUnits * elapsed.toNat)
    · simp [hl, hr]
    · simp [hl, hr]
  · simp [hl]

/-! ## Months -/

/-- `m` months of contributions reach the goal. -/
def Reaches (goal current monthly : Money) (months : Nat) : Prop :=
  (goal.minorUnits : Int) ≤ current.minorUnits + months * monthly.minorUnits

/-- The least number of months that reach the goal, capped at `u32::MAX`. -/
def LeastMonths (goal current monthly : Money) (m : UInt32) : Prop :=
  ∃ n : Nat, IsLeast {k | Reaches goal current monthly k} n ∧ m.toNat = min n 4294967295

theorem isLeast_ceil (remaining contrib : Int) (hr : 0 < remaining) (hc : 0 < contrib) :
    IsLeast {k : Nat | remaining ≤ k * contrib} ((remaining + contrib - 1) / contrib).toNat := by
  have hpos : 0 ≤ (remaining + contrib - 1) / contrib := Int.ediv_nonneg (by omega) (by omega)
  constructor
  · show remaining ≤ (((remaining + contrib - 1) / contrib).toNat : Int) * contrib
    rw [Int.toNat_of_nonneg hpos]
    have hmod := Int.emod_lt_of_pos (remaining + contrib - 1) hc
    have hdiv := Int.mul_ediv_add_emod (remaining + contrib - 1) contrib
    rw [mul_comm] at hdiv
    omega
  · intro k hk
    have hk' : remaining ≤ (k : Int) * contrib := hk
    have hlt : (remaining + contrib - 1) / contrib < (k : Int) + 1 := by
      refine Int.ediv_lt_of_lt_mul hc ?_
      rw [add_mul, one_mul]
      omega
    omega

theorem computeMonthsRemaining_ok {r : Option UInt32} :
    computeMonthsRemaining goal current monthly = .ok r ↔
      (monthly.minorUnits : Int) = 0 ∧ r = none ∨
      (monthly.minorUnits : Int) ≠ 0 ∧ InI64 (goal.minorUnits - current.minorUnits) ∧
        ((goal.minorUnits : Int) ≤ current.minorUnits ∧ r = none ∨
          (current.minorUnits : Int) < goal.minorUnits ∧
            ∃ total upper months : I64,
              (total : Int) = goal.minorUnits - current.minorUnits + monthly.minorUnits ∧
              (upper : Int) = total - 1 ∧ (months : Int) = (upper : Int).tdiv monthly.minorUnits ∧
              r = some (narrow months)) := by
  unfold computeMonthsRemaining
  by_cases h0 : (monthly.minorUnits : Int) = 0
  · simp [h0, eq_comm]
  · simp only [h0, if_false, bind_ok, arith_ok, false_and, false_or, ne_eq, not_false_iff, true_and]
    constructor
    · rintro ⟨remaining, hrem, h⟩
      refine ⟨hrem ▸ remaining.2, ?_⟩
      by_cases hle : (remaining : Int) ≤ 0
      · rw [if_pos hle, Except.ok.injEq] at h
        exact Or.inl ⟨by omega, h.symm⟩
      · rw [if_neg hle] at h
        simp only [bind_ok, arith_ok, Except.ok.injEq] at h
        obtain ⟨sum, hsum, upper, hupper, months, hmonths, rfl⟩ := h
        exact Or.inr ⟨by omega, sum, upper, months, by omega, hupper, hmonths, rfl⟩
    · rintro ⟨hfit, ⟨hle, rfl⟩ | ⟨hlt, sum, upper, months, hsum, hupper, hmonths, rfl⟩⟩
      · exact ⟨⟨_, hfit⟩, rfl, by rw [if_pos (by simp only; omega)]⟩
      · refine ⟨⟨_, hfit⟩, rfl, ?_⟩
        rw [if_neg (by simp only; omega)]
        simp only [bind_ok, arith_ok, Except.ok.injEq]
        exact ⟨sum, hsum, upper, hupper, months, hmonths, rfl⟩

/-- The estimate as it is meant. -/
def MonthsExact (goal current monthly : Money) (r : Option UInt32) : Prop :=
  ∀ m, r = some m ↔ (current.minorUnits : Int) < goal.minorUnits ∧
    0 < (monthly.minorUnits : Int) ∧ LeastMonths goal current monthly m

/-- No operator of the estimate leaves the range, and no contribution drains an unmet goal. -/
def MonthsFit (goal current monthly : Money) : Prop :=
  (monthly.minorUnits : Int) = 0 ∨
    InI64 (goal.minorUnits - current.minorUnits) ∧
      ((goal.minorUnits : Int) ≤ current.minorUnits ∨
        0 < (monthly.minorUnits : Int) ∧
          InI64 (goal.minorUnits - current.minorUnits + monthly.minorUnits))

theorem monthsExact_none (h : (goal.minorUnits : Int) ≤ current.minorUnits ∨
    (monthly.minorUnits : Int) ≤ 0) : MonthsExact goal current monthly none := by
  intro m
  constructor
  · intro hm
    cases hm
  · rintro ⟨hlt, hpos, -⟩
    omega

theorem narrow_toNat {n : I64} (h : 0 ≤ (n : Int)) :
    (narrow n).toNat = min (n : Int).toNat 4294967295 := by
  unfold narrow
  rw [UInt32.toNat_ofNat']
  omega

theorem monthsExact_some {upper months : I64} (hlt : (current.minorUnits : Int) < goal.minorUnits)
    (hpos : 0 < (monthly.minorUnits : Int))
    (hupper : (upper : Int) = goal.minorUnits - current.minorUnits + monthly.minorUnits - 1)
    (hmonths : (months : Int) = (upper : Int).tdiv monthly.minorUnits) :
    MonthsExact goal current monthly (some (narrow months)) := by
  have hleast := isLeast_ceil (goal.minorUnits - current.minorUnits) monthly.minorUnits
    (by omega) hpos
  have hq : (months : Int) =
      ((goal.minorUnits : Int) - current.minorUnits + monthly.minorUnits - 1) /
        monthly.minorUnits := by
    rw [hmonths, hupper, Int.tdiv_eq_ediv_of_nonneg (by omega)]
  have hnonneg : 0 ≤ (months : Int) := hq ▸ Int.ediv_nonneg (by omega) (by omega)
  have hset : {k : Nat | (goal.minorUnits : Int) - current.minorUnits ≤ k * monthly.minorUnits} =
      {k | Reaches goal current monthly k} := by
    ext k
    simp only [Set.mem_ofPred_eq, Reaches]
    omega
  rw [hset, ← hq] at hleast
  intro m
  constructor
  · intro hm
    cases hm
    exact ⟨hlt, hpos, _, hleast, narrow_toNat hnonneg⟩
  · rintro ⟨-, -, n, hn, hm⟩
    rw [hn.unique hleast, ← narrow_toNat hnonneg] at hm
    exact congrArg some (UInt32.toNat_inj.mp hm.symm)

theorem months_exact_iff : (∃ r, computeMonthsRemaining goal current monthly = .ok r ∧
    MonthsExact goal current monthly r) ↔ MonthsFit goal current monthly := by
  constructor
  · rintro ⟨r, hr, hexact⟩
    rcases computeMonthsRemaining_ok.mp hr with ⟨h0, -⟩ | ⟨-, hfit, ⟨hle, -⟩ | ⟨hlt, sum, upper,
      months, hsum, -, -, rfl⟩⟩
    · exact Or.inl h0
    · exact Or.inr ⟨hfit, Or.inl hle⟩
    · obtain ⟨-, hpos, -⟩ := (hexact _).mp rfl
      exact Or.inr ⟨hfit, Or.inr ⟨hpos, hsum ▸ sum.2⟩⟩
  · rintro (h0 | ⟨hfit, hle | ⟨hpos, hsum⟩⟩)
    · exact ⟨none, computeMonthsRemaining_ok.mpr (Or.inl ⟨h0, rfl⟩),
        monthsExact_none (Or.inr h0.le)⟩
    · by_cases h0 : (monthly.minorUnits : Int) = 0
      · exact ⟨none, computeMonthsRemaining_ok.mpr (Or.inl ⟨h0, rfl⟩),
          monthsExact_none (Or.inl hle)⟩
      · exact ⟨none, computeMonthsRemaining_ok.mpr (Or.inr ⟨h0, hfit, Or.inl ⟨hle, rfl⟩⟩),
          monthsExact_none (Or.inl hle)⟩
    · by_cases hle : (goal.minorUnits : Int) ≤ current.minorUnits
      · exact ⟨none, computeMonthsRemaining_ok.mpr (Or.inr ⟨by omega, hfit, Or.inl ⟨hle, rfl⟩⟩),
          monthsExact_none (Or.inl hle)⟩
      · have hlow : 0 ≤ (goal.minorUnits : Int) - current.minorUnits + monthly.minorUnits - 1 := by
          omega
        have hdiv := Int.ediv_le_self monthly.minorUnits hlow
        have hdiv0 := Int.ediv_nonneg hlow hpos.le
        rw [← Int.tdiv_eq_ediv_of_nonneg hlow] at hdiv hdiv0
        have hupper : InI64 (goal.minorUnits - current.minorUnits + monthly.minorUnits - 1) := by
          unfold InI64 at hsum ⊢
          omega
        have hmonths : InI64 ((goal.minorUnits - current.minorUnits + monthly.minorUnits - 1 :
            Int).tdiv monthly.minorUnits) := by
          unfold InI64 at hupper ⊢
          omega
        refine ⟨some (narrow ⟨_, hmonths⟩), computeMonthsRemaining_ok.mpr (Or.inr ⟨by omega, hfit,
          Or.inr ⟨by omega, ⟨_, hsum⟩, ⟨_, hupper⟩, ⟨_, hmonths⟩, rfl, rfl, rfl, rfl⟩⟩), ?_⟩
        exact @monthsExact_some _ _ _ ⟨_, hupper⟩ _ (by omega) hpos rfl rfl

/-! ## The status -/

/-- The health and the estimate as the integers have them. -/
structure StatusExact (goal current monthly : Money) (elapsed total : UInt32)
    (status : TargetStatus) : Prop where
  complete : status.health = .complete ↔
    0 ≤ (current.minorUnits : Int) ∧ (goal.minorUnits : Int) ≤ current.minorUnits
  behind : status.health = .behind ↔
    ¬ (0 ≤ (current.minorUnits : Int) ∧ (goal.minorUnits : Int) ≤ current.minorUnits) ∧
      Lags goal current elapsed total
  onTrack : status.health = .onTrack ↔
    ¬ (0 ≤ (current.minorUnits : Int) ∧ (goal.minorUnits : Int) ≤ current.minorUnits) ∧
      ¬ Lags goal current elapsed total
  months : MonthsExact goal current monthly status.monthsRemaining

/-- Amounts small enough for every product and sum that decides something. -/
structure Tame (goal current monthly : Money) (elapsed total : UInt32) : Prop where
  currency : goal.currency = current.currency
  pace : reached goal current = true ∨ PaceFits goal current elapsed total ∨
    ¬ Lags goal current elapsed total
  months : MonthsFit goal current monthly

theorem targetHealth_behind_iff (he : 0 < elapsed) (ht : 0 < total) :
    (targetHealth goal current elapsed total = .behind ↔
      ¬ reached goal current = true ∧ Lags goal current elapsed total) ↔
    (reached goal current = true ∨ PaceFits goal current elapsed total ∨
      ¬ Lags goal current elapsed total) := by
  have hpace : isBehind goal current elapsed total = true ↔
    PaceFits goal current elapsed total ∧ Lags goal current elapsed total := isBehind_iff he ht
  unfold targetHealth
  by_cases hreached : reached goal current = true
  · simp [hreached]
  · by_cases hbehind : isBehind goal current elapsed total = true
    · simp [hreached, hbehind, hpace.mp hbehind]
    · by_cases hlags : Lags goal current elapsed total
      · have hfits : ¬ PaceFits goal current elapsed total := fun h => hbehind (hpace.mpr ⟨h, hlags⟩)
        simp [hreached, hbehind, hlags, hfits]
      · simp [hreached, hbehind, hlags]

theorem targetHealth_complete_iff : targetHealth goal current elapsed total = .complete ↔
    reached goal current = true := by
  unfold targetHealth
  by_cases hreached : reached goal current = true
  · simp [hreached]
  · cases isBehind goal current elapsed total <;> simp [hreached]

/-- **Target status is exact iff the amounts are tame**: `compute_target_status` runs without a
panic and reports the health and the months of integer arithmetic exactly then. -/
theorem target_exact_iff (targetId targetName : String) (goal current monthly : Money)
    (elapsed total : UInt32) (he : 0 < elapsed) (ht : 0 < total) :
    (∃ status, computeTargetStatus targetId targetName goal current monthly elapsed total =
        .ok status ∧ StatusExact goal current monthly elapsed total status) ↔
      Tame goal current monthly elapsed total := by
  have hpace := @targetHealth_behind_iff goal current _ _ he ht
  unfold computeTargetStatus
  simp only [bind_ok, reject_ok, bne_eq_false_iff_eq, Except.ok.injEq]
  constructor
  · rintro ⟨_, ⟨_, hcur, r, hr, rfl⟩, hexact⟩
    refine ⟨hcur, hpace.mp ?_, months_exact_iff.mp ⟨r, hr, hexact.months⟩⟩
    rw [reached_iff]
    exact hexact.behind
  · intro h
    obtain ⟨r, hr, hmonths⟩ := months_exact_iff.mpr h.months
    have hcomplete := @targetHealth_complete_iff goal current elapsed total
    have hbehind := hpace.mpr h.pace
    rw [reached_iff] at hcomplete hbehind
    refine ⟨_, ⟨(), h.currency, r, hr, rfl⟩, hcomplete, hbehind, ?_, hmonths⟩
    cases hhealth : targetHealth goal current elapsed total with
    | behind =>
      have := hbehind.mp hhealth
      simp [this.2]
    | complete =>
      have := hcomplete.mp hhealth
      simp [this]
    | onTrack =>
      rw [hhealth] at hcomplete hbehind
      simp only [reduceCtorEq, false_iff] at hcomplete hbehind
      simp only [true_iff]
      exact ⟨hcomplete, fun hlags => hbehind ⟨hcomplete, hlags⟩⟩

end

def dollars (n : Int) (h : InI64 n := by decide) : Money := ⟨I64.ofInt n h, "USD"⟩

theorem target_exact_holiday :
    (∃ status, computeTargetStatus "holiday" "Holiday" (dollars 100000) (dollars 25000)
        (dollars 10000) 6 12 = .ok status ∧
      StatusExact (dollars 100000) (dollars 25000) (dollars 10000) 6 12 status) :=
  (target_exact_iff "holiday" "Holiday" (dollars 100000) (dollars 25000) (dollars 10000) 6 12
    (by decide) (by decide)).mpr ⟨rfl, Or.inr (Or.inl (by decide)), Or.inr ⟨by decide, Or.inr
      (by decide)⟩⟩

/-- **A monthly withdrawal** of 10 dollars reaches a goal of 100 dollars in `u32` months: the
negative quotient keeps its low bits. -/
theorem withdrawal_reaches_goal :
    computeMonthsRemaining (dollars 10000) (dollars 0) (dollars (-1000)) =
        .ok (some 4294967288) ∧
      ¬ ∃ status, computeTargetStatus "trip" "Trip" (dollars 10000) (dollars 0) (dollars (-1000))
          1 12 = .ok status ∧
        StatusExact (dollars 10000) (dollars 0) (dollars (-1000)) 1 12 status := by
  refine ⟨by decide, ?_⟩
  rintro ⟨status, hrun, hexact⟩
  have hmonths : status.monthsRemaining = some 4294967288 := by
    rw [← Except.ok.inj hrun]
    decide
  exact absurd ((hexact.months _).mp hmonths).2.1 (by decide)

end BalanceFrame.Analysis
