import BalanceFrame.Library.Checked
import Mathlib.Order.Basic
import Mathlib.Algebra.Order.Ring.Int
import Mathlib.Algebra.Order.BigOperators.Group.List

/-!
# Checked amounts

Model of `add`, `sub` (`crates/financial-core/src/liquidity_engine.rs`) and of `Money`
(`crates/financial-core/src/money.rs`). An amount is an `i64`: the subtype `I64` carries its range,
so an out-of-range amount cannot be built, and every sum or difference goes through the checked
`add` / `sub`, whose only failure is `money_arithmetic_overflow`. `add_eq_ok` and `sub_eq_ok` say
the two are exact: a result is the integer sum or difference.
-/

namespace BalanceFrame.Liquidity

open Library Bool

/-- `type Checked<T> = Result<T, String>`. -/
abbrev Checked (α : Type) := Except String α

/-- `i64::MIN ≤ n ≤ i64::MAX`. -/
def InI64 (n : Int) : Prop := -9223372036854775808 ≤ n ∧ n ≤ 9223372036854775807

instance (n : Int) : Decidable (InI64 n) := inferInstanceAs (Decidable (_ ∧ _))

/-- A 64-bit amount. -/
abbrev I64 := { n : Int // InI64 n }

namespace I64

/-- A literal amount. -/
def ofInt (n : Int) (h : InI64 n := by decide) : I64 := ⟨n, h⟩

instance : Zero I64 := ⟨ofInt 0⟩

instance : One I64 := ⟨ofInt 1⟩

instance : Inhabited I64 := ⟨0⟩

/-- `i64::MAX`. -/
def maxValue : I64 := ofInt 9223372036854775807

/-- `max(0, n)`. -/
def clamp (n : I64) : I64 := if 0 ≤ n.1 then n else 0

/-- `n.min(k)`. -/
def least (n k : I64) : I64 := if n.1 ≤ k.1 then n else k

/-- `-n`, wrapping at `i64::MIN`. -/
def neg (n : I64) : I64 := if h : InI64 (-n.1) then ⟨-n.1, h⟩ else n

def checkedAbs (n : I64) : Option I64 := if h : InI64 (|n.1|) then some ⟨|n.1|, h⟩ else none

/-- `i64` arithmetic past the range wraps around. -/
def wrap (n : Int) : I64 := ⟨n.bmod 18446744073709551616, by
  have hlow := Int.le_bmod (x := n) (m := 18446744073709551616) (by decide)
  have hhigh := Int.bmod_lt (x := n) (m := 18446744073709551616) (by decide)
  unfold InI64
  omega⟩

/-- `n.checked_add(k)`. -/
def checkedAdd (n k : I64) : Option I64 := if h : InI64 (n.1 + k.1) then some ⟨_, h⟩ else none

/-- `n.checked_sub(k)`. -/
def checkedSub (n k : I64) : Option I64 := if h : InI64 (n.1 - k.1) then some ⟨_, h⟩ else none

def checkedNeg (n : I64) : Option I64 := if h : InI64 (-n.1) then some ⟨_, h⟩ else none

@[simp] theorem coe_zero : ((0 : I64) : Int) = 0 := rfl

@[simp] theorem coe_ofInt (n : Int) (h : InI64 n) : (ofInt n h : Int) = n := rfl

@[simp] theorem coe_clamp (n : I64) : (clamp n : Int) = max 0 (n : Int) := by
  unfold clamp
  split
  · rename_i h; exact (max_eq_right h).symm
  · rename_i h; exact (max_eq_left (le_of_lt (not_le.mp h))).symm

@[simp] theorem coe_least (n k : I64) : (least n k : Int) = min (n : Int) k := by
  unfold least
  split
  · rename_i h; exact (min_eq_left h).symm
  · rename_i h; exact (min_eq_right (le_of_lt (not_le.mp h))).symm

theorem coe_wrap {n : Int} (h : InI64 n) : (wrap n : Int) = n := by
  unfold InI64 at h
  exact Int.bmod_eq_of_le_mul_two (by omega) (by omega)

theorem checkedAdd_eq_some {n k t : I64} : checkedAdd n k = some t ↔ (t : Int) = n + k := by
  unfold checkedAdd
  split
  · rw [Option.some.injEq, Subtype.ext_iff]
    exact eq_comm
  · rename_i h
    simp only [reduceCtorEq, false_iff]
    intro ht
    exact h (ht ▸ t.2)

theorem le_max (n : I64) : (n : Int) ≤ 9223372036854775807 := n.2.2

theorem min_le (n : I64) : -9223372036854775808 ≤ (n : Int) := n.2.1

theorem ext {n k : I64} (h : (n : Int) = k) : n = k := Subtype.ext h

end I64

/-- `add`: checked addition. -/
def add (a b : I64) : Checked I64 :=
  if h : InI64 (a.1 + b.1) then .ok ⟨a.1 + b.1, h⟩ else .error "money_arithmetic_overflow"

/-- `sub`: checked subtraction. -/
def sub (a b : I64) : Checked I64 :=
  if h : InI64 (a.1 - b.1) then .ok ⟨a.1 - b.1, h⟩ else .error "money_arithmetic_overflow"

theorem add_eq_ok {a b c : I64} : add a b = .ok c ↔ (c : Int) = a + b := by
  unfold add
  split
  · rw [Except.ok.injEq, Subtype.ext_iff]
    exact eq_comm
  · rename_i h
    simp only [reduceCtorEq, false_iff]
    intro hc
    exact h (hc ▸ c.2)

theorem sub_eq_ok {a b c : I64} : sub a b = .ok c ↔ (c : Int) = a - b := by
  unfold sub
  split
  · rw [Except.ok.injEq, Subtype.ext_iff]
    exact eq_comm
  · rename_i h
    simp only [reduceCtorEq, false_iff]
    intro hc
    exact h (hc ▸ c.2)

theorem exists_add_ok {a b : I64} (h : InI64 ((a : Int) + b)) :
    ∃ c, add a b = .ok c ∧ (c : Int) = a + b :=
  ⟨⟨_, h⟩, add_eq_ok.mpr rfl, rfl⟩

theorem exists_sub_ok {a b : I64} (h : InI64 ((a : Int) - b)) :
    ∃ c, sub a b = .ok c ∧ (c : Int) = a - b :=
  ⟨⟨_, h⟩, sub_eq_ok.mpr rfl, rfl⟩

/-- **A checked sum of nonnegative terms** succeeds iff the integer sum fits. -/
theorem foldlM_add_eq_ok {α : Type} {f : α → I64} :
    ∀ {l : List α}, (∀ a ∈ l, 0 ≤ (f a : Int)) → ∀ {acc t : I64}, 0 ≤ (acc : Int) →
      (l.foldlM (fun t a => add t (f a)) acc = .ok t ↔
        (t : Int) = acc + (l.map fun a => (f a : Int)).sum)
  | [], _, acc, t, _ => by
    simp only [List.foldlM_nil, pure_ok, Except.ok.injEq, List.map_nil, List.sum_nil,
      Int.add_zero]
    exact ⟨fun h => by rw [h], fun h => I64.ext h.symm⟩
  | a :: l, hf, acc, t, hacc => by
    have ha := hf a List.mem_cons_self
    have hl : ∀ b ∈ l, 0 ≤ (f b : Int) := fun b hb => hf b (List.mem_cons_of_mem _ hb)
    have hsum : 0 ≤ (l.map fun a => (f a : Int)).sum := by
      refine List.sum_nonneg fun v hv => ?_
      obtain ⟨b, hb, rfl⟩ := List.mem_map.mp hv
      exact hl b hb
    rw [foldlM_cons_ok, List.map_cons, List.sum_cons]
    constructor
    · rintro ⟨c, hc, h⟩
      have hc' := add_eq_ok.mp hc
      rw [(foldlM_add_eq_ok hl (by omega)).mp h, hc', Int.add_assoc]
    · intro ht
      have hmax := I64.le_max t
      obtain ⟨c, hc, hcv⟩ := exists_add_ok (a := acc) (b := f a) (by unfold InI64; omega)
      exact ⟨c, hc, (foldlM_add_eq_ok hl (by omega)).mpr (by omega)⟩

/-! ## Money -/

/-- `Money`: minor units and a currency code. -/
structure Money where
  minorUnits : I64
  currency : String
  deriving DecidableEq, Inhabited

/-- `m`: `Money::new`. -/
def m (n : I64) (c : String) : Money := ⟨n, c⟩

def Money.isNegative (x : Money) : Bool := decide ((x.minorUnits : Int) < 0)

def isAsciiUppercase (c : Char) : Bool := 'A' ≤ c && c ≤ 'Z'

/-- Three ASCII capitals; the source counts bytes, and a byte outside ASCII is no capital. -/
def isCurrencyCode (currency : String) : Bool :=
  currency.toList.length == 3 && currency.toList.all isAsciiUppercase

/-- `units`: the minor units of an amount in the expected currency. -/
def units (x : Money) (currency : String) (nonnegative : Bool) : Checked I64 := do
  reject (x.currency != currency || !isCurrencyCode currency) "currency_mismatch"
  reject (nonnegative && x.isNegative) "negative_amount"
  pure x.minorUnits

theorem units_eq_ok {x : Money} {currency : String} {nonnegative : Bool} {n : I64} :
    units x currency nonnegative = .ok n ↔
      x.currency = currency ∧ isCurrencyCode currency = true ∧
        (nonnegative = true → 0 ≤ (x.minorUnits : Int)) ∧ n = x.minorUnits := by
  simp only [units, Money.isNegative, bind_ok, reject_ok, pure_ok, Except.ok.injEq,
    or_eq_false_iff, bne_eq_false_iff_eq, not_eq_false', and_eq_false_iff,
    decide_eq_false_iff_not, not_lt]
  constructor
  · rintro ⟨-, ⟨h1, h2⟩, -, h3, rfl⟩
    refine ⟨h1, h2, fun hn => ?_, rfl⟩
    rcases h3 with h3 | h3
    · rw [hn] at h3; exact absurd h3 true_eq_false_eq_False
    · exact h3
  · rintro ⟨h1, h2, h3, rfl⟩
    refine ⟨(), ⟨h1, h2⟩, (), ?_, rfl⟩
    cases nonnegative with
    | false => exact Or.inl rfl
    | true => exact Or.inr (h3 rfl)

theorem units_nonneg {x : Money} {currency : String} {n : I64}
    (h : units x currency true = .ok n) : 0 ≤ (n : Int) := by
  obtain ⟨-, -, h3, rfl⟩ := units_eq_ok.mp h
  exact h3 rfl

end BalanceFrame.Liquidity
