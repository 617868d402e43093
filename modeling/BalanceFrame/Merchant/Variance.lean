import BalanceFrame.Liquidity.Money
import Mathlib.Algebra.BigOperators.Ring.Finset
import Mathlib.Data.Nat.Digits.Defs
import Mathlib.Data.Nat.Cast.Field
import Mathlib.Data.Rat.Lemmas
import Mathlib.Tactic.Ring

/-!
# The variance of amounts

Model of `Wide`, `gcd` and `variance` (`crates/financial-core/src/merchant_intelligence.rs`). A
`Wide` has four limbs of 64 bits, the lowest first; a row of a product is written from its own limb
on. Each operation is exact where its result fits (`multiply_holds`, `divide_holds`), and no amounts
of one sign in 250000 occurrences exceed 163 bits.
-/

namespace BalanceFrame.Merchant

open List Bool

open Liquidity (I64 InI64)

/-! ## Limbs -/

/-- `Wide`, lowest limb first. -/
abbrev Wide := List UInt64

/-- What limbs stand for. -/
def limbValue (l : Wide) : Nat := Nat.ofDigits (2 ^ 64) (l.map UInt64.toNat)

/-- Four limbs that stand for a number. -/
structure Wide.Holds (w : Wide) (n : Nat) : Prop where
  four : w.length = 4
  value : limbValue w = n

@[simp] theorem limbValue_nil : limbValue [] = 0 := rfl

@[simp] theorem limbValue_cons (a : UInt64) (l : Wide) :
    limbValue (a :: l) = a.toNat + 2 ^ 64 * limbValue l := Nat.ofDigits_cons

theorem limbValue_lt : ∀ l : Wide, limbValue l < (2 ^ 64) ^ l.length
  | [] => Nat.one_pos
  | a :: l => by
    have ha := a.toNat_lt
    have hl := limbValue_lt l
    rw [limbValue_cons, length_cons, pow_succ (2 ^ 64)]
    generalize (2 ^ 64) ^ l.length = bound at hl ⊢
    omega

def overflowingAdd (a b : UInt64) : UInt64 × Bool := (a + b, decide (2 ^ 64 ≤ a.toNat + b.toNat))

def overflowingSub (a b : UInt64) : UInt64 × Bool := (a - b, decide (a.toNat < b.toNat))

/-- The body of the loop of `add`. -/
def addCarry (a b : UInt64) (carry : Bool) : UInt64 × Bool :=
  let (sum, x) := overflowingAdd a b
  let (sum, y) := overflowingAdd sum carry.toUInt64
  (sum, x || y)

/-- The body of the loop of `subtract`. -/
def subBorrow (a b : UInt64) (borrow : Bool) : UInt64 × Bool :=
  let (difference, x) := overflowingSub a b
  let (difference, y) := overflowingSub difference borrow.toUInt64
  (difference, x || y)

namespace Wide

def fromU128 (value : Nat) : Wide := [UInt64.ofNat value, UInt64.ofNat (value >>> 64), 0, 0]

/-- The loop of `add`: the sums, and the last carry. -/
def addLimbs : Wide → Wide → Bool → Wide × Bool
  | a :: as, b :: bs, carry =>
    let sum := addCarry a b carry
    let rest := addLimbs as bs sum.2
    (sum.1 :: rest.1, rest.2)
  | _, _, carry => ([], carry)

def add (a b : Wide) : Option Wide :=
  let (result, carry) := addLimbs a b false
  if carry then none else some result

/-- A row of `multiply`: `a * other`, added to the limbs of the result from its own on. -/
def mulRow (a : UInt64) : Wide → Wide → Nat → Option Wide
  | [], result, carry => if carry ≠ 0 then none else some result
  | b :: bs, [], carry =>
    if carry ≠ 0 || (a != 0 && b != 0) then none else mulRow a bs [] carry
  | b :: bs, r :: rs, carry => do
    let product := a.toNat * b.toNat + r.toNat + carry
    pure (UInt64.ofNat product :: (← mulRow a bs rs (product >>> 64)))

/-- The rows of `multiply`. -/
def mulRows : Wide → Wide → Wide → Option Wide
  | [], _, result => some result
  | a :: as, other, result => do
    match ← mulRow a other result 0 with
    | [] => pure []
    | r :: rest => pure (r :: (← mulRows as other rest))

def multiply (a b : Wide) : Option Wide := mulRows a b [0, 0, 0, 0]

/-- The loop of `subtract`: the differences, and the last borrow. -/
def subLimbs : Wide → Wide → Bool → Wide × Bool
  | a :: as, b :: bs, borrow =>
    let difference := subBorrow a b borrow
    let rest := subLimbs as bs difference.2
    (difference.1 :: rest.1, rest.2)
  | _, _, borrow => ([], borrow)

def subtract (a b : Wide) : Option Wide :=
  let (result, borrow) := subLimbs a b false
  if borrow then none else some result

/-- The loop of `divide`, from the highest limb: the quotients, and the remainder. -/
def divLimbs (denominator : UInt64) : Wide → Wide × Nat
  | [] => ([], 0)
  | a :: as =>
    let (quotient, remainder) := divLimbs denominator as
    let value := remainder <<< 64 ||| a.toNat
    (UInt64.ofNat (value / denominator.toNat) :: quotient, value % denominator.toNat)

def divide (a : Wide) (denominator : UInt64) : Wide × UInt64 :=
  let (quotient, remainder) := divLimbs denominator a
  (quotient, UInt64.ofNat remainder)

def signed : Wide → Option Int
  | [a, b, c, d] =>
    if c != 0 || d != 0 || b >>> 63 != 0 then none
    else some ((b.toNat <<< 64 ||| a.toNat : Nat) : Int)
  | _ => none

end Wide

def gcd (a b : UInt64) : UInt64 :=
  if b = 0 then a else gcd b (a % b)
termination_by b.toNat
decreasing_by
  rename_i hzero
  rw [UInt64.toNat_mod]
  exact Nat.mod_lt _ (Nat.pos_of_ne_zero fun h => hzero (UInt64.toNat_inj.mp h))

/-- `checked_add` and `checked_mul` of a type of so many bits. -/
def checkedNat (bits n : Nat) : Option Nat := if n < 2 ^ bits then some n else none

/-- An occurrence of `variance`: its distance from the minimum, and the square of it, are added. -/
def addOccurrence (minimum : I64) (t : Nat × Wide) (amount : I64) : Option (Nat × Wide) := do
  let delta ← if 0 ≤ (amount : Int) - minimum then some ((amount : Int) - minimum).toNat else none
  let sum ← checkedNat 128 (t.1 + delta)
  let squares ← t.2.add (.fromU128 (← checkedNat 128 (delta * delta)))
  pure (sum, squares)

/-- `variance`, of the amounts of occurrences. -/
def variance (amounts : List I64) (minimum : I64) : Option (String × String) := do
  let (sum, squares) ← amounts.foldlM (addOccurrence minimum) (0, .fromU128 0)
  let n := UInt64.ofNat amounts.length
  let product ← squares.multiply (.fromU128 n.toNat)
  let square ← (Wide.fromU128 sum).multiply (.fromU128 sum)
  let numerator ← product.subtract square
  let denominator := UInt64.ofNat (← checkedNat 64 (n.toNat * n.toNat))
  let divisor := gcd (numerator.divide denominator).2 denominator
  let reduced ← (numerator.divide divisor).1.signed
  pure (toString reduced, toString (denominator / divisor).toNat)

/-! ## The operations are exact -/

namespace Wide

variable {a b : Wide} {m n : Nat}

theorem toNat_toUInt64 (c : Bool) : c.toUInt64.toNat = c.toNat := by
  cases c <;> rfl

theorem addCarry_value (a b : UInt64) (carry : Bool) :
    (addCarry a b carry).1.toNat + 2 ^ 64 * (addCarry a b carry).2.toNat =
      a.toNat + b.toNat + carry.toNat := by
  have ha := a.toNat_lt
  have hb := b.toNat_lt
  have hcarry := carry.toNat_le
  simp only [addCarry, overflowingAdd, UInt64.toNat_add, toNat_toUInt64]
  by_cases hx : 2 ^ 64 ≤ a.toNat + b.toNat
  · rw [decide_eq_true hx, Bool.true_or, Bool.toNat_true]
    omega
  · rw [decide_eq_false hx, Bool.false_or]
    by_cases hy : 2 ^ 64 ≤ (a.toNat + b.toNat) % 2 ^ 64 + carry.toNat
    · rw [decide_eq_true hy, Bool.toNat_true]
      omega
    · rw [decide_eq_false hy, toNat_false]
      omega

theorem subBorrow_value (a b : UInt64) (borrow : Bool) :
    (subBorrow a b borrow).1.toNat + b.toNat + borrow.toNat =
      a.toNat + 2 ^ 64 * (subBorrow a b borrow).2.toNat := by
  have ha := a.toNat_lt
  have hb := b.toNat_lt
  have hborrow := borrow.toNat_le
  simp only [subBorrow, overflowingSub, UInt64.toNat_sub, toNat_toUInt64]
  by_cases hx : a.toNat < b.toNat
  · rw [decide_eq_true hx, Bool.true_or, Bool.toNat_true]
    omega
  · rw [decide_eq_false hx, Bool.false_or]
    by_cases hy : (2 ^ 64 - b.toNat + a.toNat) % 2 ^ 64 < borrow.toNat
    · rw [decide_eq_true hy, Bool.toNat_true]
      omega
    · rw [decide_eq_false hy, toNat_false]
      omega

theorem addLimbs_value : ∀ {as bs : Wide} {carry : Bool}, as.length = bs.length →
    (addLimbs as bs carry).1.length = as.length ∧
      limbValue (addLimbs as bs carry).1 + (2 ^ 64) ^ as.length * (addLimbs as bs carry).2.toNat =
        limbValue as + limbValue bs + carry.toNat
  | [], [], carry, _ => by simp [addLimbs]
  | a :: as, b :: bs, carry, h => by
    have hsum := addCarry_value a b carry
    obtain ⟨hlen, hvalue⟩ := @addLimbs_value as bs (addCarry a b carry).2 (Nat.succ.inj h)
    refine ⟨congrArg Nat.succ hlen, ?_⟩
    simp only [addLimbs, limbValue_cons, length_cons, pow_succ' (2 ^ 64), Nat.mul_assoc]
    omega

theorem subLimbs_value : ∀ {as bs : Wide} {borrow : Bool}, as.length = bs.length →
    (subLimbs as bs borrow).1.length = as.length ∧
      limbValue (subLimbs as bs borrow).1 + limbValue bs + borrow.toNat =
        limbValue as + (2 ^ 64) ^ as.length * (subLimbs as bs borrow).2.toNat
  | [], [], borrow, _ => by simp [subLimbs]
  | a :: as, b :: bs, borrow, h => by
    have hdifference := subBorrow_value a b borrow
    obtain ⟨hlen, hvalue⟩ := @subLimbs_value as bs (subBorrow a b borrow).2 (Nat.succ.inj h)
    refine ⟨congrArg Nat.succ hlen, ?_⟩
    simp only [subLimbs, limbValue_cons, length_cons, pow_succ' (2 ^ 64), Nat.mul_assoc]
    omega

theorem mulRow_value (a : UInt64) : ∀ {bs rs : Wide} {carry : Nat}, rs.length ≤ bs.length →
    a.toNat * limbValue bs + limbValue rs + carry < (2 ^ 64) ^ rs.length →
    ∃ out, mulRow a bs rs carry = some out ∧ out.length = rs.length ∧
      limbValue out = a.toNat * limbValue bs + limbValue rs + carry
  | [], [], carry, _, h => by
    have hcarry : carry = 0 := by simpa using h
    exact ⟨[], by simp [mulRow, hcarry], rfl, by simp [hcarry]⟩
  | b :: bs, [], carry, _, h => by
    have hzero : a.toNat * (b.toNat + 2 ^ 64 * limbValue bs) + carry = 0 := by simpa using h
    obtain ⟨hproduct, hcarry⟩ := Nat.add_eq_zero_iff.mp hzero
    rw [Nat.mul_add] at hproduct
    obtain ⟨hab, hrest⟩ := Nat.add_eq_zero_iff.mp hproduct
    have hlater : a.toNat * limbValue bs = 0 := by
      rw [Nat.mul_left_comm] at hrest
      exact (Nat.mul_eq_zero.mp hrest).resolve_left (by decide)
    obtain ⟨out, hout, hlen, hvalue⟩ := @mulRow_value a bs [] carry
      (Nat.zero_le _) (by simp [hlater, hcarry])
    have hguard : (carry ≠ 0 || (a != 0 && b != 0)) = false := by
      rcases Nat.mul_eq_zero.mp hab with ha | hb
      · simp [hcarry, UInt64.toNat_inj.mp (ha.trans UInt64.toNat_zero.symm)]
      · simp [hcarry, UInt64.toNat_inj.mp (hb.trans UInt64.toNat_zero.symm)]
    refine ⟨out, ?_, hlen, ?_⟩
    · rw [mulRow, hguard]
      exact hout
    · rw [hvalue, limbValue_cons, hlater, Nat.mul_add, hab, hrest]
  | b :: bs, r :: rs, carry, hlen, h => by
    rw [limbValue_cons, limbValue_cons, length_cons, pow_succ' (2 ^ 64)] at h
    generalize hproduct : a.toNat * b.toNat + r.toNat + carry = product
    obtain ⟨out, hout, houtlen, hvalue⟩ := @mulRow_value a bs rs (product / 2 ^ 64)
      (Nat.le_of_succ_le_succ hlen) (by
        rw [Nat.mul_add, Nat.mul_left_comm] at h
        omega)
    refine ⟨UInt64.ofNat product :: out, ?_, congrArg Nat.succ houtlen, ?_⟩
    · rw [mulRow, hproduct, Nat.shiftRight_eq_div_pow, hout]
      rfl
    · rw [limbValue_cons, hvalue, UInt64.toNat_ofNat', limbValue_cons, limbValue_cons,
        Nat.mul_add a.toNat, Nat.mul_left_comm a.toNat]
      omega

theorem mulRows_value : ∀ {as other rs : Wide}, rs.length ≤ other.length → as.length = rs.length →
    limbValue as * limbValue other + limbValue rs < (2 ^ 64) ^ rs.length →
    ∃ out, mulRows as other rs = some out ∧ out.length = rs.length ∧
      limbValue out = limbValue as * limbValue other + limbValue rs
  | [], _, [], _, _, _ => ⟨[], rfl, rfl, by simp⟩
  | a :: as, other, r :: rs, hother, hlen, h => by
    have hsplit : limbValue (a :: as) * limbValue other =
        a.toNat * limbValue other + 2 ^ 64 * (limbValue as * limbValue other) := by
      rw [limbValue_cons, Nat.add_mul, Nat.mul_assoc]
    obtain ⟨row, hrow, hrowlen, hrowvalue⟩ := @mulRow_value a other (r :: rs) 0
      hother (by omega)
    obtain ⟨s, ss, rfl⟩ := exists_cons_of_length_eq_add_one hrowlen
    have hss : ss.length = rs.length := Nat.succ.inj hrowlen
    rw [length_cons, pow_succ' (2 ^ 64)] at h
    rw [limbValue_cons s] at hrowvalue
    obtain ⟨out, hout, houtlen, hvalue⟩ := @mulRows_value as other ss
      (by rw [hss]; exact Nat.le_of_succ_le hother) (by rw [hss]; exact Nat.succ.inj hlen) (by
        rw [hss]
        omega)
    refine ⟨s :: out, ?_, congrArg Nat.succ (houtlen.trans hss), ?_⟩
    · rw [mulRows, hrow]
      simp [hout]
    · rw [limbValue_cons, hvalue, hsplit]
      omega

theorem divLimbs_value (d : UInt64) (hd : 0 < d.toNat) : ∀ as : Wide,
    (divLimbs d as).1.length = as.length ∧ (divLimbs d as).2 < d.toNat ∧
      limbValue (divLimbs d as).1 * d.toNat + (divLimbs d as).2 = limbValue as
  | [] => by simp [divLimbs, hd]
  | a :: as => by
    obtain ⟨hlen, hlt, hvalue⟩ := divLimbs_value d hd as
    have hor : (divLimbs d as).2 <<< 64 ||| a.toNat = (divLimbs d as).2 * 2 ^ 64 + a.toNat := by
      rw [← Nat.shiftLeft_add_eq_or_of_lt a.toNat_lt, Nat.shiftLeft_eq]
    simp only [divLimbs, hor]
    generalize hv : (divLimbs d as).2 * 2 ^ 64 + a.toNat = v
    refine ⟨congrArg Nat.succ hlen, Nat.mod_lt _ hd, ?_⟩
    have hquotient : v / d.toNat < 2 ^ 64 := by
      rw [Nat.div_lt_iff_lt_mul hd]
      have := a.toNat_lt
      calc v < ((divLimbs d as).2 + 1) * 2 ^ 64 := by omega
        _ ≤ d.toNat * 2 ^ 64 := Nat.mul_le_mul_right _ hlt
        _ = 2 ^ 64 * d.toNat := Nat.mul_comm _ _
    have hdiv := Nat.div_add_mod' v d.toNat
    rw [limbValue_cons, limbValue_cons, UInt64.toNat_ofNat', Nat.mod_eq_of_lt hquotient, Nat.add_mul,
      Nat.mul_assoc, ← hvalue]
    omega

theorem Holds.lt (ha : a.Holds m) : m < 2 ^ 256 := by
  have hlt := limbValue_lt a
  rw [ha.value, ha.four] at hlt
  exact hlt

theorem fromU128_holds (hn : n < 2 ^ 128) : (fromU128 n).Holds n := by
  refine ⟨rfl, ?_⟩
  have hhigh : n / 2 ^ 64 < 2 ^ 64 := by omega
  simp only [fromU128, limbValue_cons, limbValue_nil, UInt64.toNat_ofNat', Nat.shiftRight_eq_div_pow,
    Nat.mod_eq_of_lt hhigh, UInt64.toNat_zero]
  omega

theorem add_holds (ha : a.Holds m) (hb : b.Holds n) (h : m + n < 2 ^ 256) :
    ∃ w, a.add b = some w ∧ w.Holds (m + n) := by
  obtain ⟨hlen, hvalue⟩ := @addLimbs_value a b false (ha.four.trans hb.four.symm)
  rw [ha.value, hb.value, ha.four, toNat_false] at hvalue
  cases hcarry : (addLimbs a b false).2 with
  | true =>
    rw [hcarry, Bool.toNat_true] at hvalue
    omega
  | false =>
    rw [hcarry, toNat_false] at hvalue
    refine ⟨_, by simp only [add, hcarry, false_eq_true, if_false]; rfl, ?_, by omega⟩
    exact hlen.trans ha.four

theorem subtract_holds (ha : a.Holds m) (hb : b.Holds n) (h : n ≤ m) :
    ∃ w, a.subtract b = some w ∧ w.Holds (m - n) := by
  obtain ⟨hlen, hvalue⟩ := @subLimbs_value a b false (ha.four.trans hb.four.symm)
  have hm := ha.lt
  have hlt := limbValue_lt (subLimbs a b false).1
  rw [hlen, ha.four] at hlt
  rw [ha.value, hb.value, ha.four, toNat_false] at hvalue
  cases hborrow : (subLimbs a b false).2 with
  | true =>
    rw [hborrow, Bool.toNat_true] at hvalue
    omega
  | false =>
    rw [hborrow, toNat_false] at hvalue
    refine ⟨_, by simp only [subtract, hborrow, false_eq_true, if_false]; rfl, ?_, by omega⟩
    exact hlen.trans ha.four

theorem multiply_holds (ha : a.Holds m) (hb : b.Holds n) (h : m * n < 2 ^ 256) :
    ∃ w, a.multiply b = some w ∧ w.Holds (m * n) := by
  have hzero : limbValue [0, 0, 0, 0] = 0 := by decide
  obtain ⟨w, hw, hlen, hvalue⟩ := @mulRows_value a b [0, 0, 0, 0]
    hb.four.ge ha.four (by rw [ha.value, hb.value, hzero]; exact h)
  exact ⟨w, hw, hlen, by rw [hvalue, ha.value, hb.value, hzero, Nat.add_zero]⟩

theorem divide_holds {d : UInt64} (hd : 0 < d.toNat) (ha : a.Holds m) :
    (a.divide d).1.Holds (m / d.toNat) ∧ (a.divide d).2.toNat = m % d.toNat := by
  obtain ⟨hlen, hlt, hvalue⟩ := divLimbs_value d hd a
  rw [ha.value] at hvalue
  have hquotient : limbValue (divLimbs d a).1 = m / d.toNat := by
    rw [← hvalue, Nat.mul_comm, Nat.mul_add_div hd, Nat.div_eq_of_lt hlt, Nat.add_zero]
  refine ⟨⟨hlen.trans ha.four, hquotient⟩, ?_⟩
  have hbound := d.toNat_lt
  rw [divide, UInt64.toNat_ofNat', Nat.mod_eq_of_lt (hlt.trans hbound), ← hvalue,
    Nat.mul_comm, Nat.mul_add_mod, Nat.mod_eq_of_lt hlt]

theorem signed_holds (ha : a.Holds m) :
    a.signed = if m < 2 ^ 127 then some (m : Int) else none := by
  obtain ⟨hfour, hvalue⟩ := ha
  match a, hfour with
  | [x, y, z, t], _ =>
    have hx := x.toNat_lt
    have hy := y.toNat_lt
    simp only [limbValue_cons, limbValue_nil] at hvalue
    have hor : y.toNat <<< 64 ||| x.toNat = y.toNat * 2 ^ 64 + x.toNat := by
      rw [← Nat.shiftLeft_add_eq_or_of_lt hx, Nat.shiftLeft_eq]
    have hzero : ∀ c : UInt64, (c != 0) = true ↔ c.toNat ≠ 0 := by
      intro c
      rw [bne_iff_ne, ne_eq, ← UInt64.toNat_inj, UInt64.toNat_zero]
    have hshift : (y >>> 63).toNat = y.toNat / 2 ^ 63 := by
      rw [UInt64.toNat_shiftRight]
      exact Nat.shiftRight_eq_div_pow _ _
    simp only [signed, or_eq_true, hzero, hshift, hor]
    split
    · rw [if_neg (by omega)]
    · rw [if_pos (by omega)]
      congr 2
      omega

end Wide

theorem gcd_toNat (a b : UInt64) : (gcd a b).toNat = Nat.gcd a.toNat b.toNat := by
  fun_induction gcd a b with
  | case1 a => rw [UInt64.toNat_zero, Nat.gcd_zero_right]
  | case2 a b h ih => rw [ih, UInt64.toNat_mod, Nat.gcd_comm, Nat.gcd_comm a.toNat, Nat.gcd_rec b.toNat]

/-! ## The variance -/

/-- `n * sum of squares - square of the sum`. -/
def spread (l : List Int) : Int := l.length * (l.map (· ^ 2)).sum - l.sum ^ 2

/-- The population variance. -/
def populationVariance (l : List Int) : ℚ := spread l / ((l.length : Int) ^ 2 : Int)

variable (l : List Int)

theorem sum_sub (m : Int) : (l.map (· - m)).sum = l.sum - l.length * m := by
  induction l with
  | nil => simp
  | cons x l ih =>
    simp only [map_cons, sum_cons, length_cons, ih]
    push_cast
    ring

theorem sum_sq_sub (m : Int) : (l.map fun x => (x - m) ^ 2).sum =
    (l.map (· ^ 2)).sum - 2 * m * l.sum + l.length * m ^ 2 := by
  induction l with
  | nil => simp
  | cons x l ih =>
    simp only [map_cons, sum_cons, length_cons, ih]
    push_cast
    ring

theorem spread_sub (m : Int) : spread (l.map (· - m)) = spread l := by
  have hsquares := sum_sq_sub l m
  unfold spread
  rw [map_map, length_map, sum_sub]
  simp only [Function.comp_def, hsquares]
  ring

theorem spread_nonneg : 0 ≤ spread l := by
  induction l with
  | nil => simp [spread]
  | cons x l ih =>
    have hsquares := sum_sq_sub l x
    have hnonneg : 0 ≤ (l.map fun y => (y - x) ^ 2).sum :=
      sum_nonneg (by simpa using fun y _ => sq_nonneg (y - x))
    have hcons : spread (x :: l) = spread l + (l.map fun y => (y - x) ^ 2).sum := by
      rw [hsquares]
      simp only [spread, map_cons, sum_cons, length_cons]
      push_cast
      ring
    omega

/-- The distances from a minimum. -/
def deltas (amounts : List I64) (minimum : I64) : List Nat :=
  amounts.map fun x : I64 => ((x : Int) - minimum).toNat

section

variable {minimum : I64}

theorem fold_holds : ∀ {amounts : List I64} {s q : Nat} {w : Wide}, w.Holds q →
    (∀ x ∈ amounts, (minimum : Int) ≤ x ∧ (x : Int) - minimum ≤ 2 ^ 63) →
    s + amounts.length * 2 ^ 63 < 2 ^ 128 → q + amounts.length * 2 ^ 126 < 2 ^ 256 →
    ∃ w', amounts.foldlM (addOccurrence minimum) (s, w) =
        some (s + (deltas amounts minimum).sum, w') ∧
      w'.Holds (q + ((deltas amounts minimum).map (· ^ 2)).sum)
  | [], s, q, w, hw, _, _, _ => ⟨w, rfl, hw⟩
  | x :: l, s, q, w, hw, hall, hs, hq => by
    obtain ⟨⟨hle, hdelta⟩, hrest⟩ := forall_mem_cons.mp hall
    obtain ⟨d, hd⟩ := Int.eq_ofNat_of_zero_le (sub_nonneg.mpr hle)
    have hd63 : d ≤ 2 ^ 63 := by omega
    have hsquare : d * d ≤ 2 ^ 126 :=
      (Nat.mul_le_mul hd63 hd63).trans (by decide)
    rw [length_cons, Nat.add_mul] at hs hq
    obtain ⟨v, hv, hvholds⟩ := Wide.add_holds hw (Wide.fromU128_holds (n := d * d) (by omega))
      (by omega)
    have hstep : addOccurrence minimum (s, w) x = some (s + d, v) := by
      unfold addOccurrence checkedNat
      simp only [hd, Int.toNat_natCast]
      rw [if_pos (by omega), Option.bind_eq_bind, Option.bind_some, if_pos (by omega),
        if_pos (by omega)]
      simp [hv]
    obtain ⟨w', hfold, hholds⟩ := fold_holds (s := s + d) hvholds hrest (by omega) (by omega)
    refine ⟨w', ?_, ?_⟩
    · rw [foldlM_cons, hstep, deltas, map_cons, sum_cons, hd, Int.toNat_natCast,
        ← Nat.add_assoc]
      exact hfold
    · rw [deltas, map_cons, map_cons, sum_cons, hd, Int.toNat_natCast, Nat.pow_two,
        ← Nat.add_assoc]
      exact hholds

variable {amounts : List I64}

theorem spread_deltas (hleast : ∀ x ∈ amounts, (minimum : Int) ≤ x) :
    ((amounts.length * ((deltas amounts minimum).map (· ^ 2)).sum : Nat) : Int) -
      ((deltas amounts minimum).sum * (deltas amounts minimum).sum : Nat) =
        spread (amounts.map Subtype.val) := by
  have hcast : (deltas amounts minimum).map (fun d : Nat => (d : Int)) =
      (amounts.map Subtype.val).map (· - (minimum : Int)) := by
    rw [deltas, map_map, map_map]
    refine map_congr_left fun x hx => ?_
    exact Int.toNat_of_nonneg (sub_nonneg.mpr (hleast x hx))
  have hlen : (deltas amounts minimum).length = amounts.length := length_map _
  rw [← spread_sub _ minimum, ← hcast, spread, length_map, hlen, Nat.cast_mul, Nat.cast_mul,
    Nat.cast_list_sum, Nat.cast_list_sum, map_map, map_map, sq]
  simp only [Function.comp_def, Nat.cast_pow]

theorem delta_le (hmin : minimum ∈ amounts)
    (hsign : (∀ x ∈ amounts, 0 ≤ (x : Int)) ∨ ∀ x ∈ amounts, (x : Int) ≤ 0) :
    ∀ x ∈ amounts, (x : Int) - minimum ≤ 2 ^ 63 := by
  intro x hx
  have hmax := I64.le_max x
  have hleast := I64.min_le minimum
  rcases hsign with hsign | hsign
  · have := hsign minimum hmin
    omega
  · have := hsign x hx
    omega

theorem sum_deltas_le (hdelta : ∀ x ∈ amounts, (x : Int) - minimum ≤ 2 ^ 63) :
    (deltas amounts minimum).sum ≤ amounts.length * 2 ^ 63 ∧
      ((deltas amounts minimum).map (· ^ 2)).sum ≤ amounts.length * 2 ^ 126 := by
  have hall : ∀ d ∈ deltas amounts minimum, d ≤ 2 ^ 63 := by
    intro d hd
    obtain ⟨x, hx, rfl⟩ := mem_map.mp hd
    have := hdelta x hx
    omega
  have hlen : (deltas amounts minimum).length = amounts.length := length_map _
  have hsum := sum_le_card_nsmul _ _ hall
  have hsquares := sum_le_card_nsmul ((deltas amounts minimum).map (· ^ 2)) (2 ^ 126) (by
    intro d hd
    obtain ⟨e, he, rfl⟩ := mem_map.mp hd
    exact (Nat.pow_le_pow_left (hall e he) 2).trans (by decide))
  rw [length_map] at hsquares
  rw [hlen, nsmul_eq_mul, Nat.cast_id] at hsum hsquares
  exact ⟨hsum, hsquares⟩

end

/-- The steps of `variance` that could overflow, or borrow, do not. -/
def Undisturbed (amounts : List I64) (minimum : I64) (numerator : Wide) : Prop :=
  ∃ sum squares product square,
    amounts.foldlM (addOccurrence minimum) (0, .fromU128 0) = some (sum, squares) ∧
    squares.multiply (.fromU128 (UInt64.ofNat amounts.length).toNat) = some product ∧
    (Wide.fromU128 sum).multiply (.fromU128 sum) = some square ∧
    product.subtract square = some numerator

theorem undisturbed {amounts : List I64} {minimum : I64} (hlen : amounts.length ≤ 250000)
    (hmin : minimum ∈ amounts) (hleast : ∀ x ∈ amounts, (minimum : Int) ≤ x)
    (hsign : (∀ x ∈ amounts, 0 ≤ (x : Int)) ∨ ∀ x ∈ amounts, (x : Int) ≤ 0) :
    ∃ numerator, Undisturbed amounts minimum numerator ∧
      numerator.Holds (spread (amounts.map Subtype.val)).toNat := by
  have hdelta := delta_le hmin hsign
  obtain ⟨hsum, hsquares⟩ := sum_deltas_le hdelta
  have hspread := spread_deltas hleast
  have hnonneg := spread_nonneg (amounts.map Subtype.val)
  have hn : (UInt64.ofNat amounts.length).toNat = amounts.length := by
    rw [UInt64.toNat_ofNat']
    exact Nat.mod_eq_of_lt (by omega)
  obtain ⟨squares, hfold, hholds⟩ := @fold_holds minimum amounts 0 _ _
    (Wide.fromU128_holds (n := 0) (by decide)) (fun x hx => ⟨hleast x hx, hdelta x hx⟩) (by omega)
    (by omega)
  rw [Nat.zero_add] at hfold hholds
  generalize (deltas amounts minimum).sum = sum at *
  generalize ((deltas amounts minimum).map (· ^ 2)).sum = q at *
  have hproduct : q * amounts.length < 2 ^ 256 := by
    have hle : q ≤ 250000 * 2 ^ 126 := hsquares.trans (Nat.mul_le_mul_right _ hlen)
    exact (Nat.mul_le_mul hle hlen).trans_lt (by decide)
  have hsquare : sum * sum < 2 ^ 256 := by
    have hle : sum ≤ 250000 * 2 ^ 63 := hsum.trans (Nat.mul_le_mul_right _ hlen)
    exact (Nat.mul_le_mul hle hle).trans_lt (by decide)
  obtain ⟨product, hmul, hproductHolds⟩ := Wide.multiply_holds hholds
    (Wide.fromU128_holds (n := amounts.length) (by omega)) hproduct
  have hsumHolds := Wide.fromU128_holds (n := sum) (by omega)
  obtain ⟨square, hsq, hsquareHolds⟩ := Wide.multiply_holds hsumHolds hsumHolds hsquare
  rw [Nat.mul_comm] at hproductHolds
  obtain ⟨numerator, hnumerator, hnumeratorHolds⟩ :=
    Wide.subtract_holds hproductHolds hsquareHolds (by omega)
  refine ⟨numerator, ⟨sum, squares, product, square, hfold, by rwa [hn], hsq, hnumerator⟩, ?_⟩
  rwa [show (spread (amounts.map Subtype.val)).toNat = amounts.length * q - sum * sum by omega]

theorem num_den_of_gcd (p : Nat) {q : Nat} (hq : 0 < q) :
    ((p : ℚ) / q).num = (p / Nat.gcd p q : Nat) ∧ ((p : ℚ) / q).den = q / Nat.gcd p q := by
  have hg : 0 < Nat.gcd p q := Nat.gcd_pos_of_pos_right _ hq
  have hcoprime : Nat.Coprime (p / Nat.gcd p q) (q / Nat.gcd p q) := Nat.coprime_div_gcd_div_gcd hg
  have hb : (0 : Int) < (q / Nat.gcd p q : Nat) :=
    Int.natCast_pos.mpr (Nat.div_pos (Nat.le_of_dvd hq (Nat.gcd_dvd_right p q)) hg)
  have hreduced : (p : ℚ) / q =
      ((p / Nat.gcd p q : Nat) : Int) / ((q / Nat.gcd p q : Nat) : Int) := by
    have hgq : ((Nat.gcd p q : Nat) : ℚ) ≠ 0 := Nat.cast_ne_zero.mpr hg.ne'
    rw [Int.cast_natCast, Int.cast_natCast, Nat.cast_div (Nat.gcd_dvd_left p q) hgq,
      Nat.cast_div (Nat.gcd_dvd_right p q) hgq, div_div_div_cancel_right₀ hgq]
  rw [hreduced]
  exact ⟨Rat.num_div_eq_of_coprime hb hcoprime,
    Int.natCast_inj.mp (Rat.den_div_eq_of_coprime (a := (p / Nat.gcd p q : Nat)) hb hcoprime)⟩

/-- **The variance is exact**, and nothing overflows on the way to it. -/
theorem variance_exact (amounts : List I64) (minimum : I64) (hlen : amounts.length ≤ 250000)
    (hmin : minimum ∈ amounts) (hleast : ∀ x ∈ amounts, (minimum : Int) ≤ x)
    (hsign : (∀ x ∈ amounts, 0 ≤ (x : Int)) ∨ ∀ x ∈ amounts, (x : Int) ≤ 0) :
    (∃ numerator, Undisturbed amounts minimum numerator) ∧
      variance amounts minimum =
        if (populationVariance (amounts.map Subtype.val)).num < 2 ^ 127 then
          some (toString (populationVariance (amounts.map Subtype.val)).num,
            toString (populationVariance (amounts.map Subtype.val)).den)
        else none := by
  obtain ⟨numerator, hsteps, hholds⟩ := undisturbed hlen hmin hleast hsign
  refine ⟨⟨numerator, hsteps⟩, ?_⟩
  obtain ⟨sum, squares, product, square, hfold, hproduct, hsquare, hnumerator⟩ := hsteps
  have hpos := length_pos_of_mem hmin
  obtain ⟨p, hp⟩ := Int.eq_ofNat_of_zero_le (spread_nonneg (amounts.map Subtype.val))
  rw [hp, Int.toNat_natCast] at hholds
  have hn : (UInt64.ofNat amounts.length).toNat = amounts.length := by
    rw [UInt64.toNat_ofNat']
    exact Nat.mod_eq_of_lt (by omega)
  obtain ⟨q, hq⟩ : ∃ q, q = amounts.length * amounts.length := ⟨_, rfl⟩
  have hqpos : 0 < q := hq ▸ Nat.mul_pos hpos hpos
  have hqlt : q < 2 ^ 64 := hq ▸ (Nat.mul_le_mul hlen hlen).trans_lt (by decide)
  have hd : (UInt64.ofNat q).toNat = q := by
    rw [UInt64.toNat_ofNat', Nat.mod_eq_of_lt hqlt]
  have hvariance : populationVariance (amounts.map Subtype.val) = (p : ℚ) / q := by
    rw [populationVariance, hp, length_map, hq]
    push_cast
    rw [sq]
  obtain ⟨hnum, hden⟩ := num_den_of_gcd p hqpos
  have hremainder := (Wide.divide_holds (d := UInt64.ofNat q) (by omega) hholds).2
  have hdivisor : (gcd (numerator.divide (UInt64.ofNat q)).2 (UInt64.ofNat q)).toNat =
      Nat.gcd p q := by
    rw [gcd_toNat, hremainder, hd, ← Nat.gcd_rec, Nat.gcd_comm]
  have hdivided := (Wide.divide_holds (d := gcd (numerator.divide (UInt64.ofNat q)).2
    (UInt64.ofNat q)) (by rw [hdivisor]; exact Nat.gcd_pos_of_pos_right _ hqpos) hholds).1
  have hsigned := Wide.signed_holds hdivided
  have hreduced : (UInt64.ofNat q / gcd (numerator.divide (UInt64.ofNat q)).2
      (UInt64.ofNat q)).toNat = q / Nat.gcd p q := by
    rw [UInt64.toNat_div, hd, hdivisor]
  unfold variance
  simp only [hfold, Option.bind_eq_bind, Option.bind_some, hproduct, hsquare, hnumerator]
  rw [hn, ← hq, checkedNat, if_pos hqlt, Option.bind_some, hsigned, hreduced, hdivisor, hvariance,
    hnum, hden]
  by_cases hfits : p / Nat.gcd p q < 2 ^ 127
  · rw [if_pos hfits, if_pos (by exact_mod_cast hfits)]
    rfl
  · rw [if_neg hfits, if_neg (by exact_mod_cast hfits)]
    rfl

theorem variance_exact_cents :
    (∃ numerator, Undisturbed [I64.ofInt (-5), I64.ofInt (-2)] (I64.ofInt (-5)) numerator) ∧
      variance [I64.ofInt (-5), I64.ofInt (-2)] (I64.ofInt (-5)) =
        if (populationVariance [-5, -2]).num < 2 ^ 127 then
          some (toString (populationVariance [-5, -2]).num,
            toString (populationVariance [-5, -2]).den)
        else none :=
  variance_exact _ _ (by decide) (by decide) (by decide) (.inr (by decide))

end BalanceFrame.Merchant
