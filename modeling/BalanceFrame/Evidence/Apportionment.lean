import BalanceFrame.Evidence.Receipts
import BalanceFrame.Library.Lists
import Mathlib.Data.Rat.Floor

/-!
# Apportionment by largest remainders

What `allocateEvidenceAmount` returns, for every amount and all weights with a positive total. The
units left over after rounding down, times the total, are the sum of the remainders
(`floors_exact`), so they are no more than there are remainders above zero (`left_le_nonzero`): the
units left go to such remainders only (`raised_nonzero`).
-/

namespace BalanceFrame.Evidence

open Library List
open Liquidity (I64 InI64 Money Checked)

/-- What an allocation by weights is to give. -/
structure Apportions (amount : Money) (weights : List Nat) (shares : List Money) : Prop where
  shared : shares.length = weights.length
  currency : ∀ s ∈ shares, s.currency = amount.currency
  exact_ : (shares.map fun s => (s.minorUnits : Int)).sum = amount.minorUnits
  rounded : ∀ (i w : Nat) (s : Money), weights[i]? = some w → shares[i]? = some s →
    (s.minorUnits : Int) = ⌊((amount.minorUnits : Int) * w : ℚ) / weights.sum⌋ ∨
    (s.minorUnits : Int) = ⌈((amount.minorUnits : Int) * w : ℚ) / weights.sum⌉
  nothing : ∀ (i : Nat) (s : Money), weights[i]? = some 0 → shares[i]? = some s → (s.minorUnits : Int) = 0
  ordered : ∀ (i j w v : Nat) (s r : Money), weights[i]? = some w → weights[j]? = some v → w < v →
    shares[i]? = some s → shares[j]? = some r → (s.minorUnits : Int) ≤ r.minorUnits

section

variable (units : Nat) (weights : List Nat)

/-- The quotas rounded down. -/
def floors : List Nat := weights.map fun w => units * w / weights.sum

/-- The remainders, with their positions. -/
def remainders : List (Nat × Nat) := (weights.map fun w => units * w % weights.sum).zipIdx

/-- The units left over. -/
def left : Nat := units - (floors units weights).sum

/-- The remainders that are raised. -/
def taken : List (Nat × Nat) :=
  (sortOn (fun p => -(p.1 : Int)) (remainders units weights)).take (left units weights)

/-- The positions that are raised. -/
def raised : List Nat := (taken units weights).map (·.2)

/-- The share at a position. -/
def shareAt (i w : Nat) : Nat :=
  units * w / weights.sum + if i ∈ raised units weights then 1 else 0

end

variable {units i w : Nat} {weights : List Nat}

theorem mem_remainders {r : Nat} :
    (r, i) ∈ remainders units weights ↔ ∃ w, weights[i]? = some w ∧ units * w % weights.sum = r := by
  rw [remainders, mk_mem_zipIdx_iff_getElem?, getElem?_map, Option.map_eq_some_iff]

theorem floors_exact (units : Nat) (weights : List Nat) (t : Nat) : (weights.map fun w => units * w / t).sum * t +
    (weights.map fun w => units * w % t).sum = units * weights.sum := by
  induction weights with
  | nil => simp
  | cons w l ih =>
    have hw := Nat.div_add_mod' (units * w) t
    simp only [map_cons, sum_cons, Nat.add_mul, Nat.mul_add]
    omega

theorem sum_mod_le (t : Nat) (ht : 0 < t) : (weights.map fun w => units * w % t).sum ≤
    ((weights.map fun w => units * w % t).filter (· ≠ 0)).length * t := by
  induction weights with
  | nil => simp
  | cons w l ih =>
    have hw := Nat.mod_lt (units * w) ht
    by_cases hzero : units * w % t = 0
    · simpa [hzero] using ih
    · rw [map_cons, sum_cons, filter_cons_of_pos (by simpa using hzero),
        length_cons, Nat.add_mul]
      omega

theorem floors_le (ht : 0 < weights.sum) : (floors units weights).sum ≤ units := by
  have hexact := floors_exact units weights weights.sum
  exact Nat.le_of_mul_le_mul_right (by rw [floors]; omega) ht

theorem left_mul (ht : 0 < weights.sum) : left units weights * weights.sum =
    (weights.map fun w => units * w % weights.sum).sum := by
  have hexact := floors_exact units weights weights.sum
  have hle := @floors_le units weights ht
  rw [left, Nat.sub_mul, floors]
  omega

theorem left_le_nonzero (ht : 0 < weights.sum) : left units weights ≤
    ((sortOn (fun p => -(p.1 : Int)) (remainders units weights)).filter (·.1 ≠ 0)).length := by
  have hperm := (perm_sortOn (fun p => -(p.1 : Int)) (remainders units weights)).filter (·.1 ≠ 0)
  have hcount : ((remainders units weights).filter (·.1 ≠ 0)).length =
      ((weights.map fun w => units * w % weights.sum).filter (· ≠ 0)).length := by
    rw [← length_map (f := Prod.fst), remainders]
    conv_rhs => rw [← zipIdx_map_fst 0 (weights.map fun w => units * w % weights.sum)]
    rw [filter_map]
    rfl
  rw [hperm.length_eq, hcount]
  refine Nat.le_of_mul_le_mul_right ?_ ht
  rw [left_mul ht]
  exact sum_mod_le _ ht

/-- A remainder that is raised is above zero: at a zero one, all others above zero would be raised
as well, and they are enough. -/
theorem taken_nonzero (ht : 0 < weights.sum) {p : Nat × Nat} (hp : p ∈ taken units weights) :
    p.1 ≠ 0 := by
  intro hzero
  have hle := @left_le_nonzero units weights ht
  have hrest : ∀ q ∈ (sortOn (fun p => -(p.1 : Int)) (remainders units weights)).drop
      (left units weights), ¬q.1 ≠ 0 := by
    intro q hq hne
    have := key_le_of_take_drop hp hq
    omega
  have hnone : List.filter (·.1 ≠ 0) ((sortOn (fun p => -(p.1 : Int))
      (remainders units weights)).drop (left units weights)) = [] :=
    filter_eq_nil_iff.mpr fun q hq => by simpa using hrest q hq
  rw [← take_append_drop (left units weights) (sortOn _ _), filter_append, hnone,
    append_nil] at hle
  have hlt : (List.filter (·.1 ≠ 0) (taken units weights)).length < (taken units weights).length :=
    length_filter_lt_length_iff_exists.mpr ⟨p, hp, by simpa using hzero⟩
  have hlen := length_take_le (left units weights)
    (sortOn (fun p => -(p.1 : Int)) (remainders units weights))
  exact absurd hle (not_le.mpr (lt_of_lt_of_le hlt hlen))

theorem raised_nonzero (ht : 0 < weights.sum) (hw : weights[i]? = some w)
    (hi : i ∈ raised units weights) : units * w % weights.sum ≠ 0 := by
  obtain ⟨⟨r, j⟩, hp, rfl⟩ := mem_map.mp hi
  obtain ⟨v, hv, rfl⟩ := mem_remainders.mp ((mem_sortOn _).mp (mem_of_mem_take hp))
  obtain rfl := Option.some.inj (hw.symm.trans hv)
  exact taken_nonzero ht hp

theorem raised_of_larger {j v : Nat} (hw : weights[i]? = some w) (hv : weights[j]? = some v)
    (hlt : units * w % weights.sum < units * v % weights.sum) (hi : i ∈ raised units weights) :
    j ∈ raised units weights := by
  obtain ⟨⟨r, k⟩, hp, rfl⟩ := mem_map.mp hi
  obtain ⟨w', hw', rfl⟩ := mem_remainders.mp ((mem_sortOn _).mp (mem_of_mem_take hp))
  obtain rfl := Option.some.inj (hw.symm.trans hw')
  refine mem_map.mpr ⟨(units * v % weights.sum, j), ?_, rfl⟩
  have hmem : (units * v % weights.sum, j) ∈
      sortOn (fun p => -(p.1 : Int)) (remainders units weights) :=
    (mem_sortOn _).mpr (mem_remainders.mpr ⟨v, hv, rfl⟩)
  rw [← take_append_drop (left units weights) (sortOn _ _)] at hmem
  rcases mem_append.mp hmem with htaken | hdropped
  · exact htaken
  · have := key_le_of_take_drop hp hdropped
    omega

theorem raised_nodup : (raised units weights).Nodup := by
  have hsub : List.Sublist (raised units weights)
      ((sortOn (fun p => -(p.1 : Int)) (remainders units weights)).map (·.2)) :=
    (take_sublist _ _).map _
  refine hsub.nodup (((perm_sortOn _ _).map _).nodup_iff.mpr ?_)
  rw [remainders, zipIdx_map_snd]
  exact nodup_range'

theorem raised_lt (hi : i ∈ raised units weights) : i < weights.length := by
  obtain ⟨⟨r, j⟩, hp, rfl⟩ := mem_map.mp hi
  obtain ⟨w, hw, -⟩ := mem_remainders.mp ((mem_sortOn _).mp (mem_of_mem_take hp))
  exact (List.getElem?_eq_some_iff.mp hw).1

theorem length_raised (ht : 0 < weights.sum) :
    (raised units weights).length = left units weights := by
  rw [raised, length_map, taken, length_take]
  exact min_eq_left ((left_le_nonzero ht).trans (length_filter_le _ _))

theorem sum_shareAt (ht : 0 < weights.sum) :
    (weights.zipIdx.map fun p => (shareAt units weights p.2 p.1 : Int)).sum = units := by
  have hraise := sum_map_raise (f := fun w => units * w / weights.sum) raised_nodup
    fun _ => @raised_lt units _ weights
  have hle := @floors_le units weights ht
  unfold shareAt
  rw [hraise, length_raised ht, left]
  rw [floors] at hle ⊢
  omega

theorem allocateEvidenceAmount_eq {amount : Money} (hunits : (amount.minorUnits : Int) = units)
    (ht : 0 < weights.sum) : allocateEvidenceAmount amount weights =
      .ok (weights.zipIdx.map fun p => ⟨I64.wrap (shareAt units weights p.2 p.1),
        amount.currency⟩) := by
  have hneg : decide ((amount.minorUnits : Int) < 0) = false := by simp [hunits]
  have hnat : (amount.minorUnits : Int).toNat = units := by rw [hunits, Int.toNat_natCast]
  rw [allocateEvidenceAmount, hneg, reject_false, ok_bind]
  dsimp only
  rw [if_neg ht.ne', hnat]
  refine congrArg Except.ok ?_
  conv_lhs => arg 2; rw [zipIdx_map]
  rw [map_map]
  refine map_congr_left fun p _ => ?_
  have hraised : List.contains (raised units weights) p.2 = true ↔ p.2 ∈ raised units weights :=
    contains_iff_mem
  unfold raised taken left floors remainders at hraised
  simp only [Function.comp, Prod.map, id, hraised]
  unfold shareAt raised taken left floors remainders
  split <;> simp

theorem shareAt_le (ht : 0 < weights.sum) (hw : weights[i]? = some w) :
    shareAt units weights i w ≤ units := by
  have hsum := @sum_shareAt units weights ht
  have hle := single_le_sum (l := weights.zipIdx.map fun p =>
    (shareAt units weights p.2 p.1 : Int)) (fun n hn => ?_) (shareAt units weights i w)
    (mem_map.mpr ⟨(w, i), mk_mem_zipIdx_iff_getElem?.mpr hw, rfl⟩)
  · rw [hsum] at hle
    exact_mod_cast hle
  · obtain ⟨p, -, rfl⟩ := mem_map.mp hn
    exact Int.natCast_nonneg _

theorem div_add_one_eq_ceil {a t : Nat} (hrem : a % t ≠ 0) (ht : 0 < t) :
    ((a / t + 1 : Nat) : Int) = ⌈(a : ℚ) / t⌉ := by
  have hdiv := Nat.div_add_mod' a t
  have hmod := Nat.mod_lt a ht
  have hpos : (0 : ℚ) < t := by exact_mod_cast ht
  rw [eq_comm, Int.ceil_eq_iff, lt_div_iff₀ hpos, div_le_iff₀ hpos]
  push_cast
  rw [add_sub_cancel_right]
  constructor
  · exact_mod_cast (show a / t * t < a by omega)
  · exact_mod_cast (show a ≤ (a / t + 1) * t by rw [Nat.add_mul]; omega)

theorem shareAt_rounded (ht : 0 < weights.sum) (hw : weights[i]? = some w) :
    (shareAt units weights i w : Int) = ⌊((units * w : Nat) : ℚ) / weights.sum⌋ ∨
      (shareAt units weights i w : Int) = ⌈((units * w : Nat) : ℚ) / weights.sum⌉ := by
  unfold shareAt
  by_cases hi : i ∈ raised units weights
  · right
    rw [if_pos hi, div_add_one_eq_ceil (raised_nonzero ht hw hi) ht]
  · left
    rw [if_neg hi, Nat.add_zero, Rat.floor_natCast_div_natCast]
    exact Int.natCast_div _ _

theorem shareAt_mono {j v : Nat} (ht : 0 < weights.sum) (hw : weights[i]? = some w)
    (hv : weights[j]? = some v) (hlt : w < v) :
    shareAt units weights i w ≤ shareAt units weights j v := by
  have hle : units * w ≤ units * v := Nat.mul_le_mul_left _ hlt.le
  have hdiv := Nat.div_le_div_right (c := weights.sum) hle
  unfold shareAt
  by_cases hi : i ∈ raised units weights
  · by_cases hj : j ∈ raised units weights
    · rw [if_pos hi, if_pos hj]
      omega
    · rw [if_pos hi, if_neg hj]
      by_contra hgt
      -- Equal quotients: the larger product has the larger remainder, and is raised first.
      have hequal : units * w / weights.sum = units * v / weights.sum := by omega
      have hdw := Nat.div_add_mod (units * w) weights.sum
      have hdv := Nat.div_add_mod (units * v) weights.sum
      have hunits : 0 < units := by
        refine Nat.pos_of_ne_zero fun hzero => raised_nonzero ht hw hi ?_
        rw [hzero, Nat.zero_mul, Nat.zero_mod]
      have hstrict : units * w < units * v := Nat.mul_lt_mul_of_pos_left hlt hunits
      rw [hequal] at hdw
      exact hj (raised_of_larger hw hv (by omega) hi)
  · rw [if_neg hi]
    omega

theorem coe_shareAt (hmax : units ≤ 9223372036854775807) (ht : 0 < weights.sum)
    (hw : weights[i]? = some w) :
    (I64.wrap (shareAt units weights i w) : Int) = shareAt units weights i w := by
  have hle := @shareAt_le units i w weights ht hw
  exact I64.coe_wrap (by unfold InI64; omega)

/-- **Shares by largest remainders.** -/
theorem allocated_by_largest_remainders (amount : Money) (weights : List Nat)
    (hamount : 0 ≤ (amount.minorUnits : Int)) (htotal : 0 < weights.sum) :
    ∃ shares, allocateEvidenceAmount amount weights = .ok shares ∧
      Apportions amount weights shares := by
  obtain ⟨units, hunits⟩ := Int.eq_ofNat_of_zero_le hamount
  have hmax : units ≤ 9223372036854775807 := by
    have := I64.le_max amount.minorUnits
    omega
  refine ⟨_, allocateEvidenceAmount_eq hunits htotal, ?_⟩
  have hat : ∀ {i w} {s : Money}, weights[i]? = some w →
      (weights.zipIdx.map fun p => (⟨I64.wrap (shareAt units weights p.2 p.1),
        amount.currency⟩ : Money))[i]? = some s →
      (s.minorUnits : Int) = shareAt units weights i w := by
    intro i w s hw hs
    rw [getElem?_map, getElem?_zipIdx, hw, Nat.zero_add] at hs
    obtain rfl := Option.some.inj hs
    exact coe_shareAt hmax htotal hw
  constructor
  · simp
  · intro s hs
    obtain ⟨p, -, rfl⟩ := mem_map.mp hs
    rfl
  · rw [map_map, hunits, ← @sum_shareAt units weights htotal]
    refine congrArg List.sum (map_congr_left fun p hp => ?_)
    rw [Function.comp_apply]
    exact coe_shareAt hmax htotal (mk_mem_zipIdx_iff_getElem?.mp hp)
  · intro i w s hw hs
    rw [hat hw hs, hunits]
    have hrounded := @shareAt_rounded units i w weights htotal hw
    rw [Nat.cast_mul] at hrounded
    exact_mod_cast hrounded
  · intro i s hw hs
    have hraised : i ∉ raised units weights := fun hi =>
      raised_nonzero htotal hw hi (by rw [Nat.mul_zero, Nat.zero_mod])
    rw [hat hw hs, shareAt, if_neg hraised]
    simp
  · intro i j w v s r hw hv hlt hs hr
    rw [hat hw hs, hat hv hr]
    exact_mod_cast shareAt_mono htotal hw hv hlt

theorem allocated_by_largest_remainders_thirds :
    ∃ shares, allocateEvidenceAmount ⟨I64.ofInt 10, "USD"⟩ [1, 0, 2] = .ok shares ∧
      Apportions ⟨I64.ofInt 10, "USD"⟩ [1, 0, 2] shares :=
  allocated_by_largest_remainders _ _ (by decide) (by decide)

end BalanceFrame.Evidence
