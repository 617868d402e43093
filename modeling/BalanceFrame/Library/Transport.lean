import BalanceFrame.Library.Lists
import Mathlib.Algebra.Order.BigOperators.Group.List
import Mathlib.Algebra.Order.Ring.Int

/-!
# Distributing supplies over demands

`totalWhere` sums some members of a list. A supply serves any demand, or is `bound` to one.
`exists_covers`: when the supplies that are bound to nothing suffice for what the demands need
beyond the supplies bound to them, every demand can be met from the supplies (`Covers`).
-/

namespace BalanceFrame.Library

open List

variable {ι κ : Type}

/-- The sum over the members that pass a test. -/
def totalWhere (p : ι → Bool) (units : ι → ℤ) (l : List ι) : ℤ := ((l.filter p).map units).sum

@[simp] theorem totalWhere_nil (p : ι → Bool) (units : ι → ℤ) : totalWhere p units [] = 0 := rfl

theorem totalWhere_snoc (p : ι → Bool) (units : ι → ℤ) (l : List ι) (i : ι) :
    totalWhere p units (l ++ [i]) = totalWhere p units l + if p i = true then units i else 0 :=
  sum_filter_append_singleton p units l i

variable {l : List ι}

theorem totalWhere_nonneg {p : ι → Bool} {units : ι → ℤ} (h : ∀ i ∈ l, 0 ≤ units i) :
    0 ≤ totalWhere p units l := by
  refine sum_nonneg fun v hv => ?_
  obtain ⟨i, hi, rfl⟩ := mem_map.mp hv
  exact h i (mem_of_mem_filter hi)

/-- What is bound to a demand, or to nothing. -/
def boundTo [DecidableEq κ] (bound : ι → Option κ) (supply : ι → ℤ) (l : List ι) (k : Option κ) :
    ℤ := totalWhere (fun i => decide (bound i = k)) supply l

/-- How much of each supply goes to each demand. -/
structure Covers (bound : ι → Option κ) (supply : ι → ℤ) (demand : κ → ℤ) (l : List ι)
    (m : List κ) (d : ι → κ → ℤ) : Prop where
  nonneg : ∀ i k, 0 ≤ d i k
  bound : ∀ i ∈ l, ∀ k ∈ m, d i k ≠ 0 → bound i = none ∨ bound i = some k
  within : ∀ i ∈ l, (m.map (d i)).sum ≤ supply i
  met : ∀ k ∈ m, (l.map fun i => d i k).sum = demand k

/-! ## One demand -/

/-- **A demand within the supplies is taken from them**, from each as much as it has. -/
theorem exists_take [DecidableEq ι] {supply : ι → ℤ} :
    ∀ {l : List ι}, l.Nodup → (∀ i ∈ l, 0 ≤ supply i) → ∀ {n : ℤ}, 0 ≤ n →
      n ≤ (l.map supply).sum → ∃ y : ι → ℤ, (∀ i, 0 ≤ y i) ∧ (∀ i ∈ l, y i ≤ supply i) ∧
        (∀ i, i ∉ l → y i = 0) ∧ (l.map y).sum = n
  | [], _, _, n, h0, hn => by
    have hn : n ≤ 0 := hn
    exact ⟨fun _ => 0, fun _ => le_rfl, fun i hi => absurd hi not_mem_nil,
      fun _ _ => rfl, (le_antisymm hn h0).symm⟩
  | i :: l, hnd, hs, n, h0, hn => by
    obtain ⟨hi, hnd⟩ := nodup_cons.mp hnd
    have hl : ∀ j ∈ l, 0 ≤ supply j := fun j hj => hs j (mem_cons_of_mem _ hj)
    have hfirst := hs i mem_cons_self
    have hrest : 0 ≤ (l.map supply).sum := by
      refine sum_nonneg fun v hv => ?_
      obtain ⟨j, hj, rfl⟩ := mem_map.mp hv
      exact hl j hj
    rw [map_cons, sum_cons] at hn
    -- the first supply gives what it can
    obtain ⟨y, hy0, hys, hout, hsum⟩ :=
      exists_take hnd hl (n := n - min n (supply i)) (by omega) (by omega)
    have hsame : l.map (Function.update y i (min n (supply i))) = l.map y :=
      map_congr_left fun j hj =>
        Function.update_of_ne (show j ≠ i from fun heq => hi (heq ▸ hj)) _ _
    refine ⟨Function.update y i (min n (supply i)), fun j => ?_, fun j hj => ?_, fun j hj => ?_, ?_⟩
    · by_cases hji : j = i
      · rw [hji, Function.update_self]
        omega
      · rw [Function.update_of_ne hji]
        exact hy0 j
    · by_cases hji : j = i
      · rw [hji, Function.update_self]
        exact min_le_right _ _
      · rw [Function.update_of_ne hji]
        exact hys j ((mem_cons.mp hj).resolve_left hji)
    · rw [Function.update_of_ne (show j ≠ i from fun hji => hj (hji ▸ mem_cons_self))]
      exact hout j fun h => hj (mem_cons_of_mem _ h)
    · rw [map_cons, sum_cons, Function.update_self, hsame, hsum]
      omega

/-! ## All demands -/

/-- **Demands within the supplies are met from them**, one demand after another. -/
theorem exists_transport [DecidableEq ι] [DecidableEq κ] (hl : l.Nodup) {demand : κ → ℤ} :
    ∀ {m : List κ}, m.Nodup → (∀ k ∈ m, 0 ≤ demand k) → ∀ {supply : ι → ℤ},
      (∀ i ∈ l, 0 ≤ supply i) → (m.map demand).sum ≤ (l.map supply).sum →
      ∃ d : ι → κ → ℤ, (∀ i k, 0 ≤ d i k) ∧ (∀ i k, i ∉ l → d i k = 0) ∧
        (∀ i ∈ l, (m.map (d i)).sum ≤ supply i) ∧
        ∀ k ∈ m, (l.map fun i => d i k).sum = demand k
  | [], _, _, supply, hs, _ =>
    ⟨fun _ _ => 0, fun _ _ => le_rfl, fun _ _ _ => rfl, hs, fun _ hk => absurd hk not_mem_nil⟩
  | k :: m, hnd, hd, supply, hs, hle => by
    obtain ⟨hk, hnd⟩ := nodup_cons.mp hnd
    have hm : ∀ j ∈ m, 0 ≤ demand j := fun j hj => hd j (mem_cons_of_mem _ hj)
    have hrest : 0 ≤ (m.map demand).sum := by
      refine sum_nonneg fun v hv => ?_
      obtain ⟨j, hj, rfl⟩ := mem_map.mp hv
      exact hm j hj
    rw [map_cons, sum_cons] at hle
    obtain ⟨y, hy0, hys, hout, hsum⟩ :=
      exists_take hl hs (hd k mem_cons_self) (by omega)
    have hleft : (l.map fun i => supply i - y i).sum = (l.map supply).sum - demand k := by
      have hboth : (l.map fun i => supply i - y i).sum + (l.map y).sum = (l.map supply).sum := by
        rw [← sum_map_add]
        simp only [sub_add_cancel]
      omega
    have hless : ∀ i ∈ l, 0 ≤ supply i - y i := fun i hi => sub_nonneg.mpr (hys i hi)
    obtain ⟨d, hd0, hzero, hwithin, hmet⟩ :=
      exists_transport hl hnd hm hless (by rw [hleft]; omega)
    refine ⟨fun i => Function.update (d i) k (y i), fun i j => ?_, fun i j hi => ?_,
      fun i hi => ?_, fun j hj => ?_⟩
    · dsimp only
      by_cases hjk : j = k
      · rw [hjk, Function.update_self]
        exact hy0 i
      · rw [Function.update_of_ne hjk]
        exact hd0 i j
    · dsimp only
      by_cases hjk : j = k
      · rw [hjk, Function.update_self]
        exact hout i hi
      · rw [Function.update_of_ne hjk]
        exact hzero i j hi
    · have hsame : m.map (Function.update (d i) k (y i)) = m.map (d i) :=
        map_congr_left fun j hj =>
          Function.update_of_ne (show j ≠ k from fun heq => hk (heq ▸ hj)) _ _
      have := hwithin i hi
      dsimp only
      rw [map_cons, sum_cons, Function.update_self, hsame]
      omega
    · rcases mem_cons.mp hj with rfl | hj
      · simp only [Function.update_self]
        exact hsum
      · have hjk : j ≠ k := fun heq => hk (heq ▸ hj)
        simp only [Function.update_of_ne hjk]
        exact hmet j hj

/-! ## Bound supplies -/

/-- What a function takes of the members that it only takes from. -/
theorem sum_of_support {y : ι → ℤ} {p : ι → Bool} (h : ∀ i, i ∉ l.filter p → y i = 0) :
    (l.map y).sum = ((l.filter p).map y).sum := by
  rw [sum_filter]
  congr 1
  refine map_congr_left fun i hi => ?_
  by_cases hp : p i = true
  · rw [if_pos hp]
  · rw [if_neg hp, h i fun hmem => hp (mem_filter.mp hmem).2]

/-- **Bound supplies first**: each demand takes of the supplies bound to it what it can, and the
others meet the rest. -/
theorem exists_covers [DecidableEq ι] [DecidableEq κ] {bound : ι → Option κ} {supply : ι → ℤ}
    {demand : κ → ℤ} {m : List κ} (hl : l.Nodup) (hm : m.Nodup) (hs : ∀ i ∈ l, 0 ≤ supply i)
    (hd : ∀ k ∈ m, 0 ≤ demand k)
    (h : (m.map fun k => max 0 (demand k - boundTo bound supply l (some k))).sum ≤
      boundTo bound supply l none) : ∃ d, Covers bound supply demand l m d := by
  have htake : ∀ k, ∃ y : ι → ℤ, (∀ i, 0 ≤ y i) ∧ (∀ i ∈ l, y i ≤ supply i) ∧
      (∀ i, y i ≠ 0 → bound i = some k) ∧
      (k ∈ m → (l.map y).sum = min (demand k) (boundTo bound supply l (some k))) := by
    intro k
    by_cases hk : k ∈ m
    · obtain ⟨y, hy0, hys, hout, hsum⟩ :=
        exists_take (hl.filter fun i => decide (bound i = some k))
          (fun i hi => hs i (mem_of_mem_filter hi))
          (n := min (demand k) (boundTo bound supply l (some k)))
          (le_min (hd k hk) (totalWhere_nonneg hs)) (min_le_right _ _)
      have hbound : ∀ i, y i ≠ 0 → bound i = some k := by
        intro i hne
        by_contra hb
        exact hne (hout i fun hmem => hb (of_decide_eq_true (mem_filter.mp hmem).2))
      refine ⟨y, hy0, fun i hi => ?_, hbound, fun _ => (sum_of_support hout).trans hsum⟩
      by_cases hb : bound i = some k
      · exact hys i (mem_filter.mpr ⟨hi, decide_eq_true hb⟩)
      · rw [not_ne_iff.mp fun hne => hb (hbound i hne)]
        exact hs i hi
    · exact ⟨fun _ => 0, fun _ => le_rfl, hs, fun i hne => absurd rfl hne, fun hk' => absurd hk' hk⟩
  choose y hy0 hys hbound hsum using htake
  obtain ⟨d, hd0, hzero, hwithin, hmet⟩ :=
    exists_transport (hl.filter fun i => decide (bound i = none)) hm (fun k _ => le_max_left 0 _)
      (fun i hi => hs i (mem_of_mem_filter hi)) h
  have hfree : ∀ i k, d i k ≠ 0 → bound i = none := by
    intro i k hne
    by_contra hb
    exact hne (hzero i k fun hmem => hb (of_decide_eq_true (mem_filter.mp hmem).2))
  refine ⟨fun i k => y k i + d i k, fun i k => add_nonneg (hy0 k i) (hd0 i k), ?_, ?_, ?_⟩
  · intro i _ k _ hne
    by_cases hy : y k i = 0
    · exact .inl (hfree i k fun hz => hne (by rw [hy, hz, add_zero]))
    · exact .inr (hbound k i hy)
  · intro i hi
    cases hb : bound i with
    | none =>
      have hy : ∀ k, y k i = 0 := fun k => by
        by_contra hne
        rw [hbound k i hne] at hb
        cases hb
      simp only [hy, zero_add]
      exact hwithin i (mem_filter.mpr ⟨hi, decide_eq_true hb⟩)
    | some k =>
      have hz : ∀ j, d i j = 0 := fun j => by
        by_contra hne
        rw [hfree i j hne] at hb
        cases hb
      have hy : ∀ j, y j i = if k = j ∧ True then y k i else 0 := by
        intro j
        by_cases hkj : k = j
        · rw [if_pos ⟨hkj, trivial⟩, hkj]
        · rw [if_neg fun h => hkj h.1]
          by_contra hne
          rw [hbound j i hne] at hb
          exact hkj (Option.some.inj hb).symm
      simp only [hz, add_zero]
      rw [map_congr_left fun j _ => hy j]
      by_cases hk : k ∈ m
      · rw [sum_map_pick hm hk, if_pos trivial]
        exact hys k i hi
      · refine (sum_eq_zero fun v hv => ?_).trans_le (hs i hi)
        obtain ⟨j, hj, rfl⟩ := mem_map.mp hv
        rw [if_neg fun h : k = j ∧ True => hk (h.1 ▸ hj)]
  · intro k hk
    rw [sum_map_add, hsum k hk, sum_of_support fun i hi => hzero i k hi, hmet k hk]
    omega

end BalanceFrame.Library
