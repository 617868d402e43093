import BalanceFrame.Library.ShortestPath
import Mathlib.Algebra.BigOperators.Ring.Finset
import Mathlib.Algebra.BigOperators.Group.Finset.Basic
import Mathlib.Algebra.BigOperators.Group.Finset.Piecewise
import Mathlib.Algebra.Order.BigOperators.Group.Finset
import Mathlib.Tactic.Ring

/-!
# Flows in a capacitated network

A network has finitely many arcs with a capacity and a cost. A flow of value `v` from `s` to `t`
respects the capacities and balances at every node but the two ends. The residual digraph of a flow
has two arcs for each network arc: forward while capacity is left, backward while flow can be
undone.

* `value_le_of_unreached` is the cut bound: when a set closed under residual arcs holds `s` but not
  `t`, no flow has a larger value.
* `cost_le_of_potential`: when the residual digraph has a potential, no flow of the same value is
  cheaper.
* `net_pushAll` and `potential_pushAll`: pushing along a residual walk from `s` to `t` moves the
  value and keeps a potential that is tight on the walk.
-/

namespace BalanceFrame.Library

open Bool

/-- Arcs with end nodes, a capacity and a cost. -/
structure Network (V ι : Type) where
  arcs : Finset ι
  src : ι → V
  dst : ι → V
  cap : ι → ℤ
  cost : ι → ℤ

/-- `1` at `v = w`, else `0`. -/
def ind {V : Type} [DecidableEq V] (v w : V) : ℤ := if v = w then 1 else 0

namespace Network

variable {V ι : Type} (N : Network V ι)

/-- What leaves `v` minus what enters it. -/
def net [DecidableEq V] (x : ι → ℤ) (v : V) : ℤ := ∑ k ∈ N.arcs, x k * (ind (N.src k) v - ind (N.dst k) v)

/-- What the flow costs. -/
def price (x : ι → ℤ) : ℤ := ∑ k ∈ N.arcs, x k * N.cost k

/-- **A flow of the given value from `s` to `t`.** -/
structure IsFlow [DecidableEq V] (s t : V) (x : ι → ℤ) (value : ℤ) : Prop where
  bounds : ∀ k ∈ N.arcs, 0 ≤ x k ∧ x k ≤ N.cap k
  balance : ∀ v, N.net x v = value * (ind s v - ind t v)

/-- The residual digraph: `(k, true)` uses what is left of `k`, `(k, false)` undoes flow on it. -/
def residual (x : ι → ℤ) : Digraph V (ι × Bool) where
  tail a := if a.2 then N.src a.1 else N.dst a.1
  head a := if a.2 then N.dst a.1 else N.src a.1
  cost a := if a.2 then N.cost a.1 else - N.cost a.1
  usable a := a.1 ∈ N.arcs ∧ if a.2 then x a.1 < N.cap a.1 else 0 < x a.1

variable {N}

/-! ## Sums over arcs and sums over nodes -/

theorem sum_ind [DecidableEq V] {S : Finset V} {u : V} (hu : u ∈ S) (p : V → ℤ) :
    ∑ v ∈ S, p v * ind u v = p u := by
  have : ∀ v ∈ S, p v * ind u v = if u = v then p v else 0 := fun v _ => by
    unfold ind
    split <;> simp
  rw [Finset.sum_congr rfl this, Finset.sum_ite_eq, if_pos hu]

variable {s t : V} {value : ℤ} {x : ι → ℤ} {a : ι × Bool}

/-- **Summation by parts**: a potential difference summed over the arcs of a flow is the value
times the difference between the ends. -/
theorem sum_potential [DecidableEq V]
    (h : ∀ v, N.net x v = value * (ind s v - ind t v)) (p : V → ℤ) :
    ∑ k ∈ N.arcs, x k * (p (N.src k) - p (N.dst k)) = value * (p s - p t) := by
  let S : Finset V := (N.arcs.image N.src ∪ N.arcs.image N.dst) ∪ {s, t}
  have hsrc : ∀ k ∈ N.arcs, N.src k ∈ S := fun k hk =>
    Finset.mem_union_left _ (Finset.mem_union_left _ (Finset.mem_image_of_mem _ hk))
  have hdst : ∀ k ∈ N.arcs, N.dst k ∈ S := fun k hk =>
    Finset.mem_union_left _ (Finset.mem_union_right _ (Finset.mem_image_of_mem _ hk))
  have hs : s ∈ S := Finset.mem_union_right _ (by simp)
  have ht : t ∈ S := Finset.mem_union_right _ (by simp)
  calc ∑ k ∈ N.arcs, x k * (p (N.src k) - p (N.dst k))
      = ∑ k ∈ N.arcs, ∑ v ∈ S, p v * (x k * (ind (N.src k) v - ind (N.dst k) v)) := by
        refine Finset.sum_congr rfl fun k hk => ?_
        rw [← sum_ind (hsrc k hk) p, ← sum_ind (hdst k hk) p, ← Finset.sum_sub_distrib,
          Finset.mul_sum]
        exact Finset.sum_congr rfl fun v _ => by ring
    _ = ∑ v ∈ S, p v * N.net x v := by
        rw [Finset.sum_comm]
        exact Finset.sum_congr rfl fun v _ => by rw [net, Finset.mul_sum]
    _ = ∑ v ∈ S, value * (p v * ind s v - p v * ind t v) :=
        Finset.sum_congr rfl fun v _ => by rw [h v]; ring
    _ = value * (p s - p t) := by
        rw [← Finset.mul_sum, Finset.sum_sub_distrib, sum_ind hs, sum_ind ht]

/-! ## Largest value, least price -/

/-- **Cut bound**: a set closed under residual arcs that separates the ends certifies that no flow
has a larger value. -/
theorem value_le_of_unreached [DecidableEq V] {y : ι → ℤ} {value' : ℤ} {R : V → Prop}
    (hs : R s) (ht : ¬ R t)
    (hR : ∀ a, (N.residual x).usable a → R ((N.residual x).tail a) → R ((N.residual x).head a))
    (hx : N.IsFlow s t x value) (hy : N.IsFlow s t y value') : value' ≤ value := by
  classical
  let p : V → ℤ := fun v => if R v then 1 else 0
  have hps : p s = 1 := if_pos hs
  have hpt : p t = 0 := if_neg ht
  have hxs := sum_potential hx.balance p
  have hys := sum_potential hy.balance p
  rw [hps, hpt, sub_zero, mul_one] at hxs hys
  rw [← hxs, ← hys]
  refine Finset.sum_le_sum fun k hk => ?_
  obtain ⟨hy0, hyc⟩ := hy.bounds k hk
  obtain ⟨hx0, hxc⟩ := hx.bounds k hk
  by_cases hu : R (N.src k) <;> by_cases hv : R (N.dst k)
  · simp [p, hu, hv]
  · -- an arc that leaves the set is full
    have hfull : N.cap k ≤ x k := not_lt.mp fun hlt => hv (hR (k, true) ⟨hk, hlt⟩ hu)
    simp only [p, hu, hv, if_true, if_false, sub_zero, mul_one]
    linarith
  · -- an arc that enters the set is empty
    have hempty : x k ≤ 0 := not_lt.mp fun hlt => hu (hR (k, false) ⟨hk, hlt⟩ hv)
    simp only [p, hu, hv, if_true, if_false, zero_sub, mul_neg, mul_one]
    linarith
  · simp [p, hu, hv]

theorem sum_reduced [DecidableEq V] (hx : N.IsFlow s t x value) (π : V → ℤ) :
    N.price x = ∑ k ∈ N.arcs, x k * (N.cost k + π (N.src k) - π (N.dst k))
      - value * (π s - π t) := by
  rw [← sum_potential hx.balance π, price, ← Finset.sum_sub_distrib]
  exact Finset.sum_congr rfl fun k _ => by ring

/-- **Optimality**: a potential of the residual digraph certifies that no flow of the same value is
cheaper. -/
theorem price_le_of_potential [DecidableEq V] {y : ι → ℤ} {π : V → ℤ}
    (hπ : Potential (N.residual x) π) (hx : N.IsFlow s t x value) (hy : N.IsFlow s t y value) :
    N.price x ≤ N.price y := by
  rw [sum_reduced hx π, sum_reduced hy π]
  refine sub_le_sub_right (Finset.sum_le_sum fun k hk => ?_) _
  obtain ⟨hy0, hyc⟩ := hy.bounds k hk
  obtain ⟨hx0, hxc⟩ := hx.bounds k hk
  rcases lt_trichotomy (N.cost k + π (N.src k) - π (N.dst k)) 0 with hneg | hzero | hpos
  · have hfull : N.cap k ≤ x k := not_lt.mp fun hlt => by
      have := hπ (k, true) ⟨hk, hlt⟩
      simp only [residual, if_true] at this
      linarith
    exact mul_le_mul_of_nonpos_right (hyc.trans hfull) (le_of_lt hneg)
  · rw [hzero, mul_zero, mul_zero]
  · have hempty : x k ≤ 0 := not_lt.mp fun hlt => by
      have := hπ (k, false) ⟨hk, hlt⟩
      simp only [residual, false_eq_true, if_false] at this
      linarith
    exact mul_le_mul_of_nonneg_right (hempty.trans hy0) (le_of_lt hpos)

/-! ## Pushing along a walk -/

/-- Push `n` through one residual arc. -/
def push [DecidableEq ι] (n : ℤ) (x : ι → ℤ) (a : ι × Bool) : ι → ℤ :=
  Function.update x a.1 (if a.2 then x a.1 + n else x a.1 - n)

/-- What an arc can still take. -/
def room (N : Network V ι) (x : ι → ℤ) (a : ι × Bool) : ℤ :=
  if a.2 then N.cap a.1 - x a.1 else x a.1

theorem usable_iff : (N.residual x).usable a ↔ a.1 ∈ N.arcs ∧ 0 < N.room x a := by
  obtain ⟨k, d⟩ := a
  cases d <;> simp [residual, room]

variable {n : ℤ}

theorem push_self [DecidableEq ι] (a : ι × Bool) :
    push n x a a.1 = if a.2 then x a.1 + n else x a.1 - n := by
  rw [push, Function.update_self]

theorem push_of_ne [DecidableEq ι] {k : ι} (h : k ≠ a.1) : push n x a k = x k := by
  rw [push, Function.update_of_ne h]

theorem room_push [DecidableEq ι] (hn : 0 ≤ n) {b : ι × Bool} (hab : b ≠ a) :
    N.room x b ≤ N.room (push n x a) b := by
  obtain ⟨k, d⟩ := a
  obtain ⟨j, e⟩ := b
  by_cases hj : j = k
  · subst hj
    have hde : e ≠ d := fun h => hab (by rw [h])
    cases d <;> cases e <;> simp only [ne_eq, not_true_eq_false, reduceCtorEq,
      not_false_eq_true, room, push, Function.update_self, if_true, false_eq_true,
      if_false] at hde ⊢ <;> linarith
  · simp only [room, push_of_ne (a := (k, d)) hj]
    exact le_rfl

theorem bounds_push [DecidableEq ι] (hn : 0 ≤ n) (hx : ∀ k ∈ N.arcs, 0 ≤ x k ∧ x k ≤ N.cap k)
    (ha : n ≤ N.room x a) : ∀ k ∈ N.arcs, 0 ≤ push n x a k ∧ push n x a k ≤ N.cap k := by
  intro k hk
  obtain ⟨h0, hc⟩ := hx k hk
  by_cases hka : k = a.1
  · subst hka
    rw [push_self]
    unfold room at ha
    split <;> rename_i hd <;> simp only [hd, if_true, false_eq_true, if_false] at ha <;>
      constructor <;> linarith
  · rw [push_of_ne hka]
    exact ⟨h0, hc⟩

theorem net_push [DecidableEq V] [DecidableEq ι] (ha : a.1 ∈ N.arcs) (v : V) :
    N.net (push n x a) v =
      N.net x v + n * (ind ((N.residual x).tail a) v - ind ((N.residual x).head a) v) := by
  have hrest : ∀ k ∈ N.arcs.erase a.1,
      push n x a k * (ind (N.src k) v - ind (N.dst k) v) =
        x k * (ind (N.src k) v - ind (N.dst k) v) := fun k hk => by
    rw [push_of_ne (Finset.ne_of_mem_erase hk)]
  unfold net
  rw [← Finset.add_sum_erase _ _ ha, ← Finset.add_sum_erase _ _ ha, Finset.sum_congr rfl hrest,
    push_self]
  obtain ⟨k, d⟩ := a
  cases d <;> simp only [residual, if_true, false_eq_true, if_false] <;> ring

/-- Push `n` through a list of residual arcs. -/
def pushAll [DecidableEq ι] (n : ℤ) (x : ι → ℤ) (q : List (ι × Bool)) : ι → ℤ := q.foldl (push n) x

/-- **Pushing along a walk moves the balance of its two ends only.** -/
theorem net_pushAll [DecidableEq V] [DecidableEq ι] {n : ℤ} {x₀ : ι → ℤ} :
    ∀ {q : List (ι × Bool)} {v : V} {x : ι → ℤ}, IsBack (N.residual x₀) s v q → ∀ w,
      N.net (pushAll n x q) w = N.net x w + n * (ind s w - ind v w)
  | [], v, x, h, w => by
    rw [show v = s from h, sub_self, mul_zero, add_zero]
    rfl
  | a :: q, v, x, h, w => by
    obtain ⟨hu, rfl, h⟩ := h
    have := net_pushAll (n := n) (x := push n x a) h w
    rw [pushAll, List.foldl_cons, ← pushAll, this, net_push hu.1]
    have htail : (N.residual x).tail a = (N.residual x₀).tail a := rfl
    have hhead : (N.residual x).head a = (N.residual x₀).head a := rfl
    rw [htail, hhead]
    ring

theorem bounds_pushAll [DecidableEq ι] (hn : 0 ≤ n) :
    ∀ {q : List (ι × Bool)} {x : ι → ℤ}, q.Nodup → (∀ a ∈ q, n ≤ N.room x a) →
      (∀ k ∈ N.arcs, 0 ≤ x k ∧ x k ≤ N.cap k) →
      ∀ k ∈ N.arcs, 0 ≤ pushAll n x q k ∧ pushAll n x q k ≤ N.cap k
  | [], _, _, _, hx => hx
  | a :: q, x, hnd, hroom, hx => by
    obtain ⟨hna, hnd⟩ := List.nodup_cons.mp hnd
    refine bounds_pushAll (q := q) hn hnd (fun b hb => ?_)
      (bounds_push hn hx (hroom a List.mem_cons_self))
    have hne : b ≠ a := fun h => hna (h ▸ hb)
    exact (hroom b (List.mem_cons_of_mem _ hb)).trans (room_push hn hne)

theorem isFlow_pushAll [DecidableEq V] [DecidableEq ι] (hn : 0 ≤ n) (hx : N.IsFlow s t x value)
    {q : List (ι × Bool)} (hq : IsBack (N.residual x) s t q) (hnd : q.Nodup)
    (hroom : ∀ a ∈ q, n ≤ N.room x a) : N.IsFlow s t (pushAll n x q) (value + n) := by
  refine ⟨bounds_pushAll hn hnd hroom hx.bounds, fun v => ?_⟩
  rw [net_pushAll hq, hx.balance]
  ring

/-- The opposite arc. -/
def flip (a : ι × Bool) : ι × Bool := (a.1, !a.2)

theorem usable_push [DecidableEq ι] (hn : 0 ≤ n) {b : ι × Bool}
    (h : (N.residual (push n x a)).usable b) : (N.residual x).usable b ∨ b = flip a := by
  rw [usable_iff] at h ⊢
  by_cases hj : b.1 = a.1
  · by_cases hd : b.2 = a.2
    · left
      refine ⟨h.1, ?_⟩
      have hb : b = a := Prod.ext hj hd
      subst hb
      have h2 := h.2
      unfold room at h2 ⊢
      rw [push_self] at h2
      split <;> rename_i hd <;> simp only [hd, if_true, false_eq_true, if_false] at h2 <;>
        linarith
    · right
      refine Prod.ext hj ?_
      simp only [flip]
      cases hb : b.2 <;> cases ha : a.2 <;> simp_all
  · left
    refine ⟨h.1, ?_⟩
    have h2 := h.2
    unfold room at h2 ⊢
    rwa [push_of_ne hj] at h2

theorem usable_pushAll [DecidableEq ι] (hn : 0 ≤ n) :
    ∀ {q : List (ι × Bool)} {x : ι → ℤ} {b : ι × Bool},
      (N.residual (pushAll n x q)).usable b →
      (N.residual x).usable b ∨ ∃ a ∈ q, b = flip a
  | [], _, _, h => Or.inl h
  | a :: q, x, b, h => by
    rcases usable_pushAll (q := q) hn h with h | ⟨c, hc, rfl⟩
    · rcases usable_push hn h with h | rfl
      · exact Or.inl h
      · exact Or.inr ⟨a, List.mem_cons_self, rfl⟩
    · exact Or.inr ⟨c, List.mem_cons_of_mem _ hc, rfl⟩

theorem potential_pushAll [DecidableEq ι] (hn : 0 ≤ n) {π : V → ℤ} (hπ : Potential (N.residual x) π)
    {q : List (ι × Bool)}
    (htight : ∀ a ∈ q, π ((N.residual x).head a) = π ((N.residual x).tail a)
      + (N.residual x).cost a) : Potential (N.residual (pushAll n x q)) π := by
  intro b hb
  rcases usable_pushAll hn hb with hb | ⟨a, ha, rfl⟩
  · exact hπ b hb
  · have := htight a ha
    obtain ⟨k, d⟩ := a
    cases d <;> simp_all [residual, flip]

end Network

end BalanceFrame.Library
