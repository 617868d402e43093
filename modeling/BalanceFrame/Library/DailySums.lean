import BalanceFrame.Library.SortedMap
import Mathlib.Algebra.Order.BigOperators.Group.List
import Mathlib.Algebra.BigOperators.Group.List.Basic
import Mathlib.Tactic.Ring

/-!
# Amounts by day

A list of amounts, each on a day of a linear order. `before` sums what comes before a day, `within`
what comes from a day on and before another, and `spent` is what the negative amounts of a day take.
A balance that covers what each day spends, at the start of that day, is never negative, in whatever
order the amounts of a day come (`covered_prefix`).
-/

namespace BalanceFrame.Library.DailySums

open List

variable {α κ : Type} [LinearOrder κ] (day : α → κ) (amount : α → ℤ)

/-- The amounts before `d`. -/
def before (l : List α) (d : κ) : ℤ := (l.map fun a => if day a < d then amount a else 0).sum

/-- The amounts from `c` on, before `d`. -/
def within (l : List α) (c d : κ) : ℤ :=
  (l.map fun a => if c ≤ day a ∧ day a < d then amount a else 0).sum

/-- What the negative amounts of day `d` take. -/
def spent (l : List α) (d : κ) : ℤ :=
  (l.map fun a => if day a = d then max 0 (-amount a) else 0).sum

variable {day amount}

@[simp] theorem within_self (l : List α) (c : κ) : within day amount l c c = 0 := by
  refine sum_eq_zero fun x hx => ?_
  obtain ⟨a, -, rfl⟩ := mem_map.mp hx
  rw [if_neg fun h => not_lt_of_ge h.1 h.2]

variable (day amount) in
theorem within_add (l : List α) {c d e : κ} (hcd : c ≤ d) (hde : d ≤ e) :
    within day amount l c d + within day amount l d e = within day amount l c e := by
  unfold within
  rw [← sum_map_add]
  congr 1
  refine map_congr_left fun a _ => ?_
  by_cases hc : c ≤ day a
  · by_cases hd : day a < d
    · rw [if_pos ⟨hc, hd⟩, if_neg fun h => not_lt_of_ge h.1 hd, if_pos ⟨hc, hd.trans_le hde⟩,
        add_zero]
    · rw [if_neg fun h => hd h.2, zero_add]
      have hd := not_lt.mp hd
      simp only [hc, hd, true_and]
  · have hd : ¬ d ≤ day a := fun h => hc (hcd.trans h)
    rw [if_neg fun h => hc h.1, if_neg fun h => hd h.1, if_neg fun h => hc h.1, add_zero]

theorem before_eq_within {l : List α} {c : κ} (h : ∀ a ∈ l, c ≤ day a) (d : κ) :
    before day amount l d = within day amount l c d := by
  unfold before within
  congr 1
  refine map_congr_left fun a ha => ?_
  simp only [h a ha, true_and]

theorem before_eq_sum {l : List α} {d : κ} (h : ∀ a ∈ l, day a < d) :
    before day amount l d = (l.map amount).sum := by
  unfold before
  congr 1
  exact map_congr_left fun a ha => if_pos (h a ha)

variable (day amount) in
theorem spent_nonneg (l : List α) (d : κ) : 0 ≤ spent day amount l d := by
  refine sum_nonneg fun x hx => ?_
  obtain ⟨a, -, rfl⟩ := mem_map.mp hx
  split
  · exact le_max_left _ _
  · exact le_rfl

theorem before_sub_spent_le {l : List α} {d : κ} (h : ∀ a ∈ l, day a ≤ d) :
    before day amount l d - spent day amount l d ≤ (l.map amount).sum := by
  induction l with
  | nil => simp [before, spent]
  | cons a l ih =>
    have ih := ih fun b hb => h b (mem_cons_of_mem _ hb)
    unfold before spent at ih ⊢
    rw [map_cons, map_cons, map_cons, sum_cons, sum_cons, sum_cons]
    rcases lt_or_eq_of_le (h a mem_cons_self) with hlt | heq
    · rw [if_pos hlt, if_neg hlt.ne]
      omega
    · rw [if_neg heq.not_lt, if_pos heq]
      omega

/-- **A covered balance is never negative.** In every order of the amounts that respects the days,
each prefix leaves a balance. -/
theorem covered_prefix {l order front back : List α} {opening : ℤ} (h0 : 0 ≤ opening)
    (hcover : ∀ a ∈ l, spent day amount l (day a) ≤ opening + before day amount l (day a))
    (hperm : order.Perm l) (hsorted : order.Pairwise fun a b => day a ≤ day b)
    (h : order = front ++ back) : 0 ≤ opening + (front.map amount).sum := by
  rcases eq_nil_or_concat' front with rfl | ⟨init, a, rfl⟩
  · simpa using h0
  · subst h
    obtain ⟨hfront, -, hcross⟩ := pairwise_append.mp hsorted
    obtain ⟨-, -, hinit⟩ := pairwise_append.mp hfront
    have hup : ∀ b ∈ init ++ [a], day b ≤ day a := by
      intro b hb
      rcases mem_append.mp hb with hb | hb
      · exact hinit b hb a mem_cons_self
      · rw [mem_singleton.mp hb]
    have hback : ∀ b ∈ back, day a ≤ day b :=
      hcross a (mem_append_right _ mem_cons_self)
    have hsum : before day amount (init ++ [a]) (day a) -
        spent day amount (init ++ [a]) (day a) ≤ ((init ++ [a]).map amount).sum :=
      before_sub_spent_le hup
    -- what comes after the prefix is not before its last day, and only spends more
    have hbefore : before day amount l (day a) = before day amount (init ++ [a]) (day a) := by
      unfold before
      rw [← (hperm.map _).sum_eq, map_append, sum_append, add_eq_left]
      refine sum_eq_zero fun x hx => ?_
      obtain ⟨b, hb, rfl⟩ := mem_map.mp hx
      exact if_neg (hback b hb).not_gt
    have hspent : spent day amount (init ++ [a]) (day a) ≤ spent day amount l (day a) := by
      have hnonneg := spent_nonneg day amount back (day a)
      unfold spent at hnonneg ⊢
      rw [← (hperm.map _).sum_eq, map_append, map_append, sum_append,
        sum_append]
      rw [map_append, sum_append]
      omega
    have hcov := hcover a (hperm.mem_iff.mp (mem_append_left _
      (mem_append_right _ mem_cons_self)))
    omega

/-! ## Sorted days -/

theorem sum_before_split {ν : Type} (f : κ → ν → ℤ) {front back : List (κ × ν)} {k : κ} {v : ν}
    (h : KeySorted (front ++ (k, v) :: back)) :
    ((front ++ (k, v) :: back).map fun e => if e.1 < k then f e.1 e.2 else 0).sum =
      (front.map fun e => f e.1 e.2).sum := by
  unfold KeySorted at h
  rw [map_append, map_cons] at h
  obtain ⟨-, hback, hcross⟩ := pairwise_append.mp h
  have hfront : (front.map fun e => if e.1 < k then f e.1 e.2 else 0) =
      front.map fun e => f e.1 e.2 :=
    map_congr_left fun e he =>
      if_pos (hcross e.1 (mem_map_of_mem he) k mem_cons_self)
  have hrest : ((((k, v) :: back).map fun e => if e.1 < k then f e.1 e.2 else 0).sum : ℤ) = 0 := by
    refine sum_eq_zero fun x hx => ?_
    obtain ⟨e, he, rfl⟩ := mem_map.mp hx
    rcases mem_cons.mp he with rfl | he
    · exact if_neg (lt_irrefl _)
    · have hlt := (pairwise_cons.mp hback).1 e.1 (mem_map_of_mem he)
      exact if_neg (not_lt_of_gt hlt)
  rw [map_append, sum_append, hfront, hrest, add_zero]

end BalanceFrame.Library.DailySums
