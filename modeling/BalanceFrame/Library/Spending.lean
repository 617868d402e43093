import BalanceFrame.Library.Lists
import Mathlib.Algebra.Order.BigOperators.Group.List
import Mathlib.Algebra.Order.Ring.Int

/-!
# Spending each budget once

A `Spend` uses an amount of its source for its target. `SpendsOnce` is what keeps a list of spends
honest: positive amounts, nothing spent beyond its budget, no member both a source and a target,
and the spends stay inside classes of members.

* `SpendsOnce.snoc`: a spend between members that have the budget and no opposite role may be
  added, when its classes are joined;
* `SpendsOnce.balanced`: over members closed under the spends and spent in full, the sources'
  budgets add up to the targets'.
-/

namespace BalanceFrame.Library

open List

variable {ι : Type} [DecidableEq ι]

/-- An amount of a source, used for a target. -/
structure Spend (ι : Type) where
  source : ι
  target : ι
  amount : Int

/-- What a member spends as a source. -/
def spentBy (links : List (Spend ι)) (i : ι) : Int :=
  ((links.filter fun l => decide (l.source = i)).map (·.amount)).sum

/-- What is spent on a member as a target. -/
def spentOn (links : List (Spend ι)) (i : ι) : Int :=
  ((links.filter fun l => decide (l.target = i)).map (·.amount)).sum

/-- What a member takes part in. -/
def spent (links : List (Spend ι)) (i : ι) : Int := spentBy links i + spentOn links i

omit [DecidableEq ι] in
/-- A member is some spend's source. -/
def IsSource (links : List (Spend ι)) (i : ι) : Prop := ∃ l ∈ links, l.source = i

omit [DecidableEq ι] in
/-- A member is some spend's target. -/
def IsTarget (links : List (Spend ι)) (i : ι) : Prop := ∃ l ∈ links, l.target = i

/-- A member takes part in some spend. -/
def Touched (links : List (Spend ι)) (i : ι) : Prop := IsSource links i ∨ IsTarget links i

instance (links : List (Spend ι)) (i : ι) : Decidable (IsSource links i) :=
  inferInstanceAs (Decidable (∃ l ∈ links, l.source = i))

instance (links : List (Spend ι)) (i : ι) : Decidable (IsTarget links i) :=
  inferInstanceAs (Decidable (∃ l ∈ links, l.target = i))

/-- **Nothing is spent twice**: within the budgets, in one role, inside the classes. -/
structure SpendsOnce (budget : ι → Int) (links : List (Spend ι)) (cls : ι → ι) : Prop where
  positive : ∀ l ∈ links, 0 < l.amount
  within : ∀ i, Touched links i → spent links i ≤ budget i
  roles : ∀ l ∈ links, ∀ l' ∈ links, l.source ≠ l'.target
  closed : ∀ l ∈ links, cls l.source = cls l.target
  alone : ∀ i, ¬ Touched links i → ∀ j, cls j = cls i → j = i

variable {budget : ι → Int} {links : List (Spend ι)} {cls : ι → ι}

/-! ## Sums -/

theorem spent_snoc (l : Spend ι) (i : ι) :
    spent (links ++ [l]) i =
      spent links i + (if l.source = i then l.amount else 0) +
        if l.target = i then l.amount else 0 := by
  unfold spent spentBy spentOn
  rw [sum_filter_append_singleton, sum_filter_append_singleton]
  simp only [decide_eq_true_eq]
  omega

variable {i : ι} {members : List ι}

theorem spentBy_of_not_source (h : ¬ IsSource links i) : spentBy links i = 0 := by
  unfold spentBy
  rw [filter_eq_nil_iff.mpr, map_nil, sum_nil]
  intro l hl
  rw [decide_eq_true_eq]
  exact fun heq => h ⟨l, hl, heq⟩

theorem spentOn_of_not_target (h : ¬ IsTarget links i) : spentOn links i = 0 := by
  unfold spentOn
  rw [filter_eq_nil_iff.mpr, map_nil, sum_nil]
  intro l hl
  rw [decide_eq_true_eq]
  exact fun heq => h ⟨l, hl, heq⟩

theorem spent_of_not_touched (h : ¬ Touched links i) : spent links i = 0 := by
  unfold spent
  rw [spentBy_of_not_source fun hs => h (Or.inl hs), spentOn_of_not_target fun ht => h (Or.inr ht)]
  rfl

omit [DecidableEq ι] in
theorem touched_snoc {l : Spend ι} :
    Touched (links ++ [l]) i ↔ Touched links i ∨ l.source = i ∨ l.target = i := by
  unfold Touched IsSource IsTarget
  simp only [mem_append, mem_singleton, or_and_right, exists_or, exists_eq_left]
  exact or_or_or_comm

/-! ## One more spend -/

theorem IsSource.not_target (h : SpendsOnce budget links cls) (hi : IsSource links i) :
    ¬ IsTarget links i := by
  rintro ⟨l', hl', rfl⟩
  obtain ⟨l, hl, heq⟩ := hi
  exact h.roles l hl l' hl' heq

theorem SpendsOnce.spent_nonneg (h : SpendsOnce budget links cls) (i : ι) : 0 ≤ spent links i := by
  unfold spent spentBy spentOn
  refine add_nonneg (sum_nonneg fun v hv => ?_) (sum_nonneg fun v hv => ?_) <;>
  · obtain ⟨l, hl, rfl⟩ := mem_map.mp hv
    exact le_of_lt (h.positive l (mem_filter.mp hl).1)

theorem SpendsOnce.spent_pos (h : SpendsOnce budget links cls) (hi : Touched links i) :
    0 < spent links i := by
  have hside : ∀ side : Spend ι → ι, (∃ l ∈ links, side l = i) →
      0 < ((links.filter fun l => decide (side l = i)).map (·.amount)).sum := by
    rintro side ⟨l, hl, hside⟩
    have hmem : l ∈ links.filter fun l => decide (side l = i) :=
      mem_filter.mpr ⟨hl, decide_eq_true hside⟩
    refine lt_of_lt_of_le (h.positive l hl) (single_le_sum (fun v hv => ?_) _
      (mem_map_of_mem hmem))
    obtain ⟨l', hl', rfl⟩ := mem_map.mp hv
    exact le_of_lt (h.positive l' (mem_filter.mp hl').1)
  unfold spent
  rcases hi with hs | ht
  · rw [spentOn_of_not_target (hs.not_target h), add_zero]
    exact hside (·.source) hs
  · rw [spentBy_of_not_source fun hs => hs.not_target h ht, zero_add]
    exact hside (·.target) ht

theorem SpendsOnce.nil (hcls : ∀ i j, cls j = cls i → j = i) : SpendsOnce budget [] cls where
  positive := fun _ hl => absurd hl not_mem_nil
  within := by
    rintro i (⟨l, hl, -⟩ | ⟨l, hl, -⟩) <;> exact absurd hl not_mem_nil
  roles := fun _ hl => absurd hl not_mem_nil
  closed := fun _ hl => absurd hl not_mem_nil
  alone := fun i _ j => hcls i j

/-- **One more spend**, between members that have the budget and no opposite role; its classes are
joined. -/
theorem SpendsOnce.snoc (h : SpendsOnce budget links cls) {l : Spend ι} {cls' : ι → ι}
    (hpos : 0 < l.amount) (hne : l.source ≠ l.target)
    (hsource : spent links l.source + l.amount ≤ budget l.source)
    (htarget : spent links l.target + l.amount ≤ budget l.target)
    (hnotTarget : ¬ IsTarget links l.source) (hnotSource : ¬ IsSource links l.target)
    (hcls : ∀ i, cls' i = if cls i = cls l.target then cls l.source else cls i) :
    SpendsOnce budget (links ++ [l]) cls' where
  positive := by
    intro k hk
    rcases mem_append.mp hk with hk | hk
    · exact h.positive k hk
    · rw [mem_singleton.mp hk]
      exact hpos
  within := by
    intro i hi
    rw [spent_snoc]
    by_cases hs : l.source = i
    · subst hs
      rw [if_pos rfl, if_neg (Ne.symm hne)]
      omega
    · by_cases ht : l.target = i
      · subst ht
        rw [if_pos rfl, if_neg hs]
        omega
      · rw [if_neg hs, if_neg ht, Int.add_zero, Int.add_zero]
        exact h.within i ((touched_snoc.mp hi).resolve_right (by tauto))
  roles := by
    intro k hk k' hk'
    rcases mem_append.mp hk with hk | hk <;> rcases mem_append.mp hk' with hk' | hk'
    · exact h.roles k hk k' hk'
    · rw [mem_singleton.mp hk']
      exact fun heq => hnotSource ⟨k, hk, heq⟩
    · rw [mem_singleton.mp hk]
      exact fun heq => hnotTarget ⟨k', hk', heq.symm⟩
    · rw [mem_singleton.mp hk, mem_singleton.mp hk']
      exact hne
  closed := by
    intro k hk
    rcases mem_append.mp hk with hk | hk
    · rw [hcls, hcls, h.closed k hk]
    · rw [mem_singleton.mp hk, hcls, hcls, if_pos rfl]
      split <;> rfl
  alone := by
    intro i hi j hj
    have hi' : ¬ Touched links i := fun ht => hi (touched_snoc.mpr (Or.inl ht))
    have hns : l.source ≠ i := fun heq => hi (touched_snoc.mpr (Or.inr (Or.inl heq)))
    have hnt : l.target ≠ i := fun heq => hi (touched_snoc.mpr (Or.inr (Or.inr heq)))
    have hi_cls : cls' i = cls i := by
      rw [hcls, if_neg fun heq => hnt (h.alone i hi' _ heq.symm)]
    rw [hi_cls, hcls j] at hj
    split at hj
    · exact absurd (h.alone i hi' _ hj) hns
    · exact h.alone i hi' j hj

/-! ## Balance -/

theorem sum_spentBy_eq_sum_spentOn (hnd : members.Nodup)
    (hclosed : ∀ l ∈ links, (l.source ∈ members ↔ l.target ∈ members)) :
    (members.map (spentBy links)).sum = (members.map (spentOn links)).sum := by
  have hside : ∀ side : Spend ι → ι, (members.map fun i =>
      ((links.filter fun l => decide (side l = i)).map (·.amount)).sum).sum =
      (links.map fun l => if side l ∈ members then l.amount else 0).sum := by
    intro side
    have hpoint : ∀ i, ((links.filter fun l => decide (side l = i)).map (·.amount)).sum =
        (links.map fun l => if side l = i ∧ True then l.amount else 0).sum := by
      intro i
      induction links with
      | nil => rfl
      | cons l links ih =>
        have ih := ih fun k hk => hclosed k (mem_cons_of_mem _ hk)
        rw [filter_cons, map_cons, sum_cons, ← ih]
        by_cases hl : side l = i <;> simp [hl]
    simp only [hpoint]
    rw [sum_map_comm]
    congr 1
    refine map_congr_left fun l _ => ?_
    by_cases hl : side l ∈ members
    · rw [sum_map_pick hnd hl, if_pos trivial, if_pos hl]
    · rw [if_neg hl]
      refine sum_eq_zero fun v hv => ?_
      obtain ⟨i, hi, rfl⟩ := mem_map.mp hv
      exact if_neg fun (heq : side l = i ∧ True) => hl (heq.1 ▸ hi)
  unfold spentBy spentOn
  rw [hside (·.source), hside (·.target)]
  congr 1
  refine map_congr_left fun l hl => ?_
  simp only [hclosed l hl]

omit [DecidableEq ι] in
theorem sum_filter_eq_sum (P : ι → Prop) [DecidablePred P] {f g : ι → Int}
    (hpos : ∀ i ∈ members, P i → f i = g i) (hneg : ∀ i ∈ members, ¬ P i → g i = 0) :
    ((members.filter fun i => decide (P i)).map f).sum = (members.map g).sum := by
  induction members with
  | nil => rfl
  | cons i members ih =>
    have ih := ih (fun j hj => hpos j (mem_cons_of_mem _ hj))
      fun j hj => hneg j (mem_cons_of_mem _ hj)
    rw [filter_cons, map_cons, sum_cons, ← ih]
    by_cases hi : P i
    · rw [if_pos (decide_eq_true hi), map_cons, sum_cons,
        hpos i mem_cons_self hi]
    · rw [if_neg (by simpa using hi), hneg i mem_cons_self hi, Int.zero_add]

/-- **Members spent in full balance**: their sources' budgets add up to their targets'. -/
theorem SpendsOnce.balanced (h : SpendsOnce budget links cls) (hnd : members.Nodup)
    (hclosed : ∀ l ∈ links, (l.source ∈ members ↔ l.target ∈ members))
    (hfull : ∀ i ∈ members, spent links i = budget i) :
    ((members.filter fun i => decide (IsSource links i)).map budget).sum =
      ((members.filter fun i => decide (IsTarget links i)).map budget).sum := by
  have hsources : ((members.filter fun i => decide (IsSource links i)).map budget).sum =
      (members.map (spentBy links)).sum := by
    refine sum_filter_eq_sum (IsSource links) (fun i hi hs => ?_) fun i _ hs =>
      spentBy_of_not_source hs
    rw [← hfull i hi, spent, spentOn_of_not_target (IsSource.not_target h hs), Int.add_zero]
  have htargets : ((members.filter fun i => decide (IsTarget links i)).map budget).sum =
      (members.map (spentOn links)).sum := by
    refine sum_filter_eq_sum (IsTarget links) (fun i hi ht => ?_) fun i _ ht =>
      spentOn_of_not_target ht
    have hns : ¬ IsSource links i := fun hs => IsSource.not_target h hs ht
    rw [← hfull i hi, spent, spentBy_of_not_source hns, Int.zero_add]
  rw [hsources, htargets, sum_spentBy_eq_sum_spentOn hnd hclosed]

end BalanceFrame.Library
