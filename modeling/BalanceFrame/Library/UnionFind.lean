import Mathlib.Data.Finset.Card
import Mathlib.Data.Finset.Range
import Mathlib.Data.Finset.Filter
import Mathlib.Data.List.GetD

/-!
# Union-find without ranks

Parents are a list; an element that is its own parent is a root. `root` follows parents for as many
steps as there are elements, which is enough in a forest.

* `Forest`: parents stay in range, and every element reaches a root in as many steps as there are
  elements below a root.
* `root_union`: joining two classes gives the second class the root of the first, and keeps the
  others. `Forest.union`: it keeps the forest.
-/

namespace BalanceFrame.Library

open List

/-- The parent of an element; what is outside the list is its own. -/
def up (parent : List Nat) (i : Nat) : Nat := parent.getD i i

/-- Follow parents to a root, at most `fuel` steps. -/
def climb (parent : List Nat) : Nat → Nat → Nat
  | 0, i => i
  | fuel + 1, i => if up parent i = i then i else climb parent fuel (up parent i)

/-- The root of an element's class. -/
def root (parent : List Nat) (i : Nat) : Nat := climb parent parent.length i

/-- Give the root of `b` the root of `a` as its parent. -/
def union (parent : List Nat) (a b : Nat) : List Nat :=
  parent.set (root parent b) (root parent a)

/-- The elements that are no roots. -/
def below (parent : List Nat) : Finset Nat :=
  (Finset.range parent.length).filter fun i => up parent i ≠ i

/-- Parents stay in range, and lead to a root. -/
structure Forest (parent : List Nat) : Prop where
  inRange : ∀ i, i < parent.length → up parent i < parent.length
  settled : ∀ i, up parent (climb parent (below parent).card i) =
    climb parent (below parent).card i

theorem up_of_le {parent : List Nat} {i : Nat} (h : parent.length ≤ i) : up parent i = i := by
  unfold up
  rw [getD_eq_default _ _ h]

theorem climb_of_root {parent : List Nat} {i : Nat} (h : up parent i = i) (fuel : Nat) :
    climb parent fuel i = i := by
  cases fuel with
  | zero => rfl
  | succ fuel => rw [climb, if_pos h]

theorem climb_succ {parent : List Nat} (fuel : Nat) (i : Nat) :
    climb parent (fuel + 1) i = climb parent fuel (up parent i) := by
  rw [climb]
  split
  · rename_i h
    rw [h, climb_of_root h]
  · rfl

theorem climb_of_le {parent : List Nat} :
    ∀ {fuel k i : Nat}, fuel ≤ k → up parent (climb parent fuel i) = climb parent fuel i →
      climb parent k i = climb parent fuel i
  | 0, _, _, _, h => climb_of_root h _
  | fuel + 1, 0, _, hle, _ => absurd hle (by omega)
  | fuel + 1, k + 1, i, hle, h => by
    rw [climb_succ] at h
    rw [climb_succ, climb_succ]
    exact climb_of_le (Nat.le_of_succ_le_succ hle) h

theorem climb_lt {parent : List Nat}
    (h : ∀ i, i < parent.length → up parent i < parent.length) :
    ∀ (fuel : Nat) {i : Nat}, i < parent.length → climb parent fuel i < parent.length
  | 0, _, hi => hi
  | fuel + 1, i, hi => by
    rw [climb_succ]
    exact climb_lt h fuel (h i hi)

theorem card_below_le (parent : List Nat) : (below parent).card ≤ parent.length := by
  calc (below parent).card ≤ (Finset.range parent.length).card := Finset.card_filter_le _ _
    _ = parent.length := Finset.card_range _

variable {parent : List Nat}

theorem Forest.root_eq (h : Forest parent) (i : Nat) :
    root parent i = climb parent (below parent).card i :=
  climb_of_le (card_below_le parent) (h.settled i)

theorem Forest.up_root (h : Forest parent) (i : Nat) : up parent (root parent i) = root parent i := by
  rw [h.root_eq]
  exact h.settled i

theorem Forest.root_lt (h : Forest parent) {i : Nat} (hi : i < parent.length) :
    root parent i < parent.length :=
  climb_lt h.inRange _ hi

theorem root_of_up {i : Nat} (h : up parent i = i) : root parent i = i := climb_of_root h _

theorem up_range (n i : Nat) : up (List.range n) i = i := by
  by_cases hi : i < n
  · unfold up
    rw [getD_eq_getElem _ _ (by rwa [length_range]), getElem_range]
  · exact up_of_le (by rw [length_range]; omega)

theorem forest_range (n : Nat) : Forest (List.range n) :=
  ⟨fun i hi => by rwa [up_range], fun i => up_range n _⟩

theorem root_range (n i : Nat) : root (List.range n) i = i := root_of_up (up_range n i)

theorem up_set {r p : Nat} (hr : r < parent.length) (i : Nat) :
    up (parent.set r p) i = if i = r then p else up parent i := by
  unfold up
  by_cases hi : i = r
  · subst hi
    rw [if_pos rfl, getD_eq_getElem _ _ (by rwa [length_set]), getElem_set_self]
  · rw [if_neg hi]
    by_cases hlt : i < parent.length
    · rw [getD_eq_getElem _ _ (by rwa [length_set]), getD_eq_getElem _ _ hlt,
        getElem_set_ne (Ne.symm hi)]
    · rw [getD_eq_default _ _ (by rw [length_set]; omega),
        getD_eq_default _ _ (by omega)]

theorem climb_set {r p : Nat} (hr : r < parent.length) (hrRoot : up parent r = r)
    (hpRoot : up parent p = p) (hne : p ≠ r) :
    ∀ {d i : Nat}, up parent (climb parent d i) = climb parent d i →
      climb (parent.set r p) (d + 1) i =
        if climb parent d i = r then p else climb parent d i := by
  have hp : up (parent.set r p) p = p := by rw [up_set hr, if_neg hne, hpRoot]
  intro d
  induction d with
  | zero =>
    intro i h
    rw [climb_succ, up_set hr]
    change climb _ 0 _ = if i = r then p else i
    split
    · rfl
    · exact h
  | succ d ih =>
    intro i h
    rw [climb_succ, up_set hr]
    by_cases hi : i = r
    · subst hi
      rw [if_pos rfl, climb_of_root hrRoot, if_pos rfl, climb_of_root hp]
    · rw [climb_succ] at h
      rw [if_neg hi, ih h, ← climb_succ]

theorem below_set {r p : Nat} (hr : r < parent.length) (hrRoot : up parent r = r) (hne : p ≠ r) :
    (below (parent.set r p)).card = (below parent).card + 1 := by
  have hinsert : below (parent.set r p) = insert r (below parent) := by
    ext i
    unfold below
    rw [Finset.mem_insert, Finset.mem_filter, Finset.mem_filter, length_set, up_set hr]
    by_cases hi : i = r
    · subst hi
      simp [hr, hne]
    · simp [hi]
  rw [hinsert, Finset.card_insert_of_notMem]
  unfold below
  simp [hrRoot]

theorem Forest.set (h : Forest parent) {r p : Nat} (hr : r < parent.length)
    (hp : p < parent.length) (hrRoot : up parent r = r) (hpRoot : up parent p = p) (hne : p ≠ r) :
    Forest (parent.set r p) ∧ ∀ i, root (parent.set r p) i =
      if root parent i = r then p else root parent i := by
  have hclimb : ∀ i, climb (parent.set r p) ((below parent).card + 1) i =
      if root parent i = r then p else root parent i := by
    intro i
    rw [h.root_eq]
    exact climb_set hr hrRoot hpRoot hne (h.settled i)
  have hforest : Forest (parent.set r p) := by
    refine ⟨fun i hi => ?_, fun i => ?_⟩
    · rw [length_set] at hi ⊢
      rw [up_set hr]
      split
      · exact hp
      · exact h.inRange i hi
    · rw [below_set hr hrRoot hne, hclimb, up_set hr]
      by_cases hi : root parent i = r
      · rw [if_pos hi, if_neg hne, hpRoot]
      · rw [if_neg hi, if_neg hi, h.up_root]
  refine ⟨hforest, fun i => ?_⟩
  rw [hforest.root_eq, below_set hr hrRoot hne, hclimb]

/-- **Joining two classes** gives the second one the root of the first. -/
theorem root_union (h : Forest parent) {a b : Nat} (ha : a < parent.length)
    (hb : b < parent.length) :
    Forest (union parent a b) ∧ ∀ i, root (union parent a b) i =
      if root parent i = root parent b then root parent a else root parent i := by
  unfold union
  by_cases hne : root parent a = root parent b
  · have hsame : parent.set (root parent b) (root parent a) = parent := by
      refine ext_getElem (length_set ..) fun i hi hi' => ?_
      rw [getElem_set]
      split
      · rename_i heq
        subst heq
        have hup := h.up_root b
        unfold up at hup
        rw [getD_eq_getElem _ _ hi'] at hup
        rw [hne, hup]
      · rfl
    rw [hsame]
    refine ⟨h, fun i => ?_⟩
    split
    · rename_i heq
      rw [heq, hne]
    · rfl
  · exact h.set (h.root_lt hb) (h.root_lt ha) (h.up_root b) (h.up_root a) hne

end BalanceFrame.Library
