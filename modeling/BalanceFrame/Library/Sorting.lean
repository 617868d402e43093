import Mathlib.Data.List.Dedup
import Mathlib.Data.List.Sort
import Mathlib.Data.Prod.Lex
import Mathlib.Data.String.Basic

/-!
# Stable sorting by a key

`sortOn key` sorts by insertion, which is stable and computes by structural recursion.
`sortOn_eq_of_perm` is what sorting is used for here: lists with the same members, told apart by
their keys, sort to the same list.
-/

namespace BalanceFrame.Library

variable {α κ : Type} [LinearOrder κ]

/-- Sort by `key`; members with equal keys keep their order. -/
def sortOn (key : α → κ) (l : List α) : List α := l.insertionSort fun a b => key a ≤ key b

section ByKey

variable (key : α → κ)

theorem perm_sortOn (l : List α) : (sortOn key l).Perm l := List.perm_insertionSort _ l

variable {l : List α}

@[simp] theorem mem_sortOn {a : α} : a ∈ sortOn key l ↔ a ∈ l :=
  List.mem_insertionSort _

@[simp] theorem length_sortOn (l : List α) : (sortOn key l).length = l.length :=
  List.length_insertionSort _ l

@[simp] theorem sortOn_eq_nil : sortOn key l = [] ↔ l = [] := by
  rw [← List.length_eq_zero_iff, length_sortOn, List.length_eq_zero_iff]

theorem pairwise_sortOn (l : List α) : (sortOn key l).Pairwise fun a b => key a ≤ key b := by
  have htrans : IsTrans α fun a b => key a ≤ key b := ⟨fun _ _ _ hab hbc => le_trans hab hbc⟩
  have htotal : Std.Total fun a b => key a ≤ key b := ⟨fun a b => le_total (key a) (key b)⟩
  exact List.pairwise_insertionSort _ l

variable {key}

theorem eq_of_perm_of_pairwise {l' : List α} (hperm : l.Perm l')
    (hkey : ∀ a ∈ l, ∀ b ∈ l, key a = key b → a = b) (h : l.Pairwise fun a b => key a ≤ key b)
    (h' : l'.Pairwise fun a b => key a ≤ key b) : l = l' := by
  refine List.Perm.eq_of_pairwise (fun a b ha hb hab hba => ?_) h h' hperm
  exact hkey a ha b (hperm.mem_iff.mpr hb) (le_antisymm hab hba)

/-- **Sorting forgets the order** of members that keys tell apart. -/
theorem sortOn_eq_of_perm {l' : List α} (hperm : l.Perm l')
    (hkey : ∀ a ∈ l, ∀ b ∈ l, key a = key b → a = b) : sortOn key l = sortOn key l' := by
  refine eq_of_perm_of_pairwise ?_ ?_ (pairwise_sortOn key l) (pairwise_sortOn key l')
  · exact (perm_sortOn key l).trans (hperm.trans (perm_sortOn key l').symm)
  · intro a ha b hb
    exact hkey a ((mem_sortOn key).mp ha) b ((mem_sortOn key).mp hb)

omit [LinearOrder κ] in
theorem key_injOn (h : (l.map key).Nodup) : ∀ a ∈ l, ∀ b ∈ l, key a = key b → a = b :=
  fun _ ha _ hb => List.inj_on_of_nodup_map h ha hb

theorem key_le_of_take_drop {n : Nat} {a b : α} (ha : a ∈ (sortOn key l).take n)
    (hb : b ∈ (sortOn key l).drop n) : key a ≤ key b := by
  have hsorted := pairwise_sortOn key l
  rw [← List.take_append_drop n (sortOn key l), List.pairwise_append] at hsorted
  exact hsorted.2.2 a ha b hb

end ByKey

/-- The members of a list in order, each once. -/
def sortedSet (l : List κ) : List κ := sortOn (fun a => a) l.dedup

end BalanceFrame.Library
