import Mathlib.Data.List.Forall2
import Mathlib.Data.List.Nodup
import Mathlib.Algebra.BigOperators.Intervals
import Mathlib.Algebra.BigOperators.Ring.Finset
import Mathlib.Algebra.BigOperators.Group.Multiset.Basic
import Mathlib.Algebra.Ring.Int.Defs

/-!
# Lists compared position by position
-/

namespace BalanceFrame.Library

open List

variable {α β : Type}

variable {R : α → β → Prop} {l : List α} {a : α} {G : Nat → Int}

theorem forall₂_iff_getElem? : ∀ {l : List α} {l' : List β},
      List.Forall₂ R l l' ↔ ∀ i : Nat, Option.Rel R l[i]? l'[i]?
  | [], [] => by
    simp only [forall₂_nil_left_iff, getElem?_nil, true_iff]
    exact fun _ => Option.Rel.none
  | [], b :: l' => by
    constructor
    · intro h
      cases h
    · intro h
      have := h 0
      simp only [getElem?_nil, getElem?_cons_zero] at this
      cases this
  | a :: l, [] => by
    constructor
    · intro h
      cases h
    · intro h
      have := h 0
      simp only [getElem?_nil, getElem?_cons_zero] at this
      cases this
  | a :: l, b :: l' => by
    rw [forall₂_cons, forall₂_iff_getElem? (l := l)]
    constructor
    · rintro ⟨hab, h⟩ i
      cases i with
      | zero => exact Option.Rel.some hab
      | succ i => exact h i
    · intro h
      refine ⟨?_, fun i => h (i + 1)⟩
      have := h 0
      simp only [getElem?_cons_zero] at this
      cases this with
      | some hab => exact hab

theorem forall₂_imp_mem {S : α → β → Prop} :
    ∀ {l : List α} {l' : List β}, (∀ a ∈ l, ∀ b, R a b → S a b) → List.Forall₂ R l l' →
      List.Forall₂ S l l'
  | [], _, _, List.Forall₂.nil => List.Forall₂.nil
  | _ :: _, _, h, List.Forall₂.cons hab hl =>
    List.Forall₂.cons (h _ mem_cons_self _ hab)
      (forall₂_imp_mem (fun a ha => h a (mem_cons_of_mem _ ha)) hl)

theorem exists_of_forall₂ :
    ∀ {l : List α} {l' : List β}, List.Forall₂ R l l' → ∀ {b}, b ∈ l' → ∃ a ∈ l, R a b
  | _, _, .nil, _, hb => absurd hb not_mem_nil
  | _, _, .cons h hrest, _, hb => by
    rcases mem_cons.mp hb with rfl | hb
    · exact ⟨_, mem_cons_self, h⟩
    · obtain ⟨a, ha, hR⟩ := exists_of_forall₂ hrest hb
      exact ⟨a, mem_cons_of_mem _ ha, hR⟩

theorem map_of_forall₂ {key : β → α}
    (hR : ∀ a b, R a b → key b = a) {l' : List β} (h : List.Forall₂ R l l') :
    l'.map key = l := by
  induction h with
  | nil => rfl
  | cons hab _ ih => rw [map_cons, ih, hR _ _ hab]

theorem getElem?_inj_of_nodup (h : l.Nodup) {i j : Nat}
    (hi : l[i]? = some a) (hj : l[j]? = some a) : i = j := by
  obtain ⟨hi, hai⟩ := List.getElem?_eq_some_iff.mp hi
  obtain ⟨hj, haj⟩ := List.getElem?_eq_some_iff.mp hj
  exact (h.getElem_inj_iff).mp (hai.trans haj.symm)

/-! ## First occurrences -/

/-- The members whose key was not met before them. -/
def firsts {κ : Type} [DecidableEq κ] (key : α → κ) (l : List α) : List α :=
  l.foldl (fun met a => if key a ∈ met.map key then met else met ++ [a]) []

variable {κ : Type}

variable (key : α → κ)

theorem firsts_snoc [DecidableEq κ] (l : List α) (a : α) :
    firsts key (l ++ [a]) =
      if key a ∈ (firsts key l).map key then firsts key l else firsts key l ++ [a] := by
  rw [firsts, foldl_append]
  rfl

theorem mem_firsts_key [DecidableEq κ] (l : List α) (k : κ) :
    k ∈ (firsts key l).map key ↔ k ∈ l.map key := by
  induction l using List.reverseRecOn with
  | nil => rfl
  | append_singleton l a ih =>
    rw [firsts_snoc, map_append, mem_append, ← ih]
    split
    · rename_i hmet
      constructor
      · exact Or.inl
      · rintro (h | h)
        · exact h
        · rwa [mem_singleton.mp h]
    · rw [map_append, mem_append]

theorem firsts_cons [DecidableEq κ] (a : α) (l : List α) :
    firsts key (a :: l) = a :: (firsts key l).filter fun b => decide (key b ≠ key a) := by
  induction l using List.reverseRecOn with
  | nil => rfl
  | append_singleton l b ih =>
    rw [← cons_append, firsts_snoc, firsts_snoc, ih, map_cons]
    have hmap : ∀ k ≠ key a, (k ∈ ((firsts key l).filter fun b => decide (key b ≠ key a)).map key ↔
        k ∈ (firsts key l).map key) := by
      intro k hk
      constructor
      · exact fun h => map_subset key (filter_subset_self _) h
      · intro h
        obtain ⟨c, hc, rfl⟩ := mem_map.mp h
        exact mem_map.mpr ⟨c, mem_filter.mpr ⟨hc, decide_eq_true hk⟩, rfl⟩
    by_cases hkey : key b = key a
    · rw [if_pos (hkey ▸ mem_cons_self)]
      split
      · rfl
      · rw [filter_append, filter_cons, if_neg (by simpa using hkey), filter_nil,
          append_nil]
    · by_cases hmet : key b ∈ (firsts key l).map key
      · rw [if_pos (mem_cons_of_mem _ ((hmap _ hkey).mpr hmet)), if_pos hmet]
      · rw [if_neg hmet, if_neg ?_]
        · rw [filter_append, filter_cons, if_pos (decide_eq_true hkey), filter_nil]
          rfl
        · rw [mem_cons, not_or]
          exact ⟨hkey, fun h => hmet ((hmap _ hkey).mp h)⟩

theorem find?_of_mem_firsts [DecidableEq κ] {key : α → κ} (h : a ∈ firsts key l) :
    l.find? (fun b => decide (key b = key a)) = some a := by
  induction l with
  | nil => cases h
  | cons b l ih =>
    rw [firsts_cons] at h
    rcases mem_cons.mp h with rfl | hmem
    · rw [find?_cons, decide_eq_true rfl]
    · obtain ⟨hmem, hne⟩ := mem_filter.mp hmem
      rw [find?_cons, decide_eq_false fun heq => of_decide_eq_true hne heq.symm]
      exact ih hmem

/-! ## Members with a key -/

theorem filter_filterMap_of_key {f : α → Option β} (key : α → κ) (keyOf : β → κ)
    (hkey : ∀ a b, f a = some b → keyOf b = key a) {p : β → Bool} {k : κ}
    (hp : ∀ b, p b = true ↔ keyOf b = k) :
    ∀ {l : List α}, (l.map key).Nodup → ∀ a ∈ l, key a = k →
      (l.filterMap f).filter p = (f a).toList
  | x :: l, hnd, a, ha, hk => by
    rw [map_cons, nodup_cons] at hnd
    have hsplit : (x :: l).filterMap f = (f x).toList ++ l.filterMap f := by
      cases hf : f x <;> simp [hf]
    have hgives : ∀ {y b}, f y = some b → p b = true → key y = k := fun {y b} hf hpb =>
      (hkey y b hf).symm.trans ((hp b).mp hpb)
    rw [hsplit, filter_append]
    rcases mem_cons.mp ha with rfl | ha
    · have hhead : (f a).toList.filter p = (f a).toList := filter_eq_self.mpr fun b hb =>
        (hp b).mpr ((hkey a b (Option.mem_toList.mp hb)).trans hk)
      rw [hhead, filter_eq_nil_iff.mpr, append_nil]
      intro b hb hpb
      obtain ⟨y, hy, hfy⟩ := mem_filterMap.mp hb
      exact hnd.1 (hk.trans (hgives hfy hpb).symm ▸ mem_map_of_mem hy)
    · rw [filter_eq_nil_iff.mpr, nil_append]
      · exact filter_filterMap_of_key key keyOf hkey hp hnd.2 a ha hk
      · intro b hb hpb
        have hx := hgives (Option.mem_toList.mp hb) hpb
        exact hnd.1 (hx.trans hk.symm ▸ mem_map_of_mem ha)

/-! ## Sums over numbered lists -/

theorem sum_zipIdx_from {F : α → Nat → Int} :
    ∀ {l : List α} {n : Nat}, (∀ k a, l[k]? = some a → F a (n + k) = G (n + k)) →
      ((l.zipIdx n).map fun p => F p.1 p.2).sum = ∑ k ∈ Finset.range l.length, G (n + k)
  | [], _, _ => rfl
  | a :: l, n, h => by
    rw [zipIdx_cons, map_cons, sum_cons, length_cons, Finset.sum_range_succ',
      sum_zipIdx_from (l := l) (n := n + 1) fun k b hk => ?_]
    · have := h 0 a rfl
      rw [Nat.add_zero] at this ⊢
      rw [this, add_comm]
      congr 1
      refine Finset.sum_congr rfl fun k _ => ?_
      rw [Nat.add_assoc, Nat.add_comm 1 k]
    · have := h (k + 1) b hk
      rwa [show n + (k + 1) = n + 1 + k by omega] at this

/-- A sum over a numbered list whose terms depend on the number only. -/
theorem sum_zipIdx {F : α → Nat → Int} (h : ∀ k a, l[k]? = some a → F a k = G k) :
    (l.zipIdx.map fun p => F p.1 p.2).sum = ∑ k ∈ Finset.range l.length, G k := by
  have := sum_zipIdx_from (F := F) (G := G) (l := l) (n := 0) fun k a hk => by
    rw [Nat.zero_add]
    exact h k a hk
  simpa using this

theorem sum_map_eq_range {F : α → Int} (h : ∀ k a, l[k]? = some a → F a = G k) :
    (l.map F).sum = ∑ k ∈ Finset.range l.length, G k := by
  rw [← sum_zipIdx (F := fun a _ => F a) h]
  congr 1
  calc l.map F = (l.zipIdx.map Prod.fst).map F := by rw [zipIdx_map_fst]
    _ = l.zipIdx.map fun p => F p.1 := by
      rw [map_map]
      rfl

theorem sum_filter_append_singleton (P : α → Bool) (F : α → Int) (l : List α) (a : α) :
    (((l ++ [a]).filter P).map F).sum =
      ((l.filter P).map F).sum + if P a = true then F a else 0 := by
  rw [filter_append, map_append, sum_append]
  by_cases h : P a = true
  · rw [if_pos h, filter_cons_of_pos h]
    simp
  · rw [if_neg h, filter_cons_of_neg h]
    simp

theorem sum_filter (p : α → Bool) (f : α → Int) (l : List α) :
    ((l.filter p).map f).sum = (l.map fun a => if p a = true then f a else 0).sum := by
  induction l with
  | nil => rfl
  | cons a l ih =>
    rw [map_cons, sum_cons, ← ih]
    by_cases h : p a = true
    · rw [filter_cons_of_pos h, map_cons, sum_cons, if_pos h]
    · rw [filter_cons_of_neg h, if_neg h, zero_add]

theorem sum_filterMap (F : α → Option β) (G : β → Int) (l : List α) :
    ((l.filterMap F).map G).sum = (l.map fun a => (F a).elim 0 G).sum := by
  induction l with
  | nil => rfl
  | cons a l ih =>
    rw [filterMap_cons, map_cons, sum_cons]
    cases F a with
    | none => rw [ih, Option.elim_none, zero_add]
    | some b => rw [map_cons, sum_cons, ih, Option.elim_some]

theorem sum_map_comm (l : List α) (l' : List β) (F : α → β → Int) :
    (l.map fun a => (l'.map (F a)).sum).sum = (l'.map fun b => (l.map fun a => F a b).sum).sum := by
  have := Multiset.sum_map_sum_map (l : Multiset α) (l' : Multiset β) (f := F)
  simpa using this

theorem sum_map_pick [DecidableEq α] (hnd : l.Nodup) (ha : a ∈ l) {P : Prop}
    [Decidable P] (v : Int) :
    (l.map fun b => if a = b ∧ P then v else 0).sum = if P then v else 0 := by
  by_cases hP : P
  · simp only [hP, and_true, if_true]
    have := sum_map_ite_eq l (fun _ => v) (fun _ => 0) a
    simp only [map_const', sum_replicate, nsmul_zero, sub_zero, add_zero,
      count_eq_one_of_mem hnd ha, one_nsmul] at this
    simp only [eq_comm (a := a)]
    exact this
  · simp [hP]

theorem sum_map_raise {f : α → Nat} {raised : List Nat} (hnd : raised.Nodup)
    (hlt : ∀ i ∈ raised, i < l.length) :
    (l.zipIdx.map fun p => ((f p.1 + if p.2 ∈ raised then 1 else 0 : Nat) : Int)).sum =
      (l.map f).sum + raised.length := by
  have hsub : (Finset.range l.length).filter (· ∈ raised) = raised.toFinset := by
    ext i
    simp only [Finset.mem_filter, Finset.mem_range, mem_toFinset]
    exact ⟨And.right, fun hi => ⟨hlt i hi, hi⟩⟩
  have hones : (l.zipIdx.map fun p => if p.2 ∈ raised then (1 : Int) else 0).sum =
      raised.length := by
    rw [sum_zipIdx (F := fun _ i => if i ∈ raised then (1 : Int) else 0) fun _ _ _ => rfl,
      Finset.sum_boole, hsub, toFinset_card_of_nodup hnd]
  have hbase : (l.zipIdx.map fun p => (f p.1 : Int)).sum = (l.map f).sum := by
    rw [Nat.cast_list_sum, map_map]
    conv_rhs => rw [← zipIdx_map_fst 0 l, map_map]
    rfl
  rw [← hones, ← hbase, ← sum_map_add]
  congr 1
  refine map_congr_left fun p _ => ?_
  split <;> simp

end BalanceFrame.Library
