import Mathlib.Data.String.Basic
import Mathlib.Order.Defs.LinearOrder
import Mathlib.Data.List.Forall2
import Mathlib.Data.List.Induction
import Mathlib.Algebra.Ring.Int.Defs

/-!
# Ordered maps as sorted association lists

`SortedMap κ ν` is a finite map that iterates in key order. Its entries are kept strictly sorted by
key, and the sortedness is a field, so a map with a repeated key cannot be built: a map is its
entry list, and two maps are equal exactly when every lookup agrees (`ext_get?`).

The definitions recurse on the entry list only, so closed terms evaluate in the kernel.

* `get?_insert`, `mem_entries_iff`: reading after a write, and entries against lookups;
* `forall₂_entries`: maps related lookup by lookup are related entry by entry.
-/

namespace BalanceFrame.Library

open List Option

variable {κ ν μ : Type} [LinearOrder κ]

/-! ## Association lists -/

/-- The value stored under `k`, in an association list. -/
def lookupList : List (κ × ν) → κ → Option ν
  | [], _ => none
  | (j, v) :: rest, k => if j = k then some v else lookupList rest k

/-- Store `v` under `k`, before the first larger key. -/
def insertList (k : κ) (v : ν) : List (κ × ν) → List (κ × ν)
  | [] => [(k, v)]
  | (j, w) :: rest =>
    if k < j then (k, v) :: (j, w) :: rest
    else if k = j then (k, v) :: rest
    else (j, w) :: insertList k v rest

/-- Every key of `l` is above `k`. -/
def Above (k : κ) (l : List (κ × ν)) : Prop := ∀ e ∈ l, k < e.1

/-- Strictly sorted by key. -/
def KeySorted (l : List (κ × ν)) : Prop := (l.map Prod.fst).Pairwise (· < ·)

theorem keySorted_nil : KeySorted ([] : List (κ × ν)) := List.Pairwise.nil

variable {k : κ} {l : List (κ × ν)} {v : ν}

theorem keySorted_cons : KeySorted ((k, v) :: l) ↔ Above k l ∧ KeySorted l := by
  simp only [KeySorted, Above, map_cons, pairwise_cons, List.mem_map]
  constructor
  · rintro ⟨h, hs⟩
    exact ⟨fun e he => h _ ⟨e, he, rfl⟩, hs⟩
  · rintro ⟨h, hs⟩
    refine ⟨?_, hs⟩
    rintro _ ⟨e, he, rfl⟩
    exact h e he

theorem lookupList_of_above (h : Above k l) : lookupList l k = none := by
  induction l with
  | nil => rfl
  | cons e rest ih =>
    have hne : e.1 ≠ k := ne_of_gt (h e mem_cons_self)
    simp only [lookupList, if_neg hne]
    exact ih fun e' he' => h e' (mem_cons_of_mem _ he')

theorem Above.trans {j : κ} (hjk : j < k) (h : Above k l) : Above j l :=
  fun e he => lt_trans hjk (h e he)

theorem above_insertList {j : κ} (hjk : j < k) (h : Above j l) : Above j (insertList k v l) := by
  induction l with
  | nil =>
    intro e he
    rw [mem_singleton.mp he]
    exact hjk
  | cons x rest ih =>
    have hrest : Above j rest := fun e he => h e (mem_cons_of_mem _ he)
    unfold insertList
    split
    · intro e he
      rcases mem_cons.mp he with rfl | he
      · exact hjk
      · exact h e he
    · split
      · intro e he
        rcases mem_cons.mp he with rfl | he
        · exact hjk
        · exact hrest e he
      · intro e he
        rcases mem_cons.mp he with rfl | he
        · exact h _ mem_cons_self
        · exact ih hrest e he

theorem keySorted_insertList (k : κ) (v : ν) :
    ∀ {l : List (κ × ν)}, KeySorted l → KeySorted (insertList k v l)
  | [], _ => keySorted_cons.mpr ⟨fun _ h => absurd h not_mem_nil, keySorted_nil⟩
  | (j, w) :: rest, hs => by
    obtain ⟨ha, hr⟩ := keySorted_cons.mp hs
    unfold insertList
    split
    · rename_i hkj
      refine keySorted_cons.mpr ⟨fun e he => ?_, hs⟩
      rcases mem_cons.mp he with rfl | he
      · exact hkj
      · exact lt_trans hkj (ha e he)
    · rename_i hkj
      split
      · rename_i heq
        subst heq
        exact keySorted_cons.mpr ⟨ha, hr⟩
      · rename_i hne
        have hjk : j < k := lt_of_le_of_ne (not_lt.mp hkj) (Ne.symm hne)
        exact keySorted_cons.mpr ⟨above_insertList hjk ha, keySorted_insertList k v hr⟩

theorem lookupList_insertList (k : κ) (v : ν) (q : κ) :
    ∀ l : List (κ × ν), lookupList (insertList k v l) q = if k = q then some v else lookupList l q
  | [] => rfl
  | (j, w) :: rest => by
    unfold insertList
    split
    · rfl
    · split
      · rename_i heq
        subst heq
        by_cases hq : k = q
        · simp [lookupList, hq]
        · simp [lookupList, hq]
      · rename_i hne
        simp only [lookupList]
        rw [lookupList_insertList k v q rest]
        by_cases hj : j = q
        · subst hj
          rw [if_pos rfl, if_neg hne, if_pos rfl]
        · rw [if_neg hj, if_neg hj]

theorem mem_iff_lookupList :
    ∀ {l : List (κ × ν)}, KeySorted l → ((k, v) ∈ l ↔ lookupList l k = some v)
  | [], _ => by simp [lookupList]
  | (j, w) :: rest, hs => by
    obtain ⟨ha, hr⟩ := keySorted_cons.mp hs
    simp only [mem_cons, Prod.mk.injEq, lookupList]
    by_cases hj : j = k
    · subst hj
      rw [if_pos rfl]
      constructor
      · rintro (⟨-, rfl⟩ | h)
        · rfl
        · exact absurd (ha _ h) (lt_irrefl _)
      · intro h
        exact Or.inl ⟨rfl, (some.inj h).symm⟩
    · rw [if_neg hj, ← mem_iff_lookupList hr]
      constructor
      · rintro (⟨rfl, -⟩ | h)
        · exact absurd rfl hj
        · exact h
      · exact Or.inr

theorem forall₂_of_lookupList {R : ν → μ → Prop} :
    ∀ {l : List (κ × ν)} {l' : List (κ × μ)}, KeySorted l → KeySorted l' →
      (∀ k, Option.Rel R (lookupList l k) (lookupList l' k)) →
      List.Forall₂ (fun e e' => e.1 = e'.1 ∧ R e.2 e'.2) l l'
  | [], [], _, _, _ => List.Forall₂.nil
  | [], (k, v) :: _, _, _, h => by
    have := h k
    simp only [lookupList, if_true] at this
    cases this
  | (k, v) :: _, [], _, _, h => by
    have := h k
    simp only [lookupList, if_true] at this
    cases this
  | (k, v) :: l, (k', v') :: l', hs, hs', h => by
    obtain ⟨ha, hr⟩ := keySorted_cons.mp hs
    obtain ⟨ha', hr'⟩ := keySorted_cons.mp hs'
    have hkk : k = k' := by
      rcases lt_trichotomy k k' with hlt | heq | hgt
      · have := h k
        simp only [lookupList, if_true] at this
        rw [if_neg (ne_of_gt hlt), lookupList_of_above (Above.trans hlt ha')] at this
        cases this
      · exact heq
      · have := h k'
        simp only [lookupList, if_true] at this
        rw [if_neg (ne_of_gt hgt), lookupList_of_above (Above.trans hgt ha)] at this
        cases this
    subst hkk
    refine List.Forall₂.cons ⟨rfl, ?_⟩ (forall₂_of_lookupList hr hr' fun q => ?_)
    · have := h k
      simp only [lookupList, if_true] at this
      cases this with
      | some hR => exact hR
    · by_cases hq : k = q
      · subst hq
        rw [lookupList_of_above ha, lookupList_of_above ha']
        exact Option.Rel.none
      · have := h q
        simp only [lookupList] at this
        rwa [if_neg hq, if_neg hq] at this

/-! ## The map -/

/-- A finite map iterating in key order. -/
structure SortedMap (κ ν : Type) [LinearOrder κ] where
  entries : List (κ × ν)
  sorted : KeySorted entries

namespace SortedMap

/-- The empty map. -/
def empty : SortedMap κ ν := ⟨[], keySorted_nil⟩

/-- The value under `k`. -/
def get? (m : SortedMap κ ν) (k : κ) : Option ν := lookupList m.entries k

/-- Store `v` under `k`, replacing what was there. -/
def insert (m : SortedMap κ ν) (k : κ) (v : ν) : SortedMap κ ν :=
  ⟨insertList k v m.entries, keySorted_insertList k v m.sorted⟩

/-- The keys, ascending. -/
def keys (m : SortedMap κ ν) : List κ := m.entries.map Prod.fst

/-- The values, by ascending key. -/
def values (m : SortedMap κ ν) : List ν := m.entries.map Prod.snd

/-- Collect pairs into a map; a later pair replaces an earlier one with its key. -/
def ofList (l : List (κ × ν)) : SortedMap κ ν := l.foldl (fun m e => m.insert e.1 e.2) empty

@[simp] theorem get?_empty (k : κ) : (empty : SortedMap κ ν).get? k = none := rfl

variable (m : SortedMap κ ν) {α : Type}

theorem get?_insert (k : κ) (v : ν) (q : κ) :
    (m.insert k v).get? q = if k = q then some v else m.get? q :=
  lookupList_insertList k v q m.entries

@[simp] theorem get?_insert_self (k : κ) (v : ν) : (m.insert k v).get? k = some v := by
  rw [get?_insert, if_pos rfl]

variable {k : κ} {v : ν}

theorem get?_insert_of_ne {q : κ} (v : ν) (h : k ≠ q) : (m.insert k v).get? q = m.get? q := by
  rw [get?_insert, if_neg h]

theorem mem_entries_iff {m : SortedMap κ ν} : (k, v) ∈ m.entries ↔ m.get? k = some v :=
  mem_iff_lookupList m.sorted

theorem mem_values_iff {m : SortedMap κ ν} : v ∈ m.values ↔ ∃ k, m.get? k = some v := by
  simp only [values, List.mem_map, Prod.exists, exists_eq_right, mem_entries_iff]

theorem mem_keys_iff {m : SortedMap κ ν} : k ∈ m.keys ↔ ∃ v, m.get? k = some v := by
  simp only [keys, List.mem_map, Prod.exists, exists_and_right, exists_eq_right, mem_entries_iff]

theorem nodup_keys : m.keys.Nodup :=
  m.sorted.imp fun h => ne_of_lt h

theorem length_values : m.values.length = m.entries.length :=
  length_map _

theorem forall₂_entries {R : ν → μ → Prop} {m : SortedMap κ ν} {m' : SortedMap κ μ}
    (h : ∀ k, Option.Rel R (m.get? k) (m'.get? k)) :
    List.Forall₂ (fun e e' => e.1 = e'.1 ∧ R e.2 e'.2) m.entries m'.entries :=
  forall₂_of_lookupList m.sorted m'.sorted h

theorem entries_congr {m m' : SortedMap κ ν} (h : ∀ k, m.get? k = m'.get? k) :
    m.entries = m'.entries := by
  have hrel : ∀ k, Option.Rel (· = ·) (m.get? k) (m'.get? k) := fun k => by
    rw [h k]
    cases m'.get? k with
    | none => exact Option.Rel.none
    | some v => exact Option.Rel.some rfl
  have := (forall₂_entries hrel).imp fun e e' he => Prod.ext he.1 he.2
  exact forall₂_eq_eq_eq ▸ this

theorem ext_get? {m m' : SortedMap κ ν} (h : ∀ k, m.get? k = m'.get? k) : m = m' := by
  cases m
  cases m'
  congr
  exact entries_congr h

theorem length_keys : m.keys.length = m.values.length := by
  rw [keys, values, length_map, length_map]

theorem exists_getElem? {m : SortedMap κ ν} (h : m.get? k = some v) :
    ∃ i : Nat, m.values[i]? = some v ∧ m.keys[i]? = some k := by
  obtain ⟨i, hi, he⟩ := mem_iff_getElem.mp (mem_entries_iff.mpr h)
  have he' : m.entries[i]? = some (k, v) := by rw [getElem?_eq_getElem hi, he]
  exact ⟨i, by rw [values, getElem?_map, he']; rfl,
    by rw [keys, getElem?_map, he']; rfl⟩

theorem insertList_last :
    ∀ {l : List (κ × ν)}, (∀ e ∈ l, e.1 < k) → insertList k v l = l ++ [(k, v)]
  | [], _ => rfl
  | (j, w) :: rest, h => by
    have hj : j < k := h (j, w) mem_cons_self
    rw [insertList, if_neg (not_lt_of_gt hj), if_neg hj.ne',
      insertList_last fun e he => h e (mem_cons_of_mem _ he), cons_append]

theorem entries_insert_last {m : SortedMap κ ν} (h : ∀ e ∈ m.entries, e.1 < k) :
    (m.insert k v).entries = m.entries ++ [(k, v)] :=
  insertList_last h

theorem get?_foldl_insert (key : α → κ) (value : α → ν) :
    ∀ {l : List α}, (l.map key).Nodup → ∀ m : SortedMap κ ν,
      (∀ a ∈ l, (l.foldl (fun m a => m.insert (key a) (value a)) m).get? (key a) =
        some (value a)) ∧
      ∀ k, k ∉ l.map key →
        (l.foldl (fun m a => m.insert (key a) (value a)) m).get? k = m.get? k
  | [], _, m => ⟨fun a ha => absurd ha not_mem_nil, fun _ _ => rfl⟩
  | x :: l, hnd, m => by
    rw [map_cons, nodup_cons] at hnd
    obtain ⟨hmem, hout⟩ := get?_foldl_insert key value hnd.2 (m.insert (key x) (value x))
    rw [foldl_cons]
    refine ⟨fun a ha => ?_, fun k hk => ?_⟩
    · rcases mem_cons.mp ha with rfl | ha
      · rw [hout _ hnd.1, get?_insert_self]
      · exact hmem a ha
    · rw [map_cons, mem_cons, not_or] at hk
      rw [hout k hk.2, get?_insert_of_ne _ _ (Ne.symm hk.1)]

/-! ## Sums over the entries -/

/-- The sum of `f` over the entries. -/
def total (m : SortedMap κ ν) (f : κ → ν → ℤ) : ℤ := (m.entries.map fun e => f e.1 e.2).sum

theorem sum_insertList (f : κ → ν → ℤ) (k : κ) (v : ν) :
    ∀ {l : List (κ × ν)}, KeySorted l → ((insertList k v l).map fun e => f e.1 e.2).sum +
      (lookupList l k).elim 0 (f k) = (l.map fun e => f e.1 e.2).sum + f k v
  | [], _ => by simp [insertList, lookupList]
  | (j, w) :: rest, hs => by
    obtain ⟨ha, hr⟩ := keySorted_cons.mp hs
    unfold insertList
    split
    · rename_i hkj
      have hnone : lookupList ((j, w) :: rest) k = none := by
        refine lookupList_of_above fun e he => ?_
        rcases mem_cons.mp he with rfl | he
        · exact hkj
        · exact lt_trans hkj (ha e he)
      rw [hnone, map_cons, sum_cons, elim_none]
      dsimp only
      omega
    · split
      · rename_i heq
        subst heq
        simp only [lookupList, if_true, map_cons, sum_cons, elim_some]
        omega
      · rename_i hne
        have ih := sum_insertList f k v hr
        simp only [lookupList, if_neg (Ne.symm hne), map_cons, sum_cons]
        omega

theorem sum_congr_except {f f' : κ → ν → ℤ} (h : ∀ j, j ≠ k → ∀ v, f j v = f' j v) :
    ∀ {l : List (κ × ν)}, KeySorted l → (l.map fun e => f' e.1 e.2).sum +
      (lookupList l k).elim 0 (f k) =
        (l.map fun e => f e.1 e.2).sum + (lookupList l k).elim 0 (f' k)
  | [], _ => rfl
  | (j, w) :: rest, hs => by
    obtain ⟨ha, hr⟩ := keySorted_cons.mp hs
    have ih := sum_congr_except h hr
    simp only [map_cons, sum_cons]
    by_cases hjk : j = k
    · subst hjk
      rw [lookupList_of_above ha, elim_none, elim_none] at ih
      simp only [lookupList, if_true, elim_some]
      omega
    · simp only [lookupList, if_neg hjk, h j hjk w]
      omega

theorem total_congr_except (f f' : κ → ν → ℤ) (k : κ) (h : ∀ j, j ≠ k → ∀ v, f j v = f' j v) :
    m.total f' + (m.get? k).elim 0 (f k) = m.total f + (m.get? k).elim 0 (f' k) :=
  sum_congr_except h m.sorted

theorem total_insert (f : κ → ν → ℤ) (k : κ) (v : ν) :
    (m.insert k v).total f + (m.get? k).elim 0 (f k) = m.total f + f k v :=
  sum_insertList f k v m.sorted

theorem get?_ofList_map {f : κ → ν} {l : List κ} (h : k ∈ l) :
    (ofList (l.map fun j => (j, f j))).get? k = some (f k) := by
  unfold ofList
  rw [foldl_map]
  induction l using List.reverseRecOn with
  | nil => exact absurd h not_mem_nil
  | append_singleton l j ih =>
    rw [foldl_append, foldl_cons, foldl_nil, get?_insert]
    split
    · rename_i heq
      exact congrArg (fun j => some (f j)) heq
    · rename_i hne
      refine ih ((mem_append.mp h).resolve_right fun hj => hne ?_)
      exact (mem_singleton.mp hj).symm

/-! ## Grouping -/

/-- The members of a list by key, in the order of the list; those without a key are left out. -/
def groupOn {α : Type} (key : α → Option κ) (l : List α) : SortedMap κ (List α) :=
  l.foldl (fun groups a =>
    match key a with
    | some k => groups.insert k ((groups.get? k).getD [] ++ [a])
    | none => groups) empty

theorem get?_foldl_groupOn (key : α → Option κ) (k : κ) :
    ∀ (l : List α) (groups : SortedMap κ (List α)),
      (l.foldl (fun groups a =>
        match key a with
        | some k => groups.insert k ((groups.get? k).getD [] ++ [a])
        | none => groups) groups).get? k =
      if (l.filter fun a => decide (key a = some k)) = [] then groups.get? k
      else some ((groups.get? k).getD [] ++ l.filter fun a => decide (key a = some k))
  | [], groups => rfl
  | a :: l, groups => by
    rw [foldl_cons, get?_foldl_groupOn key k l, filter_cons]
    cases hkey : key a with
    | none => simp only [reduceCtorEq, decide_false, Bool.false_eq_true, if_false]
    | some j =>
      dsimp only
      by_cases hj : j = k
      · subst hj
        simp only [decide_true, if_true, get?_insert_self, getD_some, reduceCtorEq, if_false]
        split
        · rename_i hnil
          rw [hnil]
        · rw [append_assoc, singleton_append]
      · have hne : decide (some j = some k) = false :=
          decide_eq_false fun h => hj (some.inj h)
        simp only [hne, Bool.false_eq_true, if_false, get?_insert_of_ne _ _ hj]

/-- **The group of a key** holds exactly the members with that key. -/
theorem get?_groupOn (key : α → Option κ) (l : List α) (k : κ) :
    (groupOn key l).get? k =
      if (l.filter fun a => decide (key a = some k)) = [] then none
      else some (l.filter fun a => decide (key a = some k)) := by
  rw [groupOn, get?_foldl_groupOn]
  rfl

theorem get?_groupOn_eq_some {key : α → Option κ} {l : List α} {group : List α} :
    (groupOn key l).get? k = some group ↔
      group ≠ [] ∧ group = l.filter fun a => decide (key a = some k) := by
  rw [get?_groupOn]
  split
  · rename_i hnil
    constructor
    · intro h
      cases h
    · rintro ⟨hne, rfl⟩
      exact absurd hnil hne
  · rename_i hne
    constructor
    · intro h
      cases h
      exact ⟨hne, rfl⟩
    · rintro ⟨-, rfl⟩
      rfl

theorem pairwise_groupOn (key : α → Option κ) (l : List α) :
    (groupOn key l).values.Pairwise fun g g' => ∀ a ∈ g, a ∉ g' := by
  unfold values
  rw [pairwise_map]
  have hsorted := (groupOn key l).sorted
  unfold KeySorted at hsorted
  rw [pairwise_map] at hsorted
  have hkey : ∀ e ∈ (groupOn key l).entries, ∀ a ∈ e.2, key a = some e.1 := by
    rintro ⟨k, g⟩ he a ha
    obtain ⟨-, rfl⟩ := get?_groupOn_eq_some.mp (mem_entries_iff.mp he)
    exact of_decide_eq_true (mem_filter.mp ha).2
  refine List.Pairwise.imp_of_mem (fun he he' hlt a ha ha' => ?_) hsorted
  have hsame := (hkey _ he a ha).symm.trans (hkey _ he' a ha')
  exact absurd (some.inj hsame) (ne_of_lt hlt)

end SortedMap

end BalanceFrame.Library
