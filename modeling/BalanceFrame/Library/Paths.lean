import Mathlib.Data.List.Basic
import Mathlib.Data.List.Nodup
import Mathlib.Data.List.Dedup
import Mathlib.Data.List.Perm.Basic
import Mathlib.Data.List.Flatten

/-!
# Disjoint simple paths

Edges from a vertex to the next one, over any vertices.

* `DisjointPaths`: the edges are those of simple paths without a common vertex.
* `Ends`: following the edges from a vertex comes to an end.
* `disjointPaths_iff`: the edges are disjoint simple paths if and only if no vertex is left or
  entered twice and every vertex ends.
-/

namespace BalanceFrame.Library

open List Option

variable {κ : Type}

/-- The edges of a path: each vertex with the one after it. -/
def steps : List κ → List (κ × κ)
  | x :: y :: l => (x, y) :: steps (y :: l)
  | _ => []

/-- The edges make up simple paths without a common vertex. -/
def DisjointPaths (edges : List (κ × κ)) : Prop :=
  ∃ paths : List (List κ), (∀ p ∈ paths, 2 ≤ p.length) ∧ paths.flatten.Nodup ∧
    edges.Perm (paths.flatMap steps)

/-! ## The edges of a path -/

theorem steps_join (l : List κ) (x y : κ) (r : List κ) :
    steps (l ++ x :: y :: r) = steps (l ++ [x]) ++ (x, y) :: steps (y :: r) := by
  induction l with
  | nil => rfl
  | cons a l ih =>
    cases l with
    | nil => rfl
    | cons b l => exact congrArg ((a, b) :: ·) ih

theorem fst_steps (p : List κ) : (steps p).map Prod.fst = p.dropLast := by
  induction p with
  | nil => rfl
  | cons x l ih =>
    cases l with
    | nil => rfl
    | cons y l =>
      change x :: (steps (y :: l)).map Prod.fst = _
      rw [ih, dropLast_cons_of_ne_nil (cons_ne_nil y l)]

theorem snd_steps (p : List κ) : (steps p).map Prod.snd = p.tail := by
  induction p with
  | nil => rfl
  | cons x l ih =>
    cases l with
    | nil => rfl
    | cons y l =>
      change y :: (steps (y :: l)).map Prod.snd = _
      rw [ih]
      rfl

variable {p : List κ} {x y : κ} {edges edges' : List (κ × κ)}

theorem exists_of_mem_steps (h : (x, y) ∈ steps p) : ∃ a b, p = a ++ x :: y :: b := by
  induction p with
  | nil => cases h
  | cons u l ih =>
    cases l with
    | nil => cases h
    | cons v l =>
      rcases mem_cons.mp h with heq | hmem
      · cases heq
        exact ⟨[], l, rfl⟩
      · obtain ⟨a, b, hab⟩ := ih hmem
        exact ⟨u :: a, b, by rw [hab]; rfl⟩

theorem sublist_flatten {f : List κ → List κ} (hf : ∀ p, (f p).Sublist p)
    (paths : List (List κ)) : (paths.map f).flatten.Sublist paths.flatten := by
  induction paths with
  | nil => exact List.Sublist.refl _
  | cons p paths ih => exact (hf p).append ih

theorem eq_concat_of_not_left (hx : x ∈ p) (h : x ∉ (steps p).map Prod.fst) : ∃ l, p = l ++ [x] := by
  have hne := ne_nil_of_mem hx
  rw [fst_steps] at h
  have hlast := dropLast_append_getLast hne
  refine ⟨p.dropLast, ?_⟩
  rw [← hlast, mem_append, mem_singleton] at hx
  rcases hx with hx | hx
  · exact absurd hx h
  · rw [hx, hlast]

theorem eq_cons_of_not_entered (hx : x ∈ p) (h : x ∉ (steps p).map Prod.snd) : ∃ l, p = x :: l := by
  rw [snd_steps] at h
  cases p with
  | nil => cases hx
  | cons y l =>
    rcases mem_cons.mp hx with rfl | hmem
    · exact ⟨l, rfl⟩
    · exact absurd hmem h

theorem exists_step_of_mem {l : List κ} {last : κ} (hx : x ∈ l ++ [last]) (hne : x ≠ last) :
    ∃ y, (x, y) ∈ steps (l ++ [last]) ∧ y ∈ l ++ [last] := by
  have hmem : x ∈ (steps (l ++ [last])).map Prod.fst := by
    rw [fst_steps, dropLast_concat]
    rcases mem_append.mp hx with h | h
    · exact h
    · exact absurd (mem_singleton.mp h) hne
  obtain ⟨⟨x', y⟩, hstep, rfl⟩ := mem_map.mp hmem
  have hy : y ∈ (steps (l ++ [last])).map Prod.snd := mem_map.mpr ⟨_, hstep, rfl⟩
  rw [snd_steps] at hy
  exact ⟨y, hstep, mem_of_mem_tail hy⟩

/-! ## Following the edges -/

variable [DecidableEq κ]

/-- The vertex after a vertex. -/
def next? (edges : List (κ × κ)) (x : κ) : Option κ := (edges.find? (·.1 = x)).map Prod.snd

/-- From the vertex, the edges come to an end. -/
inductive Ends (edges : List (κ × κ)) : κ → Prop
  | stop {x : κ} : next? edges x = none → Ends edges x
  | step {x y : κ} : next? edges x = some y → Ends edges y → Ends edges x

theorem next?_cons (e : κ × κ) (edges : List (κ × κ)) (x : κ) :
    next? (e :: edges) x = if e.1 = x then some e.2 else next? edges x := by
  unfold next?
  rw [find?_cons]
  by_cases h : e.1 = x
  · simp [h]
  · simp [h]

theorem next?_eq_none (h : x ∉ edges.map Prod.fst) : next? edges x = none := by
  unfold next?
  rw [map_eq_none_iff, find?_eq_none]
  intro e he heq
  exact h (mem_map.mpr ⟨e, he, of_decide_eq_true heq⟩)

theorem mem_of_next? (h : next? edges x = some y) : (x, y) ∈ edges := by
  obtain ⟨e, he, rfl⟩ := map_eq_some_iff.mp h
  have hx : decide (e.1 = x) = true := find?_some (p := fun e : κ × κ => decide (e.1 = x)) he
  obtain rfl := of_decide_eq_true hx
  exact mem_of_find?_eq_some he

theorem next?_of_mem (hnd : (edges.map Prod.fst).Nodup)
    (h : (x, y) ∈ edges) : next? edges x = some y := by
  induction edges with
  | nil => cases h
  | cons e edges ih =>
    rw [map_cons, nodup_cons] at hnd
    rw [next?_cons]
    rcases mem_cons.mp h with rfl | hmem
    · exact if_pos rfl
    · rw [if_neg ?_]
      · exact ih hnd.2 hmem
      · rintro rfl
        exact hnd.1 (mem_map.mpr ⟨_, hmem, rfl⟩)

theorem not_ends_of_closed {P : κ → Prop}
    (hP : ∀ x, P x → ∃ y, next? edges x = some y ∧ P y) (hx : P x) : ¬ Ends edges x := by
  intro h
  induction h with
  | stop hnone =>
    obtain ⟨y, hy, -⟩ := hP _ hx
    rw [hnone] at hy
    cases hy
  | step hsome _ ih =>
    obtain ⟨y, hy, hPy⟩ := hP _ hx
    rw [hsome] at hy
    cases hy
    exact ih hPy

theorem Ends.of_cons {e : κ × κ} (hnew : e.1 ∉ edges.map Prod.fst)
    (h : Ends (e :: edges) x) : Ends edges x := by
  induction h with
  | @stop x hnone =>
    rw [next?_cons] at hnone
    split at hnone
    · cases hnone
    · exact .stop hnone
  | @step x y hsome _ ih =>
    rw [next?_cons] at hsome
    split at hsome
    · rename_i hx
      exact .stop (next?_eq_none (hx ▸ hnew))
    · exact .step hsome ih

/-- No vertex is left twice or entered twice, and every vertex ends. -/
structure Chained (edges : List (κ × κ)) : Prop where
  sources : (edges.map Prod.fst).Nodup
  targets : (edges.map Prod.snd).Nodup
  ends : ∀ x, Ends edges x

theorem Chained.of_cons {e : κ × κ} (h : Chained (e :: edges)) : Chained edges := by
  have hs := h.sources
  have ht := h.targets
  rw [map_cons, nodup_cons] at hs ht
  exact ⟨hs.2, ht.2, fun x => (h.ends x).of_cons hs.1⟩

theorem Ends.of_subset (hsub : edges' ⊆ edges)
    (hsources : (edges.map Prod.fst).Nodup) (h : Ends edges x) : Ends edges' x := by
  have hnext : ∀ {x y}, next? edges' x = some y → next? edges x = some y := fun h =>
    next?_of_mem hsources (hsub (mem_of_next? h))
  induction h with
  | @stop x hnone =>
    cases h' : next? edges' x with
    | none => exact .stop h'
    | some y => exact absurd (hnext h') (hnone ▸ nofun)
  | @step x y hsome _ ih =>
    cases h' : next? edges' x with
    | none => exact .stop h'
    | some z =>
      obtain rfl := some.inj ((hnext h').symm.trans hsome)
      exact .step h' ih

theorem Chained.sublist (h : Chained edges) (hsub : edges'.Sublist edges) : Chained edges' :=
  ⟨h.sources.sublist (hsub.map _), h.targets.sublist (hsub.map _),
    fun x => (h.ends x).of_subset hsub.subset h.sources⟩

theorem Chained.perm (h : Chained edges) (hperm : edges.Perm edges') : Chained edges' :=
  ⟨(hperm.map _).nodup_iff.mp h.sources, (hperm.map _).nodup_iff.mp h.targets,
    fun x => (h.ends x).of_subset hperm.symm.subset h.sources⟩

/-! ## Paths end -/

theorem DisjointPaths.chained (h : DisjointPaths edges) : Chained edges := by
  obtain ⟨paths, -, hnd, hperm⟩ := h
  refine ⟨?_, ?_, ?_⟩
  · rw [(hperm.map Prod.fst).nodup_iff, map_flatMap]
    have hmap : paths.flatMap (fun p => (steps p).map Prod.fst) = (paths.map List.dropLast).flatten := by
      rw [flatMap_def]
      congr 1
      exact map_congr_left fun p _ => fst_steps p
    rw [hmap]
    exact hnd.sublist (sublist_flatten (fun p => dropLast_sublist p) paths)
  · rw [(hperm.map Prod.snd).nodup_iff, map_flatMap]
    have hmap : paths.flatMap (fun p => (steps p).map Prod.snd) = (paths.map List.tail).flatten := by
      rw [flatMap_def]
      congr 1
      exact map_congr_left fun p _ => snd_steps p
    rw [hmap]
    exact hnd.sublist (sublist_flatten (fun p => tail_sublist p) paths)
  · -- an edge joins neighbours of the list of all vertices, so following it shortens what is left
    have hadjacent : ∀ x y, (x, y) ∈ edges → ∃ a b, paths.flatten = a ++ x :: y :: b := by
      intro x y hxy
      obtain ⟨p, hp, hstep⟩ := mem_flatMap.mp (hperm.mem_iff.mp hxy)
      obtain ⟨a, b, rfl⟩ := exists_of_mem_steps hstep
      obtain ⟨before, after, rfl⟩ := append_of_mem hp
      exact ⟨before.flatten ++ a, b ++ after.flatten, by simp⟩
    have hrest : ∀ (a b : List κ) x y, paths.flatten = a ++ x :: b → next? edges x = some y →
        ∃ b', b = y :: b' := by
      intro a b x y hsplit hnext
      obtain ⟨a', b', hsplit'⟩ := hadjacent x y (mem_of_next? hnext)
      have hx : x ∉ a' ∧ x ∉ y :: b' := by
        rw [hsplit', nodup_middle, nodup_cons, mem_append, not_or] at hnd
        exact hnd.1
      obtain ⟨-, -, hb⟩ :=
        (append_cons_inj_of_notMem hx.1 hx.2).mp (hsplit'.symm.trans hsplit)
      exact ⟨b', hb.symm⟩
    have hsuffix : ∀ (b a : List κ) x, paths.flatten = a ++ x :: b → Ends edges x := by
      intro b
      induction b with
      | nil =>
        intro a x hsplit
        cases hnext : next? edges x with
        | none => exact .stop hnext
        | some y =>
          obtain ⟨b', hb⟩ := hrest a [] x y hsplit hnext
          cases hb
      | cons z b ih =>
        intro a x hsplit
        cases hnext : next? edges x with
        | none => exact .stop hnext
        | some y =>
          obtain ⟨b', hb⟩ := hrest a (z :: b) x y hsplit hnext
          cases hb
          exact .step hnext (ih (a ++ [x]) z (by rw [hsplit]; simp))
    intro x
    cases hnext : next? edges x with
    | none => exact .stop hnext
    | some y =>
      obtain ⟨a, b, hsplit⟩ := hadjacent x y (mem_of_next? hnext)
      exact hsuffix (y :: b) a x hsplit

/-! ## Ends make paths -/

theorem exists_paths {vertices : List κ} (hv : vertices.Nodup)
    (hin : ∀ e ∈ edges, e.1 ∈ vertices ∧ e.2 ∈ vertices) (h : Chained edges) :
    ∃ paths : List (List κ), paths.flatten.Nodup ∧ (∀ x, x ∈ paths.flatten ↔ x ∈ vertices) ∧
      edges.Perm (paths.flatMap steps) := by
  induction edges with
  | nil =>
    refine ⟨vertices.map fun x => [x], ?_, ?_, ?_⟩
    · rw [← flatMap_def, flatMap_singleton']
      exact hv
    · intro x
      rw [← flatMap_def, flatMap_singleton']
    · have hnil : (vertices.map fun x => [x]).flatMap steps = [] := by
        rw [flatMap_map]
        exact flatMap_eq_nil_iff.mpr fun x _ => rfl
      rw [hnil]
  | cons e edges ih =>
    obtain ⟨c, p⟩ := e
    obtain ⟨paths, hnd, hall, hperm⟩ := ih (fun e he => hin e (mem_cons_of_mem _ he)) h.of_cons
    have hs := h.sources
    have ht := h.targets
    rw [map_cons, nodup_cons] at hs ht
    obtain ⟨hcv, hpv⟩ := hin _ mem_cons_self
    obtain ⟨P, hP, hcP⟩ := mem_flatten.mp ((hall c).mpr hcv)
    obtain ⟨R, hR, hpR⟩ := mem_flatten.mp ((hall p).mpr hpv)
    have hin_edges : ∀ q ∈ paths, ∀ e ∈ steps q, e ∈ edges := fun q hq e he =>
      hperm.mem_iff.mpr (mem_flatMap.mpr ⟨q, hq, he⟩)
    obtain ⟨l, rfl⟩ := eq_concat_of_not_left hcP fun hc => by
      obtain ⟨e, he, hec⟩ := mem_map.mp hc
      exact hs.1 (mem_map.mpr ⟨e, hin_edges _ hP e he, hec⟩)
    obtain ⟨r, rfl⟩ := eq_cons_of_not_entered hpR fun hp => by
      obtain ⟨e, he, hep⟩ := mem_map.mp hp
      exact ht.1 (mem_map.mpr ⟨e, hin_edges _ hR e he, hep⟩)
    -- if both were on one path, the new edge would close it
    have hdifferent : l ++ [c] ≠ p :: r := by
      intro hsame
      have hclosed : ∀ x, x ∈ l ++ [c] →
          ∃ y, next? ((c, p) :: edges) x = some y ∧ y ∈ l ++ [c] := by
        intro x hx
        by_cases hxc : x = c
        · subst hxc
          refine ⟨p, ?_, hsame ▸ mem_cons_self⟩
          rw [next?_cons, if_pos rfl]
        · obtain ⟨y, hstep, hy⟩ := exists_step_of_mem hx hxc
          refine ⟨y, ?_, hy⟩
          rw [next?_cons, if_neg (Ne.symm hxc)]
          exact next?_of_mem hs.2 (hin_edges _ hP _ hstep)
      exact not_ends_of_closed (P := (· ∈ l ++ [c])) hclosed (by simp) (h.ends c)
    obtain ⟨rest, hrest⟩ : ∃ rest, paths.Perm ((l ++ [c]) :: (p :: r) :: rest) := by
      have hmem : p :: r ∈ paths.erase (l ++ [c]) :=
        (mem_erase_of_ne (Ne.symm hdifferent)).mpr hR
      exact ⟨_, (perm_cons_erase hP).trans ((perm_cons_erase hmem).cons _)⟩
    have hflat : ((l ++ c :: p :: r) :: rest).flatten = ((l ++ [c]) :: (p :: r) :: rest).flatten := by
      simp
    refine ⟨(l ++ c :: p :: r) :: rest, ?_, ?_, ?_⟩
    · rw [hflat, ← hrest.flatten.nodup_iff]
      exact hnd
    · intro x
      rw [hflat, ← hrest.flatten.mem_iff]
      exact hall x
    · have hjoin : ((l ++ c :: p :: r) :: rest).flatMap steps =
          steps (l ++ [c]) ++ (c, p) :: (steps (p :: r) ++ rest.flatMap steps) := by
        rw [flatMap_cons, steps_join, append_assoc, cons_append]
      rw [hjoin]
      refine List.Perm.trans ?_ perm_middle.symm
      refine List.Perm.cons _ (hperm.trans ((hrest.flatMap_right steps).trans ?_))
      rw [flatMap_cons, flatMap_cons]

/-- **Disjoint simple paths** are the edges that leave no vertex twice, enter none twice and end. -/
theorem disjointPaths_iff : DisjointPaths edges ↔ Chained edges := by
  constructor
  · exact DisjointPaths.chained
  · intro h
    have hin : ∀ e ∈ edges, e.1 ∈ (edges.map Prod.fst ++ edges.map Prod.snd).dedup ∧
        e.2 ∈ (edges.map Prod.fst ++ edges.map Prod.snd).dedup := by
      intro e he
      rw [mem_dedup, mem_dedup, mem_append, mem_append]
      exact ⟨.inl (mem_map_of_mem he), .inr (mem_map_of_mem he)⟩
    obtain ⟨paths, hnd, -, hperm⟩ := exists_paths (nodup_dedup _) hin h
    refine ⟨paths.filter fun p => decide (2 ≤ p.length), ?_, ?_, ?_⟩
    · intro p hp
      exact of_decide_eq_true (mem_filter.mp hp).2
    · exact hnd.sublist (List.Sublist.flatten filter_sublist)
    · refine hperm.trans (List.Perm.of_eq ?_)
      clear hnd hperm
      induction paths with
      | nil => rfl
      | cons p paths ih =>
        rw [filter_cons, flatMap_cons, ih]
        split
        · rw [flatMap_cons]
        · rename_i hshort
          have hnone : steps p = [] := by
            match p, hshort with
            | [], _ => rfl
            | [_], _ => rfl
            | _ :: _ :: _, hshort => simp at hshort
          rw [hnone, nil_append]

end BalanceFrame.Library
