import BalanceFrame.Liquidity.FlowGraph

/-!
# The search finds shortest residual paths

`search` runs the library's Bellman–Ford over the positions of the graph: `labels` reads the
program's distance and predecessor vectors as the library's labels, and `Runs st L st'` says that
the program went from `st` to `st'` by relaxing the positions `L` in order. `search_spec` is the
result: the search never overflows, its labels are closed, and its predecessors form a tree.
-/

namespace BalanceFrame.Liquidity

open Library List

variable {p : Nat × Nat} {st : Labelling} {π : Nat → ℤ} {d : I64} {a : Nat × Bool}

/-- The link and direction at a position. -/
def slotOf (links : List Link) (p : Nat × Nat) : Nat × Bool :=
  ((slots links p.1)[p.2]?).getD (0, false)

/-- The residual digraph, its arcs named by their positions. -/
def positionGraph (links : List Link) (x : Nat → Int) : Digraph Nat (Nat × Nat) where
  tail p := p.1
  head p := ((networkOf links).residual x).head (slotOf links p)
  cost p := ((networkOf links).residual x).cost (slotOf links p)
  usable p := p.2 < (slots links p.1).length ∧ ((networkOf links).residual x).usable (slotOf links p)

/-- A stored distance; `i64::MAX` marks a node not reached. -/
noncomputable def label (d : I64) : WithTop ℤ := if d = I64.maxValue then ⊤ else ((d : Int) : ℤ)

/-- The labels a search state stands for. -/
noncomputable def labels (st : Labelling) : Labels Nat (Nat × Nat) where
  dist v := label (st.distance.getD v I64.maxValue)
  prev v := st.previous.getD v none

theorem label_of_lt (h : (d : Int) < 9223372036854775807) : label d = ((d : Int) : ℤ) := by
  refine if_neg fun hd => ?_
  rw [hd] at h
  exact absurd h (lt_irrefl _)

theorem label_eq_top : label d = ⊤ ↔ d = I64.maxValue := by
  unfold label
  split
  · rename_i h
    exact ⟨fun _ => h, fun _ => rfl⟩
  · rename_i h
    exact ⟨fun ht => absurd ht WithTop.coe_ne_top, fun hd => absurd hd h⟩

theorem coe_lt_label {x : ℤ} (hx : x < 9223372036854775807) :
    (x : WithTop ℤ) < label d ↔ x < (d : Int) := by
  unfold label
  split
  · rename_i h
    subst h
    exact ⟨fun _ => hx, fun _ => WithTop.coe_lt_top x⟩
  · exact WithTop.coe_lt_coe

theorem label_eq_coe {x : ℤ} (h : label d = x) : (d : Int) = x ∧ d ≠ I64.maxValue := by
  unfold label at h
  split at h
  · exact absurd h.symm WithTop.coe_ne_top
  · rename_i hd
    exact ⟨by exact_mod_cast h, hd⟩

theorem getD_set {α : Type} (l : List α) (i j : Nat) (a d : α) (hi : i < l.length) :
    (l.set i a).getD j d = if i = j then a else l.getD j d := by
  rw [getD_eq_getElem?_getD, getD_eq_getElem?_getD, getElem?_set]
  by_cases hij : i = j
  · subst hij
    simp [hi]
  · simp [hij]

/-! ## One search, in the library's terms -/

section Search

variable {n c : Nat} {links : List Link} {x : Nat → Int} {g : Graph} {source : Nat}

theorem slotOf_eq (h : (slots links p.1)[p.2]? = some a) : slotOf links p = a := by
  rw [slotOf, h]
  rfl

theorem usable_position (h : (slots links p.1)[p.2]? = some a) :
    (positionGraph links x).usable p ↔ 0 < (networkOf links).room x a := by
  have hlt := (List.getElem?_eq_some_iff.mp h).1
  obtain ⟨l, hl, -⟩ := mem_slots (mem_of_getElem? h)
  have harc : a.1 ∈ (networkOf links).arcs :=
    Finset.mem_range.mpr (List.getElem?_eq_some_iff.mp hl).1
  simp only [positionGraph, slotOf_eq h, Network.usable_iff, hlt, harc, true_and]

theorem exists_slot (h : (positionGraph links x).usable p) :
    ∃ a, (slots links p.1)[p.2]? = some a ∧ slotOf links p = a := by
  refine ⟨_, getElem?_eq_getElem h.1, ?_⟩
  exact slotOf_eq (getElem?_eq_getElem h.1)

theorem head_lt (hwf : WellFormed n c links)
    (h : (positionGraph links x).usable p) : (positionGraph links x).head p < n := by
  obtain ⟨a, ha, hslot⟩ := exists_slot h
  obtain ⟨l, hl, -⟩ := mem_slots (mem_of_getElem? ha)
  have hget : links.getD a.1 default = l := by
    rw [getD_eq_getElem?_getD, hl]
    rfl
  have hmem := mem_of_getElem? hl
  simp only [positionGraph, hslot, networkOf, Network.residual, hget]
  split
  · exact hwf.dst_lt l hmem
  · exact hwf.src_lt l hmem

theorem cost_bounds (hwf : WellFormed n c links) (h : (positionGraph links x).usable p) :
    -(c : Int) ≤ (positionGraph links x).cost p ∧ (positionGraph links x).cost p ≤ c := by
  obtain ⟨a, ha, hslot⟩ := exists_slot h
  obtain ⟨l, hl, -⟩ := mem_slots (mem_of_getElem? ha)
  have hget : links.getD a.1 default = l := by
    rw [getD_eq_getElem?_getD, hl]
    rfl
  have hc := hwf.cost l (mem_of_getElem? hl)
  simp only [positionGraph, hslot, networkOf, Network.residual, hget]
  split <;> omega

/-- What holds of every state of a search. -/
structure Searching (n c : Nat) (links : List Link) (x : Nat → Int) (source : Nat)
    (st : Labelling) : Prop where
  distances : st.distance.length = n
  previous : st.previous.length = n
  tree : Tree (positionGraph links x) source (labels st)
  low : Low (Finset.range n) c (labels st)

/-- The program relaxed the positions `L`; when it reports no change, none of them improved. -/
structure Runs (links : List Link) (x : Nat → Int) (st : Labelling) (L : List (Nat × Nat))
    (st' : Labelling) : Prop where
  labels_eq : labels st' = L.foldl (relax (positionGraph links x)) (labels st)
  distances : st'.distance.length = st.distance.length
  previous : st'.previous.length = st.previous.length
  unchanged : st'.changed = false → st.changed = false ∧
    ∀ p ∈ L, ¬ Improves (positionGraph links x) (labels st) p

theorem foldl_relax_unimproved {G : Digraph Nat (Nat × Nat)} {st : Labels Nat (Nat × Nat)} :
    ∀ {L : List (Nat × Nat)}, (∀ p ∈ L, ¬ Improves G st p) → L.foldl (relax G) st = st
  | [], _ => rfl
  | p :: L, h => by
    rw [foldl_cons, relax, if_neg (h p mem_cons_self)]
    exact foldl_relax_unimproved fun q hq => h q (mem_cons_of_mem _ hq)

theorem Runs.refl (st : Labelling) : Runs links x st [] st :=
  ⟨rfl, rfl, rfl, fun h => ⟨h, fun _ hp => absurd hp not_mem_nil⟩⟩

theorem Runs.trans {st₁ st₂ : Labelling} {L L' : List (Nat × Nat)}
    (h : Runs links x st L st₁) (h' : Runs links x st₁ L' st₂) :
    Runs links x st (L ++ L') st₂ := by
  refine ⟨?_, h'.distances.trans h.distances, h'.previous.trans h.previous, fun hc => ?_⟩
  · rw [foldl_append, ← h.labels_eq, h'.labels_eq]
  · obtain ⟨hc₁, hL'⟩ := h'.unchanged hc
    obtain ⟨hc₀, hL⟩ := h.unchanged hc₁
    have hsame : labels st₁ = labels st := by rw [h.labels_eq, foldl_relax_unimproved hL]
    refine ⟨hc₀, fun p hp => ?_⟩
    rcases mem_append.mp hp with hp | hp
    · exact hL p hp
    · rw [← hsame]
      exact hL' p hp

theorem Runs.searching (hwf : WellFormed n c links)
    (hπ : Potential (positionGraph links x) π) {st' : Labelling} {L : List (Nat × Nat)}
    (h : Runs links x st L st') (hst : Searching n c links x source st) :
    Searching n c links x source st' := by
  refine ⟨h.distances.trans hst.distances, h.previous.trans hst.previous, ?_, ?_⟩
  · rw [h.labels_eq]
    exact tree_foldl_relax hπ L hst.tree
  · rw [h.labels_eq]
    have hlow : ∀ (L : List (Nat × Nat)) (lab : Labels Nat (Nat × Nat)),
        Low (Finset.range n) c lab →
        Low (Finset.range n) c (L.foldl (relax (positionGraph links x)) lab) := by
      intro L
      induction L with
      | nil => exact fun _ hl => hl
      | cons p L ih =>
        intro lab hl
        exact ih _ (low_relax (by omega) (fun q hq => Finset.mem_range.mpr (head_lt hwf hq))
          (fun q hq => (cost_bounds hwf hq).2) hl p)
    exact hlow L _ hst.low

theorem Searching.label_bounds (hwf : WellFormed n c links) (hs : source < n)
    (h : Searching n c links x source st) {v : Nat} {d : ℤ} (hd : (labels st).dist v = d) :
    -((c : ℤ) * (n - 1)) ≤ d ∧ d ≤ c * (n - 1) := by
  have := Library.label_bounds (by omega) (Finset.mem_range.mpr hs)
    (fun p hp => Finset.mem_range.mpr (head_lt hwf hp)) (fun p hp => (cost_bounds hwf hp).1)
    h.tree h.low hd
  rwa [Finset.card_range] at this

/-- **Relaxing one edge**: no overflow, and exactly the library's relaxation. -/
theorem relaxEdge_spec (hwf : WellFormed n c links) (hs : source < n) (hrep : Represents n links x g)
    (hst : Searching n c links x source st) {u i : Nat}
    (ha : (slots links u)[i]? = some a)
    (hu : (labels st).dist u ≠ ⊤) :
    ∃ st', relaxEdge u st (edgeAt g u i) i = .ok st' ∧ Runs links x st [(u, i)] st' := by
  have hshow := shows_edgeAt hrep ha
  have hslot : slotOf links (u, i) = a := slotOf_eq ha
  have husable := usable_position (x := x) (p := (u, i)) ha
  have hhead : (positionGraph links x).head (u, i) = (edgeAt g u i).toNode := by
    rw [hshow.toNode]
    simp only [positionGraph, hslot]
  have hcost : (positionGraph links x).cost (u, i) = ((edgeAt g u i).cost : Int) := by
    rw [hshow.cost]
    simp only [positionGraph, hslot]
  have hstay : ∀ hno : ¬ Improves (positionGraph links x) (labels st) (u, i),
      Runs links x st [(u, i)] st := fun hno =>
    ⟨by rw [foldl_cons, foldl_nil, relax, if_neg hno], rfl, rfl, fun hc =>
      ⟨hc, fun p hp => by rw [mem_singleton.mp hp]; exact hno⟩⟩
  rw [← hshow.capacity] at husable
  unfold relaxEdge
  by_cases hcap : 0 < ((edgeAt g u i).capacity : Int)
  swap
  · rw [if_neg hcap]
    exact ⟨st, rfl, hstay fun himp => hcap (husable.mp himp.1)⟩
  have hus := husable.mpr hcap
  obtain ⟨d, hd⟩ := exists_int_of_ne_top hu
  have hb := hst.label_bounds hwf hs hd
  have hsmall : (c : ℤ) * (n - 1) + c < 9223372036854775807 := by
    rw [mul_sub, mul_one, sub_add_cancel, mul_comm]
    exact_mod_cast hwf.small
  have hcb := cost_bounds hwf hus
  rw [hcost] at hcb
  obtain ⟨hdu, -⟩ := label_eq_coe hd
  obtain ⟨c, hc, hcv⟩ := exists_add_ok (a := st.distance.getD u I64.maxValue)
    (b := (edgeAt g u i).cost) (by unfold InI64; omega)
  have hcsmall : (c : Int) < 9223372036854775807 := by omega
  have hsum : (labels st).dist u + ((positionGraph links x).cost (u, i) : WithTop ℤ) =
      ((c : Int) : ℤ) := by
    rw [hd, hcost, ← WithTop.coe_add, hcv, hdu]
  have himp : Improves (positionGraph links x) (labels st) (u, i) ↔
      (c : Int) < st.distance.getD (edgeAt g u i).toNode I64.maxValue := by
    have htail : (positionGraph links x).tail (u, i) = u := rfl
    rw [Improves, htail, hsum, hhead, ← coe_lt_label hcsmall]
    exact ⟨fun h => h.2, fun h => ⟨hus, h⟩⟩
  rw [if_pos hcap, hc, ok_bind]
  by_cases hlt : (c : Int) < st.distance.getD (edgeAt g u i).toNode I64.maxValue
  · rw [if_pos hlt]
    refine ⟨_, rfl, ?_, by simp, by simp, fun h => absurd h (by simp)⟩
    have hto : (edgeAt g u i).toNode < n := hhead ▸ head_lt hwf hus
    rw [foldl_cons, foldl_nil, relax, if_pos (himp.mpr hlt), improve]
    unfold labels
    congr 1
    · funext v
      rw [getD_set _ _ _ _ _ (by rw [hst.distances]; exact hto), Function.update_apply, hhead]
      by_cases hv : (edgeAt g u i).toNode = v
      · rw [if_pos hv, if_pos hv.symm, label_of_lt hcsmall]
        exact hsum.symm
      · rw [if_neg hv, if_neg (Ne.symm hv)]
    · funext v
      rw [getD_set _ _ _ _ _ (by rw [hst.previous]; exact hto), Function.update_apply, hhead]
      by_cases hv : (edgeAt g u i).toNode = v
      · rw [if_pos hv, if_pos hv.symm]
      · rw [if_neg hv, if_neg (Ne.symm hv)]
  · rw [if_neg hlt]
    exact ⟨st, rfl, hstay fun h => hlt (himp.mp h)⟩

theorem foldlM_runs {β : Type} {f : Labelling → β → Checked Labelling}
    (position : β → List (Nat × Nat)) {P : Labelling → Prop}
    (hP : ∀ {st st' L}, Runs links x st L st' → P st → P st') :
    ∀ {l : List β}, (∀ b ∈ l, ∀ st, P st → ∃ st', f st b = .ok st' ∧
        Runs links x st (position b) st') →
      ∀ {st : Labelling}, P st → ∃ st', l.foldlM f st = .ok st' ∧
        Runs links x st (l.flatMap position) st'
  | [], _, st, _ => ⟨st, rfl, Runs.refl st⟩
  | b :: l, h, st, hst => by
    obtain ⟨st₁, h₁, hr₁⟩ := h b mem_cons_self st hst
    obtain ⟨st₂, h₂, hr₂⟩ := foldlM_runs position hP (fun b' hb' => h b' (mem_cons_of_mem _ hb'))
      (hP hr₁ hst)
    exact ⟨st₂, by rw [foldlM_cons, h₁, ok_bind, h₂], hr₁.trans hr₂⟩

/-- The positions of one node, in order. -/
def positionsAt (e : List Edge × Nat) : List (Nat × Nat) := e.1.zipIdx.map fun p => (e.2, p.2)

theorem relaxNode_spec (hwf : WellFormed n c links) (hs : source < n) (hrep : Represents n links x g)
    (hπ : Potential (positionGraph links x) π)
    (hst : Searching n c links x source st) (u : Nat) :
    ∃ st', relaxNode st (g.getD u []) u = .ok st' ∧
      Runs links x st (positionsAt (g.getD u [], u)) st' := by
  unfold relaxNode
  split
  · -- an unreached node improves nothing
    rename_i hmax
    have hno : ∀ p ∈ positionsAt (g.getD u [], u),
        ¬ Improves (positionGraph links x) (labels st) p := by
      intro p hp himp
      obtain ⟨e, -, rfl⟩ := mem_map.mp hp
      have htop : (labels st).dist u = ⊤ := label_eq_top.mpr hmax
      have hlt := himp.2
      rw [show (positionGraph links x).tail (u, e.2) = u from rfl, htop, WithTop.top_add] at hlt
      exact absurd hlt not_top_lt
    exact ⟨st, rfl, by rw [foldl_relax_unimproved hno], rfl, rfl, fun hc => ⟨hc, hno⟩⟩
  · rename_i hmax
    have hreach : (labels st).dist u ≠ ⊤ := fun htop => hmax (label_eq_top.mp htop)
    obtain ⟨st', h, hr⟩ := foldlM_runs (fun e => [(u, e.2)])
      (P := fun st => Searching n c links x source st ∧ (labels st).dist u ≠ ⊤)
      (f := fun st e => relaxEdge u st e.1 e.2) (l := (g.getD u []).zipIdx)
      (fun {st st' L} hrun h => by
        refine ⟨hrun.searching hwf hπ h.1, fun htop => h.2 ?_⟩
        have := foldl_relax_dist_le (positionGraph links x) L (labels st) u
        rw [← hrun.labels_eq, htop] at this
        exact top_le_iff.mp this)
      (fun e he st h => by
        obtain ⟨e, i⟩ := e
        have hget : (g.getD u [])[i]? = some e := mem_zipIdx_iff_getElem?.mp he
        have hedge : edgeAt g u i = e := by
          rw [edgeAt, getD_eq_getElem?_getD, hget]
          rfl
        have hlt : i < (slots links u).length := by
          rw [← length_slots hrep]
          exact (List.getElem?_eq_some_iff.mp hget).1
        have := relaxEdge_spec hwf hs hrep h.1 (getElem?_eq_getElem hlt) h.2
        rwa [hedge] at this)
      ⟨hst, hreach⟩
    refine ⟨st', h, ?_⟩
    rw [positionsAt, map_eq_flatMap]
    exact hr

theorem mem_round (hwf : WellFormed n c links) (hrep : Represents n links x g)
    (hp : (positionGraph links x).usable p) : p ∈ g.zipIdx.flatMap positionsAt := by
  obtain ⟨u, i⟩ := p
  obtain ⟨a, ha, -⟩ := exists_slot hp
  obtain ⟨l, hl, hu⟩ := mem_slots (mem_of_getElem? ha)
  have hmem := mem_of_getElem? hl
  have hlt : u < g.length := by
    rw [hrep.nodes, show u = _ from hu]
    split
    · exact hwf.src_lt l hmem
    · exact hwf.dst_lt l hmem
  have hi : i < (g.getD u []).length := by
    rw [length_slots hrep]
    exact hp.1
  refine mem_flatMap.mpr ⟨(g.getD u [], u), ?_, ?_⟩
  · rw [mem_zipIdx_iff_getElem?, getD_eq_getElem?_getD, getElem?_eq_getElem hlt]
    rfl
  · refine mem_map.mpr ⟨((g.getD u []).get ⟨i, hi⟩, i), ?_, rfl⟩
    rw [mem_zipIdx_iff_getElem?, getElem?_eq_getElem hi]
    rfl

theorem relaxRound_spec (hwf : WellFormed n c links) (hs : source < n) (hrep : Represents n links x g)
    (hπ : Potential (positionGraph links x) π)
    (hst : Searching n c links x source st) :
    ∃ st', relaxRound g st = .ok st' ∧ Searching n c links x source st' ∧
      labels st' = (g.zipIdx.flatMap positionsAt).foldl (relax (positionGraph links x)) (labels st) ∧
      (st'.changed = false → Closed (positionGraph links x) (labels st')) := by
  have hreset : Searching n c links x source { st with changed := false } :=
    ⟨hst.distances, hst.previous, hst.tree, hst.low⟩
  obtain ⟨st', h, hr⟩ := foldlM_runs positionsAt (P := Searching n c links x source)
    (f := fun st e => relaxNode st e.1 e.2) (l := g.zipIdx)
    (fun hrun h => hrun.searching hwf hπ h)
    (fun e he st h => by
      obtain ⟨edges, u⟩ := e
      have hget : g[u]? = some edges := mem_zipIdx_iff_getElem?.mp he
      have hedges : g.getD u [] = edges := by
        rw [getD_eq_getElem?_getD, hget]
        rfl
      have := relaxNode_spec hwf hs hrep hπ h u
      rwa [hedges] at this)
    hreset
  refine ⟨st', h, hr.searching hwf hπ hreset, hr.labels_eq, fun hc => ?_⟩
  obtain ⟨-, hno⟩ := hr.unchanged hc
  rw [hr.labels_eq, foldl_relax_unimproved hno]
  exact closed_of_unimproved _ (fun p hp => mem_round hwf hrep hp) hno

theorem relaxRounds_spec (hwf : WellFormed n c links) (hs : source < n) (hrep : Represents n links x g)
    (hπ : Potential (positionGraph links x) π) :
    ∀ (k : Nat) {m : Nat} {st : Labelling}, Searching n c links x source st →
      Bound (positionGraph links x) source m (labels st) →
      ∃ st', relaxRounds g k st = .ok st' ∧ Searching n c links x source st' ∧
        (Closed (positionGraph links x) (labels st') ∨
          Bound (positionGraph links x) source (m + k) (labels st'))
  | 0, _, st, hst, hb => ⟨st, rfl, hst, Or.inr hb⟩
  | k + 1, m, st, hst, hb => by
    obtain ⟨st₁, h₁, hst₁, hlab, hclosed⟩ := relaxRound_spec hwf hs hrep hπ hst
    rw [relaxRounds, h₁, ok_bind]
    by_cases hc : st₁.changed
    · have hb₁ : Bound (positionGraph links x) source (m + 1) (labels st₁) := by
        rw [hlab]
        exact bound_succ (fun p hp => mem_round hwf hrep hp) hb
      obtain ⟨st', h, hst', hor⟩ := relaxRounds_spec hwf hs hrep hπ k hst₁ hb₁
      refine ⟨st', by rw [if_pos hc, h], hst', ?_⟩
      rwa [show m + (k + 1) = m + 1 + k by omega]
    · rw [if_neg hc]
      exact ⟨st₁, rfl, hst₁, Or.inl (hclosed (by simpa using hc))⟩

theorem labels_start (hs : source < n) :
    labels { distance := (List.replicate n I64.maxValue).set source 0
             previous := List.replicate n none
             changed := false } = initial source := by
  unfold labels initial
  congr 1
  · funext v
    rw [getD_set _ _ _ _ _ (by rw [length_replicate]; exact hs)]
    by_cases hv : source = v
    · rw [if_pos hv, if_pos hv.symm, label_of_lt (by simp)]
      rfl
    · rw [if_neg hv, if_neg (Ne.symm hv), getD_eq_getElem?_getD, getElem?_replicate]
      split <;> exact label_eq_top.mpr rfl
  · funext v
    rw [getD_eq_getElem?_getD, getElem?_replicate]
    split <;> rfl

/-- **The search succeeds, with closed labels and a predecessor tree.** -/
theorem search_spec (hwf : WellFormed n c links) (hs : source < n) (hrep : Represents n links x g)
    (hπ : Potential (positionGraph links x) π) :
    ∃ st, search g source = .ok st ∧ Searching n c links x source st ∧
      Closed (positionGraph links x) (labels st) := by
  have hstart : Searching n c links x source
      { distance := (List.replicate n I64.maxValue).set source 0
        previous := List.replicate n none
        changed := false } := by
    refine ⟨by simp, by simp, ?_, ?_⟩
    · rw [labels_start hs]
      exact tree_initial
    · rw [labels_start hs]
      exact low_initial (Finset.mem_range.mpr hs)
  obtain ⟨st, h, hst, hor⟩ := relaxRounds_spec hwf hs hrep hπ (n - 1) (m := 0) hstart
    (by rw [labels_start hs]; exact bound_initial)
  refine ⟨st, by rw [search, hrep.nodes, h], hst, ?_⟩
  rcases hor with hc | hb
  · exact hc
  · refine closed_of_bound hπ hst.tree (Finset.mem_range.mpr hs)
      (fun p hp => Finset.mem_range.mpr (head_lt hwf hp)) ?_
    rwa [Finset.card_range, ← Nat.zero_add (n - 1)]

end Search

end BalanceFrame.Liquidity
