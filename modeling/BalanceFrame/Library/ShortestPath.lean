import Mathlib.Algebra.Order.Monoid.WithTop
import Mathlib.Data.Int.ConditionallyCompleteOrder
import Mathlib.Data.Int.LeastGreatest
import Mathlib.Algebra.Order.Ring.Int
import Mathlib.Algebra.BigOperators.Group.List.Basic
import Mathlib.Data.Finset.Card
import Mathlib.Data.Finset.Max
import Mathlib.Data.Finset.Image
import Mathlib.Tactic.Linarith

/-!
# Shortest paths by relaxation

Bellman–Ford over a weighted digraph in which only some arcs are usable. A label state holds the
tentative distance of every node (`⊤` for a node not reached yet) and the arc that last improved
it. `relax` tries one arc; a round tries a list of arcs in order.

The graph may have negative costs but no negative cycle, which is stated by a potential:
`Potential G π` says no usable arc has negative reduced cost. Under a potential:

* `Tree`: the recorded arcs form a tree rooted at the source. `tree_relax` keeps it, in any
  relaxation order. The reason is that the reduced distance `dist v - π v` never grows towards the
  root, while an improvement strictly lowers it at the improved node, so an improving arc never
  leaves the improved node's own subtree.
* `Chain`: the recorded path back to the source. It visits no node twice (`chain_nodup`), so it is
  shorter than the number of nodes, and it weighs at most the label (`chain_cost_le`).
* `closed_of_bound`: once every walk of fewer than `n` arcs is accounted for, no usable arc
  improves any label, so `n - 1` rounds are enough.
* `exists_potential_of_closed`: closed labels are again a potential, and the recorded arcs are
  tight for it. That is what lets an augmenting step keep the absence of negative cycles.
-/

namespace BalanceFrame.Library

/-- A digraph with arc identities; only usable arcs may be walked. -/
structure Digraph (V A : Type) where
  tail : A → V
  head : A → V
  cost : A → ℤ
  usable : A → Prop

/-- Tentative distances and the arc that set each of them. -/
structure Labels (V A : Type) where
  dist : V → WithTop ℤ
  prev : V → Option A

variable {V A : Type} (G : Digraph V A) (s : V)

/-- No usable arc has negative reduced cost under `π`. -/
def Potential (π : V → ℤ) : Prop := ∀ a, G.usable a → π (G.head a) ≤ π (G.tail a) + G.cost a

/-- Arc `a` improves the label of its head. -/
def Improves (st : Labels V A) (a : A) : Prop :=
  G.usable a ∧ st.dist (G.tail a) + (G.cost a : WithTop ℤ) < st.dist (G.head a)

/-- The labels after `a` improved its head. -/
def improve [DecidableEq V] (st : Labels V A) (a : A) : Labels V A :=
  { dist := Function.update st.dist (G.head a) (st.dist (G.tail a) + (G.cost a : WithTop ℤ))
    prev := Function.update st.prev (G.head a) (some a) }

open Classical in
/-- Try arc `a`. -/
noncomputable def relax [DecidableEq V] (st : Labels V A) (a : A) : Labels V A :=
  if Improves G st a then improve G st a else st

/-- The labels before the first round: the source at distance zero. -/
def initial [DecidableEq V] : Labels V A :=
  { dist := fun v => if v = s then 0 else ⊤
    prev := fun _ => none }

/-! ## Rounds only lower labels -/

theorem relax_dist_le [DecidableEq V] (st : Labels V A) (a : A) (v : V) : (relax G st a).dist v ≤ st.dist v := by
  unfold relax
  split
  · rename_i h
    by_cases hv : v = G.head a
    · subst hv
      simp only [improve, Function.update_self]
      exact le_of_lt h.2
    · simp only [improve, Function.update_of_ne hv]
      exact le_rfl
  · exact le_rfl

theorem foldl_relax_dist_le [DecidableEq V] :
    ∀ (L : List A) (st : Labels V A) (v : V), (L.foldl (relax G) st).dist v ≤ st.dist v
  | [], _, _ => le_rfl
  | a :: L, st, v => (foldl_relax_dist_le L (relax G st a) v).trans (relax_dist_le G st a v)

variable {a : A} {st : Labels V A} {v : V} {q : List A} {N : Finset V} {C : ℤ}

theorem relax_dist_head [DecidableEq V] (st : Labels V A) (ha : G.usable a) :
    (relax G st a).dist (G.head a) ≤ st.dist (G.tail a) + (G.cost a : WithTop ℤ) := by
  unfold relax
  split
  · simp only [improve, Function.update_self]
    exact le_rfl
  · rename_i h
    exact not_lt.mp fun hlt => h ⟨ha, hlt⟩

theorem foldl_relax_dist_head [DecidableEq V] (ha : G.usable a) :
    ∀ (L : List A) (st : Labels V A), a ∈ L →
      (L.foldl (relax G) st).dist (G.head a) ≤ st.dist (G.tail a) + (G.cost a : WithTop ℤ)
  | [], _, hmem => absurd hmem List.not_mem_nil
  | b :: L, st, hmem => by
    rw [List.foldl_cons]
    rcases List.mem_cons.mp hmem with rfl | hmem
    · exact (foldl_relax_dist_le G L _ _).trans (relax_dist_head G st ha)
    · exact (foldl_relax_dist_head ha L _ hmem).trans
        (by gcongr; exact relax_dist_le G st b (G.tail a))

/-- Labels no usable arc improves. -/
def Closed (st : Labels V A) : Prop :=
  ∀ a, G.usable a → st.dist (G.head a) ≤ st.dist (G.tail a) + (G.cost a : WithTop ℤ)

theorem closed_of_unimproved {L : List A} (hL : ∀ a, G.usable a → a ∈ L)
    (h : ∀ a ∈ L, ¬ Improves G st a) : Closed G st := fun a ha =>
  not_lt.mp fun hlt => h a (hL a ha) ⟨ha, hlt⟩

/-! ## The recorded tree -/

/-- The recorded arcs from `v` back to the source. -/
inductive Chain (st : Labels V A) : V → List A → Prop
  | root : Chain st s []
  | step {v : V} {a : A} {q : List A} (hv : st.prev v = some a) (hq : Chain st (G.tail a) q) :
      Chain st v (a :: q)

/-- **The recorded arcs form a tree rooted at the source.** -/
structure Tree (st : Labels V A) : Prop where
  source : st.dist s = 0
  root : st.prev s = none
  arc : ∀ v a, st.prev v = some a → G.usable a ∧ G.head a = v ∧
    st.dist (G.tail a) + (G.cost a : WithTop ℤ) ≤ st.dist v
  labelled : ∀ v a, st.prev v = some a → st.dist v ≠ ⊤
  chain : ∀ v, st.dist v ≠ ⊤ → ∃ q, Chain G s st v q

variable {G s}

theorem tree_initial [DecidableEq V] : Tree G s (initial s : Labels V A) := by
  refine ⟨by simp [initial], rfl, fun v a h => ?_, fun v a h => ?_, fun v hv => ?_⟩
  · simp [initial] at h
  · simp [initial] at h
  · have : v = s := by
      by_contra hne
      simp [initial, hne] at hv
    subst this
    exact ⟨[], Chain.root⟩

theorem tail_ne_top (ht : Tree G s st) (h : st.prev v = some a) : st.dist (G.tail a) ≠ ⊤ := by
  intro htop
  have hle := (ht.arc v a h).2.2
  rw [htop, WithTop.top_add, top_le_iff] at hle
  exact ht.labelled v a h hle

theorem exists_int_of_ne_top {x : WithTop ℤ} (h : x ≠ ⊤) : ∃ d : ℤ, x = d :=
  ⟨x.untop h, (WithTop.coe_untop x h).symm⟩

section UnderPotential

variable {π : V → ℤ} (hπ : Potential G π)
include hπ

variable {a : A} {st : Labels V A} {v : V} {q : List A}

theorem reduced_step (ht : Tree G s st) {d : ℤ} (h : st.prev v = some a) (hd : st.dist v = d) :
    ∃ e : ℤ, st.dist (G.tail a) = e ∧ e - π (G.tail a) ≤ d - π v := by
  obtain ⟨e, he⟩ := exists_int_of_ne_top (tail_ne_top ht h)
  obtain ⟨hu, hv, hle⟩ := ht.arc v a h
  rw [he, hd, ← WithTop.coe_add, WithTop.coe_le_coe] at hle
  have := hπ a hu
  rw [hv] at this
  exact ⟨e, he, by linarith⟩

theorem chain_reduced (ht : Tree G s st)
    (hq : Chain G s st v q) : ∀ {d : ℤ}, st.dist v = d → π v - π s ≤ d := by
  induction hq with
  | root =>
    intro d hd
    rw [ht.source] at hd
    have : d = 0 := by exact_mod_cast hd.symm
    rw [this, sub_self]
  | step h _ ih =>
    intro d hd
    obtain ⟨e, he, hle⟩ := reduced_step hπ ht h hd
    have := ih he
    linarith

theorem chain_reduced_mem (ht : Tree G s st)
    (hq : Chain G s st v q) : ∀ {d : ℤ}, st.dist v = d → ∀ b ∈ q, ∀ {e : ℤ},
      st.dist (G.head b) = e → e - π (G.head b) ≤ d - π v := by
  induction hq with
  | root =>
    intro d _ b hb
    exact absurd hb List.not_mem_nil
  | step h _ ih =>
    intro d hd b hb e he
    rcases List.mem_cons.mp hb with rfl | hb
    · rw [(ht.arc _ _ h).2.1] at he ⊢
      rw [hd] at he
      have : d = e := by exact_mod_cast he
      rw [this]
    · obtain ⟨f, hf, hle⟩ := reduced_step hπ ht h hd
      exact (ih hf b hb he).trans hle

theorem improves_head_ne_source (ht : Tree G s st) (h : Improves G st a) : G.head a ≠ s := by
  intro hs
  obtain ⟨hu, hlt⟩ := h
  have htail : st.dist (G.tail a) ≠ ⊤ := fun htop => by
    rw [htop, WithTop.top_add] at hlt
    exact absurd hlt not_top_lt
  obtain ⟨d, hd⟩ := exists_int_of_ne_top htail
  obtain ⟨q, hq⟩ := ht.chain _ htail
  have hlow := chain_reduced hπ ht hq hd
  have hpot := hπ a hu
  rw [hs, ht.source, hd, ← WithTop.coe_add, ← WithTop.coe_zero, WithTop.coe_lt_coe] at hlt
  rw [hs] at hpot
  linarith

theorem chain_improve_of_lt [DecidableEq V] (ht : Tree G s st) {y : V} (hq : Chain G s st y q) :
    ∀ {d : ℤ}, st.dist y = d →
      (∀ e : ℤ, st.dist (G.head a) = e → d - π y < e - π (G.head a)) →
      Chain G s (improve G st a) y q := by
  induction hq with
  | root =>
    intro d _ _
    exact Chain.root
  | @step v b q h _ ih =>
    intro d hd hlow
    have hne : v ≠ G.head a := by
      rintro rfl
      exact lt_irrefl _ (hlow d hd)
    obtain ⟨e, he, hle⟩ := reduced_step hπ ht h hd
    refine Chain.step ?_ (ih he fun f hf => lt_of_le_of_lt hle (hlow f hf))
    simp only [improve, Function.update_of_ne hne]
    exact h

theorem tree_improve [DecidableEq V] (ht : Tree G s st) (h : Improves G st a) :
    Tree G s (improve G st a) := by
  have hs : G.head a ≠ s := improves_head_ne_source hπ ht h
  obtain ⟨hu, hlt⟩ := h
  have htail : st.dist (G.tail a) ≠ ⊤ := fun htop => by
    rw [htop, WithTop.top_add] at hlt
    exact absurd hlt not_top_lt
  obtain ⟨d, hd⟩ := exists_int_of_ne_top htail
  have hpot := hπ a hu
  -- the improved node's reduced distance stays above its new parent's
  have hbelow : ∀ e : ℤ, st.dist (G.head a) = e → d - π (G.tail a) < e - π (G.head a) := by
    intro e he
    rw [hd, he, ← WithTop.coe_add, WithTop.coe_lt_coe] at hlt
    linarith
  have hne : G.tail a ≠ G.head a := fun heq => by
    have := hbelow d (heq ▸ hd)
    rw [heq] at this
    exact lt_irrefl _ this
  obtain ⟨q, hq⟩ := ht.chain _ htail
  have hroot : Chain G s (improve G st a) (G.head a) (a :: q) := by
    refine Chain.step ?_ (chain_improve_of_lt hπ ht hq hd hbelow)
    simp only [improve, Function.update_self]
  have hdist : ∀ v, v ≠ G.head a → (improve G st a).dist v = st.dist v := fun v hv => by
    simp only [improve, Function.update_of_ne hv]
  have hprev : ∀ v, v ≠ G.head a → (improve G st a).prev v = st.prev v := fun v hv => by
    simp only [improve, Function.update_of_ne hv]
  have hnew : (improve G st a).dist (G.head a) = st.dist (G.tail a) + (G.cost a : WithTop ℤ) := by
    simp only [improve, Function.update_self]
  -- every old chain is rerouted at the improved node
  have hchain : ∀ {y : V} {q : List A}, Chain G s st y q →
      ∃ q', Chain G s (improve G st a) y q' := by
    intro y q hq
    induction hq with
    | root => exact ⟨[], Chain.root⟩
    | @step v b q hb _ ih =>
      by_cases hv : v = G.head a
      · exact ⟨_, hv ▸ hroot⟩
      · obtain ⟨q', hq'⟩ := ih
        exact ⟨b :: q', Chain.step ((hprev v hv).trans hb) hq'⟩
  refine ⟨?_, ?_, fun v b hb => ?_, fun v b hb => ?_, fun v hv => ?_⟩
  · rw [hdist s (Ne.symm hs)]
    exact ht.source
  · rw [hprev s (Ne.symm hs)]
    exact ht.root
  · by_cases hv : v = G.head a
    · subst hv
      have : b = a := by
        simp only [improve, Function.update_self, Option.some.injEq] at hb
        exact hb.symm
      subst this
      exact ⟨hu, rfl, by rw [hnew, hdist _ hne]⟩
    · rw [hprev v hv] at hb
      obtain ⟨hub, hhb, hle⟩ := ht.arc v b hb
      refine ⟨hub, hhb, ?_⟩
      rw [hdist v hv]
      by_cases hbt : G.tail b = G.head a
      · rw [hbt, hnew]
        rw [hbt] at hle
        exact (add_le_add_left (le_of_lt hlt) _).trans hle
      · rw [hdist _ hbt]
        exact hle
  · by_cases hv : v = G.head a
    · subst hv
      rw [hnew, hd, ← WithTop.coe_add]
      exact WithTop.coe_ne_top
    · rw [hprev v hv] at hb
      rw [hdist v hv]
      exact ht.labelled v b hb
  · by_cases hvh : v = G.head a
    · exact ⟨_, hvh ▸ hroot⟩
    · rw [hdist v hvh] at hv
      obtain ⟨q, hq⟩ := ht.chain v hv
      exact hchain hq

theorem tree_relax [DecidableEq V] (ht : Tree G s st) (a : A) : Tree G s (relax G st a) := by
  unfold relax
  split
  · rename_i h
    exact tree_improve hπ ht h
  · exact ht

theorem tree_foldl_relax [DecidableEq V] :
    ∀ (L : List A) {st : Labels V A}, Tree G s st → Tree G s (L.foldl (relax G) st)
  | [], _, ht => ht
  | a :: L, _, ht => tree_foldl_relax L (tree_relax hπ ht a)

end UnderPotential

/-! ## Chains are simple -/

theorem chain_unique (ht : Tree G s st)
    (hq : Chain G s st v q) : ∀ {q' : List A}, Chain G s st v q' → q = q' := by
  induction hq with
  | root =>
    intro q' hq'
    cases hq' with
    | root => rfl
    | step h _ => rw [ht.root] at h; exact absurd h (by simp)
  | step h _ ih =>
    intro q' hq'
    cases hq' with
    | root => rw [ht.root] at h; exact absurd h (by simp)
    | step h' hq' =>
      rw [h] at h'
      obtain rfl := Option.some.inj h'
      rw [ih hq']

/-- The chain of a node met along the way is what is left of the chain there. -/
theorem chain_suffix (ht : Tree G s st) (hq : Chain G s st v q) :
    ∀ b ∈ q, ∃ q', Chain G s st (G.head b) (b :: q') ∧ (b :: q') <:+ q := by
  induction hq with
  | root => exact fun b hb => absurd hb List.not_mem_nil
  | step h hq ih =>
    intro b hb
    rcases List.mem_cons.mp hb with rfl | hb
    · rw [(ht.arc _ _ h).2.1]
      exact ⟨_, Chain.step h hq, List.suffix_rfl⟩
    · obtain ⟨q', hc, hs⟩ := ih b hb
      exact ⟨q', hc, hs.trans (List.suffix_cons _ _)⟩

theorem chain_nodup (ht : Tree G s st) (hq : Chain G s st v q) : (q.map G.head).Nodup := by
  induction hq with
  | root => exact List.nodup_nil
  | @step v a q h hq ih =>
    rw [List.map_cons, List.nodup_cons]
    refine ⟨fun hmem => ?_, ih⟩
    obtain ⟨b, hb, hab⟩ := List.mem_map.mp hmem
    obtain ⟨q', hc, hs⟩ := chain_suffix ht hq b hb
    rw [hab, (ht.arc _ _ h).2.1] at hc
    have heq := chain_unique ht (Chain.step h hq) hc
    have hlen := hs.length_le
    rw [← heq, List.length_cons] at hlen
    omega

theorem chain_source_not_mem (ht : Tree G s st) (hq : Chain G s st v q) : s ∉ q.map G.head := by
  intro hmem
  obtain ⟨b, hb, hbs⟩ := List.mem_map.mp hmem
  obtain ⟨q', hc, -⟩ := chain_suffix ht hq b hb
  rw [hbs] at hc
  cases hc with
  | step h _ => rw [ht.root] at h; exact absurd h (by simp)

theorem chain_usable (ht : Tree G s st) (hq : Chain G s st v q) : ∀ b ∈ q, G.usable b := by
  induction hq with
  | root => exact fun b hb => absurd hb List.not_mem_nil
  | step h _ ih =>
    intro b hb
    rcases List.mem_cons.mp hb with rfl | hb
    · exact (ht.arc _ _ h).1
    · exact ih b hb

theorem chain_prev (ht : Tree G s st)
    (hq : Chain G s st v q) : ∀ b ∈ q, st.prev (G.head b) = some b := by
  induction hq with
  | root => exact fun b hb => absurd hb List.not_mem_nil
  | step h _ ih =>
    intro b hb
    rcases List.mem_cons.mp hb with rfl | hb
    · rw [(ht.arc _ _ h).2.1]
      exact h
    · exact ih b hb

theorem chain_cost_le (ht : Tree G s st)
    (hq : Chain G s st v q) : (((q.map G.cost).sum : ℤ) : WithTop ℤ) ≤ st.dist v := by
  induction hq with
  | root => rw [ht.source]; exact le_of_eq rfl
  | @step v a q h _ ih =>
    rw [List.map_cons, List.sum_cons, add_comm, WithTop.coe_add]
    exact (add_le_add_left ih _).trans (ht.arc _ _ h).2.2

theorem chain_length_lt [DecidableEq V] (ht : Tree G s st) (hs : s ∈ N)
    (hN : ∀ a, G.usable a → G.head a ∈ N) (hq : Chain G s st v q) :
    q.length < N.card := by
  have hnd : (s :: q.map G.head).Nodup :=
    List.nodup_cons.mpr ⟨chain_source_not_mem ht hq, chain_nodup ht hq⟩
  have hsub : (s :: q.map G.head).toFinset ⊆ N := by
    intro x hx
    rcases List.mem_cons.mp (List.mem_toFinset.mp hx) with rfl | hx
    · exact hs
    · obtain ⟨b, hb, rfl⟩ := List.mem_map.mp hx
      exact hN b (chain_usable ht hq b hb)
  have := Finset.card_le_card hsub
  rw [List.toFinset_card_of_nodup hnd, List.length_cons, List.length_map] at this
  omega

/-! ## Labels stay small -/

open Classical in
/-- How many nodes of `N` are reached. -/
noncomputable def reached (N : Finset V) (st : Labels V A) : ℕ :=
  (N.filter fun v => st.dist v ≠ ⊤).card

/-- A label is at most `C` for each reached node but one. -/
def Low (N : Finset V) (C : ℤ) (st : Labels V A) : Prop :=
  ∀ v (d : ℤ), st.dist v = d → d + C ≤ C * reached N st

theorem reached_le_card (N : Finset V) (st : Labels V A) : reached N st ≤ N.card := by
  classical
  exact Finset.card_filter_le _ _

theorem low_initial [DecidableEq V] (hs : s ∈ N) : Low N C (initial s : Labels V A) := by
  intro v d hd
  have hv : v = s := by
    by_contra hne
    simp only [initial, if_neg hne] at hd
    exact absurd hd.symm WithTop.coe_ne_top
  subst hv
  have hd0 : d = 0 := by
    simp only [initial, if_true] at hd
    exact_mod_cast hd.symm
  have hone : reached N (initial v : Labels V A) = 1 := by
    classical
    unfold reached
    rw [Finset.card_eq_one]
    refine ⟨v, Finset.ext fun w => ?_⟩
    rw [Finset.mem_filter, Finset.mem_singleton]
    constructor
    · rintro ⟨-, hw⟩
      by_contra hne
      simp [initial, hne] at hw
    · rintro rfl
      exact ⟨hs, by simp [initial]⟩
  rw [hone, hd0]
  simp

theorem low_improve [DecidableEq V] (hC : 0 ≤ C)
    (h : Low N C st) (ha : Improves G st a) (hN : G.head a ∈ N) (hc : G.cost a ≤ C) :
    Low N C (improve G st a) := by
  classical
  have htail : st.dist (G.tail a) ≠ ⊤ := fun htop => by
    have hlt := ha.2
    rw [htop, WithTop.top_add] at hlt
    exact absurd hlt not_top_lt
  obtain ⟨e, he⟩ := exists_int_of_ne_top htail
  have hnew : (improve G st a).dist (G.head a) = ((e + G.cost a : ℤ) : WithTop ℤ) := by
    simp only [improve, Function.update_self, he, WithTop.coe_add]
  have hold : ∀ v, v ≠ G.head a → (improve G st a).dist v = st.dist v := fun v hv => by
    simp only [improve, Function.update_of_ne hv]
  have hmono : ∀ v, st.dist v ≠ ⊤ → (improve G st a).dist v ≠ ⊤ := fun v hv => by
    by_cases hva : v = G.head a
    · rw [hva, hnew]
      exact WithTop.coe_ne_top
    · rw [hold v hva]
      exact hv
  have hsub : (N.filter fun v => st.dist v ≠ ⊤) ⊆
      N.filter fun v => (improve G st a).dist v ≠ ⊤ := fun v hv => by
    rw [Finset.mem_filter] at hv ⊢
    exact ⟨hv.1, hmono v hv.2⟩
  have hle : reached N st ≤ reached N (improve G st a) := Finset.card_le_card hsub
  have hle' : C * (reached N st : ℤ) ≤ C * (reached N (improve G st a) : ℤ) :=
    mul_le_mul_of_nonneg_left (by exact_mod_cast hle) hC
  intro v d hd
  by_cases hva : v = G.head a
  · subst hva
    rw [hnew, WithTop.coe_inj] at hd
    subst hd
    have hbase := h _ _ he
    by_cases htop : st.dist (G.head a) = ⊤
    · -- a node reached for the first time
      have hlt : reached N st < reached N (improve G st a) := by
        refine Finset.card_lt_card ((Finset.ssubset_iff_of_subset hsub).mpr ⟨G.head a, ?_, ?_⟩)
        · exact Finset.mem_filter.mpr ⟨hN, by rw [hnew]; exact WithTop.coe_ne_top⟩
        · exact fun hmem => (Finset.mem_filter.mp hmem).2 htop
      have hlt' : C * ((reached N st : ℤ) + 1) ≤ C * (reached N (improve G st a) : ℤ) :=
        mul_le_mul_of_nonneg_left (by exact_mod_cast hlt) hC
      rw [mul_add, mul_one] at hlt'
      linarith
    · obtain ⟨f, hf⟩ := exists_int_of_ne_top htop
      have hlt := ha.2
      rw [he, hf, ← WithTop.coe_add, WithTop.coe_lt_coe] at hlt
      have := h _ _ hf
      linarith
  · rw [hold v hva] at hd
    exact (h v d hd).trans hle'

theorem low_relax [DecidableEq V] (hC : 0 ≤ C)
    (hN : ∀ a, G.usable a → G.head a ∈ N) (hc : ∀ a, G.usable a → G.cost a ≤ C)
    (h : Low N C st) (a : A) : Low N C (relax G st a) := by
  unfold relax
  split
  · rename_i ha
    exact low_improve hC h ha (hN a ha.1) (hc a ha.1)
  · exact h

theorem le_sum_cost {l : List A} (h : ∀ b ∈ l, - C ≤ G.cost b) :
    - (C * l.length) ≤ (l.map G.cost).sum := by
  induction l with
  | nil => simp
  | cons b l ih =>
    have h1 := h b List.mem_cons_self
    have h2 := ih fun x hx => h x (List.mem_cons_of_mem _ hx)
    rw [List.map_cons, List.sum_cons, List.length_cons, Nat.cast_succ, mul_add, mul_one]
    linarith

/-- **Every label lies within `C` times the number of nodes.** -/
theorem label_bounds [DecidableEq V] (hC : 0 ≤ C) (hs : s ∈ N)
    (hN : ∀ a, G.usable a → G.head a ∈ N) (hc : ∀ a, G.usable a → - C ≤ G.cost a)
    (ht : Tree G s st) (hl : Low N C st) {d : ℤ} (hd : st.dist v = d) :
    - (C * (N.card - 1)) ≤ d ∧ d ≤ C * (N.card - 1) := by
  constructor
  · obtain ⟨q, hq⟩ := ht.chain v (by rw [hd]; exact WithTop.coe_ne_top)
    have hcost := chain_cost_le ht hq
    rw [hd, WithTop.coe_le_coe] at hcost
    have hlen := chain_length_lt ht hs hN hq
    have h1 := le_sum_cost fun b hb => hc b (chain_usable ht hq b hb)
    have h2 : C * (q.length : ℤ) ≤ C * ((N.card : ℤ) - 1) :=
      mul_le_mul_of_nonneg_left (by omega) hC
    linarith
  · have h1 := hl v d hd
    have h2 : C * (reached N st : ℤ) ≤ C * (N.card : ℤ) :=
      mul_le_mul_of_nonneg_left (by exact_mod_cast reached_le_card N st) hC
    rw [mul_sub, mul_one]
    linarith

/-! ## Enough rounds -/

variable (G s)

/-- The arcs `q`, read backwards from `v`, walk back to the source along usable arcs. -/
def IsBack : V → List A → Prop
  | v, [] => v = s
  | v, a :: q => G.usable a ∧ G.head a = v ∧ IsBack (G.tail a) q

/-- Every walk of at most `k` arcs is accounted for. -/
def Bound (k : ℕ) (st : Labels V A) : Prop :=
  ∀ v q, q.length ≤ k → IsBack G s v q → st.dist v ≤ (((q.map G.cost).sum : ℤ) : WithTop ℤ)

variable {G s}

theorem bound_initial [DecidableEq V] : Bound G s 0 (initial s) := by
  intro v q hq hb
  rw [List.length_eq_zero_iff.mp (Nat.le_zero.mp hq)] at hb ⊢
  rw [show v = s from hb]
  simp [initial]

theorem bound_succ [DecidableEq V] {k : ℕ} {L : List A} (hL : ∀ a, G.usable a → a ∈ L)
    (h : Bound G s k st) : Bound G s (k + 1) (L.foldl (relax G) st) := by
  intro v q hq hb
  cases q with
  | nil =>
    exact (foldl_relax_dist_le G L st v).trans (h v [] (Nat.zero_le _) hb)
  | cons a q =>
    obtain ⟨hu, rfl, hb⟩ := hb
    rw [List.map_cons, List.sum_cons, add_comm, WithTop.coe_add]
    have hq' : q.length ≤ k := by
      rw [List.length_cons] at hq
      omega
    exact (foldl_relax_dist_head G hu L st (hL a hu)).trans
      (add_le_add_left (h (G.tail a) q hq' hb) _)

theorem isBack_of_chain (ht : Tree G s st) (hq : Chain G s st v q) : IsBack G s v q := by
  induction hq with
  | root => exact rfl
  | step h _ ih => exact ⟨(ht.arc _ _ h).1, (ht.arc _ _ h).2.1, ih⟩

/-- **Enough rounds close the labels**: when every walk of fewer than `N.card` arcs is accounted
for, no usable arc improves a label. -/
theorem closed_of_bound [DecidableEq V] {π : V → ℤ} (hπ : Potential G π) (ht : Tree G s st)
    (hs : s ∈ N) (hN : ∀ a, G.usable a → G.head a ∈ N)
    (hb : Bound G s (N.card - 1) st) : Closed G st := by
  intro a ha
  by_cases htop : st.dist (G.tail a) = ⊤
  · rw [htop, WithTop.top_add]
    exact le_top
  obtain ⟨d, hd⟩ := exists_int_of_ne_top htop
  obtain ⟨q, hq⟩ := ht.chain _ htop
  have hpot := hπ a ha
  by_cases hhs : G.head a = s
  · -- back at the source: the potential bounds the closed walk
    have := chain_reduced hπ ht hq hd
    rw [hhs] at hpot
    rw [hhs, ht.source, hd, ← WithTop.coe_add, ← WithTop.coe_zero, WithTop.coe_le_coe]
    linarith
  by_cases hmem : G.head a ∈ q.map G.head
  · -- back at a node of the chain: the reduced distance of that node is no larger
    obtain ⟨b, hbq, hab⟩ := List.mem_map.mp hmem
    have hlab := ht.labelled _ _ (chain_prev ht hq b hbq)
    obtain ⟨e, he⟩ := exists_int_of_ne_top hlab
    have := chain_reduced_mem hπ ht hq hd b hbq he
    rw [hab] at he this
    rw [he, hd, ← WithTop.coe_add, WithTop.coe_le_coe]
    linarith
  · -- a new node: the extended walk is still short
    have hnd : (s :: G.head a :: q.map G.head).Nodup := by
      refine List.nodup_cons.mpr ⟨?_, List.nodup_cons.mpr ⟨hmem, chain_nodup ht hq⟩⟩
      rw [List.mem_cons, not_or]
      exact ⟨Ne.symm hhs, chain_source_not_mem ht hq⟩
    have hsub : (s :: G.head a :: q.map G.head).toFinset ⊆ N := by
      intro x hx
      rcases List.mem_cons.mp (List.mem_toFinset.mp hx) with rfl | hx
      · exact hs
      rcases List.mem_cons.mp hx with rfl | hx
      · exact hN a ha
      · obtain ⟨b, hbq, rfl⟩ := List.mem_map.mp hx
        exact hN b (chain_usable ht hq b hbq)
    have hcard := Finset.card_le_card hsub
    rw [List.toFinset_card_of_nodup hnd, List.length_cons, List.length_cons,
      List.length_map] at hcard
    have hlen : (a :: q).length ≤ N.card - 1 := by
      rw [List.length_cons]
      omega
    have := hb (G.head a) (a :: q) hlen ⟨ha, rfl, isBack_of_chain ht hq⟩
    rw [List.map_cons, List.sum_cons, add_comm, WithTop.coe_add] at this
    exact this.trans (add_le_add_left (chain_cost_le ht hq) _)

/-! ## Closed labels are a potential -/

/-- **Closed labels give a potential under which the recorded arcs are tight.** Nodes not reached
keep their old potential, lifted above every reached one. -/
theorem exists_potential_of_closed {π : V → ℤ} (hπ : Potential G π)
    (ht : Tree G s st) (hc : Closed G st) (arcs : Finset A)
    (harcs : ∀ a, G.usable a → a ∈ arcs) :
    ∃ π' : V → ℤ, Potential G π' ∧
      ∀ v a, st.prev v = some a → π' (G.head a) = π' (G.tail a) + G.cost a := by
  classical
  -- how far the unreached nodes must be lifted for one arc
  let need : A → ℤ := fun a => (st.dist (G.head a)).untopD 0 - π (G.tail a) - G.cost a
  obtain ⟨M, hM⟩ : ∃ M : ℤ, ∀ a ∈ arcs, need a ≤ M := by
    rcases arcs.eq_empty_or_nonempty with rfl | hne
    · exact ⟨0, fun a ha => absurd ha (Finset.notMem_empty a)⟩
    · exact ⟨arcs.sup' hne need, fun a ha => Finset.le_sup' need ha⟩
  let π' : V → ℤ := fun v => if st.dist v = ⊤ then π v + M else (st.dist v).untopD 0
  have hreached : ∀ {v : V} {d : ℤ}, st.dist v = d → π' v = d := by
    intro v d hd
    simp only [π', hd, WithTop.coe_ne_top, if_false, WithTop.untopD_coe]
  have hlifted : ∀ {v : V}, st.dist v = ⊤ → π' v = π v + M := by
    intro v hv
    simp only [π', hv, if_true]
  refine ⟨π', fun a ha => ?_, fun v a h => ?_⟩
  · by_cases htail : st.dist (G.tail a) = ⊤
    · rw [hlifted htail]
      by_cases hhead : st.dist (G.head a) = ⊤
      · rw [hlifted hhead]
        have := hπ a ha
        linarith
      · obtain ⟨d, hd⟩ := exists_int_of_ne_top hhead
        have := hM a (harcs a ha)
        simp only [need, hd, WithTop.untopD_coe] at this
        rw [hreached hd]
        linarith
    · obtain ⟨d, hd⟩ := exists_int_of_ne_top htail
      have hle := hc a ha
      rw [hd, ← WithTop.coe_add] at hle
      have hhead : st.dist (G.head a) ≠ ⊤ := fun htop => by
        rw [htop, top_le_iff] at hle
        exact WithTop.coe_ne_top hle
      obtain ⟨e, he⟩ := exists_int_of_ne_top hhead
      rw [he, WithTop.coe_le_coe] at hle
      rw [hreached hd, hreached he]
      exact hle
  · obtain ⟨hu, rfl, hle⟩ := ht.arc v a h
    obtain ⟨d, hd⟩ := exists_int_of_ne_top (tail_ne_top ht h)
    obtain ⟨e, he⟩ := exists_int_of_ne_top (ht.labelled _ a h)
    have hge := hc a hu
    rw [hd, he, ← WithTop.coe_add, WithTop.coe_le_coe] at hle hge
    rw [hreached hd, hreached he]
    exact le_antisymm hge hle

/-! ## Costs without a negative cycle -/

/-- No closed walk along usable arcs costs less than nothing. -/
def NoNegativeCycle (G : Digraph V A) : Prop :=
  ∀ v q, IsBack G v v q → 0 ≤ (q.map G.cost).sum

theorem noNegativeCycle_of_potential {π : V → ℤ} (hπ : Potential G π) : NoNegativeCycle G := by
  have hwalk : ∀ {q : List A} {s v : V}, IsBack G s v q → π v ≤ π s + (q.map G.cost).sum := by
    intro q
    induction q with
    | nil =>
      rintro s v rfl
      simp
    | cons a q ih =>
      rintro s v ⟨ha, rfl, hq⟩
      rw [List.map_cons, List.sum_cons]
      linarith [hπ a ha, ih hq]
  intro v q hq
  linarith [hwalk hq]

theorem isBack_split : ∀ {x y : List A} {b : A} {v : V}, IsBack G s v (x ++ b :: y) →
    IsBack G (G.head b) v x ∧ IsBack G s (G.head b) (b :: y)
  | [], _, _, _, h => by
    obtain ⟨hb, rfl, hy⟩ := h
    exact ⟨rfl, hb, rfl, hy⟩
  | a :: x, _, _, _, ⟨ha, hv, h⟩ => by
    obtain ⟨hx, hy⟩ := isBack_split h
    exact ⟨⟨ha, hv, hx⟩, hy⟩

/-- A walk that enters no node twice, and costs no more: cycles are left out. -/
theorem exists_simple [DecidableEq V] (hG : NoNegativeCycle G) : ∀ {q : List A} {v : V},
    IsBack G s v q → ∃ q', IsBack G s v q' ∧ (q'.map G.cost).sum ≤ (q.map G.cost).sum ∧
      (q'.map G.head).Nodup
  | [], _, h => ⟨[], h, le_rfl, List.nodup_nil⟩
  | a :: q, v, ⟨ha, hv, h⟩ => by
    obtain ⟨q', hq', hcost, hnd⟩ := exists_simple hG h
    by_cases hmem : v ∈ q'.map G.head
    · obtain ⟨b, hb, rfl⟩ := List.mem_map.mp hmem
      obtain ⟨x, y, rfl⟩ := List.append_of_mem hb
      obtain ⟨hx, hy⟩ := isBack_split hq'
      have hcycle := hG (G.head b) (a :: x) ⟨ha, hv, hx⟩
      rw [List.map_append] at hcost hnd
      refine ⟨b :: y, hy, ?_, hnd.of_append_right⟩
      rw [List.sum_append] at hcost
      simp only [List.map_cons, List.sum_cons] at hcycle hcost ⊢
      linarith
    · refine ⟨a :: q', ⟨ha, hv, hq'⟩, ?_, List.nodup_cons.mpr ⟨hv ▸ hmem, hnd⟩⟩
      simp only [List.map_cons, List.sum_cons]
      linarith

/-- **Without a negative cycle there is a potential**: the least cost of a walk to each node. -/
theorem exists_potential [DecidableEq V] (hG : NoNegativeCycle G) (hC : 0 ≤ C)
    (hN : ∀ a, G.usable a → G.head a ∈ N) (hc : ∀ a, G.usable a → - C ≤ G.cost a) :
    ∃ π : V → ℤ, Potential G π := by
  have husable : ∀ {q : List A} {s v : V}, IsBack G s v q → ∀ b ∈ q, G.usable b := by
    intro q
    induction q with
    | nil => exact fun _ b hb => absurd hb List.not_mem_nil
    | cons a q ih =>
      rintro s v ⟨ha, -, h⟩ b hb
      rcases List.mem_cons.mp hb with rfl | hb
      · exact ha
      · exact ih h b hb
  have hleast : ∀ v, ∃ d : ℤ, (∃ s q, IsBack G s v q ∧ (q.map G.cost).sum = d) ∧
      ∀ z, (∃ s q, IsBack G s v q ∧ (q.map G.cost).sum = z) → d ≤ z := by
    intro v
    refine Int.exists_least_of_bdd ⟨-(C * N.card), ?_⟩ ⟨0, v, [], rfl, rfl⟩
    rintro z ⟨s, q, hq, rfl⟩
    obtain ⟨q', hq', hcost, hnd⟩ := exists_simple hG hq
    have hlen : q'.length ≤ N.card := by
      rw [← List.length_map (f := G.head), ← List.toFinset_card_of_nodup hnd]
      refine Finset.card_le_card fun w hw => ?_
      obtain ⟨b, hb, rfl⟩ := List.mem_map.mp (List.mem_toFinset.mp hw)
      exact hN b (husable hq' b hb)
    have hsum := le_sum_cost fun b hb => hc b (husable hq' b hb)
    have hmul : C * (q'.length : ℤ) ≤ C * (N.card : ℤ) :=
      mul_le_mul_of_nonneg_left (by exact_mod_cast hlen) hC
    linarith
  choose π hwalk hmin using hleast
  refine ⟨π, fun a ha => ?_⟩
  obtain ⟨s, q, hq, hcost⟩ := hwalk (G.tail a)
  have hle := hmin (G.head a) _ ⟨s, a :: q, ⟨ha, rfl, hq⟩, rfl⟩
  rw [List.map_cons, List.sum_cons, hcost, add_comm] at hle
  exact hle

end BalanceFrame.Library
