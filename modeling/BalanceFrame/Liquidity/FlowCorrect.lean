import BalanceFrame.Liquidity.FlowSearch

/-!
# `flow` computes a cheapest flow of the largest value up to its target

`flow_spec` is the one statement the engine's uses of `flow` rest on: on a graph built by `connect`
whose links admit a potential, `flow` succeeds, and the graph it returns carries a flow `x` of the
returned value. The value is the target unless no flow has a larger one, and no flow of the same
value is cheaper. `carried_spec` reads `x` back link by link, from the positions `connect` returned.
-/

namespace BalanceFrame.Liquidity

open Library List Option

variable {st : Labelling} {π : Nat → ℤ} {v : Nat} {q : List (Nat × Nat)} {target : I64}

section Augment

variable {n c : Nat} {links : List Link} {x : Nat → Int} {g : Graph} {source sink : Nat}

/-! ## Positions and residual arcs -/

theorem tail_slotOf {p : Nat × Nat} (h : (positionGraph links x).usable p) :
    ((networkOf links).residual x).tail (slotOf links p) = p.1 := by
  obtain ⟨a, ha, hslot⟩ := exists_slot h
  rw [hslot]
  exact (tail_eq x ha).symm

theorem exists_position {a : Nat × Bool} (h : ((networkOf links).residual x).usable a) :
    ∃ p, (positionGraph links x).usable p ∧ slotOf links p = a ∧
      p.1 = ((networkOf links).residual x).tail a := by
  have hk : a.1 < links.length := Finset.mem_range.mp h.1
  obtain ⟨i, hi⟩ := getElem?_of_mem (mem_slots_of (List.getElem?_eq_getElem hk) a.2)
  have heq : slotOf links (_, i) = a := slotOf_eq hi
  exact ⟨(_, i), ⟨(List.getElem?_eq_some_iff.mp hi).1, by rwa [heq]⟩, heq, tail_eq x hi⟩

theorem potential_position (hπ : Potential ((networkOf links).residual x) π) :
    Potential (positionGraph links x) π := by
  intro p hp
  have := hπ _ hp.2
  rwa [tail_slotOf hp] at this

theorem potential_residual (hπ : Potential (positionGraph links x) π) :
    Potential ((networkOf links).residual x) π := by
  intro a ha
  obtain ⟨p, hp, rfl, htail⟩ := exists_position ha
  have := hπ p hp
  rwa [show (positionGraph links x).tail p = p.1 from rfl, htail] at this

theorem isBack_slots :
    ∀ {q : List (Nat × Nat)} {v : Nat}, IsBack (positionGraph links x) source v q →
      IsBack ((networkOf links).residual x) source v (q.map (slotOf links))
  | [], _, h => h
  | p :: q, v, h => by
    obtain ⟨hp, hhead, hq⟩ := h
    refine ⟨hp.2, hhead, ?_⟩
    rw [tail_slotOf hp]
    exact isBack_slots hq

/-! ## The two walks back -/

theorem bottleneck_spec (hrep : Represents n links x g)
    (ht : Tree (positionGraph links x) source (labels st))
    (hq : Chain (positionGraph links x) source (labels st) v q) :
    ∀ {hops : Nat} {m : I64}, q.length ≤ hops → 0 < (m : Int) →
      ∃ c, bottleneck g st.previous source hops v m = .ok c ∧ 0 < (c : Int) ∧ (c : Int) ≤ m ∧
        ∀ p ∈ q, (c : Int) ≤ (networkOf links).room x (slotOf links p) := by
  induction hq with
  | root =>
    intro hops m _ hm
    refine ⟨m, ?_, hm, le_refl _, fun p hp => absurd hp not_mem_nil⟩
    cases hops <;> rw [bottleneck, if_pos rfl] <;> rfl
  | @step v p q hv hq ih =>
    intro hops m hlen hm
    have hne : v ≠ source := by
      rintro rfl
      rw [ht.root] at hv
      exact absurd hv (by simp)
    obtain ⟨hops, rfl⟩ : ∃ k, hops = k + 1 := by
      cases hops with
      | zero => simp at hlen
      | succ k => exact ⟨k, rfl⟩
    have hus := (ht.arc v p hv).1
    obtain ⟨a, ha, hslot⟩ := exists_slot hus
    have hcap := (shows_edgeAt hrep ha).capacity
    have hpos : 0 < ((edgeAt g p.1 p.2).capacity : Int) := by
      rw [hcap]
      exact (usable_position ha).mp hus
    have hm' : 0 < ((m.least (edgeAt g p.1 p.2).capacity : I64) : Int) := by
      rw [I64.coe_least]
      exact lt_min hm hpos
    have hlen' : q.length ≤ hops := by
      rw [length_cons] at hlen
      omega
    obtain ⟨c, hc, hc0, hcm, hall⟩ := ih (m := m.least (edgeAt g p.1 p.2).capacity) hlen' hm'
    rw [I64.coe_least] at hcm
    have hprev : st.previous.getD v none = some p := hv
    refine ⟨c, ?_, hc0, hcm.trans (min_le_left _ _), fun b hb => ?_⟩
    · rw [bottleneck, if_neg hne, hprev, orStop_some, ok_bind]
      exact hc
    · rcases mem_cons.mp hb with rfl | hb
      · rw [hslot, ← hcap]
        exact hcm.trans (min_le_right _ _)
      · exact hall b hb

theorem room_add_flip (links : List Link) (x : Nat → Int) (a : Nat × Bool) :
    (networkOf links).room x a + (networkOf links).room x (Network.flip a) =
      (networkOf links).cap a.1 := by
  obtain ⟨k, d⟩ := a
  cases d <;> simp [Network.room, Network.flip]

theorem room_nonneg (hx : ∀ k ∈ (networkOf links).arcs, 0 ≤ x k ∧ x k ≤ (networkOf links).cap k)
    {a : Nat × Bool} (ha : a.1 ∈ (networkOf links).arcs) : 0 ≤ (networkOf links).room x a := by
  have := hx a.1 ha
  unfold Network.room
  split <;> omega

theorem cap_le_max (links : List Link) (k : Nat) :
    (networkOf links).cap k ≤ 9223372036854775807 := I64.le_max _

theorem augment_spec (ht : Tree (positionGraph links x) source (labels st))
    (hq : Chain (positionGraph links x) source (labels st) v q) {m : I64}
    (hm : 0 ≤ (m : Int)) :
    ∀ {hops : Nat} {y : Nat → Int} {g : Graph}, q.length ≤ hops → Represents n links y g →
      (∀ k ∈ (networkOf links).arcs, 0 ≤ y k ∧ y k ≤ (networkOf links).cap k) →
      (∀ p ∈ q, (m : Int) ≤ (networkOf links).room y (slotOf links p)) →
      (q.map (slotOf links)).Nodup →
      ∃ g', augment st.previous source m hops v g = .ok g' ∧
        Represents n links (Network.pushAll m y (q.map (slotOf links))) g' := by
  induction hq with
  | root =>
    intro hops y g _ hrep _ _ _
    refine ⟨g, ?_, hrep⟩
    cases hops <;> rw [augment, if_pos rfl] <;> rfl
  | @step v p q hv hq ih =>
    intro hops y g hlen hrep hy hroom hnd
    have hne : v ≠ source := by
      rintro rfl
      rw [ht.root] at hv
      exact absurd hv (by simp)
    obtain ⟨hops, rfl⟩ : ∃ k, hops = k + 1 := by
      cases hops with
      | zero => simp at hlen
      | succ k => exact ⟨k, rfl⟩
    obtain ⟨hus, hhead, -⟩ := ht.arc v p hv
    obtain ⟨a, ha, hslot⟩ := exists_slot hus
    have hshow := shows_edgeAt hrep ha
    have harc : a.1 ∈ (networkOf links).arcs := by
      have := hus.2.1
      rwa [hslot] at this
    have hto : (edgeAt g p.1 p.2).toNode = v := by
      rw [hshow.toNode, ← hhead]
      simp only [positionGraph, hslot]
      rfl
    -- the walk never stays at a node, so the arc is not its own reverse
    have hmoves : p.1 ≠ v := by
      intro hstays
      have htail : (positionGraph links x).tail p = v := hstays
      have hsame := chain_unique ht (.step hv hq) (htail ▸ hq)
      exact absurd (congrArg List.length hsame) (by simp)
    obtain ⟨-, -, -, hrev⟩ := slots_rev ha hshow (by rw [hto]; exact hmoves)
    have hma : (m : Int) ≤ (networkOf links).room y a := by
      have := hroom p mem_cons_self
      rwa [hslot] at this
    have hflip := room_add_flip links y a
    have hcap := cap_le_max links a.1
    have hfn : 0 ≤ (networkOf links).room y (Network.flip a) := room_nonneg hy harc
    obtain ⟨c, hc, hcv⟩ := exists_sub_ok (a := (edgeAt g p.1 p.2).capacity) (b := m) (by
      rw [hshow.capacity]
      unfold InI64
      omega)
    -- the reverse edge is another position, so the first write leaves it alone
    have hother : edgeAt (setCapacity g p.1 p.2 c) v (edgeAt g p.1 p.2).rev =
        edgeAt g v (edgeAt g p.1 p.2).rev := by
      have hno : ¬ (p.1 = v ∧ p.2 = (edgeAt g p.1 p.2).rev) := by
        rintro ⟨h1, h2⟩
        rw [hto, ← h1, ← h2, ha] at hrev
        exact flip_ne a (some.inj hrev).symm
      exact edgeAt_setCapacity_of_ne g c hno
    have hrevshow : Shows links y (Network.flip a) (edgeAt g v (edgeAt g p.1 p.2).rev) := by
      rw [hto] at hrev
      exact shows_edgeAt hrep hrev
    obtain ⟨c', hc', hcv'⟩ := exists_add_ok (a := (edgeAt g v (edgeAt g p.1 p.2).rev).capacity)
      (b := m) (by
        rw [hrevshow.capacity]
        unfold InI64
        omega)
    have hrep' := represents_push hrep ha (by rw [hto]; exact hmoves) m c c'
      (by rw [hcv, hshow.capacity]) (by rw [hcv', hrevshow.capacity])
    rw [hto] at hrep'
    rw [List.map_cons, nodup_cons, hslot] at hnd
    obtain ⟨g', hg', hgrep⟩ := ih (show q.length ≤ hops by rw [length_cons] at hlen; omega) hrep'
      (Network.bounds_push hm hy hma)
      (fun b hb => by
        have hba : slotOf links b ≠ a := fun h =>
          hnd.1 (h ▸ mem_map_of_mem hb)
        exact (hroom b (mem_cons_of_mem _ hb)).trans (Network.room_push hm hba))
      hnd.2
    refine ⟨g', ?_, ?_⟩
    · have hprev : st.previous.getD v none = some p := hv
      rw [augment, if_neg hne, hprev, orStop_some, ok_bind, hc, ok_bind]
      simp only [hother, hc', ok_bind]
      exact hg'
    · rw [List.map_cons, hslot]
      exact hgrep

/-! ## The loop -/

/-- What every pass of the outer loop keeps. -/
structure Augmenting (n : Nat) (links : List Link) (source sink : Nat) (x : Nat → Int)
    (total : Int) (g : Graph) : Prop where
  represents : Represents n links x g
  flow : (networkOf links).IsFlow source sink x total
  potential : ∃ π : Nat → ℤ, Potential ((networkOf links).residual x) π

theorem prev_of_chain {st : Labels Nat (Nat × Nat)} {G : Digraph Nat (Nat × Nat)}
    (hq : Chain G source st v q) (hv : v ≠ source) :
    ∃ p, st.prev v = some p := by
  cases hq with
  | root => exact absurd rfl hv
  | step h _ => exact ⟨_, h⟩

theorem maximal_of_unreached (hne : source ≠ sink) {total : Int}
    (hflow : (networkOf links).IsFlow source sink x total)
    (hst : Searching n c links x source st) (hc : Closed (positionGraph links x) (labels st))
    (hnone : st.previous.getD sink none = none) {y : Nat → Int} {value : Int}
    (hy : (networkOf links).IsFlow source sink y value) : value ≤ total := by
  refine Network.value_le_of_unreached (R := fun v => (labels st).dist v ≠ ⊤) ?_ ?_ ?_ hflow hy
  · simp only [hst.tree.source]
    exact WithTop.coe_ne_top
  · intro hreach
    obtain ⟨q, hq⟩ := hst.tree.chain sink hreach
    obtain ⟨p, hp⟩ := prev_of_chain hq (Ne.symm hne)
    rw [show (labels st).prev sink = st.previous.getD sink none from rfl, hnone] at hp
    exact absurd hp (by simp)
  · intro a ha hreach
    obtain ⟨p, hp, rfl, htail⟩ := exists_position ha
    have hle := hc p hp
    rw [show (positionGraph links x).tail p = p.1 from rfl, htail] at hle
    intro htop
    rw [show (positionGraph links x).head p =
      ((networkOf links).residual x).head (slotOf links p) from rfl, htop, top_le_iff,
      WithTop.add_eq_top] at hle
    rcases hle with h | h
    · exact hreach h
    · exact WithTop.coe_ne_top h

theorem pass_spec (hwf : WellFormed n c links) (hs : source < n) {total : I64}
    (hlt : (total : Int) < target) (htotal : 0 ≤ (total : Int))
    (h : Augmenting n links source sink x total g)
    (hst : Searching n c links x source st) (hc : Closed (positionGraph links x) (labels st))
    (hsome : st.previous.getD sink none ≠ none) :
    ∃ missing m g' total' y, sub target total = .ok missing ∧
      bottleneck g st.previous source g.length sink missing = .ok m ∧
      augment st.previous source m g.length sink g = .ok g' ∧ add total m = .ok total' ∧
      (total : Int) < total' ∧ (total' : Int) ≤ target ∧
      Augmenting n links source sink y total' g' := by
  obtain ⟨p, hp⟩ := ne_none_iff_exists'.mp hsome
  have hlab : (labels st).dist sink ≠ ⊤ := hst.tree.labelled sink p hp
  obtain ⟨q, hq⟩ := hst.tree.chain sink hlab
  have hlen : q.length ≤ g.length := by
    have := chain_length_lt hst.tree (Finset.mem_range.mpr hs)
      (fun p hp => Finset.mem_range.mpr (head_lt hwf hp)) hq
    rw [Finset.card_range] at this
    rw [h.represents.nodes]
    omega
  have hmax := I64.le_max target
  obtain ⟨missing, hmissing, hmv⟩ := exists_sub_ok (a := target) (b := total) (by
    unfold InI64
    omega)
  obtain ⟨m, hm, hm0, hmle, hroom⟩ := bottleneck_spec h.represents hst.tree hq hlen
    (m := missing) (by omega)
  have hnd : (q.map (slotOf links)).Nodup := by
    have := chain_nodup hst.tree hq
    rw [show (positionGraph links x).head =
      ((networkOf links).residual x).head ∘ slotOf links from rfl, ← List.map_map] at this
    exact this.of_map
  obtain ⟨g', hg', hrep'⟩ := augment_spec hst.tree hq (le_of_lt hm0) hlen h.represents
    h.flow.bounds hroom hnd
  obtain ⟨total', htotal', htv⟩ := exists_add_ok (a := total) (b := m) (by
    unfold InI64
    omega)
  refine ⟨missing, m, g', total', _, hmissing, hm, hg', htotal', by omega, by omega, hrep', ?_, ?_⟩
  · rw [htv]
    refine Network.isFlow_pushAll (le_of_lt hm0) h.flow
      (isBack_slots (isBack_of_chain hst.tree hq)) hnd fun a ha => ?_
    obtain ⟨b, hb, rfl⟩ := List.mem_map.mp ha
    exact hroom b hb
  · obtain ⟨π, hπ⟩ := h.potential
    obtain ⟨π', hπ', htight⟩ := exists_potential_of_closed (potential_position hπ) hst.tree hc
      (g.zipIdx.flatMap positionsAt).toFinset
      (fun p hp => mem_toFinset.mpr (mem_round hwf h.represents hp))
    refine ⟨π', Network.potential_pushAll (le_of_lt hm0) (potential_residual hπ')
      fun a ha => ?_⟩
    obtain ⟨b, hb, rfl⟩ := List.mem_map.mp ha
    have htb := htight _ b (chain_prev hst.tree hq b hb)
    rw [tail_slotOf (chain_usable hst.tree hq b hb)]
    exact htb

theorem flowLoop_spec (hwf : WellFormed n c links) (hs : source < n) (hne : source ≠ sink) :
    ∀ (fuel : Nat) {total : I64} {x : Nat → Int} {g : Graph},
      (target : Int) - total < fuel → 0 ≤ (total : Int) → (total : Int) ≤ target →
      Augmenting n links source sink x total g →
      ∃ (total' : I64) (g' : Graph) (y : Nat → Int),
        flowLoop source sink target fuel total g = .ok (total', g') ∧
        Augmenting n links source sink y total' g' ∧ (total' : Int) ≤ target ∧
        ((total' : Int) < target → ∀ z value, (networkOf links).IsFlow source sink z value →
          value ≤ (total' : Int)) := by
  intro fuel
  induction fuel with
  | zero =>
    intro total x g hfuel _ hle _
    simp only [Nat.cast_zero] at hfuel
    omega
  | succ fuel ih =>
    intro total x g hfuel h0 hle h
    unfold flowLoop
    by_cases hlt : (total : Int) < target
    swap
    · rw [if_neg hlt]
      exact ⟨total, g, x, rfl, h, hle, fun h => absurd h hlt⟩
    obtain ⟨π, hπ⟩ := h.potential
    obtain ⟨st, hsearch, hst, hc⟩ :=
      search_spec hwf hs h.represents (potential_position hπ)
    rw [if_pos hlt, hsearch, ok_bind]
    by_cases hnone : st.previous.getD sink none = none
    · simp only [hnone, isNone_none, if_true]
      exact ⟨total, g, x, rfl, h, hle,
        fun _ z value hz => maximal_of_unreached hne h.flow hst hc hnone hz⟩
    · have hsome : (st.previous.getD sink none).isNone = false := by
        rw [isNone_eq_false_iff]
        exact isSome_iff_ne_none.mpr hnone
      obtain ⟨missing, m, g', total', y, h1, h2, h3, h4, hmore, hle', hinv⟩ :=
        pass_spec hwf hs hlt h0 h hst hc hnone
      simp only [hsome, Bool.false_eq_true, if_false, h1, ok_bind, h2, h3, h4]
      exact ih (by push_cast at hfuel; omega) (by omega) hle' hinv

theorem net_zero (N : Network Nat Nat) (v : Nat) : N.net (fun _ => 0) v = 0 := by
  simp [Network.net]

/-- **`flow` on a connected graph**: it succeeds; the graph carries a flow of the returned value;
below the target that value is the largest; and no flow of that value is cheaper. -/
theorem flow_spec (hwf : WellFormed n c links) (hs : source < n) (hne : source ≠ sink)
    (htarget : 0 ≤ (target : Int))
    (hπ : ∀ l ∈ links, 0 < (l.capacity : Int) → π l.dst ≤ π l.src + l.cost) :
    ∃ (total : I64) (g : Graph) (x : Nat → Int),
      flow (connectAll n links) source sink target = .ok (total, g) ∧
      Represents n links x g ∧ (networkOf links).IsFlow source sink x total ∧
      (total : Int) ≤ target ∧
      ((total : Int) < target → ∀ y value, (networkOf links).IsFlow source sink y value →
        value ≤ (total : Int)) ∧
      ∀ y, (networkOf links).IsFlow source sink y total →
        (networkOf links).price x ≤ (networkOf links).price y := by
  have hstart : Augmenting n links source sink (fun _ => 0) ((0 : I64) : Int)
      (connectAll n links) := by
    refine ⟨represents_connectAll hwf, ⟨fun k hk => ⟨le_refl _, ?_⟩, fun v => ?_⟩, π, fun a ha => ?_⟩
    · have hk' : k < links.length := Finset.mem_range.mp hk
      have hmem : links.getD k default ∈ links := by
        rw [List.getD_eq_getElem?_getD, List.getElem?_eq_getElem hk']
        exact getElem_mem hk'
      exact hwf.capacity _ hmem
    · rw [net_zero]
      simp
    · -- nothing flows yet, so only forward arcs are usable
      obtain ⟨k, d⟩ := a
      obtain ⟨hk, hu⟩ := ha
      cases d with
      | false => simp at hu
      | true =>
        have hk' : k < links.length := Finset.mem_range.mp hk
        have hmem : links.getD k default ∈ links := by
          rw [List.getD_eq_getElem?_getD, List.getElem?_eq_getElem hk']
          exact getElem_mem hk'
        exact hπ _ hmem hu
  obtain ⟨total, g, x, hflow, hinv, hle, hmax⟩ := flowLoop_spec hwf hs hne
    ((target : Int).toNat + 1) (by rw [I64.coe_zero]; omega) (le_refl _) htarget hstart
  obtain ⟨π', hπ'⟩ := hinv.potential
  exact ⟨total, g, x, hflow, hinv.represents, hinv.flow, hle, hmax,
    fun y hy => Network.price_le_of_potential hπ' hinv.flow hy⟩

/-- **Reading a link back**: `original - capacity` at its position is what it carries. -/
theorem carried_spec (hrep : Represents n links x g)
    {total : Int} (hflow : (networkOf links).IsFlow source sink x total) {k : Nat} {l : Link}
    (hl : links[k]? = some l) :
    ∃ c : I64, carried g l.src (offset links k l.src) = .ok c ∧ (c : Int) = x k := by
  have hslot := slots_offset hl (d := true) (.inl rfl)
  simp only [if_true] at hslot
  have hshow := shows_edgeAt hrep hslot
  have hk := (List.getElem?_eq_some_iff.mp hl).1
  have hb := hflow.bounds k (Finset.mem_range.mpr hk)
  have hroom : (networkOf links).room x (k, true) = (networkOf links).cap k - x k := rfl
  have hcap := hshow.capacity
  have horig : _ = (networkOf links).cap k := hshow.original rfl
  have hmax := cap_le_max links k
  obtain ⟨c, hc, hcv⟩ := exists_sub_ok
    (a := (edgeAt g l.src (offset links k l.src)).original)
    (b := (edgeAt g l.src (offset links k l.src)).capacity) (by
      rw [horig, hcap, hroom]
      unfold InI64
      omega)
  exact ⟨c, hc, by rw [hcv, horig, hcap, hroom]; omega⟩

end Augment

end BalanceFrame.Liquidity

/-!
## Networks described by tags

The engine's networks come from lists of `connect` calls that fall into a few kinds. When the links
are `tags.map linkOf`, sums over the arcs are sums over the tags: `weigh tags x w` is the flow `x`
weighted by a function of the tag, and the balance of a node is such a sum.
-/

namespace BalanceFrame.Liquidity

open Library

variable {T : Type}

/-- The flow `x`, weighted by tag. -/
def weigh (tags : List T) (x : Nat → Int) (w : T → Int) : Int :=
  (tags.zipIdx.map fun p => w p.1 * x p.2).sum

theorem map_fst_zipIdx {β : Type} (tags : List T) (f : T → β) :
    (tags.zipIdx.map fun p => f p.1) = tags.map f := by
  calc (tags.zipIdx.map fun p => f p.1) = (tags.zipIdx.map Prod.fst).map f := by
        rw [List.map_map]
        rfl
    _ = tags.map f := by rw [List.zipIdx_map_fst]

variable {tags : List T} {w : T → Int} {x : Nat → Int}

theorem weigh_congr {w' : T → Int}
    (h : ∀ t ∈ tags, w t = w' t) : weigh tags x w = weigh tags x w' := by
  unfold weigh
  congr 1
  refine List.map_congr_left fun p hp => ?_
  rw [h p.1 (List.fst_mem_of_mem_zipIdx hp)]

theorem weigh_add (tags : List T) (x : Nat → Int) (w w' : T → Int) :
    weigh tags x (fun t => w t + w' t) = weigh tags x w + weigh tags x w' := by
  unfold weigh
  rw [← List.sum_map_add]
  simp only [add_mul]

theorem weigh_neg (tags : List T) (x : Nat → Int) (w : T → Int) :
    weigh tags x (fun t => - w t) = - weigh tags x w := by
  unfold weigh
  induction tags.zipIdx with
  | nil => rfl
  | cons p l ih =>
    rw [List.map_cons, List.map_cons, List.sum_cons, List.sum_cons, ih]
    ring

theorem weigh_sub (tags : List T) (x : Nat → Int) (w w' : T → Int) :
    weigh tags x (fun t => w t - w' t) = weigh tags x w - weigh tags x w' := by
  simp only [sub_eq_add_neg]
  rw [weigh_add, weigh_neg]

theorem weigh_sum (n : Nat) (tags : List T) (x : Nat → Int) (w : Nat → T → Int) :
    weigh tags x (fun t => ∑ j ∈ Finset.range n, w j t) =
      ∑ j ∈ Finset.range n, weigh tags x (w j) := by
  induction n with
  | zero =>
    simp [weigh]
  | succ n ih =>
    simp only [Finset.sum_range_succ]
    rw [weigh_add, ih]

theorem weigh_le {f : T → Int}
    (h : ∀ k t, tags[k]? = some t → w t * x k ≤ f t) : weigh tags x w ≤ (tags.map f).sum := by
  rw [weigh, ← map_fst_zipIdx tags f]
  refine List.sum_le_sum fun p hp => h p.2 p.1 ?_
  exact List.mem_zipIdx_iff_getElem?.mp hp

theorem weigh_nonneg (h : ∀ k t, tags[k]? = some t → 0 ≤ w t * x k) : 0 ≤ weigh tags x w := by
  refine List.sum_nonneg fun v hv => ?_
  obtain ⟨p, hp, rfl⟩ := List.mem_map.mp hv
  exact h p.2 p.1 (List.mem_zipIdx_iff_getElem?.mp hp)

theorem weigh_of_tags {X : T → Int} (h : ∀ k t, tags[k]? = some t → x k = X t) :
    weigh tags x w = (tags.map fun t => w t * X t).sum := by
  rw [weigh, ← map_fst_zipIdx tags fun t => w t * X t]
  congr 1
  refine List.map_congr_left fun p hp => ?_
  rw [h p.2 p.1 (List.mem_zipIdx_iff_getElem?.mp hp)]

/-! ## The network of tagged links -/

variable (linkOf : T → Link)

theorem getElem?_links {k : Nat} {t : T} (h : tags[k]? = some t) :
    (tags.map linkOf)[k]? = some (linkOf t) := by
  rw [List.getElem?_map, h]
  rfl

theorem getD_links {k : Nat} {t : T} (h : tags[k]? = some t) :
    (tags.map linkOf).getD k default = linkOf t := by
  rw [List.getD_eq_getElem?_getD, getElem?_links linkOf h]
  rfl

theorem sum_arcs (tags : List T) (x : Nat → Int) (f : Link → Int) :
    ∑ k ∈ (networkOf (tags.map linkOf)).arcs, x k * f ((tags.map linkOf).getD k default) =
      weigh tags x fun t => f (linkOf t) := by
  induction tags using List.reverseRecOn with
  | nil => rfl
  | append_singleton ls t ih =>
    have hlen : ((ls ++ [t]).map linkOf).length = ls.length + 1 := by simp
    have hlen' : (ls.map linkOf).length = ls.length := List.length_map _
    have hold : ∀ k ∈ Finset.range ls.length,
        x k * f (((ls ++ [t]).map linkOf).getD k default) =
          x k * f ((ls.map linkOf).getD k default) := fun k hk => by
      rw [List.map_append, List.map_singleton,
        getD_append_left (by rw [hlen']; exact Finset.mem_range.mp hk)]
    have hlast : ((ls ++ [t]).map linkOf).getD ls.length default = linkOf t :=
      getD_links linkOf (by rw [List.getElem?_append_right (le_refl _), Nat.sub_self]; rfl)
    simp only [networkOf] at ih ⊢
    rw [hlen, Finset.sum_range_succ, Finset.sum_congr rfl hold, ← hlen', ih, hlen', hlast]
    simp only [weigh, List.zipIdx_append, List.map_append, List.sum_append]
    simp [mul_comm]

theorem net_eq_weigh (tags : List T) (x : Nat → Int) (v : Nat) :
    (networkOf (tags.map linkOf)).net x v =
      weigh tags x fun t => ind (linkOf t).src v - ind (linkOf t).dst v :=
  sum_arcs linkOf tags x fun l => ind l.src v - ind l.dst v

theorem bounds_iff (tags : List T) (x : Nat → Int) :
    (∀ k ∈ (networkOf (tags.map linkOf)).arcs,
      0 ≤ x k ∧ x k ≤ (networkOf (tags.map linkOf)).cap k) ↔
    ∀ k t, tags[k]? = some t → 0 ≤ x k ∧ x k ≤ (linkOf t).capacity := by
  constructor
  · intro h k t ht
    have hk : k < tags.length := (List.getElem?_eq_some_iff.mp ht).1
    have := h k (Finset.mem_range.mpr (by rw [List.length_map]; exact hk))
    rwa [show (networkOf (tags.map linkOf)).cap k = _ from
      congrArg (fun l : Link => (l.capacity : Int)) (getD_links linkOf ht)] at this
  · intro h k hk
    have hk' : k < tags.length := by
      have := Finset.mem_range.mp hk
      rwa [List.length_map] at this
    have ht := List.getElem?_eq_getElem hk'
    rw [show (networkOf (tags.map linkOf)).cap k = _ from
      congrArg (fun l : Link => (l.capacity : Int)) (getD_links linkOf ht)]
    exact h k _ ht

theorem isFlow_iff (tags : List T) (s t : Nat) (x : Nat → Int) (value : Int) :
    (networkOf (tags.map linkOf)).IsFlow s t x value ↔
      (∀ k a, tags[k]? = some a → 0 ≤ x k ∧ x k ≤ (linkOf a).capacity) ∧
      ∀ v, (weigh tags x fun a => ind (linkOf a).src v - ind (linkOf a).dst v) =
        value * (ind s v - ind t v) := by
  constructor
  · rintro ⟨hb, hn⟩
    exact ⟨(bounds_iff linkOf tags x).mp hb, fun v => by rw [← net_eq_weigh, hn]⟩
  · rintro ⟨hb, hn⟩
    exact ⟨(bounds_iff linkOf tags x).mpr hb, fun v => by rw [net_eq_weigh, hn]⟩

/-- **Reading all links back**: the position each `connect` call returned holds what its link
carries. -/
theorem carried_positions {n c : Nat} (hwf : WellFormed n c (tags.map linkOf))
    {g : Graph} (hrep : Represents n (tags.map linkOf) x g) {s t : Nat}
    {value : Int} (hflow : (networkOf (tags.map linkOf)).IsFlow s t x value) :
    List.Forall₂ (fun (line arc : T × Nat) => line.1 = arc.1 ∧
        ∃ c : I64, carried g (linkOf arc.1).src line.2 = .ok c ∧ (c : Int) = x arc.2)
      (tags.zip (positionsFrom (connectAll n []) (tags.map linkOf))) tags.zipIdx := by
  refine forall₂_iff_getElem?.mpr fun k => ?_
  rw [List.getElem?_zipIdx]
  cases ht : tags[k]? with
  | none =>
    have hnone : (tags.zip (positionsFrom (connectAll n []) (tags.map linkOf)))[k]? = none := by
      rw [List.getElem?_eq_none_iff, List.length_zip]
      exact (min_le_left _ _).trans (List.getElem?_eq_none_iff.mp ht)
    rw [hnone]
    exact Option.Rel.none
  | some a =>
    have hl := getElem?_links linkOf ht
    have hpos := getElem?_positionsFrom [] (by exact hwf) hl
    rw [List.length_nil, Nat.zero_add, List.nil_append] at hpos
    have hzip : (tags.zip (positionsFrom (connectAll n []) (tags.map linkOf)))[k]? =
        some (a, offset (tags.map linkOf) k (linkOf a).src) :=
      List.getElem?_zip_eq_some.mpr ⟨ht, hpos⟩
    rw [hzip, Option.map_some, Nat.zero_add]
    exact Option.Rel.some ⟨rfl, carried_spec hrep hflow hl⟩

end BalanceFrame.Liquidity
