import BalanceFrame.Liquidity.Flow
import BalanceFrame.Library.Network
import BalanceFrame.Library.Lists
import Mathlib.Data.List.Range

/-!
# What a graph built by `connect` holds

The edges at a node come in the order the links were connected: `slots links v` lists, for node
`v`, which link each position belongs to and in which direction. `Shows` says what the edge at a
slot holds when the links carry the flow `x`, and `Represents` that a whole graph does.
`represents_connectAll` starts with the zero flow; `represents_setCapacity` is one step of an
augmentation.
-/

namespace BalanceFrame.Liquidity

open Library List Option

variable {links : List Link} {a : Nat × Bool} {x : Nat → Int} {n c v i k u : Nat} {l : Link}
  {g : Graph} {e : Edge} {m : Int}

/-- The network a list of links describes, arcs numbered in connection order. -/
def networkOf (links : List Link) : Network Nat Nat where
  arcs := Finset.range links.length
  src k := (links.getD k default).src
  dst k := (links.getD k default).dst
  cap k := (links.getD k default).capacity
  cost k := (links.getD k default).cost

/-- Links between nodes below `n`: no negative capacity, and costs at most `c` in size, of which one
for each node stays below `i64::MAX`. -/
structure WellFormed (n c : Nat) (links : List Link) : Prop where
  src_lt : ∀ l ∈ links, l.src < n
  dst_lt : ∀ l ∈ links, l.dst < n
  capacity : ∀ l ∈ links, 0 ≤ (l.capacity : Int)
  cost : ∀ l ∈ links, -(c : Int) ≤ l.cost ∧ (l.cost : Int) ≤ c
  small : n * c < 9223372036854775807

/-- The slots link `k` adds at node `v`. -/
def ownSlots (v : Nat) (l : Link) (k : Nat) : List (Nat × Bool) :=
  (if l.src = v then [(k, true)] else []) ++ (if l.dst = v then [(k, false)] else [])

/-- Which link and direction each position of node `v` belongs to, links numbered from `k`. -/
def slotsFrom (v : Nat) : Nat → List Link → List (Nat × Bool)
  | _, [] => []
  | k, l :: rest => ownSlots v l k ++ slotsFrom v (k + 1) rest

/-- The slots of node `v`. -/
def slots (links : List Link) (v : Nat) : List (Nat × Bool) := slotsFrom v 0 links

theorem slotsFrom_append (v : Nat) :
    ∀ (k : Nat) (ls ls' : List Link),
      slotsFrom v k (ls ++ ls') = slotsFrom v k ls ++ slotsFrom v (k + ls.length) ls'
  | _, [], _ => rfl
  | k, l :: ls, ls' => by
    rw [cons_append, slotsFrom, slotsFrom, slotsFrom_append v (k + 1) ls ls',
      append_assoc, length_cons]
    congr 3
    omega

theorem slots_concat (links : List Link) (l : Link) (v : Nat) :
    slots (links ++ [l]) v = slots links v ++ ownSlots v l links.length := by
  rw [slots, slotsFrom_append, slots, Nat.zero_add]
  simp [slotsFrom]

theorem mem_ownSlots (h : a ∈ ownSlots v l k) : a.1 = k ∧ v = if a.2 then l.src else l.dst := by
  unfold ownSlots at h
  rcases mem_append.mp h with h | h
  · split at h
    · rename_i hv
      rw [mem_singleton] at h
      subst h
      exact ⟨rfl, hv.symm⟩
    · exact absurd h not_mem_nil
  · split at h
    · rename_i hv
      rw [mem_singleton] at h
      subst h
      exact ⟨rfl, hv.symm⟩
    · exact absurd h not_mem_nil

theorem mem_slotsFrom : ∀ {k : Nat} {links : List Link}, a ∈ slotsFrom v k links →
      ∃ l, k ≤ a.1 ∧ links[a.1 - k]? = some l ∧ v = if a.2 then l.src else l.dst
  | _, [], h => absurd h not_mem_nil
  | k, l :: rest, h => by
    rcases mem_append.mp h with h | h
    · obtain ⟨hk, hv⟩ := mem_ownSlots h
      exact ⟨l, le_of_eq hk.symm, by rw [hk, Nat.sub_self]; rfl, hv⟩
    · obtain ⟨l', hk, hl, hv⟩ := mem_slotsFrom h
      refine ⟨l', by omega, ?_, hv⟩
      rw [show a.1 - k = (a.1 - (k + 1)) + 1 by omega, getElem?_cons_succ]
      exact hl

theorem mem_slots (h : a ∈ slots links v) :
    ∃ l, links[a.1]? = some l ∧ v = if a.2 then l.src else l.dst := by
  obtain ⟨l, -, hl, hv⟩ := mem_slotsFrom h
  exact ⟨l, by rwa [Nat.sub_zero] at hl, hv⟩

/-- Where link `k` sits at node `v`: after the slots of the links before it. -/
def offset (links : List Link) (k v : Nat) : Nat := (slots (links.take k) v).length

theorem slots_split (hl : links[k]? = some l) (v : Nat) : slots links v =
    slots (links.take k) v ++ (ownSlots v l k ++ slotsFrom v (k + 1) (links.drop (k + 1))) := by
  obtain ⟨hk, hget⟩ := List.getElem?_eq_some_iff.mp hl
  have hsplit : links = links.take k ++ (l :: links.drop (k + 1)) := by
    rw [← hget, getElem_cons_drop, take_append_drop]
  have hlen : (links.take k).length = k := by
    rw [length_take]
    omega
  conv_lhs => rw [hsplit]
  rw [slots, slotsFrom_append, slots, hlen, Nat.zero_add]
  rfl

/-- **Each direction of a link has its slot.** A link from a node to itself has both at one node. -/
theorem slots_offset (hl : links[k]? = some l) {d : Bool} (hd : d = true ∨ l.src ≠ l.dst) :
    (slots links (if d then l.src else l.dst))[offset links k (if d then l.src else l.dst)]? =
      some (k, d) := by
  rw [slots_split hl, offset, getElem?_append_right (le_refl _), Nat.sub_self]
  cases d with
  | true => simp [ownSlots]
  | false => simp [ownSlots, hd.resolve_left Bool.false_ne_true]

theorem mem_slots_of (hl : links[k]? = some l) (d : Bool) :
    (k, d) ∈ slots links (if d then l.src else l.dst) := by
  rw [slots_split hl]
  cases d <;> simp [ownSlots]

/-- What the edge at slot `a` holds when the links carry `x`. -/
structure Shows (links : List Link) (x : Nat → Int) (a : Nat × Bool) (e : Edge) : Prop where
  toNode : e.toNode = ((networkOf links).residual x).head a
  rev : e.rev = offset links a.1 e.toNode
  capacity : (e.capacity : Int) = (networkOf links).room x a
  cost : (e.cost : Int) = ((networkOf links).residual x).cost a
  original : a.2 = true → (e.original : Int) = (networkOf links).cap a.1

/-- **The graph holds the links, carrying the flow `x`.** -/
structure Represents (n : Nat) (links : List Link) (x : Nat → Int) (g : Graph) : Prop where
  nodes : g.length = n
  edges : ∀ v, List.Forall₂ (Shows links x) (slots links v) (g.getD v [])

/-! ## Connecting -/

theorem getD_append_left (hk : k < links.length) :
    (links ++ [l]).getD k default = links.getD k default := by
  rw [getD_eq_getElem?_getD, getD_eq_getElem?_getD, getElem?_append_left hk]

theorem offset_append (hk : k ≤ links.length) (v : Nat) :
    offset (links ++ [l]) k v = offset links k v := by
  rw [offset, offset, take_append_of_le_length hk]

theorem Shows.concat (ha : a.1 < links.length) (h : Shows links x a e) : Shows (links ++ [l]) x a e := by
  have hg := getD_append_left (l := l) ha
  obtain ⟨h1, h2, h3, h4, h5⟩ := h
  constructor
  · simpa only [networkOf, Network.residual, hg] using h1
  · rw [offset_append (le_of_lt ha)]
    exact h2
  · simpa only [networkOf, Network.room, hg] using h3
  · simpa only [networkOf, Network.residual, hg] using h4
  · simpa only [networkOf, hg] using h5

theorem WellFormed.coe_neg (h : WellFormed n c links) (hl : l ∈ links) :
    (l.cost.neg : Int) = -(l.cost : Int) := by
  have hle : c ≤ n * c := Nat.le_mul_of_pos_left c (Nat.zero_lt_of_lt (h.src_lt l hl))
  have hcost := h.cost l hl
  have hsmall := h.small
  rw [I64.neg, dif_pos (by unfold InI64; omega)]

theorem getD_modify {α : Type} (l : List (List α)) (i j : Nat) (f : List α → List α)
    (hi : i < l.length) :
    (l.modify i f).getD j [] = if i = j then f (l.getD j []) else l.getD j [] := by
  rw [getD_eq_getElem?_getD, getD_eq_getElem?_getD, getElem?_modify]
  by_cases hij : i = j
  · subst hij
    rw [if_pos rfl, getElem?_eq_getElem hi]
    simp
  · simp [hij]

theorem getD_connect (hs : l.src < g.length) (hd : l.dst < g.length) (v : Nat) :
    (connect g l).getD v [] = g.getD v [] ++
      ((if l.src = v then [{ toNode := l.dst, rev := (g.getD l.dst []).length,
                             capacity := l.capacity, cost := l.cost,
                             original := l.capacity }] else []) ++
       (if l.dst = v then [{ toNode := l.src, rev := (g.getD l.src []).length, capacity := 0,
                             cost := l.cost.neg, original := 0 }] else [])) := by
  rw [connect, getD_modify _ _ _ _ (by rw [length_modify]; exact hd), getD_modify _ _ _ _ hs]
  by_cases h1 : l.src = v
  · by_cases h2 : l.dst = v <;> simp [h1, h2, linkPosition]
  · by_cases h2 : l.dst = v <;> simp [h1, h2, linkPosition]

theorem length_connect (g : Graph) (l : Link) : (connect g l).length = g.length := by
  rw [connect, length_modify, length_modify]

theorem length_slots
    (h : Represents n links x g) (v : Nat) : (g.getD v []).length = (slots links v).length :=
  (h.edges v).length_eq.symm

/-- **Connecting one more link keeps what the graph holds.** The new link carries nothing. -/
theorem represents_connect
    (h : Represents n links x g) (hwf : WellFormed n c (links ++ [l])) (hx : x links.length = 0) :
    Represents n (links ++ [l]) x (connect g l) := by
  have hmem : l ∈ links ++ [l] := mem_append_right _ (mem_singleton_self l)
  have hs : l.src < g.length := h.nodes ▸ hwf.src_lt l hmem
  have hd : l.dst < g.length := h.nodes ▸ hwf.dst_lt l hmem
  refine ⟨by rw [length_connect, h.nodes], fun v => ?_⟩
  rw [slots_concat, getD_connect hs hd]
  have hoff : ∀ w, offset (links ++ [l]) links.length w = (g.getD w []).length := fun w => by
    rw [offset_append (le_refl _), offset, take_length, length_slots h]
  refine rel_append ?_ (rel_append ?_ ?_)
  · refine forall₂_imp_mem (fun a ha e hae => ?_) (h.edges v)
    obtain ⟨l', hl', -⟩ := mem_slots ha
    exact hae.concat (List.getElem?_eq_some_iff.mp hl').1
  · split
    · refine List.Forall₂.cons ⟨?_, ?_, ?_, ?_, ?_⟩ List.Forall₂.nil
      all_goals simp [networkOf, Network.residual, Network.room, hoff, hx]
    · exact List.Forall₂.nil
  · split
    · refine List.Forall₂.cons ⟨?_, ?_, ?_, ?_, ?_⟩ List.Forall₂.nil
      · simp [networkOf, Network.residual]
      · exact (hoff _).symm
      · simp [Network.room, hx]
      · simp [networkOf, Network.residual, hwf.coe_neg hmem]
      · exact fun h => absurd h (by simp)
    · exact List.Forall₂.nil

theorem represents_bare (n : Nat) : Represents n [] (fun _ => 0) (List.replicate n []) := by
  refine ⟨length_replicate, fun v => ?_⟩
  have : (List.replicate n ([] : List Edge)).getD v [] = [] := by
    rw [getD_eq_getElem?_getD, getElem?_replicate]
    split <;> rfl
  rw [this]
  exact List.Forall₂.nil

theorem WellFormed.of_append {ls ls' : List Link} (h : WellFormed n c (ls ++ ls')) :
    WellFormed n c ls :=
  ⟨fun l hl => h.src_lt l (mem_append_left _ hl),
    fun l hl => h.dst_lt l (mem_append_left _ hl),
    fun l hl => h.capacity l (mem_append_left _ hl),
    fun l hl => h.cost l (mem_append_left _ hl), h.small⟩

theorem represents_connectAll (hwf : WellFormed n c links) :
    Represents n links (fun _ => 0) (connectAll n links) := by
  induction links using List.reverseRecOn with
  | nil => exact represents_bare n
  | append_singleton ls l ih =>
    rw [connectAll, foldl_append]
    exact represents_connect (ih hwf.of_append) hwf rfl

theorem getElem?_positionsFrom :
    ∀ (done : List Link) {links : List Link}, WellFormed n c (done ++ links) → ∀ {k : Nat} {l : Link},
      links[k]? = some l →
      (positionsFrom (connectAll n done) links)[k]? =
        some (offset (done ++ links) (done.length + k) l.src)
  | _, [], _, _, _, h => by simp at h
  | done, l :: rest, hwf, k, l', h => by
    have hrep := represents_connectAll hwf.of_append
    cases k with
    | zero =>
      obtain rfl : l = l' := by simpa using h
      rw [positionsFrom, getElem?_cons_zero, linkPosition, length_slots hrep, offset,
        Nat.add_zero, take_left]
    | succ k =>
      rw [getElem?_cons_succ] at h
      have happ : done ++ l :: rest = (done ++ [l]) ++ rest := by simp
      have := getElem?_positionsFrom (done ++ [l]) (happ ▸ hwf) h
      rw [connectAll, foldl_append] at this
      rw [positionsFrom, getElem?_cons_succ, happ]
      refine this.trans ?_
      rw [length_append, length_singleton]
      congr 2
      omega

/-! ## Changing a capacity -/

theorem nodup_slotsFrom :
    ∀ {k : Nat} {links : List Link}, (slotsFrom v k links).Nodup
  | _, [] => nodup_nil
  | k, l :: rest => by
    refine nodup_append.mpr ⟨?_, nodup_slotsFrom, fun a ha b hb hab => ?_⟩
    · unfold ownSlots
      split <;> split <;> simp
    · have h1 := (mem_ownSlots ha).1
      obtain ⟨-, h2, -⟩ := mem_slotsFrom hb
      rw [← hab, h1] at h2
      omega

theorem tail_eq (x : Nat → Int) (h : (slots links v)[i]? = some a) :
    v = ((networkOf links).residual x).tail a := by
  obtain ⟨l, hl, hv⟩ := mem_slots (mem_of_getElem? h)
  have hget : links.getD a.1 default = l := by
    rw [getD_eq_getElem?_getD, hl]
    rfl
  simpa only [networkOf, Network.residual, hget] using hv

theorem offset_unique (hl : links[a.1]? = some l) (hne : l.src ≠ l.dst)
    (h : (slots links v)[i]? = some a) :
    v = (if a.2 then l.src else l.dst) ∧ i = offset links a.1 v := by
  obtain ⟨l', hl', hv⟩ := mem_slots (mem_of_getElem? h)
  obtain rfl := some.inj (hl.symm.trans hl')
  refine ⟨hv, ?_⟩
  have := slots_offset hl (d := a.2) (.inr hne)
  rw [← hv] at this
  exact getElem?_inj_of_nodup nodup_slotsFrom h this

theorem shows_edgeAt (h : Represents n links x g)
    (ha : (slots links u)[i]? = some a) : Shows links x a (edgeAt g u i) := by
  have := forall₂_iff_getElem?.mp (h.edges u) i
  rw [ha] at this
  rw [edgeAt, getD_eq_getElem?_getD]
  generalize (g.getD u [])[i]? = o at this
  cases this with
  | some hae => exact hae

theorem getElem?_setCapacity (g : Graph) (u i : Nat) (c : I64) (w j : Nat) :
    ((setCapacity g u i c).getD w [])[j]? =
      ((g.getD w [])[j]?).map fun e => if u = w ∧ i = j then { e with capacity := c } else e := by
  have hw : (setCapacity g u i c).getD w [] =
      if u = w then (g.getD w []).modify i fun e => { e with capacity := c } else g.getD w [] := by
    unfold setCapacity
    by_cases hu : u < g.length
    · exact getD_modify _ _ _ _ hu
    · rw [modify_eq_self (not_lt.mp hu)]
      split
      · rename_i huw
        subst huw
        rw [getD_eq_getElem?_getD, getElem?_eq_none (not_lt.mp hu)]
        simp
      · rfl
  rw [hw]
  by_cases huw : u = w
  · rw [if_pos huw, getElem?_modify]
    simp only [huw, true_and]
    rfl
  · simp [huw]

theorem edgeAt_setCapacity_of_ne (g : Graph) {w j : Nat} (c : I64) (h : ¬ (u = w ∧ i = j)) :
    edgeAt (setCapacity g u i c) w j = edgeAt g w j := by
  have hget := getElem?_setCapacity g u i c w j
  simp only [h, if_false, Option.map_id'] at hget
  exact congrArg (fun o => o.getD default) hget

theorem flip_ne (a : Nat × Bool) : Network.flip a ≠ a := by
  intro h
  have := congrArg Prod.snd h
  simp [Network.flip] at this

theorem slots_rev (ha : (slots links u)[i]? = some a) (he : Shows links x a e)
    (hne : u ≠ e.toNode) : ∃ l, links[a.1]? = some l ∧ l.src ≠ l.dst ∧
      (slots links e.toNode)[e.rev]? = some (Network.flip a) := by
  obtain ⟨l, hl, hu⟩ := mem_slots (mem_of_getElem? ha)
  have hget : links.getD a.1 default = l := by
    rw [getD_eq_getElem?_getD, hl]
    rfl
  have hto : e.toNode = if !a.2 then l.src else l.dst := by
    rw [he.toNode]
    simp only [networkOf, Network.residual, hget]
    cases a.2 <;> rfl
  have hends : l.src ≠ l.dst := by
    rw [hu, hto] at hne
    cases ha2 : a.2 <;> simp [ha2] at hne
    · exact Ne.symm hne
    · exact hne
  refine ⟨l, hl, hends, ?_⟩
  rw [he.rev, hto]
  exact slots_offset hl (.inr hends)

theorem room_push_self (a : Nat × Bool) :
    (networkOf links).room (Network.push m x a) a = (networkOf links).room x a - m := by
  obtain ⟨k, d⟩ := a
  cases d
  · simp [Network.room, Network.push]
  · simp [Network.room, Network.push]
    omega

theorem room_push_flip (a : Nat × Bool) :
    (networkOf links).room (Network.push m x a) (Network.flip a) =
      (networkOf links).room x (Network.flip a) + m := by
  obtain ⟨k, d⟩ := a
  cases d
  · simp [Network.room, Network.push, Network.flip]
    omega
  · simp [Network.room, Network.push, Network.flip]

theorem room_push_other {b : Nat × Bool} (ha : b ≠ a) (hf : b ≠ Network.flip a) :
    (networkOf links).room (Network.push m x a) b = (networkOf links).room x b := by
  have hk : b.1 ≠ a.1 := by
    intro hk
    by_cases hd : b.2 = a.2
    · exact ha (Prod.ext hk hd)
    · refine hf (Prod.ext hk ?_)
      simp only [Network.flip]
      cases hb : b.2 <;> cases ha : a.2 <;> simp_all
  unfold Network.room
  rw [Network.push_of_ne hk]

theorem Shows.withCapacity {y : Nat → Int}
    (h : Shows links x a e) {c : I64} (hc : (c : Int) = (networkOf links).room y a) :
    Shows links y a { e with capacity := c } :=
  ⟨h.toNode, h.rev, hc, h.cost, h.original⟩

theorem represents_push (h : Represents n links x g) (ha : (slots links u)[i]? = some a)
    (hne : u ≠ (edgeAt g u i).toNode) (m c c' : I64)
    (hc : (c : Int) = (networkOf links).room x a - m)
    (hc' : (c' : Int) = (networkOf links).room x (Network.flip a) + m) :
    Represents n links (Network.push m x a)
      (setCapacity (setCapacity g u i c) (edgeAt g u i).toNode (edgeAt g u i).rev c') := by
  have hshow := shows_edgeAt h ha
  obtain ⟨l, hl, hends, hrev⟩ := slots_rev ha hshow hne
  refine ⟨?_, fun w => forall₂_iff_getElem?.mpr fun j => ?_⟩
  · rw [setCapacity, setCapacity, length_modify, length_modify, h.nodes]
  rw [getElem?_setCapacity, getElem?_setCapacity]
  have hold := forall₂_iff_getElem?.mp (h.edges w) j
  cases hb : (slots links w)[j]? with
  | none =>
    rw [hb] at hold
    generalize (g.getD w [])[j]? = o at hold
    cases hold
    exact Option.Rel.none
  | some b =>
    rw [hb] at hold
    generalize (g.getD w [])[j]? = o at hold
    cases hold with
    | @some _ e hbe =>
    simp only [map_some]
    refine Option.Rel.some ?_
    -- a position belongs to one slot only, so the two writes hit `a` and its opposite
    have huniq : ∀ {w' j' : Nat} {d : Nat × Bool}, links[d.1]? = some l →
        (slots links w')[j']? = some d → (w' = w ∧ j' = j ↔ b = d) := by
      intro w' j' b' hlb hb'
      constructor
      · rintro ⟨rfl, rfl⟩
        rw [hb] at hb'
        exact some.inj hb'
      · rintro rfl
        obtain ⟨hw, hj⟩ := offset_unique hlb hends hb
        obtain ⟨hw', hj'⟩ := offset_unique hlb hends hb'
        refine ⟨hw'.trans hw.symm, ?_⟩
        rw [hj, hj', hw', ← hw]
    rw [if_congr (huniq hl ha) rfl rfl,
      if_congr (huniq (d := Network.flip a) hl hrev) rfl rfl]
    by_cases hba : b = a
    · have hbf : b ≠ Network.flip a := fun hf => flip_ne a (hf.symm.trans hba)
      rw [if_neg hbf, if_pos hba]
      refine hbe.withCapacity ?_
      rw [hba, room_push_self, hc]
    · by_cases hbf : b = Network.flip a
      · rw [if_pos hbf, if_neg hba]
        refine hbe.withCapacity ?_
        rw [hbf, room_push_flip, hc']
      · rw [if_neg hbf, if_neg hba]
        have := hbe.withCapacity (y := Network.push m x a) (c := e.capacity)
          (by rw [room_push_other hba hbf, hbe.capacity])
        exact this

end BalanceFrame.Liquidity
