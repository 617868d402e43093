import BalanceFrame.Liquidity.FlowCorrect

/-!
# `flow` is a minimum-cost flow

`FlowCorrect` needs a potential. A caller knows its edges instead: that they have no negative-cost
cycle. `least_cost_flow` starts from there. The distances are machine integers and `i64::MAX` marks
a node not reached, so the edges must not be dearer than that leaves room for;
`dear_link_not_taken` is what happens otherwise.
-/

namespace BalanceFrame.Liquidity

open Library

variable {links : List Link} {n c source sink : Nat} {target : I64}

/-- The digraph of the links that can carry anything. -/
def linkGraph (links : List Link) : Digraph Nat Link where
  tail := Link.src
  head := Link.dst
  cost l := l.cost
  usable l := l ∈ links ∧ 0 < (l.capacity : Int)

/-- `most` is the maximum flow from `source` to `sink`. -/
def MaximumFlow (links : List Link) (source sink : Nat) (most : Int) : Prop :=
  IsGreatest {value | ∃ y, (networkOf links).IsFlow source sink y value} most

theorem value_le_capacities (hne : source ≠ sink) {y : Nat → Int} {value : Int}
    (hy : (networkOf links).IsFlow source sink y value) :
    value ≤ ∑ k ∈ (networkOf links).arcs, (networkOf links).cap k := by
  have hnet := hy.balance source
  rw [ind, if_pos rfl, ind, if_neg (Ne.symm hne), sub_zero, mul_one] at hnet
  rw [← hnet]
  refine Finset.sum_le_sum fun k hk => ?_
  obtain ⟨h0, hcap⟩ := hy.bounds k hk
  have hind : ∀ v, 0 ≤ ind v source ∧ ind v source ≤ 1 := fun v => by
    unfold ind
    split <;> simp
  have hs := (hind ((networkOf links).src k)).2
  have hd := (hind ((networkOf links).dst k)).1
  calc y k * (ind ((networkOf links).src k) source - ind ((networkOf links).dst k) source)
      ≤ y k * 1 := mul_le_mul_of_nonneg_left (by linarith) h0
    _ = y k := mul_one _
    _ ≤ (networkOf links).cap k := hcap

theorem exists_maximumFlow (hne : source ≠ sink) {x : Nat → Int} {value : Int}
    (hx : (networkOf links).IsFlow source sink x value) : ∃ most, MaximumFlow links source sink most := by
  obtain ⟨most, ⟨y, hy⟩, hmost⟩ := Int.exists_greatest_of_bdd
    (P := fun value => ∃ y, (networkOf links).IsFlow source sink y value)
    ⟨_, fun _ ⟨_, hy⟩ => value_le_capacities hne hy⟩ ⟨value, x, hx⟩
  exact ⟨most, ⟨y, hy⟩, fun value h => hmost value h⟩

theorem exists_link_potential (hwf : WellFormed n c links) (hneg : NoNegativeCycle (linkGraph links)) :
    ∃ π : Nat → Int, ∀ l ∈ links, 0 < (l.capacity : Int) → π l.dst ≤ π l.src + l.cost := by
  obtain ⟨π, hπ⟩ := exists_potential (N := Finset.range n) (C := c) hneg (Int.natCast_nonneg c)
    (fun l hl => Finset.mem_range.mpr (hwf.dst_lt l hl.1)) (fun l hl => (hwf.cost l hl.1).1)
  exact ⟨π, fun l hl hcap => hπ l ⟨hl, hcap⟩⟩

/-- **`flow` computes a cheapest flow of the largest value up to its target.** The links form no
negative-cost cycle. `flow` returns, and what `original - capacity` reads back at the links'
positions is a flow of the returned value. That value is the smaller of the target and the maximum
flow, and no flow of the same value costs less. -/
theorem least_cost_flow (hwf : WellFormed n c links) (hs : source < n) (hne : source ≠ sink)
    (htarget : 0 ≤ (target : Int)) (hneg : NoNegativeCycle (linkGraph links)) :
    ∃ (total : I64) (g : Graph) (x : Nat → Int),
      flow (connectAll n links) source sink target = .ok (total, g) ∧
      (∀ k l, links[k]? = some l → ∃ pos held,
        (positionsFrom (connectAll n []) links)[k]? = some pos ∧
        carried g l.src pos = .ok held ∧ (held : Int) = x k) ∧
      (networkOf links).IsFlow source sink x total ∧
      (∃ most, MaximumFlow links source sink most ∧ (total : Int) = min (target : Int) most) ∧
      ∀ y, (networkOf links).IsFlow source sink y total →
        (networkOf links).price x ≤ (networkOf links).price y := by
  obtain ⟨π, hπ⟩ := exists_link_potential hwf hneg
  obtain ⟨total, g, x, hflow, hrep, hx, hle, hmax, hcheap⟩ := flow_spec hwf hs hne htarget hπ
  refine ⟨total, g, x, hflow, fun k l hl => ?_, hx, ?_, hcheap⟩
  · obtain ⟨held, hheld, hval⟩ := carried_spec hrep hx hl
    have hpos := getElem?_positionsFrom [] (by exact hwf) hl
    rw [List.length_nil, Nat.zero_add, List.nil_append] at hpos
    exact ⟨_, held, hpos, hheld, hval⟩
  · obtain ⟨most, hmost⟩ := exists_maximumFlow hne hx
    have htotal : (total : Int) ≤ most := hmost.2 ⟨x, hx⟩
    refine ⟨most, hmost, le_antisymm (le_min hle htotal) ?_⟩
    rcases lt_or_ge (total : Int) target with hlt | hge
    · obtain ⟨y, hy⟩ := hmost.1
      exact (min_le_right _ _).trans (hmax hlt y most hy)
    · exact (min_le_left _ _).trans hge

/-- Two ways from 0 to 1; the one through node 2 is cheaper but narrow. -/
def twoWays : List Link :=
  [⟨0, 1, I64.ofInt 3, 0⟩, ⟨0, 2, I64.ofInt 2, 0⟩, ⟨2, 1, 1, I64.ofInt (-2)⟩]

theorem noNegativeCycle_twoWays : NoNegativeCycle (linkGraph twoWays) :=
  noNegativeCycle_of_potential (π := fun v => if v = 1 then -2 else 0) fun l hl => by
    have : ∀ l ∈ twoWays, (if l.dst = 1 then -2 else 0) ≤
      (if l.src = 1 then -2 else 0) + (l.cost : Int) := by decide
    exact this l hl.1

theorem least_cost_flow_twoWays :
    ∃ (total : I64) (g : Graph) (x : Nat → Int),
      flow (connectAll 3 twoWays) 0 1 (I64.ofInt 2) = .ok (total, g) ∧
      (∀ k l, twoWays[k]? = some l → ∃ pos held,
        (positionsFrom (connectAll 3 []) twoWays)[k]? = some pos ∧
        carried g l.src pos = .ok held ∧ (held : Int) = x k) ∧
      (networkOf twoWays).IsFlow 0 1 x total ∧
      (∃ most, MaximumFlow twoWays 0 1 most ∧
        (total : Int) = min ((I64.ofInt 2 : I64) : Int) most) ∧
      ∀ y, (networkOf twoWays).IsFlow 0 1 y total →
        (networkOf twoWays).price x ≤ (networkOf twoWays).price y :=
  least_cost_flow (c := 2) ⟨by decide, by decide, by decide, by decide, by decide⟩ (by decide)
    (by decide) (by decide) noNegativeCycle_twoWays

/-- One link, as dear as `i64::MAX`. -/
def dearLink : Link := ⟨0, 1, 1, I64.maxValue⟩

/-- **A link that costs `i64::MAX` is not taken**: the distance it gives is the mark of a node not
reached. -/
theorem dear_link_not_taken : NoNegativeCycle (linkGraph [dearLink]) ∧
    (∃ g, flow (connectAll 2 [dearLink]) 0 1 1 = .ok (0, g)) ∧
    (networkOf [dearLink]).IsFlow 0 1 (fun _ => 1) 1 := by
  refine ⟨noNegativeCycle_of_potential (π := fun _ => 0) fun l hl => ?_, ⟨_, rfl⟩, ?_, fun v => ?_⟩
  · obtain rfl := List.mem_singleton.mp hl.1
    decide
  · intro k hk
    obtain rfl := List.mem_singleton.mp (show k ∈ [0] from by simpa [networkOf] using hk)
    decide
  · simp [Network.net, networkOf, dearLink]

end BalanceFrame.Liquidity
