import BalanceFrame.Liquidity.Prepare
import BalanceFrame.Liquidity.FlowCorrect

/-!
# Flows of the backing network are backings

The backing network of `allocation`, at the level of positions: account `i`, bucket `j`. A flow that
meets every demand gives amounts `y i j` that back every bucket within every account's cash
(`backs_of_flow`), and amounts that do so give such a flow (`flow_of_backs`).
-/

namespace BalanceFrame.Liquidity

open Library List

variable {i j : Nat} {t : BackingArc} {x : Nat → Int}

/-- Amounts by position that give every bucket its demand within every account's cash. -/
structure BacksAt (demands : Amounts) (aa : List Cash) (cc : List CategoryLiquidityFact)
    (y : Nat → Nat → Int) : Prop where
  nonneg : ∀ i j, 0 ≤ y i j
  edge : ∀ i j a c, aa[i]? = some a → cc[j]? = some c → y i j ≠ 0 → edge a c = true
  bucket : ∀ j c, cc[j]? = some c → ∑ i ∈ Finset.range aa.length, y i j = bucketDemand demands c
  account : ∀ i a, aa[i]? = some a → ∑ j ∈ Finset.range cc.length, y i j ≤ backingCash a

section Network

variable {retained : Retained} {demands : Amounts} {aa : List Cash}
  {cc : List CategoryLiquidityFact}

/-- What an arc of the network stands for. -/
def ArcOf (demands : Amounts) (aa : List Cash) (cc : List CategoryLiquidityFact) :
    BackingArc → Prop
  | .supply i capacity => ∃ a, aa[i]? = some a ∧ capacity = backingCash a
  | .demand j capacity => ∃ c, cc[j]? = some c ∧ capacity = bucketDemand demands c
  | .kept i j capacity => ∃ a c, aa[i]? = some a ∧ cc[j]? = some c ∧ edge a c = true ∧
      0 < (capacity : Int) ∧ (capacity : Int) ≤ bucketDemand demands c
  | .free i j capacity => ∃ a c, aa[i]? = some a ∧ cc[j]? = some c ∧ edge a c = true ∧
      capacity = bucketDemand demands c

theorem arcOf_of_mem (h : t ∈ backingArcs retained demands aa cc) : ArcOf demands aa cc t := by
  rcases mem_append.mp h with h | h
  · obtain ⟨⟨a, i⟩, ha, rfl⟩ := mem_map.mp h
    exact ⟨a, mem_zipIdx_iff_getElem?.mp ha, rfl⟩
  · obtain ⟨⟨c, j⟩, hc, h⟩ := mem_flatMap.mp h
    have hcj := mem_zipIdx_iff_getElem?.mp hc
    rcases mem_cons.mp h with rfl | h
    · exact ⟨c, hcj, rfl⟩
    · obtain ⟨⟨a, i⟩, ha, h⟩ := mem_flatMap.mp h
      have hai := mem_zipIdx_iff_getElem?.mp ha
      unfold pairArcs at h
      split at h
      · rename_i hedge
        rcases mem_append.mp h with h | h
        · split at h
          · rename_i hkeep
            rw [mem_singleton.mp h]
            refine ⟨a, c, hai, hcj, hedge, hkeep, ?_⟩
            rw [I64.coe_least]
            exact min_le_right _ _
          · exact absurd h not_mem_nil
        · rw [mem_singleton.mp h]
          exact ⟨a, c, hai, hcj, hedge, rfl⟩
      · exact absurd h not_mem_nil

theorem lt_of_getElem? {α : Type} {l : List α} {a : α} (h : l[i]? = some a) : i < l.length:= (List.getElem?_eq_some_iff.mp h).1

theorem bucketDemand_nonneg (demands : Amounts) (c : CategoryLiquidityFact) :
    0 ≤ (bucketDemand demands c : Int) := by
  rw [bucketDemand, I64.coe_clamp]
  exact le_max_left _ _

theorem backingCash_nonneg (a : Cash) : 0 ≤ (backingCash a : Int) := by
  rw [backingCash, I64.coe_clamp]
  exact le_max_left _ _

theorem backing_wellFormed (hsize : 1 + aa.length + cc.length + 1 < 9223372036854775807) :
    WellFormed (1 + aa.length + cc.length + 1) 1
      ((backingArcs retained demands aa cc).map (backingLink aa.length cc.length)) := by
  have key : ∀ l ∈ (backingArcs retained demands aa cc).map (backingLink aa.length cc.length),
      l.src < 1 + aa.length + cc.length + 1 ∧ l.dst < 1 + aa.length + cc.length + 1 ∧
      0 ≤ (l.capacity : Int) ∧ -((1 : Nat) : Int) ≤ l.cost ∧ (l.cost : Int) ≤ (1 : Nat) := by
    intro l hl
    obtain ⟨t, ht, rfl⟩ := mem_map.mp hl
    have harc := arcOf_of_mem ht
    cases t with
    | supply i capacity =>
      obtain ⟨a, ha, rfl⟩ := harc
      have := lt_of_getElem? ha
      have := backingCash_nonneg a
      simp only [backingLink, I64.coe_zero]
      omega
    | demand j capacity =>
      obtain ⟨c, hc, rfl⟩ := harc
      have := lt_of_getElem? hc
      have := bucketDemand_nonneg demands c
      simp only [backingLink, I64.coe_zero]
      omega
    | kept i j capacity =>
      obtain ⟨a, c, ha, hc, -, hpos, -⟩ := harc
      have := lt_of_getElem? ha
      have := lt_of_getElem? hc
      simp only [backingLink, I64.coe_ofInt]
      omega
    | free i j capacity =>
      obtain ⟨a, c, ha, hc, -, rfl⟩ := harc
      have := lt_of_getElem? ha
      have := lt_of_getElem? hc
      have := bucketDemand_nonneg demands c
      simp only [backingLink, I64.coe_zero]
      omega
  exact ⟨fun l hl => (key l hl).1, fun l hl => (key l hl).2.1, fun l hl => (key l hl).2.2.1,
    fun l hl => (key l hl).2.2.2, by rwa [Nat.mul_one]⟩

/-- Retaining costs less than nothing once: the buckets and the sink lie one below the accounts. -/
theorem backing_potential (l : Link)
    (h : l ∈ (backingArcs retained demands aa cc).map (backingLink aa.length cc.length)) :
    (fun v => if v ≤ aa.length then (0 : ℤ) else -1) l.dst ≤
      (fun v => if v ≤ aa.length then (0 : ℤ) else -1) l.src + l.cost := by
  obtain ⟨t, ht, rfl⟩ := mem_map.mp h
  have harc := arcOf_of_mem ht
  cases t with
  | supply i capacity =>
    obtain ⟨a, ha, -⟩ := harc
    have := lt_of_getElem? ha
    have h1 : 1 + i ≤ aa.length := by omega
    simp [backingLink, h1]
  | demand j capacity =>
    have h1 : ¬ (1 + aa.length + j ≤ aa.length) := by omega
    have h2 : ¬ (1 + aa.length + cc.length ≤ aa.length) := by omega
    simp [backingLink, h1, h2]
  | kept i j capacity =>
    obtain ⟨a, c, ha, -⟩ := harc
    have := lt_of_getElem? ha
    have h1 : ¬ (1 + aa.length + j ≤ aa.length) := by omega
    have h2 : 1 + i ≤ aa.length := by omega
    simp [backingLink, h1, h2]
  | free i j capacity =>
    obtain ⟨a, c, ha, -⟩ := harc
    have := lt_of_getElem? ha
    have h1 : ¬ (1 + aa.length + j ≤ aa.length) := by omega
    have h2 : 1 + i ≤ aa.length := by omega
    simp [backingLink, h1, h2]

theorem sum_backingArcs (f : BackingArc → Int) :
    ((backingArcs retained demands aa cc).map f).sum =
      (aa.zipIdx.map fun a => f (.supply a.2 (backingCash a.1))).sum +
      (cc.zipIdx.map fun c => f (.demand c.2 (bucketDemand demands c.1)) +
        (aa.zipIdx.map fun a => ((pairArcs retained demands c.1 c.2 a.1 a.2).map f).sum).sum).sum := by
  have hflat : ∀ {α : Type} (l : List α) (g : α → List BackingArc),
      ((l.flatMap g).map f).sum = (l.map fun x => ((g x).map f).sum).sum := by
    intro α l g
    induction l with
    | nil => rfl
    | cons x l ih =>
      rw [flatMap_cons, map_append, sum_append, ih, map_cons, sum_cons]
  rw [backingArcs, map_append, sum_append, hflat, map_map]
  congr 1
  congr 1
  refine map_congr_left fun c _ => ?_
  rw [bucketArcs, map_cons, sum_cons, hflat]

/-! ## Weights -/

/-- One on the connections of account `i` with bucket `j`. -/
def pairWeight (i j : Nat) : BackingArc → Int
  | .kept i' j' _ => ind i' i * ind j' j
  | .free i' j' _ => ind i' i * ind j' j
  | _ => 0

/-- One on the supply of account `i`. -/
def supplyWeight (i : Nat) : BackingArc → Int
  | .supply i' _ => ind i' i
  | _ => 0

/-- One on the demand of bucket `j`. -/
def demandWeight (j : Nat) : BackingArc → Int
  | .demand j' _ => ind j' j
  | _ => 0

theorem sum_range_ind {n : Nat} (h : i < n) : ∑ k ∈ Finset.range n, ind i k = 1 := by
  have := Network.sum_ind (Finset.mem_range.mpr h) fun _ => (1 : ℤ)
  simpa using this

theorem sum_range_ind_right {n : Nat} (h : i < n) : ∑ k ∈ Finset.range n, ind k i = 1 := by
  rw [← sum_range_ind h]
  exact Finset.sum_congr rfl fun k _ => by simp [ind, eq_comm]

theorem ind_add (k i j : Nat) : ind (k + i) (k + j) = ind i j := by
  simp [ind]

theorem ind_of_ne (h : i ≠ j) : ind i j = 0 := if_neg h

theorem ind_nonneg (i j : Nat) : 0 ≤ ind i j := by
  unfold ind
  split <;> omega

theorem bucket_node (h : ArcOf demands aa cc t) (hj : j < cc.length) :
    ind (backingLink aa.length cc.length t).src (1 + aa.length + j) -
        ind (backingLink aa.length cc.length t).dst (1 + aa.length + j) =
      demandWeight j t - ∑ i ∈ Finset.range aa.length, pairWeight i j t := by
  cases t with
  | supply i capacity =>
    obtain ⟨a, ha, -⟩ := h
    have := lt_of_getElem? ha
    simp only [backingLink, demandWeight, pairWeight, Finset.sum_const_zero]
    rw [ind_of_ne (by omega), ind_of_ne (by omega)]
  | demand j' capacity =>
    simp only [backingLink, demandWeight, pairWeight, Finset.sum_const_zero]
    rw [ind_add, ind_of_ne (i := 1 + aa.length + cc.length) (by omega)]
  | kept i j' capacity =>
    obtain ⟨a, c, ha, -⟩ := h
    have hi := lt_of_getElem? ha
    simp only [backingLink, demandWeight, pairWeight]
    rw [← Finset.sum_mul, sum_range_ind hi, one_mul, ind_add, ind_of_ne (by omega)]
  | free i j' capacity =>
    obtain ⟨a, c, ha, -⟩ := h
    have hi := lt_of_getElem? ha
    simp only [backingLink, demandWeight, pairWeight]
    rw [← Finset.sum_mul, sum_range_ind hi, one_mul, ind_add, ind_of_ne (by omega)]

theorem account_node (h : ArcOf demands aa cc t) (hi : i < aa.length) :
    ind (backingLink aa.length cc.length t).src (1 + i) -
        ind (backingLink aa.length cc.length t).dst (1 + i) =
      (∑ j ∈ Finset.range cc.length, pairWeight i j t) - supplyWeight i t := by
  cases t with
  | supply i' capacity =>
    simp only [backingLink, supplyWeight, pairWeight, Finset.sum_const_zero]
    rw [ind_add, ind_of_ne (by omega)]
  | demand j' capacity =>
    simp only [backingLink, supplyWeight, pairWeight, Finset.sum_const_zero]
    rw [ind_of_ne (by omega), ind_of_ne (by omega)]
  | kept i' j' capacity =>
    obtain ⟨a, c, ha, hc, -⟩ := h
    have hj := lt_of_getElem? hc
    simp only [backingLink, supplyWeight, pairWeight]
    rw [← Finset.mul_sum, sum_range_ind hj, mul_one, ind_add,
      ind_of_ne (i := 1 + aa.length + j') (by omega)]
  | free i' j' capacity =>
    obtain ⟨a, c, ha, hc, -⟩ := h
    have hj := lt_of_getElem? hc
    simp only [backingLink, supplyWeight, pairWeight]
    rw [← Finset.mul_sum, sum_range_ind hj, mul_one, ind_add,
      ind_of_ne (i := 1 + aa.length + j') (by omega)]

theorem sink_node (h : ArcOf demands aa cc t) :
    ind (backingLink aa.length cc.length t).src (1 + aa.length + cc.length) -
        ind (backingLink aa.length cc.length t).dst (1 + aa.length + cc.length) =
      - ∑ j ∈ Finset.range cc.length, demandWeight j t := by
  cases t with
  | supply i' capacity =>
    obtain ⟨a, ha, -⟩ := h
    have := lt_of_getElem? ha
    simp only [backingLink, demandWeight, Finset.sum_const_zero]
    rw [ind_of_ne (by omega), ind_of_ne (by omega)]
    rfl
  | demand j' capacity =>
    obtain ⟨c, hc, -⟩ := h
    have hj := lt_of_getElem? hc
    simp only [backingLink, demandWeight]
    rw [sum_range_ind hj, ind_of_ne (by omega)]
    simp [ind]
  | kept i' j' capacity =>
    obtain ⟨a, c, ha, hc, -⟩ := h
    have := lt_of_getElem? ha
    have := lt_of_getElem? hc
    simp only [backingLink, demandWeight, Finset.sum_const_zero]
    rw [ind_of_ne (by omega), ind_of_ne (by omega)]
    rfl
  | free i' j' capacity =>
    obtain ⟨a, c, ha, hc, -⟩ := h
    have := lt_of_getElem? ha
    have := lt_of_getElem? hc
    simp only [backingLink, demandWeight, Finset.sum_const_zero]
    rw [ind_of_ne (by omega), ind_of_ne (by omega)]
    rfl

theorem sum_pairArcs_zero {f : BackingArc → Int} (hk : ∀ i j c, f (.kept i j c) = 0)
    (hf : ∀ i j c, f (.free i j c) = 0) (c : CategoryLiquidityFact) (j : Nat) (a : Cash)
    (i : Nat) : ((pairArcs retained demands c j a i).map f).sum = 0 := by
  unfold pairArcs
  split
  · rw [map_append, sum_append, map_singleton, sum_singleton, hf, add_zero]
    split
    · rw [map_singleton, sum_singleton, hk]
    · rfl
  · rfl

theorem weigh_supply_le (hx : ∀ k t, (backingArcs retained demands aa cc)[k]? = some t →
      0 ≤ x k ∧ x k ≤ (backingLink aa.length cc.length t).capacity) {a : Cash}
    (ha : aa[i]? = some a) :
    weigh (backingArcs retained demands aa cc) x (supplyWeight i) ≤ backingCash a := by
  let f : BackingArc → Int := fun t => supplyWeight i t * (backingLink aa.length cc.length t).capacity
  have hle : weigh (backingArcs retained demands aa cc) x (supplyWeight i) ≤
      ((backingArcs retained demands aa cc).map f).sum := by
    refine weigh_le fun k t ht => mul_le_mul_of_nonneg_left (hx k t ht).2 ?_
    cases t <;> simp [supplyWeight, ind_nonneg]
  refine hle.trans (le_of_eq ?_)
  rw [sum_backingArcs]
  have hzero : ∀ c : CategoryLiquidityFact × Nat,
      f (.demand c.2 (bucketDemand demands c.1)) +
        (aa.zipIdx.map fun a => ((pairArcs retained demands c.1 c.2 a.1 a.2).map f).sum).sum = 0 := by
    intro c
    have hin : ∀ a : Cash × Nat, ((pairArcs retained demands c.1 c.2 a.1 a.2).map f).sum = 0 :=
      fun a => sum_pairArcs_zero (fun _ _ _ => by simp [f, supplyWeight])
        (fun _ _ _ => by simp [f, supplyWeight]) c.1 c.2 a.1 a.2
    simp only [hin]
    simp [f, supplyWeight]
  simp only [hzero, map_const', sum_replicate, nsmul_zero, add_zero]
  rw [sum_zipIdx (F := fun a k => f (.supply k (backingCash a)))
    (G := fun k => ind k i * backingCash a)]
  · rw [← Finset.sum_mul, sum_range_ind_right (lt_of_getElem? ha), one_mul]
  · intro k b hb
    simp only [f, supplyWeight, backingLink]
    by_cases hki : k = i
    · subst hki
      rw [ha] at hb
      rw [Option.some.inj hb]
    · rw [ind_of_ne hki, zero_mul, zero_mul]

theorem weigh_demand_le (hx : ∀ k t, (backingArcs retained demands aa cc)[k]? = some t →
      0 ≤ x k ∧ x k ≤ (backingLink aa.length cc.length t).capacity)
    {c : CategoryLiquidityFact} (hc : cc[j]? = some c) :
    weigh (backingArcs retained demands aa cc) x (demandWeight j) ≤ bucketDemand demands c := by
  let f : BackingArc → Int := fun t => demandWeight j t * (backingLink aa.length cc.length t).capacity
  have hle : weigh (backingArcs retained demands aa cc) x (demandWeight j) ≤
      ((backingArcs retained demands aa cc).map f).sum := by
    refine weigh_le fun k t ht => mul_le_mul_of_nonneg_left (hx k t ht).2 ?_
    cases t <;> simp [demandWeight, ind_nonneg]
  refine hle.trans (le_of_eq ?_)
  rw [sum_backingArcs]
  have hin : ∀ (c : CategoryLiquidityFact × Nat) (a : Cash × Nat),
      ((pairArcs retained demands c.1 c.2 a.1 a.2).map f).sum = 0 :=
    fun c a => sum_pairArcs_zero (fun _ _ _ => by simp [f, demandWeight])
      (fun _ _ _ => by simp [f, demandWeight]) c.1 c.2 a.1 a.2
  have hsupply : ∀ a : Cash × Nat, f (.supply a.2 (backingCash a.1)) = 0 := fun a => by
    simp [f, demandWeight]
  simp only [hin, hsupply, map_const', sum_replicate, nsmul_zero, add_zero, zero_add]
  rw [sum_zipIdx (F := fun c k => f (.demand k (bucketDemand demands c)))
    (G := fun k => ind k j * bucketDemand demands c)]
  · rw [← Finset.sum_mul, sum_range_ind_right (lt_of_getElem? hc), one_mul]
  · intro k b hb
    simp only [f, demandWeight, backingLink]
    by_cases hkj : k = j
    · subst hkj
      rw [hc] at hb
      rw [Option.some.inj hb]
    · rw [ind_of_ne hkj, zero_mul, zero_mul]

/-- The demands of all buckets. -/
def totalDemand (demands : Amounts) (cc : List CategoryLiquidityFact) : Int :=
  (cc.map fun c => (bucketDemand demands c : Int)).sum

theorem backs_of_flow (h : (networkOf ((backingArcs retained demands aa cc).map
      (backingLink aa.length cc.length))).IsFlow 0 (1 + aa.length + cc.length) x
      (totalDemand demands cc)) :
    BacksAt demands aa cc fun i j => weigh (backingArcs retained demands aa cc) x (pairWeight i j) := by
  obtain ⟨hx, hnet⟩ := (isFlow_iff _ _ _ _ _ _).mp h
  have hpair : ∀ (i j k : Nat) t, (backingArcs retained demands aa cc)[k]? = some t →
      0 ≤ pairWeight i j t * x k := by
    intro i j k t ht
    refine mul_nonneg ?_ (hx k t ht).1
    cases t <;> simp [pairWeight, ind_nonneg, mul_nonneg]
  -- what a bucket receives is what its demand arc carries
  have hbucket : ∀ {j : Nat}, j < cc.length →
      ∑ i ∈ Finset.range aa.length, weigh (backingArcs retained demands aa cc) x (pairWeight i j) =
        weigh (backingArcs retained demands aa cc) x (demandWeight j) := by
    intro j hj
    have := hnet (1 + aa.length + j)
    rw [weigh_congr fun t ht => bucket_node (arcOf_of_mem ht) hj, weigh_sub, weigh_sum,
      ind_of_ne (by omega), ind_of_ne (by omega), sub_zero, mul_zero] at this
    linarith
  have hsink : ∑ j ∈ Finset.range cc.length,
      weigh (backingArcs retained demands aa cc) x (demandWeight j) = totalDemand demands cc := by
    have := hnet (1 + aa.length + cc.length)
    rw [weigh_congr fun t ht => sink_node (arcOf_of_mem ht), weigh_neg, weigh_sum,
      ind_of_ne (by omega)] at this
    simp only [ind, if_true] at this
    linarith
  refine ⟨fun i j => weigh_nonneg (hpair i j), fun i j a c ha hc hne => ?_, fun j c hc => ?_,
    fun i a ha => ?_⟩
  · -- a pair without an edge has no arc
    by_contra hno
    refine hne ?_
    rw [show weigh (backingArcs retained demands aa cc) x (pairWeight i j) =
      weigh (backingArcs retained demands aa cc) x fun _ => 0 from weigh_congr fun t ht => ?_]
    · simp [weigh]
    · have harc := arcOf_of_mem ht
      cases t with
      | supply i' capacity => rfl
      | demand j' capacity => rfl
      | kept i' j' capacity =>
        obtain ⟨a', c', ha', hc', hedge, -⟩ := harc
        by_cases hi : i' = i
        · by_cases hj : j' = j
          · subst hi hj
            rw [ha] at ha'
            rw [hc] at hc'
            obtain rfl := Option.some.inj ha'
            obtain rfl := Option.some.inj hc'
            exact absurd hedge hno
          · simp [pairWeight, ind_of_ne hj]
        · simp [pairWeight, ind_of_ne hi]
      | free i' j' capacity =>
        obtain ⟨a', c', ha', hc', hedge, -⟩ := harc
        by_cases hi : i' = i
        · by_cases hj : j' = j
          · subst hi hj
            rw [ha] at ha'
            rw [hc] at hc'
            obtain rfl := Option.some.inj ha'
            obtain rfl := Option.some.inj hc'
            exact absurd hedge hno
          · simp [pairWeight, ind_of_ne hj]
        · simp [pairWeight, ind_of_ne hi]
  · -- every demand arc is full, because together they carry the total demand
    have hj := lt_of_getElem? hc
    rw [hbucket hj]
    have htotal : totalDemand demands cc =
        ∑ k ∈ Finset.range cc.length, ((cc[k]?.map fun c => (bucketDemand demands c : Int)).getD 0) :=
      sum_map_eq_range fun k c hk => by rw [hk]; rfl
    rw [htotal] at hsink
    have hall : ∀ k ∈ Finset.range cc.length,
        weigh (backingArcs retained demands aa cc) x (demandWeight k) ≤
          (cc[k]?.map fun c => (bucketDemand demands c : Int)).getD 0 := by
      intro k hk
      have hck := getElem?_eq_getElem (Finset.mem_range.mp hk)
      rw [hck]
      exact weigh_demand_le hx hck
    have := (Finset.sum_eq_sum_iff_of_le hall).mp hsink j (Finset.mem_range.mpr hj)
    rw [this, hc]
    rfl
  · have hi := lt_of_getElem? ha
    have := hnet (1 + i)
    rw [weigh_congr fun t ht => account_node (arcOf_of_mem ht) hi, weigh_sub, weigh_sum,
      ind_of_ne (by omega), ind_of_ne (by omega), sub_zero, mul_zero] at this
    have hle := weigh_supply_le hx ha
    linarith

/-- What the network carries for a backing. -/
def backingFlow (aa : List Cash) (cc : List CategoryLiquidityFact) (y : Nat → Nat → Int) :
    BackingArc → Int
  | .supply i _ => ∑ j ∈ Finset.range cc.length, y i j
  | .demand j _ => ∑ i ∈ Finset.range aa.length, y i j
  | .kept _ _ _ => 0
  | .free i j _ => y i j

theorem sum_pairArcs_flow {y : Nat → Nat → Int} (hy : BacksAt demands aa cc y)
    {c : CategoryLiquidityFact} {a : Cash} (hc : cc[j]? = some c)
    (ha : aa[i]? = some a) (w : BackingArc → Int) {v : Int}
    (hw : ∀ k, w (.free i j k) = v) :
    ((pairArcs retained demands c j a i).map fun t => w t * backingFlow aa cc y t).sum =
      v * y i j := by
  unfold pairArcs
  split
  · rw [map_append, sum_append, map_singleton, sum_singleton, hw]
    have hkept : ((if 0 < ((((retained.get? (toLex (a.fact.accountId, c.cashBucketId))).getD 0).least
        (bucketDemand demands c) : I64) : Int) then
        [BackingArc.kept i j (((retained.get? (toLex (a.fact.accountId, c.cashBucketId))).getD 0).least
          (bucketDemand demands c))] else []).map
        fun t => w t * backingFlow aa cc y t).sum = 0 := by
      split
      · simp [backingFlow]
      · rfl
    rw [hkept, zero_add]
    rfl
  · rename_i hno
    have : y i j = 0 := by
      by_contra hne
      exact hno (hy.edge i j a c ha hc hne)
    rw [this, mul_zero]
    rfl

theorem flow_of_backs (retained : Retained) {y : Nat → Nat → Int} (hy : BacksAt demands aa cc y) :
    ∃ x, (networkOf ((backingArcs retained demands aa cc).map
      (backingLink aa.length cc.length))).IsFlow 0 (1 + aa.length + cc.length) x
      (totalDemand demands cc) := by
  set tags := backingArcs retained demands aa cc with htags
  refine ⟨fun k => (tags[k]?.map (backingFlow aa cc y)).getD 0, (isFlow_iff _ _ _ _ _ _).mpr
    ⟨fun k t ht => ?_, fun v => ?_⟩⟩
  · rw [ht, Option.map_some, Option.getD_some]
    have harc := arcOf_of_mem (mem_of_getElem? ht)
    cases t with
    | supply i capacity =>
      obtain ⟨a, ha, rfl⟩ := harc
      exact ⟨Finset.sum_nonneg fun j _ => hy.nonneg i j, hy.account i a ha⟩
    | demand j capacity =>
      obtain ⟨c, hc, rfl⟩ := harc
      exact ⟨Finset.sum_nonneg fun i _ => hy.nonneg i j, le_of_eq (hy.bucket j c hc)⟩
    | kept i j capacity =>
      obtain ⟨a, c, -, -, -, hpos, -⟩ := harc
      exact ⟨le_refl _, le_of_lt hpos⟩
    | free i j capacity =>
      obtain ⟨a, c, ha, hc, -, rfl⟩ := harc
      refine ⟨hy.nonneg i j, ?_⟩
      have := Finset.single_le_sum (f := fun i => y i j) (fun i _ => hy.nonneg i j)
        (Finset.mem_range.mpr (lt_of_getElem? ha))
      exact this.trans (le_of_eq (hy.bucket j c hc))
  · rw [weigh_of_tags (X := backingFlow aa cc y) fun k t ht => by rw [ht]; rfl, htags,
      sum_backingArcs]
    -- both kinds of sums in terms of positions
    rw [sum_zipIdx (F := fun a k => (ind (backingLink aa.length cc.length (.supply k (backingCash a))).src v
        - ind (backingLink aa.length cc.length (.supply k (backingCash a))).dst v) *
        backingFlow aa cc y (.supply k (backingCash a)))
      (G := fun i => (ind 0 v - ind (1 + i) v) * ∑ j ∈ Finset.range cc.length, y i j)
      fun _ _ _ => rfl]
    rw [sum_zipIdx (F := fun c k => (ind (backingLink aa.length cc.length
          (.demand k (bucketDemand demands c))).src v
        - ind (backingLink aa.length cc.length (.demand k (bucketDemand demands c))).dst v) *
        backingFlow aa cc y (.demand k (bucketDemand demands c)) +
        (aa.zipIdx.map fun a => ((pairArcs retained demands c k a.1 a.2).map fun t =>
          (ind (backingLink aa.length cc.length t).src v -
            ind (backingLink aa.length cc.length t).dst v) * backingFlow aa cc y t).sum).sum)
      (G := fun j => (ind (1 + aa.length + j) v - ind (1 + aa.length + cc.length) v) *
        ∑ i ∈ Finset.range aa.length, y i j +
        ∑ i ∈ Finset.range aa.length, (ind (1 + i) v - ind (1 + aa.length + j) v) * y i j)
      fun j c hc => by
        congr 1
        exact sum_zipIdx (F := fun a i => ((pairArcs retained demands c j a i).map fun t =>
          (ind (backingLink aa.length cc.length t).src v -
            ind (backingLink aa.length cc.length t).dst v) * backingFlow aa cc y t).sum)
          fun i a ha => sum_pairArcs_flow hy hc ha _ fun _ => rfl]
    have htotal : totalDemand demands cc =
        ∑ j ∈ Finset.range cc.length, ∑ i ∈ Finset.range aa.length, y i j :=
      sum_map_eq_range fun j c hc => (hy.bucket j c hc).symm
    rw [htotal]
    simp only [sub_mul, Finset.sum_add_distrib, Finset.sum_sub_distrib, Finset.mul_sum, mul_sub,
      Finset.sum_mul]
    rw [Finset.sum_comm (s := Finset.range aa.length) (t := Finset.range cc.length)
      (f := fun i j => ind 0 v * y i j), Finset.sum_comm (s := Finset.range aa.length)
      (t := Finset.range cc.length) (f := fun i j => ind (1 + i) v * y i j)]
    simp only [mul_comm]
    ring

end Network

end BalanceFrame.Liquidity
