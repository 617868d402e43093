import BalanceFrame.Liquidity.AllocationFlow

/-!
# Backing allocation is exact

`Prepared` is a state `allocation` is called on: accounts and buckets stored under their own
identities, as many as fit in memory. `Backs` states what backing means, in terms of account and
bucket identities: nonnegative amounts on eligible pairs that give every bucket its demand and take
from no account more than its backing capacity.
-/

namespace BalanceFrame.Liquidity

open Library List Option

variable {totals : SortedMap (Nat ×ₗ Nat) I64} {i j : Nat} {x : Nat → Int} {input : LiquidityInput}
  {prior : Option BackingAllocation} {r : BackingAllocation}

/-- Accounts and categories under evaluation. -/
structure Prepared where
  accounts : Accounts
  categories : Categories
  accountIds : ∀ id a, accounts.get? id = some a → a.fact.accountId = id
  bucketIds : ∀ id c, categories.get? id = some c → c.cashBucketId = id
  addressable : accounts.entries.length + categories.entries.length < 4611686018427387000

/-- The demand on a bucket, never negative. -/
def demandOn (demands : Amounts) (bucket : String) : Int :=
  max 0 ((demands.get? bucket).elim 0 fun n => (n : Int))

/-- The backing capacity an account reports; nothing when it reports none. -/
def backingCapacity (a : Cash) : Int :=
  max 0 (a.output.backingCapacity.elim 0 fun x => (x.minorUnits : Int))

/-- **Amounts that back the demands.** -/
structure Backs (p : Prepared) (demands : Amounts) (x : String → String → Int) : Prop where
  nonneg : ∀ id bucket, 0 ≤ x id bucket
  eligible : ∀ id a bucket c, p.accounts.get? id = some a → p.categories.get? bucket = some c →
    x id bucket ≠ 0 → edge a c = true
  bucket : ∀ bucket c, p.categories.get? bucket = some c →
    (p.accounts.keys.map fun id => x id bucket).sum = demandOn demands bucket
  account : ∀ id a, p.accounts.get? id = some a →
    (p.categories.keys.map fun bucket => x id bucket).sum ≤ backingCapacity a

/-- What the lines give a bucket. -/
def bucketTotal (lines : List BackingLine) (bucket : String) : Int :=
  (lines.map fun l => if l.cashBucketId = bucket then (l.amount.minorUnits : Int) else 0).sum

/-- What the lines take from an account. -/
def accountTotal (lines : List BackingLine) (id : String) : Int :=
  (lines.map fun l => if l.accountId = id then (l.amount.minorUnits : Int) else 0).sum

/-- The lines are positive amounts on eligible pairs that give every bucket its demand and stay
within every account's backing capacity. -/
structure BackingLines (p : Prepared) (demands : Amounts) (lines : List BackingLine) : Prop where
  line : ∀ l ∈ lines, 0 < (l.amount.minorUnits : Int) ∧ ∃ a c,
    p.accounts.get? l.accountId = some a ∧ p.categories.get? l.cashBucketId = some c ∧
      edge a c = true ∧ l.categoryId = c.categoryId ∧ l.amount.currency = c.availability.currency
  bucket : ∀ bucket c, p.categories.get? bucket = some c →
    bucketTotal lines bucket = demandOn demands bucket
  account : ∀ id a, p.accounts.get? id = some a → accountTotal lines id ≤ backingCapacity a

theorem coe_bucketDemand (demands : Amounts) (c : CategoryLiquidityFact) :
    (bucketDemand demands c : Int) = demandOn demands c.cashBucketId := by
  rw [bucketDemand, I64.coe_clamp, demandOn]
  cases demands.get? c.cashBucketId <;> rfl

theorem coe_backingCash (a : Cash) : (backingCash a : Int) = backingCapacity a := by
  rw [backingCash, I64.coe_clamp, backingCapacity]
  cases a.output.backingCapacity <;> rfl

/-! ## Positions and identities -/

section Identities

variable (p : Prepared)

theorem getElem?_accounts {a : Cash} (h : p.accounts.values[i]? = some a) :
    p.accounts.get? a.fact.accountId = some a ∧ p.accounts.keys[i]? = some a.fact.accountId := by
  rw [SortedMap.values, getElem?_map, map_eq_some_iff] at h
  obtain ⟨⟨id, a'⟩, he, rfl⟩ := h
  have hget := SortedMap.mem_entries_iff.mp (mem_of_getElem? he)
  have hid := p.accountIds id a' hget
  dsimp only
  rw [hid]
  refine ⟨hget, ?_⟩
  rw [SortedMap.keys, getElem?_map, he]
  rfl

theorem getElem?_categories {c : CategoryLiquidityFact} (h : p.categories.values[j]? = some c) :
    p.categories.get? c.cashBucketId = some c ∧
      p.categories.keys[j]? = some c.cashBucketId := by
  rw [SortedMap.values, getElem?_map, map_eq_some_iff] at h
  obtain ⟨⟨id, c'⟩, he, rfl⟩ := h
  have hget := SortedMap.mem_entries_iff.mp (mem_of_getElem? he)
  have hid := p.bucketIds id c' hget
  dsimp only
  rw [hid]
  refine ⟨hget, ?_⟩
  rw [SortedMap.keys, getElem?_map, he]
  rfl

theorem backsAt_of_backs {demands : Amounts} {x : String → String → Int}
    (h : Backs p demands x) :
    BacksAt demands p.accounts.values p.categories.values fun i j =>
      x (p.accounts.keys.getD i "") (p.categories.keys.getD j "") := by
  have hkey : ∀ {κ : Type} {l : List κ} {i : Nat} {k d : κ}, l[i]? = some k → l.getD i d = k := by
    intro κ l i k d h
    rw [getD_eq_getElem?_getD, h]
    rfl
  refine ⟨fun i j => h.nonneg _ _, fun i j a c ha hc hne => ?_, fun j c hc => ?_, fun i a ha => ?_⟩
  · obtain ⟨hga, hka⟩ := getElem?_accounts p ha
    obtain ⟨hgc, hkc⟩ := getElem?_categories p hc
    rw [hkey hka, hkey hkc] at hne
    exact h.eligible _ a _ c hga hgc hne
  · obtain ⟨hgc, hkc⟩ := getElem?_categories p hc
    rw [coe_bucketDemand, ← h.bucket _ c hgc, ← SortedMap.length_keys]
    refine (sum_map_eq_range fun i id hi => ?_).symm
    rw [hkey hi, hkey hkc]
  · obtain ⟨hga, hka⟩ := getElem?_accounts p ha
    rw [coe_backingCash, ← SortedMap.length_keys]
    refine le_trans (le_of_eq ?_) (h.account _ a hga)
    refine (sum_map_eq_range fun j b hj => ?_).symm
    rw [hkey hj, hkey hka]

end Identities

/-! ## Reading the lines back -/

/-- A weight on pairs, as a weight on arcs. -/
def onPairs (w : Nat → Nat → Int) : BackingArc → Int
  | .kept i j _ => w i j
  | .free i j _ => w i j
  | _ => 0

theorem onPairs_of_pair? {w : Nat → Nat → Int} {t : BackingArc}
    (h : t.pair? = some (i, j)) : onPairs w t = w i j := by
  cases t <;> simp only [BackingArc.pair?, reduceCtorEq, Option.some.injEq, Prod.mk.injEq] at h <;>
    obtain ⟨rfl, rfl⟩ := h <;> rfl

theorem onPairs_of_none {w : Nat → Nat → Int} {t : BackingArc} (h : t.pair? = none) :
    onPairs w t = 0 := by
  cases t <;> simp_all [BackingArc.pair?, onPairs]

/-- The total of a pair. -/
def pairTotal (totals : SortedMap (Nat ×ₗ Nat) I64) (i j : Nat) : Int :=
  ((totals.get? (toLex (i, j))).getD 0 : I64)

/-- The weighted sum of all totals. -/
def weighTotals (totals : SortedMap (Nat ×ₗ Nat) I64) (w : Nat → Nat → Int) : Int :=
  totals.total fun key n => w (ofLex key).1 (ofLex key).2 * n

theorem weighTotals_insert (totals : SortedMap (Nat ×ₗ Nat) I64) (w : Nat → Nat → Int) (i j : Nat)
    (n : I64) :
    weighTotals (totals.insert (toLex (i, j)) n) w =
      weighTotals totals w + w i j * (n - pairTotal totals i j) := by
  have := SortedMap.total_insert totals
    (fun key n => w (ofLex key).1 (ofLex key).2 * (n : Int)) (toLex (i, j)) n
  rw [weighTotals, weighTotals, pairTotal]
  simp only [ofLex_toLex] at this
  cases hget : totals.get? (toLex (i, j)) with
  | none =>
    rw [hget] at this
    simp only [elim_none, add_zero] at this
    rw [this]
    simp
  | some old =>
    rw [hget] at this
    simp only [elim_some] at this
    simp only [getD_some]
    linarith

/-- A numbered list of arcs, and the same arcs with positions at which the graph carries `x`. -/
def Carries (g : Graph) (x : Nat → Int) (line : BackingArc × Nat) (arc : BackingArc × Nat) : Prop :=
  line.1 = arc.1 ∧ ∀ i j, arc.1.pair? = some (i, j) →
    ∃ c : I64, carried g (1 + i) line.2 = .ok c ∧ (c : Int) = x arc.2

/-- What the totals hold at any point of the read-back. -/
structure Read (arcs : List BackingArc) (totals : SortedMap (Nat ×ₗ Nat) I64) : Prop where
  nonneg : ∀ i j, 0 ≤ pairTotal totals i j
  keys : ∀ key n, totals.get? key = some n → ∃ t ∈ arcs, t.pair? = some (ofLex key)

theorem read_empty (arcs : List BackingArc) : Read arcs SortedMap.empty :=
  ⟨fun _ _ => le_refl _, fun key n h => by simp at h⟩

theorem pairTotal_insert (totals : SortedMap (Nat ×ₗ Nat) I64) (i j : Nat) (n : I64) (i' j' : Nat) :
    pairTotal (totals.insert (toLex (i, j)) n) i' j' =
      if (i, j) = (i', j') then (n : Int) else pairTotal totals i' j' := by
  rw [pairTotal, SortedMap.get?_insert]
  by_cases h : (i, j) = (i', j')
  · rw [if_pos h, if_pos (congrArg toLex h)]
    rfl
  · rw [if_neg h, if_neg fun he => h (toLex.injective he)]
    rfl

theorem foldlM_addLine {g : Graph} (arcs : List BackingArc)
    {ls ks : List (BackingArc × Nat)} (hrel : List.Forall₂ (Carries g x) ls ks) :
      (∀ k ∈ ks, k.1 ∈ arcs ∧ 0 ≤ x k.2) → ∀ {totals : SortedMap (Nat ×ₗ Nat) I64},
      Read arcs totals →
      (∀ i j, pairTotal totals i j + (ks.map fun k => pairWeight i j k.1 * x k.2).sum
        ≤ 9223372036854775807) →
      ∃ totals', ls.foldlM (addLine g) totals = .ok totals' ∧ Read arcs totals' ∧
        ∀ w, weighTotals totals' w =
          weighTotals totals w + (ks.map fun k => onPairs w k.1 * x k.2).sum := by
  induction hrel with
  | nil =>
    intro _ totals hr _
    exact ⟨totals, rfl, hr, fun w => by simp⟩
  | @cons l k ls ks hlk hrel ih =>
    intro hk totals hr hmax
    obtain ⟨harc, hcar⟩ := hlk
    obtain ⟨hmem, hx⟩ := hk k mem_cons_self
    have hks : ∀ k' ∈ ks, k'.1 ∈ arcs ∧ 0 ≤ x k'.2 := fun k' hk' =>
      hk k' (mem_cons_of_mem _ hk')
    cases hpair : k.1.pair? with
    | none =>
      have hstep : addLine g totals l = .ok totals := by
        rw [addLine, harc, hpair]
        rfl
      have hweight : ∀ i j, pairWeight i j k.1 = 0 := fun i j =>
        onPairs_of_none (w := fun i' j' => ind i' i * ind j' j) hpair
      obtain ⟨totals', h, hr', hw⟩ := ih hks hr fun i j => by
        have := hmax i j
        rwa [map_cons, sum_cons, hweight, zero_mul, zero_add] at this
      refine ⟨totals', by rw [foldlM_cons, hstep, ok_bind, h], hr', fun w => ?_⟩
      rw [hw, map_cons, sum_cons, onPairs_of_none hpair, zero_mul, zero_add]
    | some ij =>
      obtain ⟨i, j⟩ := ij
      obtain ⟨c, hc, hcv⟩ := hcar i j hpair
      have hweight : ∀ i' j', pairWeight i' j' k.1 = ind i i' * ind j j' := fun i' j' =>
        onPairs_of_pair? (w := fun a b => ind a i' * ind b j') hpair
      have hrest : ∀ i' j', 0 ≤ (ks.map fun k => pairWeight i' j' k.1 * x k.2).sum := by
        intro i' j'
        refine sum_nonneg fun v hv => ?_
        obtain ⟨k', hk', rfl⟩ := mem_map.mp hv
        refine mul_nonneg ?_ (hks k' hk').2
        cases k'.1 <;> simp [pairWeight, ind_nonneg, mul_nonneg]
      have hfit := hmax i j
      rw [map_cons, sum_cons, hweight] at hfit
      simp only [ind, if_true, one_mul] at hfit
      have hnn := hr.nonneg i j
      have hpos := hrest i j
      obtain ⟨n, hn, hnv⟩ := exists_add_ok
        (a := (totals.get? (toLex (i, j))).getD 0) (b := c) (by
          unfold pairTotal at hfit hnn
          unfold InI64
          omega)
      have hnv' : (n : Int) = pairTotal totals i j + x k.2 := by rw [hnv, hcv]; rfl
      have hstep : addLine g totals l = .ok (totals.insert (toLex (i, j)) n) := by
        rw [addLine, harc, hpair]
        simp only [hc, ok_bind, hn]
        rfl
      have hr₁ : Read arcs (totals.insert (toLex (i, j)) n) := by
        refine ⟨fun i' j' => ?_, fun key v hv => ?_⟩
        · rw [pairTotal_insert]
          split
          · omega
          · exact hr.nonneg i' j'
        · rw [SortedMap.get?_insert] at hv
          split at hv
          · rename_i hkey
            refine ⟨k.1, hmem, ?_⟩
            rw [hpair, ← hkey, ofLex_toLex]
          · exact hr.keys key v hv
      obtain ⟨totals', h, hr', hw⟩ := ih hks hr₁ fun i' j' => by
        have := hmax i' j'
        rw [map_cons, sum_cons, hweight] at this
        rw [pairTotal_insert]
        split
        · rename_i heq
          obtain ⟨rfl, rfl⟩ := Prod.mk.injEq .. ▸ heq
          simp only [ind, if_true, one_mul] at this
          omega
        · rename_i hne
          have hz : ind i i' * ind j j' = 0 := by
            by_cases hi : i = i'
            · have hj : j ≠ j' := fun hj => hne (by rw [hi, hj])
              rw [ind_of_ne hj, mul_zero]
            · rw [ind_of_ne hi, zero_mul]
          rw [hz, zero_mul, zero_add] at this
          exact this
      refine ⟨totals', by rw [foldlM_cons, hstep, ok_bind, h], hr', fun w => ?_⟩
      rw [hw, weighTotals_insert, map_cons, sum_cons, onPairs_of_pair? hpair, hnv']
      ring

section Lines

variable {p : Prepared} {demands : Amounts} {retained : Retained}

theorem entry_spec
    (hr : Read (backingArcs retained demands p.accounts.values p.categories.values) totals)
    {e : (Nat ×ₗ Nat) × I64} (he : e ∈ totals.entries) :
    ∃ a c, p.accounts.values[(ofLex e.1).1]? = some a ∧
      p.categories.values[(ofLex e.1).2]? = some c ∧ edge a c = true ∧ 0 ≤ (e.2 : Int) ∧
      backingLine p.accounts.values p.categories.values e =
        if 0 < (e.2 : Int) then
          some { accountId := a.fact.accountId, categoryId := c.categoryId
                 cashBucketId := c.cashBucketId, amount := m e.2 c.availability.currency }
        else none := by
  obtain ⟨key, n⟩ := e
  have hget := SortedMap.mem_entries_iff.mp he
  obtain ⟨t, ht, hpair⟩ := hr.keys key n hget
  have harc := arcOf_of_mem ht
  have hnn : 0 ≤ (n : Int) := by
    have := hr.nonneg (ofLex key).1 (ofLex key).2
    rw [pairTotal] at this
    rw [show totals.get? (toLex ((ofLex key).1, (ofLex key).2)) = some n from hget] at this
    exact this
  have hpositions : ∃ a c, p.accounts.values[(ofLex key).1]? = some a ∧
      p.categories.values[(ofLex key).2]? = some c ∧ edge a c = true := by
    cases t with
    | supply i capacity => simp [BackingArc.pair?] at hpair
    | demand j capacity => simp [BackingArc.pair?] at hpair
    | kept i j capacity =>
      obtain ⟨a, c, ha, hc, hedge, -⟩ := harc
      have hkey : (i, j) = ofLex key := by simpa only [BackingArc.pair?, Option.some.injEq] using hpair
      rw [← hkey]
      exact ⟨a, c, ha, hc, hedge⟩
    | free i j capacity =>
      obtain ⟨a, c, ha, hc, hedge, -⟩ := harc
      have hkey : (i, j) = ofLex key := by simpa only [BackingArc.pair?, Option.some.injEq] using hpair
      rw [← hkey]
      exact ⟨a, c, ha, hc, hedge⟩
  obtain ⟨a, c, ha, hc, hedge⟩ := hpositions
  exact ⟨a, c, ha, hc, hedge, hnn, by simp only [backingLine, ha, hc]⟩

theorem bucketTotal_eq
    (hr : Read (backingArcs retained demands p.accounts.values p.categories.values) totals)
    {c : CategoryLiquidityFact} (hc : p.categories.values[j]? = some c) :
    bucketTotal (totals.entries.filterMap (backingLine p.accounts.values p.categories.values))
      c.cashBucketId = weighTotals totals fun _ j' => ind j' j := by
  rw [bucketTotal, sum_filterMap, weighTotals, SortedMap.total]
  congr 1
  refine map_congr_left fun e he => ?_
  obtain ⟨a, c', -, hc', -, hnn, hline⟩ := entry_spec hr he
  rw [hline]
  have hiff : c'.cashBucketId = c.cashBucketId ↔ (ofLex e.1).2 = j := by
    constructor
    · intro heq
      have h1 := (getElem?_categories p hc').2
      have h2 := (getElem?_categories p hc).2
      rw [heq] at h1
      exact getElem?_inj_of_nodup p.categories.nodup_keys h1 h2
    · intro heq
      rw [heq, hc] at hc'
      rw [some.inj hc']
  by_cases hpos : 0 < (e.2 : Int)
  · rw [if_pos hpos, elim_some]
    simp only [hiff, ind]
    by_cases hj : (ofLex e.1).2 = j
    · rw [if_pos hj, if_pos hj, one_mul]
      rfl
    · rw [if_neg hj, if_neg hj, zero_mul]
  · have hz : (e.2 : Int) = 0 := by omega
    rw [if_neg hpos, elim_none, hz, mul_zero]

theorem accountTotal_eq
    (hr : Read (backingArcs retained demands p.accounts.values p.categories.values) totals)
    {a : Cash} (ha : p.accounts.values[i]? = some a) :
    accountTotal (totals.entries.filterMap (backingLine p.accounts.values p.categories.values))
      a.fact.accountId = weighTotals totals fun i' _ => ind i' i := by
  rw [accountTotal, sum_filterMap, weighTotals, SortedMap.total]
  congr 1
  refine map_congr_left fun e he => ?_
  obtain ⟨a', c, ha', -, -, hnn, hline⟩ := entry_spec hr he
  rw [hline]
  have hiff : a'.fact.accountId = a.fact.accountId ↔ (ofLex e.1).1 = i := by
    constructor
    · intro heq
      have h1 := (getElem?_accounts p ha').2
      have h2 := (getElem?_accounts p ha).2
      rw [heq] at h1
      exact getElem?_inj_of_nodup p.accounts.nodup_keys h1 h2
    · intro heq
      rw [heq, ha] at ha'
      rw [some.inj ha']
  by_cases hpos : 0 < (e.2 : Int)
  · rw [if_pos hpos, elim_some]
    simp only [hiff, ind]
    by_cases hi : (ofLex e.1).1 = i
    · rw [if_pos hi, if_pos hi, one_mul]
      rfl
    · rw [if_neg hi, if_neg hi, zero_mul]
  · have hz : (e.2 : Int) = 0 := by omega
    rw [if_neg hpos, elim_none, hz, mul_zero]

theorem lines_of_read
    (hr : Read (backingArcs retained demands p.accounts.values p.categories.values) totals)
    (hback : BacksAt demands p.accounts.values p.categories.values fun i j =>
      weigh (backingArcs retained demands p.accounts.values p.categories.values) x (pairWeight i j))
    (hw : ∀ w, weighTotals totals w =
      weigh (backingArcs retained demands p.accounts.values p.categories.values) x (onPairs w)) :
    BackingLines p demands
      (totals.entries.filterMap (backingLine p.accounts.values p.categories.values)) := by
  refine ⟨fun l hl => ?_, fun b c hc => ?_, fun id a ha => ?_⟩
  · obtain ⟨e, he, hline⟩ := mem_filterMap.mp hl
    obtain ⟨a, c, ha, hc, hedge, -, heq⟩ := entry_spec hr he
    rw [heq] at hline
    split at hline
    · rename_i hpos
      obtain rfl := some.inj hline
      exact ⟨hpos, a, c, (getElem?_accounts p ha).1, (getElem?_categories p hc).1, hedge, rfl, rfl⟩
    · exact absurd hline (by simp)
  · obtain ⟨j, hj, -⟩ := SortedMap.exists_getElem? hc
    have hid := p.bucketIds b c hc
    rw [← hid, bucketTotal_eq hr hj, hw, ← coe_bucketDemand, ← hback.bucket j c hj, ← weigh_sum]
    refine weigh_congr fun t ht => ?_
    have harc := arcOf_of_mem ht
    cases t with
    | supply i capacity => simp [onPairs, pairWeight]
    | demand j' capacity => simp [onPairs, pairWeight]
    | kept i j' capacity =>
      obtain ⟨a, c', ha, -⟩ := harc
      simp only [onPairs, pairWeight]
      rw [← Finset.sum_mul, sum_range_ind (lt_of_getElem? ha), one_mul]
    | free i j' capacity =>
      obtain ⟨a, c', ha, -⟩ := harc
      simp only [onPairs, pairWeight]
      rw [← Finset.sum_mul, sum_range_ind (lt_of_getElem? ha), one_mul]
  · obtain ⟨i, hi, -⟩ := SortedMap.exists_getElem? ha
    have hid := p.accountIds id a ha
    rw [← hid, accountTotal_eq hr hi, hw, ← coe_backingCash]
    refine le_trans (le_of_eq ?_) (hback.account i a hi)
    rw [← weigh_sum]
    refine weigh_congr fun t ht => ?_
    have harc := arcOf_of_mem ht
    cases t with
    | supply i capacity => simp [onPairs, pairWeight]
    | demand j' capacity => simp [onPairs, pairWeight]
    | kept i' j' capacity =>
      obtain ⟨a', c', -, hc', -⟩ := harc
      simp only [onPairs, pairWeight]
      rw [← Finset.mul_sum, sum_range_ind (lt_of_getElem? hc'), mul_one]
    | free i' j' capacity =>
      obtain ⟨a', c', -, hc', -⟩ := harc
      simp only [onPairs, pairWeight]
      rw [← Finset.mul_sum, sum_range_ind (lt_of_getElem? hc'), mul_one]

end Lines

/-! ## The allocation -/

section Allocation

variable {p : Prepared} {demands : Amounts}

theorem backingTarget_eq_ok {cc : List CategoryLiquidityFact} {target : I64} :
    backingTarget demands cc = .ok target ↔ (target : Int) = totalDemand demands cc := by
  rw [backingTarget, foldlM_add_eq_ok (fun c _ => bucketDemand_nonneg demands c) (le_refl _),
    I64.coe_zero, Int.zero_add, totalDemand]

theorem weigh_pair_le {retained : Retained} {aa : List Cash} {cc : List CategoryLiquidityFact}
    (h : BacksAt demands aa cc fun i j =>
      weigh (backingArcs retained demands aa cc) x (pairWeight i j)) (i j : Nat) :
    weigh (backingArcs retained demands aa cc) x (pairWeight i j) ≤ 9223372036854775807 := by
  by_cases hij : i < aa.length ∧ j < cc.length
  · obtain ⟨hi, hj⟩ := hij
    have hsingle := Finset.single_le_sum (f := fun i =>
      weigh (backingArcs retained demands aa cc) x (pairWeight i j)) (fun k _ => h.nonneg k j)
      (Finset.mem_range.mpr hi)
    have hbucket := h.bucket j _ (getElem?_eq_getElem hj)
    have hmax := I64.le_max (bucketDemand demands cc[j])
    omega
  · have hzero : weigh (backingArcs retained demands aa cc) x (pairWeight i j) =
        weigh (backingArcs retained demands aa cc) x fun _ => 0 := by
      refine weigh_congr fun t ht => ?_
      have harc := arcOf_of_mem ht
      have hind : ∀ {i' j' : Nat} {a : Cash} {c : CategoryLiquidityFact}, aa[i']? = some a →
          cc[j']? = some c → ind i' i * ind j' j = 0 := by
        intro i' j' a c ha hc
        by_cases hi : i' = i
        · have hj : j' ≠ j := fun hj => hij ⟨hi ▸ lt_of_getElem? ha, hj ▸ lt_of_getElem? hc⟩
          rw [ind_of_ne hj, mul_zero]
        · rw [ind_of_ne hi, zero_mul]
      cases t with
      | supply i' capacity => rfl
      | demand j' capacity => rfl
      | kept i' j' capacity =>
        obtain ⟨a, c, ha, hc, -⟩ := harc
        exact hind ha hc
      | free i' j' capacity =>
        obtain ⟨a, c, ha, hc, -⟩ := harc
        exact hind ha hc
    rw [hzero]
    simp [weigh]

theorem backs_of_lines {lines : List BackingLine} (h : BackingLines p demands lines) :
    ∃ x, Backs p demands x := by
  refine ⟨fun id bucket => (lines.map fun l =>
    if l.accountId = id ∧ l.cashBucketId = bucket then (l.amount.minorUnits : Int) else 0).sum,
    ⟨fun id bucket => ?_, fun id a bucket c ha hc hne => ?_, fun bucket c hc => ?_,
      fun id a ha => ?_⟩⟩
  · refine sum_nonneg fun v hv => ?_
    obtain ⟨l, hl, rfl⟩ := mem_map.mp hv
    have := (h.line l hl).1
    split <;> omega
  · -- some line of the pair has a positive amount, so the pair is eligible
    obtain ⟨v, hv, hv0⟩ := exists_mem_ne_zero_of_sum_ne_zero hne
    obtain ⟨l, hl, rfl⟩ := mem_map.mp hv
    by_cases hpair : l.accountId = id ∧ l.cashBucketId = bucket
    · obtain ⟨-, a', c', ha', hc', hedge, -⟩ := h.line l hl
      rw [hpair.1, ha] at ha'
      rw [hpair.2, hc] at hc'
      rwa [some.inj ha', some.inj hc']
    · exact absurd (if_neg hpair) hv0
  · rw [← h.bucket bucket c hc, bucketTotal, sum_map_comm]
    congr 1
    refine map_congr_left fun l hl => ?_
    obtain ⟨-, a', c', ha', -⟩ := h.line l hl
    rw [sum_map_pick p.accounts.nodup_keys (SortedMap.mem_keys_iff.mpr ⟨a', ha'⟩)]
  · refine le_trans (le_of_eq ?_) (h.account id a ha)
    rw [accountTotal, sum_map_comm]
    congr 1
    refine map_congr_left fun l hl => ?_
    obtain ⟨-, a', c', -, hc', -⟩ := h.line l hl
    simp only [and_comm (a := l.accountId = id)]
    rw [sum_map_pick p.categories.nodup_keys (SortedMap.mem_keys_iff.mpr ⟨c', hc'⟩)]

/-- **A backing allocation**, when the demands add up: feasible with lines that back them, or
infeasible because nothing does. -/
theorem allocation_spec (input : LiquidityInput) (p : Prepared) (demands : Amounts)
    (prior : Option BackingAllocation) {target : I64}
    (htarget : (target : Int) = totalDemand demands p.categories.values) :
    ∃ r, allocation input p.accounts p.categories demands prior = .ok r ∧
      ((r.feasible = true ∧ BackingLines p demands r.lines) ∨
        (r.feasible = false ∧ ¬ ∃ x, Backs p demands x)) := by
  set aa := p.accounts.values with haa
  set cc := p.categories.values with hcc
  set retained := retainedLines input p.accounts p.categories prior with hret
  have hsize := p.addressable
  rw [← SortedMap.length_values, ← SortedMap.length_values, ← haa, ← hcc] at hsize
  have hwf : WellFormed (1 + aa.length + cc.length + 1) 1
      ((backingArcs retained demands aa cc).map (backingLink aa.length cc.length)) :=
    backing_wellFormed (by omega)
  have hzero : 0 ≤ (target : Int) := by
    rw [htarget]
    refine sum_nonneg fun v hv => ?_
    obtain ⟨c, -, rfl⟩ := mem_map.mp hv
    exact bucketDemand_nonneg demands c
  obtain ⟨total, g, x, hflow, hrep, hx, hle, hmax, -⟩ := flow_spec hwf
    (show 0 < 1 + aa.length + cc.length + 1 by omega) (show 0 ≠ 1 + aa.length + cc.length by omega)
    hzero (π := fun v => if v ≤ aa.length then 0 else -1) fun l hl _ => backing_potential l hl
  have hrun : allocation input p.accounts p.categories demands prior = (do
      if total ≠ target then
        pure { identity input with reasons := [if anyUnknown p.accounts then
          "incomplete_backing_evidence" else "insufficient_cash_backing"] }
      else do
        let totals ← ((backingArcs retained demands aa cc).zip
          (positionsFrom (connectAll (1 + aa.length + cc.length + 1) [])
            ((backingArcs retained demands aa cc).map (backingLink aa.length cc.length)))).foldlM
          (addLine g) SortedMap.empty
        pure { identity input with
          feasible := true, lines := totals.entries.filterMap (backingLine aa cc) }) := by
    rw [allocation]
    simp only [← haa, ← hcc, ← hret, backingTarget_eq_ok.mpr htarget, ok_bind, hflow]
  rw [hrun]
  by_cases heq : total = target
  · subst heq
    rw [if_neg (by simp)]
    rw [htarget] at hx
    have hback := backs_of_flow hx
    have hbounds := ((isFlow_iff _ _ _ _ _ _).mp hx).1
    have hcarry : List.Forall₂ (Carries g x) _ _ :=
      (carried_positions (backingLink aa.length cc.length) hwf hrep hx).imp fun line arc h =>
        ⟨h.1, fun i j hpair => by
          obtain ⟨c, hc, hcv⟩ := h.2
          refine ⟨c, ?_, hcv⟩
          rw [← hc]
          congr 1
          cases hk : arc.1 <;> rw [hk] at hpair <;>
            simp only [BackingArc.pair?, reduceCtorEq, Option.some.injEq, Prod.mk.injEq] at hpair <;>
            simp only [backingLink, hpair.1]⟩
    obtain ⟨totals, hfold, hr, hw⟩ := foldlM_addLine (backingArcs retained demands aa cc)
      hcarry (fun k hk => ⟨fst_mem_of_mem_zipIdx hk,
        (hbounds k.2 k.1 (mem_zipIdx_iff_getElem?.mp hk)).1⟩)
      (read_empty _)
      (fun i j => by
        rw [show pairTotal SortedMap.empty i j = 0 from rfl, zero_add]
        exact weigh_pair_le hback i j)
    refine ⟨_, by rw [hfold, ok_bind]; rfl, .inl ⟨rfl, ?_⟩⟩
    refine lines_of_read hr hback fun w => ?_
    rw [hw]
    exact zero_add _
  · refine ⟨_, by rw [if_pos heq]; rfl, .inr ⟨rfl, ?_⟩⟩
    rintro ⟨y, hy⟩
    obtain ⟨z, hz⟩ := flow_of_backs retained (backsAt_of_backs p hy)
    have hlt : (total : Int) < target := lt_of_le_of_ne hle fun h => heq (I64.ext h)
    have := hmax hlt z _ hz
    rw [← htarget] at this
    omega

theorem allocation_overflow (input : LiquidityInput) (p : Prepared) (demands : Amounts)
    (h : ¬ InI64 (totalDemand demands p.categories.values)) (prior : Option BackingAllocation) :
    ∃ reason, allocation input p.accounts p.categories demands prior = .error reason := by
  have hfail : ∃ reason, backingTarget demands p.categories.values = .error reason := by
    cases htarget : backingTarget demands p.categories.values with
    | error reason => exact ⟨reason, rfl⟩
    | ok target => exact absurd (backingTarget_eq_ok.mp htarget ▸ target.2) h
  obtain ⟨reason, hreason⟩ := hfail
  exact ⟨reason, by rw [allocation]; simp only [hreason, error_bind]⟩

theorem totalDemand_of_ok (h : allocation input p.accounts p.categories demands prior = .ok r) :
    ∃ target : I64, (target : Int) = totalDemand demands p.categories.values := by
  by_cases hfit : InI64 (totalDemand demands p.categories.values)
  · exact ⟨⟨_, hfit⟩, rfl⟩
  · obtain ⟨reason, herror⟩ := allocation_overflow input p demands hfit prior
    rw [h] at herror
    exact absurd herror (by simp)

theorem feasible_iff (h : allocation input p.accounts p.categories demands prior = .ok r) :
    r.feasible = true ↔ ∃ x, Backs p demands x := by
  obtain ⟨target, htarget⟩ := totalDemand_of_ok h
  obtain ⟨r', hr', hcases⟩ := allocation_spec input p demands prior htarget
  obtain rfl := Except.ok.inj (h.symm.trans hr')
  obtain ⟨hf, hlines⟩ | ⟨hf, hnone⟩ := hcases
  · exact ⟨fun _ => backs_of_lines hlines, fun _ => hf⟩
  · exact ⟨fun ht => absurd (ht.symm.trans hf) (by simp), fun hx => absurd hx hnone⟩

/-- **The flag does not depend on the prior**, nor does success. -/
theorem feasible_prior (h : allocation input p.accounts p.categories demands prior = .ok r)
    (input' : LiquidityInput) (prior' : Option BackingAllocation) :
    ∃ r', allocation input' p.accounts p.categories demands prior' = .ok r' ∧
      r'.feasible = r.feasible := by
  obtain ⟨target, htarget⟩ := totalDemand_of_ok h
  obtain ⟨r', hr', -⟩ := allocation_spec input' p demands prior' htarget
  refine ⟨r', hr', ?_⟩
  rw [Bool.eq_iff_iff, feasible_iff hr', feasible_iff h]

/-- **Backing allocation is exact.** -/
theorem allocation_exact (input : LiquidityInput) (p : Prepared) (demands : Amounts)
    (prior : Option BackingAllocation) (r : BackingAllocation)
    (h : allocation input p.accounts p.categories demands prior = .ok r) :
    (r.feasible = true ↔ ∃ x, Backs p demands x) ∧
      (r.feasible = true → BackingLines p demands r.lines) ∧
      ∀ prior', ∃ r', allocation input p.accounts p.categories demands prior' = .ok r' ∧
        r'.feasible = r.feasible := by
  refine ⟨feasible_iff h, fun hf => ?_, feasible_prior h input⟩
  obtain ⟨target, htarget⟩ := totalDemand_of_ok h
  obtain ⟨r', hr', hcases⟩ := allocation_spec input p demands prior htarget
  obtain rfl := Except.ok.inj (h.symm.trans hr')
  obtain ⟨-, hlines⟩ | ⟨hf', -⟩ := hcases
  · exact hlines
  · exact absurd (hf.symm.trans hf') (by simp)

end Allocation

/-! ## A small household -/

def weekEvidence : FactEvidence where
  state := .known
  source := .userAttested
  observedAt := some "2026-01-01T00:00:00Z"
  expiresAt := some "2026-01-08T00:00:00Z"
  reasons := []

def usd (n : I64) : Money := m n "USD"

def cashAccount (id : String) (balance : I64) : AccountLiquidityFact where
  accountId := id
  currency := "USD"
  currencyEvidence := weekEvidence
  kind := .cash
  kindEvidence := weekEvidence
  onBudget := true
  closed := false
  owned := true
  ownershipEvidence := weekEvidence
  recordedBalance := usd balance
  balanceEvidence := weekEvidence
  freshnessEvidence := weekEvidence
  activityEvidence := weekEvidence
  scheduleEvidence := weekEvidence
  baselineTransactionIds := []
  unsettledFlows := []
  holds := usd 0
  holdsEvidence := weekEvidence
  obligations := []
  credit := none
  ambiguityReasons := []

def openPolicy (id : String) : AccountLiquidityPolicy where
  accountId := id
  role := .dailySpending
  protectedBuffer := usd 0
  paymentEligible := true
  sourceEligible := true
  backingEligible := true
  eligibleCategoryIds := []
  restrictedCashBucketIds := []
  automationAllowed := false
  resourceScope := ""

def currentBucket (id : String) (available : I64) : CategoryLiquidityFact where
  categoryId := id
  cashBucketId := id ++ "-bucket"
  asOfMonth := "2026-01"
  kind := .ordinary
  periodKind := .current
  availability := usd available
  evidence := weekEvidence

def household : LiquidityInput where
  sourceCoverageComplete := true
  maxBudgetSnapshotAgeMinutes := 10080
  snapshotId := "snapshot"
  contentHash := "content"
  evaluatedAt := "2026-01-02T00:00:00Z"
  horizon := ⟨"2026-01-01T00:00:00Z", "2026-02-01T00:00:00Z"⟩
  facts := some { version := "1", ledgerContentHash := "ledger", asOfMonth := "2026-01"
                  categories := [currentBucket "food" (.ofInt 60)]
                  accounts := [cashAccount "checking" (.ofInt 50), cashAccount "savings" (.ofInt 80)]
                  schedules := [] }
  liquidityPolicy :=
    { version := "1", policyHash := "policy", expiresAt := "2026-02-01T00:00:00Z"
      accounts := [openPolicy "checking", openPolicy "savings"], transferRoutes := [] }
  claimSet := ⟨"1", []⟩
  priorAllocation := none
  scenario := .none
  validUntil := "2026-02-01T00:00:00Z"

def offering (id : String) (n : I64) : Cash :=
  { openingCash (cashAccount id n) (openPolicy id) with
    known := true, output := { (openingCash (cashAccount id n) (openPolicy id)).output with
      backingCapacity := some (usd n) } }

def preparedHousehold : Prepared where
  accounts := (SortedMap.empty.insert "checking" (offering "checking" (.ofInt 50))).insert "savings"
    (offering "savings" (.ofInt 80))
  categories := SortedMap.empty.insert "food-bucket" (currentBucket "food" (.ofInt 60))
  accountIds id a h := by
    rw [SortedMap.get?_insert, SortedMap.get?_insert] at h
    split at h
    · rename_i hid
      rw [← some.inj h, ← hid]
      rfl
    · split at h
      · rename_i hid
        rw [← some.inj h, ← hid]
        rfl
      · exact absurd h (by simp)
  bucketIds id c h := by
    rw [SortedMap.get?_insert] at h
    split at h
    · rename_i hid
      rw [← some.inj h, ← hid]
      decide
    · exact absurd h (by simp)
  addressable := by decide

theorem allocation_exact_household :
    ∃ r, allocation household preparedHousehold.accounts preparedHousehold.categories
        (SortedMap.empty.insert "food-bucket" (.ofInt 60)) none = .ok r ∧ r.feasible = true ∧
      BackingLines preparedHousehold (SortedMap.empty.insert "food-bucket" (.ofInt 60)) r.lines := by
  have hrun : ∃ r, allocation household preparedHousehold.accounts preparedHousehold.categories
      (SortedMap.empty.insert "food-bucket" (.ofInt 60)) none = .ok r ∧ r.feasible = true :=
    ⟨{ identity household with
        feasible := true
        lines := [⟨"checking", "food", "food-bucket", usd (.ofInt 50)⟩,
          ⟨"savings", "food", "food-bucket", usd (.ofInt 10)⟩] }, by decide +kernel, rfl⟩
  obtain ⟨r, hr, hf⟩ := hrun
  exact ⟨r, hr, hf, (allocation_exact _ _ _ _ r hr).2.1 hf⟩

end BalanceFrame.Liquidity
