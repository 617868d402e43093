import BalanceFrame.Decision.Cart
import BalanceFrame.Decision.TotalsCorrect

/-!
# The sums of a cart

Every map of a cart is filled by adding amounts at keys. For any weight of the keys, `weighed` is
the weighted sum of the amounts: with the weight one it is the sum of all, and with the weight of a
single key the amount at that key. So one conservation law, stated for every weight, gives the
total and each category at once.
-/

namespace BalanceFrame.Decision

open Library Liquidity List Bool

/-! ## Amounts by key -/

section Amounts

variable {κ : Type} [LinearOrder κ]

/-- The amount at a key, zero where there is none. -/
def unitsAt (amounts : SortedMap κ I64) (k : κ) : Int := ((amounts.get? k).getD 0 : I64)

/-- The weighted sum of the amounts. -/
def weighed (w : κ → Int) (amounts : SortedMap κ I64) : Int := amounts.total fun k n => w k * n

/-- The weighted sum of entries. -/
def weighedList (w : κ → Int) (l : List (κ × I64)) : Int := (l.map fun e => w e.1 * e.2).sum

variable (w : κ → Int) (amounts : SortedMap κ I64) (k : κ)

@[simp] theorem weighed_empty : weighed w (SortedMap.empty : SortedMap κ I64) = 0 :=
  rfl

@[simp] theorem weighedList_nil : weighedList w ([] : List (κ × I64)) = 0 := rfl

@[simp] theorem weighedList_cons (e : κ × I64) (l : List (κ × I64)) :
    weighedList w (e :: l) = w e.1 * e.2 + weighedList w l := by
  unfold weighedList
  rw [List.map_cons, List.sum_cons]

theorem weighedList_append (l l' : List (κ × I64)) :
    weighedList w (l ++ l') = weighedList w l + weighedList w l' := by
  unfold weighedList
  rw [List.map_append, List.sum_append]

@[simp] theorem unitsAt_empty : unitsAt (SortedMap.empty : SortedMap κ I64) k = 0 := rfl

theorem unitsAt_insert (n : I64) (q : κ) :
    unitsAt (amounts.insert k n) q = if k = q then (n : Int) else unitsAt amounts q := by
  unfold unitsAt
  rw [SortedMap.get?_insert]
  split <;> rfl

theorem weighed_insert (n : I64) :
    weighed w (amounts.insert k n) = weighed w amounts + w k * (n - unitsAt amounts k) := by
  have h := SortedMap.total_insert amounts (fun k (n : I64) => w k * (n : Int)) k n
  have hold : (amounts.get? k).elim 0 (fun v : I64 => w k * (v : Int)) =
      w k * unitsAt amounts k := by
    unfold unitsAt
    cases amounts.get? k with
    | none => exact (mul_zero _).symm
    | some v => rfl
  unfold weighed
  rw [hold] at h
  rw [mul_sub]
  omega

theorem weighed_single : weighed (fun q => if q = k then 1 else 0) amounts = unitsAt amounts k := by
  have hzero : amounts.total (fun (_ : κ) (_ : I64) => (0 : Int)) = 0 := by
    unfold SortedMap.total
    simp
  have h := SortedMap.total_congr_except amounts (fun _ _ => (0 : Int))
    (fun q (n : I64) => (if q = k then 1 else 0) * (n : Int)) k
    (fun j hj v => by rw [if_neg hj, zero_mul])
  unfold weighed unitsAt
  rw [hzero] at h
  cases hget : amounts.get? k with
  | none =>
    rw [hget] at h
    simpa using h
  | some v =>
    rw [hget] at h
    simpa using h

theorem addTo_ok {reason : String} {amounts amounts' : SortedMap κ I64} {e : κ × I64} :
    addTo reason amounts e = .ok amounts' ↔
      ∃ n : I64, (n : Int) = unitsAt amounts e.1 + e.2 ∧ amounts' = amounts.insert e.1 n := by
  unfold addTo unitsAt
  simp only [bind_ok, orStop_ok, I64.checkedAdd_eq_some, pure_ok, Except.ok.injEq]
  exact exists_congr fun n => and_congr_right fun _ => eq_comm

theorem weighed_foldlM_addTo {reason : String} (w : κ → Int) :
    ∀ {l : List (κ × I64)} {amounts amounts' : SortedMap κ I64},
      l.foldlM (addTo reason) amounts = .ok amounts' →
        weighed w amounts' = weighed w amounts + weighedList w l
  | [], amounts, amounts', h => by
    cases h
    simp
  | e :: l, amounts, amounts', h => by
    obtain ⟨c, hc, h⟩ := foldlM_cons_ok.mp h
    obtain ⟨n, hn, rfl⟩ := addTo_ok.mp hc
    rw [weighed_foldlM_addTo w h, weighed_insert, weighedList_cons, hn]
    ring

theorem weighed_of_zero {amounts : SortedMap κ I64} (h : amounts.values.any (· != 0) = false) :
    weighed w amounts = 0 := by
  unfold weighed SortedMap.total
  refine sum_eq_zero fun x hx => ?_
  obtain ⟨e, he, rfl⟩ := mem_map.mp hx
  have hzero : e.2 = 0 := by
    have := any_eq_false.mp h e.2 (mem_map_of_mem he)
    simpa using this
  dsimp only
  rw [hzero, I64.coe_zero, mul_zero]

theorem weighed_one :
    weighed (fun _ => 1) amounts = (amounts.values.map fun n : I64 => (n : Int)).sum := by
  unfold weighed SortedMap.total SortedMap.values
  rw [List.map_map]
  simp [Function.comp_def]

end Amounts

/-! ## Items -/

/-- The allocations of an item: some, all positive, of the item's month, and the line in sum. -/
structure Allocated (item : DecisionCardItem) (line : Money) (l : List (CategoryKey × I64)) :
    Prop where
  nonempty : l ≠ []
  positive : ∀ e ∈ l, 0 < (e.2 : Int)
  month : ∀ e ∈ l, monthOf item.purchaseAt = some (ofLex e.1).2
  sum : weighedList (fun _ => 1) l = line.minorUnits

variable {r : CartRequest}

theorem categoryPeriodKey_month {categoryId purchaseAt : String}
    {key : CategoryKey} (h : categoryPeriodKey r categoryId purchaseAt = .ok key) :
    monthOf purchaseAt = some (ofLex key).2 := by
  simp only [categoryPeriodKey, bind_ok, orStop_ok, pure_ok, Except.ok.injEq] at h
  obtain ⟨month, hmonth, facts, -, category, hcategory, rfl⟩ := h
  rw [hmonth, ← (categoryFactForPeriod_some hcategory).2.2]
  rfl

/-- What is kept of the allocations read so far. -/
structure AllocatingInv (item : DecisionCardItem) (done : List DecisionCardCategoryAllocation)
    (s : Allocating) : Prop where
  length : s.normalized.length = done.length
  positive : ∀ e ∈ s.normalized, 0 < (e.2 : Int)
  month : ∀ e ∈ s.normalized, monthOf item.purchaseAt = some (ofLex e.1).2
  sum : weighedList (fun _ => 1) s.normalized = s.sum

theorem readAllocation_inv {item : DecisionCardItem} {currency : String}
    {done : List DecisionCardCategoryAllocation} {s s' : Allocating}
    {a : DecisionCardCategoryAllocation} (hs : AllocatingInv item done s)
    (h : readAllocation r item currency s a = .ok s') : AllocatingInv item (done ++ [a]) s' := by
  simp only [readAllocation, bind_ok, reject_ok, pure_ok, Except.ok.injEq,
    or_eq_false_iff, decide_eq_false_iff_not, not_le] at h
  obtain ⟨-, ⟨-, hpos⟩, key, hkey, sum, hsum, rfl⟩ := h
  constructor
  · simp [hs.length]
  · intro e he
    rcases mem_append.mp he with he | he
    · exact hs.positive e he
    · rw [mem_singleton.mp he]
      exact hpos
  · intro e he
    rcases mem_append.mp he with he | he
    · exact hs.month e he
    · rw [mem_singleton.mp he]
      exact categoryPeriodKey_month hkey
  · rw [weighedList_append, hs.sum, add_eq_ok.mp hsum]
    simp

theorem itemAllocations_ok {item : DecisionCardItem} {line : Money}
    {l : List (CategoryKey × I64)} (hline : 0 < (line.minorUnits : Int))
    (h : itemAllocations r item line = .ok l) : Allocated item line l := by
  unfold itemAllocations at h
  split at h
  · rename_i raw _
    simp only [bind_ok, reject_ok, pure_ok, Except.ok.injEq] at h
    obtain ⟨-, hraw, s, hs, -, hsum, rfl⟩ := h
    have hstart : AllocatingInv item [] ⟨[], 0, []⟩ :=
      ⟨rfl, fun e he => absurd he not_mem_nil, fun e he => absurd he not_mem_nil, rfl⟩
    have hinv := foldlM_run (fun done b b' a hb hstep => readAllocation_inv hb hstep) hstart hs
    refine ⟨fun hnil => ?_, hinv.positive, hinv.month, ?_⟩
    · have hlength := hinv.length
      rw [hnil, length_nil] at hlength
      rw [length_eq_zero_iff.mp hlength.symm] at hraw
      cases hraw
    · rw [hinv.sum, bne_eq_false_iff_eq.mp hsum]
  · simp only [bind_ok, pure_ok, Except.ok.injEq] at h
    obtain ⟨key, hkey, rfl⟩ := h
    refine ⟨by simp, fun e he => ?_, fun e he => ?_, by simp⟩
    · rw [mem_singleton.mp he]
      exact hline
    · rw [mem_singleton.mp he]
      exact categoryPeriodKey_month hkey

/-- What is kept of the items read so far. -/
structure CartingInv (done : List (DecisionCardItem × LiquidityPurchaseItem)) (s : Carting) :
    Prop where
  allocated : List.Forall₂ (fun e l => Allocated e.1 e.2.amount l) done s.categoryAllocations
  totals : ∀ w, weighed w s.categoryTotals = weighedList w s.categoryAllocations.flatten
  subtotal : weighedList (fun _ => 1) s.categoryAllocations.flatten = s.subtotal
  currency : ∀ e ∈ done, s.currency = some e.2.amount.currency
  opened : s.currency.isSome → done ≠ []

theorem readItem_inv {done : List (DecisionCardItem × LiquidityPurchaseItem)}
    {s s' : Carting} {entry : DecisionCardItem × LiquidityPurchaseItem} (hs : CartingInv done s)
    (h : readItem r s entry = .ok s') : CartingInv (done ++ [entry]) s' := by
  simp only [readItem, bind_ok, reject_ok, pure_ok, Except.ok.injEq,
    decide_eq_false_iff_not, not_le] at h
  obtain ⟨-, -, -, hpos, -, hcurrency, subtotal, hsubtotal, l, hl, -, -, totals, htotals, rfl⟩ := h
  have hallocated := itemAllocations_ok hpos hl
  have hsame : s.currency.getD entry.2.amount.currency = entry.2.amount.currency := by
    cases hc : s.currency with
    | none => rfl
    | some c =>
      rw [hc] at hcurrency
      simpa using hcurrency
  constructor
  · exact List.rel_append hs.allocated (.cons hallocated .nil)
  · intro w
    rw [weighed_foldlM_addTo w htotals, hs.totals w, List.flatten_append, weighedList_append]
    simp
  · rw [List.flatten_append, weighedList_append, hs.subtotal, List.flatten_singleton,
      hallocated.sum, add_eq_ok.mp hsubtotal]
  · intro e he
    rw [hsame]
    rcases mem_append.mp he with he | he
    · have := hs.currency e he
      rw [this] at hsame
      exact congrArg some hsame.symm
    · rw [mem_singleton.mp he]
  · exact fun _ => by simp

/-! ## Adjustments -/

/-- What is kept of the adjustments read so far. -/
structure AdjustingInv (allocations : List (List (CategoryKey × I64))) (s : Adjusting) : Prop where
  signed : weighedList (fun _ => 1) s.signed = s.tax + s.fee - s.discount
  nonneg : 0 ≤ (s.tax : Int) ∧ 0 ≤ (s.fee : Int) ∧ 0 ≤ (s.discount : Int)
  keys : ∀ e ∈ s.signed, ∃ item ∈ allocations, ∃ a ∈ item, a.1 = e.1

theorem coe_checkedNeg {n k : I64} (h : n.checkedNeg = some k) : (k : Int) = -n := by
  unfold I64.checkedNeg at h
  split at h
  · rw [← Option.some.inj h]
  · cases h

theorem signAdjustment_ok {s s' : Adjusting} {kind : String} {key : CategoryKey} {amount : I64}
    (h : signAdjustment s kind key amount = .ok s') :
    ∃ n : I64, s'.signed = s.signed ++ [(key, n)] ∧
      ((s'.tax : Int) + s'.fee - s'.discount = s.tax + s.fee - s.discount + n) ∧
      (0 < (amount : Int) → (s.tax : Int) ≤ s'.tax ∧ (s.fee : Int) ≤ s'.fee ∧
        (s.discount : Int) ≤ s'.discount) := by
  unfold signAdjustment at h
  split at h
  · obtain ⟨tax, htax, h⟩ := bind_ok.mp h
    cases h
    have htax := add_eq_ok.mp htax
    exact ⟨amount, rfl, by dsimp only; omega, fun _ => by dsimp only; omega⟩
  split at h
  · obtain ⟨fee, hfee, h⟩ := bind_ok.mp h
    cases h
    have hfee := add_eq_ok.mp hfee
    exact ⟨amount, rfl, by dsimp only; omega, fun _ => by dsimp only; omega⟩
  split at h
  · obtain ⟨discount, hdiscount, h⟩ := bind_ok.mp h
    obtain ⟨negated, hnegated, h⟩ := bind_ok.mp h
    cases h
    have hdiscount := add_eq_ok.mp hdiscount
    have hnegated := coe_checkedNeg (orStop_ok.mp hnegated)
    exact ⟨negated, rfl, by dsimp only; omega, fun _ => by dsimp only; omega⟩
  · cases h

theorem readAdjustment_inv {currency : String}
    {allocations : List (List (CategoryKey × I64))} {s s' : Adjusting} {a : DecisionCardAdjustment}
    (hs : AdjustingInv allocations s) (h : readAdjustment r currency allocations s a = .ok s') :
    AdjustingInv allocations s' := by
  simp only [readAdjustment, bind_ok, reject_ok, or_eq_false_iff,
    decide_eq_false_iff_not, not_le, not_eq_false'] at h
  obtain ⟨-, ⟨-, hpos⟩, key, -, -, -, -, hkey, h⟩ := h
  obtain ⟨n, hsigned, hsum, hgrow⟩ := signAdjustment_ok h
  obtain ⟨htax, hfee, hdiscount⟩ := hgrow hpos
  refine ⟨?_, ⟨hs.nonneg.1.trans htax, hs.nonneg.2.1.trans hfee, hs.nonneg.2.2.trans hdiscount⟩,
    fun e he => ?_⟩
  · rw [hsigned, weighedList_append, hs.signed, hsum]
    simp
  · rw [hsigned] at he
    rcases mem_append.mp he with he | he
    · exact hs.keys e he
    · rw [mem_singleton.mp he]
      obtain ⟨item, hitem, hany⟩ := any_eq_true.mp hkey
      obtain ⟨a, ha, hsame⟩ := any_eq_true.mp hany
      exact ⟨item, hitem, a, ha, eq_of_beq hsame⟩

/-! ## A cart that was read -/

/-- What reading a cart establishes. -/
structure Read (r : CartRequest) (base : List LiquidityPurchaseItem) (c : ReadCart) : Prop where
  lengths : base.length = r.items.length
  items : CartingInv (r.items.zip base) c.cart
  nonempty : r.items.zip base ≠ []
  currency : ∀ e ∈ r.items.zip base, e.2.amount.currency = c.currency
  adjusting : AdjustingInv c.cart.categoryAllocations c.adjusting

theorem readCart_ok {base : List LiquidityPurchaseItem} {c : ReadCart}
    (h : readCart r base = .ok c) : Read r base c := by
  simp only [readCart, bind_ok, reject_ok, pure_ok, Except.ok.injEq,
    or_eq_false_iff, bne_eq_false_iff_eq, orStop_ok] at h
  obtain ⟨-, ⟨hlengths, -⟩, cart, hcart, currency, hcurrency, adjusting, hadjusting, rfl⟩ := h
  have hstart : CartingInv [] ⟨none, 0, SortedMap.empty, []⟩ :=
    ⟨.nil, fun _ => rfl, rfl, fun e he => absurd he not_mem_nil, fun h => by cases h⟩
  have hinv := foldlM_run (fun done b b' a hb hstep => readItem_inv hb hstep) hstart hcart
  have hopened := hinv.opened (by rw [hcurrency]; rfl)
  refine ⟨hlengths, hinv, hopened, fun e he => ?_, foldlM_inv (fun b b' a _ hb hstep =>
    readAdjustment_inv hb hstep) ⟨rfl, by simp, fun e he => absurd he not_mem_nil⟩ hadjusting⟩
  rw [hinv.currency e he] at hcurrency
  exact Option.some.inj hcurrency

/-! ## Net charges -/

theorem netCharge_weighed {totals totals' : Charges} {e : CategoryKey × I64}
    (h : netCharge totals e = .ok totals') (w : CategoryKey → Int) :
    weighed w totals' = weighed w totals + w e.1 * e.2 := by
  simp only [netCharge, bind_ok, pure_ok, Except.ok.injEq] at h
  obtain ⟨after, hafter, -, -, rfl⟩ := h
  have hafter : (after : Int) = unitsAt totals e.1 + e.2 := add_eq_ok.mp hafter
  rw [weighed_insert, hafter]
  ring

theorem foldlM_netCharge_weighed (w : CategoryKey → Int) :
    ∀ {l : List (CategoryKey × I64)} {totals totals' : Charges},
      l.foldlM netCharge totals = .ok totals' →
        weighed w totals' = weighed w totals + weighedList w l
  | [], _, _, h => by
    cases h
    simp
  | e :: l, totals, totals', h => by
    obtain ⟨c, hc, h⟩ := foldlM_cons_ok.mp h
    rw [foldlM_netCharge_weighed w h, netCharge_weighed hc w, weighedList_cons]
    ring

theorem foldlM_add_ok : ∀ {l : List I64} {start sum : I64}, l.foldlM add start = .ok sum →
    (sum : Int) = start + (l.map fun n : I64 => (n : Int)).sum
  | [], start, sum, h => by
    cases h
    simp
  | n :: l, start, sum, h => by
    obtain ⟨c, hc, h⟩ := foldlM_cons_ok.mp h
    rw [foldlM_add_ok h, add_eq_ok.mp hc, List.map_cons, List.sum_cons]
    omega

/-- What settling a cart establishes. -/
structure Settled (c : ReadCart) (adjustments totals : Charges) (total : I64) : Prop where
  netted : adjustmentTotals c = .ok adjustments
  signed : ∀ w, weighed w adjustments = weighedList w c.adjusting.signed
  charges : ∀ w, weighed w totals = weighed w c.cart.categoryTotals + weighed w adjustments
  amount : (total : Int) = c.cart.subtotal + c.adjusting.tax + c.adjusting.fee - c.adjusting.discount
  sum : weighed (fun _ => 1) totals = total

theorem settleCart_ok {c : ReadCart} {totals : Charges} {total : I64}
    (h : settleCart c = .ok (totals, total)) : ∃ adjustments, Settled c adjustments totals total := by
  simp only [settleCart, bind_ok, reject_ok, pure_ok, Except.ok.injEq,
    Prod.mk.injEq] at h
  obtain ⟨adjustments, hadjustments, totals', htotals, total', htotal, -, -, sum, hsum, -, hsame,
    rfl, rfl⟩ := h
  have hsigned : ∀ w, weighed w adjustments = weighedList w c.adjusting.signed := fun w => by
    have hsigned := weighed_foldlM_addTo w hadjustments
    rwa [weighed_empty, Int.zero_add] at hsigned
  refine ⟨adjustments, hadjustments, hsigned, fun w => foldlM_netCharge_weighed w htotals, ?_, ?_⟩
  · simp only [cartTotal, bind_ok] at htotal
    obtain ⟨charged, hcharged, fees, hfees, htotal⟩ := htotal
    have h₁ := add_eq_ok.mp hcharged
    have h₂ := sub_eq_ok.mp hfees
    have h₃ := add_eq_ok.mp htotal
    omega
  · rw [weighed_one, ← bne_eq_false_iff_eq.mp hsame, foldlM_add_ok hsum, I64.coe_zero, Int.zero_add]

end BalanceFrame.Decision

/-!
## The lines of a cart

What `distribute` makes of a cart that was read: each item's group is its lines, every line is
positive, and for every weight of the categories the lines weigh what the allocations and the
adjustments do (`distribute_ok`).
-/

namespace BalanceFrame.Decision

open Library Liquidity

variable {r : CartRequest} {base : List LiquidityPurchaseItem} {c : ReadCart} {currency : String}

/-! ## Lines -/

/-- The category and the month of a line. -/
def lineKey (line : LiquidityPurchaseItem) : Option CategoryKey :=
  (monthOf line.purchaseAt).map fun month => toLex (line.categoryId, month)

/-- The weight of a line's key. -/
def lineWeight (w : CategoryKey → Int) (line : LiquidityPurchaseItem) : Int :=
  (lineKey line).elim 0 w

/-- The weighted sum of lines. -/
def lineSum (w : CategoryKey → Int) (lines : List LiquidityPurchaseItem) : Int :=
  (lines.map fun line => lineWeight w line * line.amount.minorUnits).sum

variable (w : CategoryKey → Int)

@[simp] theorem lineSum_nil : lineSum w [] = 0 := rfl

@[simp] theorem lineSum_cons (line : LiquidityPurchaseItem) (lines : List LiquidityPurchaseItem) :
    lineSum w (line :: lines) = lineWeight w line * line.amount.minorUnits + lineSum w lines := by
  unfold lineSum
  rw [List.map_cons, List.sum_cons]

theorem lineSum_append (lines lines' : List LiquidityPurchaseItem) :
    lineSum w (lines ++ lines') = lineSum w lines + lineSum w lines' := by
  unfold lineSum
  rw [List.map_append, List.sum_append]

/-- A line of an item: positive, in the cart's currency, bought as the item is. -/
structure LineOf (item : DecisionCardItem) (currency : String) (line : LiquidityPurchaseItem) :
    Prop where
  positive : 0 < (line.amount.minorUnits : Int)
  currency : line.amount.currency = currency
  purchaseAt : line.purchaseAt = item.purchaseAt
  requiredBy : line.requiredBy = item.requiredBy
  routeSelection : line.routeSelection = item.routeSelection
  key : (lineKey line).isSome

/-- The lines of an item: one for each of its allocations, under the identities of their places. -/
structure LinesOf (item : DecisionCardItem) (currency : String) (count : Nat)
    (lines : List LiquidityPurchaseItem) : Prop where
  ids : lines.map (·.id) = (List.range count).map (lineId item count)
  lines : ∀ line ∈ lines, LineOf item currency line

/-! ## Charging -/

theorem chargeLine_ok {item : DecisionCardItem} {count : Nat}
    {s out : Grouping} {entry : (CategoryKey × I64) × Nat}
    (hmonth : monthOf item.purchaseAt = some (ofLex entry.1.1).2)
    (h : chargeLine item currency count s entry = .ok out) :
    ∃ line, out.engineItems = s.engineItems ++ [line] ∧ out.group = s.group ++ [line.id] ∧
      line.id = lineId item count entry.2 ∧ LineOf item currency line ∧
      ∀ w, weighed w out.remaining + lineWeight w line * line.amount.minorUnits =
        weighed w s.remaining + w entry.1.1 * entry.1.2 := by
  simp only [chargeLine, bind_ok, reject_ok, pure_ok, Except.ok.injEq,
    decide_eq_false_iff_not, not_le] at h
  obtain ⟨left, hleft, adjusted, hadjusted, -, hpos, rfl⟩ := h
  have hleft := sub_eq_ok.mp hleft
  have hadjusted := add_eq_ok.mp hadjusted
  have hkey : (monthOf item.purchaseAt).map (fun month =>
      (toLex ((ofLex entry.1.1).1, month) : CategoryKey)) = some entry.1.1 := by
    rw [hmonth]
    rfl
  refine ⟨_, rfl, rfl, rfl, ⟨hpos, rfl, rfl, rfl, rfl, ?_⟩, fun w => ?_⟩
  · unfold lineKey
    rw [hkey]
    rfl
  · unfold lineWeight lineKey
    rw [hkey, weighed_insert, hleft]
    dsimp only [Option.elim]
    rw [hadjusted]
    unfold unitsAt
    ring

theorem chargeLines_ok {item : DecisionCardItem} {count : Nat} :
    ∀ {l : List (CategoryKey × I64)} {k : Nat} {s out : Grouping},
      (∀ e ∈ l, monthOf item.purchaseAt = some (ofLex e.1).2) →
      (l.zipIdx k).foldlM (chargeLine item currency count) s = .ok out →
        ∃ lines, out.engineItems = s.engineItems ++ lines ∧
          out.group = s.group ++ lines.map (·.id) ∧
          lines.map (·.id) = (List.range' k l.length).map (lineId item count) ∧
          (∀ line ∈ lines, LineOf item currency line) ∧
          ∀ w, weighed w out.remaining + lineSum w lines =
            weighed w s.remaining + weighedList w l
  | [], k, s, out, _, h => by
    cases h
    exact ⟨[], by simp, by simp, by simp, by simp, by simp⟩
  | e :: l, k, s, out, hmonth, h => by
    obtain ⟨c, hc, h⟩ := foldlM_cons_ok.mp h
    obtain ⟨line, hitems, hgroup, hid, hline, hweighed⟩ :=
      chargeLine_ok (hmonth e List.mem_cons_self) hc
    obtain ⟨lines, hitems', hgroup', hids, hlines, hweighed'⟩ :=
      chargeLines_ok (fun x hx => hmonth x (List.mem_cons_of_mem _ hx)) h
    refine ⟨line :: lines, ?_, ?_, ?_, ?_, fun w => ?_⟩
    · rw [hitems', hitems, List.append_assoc, List.singleton_append]
    · rw [hgroup', hgroup, List.append_assoc, List.singleton_append, List.map_cons]
    · rw [List.map_cons, hids, hid, List.length_cons, List.range'_succ, List.map_cons]
    · exact List.forall_mem_cons.mpr ⟨hline, hlines⟩
    · rw [lineSum_cons, weighedList_cons]
      have h₁ := hweighed w
      have h₂ := hweighed' w
      dsimp only at h₁
      omega

/-- An item, its engine item and its allocations. -/
abbrev Entry := (DecisionCardItem × LiquidityPurchaseItem) × List (CategoryKey × I64)

/-- What is kept of the items charged so far. -/
def Charged (start : Charges) (currency : String) (done : List Entry) (s : Distributing) : Prop :=
  ∃ lines : List (List LiquidityPurchaseItem), s.engineItems = lines.flatten ∧
    s.groups = lines.map (·.map (·.id)) ∧
    List.Forall₂ (fun e ls => LinesOf e.1.1 currency e.2.length ls) done lines ∧
    ∀ w, weighed w s.remaining + lineSum w lines.flatten =
      weighed w start + weighedList w (done.map (·.2)).flatten

theorem chargeItem_charged {start : Charges} {done : List Entry}
    {s s' : Distributing} {e : Entry} (hs : Charged start currency done s)
    (hmonth : ∀ a ∈ e.2, monthOf e.1.1.purchaseAt = some (ofLex a.1).2)
    (hcurrency : e.1.2.amount.currency = currency) (h : chargeItem s e = .ok s') :
    Charged start currency (done ++ [e]) s' := by
  obtain ⟨lines, hitems, hgroups, hlines, hweighed⟩ := hs
  obtain ⟨out, hout, h⟩ := bind_ok.mp h
  cases h
  obtain ⟨new, hitems', hgroup, hids, hnew, hweighed'⟩ := chargeLines_ok hmonth hout
  rw [hcurrency] at hnew
  refine ⟨lines ++ [new], ?_, ?_, ?_, fun w => ?_⟩
  · rw [List.flatten_append, List.flatten_singleton, ← hitems]
    exact hitems'
  · rw [List.map_append, ← hgroups, List.map_singleton]
    dsimp only
    rw [hgroup, List.nil_append]
  · refine List.rel_append hlines (.cons ⟨?_, hnew⟩ .nil)
    rw [hids, List.range_eq_range']
  · rw [List.flatten_append, List.flatten_singleton, lineSum_append, List.map_append,
      List.flatten_append, weighedList_append]
    have h₁ := hweighed w
    have h₂ := hweighed' w
    simp only [List.map_cons, List.map_nil, List.flatten_singleton]
    dsimp only at h₂ ⊢
    omega

/-! ## The distribution -/

/-- The entries that are charged. -/
def entries (r : CartRequest) (base : List LiquidityPurchaseItem) (c : ReadCart) : List Entry :=
  (r.items.zip base).zip c.cart.categoryAllocations

theorem Read.entry (hread : Read r base c) {e : Entry} (he : e ∈ entries r base c) :
    Allocated e.1.1 e.1.2.amount e.2 ∧ e.1.2.amount.currency = c.currency :=
  ⟨List.forall₂_zip hread.items.allocated he, hread.currency e.1 (List.of_mem_zip he).1⟩

theorem Read.entries_allocations (hread : Read r base c) :
    (entries r base c).map (·.2) = c.cart.categoryAllocations := by
  unfold entries
  rw [List.map_snd_zip hread.items.allocated.length_eq.ge]

theorem Read.entries_items (hread : Read r base c) : (entries r base c).map (·.1.1) = r.items := by
  unfold entries
  have hfirst : (fun e : Entry => e.1.1) = Prod.fst ∘ Prod.fst := rfl
  rw [hfirst, ← List.map_map, List.map_fst_zip hread.items.allocated.length_eq.le,
    List.map_fst_zip hread.lengths.ge]

/-- **What a distribution charges**: with nothing left of the adjustments, the lines weigh what the
allocations and the adjustments do. -/
theorem distribute_ok {adjustments : Charges} {d : Distributing} (hread : Read r base c)
    (hadjustments : adjustmentTotals c = .ok adjustments) (h : distribute r base c = .ok d) :
    ∃ lines : List (List LiquidityPurchaseItem), d.engineItems = lines.flatten ∧
      d.groups = lines.map (·.map (·.id)) ∧
      List.Forall₂ (fun e ls => LinesOf e.1.1 c.currency e.2.length ls) (entries r base c) lines ∧
      ∀ w, lineSum w d.engineItems =
        weighed w adjustments + weighedList w c.cart.categoryAllocations.flatten := by
  simp only [distribute, bind_ok, reject_ok, pure_ok, Except.ok.injEq] at h
  obtain ⟨adjustments', hsame, d', hfold, -, hzero, rfl⟩ := h
  obtain rfl : adjustments = adjustments' := Except.ok.inj (hadjustments.symm.trans hsame)
  have hstart : Charged adjustments c.currency [] ⟨adjustments, [], []⟩ :=
    ⟨[], rfl, rfl, .nil, fun w => by simp⟩
  have hcharged : Charged adjustments c.currency (entries r base c) d' :=
    foldlM_runAt (P := Charged adjustments c.currency)
      (fun done a rest b b' hl hb hstep => by
        have hmem : a ∈ entries r base c := by
          rw [hl]
          simp
        have hentry := hread.entry hmem
        exact chargeItem_charged hb hentry.1.month hentry.2 hstep) hstart hfold
  obtain ⟨lines, hitems, hgroups, hlines, hweighed⟩ := hcharged
  refine ⟨lines, hitems, hgroups, hlines, fun w => ?_⟩
  have hw := hweighed w
  rw [weighed_of_zero w hzero, hread.entries_allocations, Int.zero_add, ← hitems] at hw
  exact hw

end BalanceFrame.Decision
