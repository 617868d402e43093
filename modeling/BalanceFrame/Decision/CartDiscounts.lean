import BalanceFrame.Decision.CartLines

/-!
# Discounts that fit

A discount is spread over the lines of its category, and each line keeps one unit. `Spread` says
when the lines ahead can take what is left of an adjustment; every line charged keeps it
(`chargeLine_spread`), and where no lines are ahead nothing is left.
-/

namespace BalanceFrame.Decision

open Library Liquidity List

/-! ## Amounts at one key -/

/-- The weight of one key. -/
def pick (key : CategoryKey) : CategoryKey → Int := fun q => if q = key then 1 else 0

/-- The number of entries at a key. -/
def linesAt (l : List (CategoryKey × I64)) (key : CategoryKey) : Nat := l.countP (·.1 = key)

theorem weighedList_pick_cons (key : CategoryKey) (e : CategoryKey × I64)
    (l : List (CategoryKey × I64)) : weighedList (pick key) (e :: l) =
      (if e.1 = key then (e.2 : Int) else 0) + weighedList (pick key) l := by
  rw [weighedList_cons]
  unfold pick
  split <;> simp

theorem linesAt_cons (key : CategoryKey) (e : CategoryKey × I64) (l : List (CategoryKey × I64)) :
    (linesAt (e :: l) key : Int) = (if e.1 = key then 1 else 0) + linesAt l key := by
  unfold linesAt
  rw [countP_cons]
  by_cases h : e.1 = key <;> simp [h, add_comm]

theorem weighedList_pick_nonneg {l : List (CategoryKey × I64)} (h : ∀ e ∈ l, 0 < (e.2 : Int))
    (key : CategoryKey) : (linesAt l key : Int) ≤ weighedList (pick key) l := by
  induction l with
  | nil => exact le_refl _
  | cons e l ih =>
    have he := h e mem_cons_self
    have hl := ih fun x hx => h x (mem_cons_of_mem _ hx)
    rw [weighedList_pick_cons, linesAt_cons]
    split <;> omega

section Entries

variable {κ : Type}

/-- What the entries add, and what they take. -/
def charges (l : List (κ × I64)) : Int := (l.map fun e => max 0 (e.2 : Int)).sum

def credits (l : List (κ × I64)) : Int := (l.map fun e => max 0 (-(e.2 : Int))).sum

theorem charges_cons (e : κ × I64) (l : List (κ × I64)) :
    charges (e :: l) = max 0 (e.2 : Int) + charges l := by
  unfold charges
  rw [map_cons, sum_cons]

theorem credits_cons (e : κ × I64) (l : List (κ × I64)) :
    credits (e :: l) = max 0 (-(e.2 : Int)) + credits l := by
  unfold credits
  rw [map_cons, sum_cons]

theorem charges_nonneg (l : List (κ × I64)) : 0 ≤ charges l ∧ 0 ≤ credits l := by
  induction l with
  | nil => exact ⟨le_refl _, le_refl _⟩
  | cons e l ih =>
    rw [charges_cons, credits_cons]
    omega

theorem exists_addTo [LinearOrder κ] {reason : String} :
    ∀ {l : List (κ × I64)} {amounts : SortedMap κ I64},
      (∀ k, -9223372036854775808 ≤ unitsAt amounts k - credits l ∧
        unitsAt amounts k + charges l ≤ 9223372036854775807) →
        ∃ amounts', l.foldlM (addTo reason) amounts = .ok amounts'
  | [], amounts, _ => ⟨amounts, rfl⟩
  | e :: l, amounts, h => by
    have hrest := charges_nonneg l
    have hfits : InI64 (unitsAt amounts e.1 + e.2) := by
      have := h e.1
      rw [charges_cons, credits_cons] at this
      unfold InI64
      omega
    have hstep : addTo reason amounts e = .ok (amounts.insert e.1 ⟨_, hfits⟩) :=
      addTo_ok.mpr ⟨⟨_, hfits⟩, rfl, rfl⟩
    have hahead : ∀ k, -9223372036854775808 ≤
        unitsAt (amounts.insert e.1 ⟨_, hfits⟩) k - credits l ∧
          unitsAt (amounts.insert e.1 ⟨_, hfits⟩) k + charges l ≤ 9223372036854775807 := by
      intro k
      have := h k
      rw [charges_cons, credits_cons] at this
      rw [unitsAt_insert]
      by_cases hk : e.1 = k
      · subst hk
        rw [if_pos rfl]
        dsimp only
        omega
      · rw [if_neg hk]
        omega
    obtain ⟨amounts', hl⟩ := exists_addTo hahead
    exact ⟨amounts', foldlM_cons_ok.mpr ⟨_, hstep, hl⟩⟩

end Entries

theorem weighedList_pick_le (l : List (CategoryKey × I64)) (key : CategoryKey) :
    -credits l ≤ weighedList (pick key) l ∧ weighedList (pick key) l ≤ charges l := by
  induction l with
  | nil => exact ⟨le_refl _, le_refl _⟩
  | cons e l ih =>
    rw [weighedList_pick_cons, charges_cons, credits_cons]
    split <;> omega

theorem isSome_foldlM_addCharge : ∀ {l : List (CategoryKey × I64)} {amounts amounts' : Charges},
    l.foldlM addCharge amounts = .ok amounts' → ∀ k,
      (amounts'.get? k).isSome → (amounts.get? k).isSome ∨ ∃ e ∈ l, e.1 = k
  | [], _, _, h, k, hk => by
    cases h
    exact .inl hk
  | e :: l, amounts, amounts', h, k, hk => by
    obtain ⟨c, hc, h⟩ := foldlM_cons_ok.mp h
    obtain ⟨n, -, rfl⟩ := addTo_ok.mp hc
    rcases isSome_foldlM_addCharge h k hk with hk | ⟨x, hx, rfl⟩
    · rw [SortedMap.get?_insert] at hk
      split at hk
      · rename_i hke
        exact .inr ⟨e, mem_cons_self, hke⟩
      · exact .inl hk
    · exact .inr ⟨x, mem_cons_of_mem _ hx, rfl⟩

/-! ## Spreading an adjustment -/

/-- The lines ahead can take what is left of an adjustment. -/
structure Spread (remaining : Charges) (ahead : List (CategoryKey × I64)) : Prop where
  discount : ∀ k, unitsAt remaining k < 0 →
    (linesAt ahead k : Int) ≤ weighedList (pick k) ahead + unitsAt remaining k
  charge : ∀ k, 0 < unitsAt remaining k → (∃ e ∈ ahead, e.1 = k) ∧
    weighedList (pick k) ahead + unitsAt remaining k ≤ 9223372036854775807

theorem Spread.done {remaining : Charges} (h : Spread remaining []) (k : CategoryKey) :
    unitsAt remaining k = 0 := by
  have hd := h.discount k
  have hc := h.charge k
  rw [weighedList_nil] at hd hc
  have hnone : (linesAt [] k : Int) = 0 := rfl
  rw [hnone] at hd
  rcases lt_trichotomy (unitsAt remaining k) 0 with hlt | heq | hgt
  · have := hd hlt
    omega
  · exact heq
  · obtain ⟨⟨e, he, -⟩, -⟩ := hc hgt
    exact absurd he not_mem_nil

theorem coe_lineAdjustment (remaining : I64) {amount : I64} (hamount : 0 < (amount : Int)) :
    (lineAdjustment remaining amount : Int) =
      if (remaining : Int) < 0 then max (remaining : Int) (1 - amount) else remaining := by
  have hwrap : (I64.wrap (1 - amount) : Int) = 1 - amount :=
    I64.coe_wrap (by have := amount.2; unfold InI64 at this ⊢; omega)
  unfold lineAdjustment
  rw [hwrap]
  by_cases hneg : (remaining : Int) < 0
  · rw [if_pos hneg, if_pos hneg]
    by_cases hle : (remaining : Int) ≤ 1 - amount
    · rw [if_pos hle, hwrap, max_eq_right hle]
    · rw [if_neg hle, max_eq_left (by omega)]
  · rw [if_neg hneg, if_neg hneg]

theorem chargeLine_spread {item : DecisionCardItem} {currency : String} {count index : Nat}
    {s : Grouping} {e : CategoryKey × I64} {ahead : List (CategoryKey × I64)}
    (hpositive : ∀ x ∈ e :: ahead, 0 < (x.2 : Int)) (h : Spread s.remaining (e :: ahead)) :
    ∃ out, chargeLine item currency count s (e, index) = .ok out ∧ Spread out.remaining ahead := by
  have hamount := hpositive e mem_cons_self
  have hahead := weighedList_pick_nonneg
    (fun x hx => hpositive x (mem_cons_of_mem _ hx)) e.1
  have hdiscount := h.discount e.1
  have hcharge := h.charge e.1
  rw [weighedList_pick_cons, if_pos rfl] at hdiscount hcharge
  rw [linesAt_cons, if_pos rfl] at hdiscount
  have hlines : (0 : Int) ≤ linesAt ahead e.1 := Int.natCast_nonneg _
  have hrange := (lineAdjustment ((s.remaining.get? e.1).getD 0) e.2).2
  have hadjustment := coe_lineAdjustment ((s.remaining.get? e.1).getD 0) hamount
  have hunits : (((s.remaining.get? e.1).getD 0 : I64) : Int) = unitsAt s.remaining e.1 := rfl
  rw [hunits] at hadjustment
  have hvalue := ((s.remaining.get? e.1).getD 0).2
  rw [hunits] at hvalue
  have hmax := e.2.2
  unfold InI64 at hrange hvalue hmax
  obtain ⟨left, hleft, hleftv⟩ := exists_sub_ok (a := (s.remaining.get? e.1).getD 0)
    (b := lineAdjustment ((s.remaining.get? e.1).getD 0) e.2) (by
      rw [hunits, hadjustment]
      unfold InI64
      split <;> omega)
  rw [hunits, hadjustment] at hleftv
  obtain ⟨adjusted, hadjusted, hadjustedv⟩ := exists_add_ok (a := e.2)
    (b := lineAdjustment ((s.remaining.get? e.1).getD 0) e.2) (by
      rw [hadjustment]
      unfold InI64
      split
      · omega
      · rcases (not_lt.mp ‹_›).lt_or_eq with hpos | hzero
        · have := (hcharge hpos).2
          omega
        · omega)
  rw [hadjustment] at hadjustedv
  have hpositive' : 0 < (adjusted : Int) := by
    rw [hadjustedv]
    split <;> omega
  have hresult : chargeLine item currency count s (e, index) = .ok
      { remaining := s.remaining.insert e.1 left
        group := s.group ++ [lineId item count index]
        engineItems := s.engineItems ++ [{
          id := lineId item count index, categoryId := (ofLex e.1).1
          amount := ⟨adjusted, currency⟩, purchaseAt := item.purchaseAt
          requiredBy := item.requiredBy, routeSelection := item.routeSelection }] } := by
    unfold chargeLine
    dsimp only
    rw [hleft, ok_bind, hadjusted, ok_bind, decide_eq_false (not_le.mpr hpositive'), reject_false,
      ok_bind]
    rfl
  refine ⟨_, hresult, ⟨fun k hk => ?_, fun k hk => ?_⟩⟩
  · rw [unitsAt_insert] at hk ⊢
    by_cases hkey : e.1 = k
    · subst hkey
      rw [if_pos rfl] at hk ⊢
      split at hleftv
      · have := hdiscount ‹_›
        omega
      · omega
    · rw [if_neg hkey] at hk ⊢
      have := h.discount k hk
      rw [linesAt_cons, weighedList_pick_cons, if_neg hkey, if_neg hkey] at this
      omega
  · rw [unitsAt_insert] at hk ⊢
    by_cases hkey : e.1 = k
    · subst hkey
      rw [if_pos rfl] at hk
      split at hleftv <;> omega
    · rw [if_neg hkey] at hk ⊢
      obtain ⟨⟨x, hx, hxk⟩, hfits⟩ := h.charge k hk
      rw [weighedList_pick_cons, if_neg hkey] at hfits
      rcases mem_cons.mp hx with rfl | hx
      · exact absurd hxk hkey
      · exact ⟨⟨x, hx, hxk⟩, by omega⟩

theorem chargeLines_spread {item : DecisionCardItem} {currency : String} {count : Nat} :
    ∀ {l ahead : List (CategoryKey × I64)} {k : Nat} {s : Grouping},
      (∀ x ∈ l ++ ahead, 0 < (x.2 : Int)) → Spread s.remaining (l ++ ahead) →
        ∃ out, (l.zipIdx k).foldlM (chargeLine item currency count) s = .ok out ∧
          Spread out.remaining ahead
  | [], ahead, k, s, _, h => ⟨s, rfl, h⟩
  | e :: l, ahead, k, s, hpositive, h => by
    have hone : ∃ c, chargeLine item currency count s (e, k) = .ok c ∧
        Spread c.remaining (l ++ ahead) := chargeLine_spread hpositive h
    obtain ⟨c, hc, hspread⟩ := hone
    obtain ⟨out, hout, hrest⟩ := chargeLines_spread (l := l) (k := k + 1)
      (fun x hx => hpositive x (mem_cons_of_mem _ hx)) hspread
    exact ⟨out, foldlM_cons_ok.mpr ⟨c, hc, hout⟩, hrest⟩

theorem chargeItems_spread : ∀ {l : List Entry} {s : Distributing},
    (∀ x ∈ (l.map (·.2)).flatten, 0 < (x.2 : Int)) →
      Spread s.remaining (l.map (·.2)).flatten →
        ∃ out, l.foldlM chargeItem s = .ok out ∧ Spread out.remaining []
  | [], s, _, h => ⟨s, rfl, h⟩
  | e :: l, s, hpositive, h => by
    rw [map_cons, flatten_cons] at hpositive h
    have hlines : ∃ out, e.2.zipIdx.foldlM
        (chargeLine e.1.1 e.1.2.amount.currency e.2.length) ⟨s.remaining, s.engineItems, []⟩ =
          .ok out ∧ Spread out.remaining (l.map (·.2)).flatten := chargeLines_spread hpositive h
    obtain ⟨out, hout, hspread⟩ := hlines
    have hstep : chargeItem s e = .ok ⟨out.remaining, out.engineItems, s.groups ++ [out.group]⟩ :=
      bind_ok.mpr ⟨out, hout, rfl⟩
    obtain ⟨out', hout', hdone⟩ := chargeItems_spread (l := l)
      (s := ⟨out.remaining, out.engineItems, s.groups ++ [out.group]⟩)
      (fun x hx => hpositive x (mem_append_right _ hx)) hspread
    exact ⟨out', foldlM_cons_ok.mpr ⟨_, hstep, hout'⟩, hdone⟩

/-! ## Carts that can be settled -/

/-- The allocations of a cart. -/
def allocations (c : ReadCart) : List (CategoryKey × I64) := c.cart.categoryAllocations.flatten

/-- Every discounted category keeps one unit for each line charged to it. -/
def Enough (c : ReadCart) : Prop :=
  ∀ key, weighedList (pick key) c.adjusting.signed < 0 →
    (linesAt (allocations c) key : Int) ≤
      weighedList (pick key) (allocations c) + weighedList (pick key) c.adjusting.signed

/-- The gross charges of a cart fit in 64 bits. -/
def GrossFits (c : ReadCart) : Prop :=
  (c.cart.subtotal : Int) + c.adjusting.tax + c.adjusting.fee ≤ 9223372036854775807

theorem signAdjustment_parts {s s' : Adjusting} {kind : String} {key : CategoryKey} {amount : I64}
    (hamount : 0 < (amount : Int))
    (hs : charges s.signed = s.tax + s.fee ∧ credits s.signed = s.discount)
    (h : signAdjustment s kind key amount = .ok s') :
    charges s'.signed = s'.tax + s'.fee ∧ credits s'.signed = s'.discount := by
  have hsnoc : ∀ n : I64, charges (s.signed ++ [(key, n)]) = charges s.signed + max 0 (n : Int) ∧
      credits (s.signed ++ [(key, n)]) = credits s.signed + max 0 (-(n : Int)) := by
    intro n
    unfold charges credits
    simp
  unfold signAdjustment at h
  split at h
  · obtain ⟨tax, htax, h⟩ := bind_ok.mp h
    cases h
    have htax := add_eq_ok.mp htax
    have := hsnoc amount
    dsimp only
    omega
  split at h
  · obtain ⟨fee, hfee, h⟩ := bind_ok.mp h
    cases h
    have hfee := add_eq_ok.mp hfee
    have := hsnoc amount
    dsimp only
    omega
  split at h
  · obtain ⟨discount, hdiscount, h⟩ := bind_ok.mp h
    obtain ⟨negated, hnegated, h⟩ := bind_ok.mp h
    cases h
    have hdiscount := add_eq_ok.mp hdiscount
    have hnegated := coe_checkedNeg (orStop_ok.mp hnegated)
    have := hsnoc negated
    dsimp only
    omega
  · cases h

theorem readItem_keys {r : CartRequest} {s s' : Carting}
    {entry : DecisionCardItem × LiquidityPurchaseItem}
    (hs : ∀ k, (s.categoryTotals.get? k).isSome →
      ∃ e ∈ s.categoryAllocations.flatten, e.1 = k)
    (h : readItem r s entry = .ok s') (k : CategoryKey) (hk : (s'.categoryTotals.get? k).isSome) :
    ∃ e ∈ s'.categoryAllocations.flatten, e.1 = k := by
  simp only [readItem, bind_ok, pure_ok, Except.ok.injEq] at h
  obtain ⟨-, -, -, -, -, -, subtotal, -, l, -, -, -, totals, htotals, rfl⟩ := h
  rw [flatten_append, flatten_singleton]
  rcases isSome_foldlM_addCharge htotals k hk with hk | ⟨e, he, hke⟩
  · obtain ⟨e, he, hke⟩ := hs k hk
    exact ⟨e, mem_append_left _ he, hke⟩
  · exact ⟨e, mem_append_right _ he, hke⟩

theorem readCart_parts {r : CartRequest} {base : List LiquidityPurchaseItem} {c : ReadCart}
    (h : readCart r base = .ok c) :
    (∀ k, (c.cart.categoryTotals.get? k).isSome → ∃ e ∈ allocations c, e.1 = k) ∧
      charges c.adjusting.signed = c.adjusting.tax + c.adjusting.fee ∧
      credits c.adjusting.signed = c.adjusting.discount := by
  simp only [readCart, bind_ok, pure_ok, Except.ok.injEq] at h
  obtain ⟨-, -, cart, hcart, currency, -, adjusting, hadjusting, rfl⟩ := h
  refine ⟨foldlM_inv (P := fun s : Carting => ∀ k, (s.categoryTotals.get? k).isSome →
    ∃ e ∈ s.categoryAllocations.flatten, e.1 = k)
    (fun b b' a _ hb hstep k hk => readItem_keys hb hstep k hk) (fun k hk => by cases hk) hcart, ?_⟩
  refine foldlM_inv (P := fun s : Adjusting =>
    charges s.signed = s.tax + s.fee ∧ credits s.signed = s.discount)
    (fun b b' a _ hb hstep => ?_) ⟨rfl, rfl⟩ hadjusting
  simp only [readAdjustment, bind_ok, reject_ok, Bool.or_eq_false_iff,
    decide_eq_false_iff_not, not_le] at hstep
  obtain ⟨-, ⟨-, hpos⟩, key, -, -, -, -, -, hstep⟩ := hstep
  exact signAdjustment_parts hpos hb hstep

theorem isSome_foldlM_netCharge : ∀ {l : List (CategoryKey × I64)} {totals totals' : Charges},
    l.foldlM netCharge totals = .ok totals' → ∀ k,
      (totals'.get? k).isSome → (totals.get? k).isSome ∨ ∃ e ∈ l, e.1 = k
  | [], _, _, h, k, hk => by
    cases h
    exact .inl hk
  | e :: l, totals, totals', h, k, hk => by
    obtain ⟨c, hc, h⟩ := foldlM_cons_ok.mp h
    simp only [netCharge, bind_ok, pure_ok, Except.ok.injEq] at hc
    obtain ⟨after, -, -, -, rfl⟩ := hc
    rcases isSome_foldlM_netCharge h k hk with hk | ⟨x, hx, rfl⟩
    · rw [SortedMap.get?_insert] at hk
      split at hk
      · rename_i hke
        exact .inr ⟨e, mem_cons_self, hke⟩
      · exact .inl hk
    · exact .inr ⟨x, mem_cons_of_mem _ hx, rfl⟩

theorem exists_netCharges : ∀ {l : List (CategoryKey × I64)} {totals : Charges},
    (l.map Prod.fst).Nodup → (∀ e ∈ l, 0 < unitsAt totals e.1 + e.2 ∧
      unitsAt totals e.1 + e.2 ≤ 9223372036854775807) →
      ∃ totals', l.foldlM netCharge totals = .ok totals'
  | [], totals, _, _ => ⟨totals, rfl⟩
  | e :: l, totals, hnodup, h => by
    rw [map_cons, nodup_cons] at hnodup
    obtain ⟨hpos, hmax⟩ := h e mem_cons_self
    obtain ⟨after, hafter, hafterv⟩ := exists_add_ok (a := (totals.get? e.1).getD 0) (b := e.2)
      (by
        have : (((totals.get? e.1).getD 0 : I64) : Int) = unitsAt totals e.1 := rfl
        unfold InI64
        omega)
    have hafterv : (after : Int) = unitsAt totals e.1 + e.2 := hafterv
    have hstep : netCharge totals e = .ok (totals.insert e.1 after) := by
      unfold netCharge
      rw [hafter, ok_bind, decide_eq_false (by omega), reject_false, ok_bind]
      rfl
    have hahead : ∀ x ∈ l, 0 < unitsAt (totals.insert e.1 after) x.1 + x.2 ∧
        unitsAt (totals.insert e.1 after) x.1 + x.2 ≤ 9223372036854775807 := by
      intro x hx
      have hne : e.1 ≠ x.1 := fun heq => hnodup.1 (heq ▸ mem_map_of_mem hx)
      rw [unitsAt_insert, if_neg hne]
      exact h x (mem_cons_of_mem _ hx)
    obtain ⟨totals', hl⟩ := exists_netCharges hnodup.2 hahead
    exact ⟨totals', foldlM_cons_ok.mpr ⟨_, hstep, hl⟩⟩

/-! ## Settling and distributing -/

section

variable {r : CartRequest} {base : List LiquidityPurchaseItem} {c : ReadCart}
  (hread : readCart r base = .ok c)

include hread

theorem positive_allocations : ∀ e ∈ allocations c, 0 < (e.2 : Int) := by
  intro e he
  obtain ⟨l, hl, hel⟩ := mem_flatten.mp he
  rw [← (readCart_ok hread).entries_allocations] at hl
  obtain ⟨x, hx, rfl⟩ := mem_map.mp hl
  exact ((readCart_ok hread).entry hx).1.positive e hel

theorem charges_allocations : charges (allocations c) = c.cart.subtotal := by
  have hone := (readCart_ok hread).items.subtotal
  rw [← hone]
  unfold charges weighedList
  refine congrArg List.sum (map_congr_left fun e he => ?_)
  have := positive_allocations hread e he
  dsimp only
  omega

theorem signed_in_allocations {e : CategoryKey × I64} (he : e ∈ c.adjusting.signed) :
    ∃ a ∈ allocations c, a.1 = e.1 := by
  obtain ⟨item, hitem, a, ha, hkey⟩ := (readCart_ok hread).adjusting.keys e he
  exact ⟨a, mem_flatten.mpr ⟨item, hitem, ha⟩, hkey⟩

/-- **What a category is charged** stays positive and within the gross charges. -/
theorem net_bounds (hgross : GrossFits c) (henough : Enough c) {k : CategoryKey}
    (hk : ∃ a ∈ allocations c, a.1 = k) :
    0 < weighedList (pick k) (allocations c) + weighedList (pick k) c.adjusting.signed ∧
      weighedList (pick k) (allocations c) + weighedList (pick k) c.adjusting.signed ≤
        9223372036854775807 := by
  obtain ⟨a, ha, hak⟩ := hk
  have hone : (1 : Int) ≤ linesAt (allocations c) k := by
    have : 0 < linesAt (allocations c) k :=
      countP_pos_iff.mpr ⟨a, ha, by simpa using hak⟩
    omega
  have hlines := weighedList_pick_nonneg (positive_allocations hread) k
  have hitems := (weighedList_pick_le (allocations c) k).2
  have hsigned := (weighedList_pick_le c.adjusting.signed k).2
  obtain ⟨-, hcharges, -⟩ := readCart_parts hread
  rw [charges_allocations hread] at hitems
  rw [hcharges] at hsigned
  have henough := henough k
  unfold GrossFits at hgross
  omega

theorem exists_adjustmentTotals (hgross : GrossFits c) :
    ∃ adjustments, adjustmentTotals c = .ok adjustments := by
  obtain ⟨-, hcharges, hcredits⟩ := readCart_parts hread
  refine exists_addTo fun k => ?_
  have hsub := c.cart.subtotal.2
  have hdis := c.adjusting.discount.2
  have hnonneg := charges_nonneg (allocations c)
  rw [charges_allocations hread] at hnonneg
  rw [unitsAt_empty, hcharges, hcredits]
  unfold GrossFits at hgross
  unfold InI64 at hsub hdis
  omega

theorem exists_cartTotal (hgross : GrossFits c) : ∃ total, cartTotal c = .ok total := by
  obtain ⟨htax, hfee, hdiscount⟩ := (readCart_ok hread).adjusting.nonneg
  have hnonneg := charges_nonneg (allocations c)
  rw [charges_allocations hread] at hnonneg
  unfold GrossFits at hgross
  have hdis := c.adjusting.discount.2.2
  obtain ⟨charged, hcharged, hchargedv⟩ := exists_add_ok (a := c.cart.subtotal)
    (b := c.adjusting.tax) (by unfold InI64; omega)
  obtain ⟨fees, hfees, hfeesv⟩ := exists_sub_ok (a := c.adjusting.fee) (b := c.adjusting.discount)
    (by unfold InI64; omega)
  obtain ⟨total, htotal, -⟩ := exists_add_ok (a := charged) (b := fees)
    (by unfold InI64; omega)
  refine ⟨total, ?_⟩
  unfold cartTotal
  rw [hcharged, ok_bind, hfees, ok_bind, htotal]

theorem settleCart_total (hgross : GrossFits c) (henough : Enough c) :
    ∃ totals total, settleCart c = .ok (totals, total) := by
  have hok := readCart_ok hread
  obtain ⟨hkeys, -, -⟩ := readCart_parts hread
  obtain ⟨adjustments, hadjustments⟩ := exists_adjustmentTotals hread hgross
  have hsigned : ∀ w, weighed w adjustments = weighedList w c.adjusting.signed := fun w => by
    have hsigned := weighed_foldlM_addTo w hadjustments
    rwa [weighed_empty, Int.zero_add] at hsigned
  have hadjusted : ∀ k, (adjustments.get? k).isSome → ∃ a ∈ allocations c, a.1 = k := by
    intro k hk
    rcases isSome_foldlM_addCharge hadjustments k hk with hk | ⟨e, he, rfl⟩
    · cases hk
    · exact signed_in_allocations hread he
  have hat : ∀ k, unitsAt c.cart.categoryTotals k = weighedList (pick k) (allocations c) :=
    fun k => by rw [← weighed_single]; exact hok.items.totals (pick k)
  have hadj : ∀ k, unitsAt adjustments k = weighedList (pick k) c.adjusting.signed :=
    fun k => by rw [← weighed_single]; exact hsigned (pick k)
  have hnets : ∃ totals, adjustments.entries.foldlM netCharge c.cart.categoryTotals = .ok totals := by
    refine exists_netCharges (SortedMap.nodup_keys adjustments) fun e he => ?_
    have hget : adjustments.get? e.1 = some e.2 := SortedMap.mem_entries_iff.mp he
    have hvalue : (e.2 : Int) = unitsAt adjustments e.1 := by
      unfold unitsAt
      rw [hget]
      rfl
    rw [hat, hvalue, hadj]
    exact net_bounds hread hgross henough (hadjusted e.1 (by rw [hget]; rfl))
  obtain ⟨totals, htotals⟩ := hnets
  have hweighed : ∀ w, weighed w totals =
      weighed w c.cart.categoryTotals + weighed w adjustments :=
    fun w => foldlM_netCharge_weighed w htotals
  have hpositive : ∀ n ∈ totals.values, 0 < (n : Int) := by
    intro n hn
    obtain ⟨k, hk⟩ := SortedMap.mem_values_iff.mp hn
    have hvalue : (n : Int) = unitsAt totals k := by
      unfold unitsAt
      rw [hk]
      rfl
    have hin : ∃ a ∈ allocations c, a.1 = k := by
      rcases isSome_foldlM_netCharge htotals k (by rw [hk]; rfl) with hk | ⟨e, he, rfl⟩
      · exact hkeys k hk
      · exact hadjusted e.1 (by rw [SortedMap.mem_entries_iff.mp he]; rfl)
    have hnet := (net_bounds hread hgross henough hin).1
    rw [hvalue, ← weighed_single, hweighed, weighed_single, weighed_single, hat, hadj]
    exact hnet
  obtain ⟨total, htotal⟩ := exists_cartTotal hread hgross
  have htotalv : (total : Int) = (totals.values.map fun n : I64 => (n : Int)).sum := by
    simp only [cartTotal, bind_ok] at htotal
    obtain ⟨charged, hcharged, fees, hfees, htotal⟩ := htotal
    have h₁ := add_eq_ok.mp hcharged
    have h₂ := sub_eq_ok.mp hfees
    have h₃ := add_eq_ok.mp htotal
    have hone := hok.items.totals fun _ => 1
    have hsub := hok.items.subtotal
    have hadjusting := hok.adjusting.signed
    rw [← weighed_one, hweighed, hsigned, hone]
    omega
  have hsum : totals.values.foldlM add 0 = .ok total :=
    (foldlM_add_eq_ok (f := fun n : I64 => n) (fun n hn => (hpositive n hn).le) (by simp)).mpr
      (by rw [htotalv, I64.coe_zero, Int.zero_add])
  have hnonempty : totals.values ≠ [] := by
    obtain ⟨x, hx⟩ := exists_mem_of_ne_nil _ hok.nonempty
    have hlen := hok.items.allocated.length_eq
    obtain ⟨e, he⟩ : ∃ e, e ∈ entries r base c := by
      refine exists_mem_of_ne_nil _ fun hnil => hok.nonempty ?_
      have := congrArg List.length hnil
      unfold entries at this
      rw [length_zip, hlen, Nat.min_self] at this
      exact length_eq_zero_iff.mp (hlen.trans this)
    obtain ⟨a, ha⟩ := exists_mem_of_ne_nil _ (hok.entry he).1.nonempty
    have hin : a ∈ allocations c := by
      refine mem_flatten.mpr ⟨e.2, ?_, ha⟩
      rw [← hok.entries_allocations]
      exact mem_map_of_mem he
    have hnet := (net_bounds hread hgross henough ⟨a, hin, rfl⟩).1
    intro hnil
    have hzero : unitsAt totals a.1 = 0 := by
      unfold unitsAt
      cases hget : totals.get? a.1 with
      | none => rfl
      | some n =>
        have := SortedMap.mem_values_iff.mpr ⟨a.1, hget⟩
        rw [hnil] at this
        exact absurd this not_mem_nil
    rw [← weighed_single, hweighed, weighed_single, weighed_single, hat, hadj] at hzero
    omega
  have htotalpos : 0 < (total : Int) := by
    rw [htotalv]
    refine sum_pos _ (fun x hx => ?_) fun hnil => hnonempty (map_eq_nil_iff.mp hnil)
    obtain ⟨n, hn, rfl⟩ := mem_map.mp hx
    exact hpositive n hn
  refine ⟨totals, total, ?_⟩
  unfold settleCart
  rw [hadjustments, ok_bind, htotals, ok_bind, htotal, ok_bind,
    decide_eq_false (not_le.mpr htotalpos), reject_false, ok_bind, hsum, ok_bind, bne_self_eq_false,
    reject_false, ok_bind]
  rfl

theorem distribute_total (hgross : GrossFits c) (henough : Enough c) :
    ∃ d, distribute r base c = .ok d := by
  have hok := readCart_ok hread
  obtain ⟨adjustments, hadjustments⟩ := exists_adjustmentTotals hread hgross
  have hadj : ∀ k, unitsAt adjustments k = weighedList (pick k) c.adjusting.signed := fun k => by
    have hsigned := weighed_foldlM_addTo (pick k) hadjustments
    rw [weighed_empty, Int.zero_add] at hsigned
    rw [← weighed_single]
    exact hsigned
  have hspread : Spread adjustments (allocations c) := by
    constructor
    · intro k hk
      rw [hadj] at hk ⊢
      exact henough k hk
    · intro k hk
      have hsome : (adjustments.get? k).isSome := by
        unfold unitsAt at hk
        cases hget : adjustments.get? k with
        | none =>
          rw [hget] at hk
          exact absurd hk (by simp)
        | some n => rfl
      have hin : ∃ a ∈ allocations c, a.1 = k := by
        rcases isSome_foldlM_addCharge hadjustments k hsome with hk | ⟨e, he, rfl⟩
        · cases hk
        · exact signed_in_allocations hread he
      refine ⟨hin, ?_⟩
      rw [hadj]
      exact (net_bounds hread hgross henough hin).2
  have hall : ((entries r base c).map (·.2)).flatten = allocations c := by
    rw [hok.entries_allocations]
    rfl
  have hrun : ∃ d, (entries r base c).foldlM chargeItem ⟨adjustments, [], []⟩ = .ok d ∧
      Spread d.remaining [] :=
    chargeItems_spread (by rw [hall]; exact positive_allocations hread) (by rw [hall]; exact hspread)
  obtain ⟨d, hd, hdone⟩ := hrun
  refine ⟨d, ?_⟩
  have hzero : d.remaining.values.any (· != 0) = false := by
    rw [any_eq_false]
    intro n hn
    obtain ⟨k, hk⟩ := SortedMap.mem_values_iff.mp hn
    have hunits := hdone.done k
    unfold unitsAt at hunits
    rw [hk] at hunits
    simpa using I64.ext hunits
  have hfold : ((r.items.zip base).zip c.cart.categoryAllocations).foldlM chargeItem
      ⟨adjustments, [], []⟩ = .ok d := hd
  unfold distribute
  rw [hadjustments, ok_bind, hfold, ok_bind, hzero, reject_false, ok_bind]
  rfl

end

end BalanceFrame.Decision
