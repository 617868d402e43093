import BalanceFrame.Decision.CartDiscounts
import BalanceFrame.Decision.Ledgers
import BalanceFrame.Liquidity.Conservation

/-!
# Carts conserve money
-/

namespace BalanceFrame.Decision

open Library Liquidity List

variable {r : CartRequest} {base : List LiquidityPurchaseItem} {cart : CartProjection}
  {c : ReadCart} {totals : Charges} {total : I64}

/-! ## Projections -/

/-- What lines are charged to a category and month. -/
def chargedTo (key : CategoryKey) (lines : List LiquidityPurchaseItem) : Int :=
  ((lines.filter fun line => lineKey line = some key).map (·.amount.minorUnits.1)).sum

/-- A cart whose lines are its charges. -/
structure Projected (r : CartRequest) (cart : CartProjection) : Prop where
  positive : ∀ line ∈ cart.engineItems, 0 < (line.amount.minorUnits : Int)
  total : (cart.engineItems.map (·.amount.minorUnits.1)).sum = cart.total
  charges : (cart.total : Int) = cart.subtotal + cart.tax + cart.fee - cart.discount
  categories : ∀ key, chargedTo key cart.engineItems = unitsAt cart.categoryTotals key
  groups : ∃ lines : List (List LiquidityPurchaseItem), cart.engineItems = lines.flatten ∧
    cart.engineItemGroups = lines.map (·.map (·.id)) ∧
    List.Forall₂ (fun item ls => ls ≠ [] ∧ LinesOf item cart.currency ls.length ls) r.items lines

theorem lineSum_pick (key : CategoryKey) (lines : List LiquidityPurchaseItem) :
    lineSum (pick key) lines = chargedTo key lines := by
  induction lines with
  | nil => rfl
  | cons line lines ih =>
    rw [lineSum_cons, ih]
    unfold chargedTo lineWeight pick
    cases hk : lineKey line with
    | none =>
      rw [filter_cons_of_neg (by simp [hk])]
      simp
    | some k =>
      by_cases hkey : k = key
      · rw [filter_cons_of_pos (by simp [hk, hkey]), map_cons, sum_cons]
        simp [hkey]
      · rw [filter_cons_of_neg (by simp [hk, hkey])]
        simp [hkey]

theorem lineSum_one {lines : List LiquidityPurchaseItem}
    (h : ∀ line ∈ lines, (lineKey line).isSome) :
    lineSum (fun _ => 1) lines = (lines.map (·.amount.minorUnits.1)).sum := by
  unfold lineSum
  refine congrArg List.sum (map_congr_left fun line hline => ?_)
  obtain ⟨k, hk⟩ := Option.isSome_iff_exists.mp (h line hline)
  unfold lineWeight
  rw [hk]
  exact one_mul _

theorem projected_of_ok (h : cartProjection r base = .ok cart) : Projected r cart := by
  simp only [cartProjection, bind_ok, pure_ok, Except.ok.injEq] at h
  obtain ⟨c, hread, ⟨totals, total⟩, hsettle, d, hdistribute, -, -, rfl⟩ := h
  have hok := readCart_ok hread
  obtain ⟨adjustments, hsettled⟩ := settleCart_ok hsettle
  obtain ⟨lines, hitems, hgroups, hlines, hsum⟩ :=
    distribute_ok hok hsettled.netted hdistribute
  have hline : ∀ line ∈ d.engineItems, ∃ item, LineOf item c.currency line := by
    intro line hmem
    rw [hitems] at hmem
    obtain ⟨ls, hls, hmem⟩ := mem_flatten.mp hmem
    obtain ⟨e, -, he⟩ := exists_of_forall₂ hlines hls
    exact ⟨e.1.1, he.lines line hmem⟩
  have hcharged : ∀ w, lineSum w d.engineItems = weighed w totals := by
    intro w
    rw [hsum w, hsettled.charges w, hok.items.totals w]
    omega
  refine ⟨fun line hmem => ?_, ?_, hsettled.amount, fun key => ?_, lines, hitems, hgroups, ?_⟩
  · obtain ⟨item, hitem⟩ := hline line hmem
    exact hitem.positive
  · rw [← lineSum_one fun line hmem => ?_, hcharged]
    · exact hsettled.sum
    · obtain ⟨item, hitem⟩ := hline line hmem
      exact hitem.key
  · rw [← lineSum_pick, hcharged]
    exact weighed_single totals key
  · rw [← hok.entries_items, forall₂_map_left_iff]
    refine forall₂_imp_mem (fun e he ls hls => ?_) hlines
    have hcount : e.2.length = ls.length := by
      have := congrArg List.length hls.ids
      simpa using this.symm
    refine ⟨fun hnil => ?_, hcount ▸ hls⟩
    rw [hnil] at hcount
    exact (hok.entry he).1.nonempty (length_eq_zero_iff.mp hcount)

/-! ## Accounts -/

/-- The account that a line's result selects. -/
def accountOf (raw : SortedMap String PurchaseLiquidityResult) (line : LiquidityPurchaseItem) :
    Option String :=
  (raw.get? line.id).bind (·.selectedAccountId)

theorem chargeAccounts_foldlM {raw : SortedMap String PurchaseLiquidityResult} :
    ∀ {l : List (DecisionCardItem × List String)} {charges : SortedMap String I64},
      (∀ e ∈ l, inEngineMap raw cart r e.1.id = true) →
        l.foldlM (chargeAccounts raw cart r) charges =
          (l.map (·.2)).flatten.foldlM (chargeAccount raw cart) charges
  | [], charges, _ => rfl
  | e :: l, charges, h => by
    rw [foldlM_cons, map_cons, flatten_cons, foldlM_append]
    unfold chargeAccounts
    rw [if_pos (h e mem_cons_self)]
    exact congrArg _ (funext fun c =>
      chargeAccounts_foldlM fun x hx => h x (mem_cons_of_mem _ hx))

theorem find_line {lines : List LiquidityPurchaseItem} (hnodup : (lines.map (·.id)).Nodup)
    {line : LiquidityPurchaseItem} (hline : line ∈ lines) :
    lines.find? (·.id == line.id) = some line := by
  induction lines with
  | nil => exact absurd hline not_mem_nil
  | cons first lines ih =>
    rw [map_cons, nodup_cons] at hnodup
    rcases mem_cons.mp hline with rfl | hline
    · rw [find?_cons_of_pos (by simp)]
    · have hne : first.id ≠ line.id := fun heq => hnodup.1 (heq ▸ mem_map_of_mem hline)
      rw [find?_cons_of_neg (by simpa using hne), ih hnodup.2 hline]

theorem accountCharges_total
    {raw : SortedMap String PurchaseLiquidityResult} (hcart : Projected r cart)
    (hnodup : (cart.engineItems.map (·.id)).Nodup)
    (hselected : ∀ line ∈ cart.engineItems, (accountOf raw line).isSome) :
    ∃ charged, accountCharges cart r raw = .ok charged ∧
      (charged.values.map fun n : I64 => (n : Int)).sum = cart.total := by
  obtain ⟨lines, hitems, hgroups, hlines⟩ := hcart.groups
  have hlength : r.items.length = cart.engineItemGroups.length := by
    rw [hgroups, length_map, hlines.length_eq]
  have hmap : ∀ e ∈ r.items.zip cart.engineItemGroups, inEngineMap raw cart r e.1.id = true := by
    intro e he
    refine any_eq_true.mpr ⟨e, he, ?_⟩
    have hgroup : e.2 ∈ lines.map (·.map (·.id)) := hgroups ▸ (of_mem_zip he).2
    obtain ⟨ls, hls, hids⟩ := mem_map.mp hgroup
    obtain ⟨item, -, hne, -⟩ := exists_of_forall₂ hlines hls
    obtain ⟨line, hline⟩ := exists_mem_of_ne_nil _ hne
    have hsome := hselected line (hitems ▸ mem_flatten.mpr ⟨ls, hls, hline⟩)
    rw [beq_self_eq_true, Bool.true_and, ← hids]
    refine any_eq_true.mpr ⟨line.id, mem_map_of_mem hline, ?_⟩
    unfold accountOf at hsome
    cases hget : raw.get? line.id with
    | none =>
      rw [hget] at hsome
      cases hsome
    | some p => rfl
  -- The charges are the additions of each line's amount to its account.
  let entry : LiquidityPurchaseItem → String × I64 := fun line =>
    ((accountOf raw line).getD "", line.amount.minorUnits)
  have hsum : charges (cart.engineItems.map entry) = cart.total := by
    rw [← hcart.total]
    unfold charges
    rw [map_map]
    refine congrArg List.sum (map_congr_left fun line hline => ?_)
    exact max_eq_right (hcart.positive line hline).le
  have hcredits : credits (cart.engineItems.map entry) = 0 := by
    unfold credits
    rw [map_map]
    refine sum_eq_zero fun x hx => ?_
    obtain ⟨line, hline, rfl⟩ := mem_map.mp hx
    have hpos := hcart.positive line hline
    exact max_eq_left (by dsimp only [Function.comp, entry]; omega)
  have hrange := cart.total.2
  unfold InI64 at hrange
  have hfits : ∃ charged, (cart.engineItems.map entry).foldlM
      (addTo "validated cart total bounds account charges") SortedMap.empty = .ok charged :=
    exists_addTo fun k => by rw [unitsAt_empty, hsum, hcredits]; omega
  obtain ⟨charged, hcharged⟩ := hfits
  have hweighed := weighed_foldlM_addTo (fun _ => 1) hcharged
  refine ⟨charged, ?_, ?_⟩
  · unfold accountCharges
    rw [chargeAccounts_foldlM hmap, map_snd_zip hlength.ge, hgroups]
    have hids : (lines.map (·.map (·.id))).flatten = cart.engineItems.map (·.id) := by
      rw [hitems, map_flatten]
    rw [hids, foldlM_map]
    rw [foldlM_map] at hcharged
    refine foldlM_imp (fun b line b' hline hstep => ?_) hcharged
    obtain ⟨account, haccount⟩ := Option.isSome_iff_exists.mp (hselected line hline)
    unfold chargeAccount
    have hbind : (raw.get? line.id).bind (·.selectedAccountId) = some account := haccount
    rw [hbind, find_line hnodup hline]
    dsimp only [entry] at hstep
    rwa [haccount] at hstep
  · rw [← weighed_one, hweighed, weighed_empty, Int.zero_add, ← hcart.total]
    unfold weighedList
    rw [map_map]
    exact congrArg List.sum (map_congr_left fun line _ => one_mul _)

/-- The results of the engine for a cart. -/
def cartResults (r : CartRequest) (cart : CartProjection) :
    SortedMap String PurchaseLiquidityResult :=
  engineItemMap (evaluate (engineInput r.toDecisionCardRequest (.purchases cart.engineItems)))

theorem nodup_of_results
    (h : ∀ line ∈ cart.engineItems, (accountOf (cartResults r cart) line).isSome) :
    (cart.engineItems.map (·.id)).Nodup := by
  cases hresult : checkedEvaluate (engineInput r.toDecisionCardRequest
      (.purchases cart.engineItems)) with
  | error reason =>
    cases hitems : cart.engineItems with
    | nil => exact nodup_nil
    | cons line lines =>
      have hline := h line (by rw [hitems]; exact mem_cons_self)
      have hempty : cartResults r cart = SortedMap.empty := by
        unfold cartResults evaluate
        rw [hresult]
        rfl
      unfold accountOf at hline
      rw [hempty] at hline
      cases hline
  | ok result =>
    simp only [checkedEvaluate, bind_ok] at hresult
    obtain ⟨o, -, s, hrun, -⟩ := hresult
    unfold runScenario at hrun
    have hscenario : (engineInput r.toDecisionCardRequest (.purchases cart.engineItems)).scenario =
        .purchases cart.engineItems := rfl
    rw [hscenario] at hrun
    simp only [bind_ok] at hrun
    obtain ⟨_, hunique, -⟩ := hrun
    exact (unique_eq_ok.mp hunique).2

/-! ## Without discounts -/

/-- A request without its discounts. -/
def undiscounted (r : CartRequest) : CartRequest :=
  { r with adjustments := r.adjustments.map (·.filter (·.kind != "discount")) }

theorem readAdjustment_charges {currency : String}
    {items : List (List (CategoryKey × I64))} {s s' : Adjusting} {a : DecisionCardAdjustment}
    (h : readAdjustment r currency items s a = .ok s') :
    ((s'.tax : Int) = s.tax + if a.kind = "tax" then (a.amount.minorUnits : Int) else 0) ∧
      ((s'.fee : Int) = s.fee + if a.kind = "fee" then (a.amount.minorUnits : Int) else 0) ∧
      (a.kind ≠ "discount" → s'.discount = s.discount) := by
  simp only [readAdjustment, bind_ok] at h
  obtain ⟨-, -, key, -, -, -, -, -, h⟩ := h
  unfold signAdjustment at h
  by_cases htax : a.kind = "tax"
  · rw [if_pos (beq_iff_eq.mpr htax)] at h
    obtain ⟨tax, hadd, h⟩ := bind_ok.mp h
    cases h
    exact ⟨by rw [if_pos htax]; exact add_eq_ok.mp hadd, by simp [htax], fun _ => rfl⟩
  rw [if_neg (by simpa using htax)] at h
  by_cases hfee : a.kind = "fee"
  · rw [if_pos (beq_iff_eq.mpr hfee)] at h
    obtain ⟨fee, hadd, h⟩ := bind_ok.mp h
    cases h
    exact ⟨by simp [hfee], by rw [if_pos hfee]; exact add_eq_ok.mp hadd, fun _ => rfl⟩
  rw [if_neg (by simpa using hfee)] at h
  split at h
  · rename_i hdiscount
    obtain ⟨discount, -, h⟩ := bind_ok.mp h
    obtain ⟨negated, -, h⟩ := bind_ok.mp h
    cases h
    exact ⟨by simp [htax], by simp [hfee], fun hne => absurd (eq_of_beq hdiscount) hne⟩
  · cases h

theorem readAdjustments_undiscounted {currency : String} {items : List (List (CategoryKey × I64))} :
    ∀ {l : List DecisionCardAdjustment} {s s' t t' : Adjusting},
      l.foldlM (readAdjustment r currency items) s = .ok s' →
      (l.filter (·.kind != "discount")).foldlM (readAdjustment r currency items) t = .ok t' →
      (s.tax : Int) = t.tax → (s.fee : Int) = t.fee →
        (s'.tax : Int) = t'.tax ∧ (s'.fee : Int) = t'.fee ∧ t'.discount = t.discount
  | [], s, s', t, t', hs, ht, htax, hfee => by
    cases hs
    cases ht
    exact ⟨htax, hfee, rfl⟩
  | a :: l, s, s', t, t', hs, ht, htax, hfee => by
    obtain ⟨c, hc, hs⟩ := foldlM_cons_ok.mp hs
    obtain ⟨hctax, hcfee, -⟩ := readAdjustment_charges hc
    by_cases hkind : a.kind = "discount"
    · rw [filter_cons_of_neg (by simp [hkind])] at ht
      have hnotTax : a.kind ≠ "tax" := by rw [hkind]; decide
      have hnotFee : a.kind ≠ "fee" := by rw [hkind]; decide
      rw [if_neg hnotTax] at hctax
      rw [if_neg hnotFee] at hcfee
      exact readAdjustments_undiscounted hs ht (by omega) (by omega)
    · rw [filter_cons_of_pos (by simpa using hkind)] at ht
      obtain ⟨d, hd, ht⟩ := foldlM_cons_ok.mp ht
      obtain ⟨hdtax, hdfee, hdiscount⟩ := readAdjustment_charges hd
      rw [← hdiscount hkind]
      exact readAdjustments_undiscounted hs ht (by omega) (by omega)

theorem readCart_undiscounted
    {u : ReadCart} (hc : readCart r base = .ok c) (hu : readCart (undiscounted r) base = .ok u) :
    u.cart = c.cart ∧ u.currency = c.currency ∧ (u.adjusting.tax : Int) = c.adjusting.tax ∧
      (u.adjusting.fee : Int) = c.adjusting.fee ∧ u.adjusting.discount = 0 := by
  have hitems : (undiscounted r).items = r.items := rfl
  have hread : readItem (undiscounted r) = readItem r := rfl
  have hadjust : readAdjustment (undiscounted r) = readAdjustment r := rfl
  have hadjustments : (undiscounted r).adjustments.getD [] =
      (r.adjustments.getD []).filter (·.kind != "discount") := by
    unfold undiscounted
    cases r.adjustments <;> rfl
  unfold readCart at hu
  rw [hitems, hread, hadjust, hadjustments] at hu
  simp only [readCart, bind_ok, pure_ok, Except.ok.injEq, orStop_ok] at hc hu
  obtain ⟨-, -, cart, hcart, currency, hcurrency, adjusting, hadjusting, rfl⟩ := hc
  obtain ⟨-, -, cart', hcart', currency', hcurrency', adjusting', hadjusting', rfl⟩ := hu
  obtain rfl : cart = cart' := Except.ok.inj (hcart.symm.trans hcart')
  obtain rfl : currency = currency' := Option.some.inj (hcurrency.symm.trans hcurrency')
  obtain ⟨htax, hfee, hdiscount⟩ :=
    readAdjustments_undiscounted hadjusting hadjusting' rfl rfl
  exact ⟨rfl, rfl, htax.symm, hfee.symm, hdiscount⟩

theorem grossFits_of_undiscounted {u : ReadCart} (hc : readCart r base = .ok c)
    (hu : readCart (undiscounted r) base = .ok u) (hsettle : settleCart u = .ok (totals, total)) :
    GrossFits c := by
  obtain ⟨hcart, -, htax, hfee, hdiscount⟩ := readCart_undiscounted hc hu
  obtain ⟨adjustments, hsettled⟩ := settleCart_ok hsettle
  have hamount := hsettled.amount
  rw [hcart, htax, hfee, hdiscount, I64.coe_zero] at hamount
  have hrange := total.2.2
  unfold GrossFits
  omega

theorem settleCart_keys (hread : readCart r base = .ok c)
    (hsettle : settleCart c = .ok (totals, total)) {k : CategoryKey}
    (hk : (totals.get? k).isSome) : ∃ a ∈ allocations c, a.1 = k := by
  simp only [settleCart, bind_ok, pure_ok, Except.ok.injEq, Prod.mk.injEq] at hsettle
  obtain ⟨adjustments, hadjustments, totals', htotals, -, -, -, -, -, -, -, -, rfl, -⟩ := hsettle
  rcases isSome_foldlM_netCharge htotals k hk with hk | ⟨e, he, rfl⟩
  · exact (readCart_parts hread).1 k hk
  · rcases isSome_foldlM_addCharge hadjustments e.1
      (by rw [SortedMap.mem_entries_iff.mp he]; rfl) with hk | ⟨x, hx, hxe⟩
    · cases hk
    · rw [← hxe]
      exact signed_in_allocations hread hx

theorem isSome_of_allocated (hread : readCart r base = .ok c) (hgross : GrossFits c)
    (henough : Enough c) (hsettle : settleCart c = .ok (totals, total)) {k : CategoryKey}
    (hk : ∃ a ∈ allocations c, a.1 = k) : (totals.get? k).isSome := by
  obtain ⟨adjustments, hsettled⟩ := settleCart_ok hsettle
  have hnet := (net_bounds hread hgross henough hk).1
  have hunits : unitsAt totals k =
      weighedList (pick k) (allocations c) + weighedList (pick k) c.adjusting.signed := by
    rw [← weighed_single, ← hsettled.signed]
    exact (hsettled.charges (pick k)).trans
      (congrArg (· + _) ((readCart_ok hread).items.totals (pick k)))
  rw [← hunits] at hnet
  unfold unitsAt at hnet
  cases hget : totals.get? k with
  | none =>
    rw [hget] at hnet
    exact absurd hnet (by simp)
  | some n => rfl

/-- **A discount that leaves one unit a line fails no cart**: a cart whose discounts are read, and
that is projected without them, is projected with them. -/
theorem projected_of_undiscounted (hread : readCart r base = .ok c) (henough : Enough c)
    (h : cartProjection (undiscounted r) base = .ok cart) :
    ∃ cart', cartProjection r base = .ok cart' := by
  simp only [cartProjection, bind_ok, pure_ok, Except.ok.injEq] at h
  obtain ⟨u, hu, ⟨totals, total⟩, hsettle, d, -, seen, hthresholds, -⟩ := h
  have hgross := grossFits_of_undiscounted hread hu hsettle
  obtain ⟨hcart, hcurrency, -⟩ := readCart_undiscounted hread hu
  obtain ⟨totals', total', hsettle'⟩ := settleCart_total hread hgross henough
  obtain ⟨d', hdistribute⟩ := distribute_total hread hgross henough
  have hkeys : ∀ k, k ∈ totals.keys → k ∈ totals'.keys := by
    intro k hk
    rw [SortedMap.mem_keys_iff, ← Option.isSome_iff_exists] at hk ⊢
    obtain ⟨a, ha, hak⟩ := settleCart_keys hu hsettle hk
    refine isSome_of_allocated hread hgross henough hsettle' ⟨a, ?_, hak⟩
    unfold allocations at ha ⊢
    rwa [← hcart]
  have hfold : (r.warningThresholds.getD []).foldlM (readThreshold c.currency totals') [] =
      .ok seen := by
    refine foldlM_imp (fun s t s' _ hstep => ?_) (hcurrency ▸ hthresholds)
    unfold readThreshold at hstep ⊢
    obtain ⟨checked, hreject, hstep⟩ := bind_ok.mp hstep
    refine bind_ok.mpr ⟨checked, hreject, ?_⟩
    split
    · rename_i hbasis
      rwa [if_pos hbasis] at hstep
    rename_i hbasis
    rw [if_neg hbasis] at hstep
    split
    · rename_i hcategory
      rw [if_pos hcategory] at hstep
      simp only [bind_ok, reject_ok, Bool.not_eq_false', any_eq_true] at hstep ⊢
      obtain ⟨categoryId, hid, found, ⟨key, hkey, hsame⟩, hstep⟩ := hstep
      exact ⟨categoryId, hid, found, ⟨key, hkeys key hkey, hsame⟩, hstep⟩
    · rename_i hcategory
      rwa [if_neg hcategory] at hstep
  exact ⟨_, bind_ok.mpr ⟨c, hread, bind_ok.mpr ⟨(totals', total'), hsettle',
    bind_ok.mpr ⟨d', hdistribute, bind_ok.mpr ⟨seen, hfold, rfl⟩⟩⟩⟩⟩

/-- **Cart projection conserves money.** The lines of every cart are positive, add up to
subtotal, tax and fee less the discount and to the charges of each category, and make up the items'
groups; where every line has an account, the accounts are charged the total. A discount that leaves
its category one unit a line fails no cart. -/
theorem cart_conserves (r : CartRequest) (base : List LiquidityPurchaseItem) :
    (∀ cart, cartProjection r base = .ok cart → Projected r cart ∧
      ((∀ line ∈ cart.engineItems, (accountOf (cartResults r cart) line).isSome) →
        ∃ charged, accountCharges cart r (cartResults r cart) = .ok charged ∧
          (charged.values.map fun n : I64 => (n : Int)).sum = cart.total)) ∧
      ∀ c cart, readCart r base = .ok c → Enough c →
        cartProjection (undiscounted r) base = .ok cart →
          ∃ cart', cartProjection r base = .ok cart' := by
  refine ⟨fun cart h => ?_, fun c cart hread henough h => projected_of_undiscounted hread henough h⟩
  have hcart := projected_of_ok h
  exact ⟨hcart, fun hselected => accountCharges_total hcart (nodup_of_results hselected) hselected⟩

def lunchCart : CartRequest :=
  { householdCard (foodClaim .active true) with
    claimSet := ⟨"1", []⟩
    items := [{
      id := "lunch", categoryId := "food", amount := usd (.wrap 6), quantity := some 2
      purchaseAt := "2026-01-03T12:00:00Z", requiredBy := "2026-01-03T12:00:00Z"
      routeSelection := ⟨some "checking", none, none, none⟩, categoryAllocations := none
      barcode := none, priceProvenance := none }]
    adjustments := some [⟨"tax", "food", usd (.wrap 2)⟩, ⟨"discount", "food", usd (.wrap 13)⟩]
    warningThresholds := some [⟨"food", "category_charge", some "food", usd (.wrap 10)⟩] }

def lunchItems : List LiquidityPurchaseItem := [{ lunch with amount := usd (.wrap 12) }]

theorem cart_conserves_lunch : ∃ cart charged,
    cartProjection lunchCart lunchItems = .ok cart ∧ Projected lunchCart cart ∧
      accountCharges cart lunchCart (cartResults lunchCart cart) = .ok charged ∧
      (charged.values.map fun n : I64 => (n : Int)).sum = cart.total := by
  have hok : isOk (cartProjection lunchCart lunchItems) = true := by decide +kernel
  obtain ⟨cart, hcart⟩ := isOk_iff.mp hok
  have hall : ((cartProjection lunchCart lunchItems).toOption.all fun cart =>
      cart.engineItems.all fun line => (accountOf (cartResults lunchCart cart) line).isSome) =
        true := by
    decide +kernel
  rw [hcart] at hall
  obtain ⟨hprojected, hcharges⟩ := (cart_conserves lunchCart lunchItems).1 cart hcart
  obtain ⟨charged, hcharged, hsum⟩ := hcharges fun line hline => all_eq_true.mp hall line hline
  exact ⟨cart, charged, hcart, hprojected, hcharged, hsum⟩

end BalanceFrame.Decision
