import BalanceFrame.Decision.Totals
import BalanceFrame.Library.LexCodes

/-!
# The cart of a decision card

Model of `expanded_amount`, `engine_items`, `validate_price_provenance`, `category_period_key`,
`current_category_key`, `cart_projection`, `engine_item_map`, and of the account charges of
`cart_value` (`crates/core-protocol/src/decision_card.rs`). The projection reads the items and the
adjustments (`readCart`), nets them by category (`settleCart`), distributes the adjustments over the
lines the engine gets (`distribute`) and reads the thresholds.
-/

namespace BalanceFrame.Decision

open Library Liquidity

/-! ## Requests -/

/-- `DecisionCardPriceProvenance`, the fields read here. -/
structure DecisionCardPriceProvenance where
  kind : String
  source : Option String
  deriving DecidableEq

structure DecisionCardCategoryAllocation where
  categoryId : String
  amount : Money
  deriving DecidableEq

/-- `DecisionCardItem`, without its priority. -/
structure DecisionCardItem where
  id : String
  categoryId : String
  amount : Money
  purchaseAt : String
  requiredBy : String
  routeSelection : RouteSelection
  quantity : Option Nat
  categoryAllocations : Option (List DecisionCardCategoryAllocation)
  barcode : Option String
  priceProvenance : Option DecisionCardPriceProvenance
  deriving DecidableEq

structure DecisionCardAdjustment where
  kind : String
  categoryId : String
  amount : Money
  deriving DecidableEq

structure DecisionCardWarningThreshold where
  id : String
  basis : String
  categoryId : Option String
  maximum : Money
  deriving DecidableEq

/-- A request with its cart. -/
structure CartRequest extends DecisionCardRequest where
  items : List DecisionCardItem
  adjustments : Option (List DecisionCardAdjustment)
  warningThresholds : Option (List DecisionCardWarningThreshold)
  deriving DecidableEq

/-! ## Items of the engine -/

/-- `checked_mul` with a quantity that is an `i64`. -/
def checkedTimes (n : I64) (quantity : Nat) : Option I64 :=
  if h : InI64 quantity ∧ InI64 (n.1 * quantity) then some ⟨n.1 * quantity, h.2⟩ else none

def expandedAmount (item : DecisionCardItem) : Checked Money := do
  let quantity := item.quantity.getD 1
  reject (quantity == 0) "nonpositive_purchase"
  let n ← orStop (checkedTimes item.amount.minorUnits quantity) "money_arithmetic_overflow"
  pure ⟨n, item.amount.currency⟩

/-- One item of `engine_items`. -/
def engineItem (item : DecisionCardItem) : Checked LiquidityPurchaseItem := do
  let amount ← expandedAmount item
  pure { id := item.id, categoryId := item.categoryId, amount := amount
         purchaseAt := item.purchaseAt, requiredBy := item.requiredBy
         routeSelection := item.routeSelection }

def engineItems (r : CartRequest) : Checked (List LiquidityPurchaseItem) := r.items.mapM engineItem

/-! ## Amounts by key -/

/-- Amounts by category and month. -/
abbrev Charges := SortedMap CategoryKey I64

/-- `*entry = checked_add(*entry, n)`, over an entry that is zero at first. -/
def addTo {κ : Type} [LinearOrder κ] (reason : String) (amounts : SortedMap κ I64)
    (entry : κ × I64) : Checked (SortedMap κ I64) := do
  let n ← orStop (((amounts.get? entry.1).getD 0).checkedAdd entry.2) reason
  pure (amounts.insert entry.1 n)

/-- `addTo` with the error of `checked_add`. -/
def addCharge (amounts : Charges) (entry : CategoryKey × I64) : Checked Charges :=
  addTo "money_arithmetic_overflow" amounts entry

/-! ## Reading the items -/

def validatePriceProvenance (item : DecisionCardItem) : Checked Unit := do
  reject (item.barcode.any isBlank) "invalid_barcode"
  match item.priceProvenance with
  | none => pure ()
  | some provenance =>
    if provenance.kind == "current_session_manual" then pure ()
    else if provenance.kind == "outside_price" then
      reject (provenance.source.all isBlank) "missing_price_provenance_source"
    else .error "invalid_price_provenance_kind"

/-- The facts of the snapshot. -/
def liquidityFacts (r : CartRequest) : Checked LiquidityFacts :=
  orStop r.financialSnapshot.liquidity "liquidity_unavailable"

def categoryPeriodKey (r : CartRequest) (categoryId purchaseAt : String) :
    Checked CategoryKey := do
  let asOfMonth ← orStop (monthOf purchaseAt) "invalid_canonical_timestamp"
  let facts ← liquidityFacts r
  let category ← orStop (categoryFactForPeriod facts categoryId asOfMonth) "category_missing"
  pure (toLex (category.categoryId, category.asOfMonth))

def currentCategoryKey (r : CartRequest) (categoryId : String) : Checked CategoryKey := do
  let facts ← liquidityFacts r
  let category ← orStop (categoryFactForPeriod facts categoryId facts.asOfMonth) "category_missing"
  reject (category.periodKind != .current) "category_period_mismatch"
  pure (toLex (category.categoryId, category.asOfMonth))

/-- A category of the cart has the cart's currency. -/
def checkCategoryCurrency (r : CartRequest) (currency : String) (key : CategoryKey) :
    Checked Unit := do
  let facts ← liquidityFacts r
  let category ← orStop (categoryFactForPeriod facts (ofLex key).1 (ofLex key).2) "category_missing"
  reject (category.availability.currency != currency) "currency_mismatch"

/-- The allocations read so far. -/
structure Allocating where
  seen : List String
  sum : I64
  normalized : List (CategoryKey × I64)

/-- One category allocation. -/
def readAllocation (r : CartRequest) (item : DecisionCardItem) (currency : String) (s : Allocating)
    (a : DecisionCardCategoryAllocation) : Checked Allocating := do
  reject (isBlank a.categoryId || s.seen.contains a.categoryId || a.amount.currency != currency ||
    decide ((a.amount.minorUnits : Int) ≤ 0)) "invalid_category_allocation"
  let key ← categoryPeriodKey r a.categoryId item.purchaseAt
  let sum ← add s.sum a.amount.minorUnits
  pure { seen := a.categoryId :: s.seen, sum := sum
         normalized := s.normalized ++ [(key, a.amount.minorUnits)] }

/-- The allocations of an item: its own, or its category alone. -/
def itemAllocations (r : CartRequest) (item : DecisionCardItem) (line : Money) :
    Checked (List (CategoryKey × I64)) :=
  match item.categoryAllocations with
  | some raw => do
    reject raw.isEmpty "invalid_category_allocation"
    let s ← raw.foldlM (readAllocation r item line.currency) ⟨[], 0, []⟩
    reject (s.sum != line.minorUnits) "category_allocation_mismatch"
    pure s.normalized
  | none => do
    let key ← categoryPeriodKey r item.categoryId item.purchaseAt
    pure [(key, line.minorUnits)]

/-- The items read so far. -/
structure Carting where
  currency : Option String
  subtotal : I64
  categoryTotals : Charges
  categoryAllocations : List (List (CategoryKey × I64))

/-- One item. -/
def readItem (r : CartRequest) (s : Carting) (entry : DecisionCardItem × LiquidityPurchaseItem) :
    Checked Carting := do
  let line := entry.2.amount
  validatePriceProvenance entry.1
  reject (decide ((line.minorUnits : Int) ≤ 0)) "nonpositive_purchase"
  reject (s.currency.any (· != line.currency)) "currency_mismatch"
  let subtotal ← add s.subtotal line.minorUnits
  let allocations ← itemAllocations r entry.1 line
  allocations.forM fun a => checkCategoryCurrency r line.currency a.1
  let totals ← allocations.foldlM addCharge s.categoryTotals
  pure { currency := some (s.currency.getD line.currency), subtotal := subtotal
         categoryTotals := totals, categoryAllocations := s.categoryAllocations ++ [allocations] }

/-! ## Reading the adjustments -/

/-- The adjustments read so far. -/
structure Adjusting where
  tax : I64
  fee : I64
  discount : I64
  signed : List (CategoryKey × I64)

/-- The signed effect of an adjustment, by its kind. -/
def signAdjustment (s : Adjusting) (kind : String) (key : CategoryKey) (amount : I64) :
    Checked Adjusting :=
  if kind == "tax" then do
    let tax ← add s.tax amount
    pure { s with tax := tax, signed := s.signed ++ [(key, amount)] }
  else if kind == "fee" then do
    let fee ← add s.fee amount
    pure { s with fee := fee, signed := s.signed ++ [(key, amount)] }
  else if kind == "discount" then do
    let discount ← add s.discount amount
    let negated ← orStop amount.checkedNeg "money_arithmetic_overflow"
    pure { s with discount := discount, signed := s.signed ++ [(key, negated)] }
  else .error "invalid_cart_adjustment_kind"

/-- One adjustment. -/
def readAdjustment (r : CartRequest) (currency : String)
    (allocations : List (List (CategoryKey × I64))) (s : Adjusting) (a : DecisionCardAdjustment) :
    Checked Adjusting := do
  reject (isBlank a.categoryId || a.amount.currency != currency ||
    decide ((a.amount.minorUnits : Int) ≤ 0)) "invalid_cart_adjustment"
  let key ← currentCategoryKey r a.categoryId
  checkCategoryCurrency r currency key
  reject (!allocations.any fun item => item.any (·.1 == key)) "adjustment_category_missing_from_cart"
  signAdjustment s a.kind key a.amount.minorUnits

/-- The items and the adjustments of a cart. -/
structure ReadCart where
  cart : Carting
  currency : String
  adjusting : Adjusting

/-- Read the items and the adjustments. -/
def readCart (r : CartRequest) (base : List LiquidityPurchaseItem) : Checked ReadCart := do
  reject (base.length != r.items.length || base.isEmpty) "empty_purchase_scenario"
  let cart ← (r.items.zip base).foldlM (readItem r) ⟨none, 0, SortedMap.empty, []⟩
  let currency ← orStop cart.currency "currency_mismatch"
  let adjusting ← (r.adjustments.getD []).foldlM
    (readAdjustment r currency cart.categoryAllocations) ⟨0, 0, 0, []⟩
  pure ⟨cart, currency, adjusting⟩

/-! ## Net charges -/

/-- One category's adjustments. -/
def netCharge (totals : Charges) (entry : CategoryKey × I64) : Checked Charges := do
  let after ← add ((totals.get? entry.1).getD 0) entry.2
  reject (decide ((after : Int) ≤ 0)) "nonpositive_category_charge"
  pure (totals.insert entry.1 after)

/-- The total of a cart. -/
def cartTotal (c : ReadCart) : Checked I64 := do
  let charged ← add c.cart.subtotal c.adjusting.tax
  let fees ← sub c.adjusting.fee c.adjusting.discount
  add charged fees

/-- The adjustments by category. -/
def adjustmentTotals (c : ReadCart) : Checked Charges :=
  c.adjusting.signed.foldlM addCharge SortedMap.empty

/-- The net charges by category and the total, which agree. -/
def settleCart (c : ReadCart) : Checked (Charges × I64) := do
  let adjustments ← adjustmentTotals c
  let totals ← adjustments.entries.foldlM netCharge c.cart.categoryTotals
  let total ← cartTotal c
  reject (decide ((total : Int) ≤ 0)) "nonpositive_cart_total"
  let sum ← totals.values.foldlM add 0
  reject (sum != total) "cart_charge_conservation"
  pure (totals, total)

/-! ## Lines -/

/-- What a line takes of its category's adjustment: a discount leaves the line positive. -/
def lineAdjustment (remaining amount : I64) : I64 :=
  if (remaining : Int) < 0 then
    (if (remaining : Int) ≤ I64.wrap (1 - amount) then I64.wrap (1 - amount) else remaining)
  else remaining

/-- The lines so far, and what is left of the adjustments. -/
structure Distributing where
  remaining : Charges
  engineItems : List LiquidityPurchaseItem
  groups : List (List String)

/-- The identity of a line. -/
def lineId (item : DecisionCardItem) (count index : Nat) : String :=
  if count == 1 then item.id else item.id ++ "::category-" ++ toString index

/-- The lines so far, with those of the item at hand. -/
structure Grouping where
  remaining : Charges
  engineItems : List LiquidityPurchaseItem
  group : List String

/-- Charge one line. -/
def chargeLine (item : DecisionCardItem) (currency : String) (count : Nat) (s : Grouping)
    (entry : (CategoryKey × I64) × Nat) : Checked Grouping := do
  let key := entry.1.1
  let amount := entry.1.2
  let remaining := (s.remaining.get? key).getD 0
  let adjustment := lineAdjustment remaining amount
  let left ← sub remaining adjustment
  let adjusted ← add amount adjustment
  reject (decide ((adjusted : Int) ≤ 0)) "nonpositive_purchase"
  let id := lineId item count entry.2
  pure
    { remaining := s.remaining.insert key left
      group := s.group ++ [id]
      engineItems := s.engineItems ++ [{
        id := id, categoryId := (ofLex key).1, amount := ⟨adjusted, currency⟩
        purchaseAt := item.purchaseAt, requiredBy := item.requiredBy
        routeSelection := item.routeSelection }] }

/-- Charge the lines of one item. -/
def chargeItem (s : Distributing)
    (entry : (DecisionCardItem × LiquidityPurchaseItem) × List (CategoryKey × I64)) :
    Checked Distributing := do
  let out ← entry.2.zipIdx.foldlM
    (chargeLine entry.1.1 entry.1.2.amount.currency entry.2.length)
    ⟨s.remaining, s.engineItems, []⟩
  pure { remaining := out.remaining, engineItems := out.engineItems
         groups := s.groups ++ [out.group] }

/-- Distribute the adjustments over the lines. -/
def distribute (r : CartRequest) (base : List LiquidityPurchaseItem) (c : ReadCart) :
    Checked Distributing := do
  let adjustments ← adjustmentTotals c
  let d ← ((r.items.zip base).zip c.cart.categoryAllocations).foldlM chargeItem
    ⟨adjustments, [], []⟩
  reject (d.remaining.values.any (· != 0)) "nonpositive_purchase"
  pure d

/-! ## The projection -/

/-- One warning threshold. -/
def readThreshold (currency : String) (totals : Charges) (seen : List String)
    (t : DecisionCardWarningThreshold) : Checked (List String) := do
  reject (isBlank t.id || seen.contains t.id || t.maximum.currency != currency ||
    decide ((t.maximum.minorUnits : Int) ≤ 0)) "invalid_warning_threshold"
  if t.basis == "cart_total" && t.categoryId.isNone then pure ()
  else if t.basis == "category_charge" then do
    let categoryId ← orStop (t.categoryId.filter (!isBlank ·)) "invalid_warning_threshold"
    reject (!totals.keys.any fun key => (ofLex key).1 == categoryId) "category_missing"
  else .error "invalid_warning_threshold"
  pure (t.id :: seen)

structure CartProjection where
  engineItems : List LiquidityPurchaseItem
  engineItemGroups : List (List String)
  categoryTotals : Charges
  categoryAllocations : List (List (CategoryKey × I64))
  subtotal : I64
  tax : I64
  fee : I64
  discount : I64
  total : I64
  currency : String
  hasAdjustments : Bool
  thresholds : List DecisionCardWarningThreshold

def cartProjection (r : CartRequest) (base : List LiquidityPurchaseItem) :
    Checked CartProjection := do
  let c ← readCart r base
  let (totals, total) ← settleCart c
  let d ← distribute r base c
  let thresholds := r.warningThresholds.getD []
  let _ ← thresholds.foldlM (readThreshold c.currency totals) []
  pure
    { engineItems := d.engineItems, engineItemGroups := d.groups, categoryTotals := totals
      categoryAllocations := c.cart.categoryAllocations, subtotal := c.cart.subtotal
      tax := c.adjusting.tax, fee := c.adjusting.fee, discount := c.adjusting.discount
      total := total, currency := c.currency
      hasAdjustments := !(r.adjustments.getD []).isEmpty, thresholds := thresholds }

/-! ## Charges by account -/

def engineItemMap (result : AccountAwareSpendabilityResult) :
    SortedMap String PurchaseLiquidityResult :=
  SortedMap.ofList (result.purchases.map fun purchase => (purchase.itemId, purchase))

/-- The items that `aggregate_engine_map` has an entry for: some line has a result. -/
def inEngineMap (raw : SortedMap String PurchaseLiquidityResult) (cart : CartProjection)
    (r : CartRequest) (id : String) : Bool :=
  (r.items.zip cart.engineItemGroups).any fun entry =>
    entry.1.id == id && entry.2.any fun line => (raw.get? line).isSome

/-- Charge one line to its account; a line without a result, an account or an item is passed. -/
def chargeAccount (raw : SortedMap String PurchaseLiquidityResult) (cart : CartProjection)
    (charges : SortedMap String I64) (id : String) : Checked (SortedMap String I64) :=
  match (raw.get? id).bind (·.selectedAccountId), cart.engineItems.find? (·.id == id) with
  | some accountId, some item =>
    addTo "validated cart total bounds account charges" charges (accountId, item.amount.minorUnits)
  | _, _ => pure charges

/-- Charge the lines of one item. -/
def chargeAccounts (raw : SortedMap String PurchaseLiquidityResult) (cart : CartProjection)
    (r : CartRequest) (charges : SortedMap String I64) (entry : DecisionCardItem × List String) :
    Checked (SortedMap String I64) :=
  if inEngineMap raw cart r entry.1.id then entry.2.foldlM (chargeAccount raw cart) charges
  else pure charges

/-- The account charges of `cart_value`; an error stands for its panic. -/
def accountCharges (cart : CartProjection) (r : CartRequest)
    (raw : SortedMap String PurchaseLiquidityResult) : Checked (SortedMap String I64) :=
  (r.items.zip cart.engineItemGroups).foldlM (chargeAccounts raw cart r) SortedMap.empty

end BalanceFrame.Decision
