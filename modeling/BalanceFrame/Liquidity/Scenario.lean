import BalanceFrame.Liquidity.Routes

/-!
# Evaluating a scenario

Model of `unavailable` (`liquidity_engine.rs`), `expiry`, `rank`, `budget_rank`, `checked_evaluate`
and `evaluate` (`crates/financial-core/src/liquidity_scenarios.rs`). `openEvaluation` is everything
before the scenario; `purchaseStep` is one item of a joint purchase, and what it carries from item
to item is `Joint`; `closeEvaluation` is everything after.
-/

namespace BalanceFrame.Liquidity

open Library

/-! ## Opening -/

def unavailable (input : LiquidityInput) (reason : String) : AccountAwareSpendabilityResult where
  version := "1"
  snapshotId := input.snapshotId
  contentHash := input.contentHash
  policyVersion := input.liquidityPolicy.version
  policyHash := input.liquidityPolicy.policyHash
  claimSetRevision := input.claimSet.revision
  budgetFundingStatus := .insufficientData
  paymentLiquidityStatus := .insufficientData
  accountsBefore := []
  accountsAfter := []
  categories := []
  backingBefore := { identity input with reasons := [reason] }
  backingAfter := { identity input with reasons := [reason] }
  purchases := []
  horizon := input.horizon
  expiresAt := input.validUntil
  assumptions := []
  reasons := [reason]

/-- The evidence of one account that `expiry` observes. -/
def observedEvidence (f : AccountLiquidityFact) : List FactEvidence :=
  [f.balanceEvidence, f.freshnessEvidence, f.activityEvidence, f.scheduleEvidence,
    f.currencyEvidence, f.kindEvidence, f.holdsEvidence, f.ownershipEvidence] ++
    f.credit.toList.map (·.evidence)

/-- `observe`: known evidence clamps the expiry. -/
def observe (now : Instant) (maxAge : Nat) (until_ : Instant) (e : FactEvidence) :
    Checked Instant :=
  if isOk (known e now maxAge) then do
    let expiry ← evidenceExpiry e maxAge
    pure (min until_ expiry)
  else pure until_

/-- A route with timing evidence clamps the expiry. -/
def observeRoute (now : Instant) (maxAge : Nat) (until_ : Instant) (route : TransferTimingRoute) :
    Checked Instant :=
  if isOk (timingEvidence route now maxAge) then do
    let expiry ← evidenceExpiry route.evidence maxAge
    pure (min until_ expiry)
  else pure until_

/-- An active claim that has not expired clamps the expiry. -/
def observeBundle (now : Instant) (until_ : Instant) (b : LiquidityClaimBundle) :
    Checked Instant := do
  if ← active b now then do
    let expiry ← instant b.expiresAt
    pure (if now < expiry then min until_ expiry else until_)
  else pure until_

/-- The instant at which an evaluation expires. -/
def expiryInstant (input : LiquidityInput) (accounts : Accounts) (categories : Categories)
    (now : Instant) : Checked Instant := do
  let maxAge := input.maxBudgetSnapshotAgeMinutes
  let validUntil ← instant input.validUntil
  let policyExpires ← instant input.liquidityPolicy.expiresAt
  let until_ ← ((accounts.values.filter fun a => eligible a.policy a.fact).flatMap
    fun a => observedEvidence a.fact).foldlM (observe now maxAge) (min validUntil policyExpires)
  let until_ ← (categories.values.map (·.evidence)).foldlM (observe now maxAge) until_
  let until_ ← input.liquidityPolicy.transferRoutes.foldlM (observeRoute now maxAge) until_
  let until_ ← input.claimSet.bundles.foldlM (observeBundle now) until_
  reject (decide (until_ ≤ now)) "evaluation_expired"
  pure until_

def expiry (input : LiquidityInput) (accounts : Accounts) (categories : Categories)
    (now : Instant) : Checked String := do
  let until_ ← expiryInstant input accounts categories now
  pure (stamp until_)

/-- The clock of an evaluation: `now`, and the horizon it lies in. -/
structure Clock where
  now : Instant
  start : Instant
  ends : Instant

/-- Read the clock. -/
def readClock (input : LiquidityInput) : Checked Clock := do
  let now ← instant input.evaluatedAt
  let start ← instant input.horizon.startsAt
  let ends ← instant input.horizon.endsAt
  reject (decide (now < start) || decide (ends ≤ now)) "invalid_horizon"
  pure { now := now, start := start, ends := ends }

/-- No category identity is blank or repeated within a month. -/
def checkPeriods (categories : List CategoryLiquidityFact) : Checked Unit := do
  let _ ← categories.foldlM (fun seen c => do
    reject (isBlank c.categoryId || seen.contains (c.categoryId, c.asOfMonth))
      "duplicate_or_empty_identity"
    pure ((c.categoryId, c.asOfMonth) :: seen)) []

/-- The identities of an input and its facts. -/
def checkIdentities (input : LiquidityInput) : Checked LiquidityFacts := do
  reject (input.snapshotId == "" || input.contentHash == "" || input.liquidityPolicy.version == "" ||
    input.liquidityPolicy.policyHash == "" || input.claimSet.revision == "")
    "missing_input_identity"
  let facts ← orStop input.facts "liquidity_unavailable"
  reject (facts.version != "1" || facts.ledgerContentHash == "") "unsupported_liquidity_facts"
  let _ ← orStop (parseNaiveDate (facts.asOfMonth ++ "-01")) "invalid_as_of_month"
  unique (facts.accounts.map (·.accountId))
  unique (facts.categories.map (·.cashBucketId))
  unique (input.liquidityPolicy.accounts.map (·.accountId))
  unique (input.liquidityPolicy.transferRoutes.map (·.id))
  unique (input.claimSet.bundles.map (·.id))
  checkPeriods facts.categories
  pure facts

/-- The categories by bucket. -/
def categoryMap (facts : LiquidityFacts) : Categories :=
  facts.categories.foldl (fun categories c => categories.insert c.cashBucketId c) SortedMap.empty

/-- The policy of an account without one. -/
def excludedPolicy (f : AccountLiquidityFact) : AccountLiquidityPolicy where
  accountId := f.accountId
  role := .excluded
  protectedBuffer := m 0 f.currency
  paymentEligible := false
  sourceEligible := false
  backingEligible := false
  eligibleCategoryIds := []
  restrictedCashBucketIds := []
  automationAllowed := false
  resourceScope := ""

/-- The account's policy. -/
def policyOf (input : LiquidityInput) (f : AccountLiquidityFact) : AccountLiquidityPolicy :=
  (input.liquidityPolicy.accounts.find? (·.accountId == f.accountId)).getD (excludedPolicy f)

/-- Prepare one account more. -/
def prepareNext (input : LiquidityInput) (categories : Categories) (now : Instant)
    (s : Accounts × Amounts) (f : AccountLiquidityFact) : Accounts × Amounts :=
  let (a, funded) := prepareAccount f (policyOf input f) input categories now s.2
  (s.1.insert f.accountId a, funded)

/-- The accounts in order of identity. -/
def orderedAccounts (facts : LiquidityFacts) : List AccountLiquidityFact :=
  sortOn (·.accountId) facts.accounts

/-- All accounts, prepared in order of identity. -/
def prepareAccounts (input : LiquidityInput) (facts : LiquidityFacts) (categories : Categories)
    (now : Instant) : Accounts × Amounts :=
  (orderedAccounts facts).foldl (prepareNext input categories now) (SortedMap.empty, SortedMap.empty)

/-- The units of a category with valid evidence and period. -/
def categoryUnits (input : LiquidityInput) (facts : LiquidityFacts) (now : Instant)
    (c : CategoryLiquidityFact) : Checked I64 := do
  known c.evidence now input.maxBudgetSnapshotAgeMinutes
  let n ← units c.availability c.availability.currency false
  reject (c.periodKind == .current && c.asOfMonth != facts.asOfMonth) "category_period_mismatch"
  reject (c.periodKind == .future && decide (c.asOfMonth ≤ facts.asOfMonth))
    "category_period_mismatch"
  reject ((c.kind == .income || c.kind == .transfer) && n != 0)
    "unsupported_special_category_balance"
  pure n

/-- What the categories demand and offer. -/
structure Envelopes where
  demands : Amounts
  available : Amounts
  outputs : SortedMap String CategoryCapacity
  unknown : Bool

/-- Open one category. -/
def openCategory (input : LiquidityInput) (facts : LiquidityFacts) (now : Instant) (s : Envelopes)
    (c : CategoryLiquidityFact) : Envelopes :=
  let output (remaining : Option Money) (reasons : List String) : CategoryCapacity :=
    { categoryId := c.categoryId, cashBucketId := c.cashBucketId
      authoritativeAvailability := c.availability, remainingAvailability := remaining
      reasons := reasons }
  match categoryUnits input facts now c with
  | .ok n =>
    { demands := s.demands.insert c.cashBucketId n.clamp
      available := s.available.insert c.cashBucketId n
      outputs := s.outputs.insert c.cashBucketId (output (some c.availability) [])
      unknown := s.unknown }
  | .error reason =>
    { s with outputs := s.outputs.insert c.cashBucketId (output none [reason]), unknown := true }

/-- Open all categories. -/
def openCategories (input : LiquidityInput) (facts : LiquidityFacts) (categories : Categories)
    (now : Instant) : Envelopes :=
  categories.values.foldl (openCategory input facts now)
    { demands := SortedMap.empty, available := SortedMap.empty, outputs := SortedMap.empty
      unknown := false }

/-- Category claims counted so far, by bucket and economic identity, and what is left. -/
structure Claimed where
  counted : SortedMap (String ×ₗ String) I64
  available : Amounts

/-- Take `n` from an amount that is there. -/
def takeFrom (amounts : Amounts) (id : String) (n : I64) : Checked Amounts :=
  match amounts.get? id with
  | none => pure amounts
  | some value => do
    let value ← sub value n
    pure (amounts.insert id value)

/-- Count one category claim. -/
def countClaim (input : LiquidityInput) (categories : Categories) (s : Claimed)
    (e : LiquidityClaimEffect) : Checked Claimed :=
  if e.kind != .category || e.includedInBalance then pure s
  else do
    let c ← orStop (currentCategory categories e.resourceId input) "claim_category_missing"
    let n ← units e.amount c.availability.currency true
    let key := toLex (c.cashBucketId, e.economicObligationId)
    match s.counted.get? key with
    | some old => do
      reject (old != n) "ambiguous_claim_match"
      pure { s with counted := s.counted.insert key n }
    | none => do
      let available ← takeFrom s.available c.cashBucketId n
      pure { counted := s.counted.insert key n, available := available }

/-- One effect of a bundle; no bundle has two effects of one identity. -/
def claimEffect (input : LiquidityInput) (categories : Categories)
    (s : List (ClaimEffectKind × String × String) × Claimed) (e : LiquidityClaimEffect) :
    Checked (List (ClaimEffectKind × String × String) × Claimed) := do
  reject (e.economicObligationId == "" || e.resourceId == "" ||
    s.1.contains (e.kind, e.resourceId, e.economicObligationId)) "ambiguous_claim_effect"
  let claimed ← countClaim input categories s.2 e
  pure ((e.kind, e.resourceId, e.economicObligationId) :: s.1, claimed)

/-- One bundle. -/
def claimBundle (input : LiquidityInput) (categories : Categories) (now : Instant) (s : Claimed)
    (b : LiquidityClaimBundle) : Checked Claimed := do
  if ← active b now then do
    let (_, s) ← b.effects.foldlM (claimEffect input categories) ([], s)
    pure s
  else pure s

/-- Withdraw an allocation for a reason. -/
def BackingAllocation.withdrawn (b : BackingAllocation) (reason : String) : BackingAllocation :=
  { b with feasible := false, lines := [], reasons := b.reasons ++ [reason] }

/-- An allocation is withdrawn when categories or sources are not covered. -/
def coverBacking (input : LiquidityInput) (categoryUnknown : Bool) (b : BackingAllocation) :
    BackingAllocation :=
  let b := if categoryUnknown then b.withdrawn "incomplete_category_evidence" else b
  if !input.sourceCoverageComplete then b.withdrawn "incomplete_source_coverage" else b

/-- An evaluation before its scenario. -/
structure Opened where
  clock : Clock
  facts : LiquidityFacts
  categories : Categories
  accounts : Accounts
  expires : String
  envelopes : Envelopes
  available : Amounts
  before : BackingAllocation

/-- Everything before the scenario. -/
def openEvaluation (input : LiquidityInput) : Checked Opened := do
  let clock ← readClock input
  let facts ← checkIdentities input
  let categories := categoryMap facts
  let accounts := (prepareAccounts input facts categories clock.now).1
  let expires ← expiry input accounts categories clock.now
  let envelopes := openCategories input facts categories clock.now
  let claimed ← input.claimSet.bundles.foldlM (claimBundle input categories clock.now)
    { counted := SortedMap.empty, available := envelopes.available }
  let before ← allocation input accounts categories envelopes.demands input.priorAllocation
  pure
    { clock := clock, facts := facts, categories := categories, accounts := accounts
      expires := expires, envelopes := envelopes, available := claimed.available
      before := coverBacking input envelopes.unknown before }

/-- The status without a scenario. -/
def openStatus (o : Opened) : PaymentLiquidityStatus :=
  if o.before.feasible then .ready
  else if o.envelopes.unknown || anyUnknown o.accounts then .insufficientData
  else .notLiquid

/-- Some known account rests on the user's word. -/
def anyAttested (accounts : Accounts) : Bool :=
  accounts.values.any fun a => a.known &&
    (a.fact.balanceEvidence.source == .userAttested ||
      a.fact.freshnessEvidence.source == .userAttested)

/-- The assumptions an evaluation opens with. -/
def openAssumptions (o : Opened) : List String :=
  (if anyAttested o.accounts then ["explicit_user_attestation_not_bank_sync"] else []) ++
    ["explicit_ledger_observation_age_policy_applied"]

/-! ## Reallocation -/

def rank : PaymentLiquidityStatus → Nat
  | .ready => 0
  | .useOtherAccount => 1
  | .transferRequired => 2
  | .transferTooLate => 3
  | .notLiquid => 4
  | .insufficientData => 5

def budgetRank : BudgetFundingStatus → Nat
  | .funded => 0
  | .unfunded => 1
  | .insufficientData => 2

/-- The worse of two statuses; the first when they rank alike. -/
def worse (s t : PaymentLiquidityStatus) : PaymentLiquidityStatus := if rank s < rank t then t else s

/-- The worse of two funding statuses. -/
def worseBudget (s t : BudgetFundingStatus) : BudgetFundingStatus :=
  if budgetRank s < budgetRank t then t else s

/-- What a scenario changes. -/
structure Joint where
  accounts : Accounts
  demands : Amounts
  available : Amounts
  prior : BackingAllocation
  budget : BudgetFundingStatus
  status : PaymentLiquidityStatus
  assumptions : List String
  purchases : List PurchaseLiquidityResult

/-- A scenario's state before it. -/
def Opened.joint (o : Opened) : Joint where
  accounts := o.accounts
  demands := o.envelopes.demands
  available := o.available
  prior := o.before
  budget := if o.envelopes.unknown then .insufficientData else .funded
  status := openStatus o
  assumptions := openAssumptions o
  purchases := []

/-- Change an amount that has to be there. -/
def changeAmount (amounts : Amounts) (id : String) (f : I64 → Checked I64) : Checked Amounts := do
  let value ← orStop (amounts.get? id) "incomplete_category_evidence"
  let value ← f value
  pure (amounts.insert id value)

/-- The categories and the amount of a movement. -/
def movementTerms (input : LiquidityInput) (categories : Categories) (move : CategoryReallocation) :
    Checked (CategoryLiquidityFact × CategoryLiquidityFact × I64) := do
  let source ← orStop (currentCategory categories move.sourceCategoryId input)
    "reallocation_category_missing"
  let destination ← orStop (currentCategory categories move.destinationCategoryId input)
    "reallocation_category_missing"
  let n ← units move.amount source.availability.currency true
  reject (n == 0 || source.categoryId == destination.categoryId) "invalid_reallocation"
  let _ ← units move.amount destination.availability.currency true
  reject (source.kind != .ordinary || destination.kind != .ordinary ||
    source.periodKind != .current || destination.periodKind != .current)
    "reallocation_category_ineligible"
  pure (source, destination, n)

/-- One movement between categories. -/
def reallocationStep (input : LiquidityInput) (categories : Categories) (s : Joint)
    (move : CategoryReallocation) : Checked Joint := do
  let (source, destination, n) ← movementTerms input categories move
  let available ← changeAmount s.available source.cashBucketId (sub · n)
  let budget := if ((available.get? source.cashBucketId).any fun left => decide ((left : Int) < 0))
    then .unfunded else s.budget
  let available ← changeAmount available destination.cashBucketId (add · n)
  let demands ← changeAmount s.demands source.cashBucketId (sub · n)
  let demands ← changeAmount demands destination.cashBucketId (add · n)
  pure { s with available := available, budget := budget, demands := demands }

/-! ## Purchases -/

/-- `TransferPrefix`: the legs earlier items of a currency already need. -/
structure TransferPrefix where
  legs : List TransferLeg
  unresolved : Bool

/-- A joint purchase so far. -/
structure Buying where
  joint : Joint
  prefixes : SortedMap String TransferPrefix

/-- The amount and the deadline of an item inside the horizon. -/
def itemTerms (clock : Clock) (item : LiquidityPurchaseItem) : Checked (I64 × Instant) := do
  let n ← units item.amount item.amount.currency true
  reject (n == 0) "nonpositive_purchase"
  let purchaseAt ← instant item.purchaseAt
  let required ← instant item.requiredBy
  reject (decide (purchaseAt < clock.now) || decide (purchaseAt < clock.start) ||
    decide (clock.ends ≤ purchaseAt) || decide (required < clock.now) ||
    decide (purchaseAt < required) || decide (clock.ends ≤ required)) "purchase_outside_horizon"
  pure (n, required)

/-- Fund an item from its category. -/
def fundItem (categories : Categories) (available : Amounts) (item : LiquidityPurchaseItem)
    (n : I64) : Checked (BudgetFundingStatus × Amounts) :=
  match monthCategory categories item.categoryId (purchaseMonth item.purchaseAt) with
  | none => pure (.insufficientData, available)
  | some c =>
    match units item.amount c.availability.currency true with
    | .error _ => pure (.insufficientData, available)
    | .ok _ =>
      match available.get? c.cashBucketId with
      | none => pure (.insufficientData, available)
      | some amount => do
        let left ← sub amount n
        pure (if 0 ≤ (left : Int) then .funded else .unfunded,
          available.insert c.cashBucketId left)

/-- An item paid from one account, and the backing after it. -/
structure Trial where
  spent : Spent
  backing : BackingAllocation
  ready : Bool

/-- What trying every account shows. -/
structure Tried where
  trials : SortedMap String Trial
  alternatives : List PaymentAlternative
  reasons : List String
  unresolved : Bool

/-- The account may be asked to pay. -/
def mayPay (a : Cash) : Bool :=
  eligible a.policy a.fact && a.policy.paymentEligible && a.policy.role != .restricted

/-- Another account that can pay. -/
def alternative (id : String) (a : Cash) : PaymentAlternative where
  accountId := id
  status := .ready
  capacity := a.output.safeSpendingCapacity.getD (m 0 a.fact.currency)

/-- Try to pay an item from one account. -/
def tryAccount (input : LiquidityInput) (o : Opened) (s : Joint) (item : LiquidityPurchaseItem)
    (selectedId : Option String) (tried : Tried) (entry : String × Cash) : Checked Tried :=
  let (id, a) := entry
  if !mayPay a then pure tried
  else if !a.known then pure { tried with unresolved := true }
  else
    match spend s.accounts o.categories s.demands item id input o.clock.now with
    | .error reason =>
      pure (if selectedId == some id then
        { tried with reasons := tried.reasons ++ [reason], unresolved := true } else tried)
    | .ok spent => do
      let backing ← allocation input spent.accounts o.categories spent.demands (some s.prior)
      let ready := o.before.feasible && backing.feasible &&
        ((spent.accounts.get? id).any fun a => decide (0 ≤ (a.head : Int))) &&
        spent.credit.all (·.paymentCashReady)
      pure { tried with
        trials := tried.trials.insert id { spent := spent, backing := backing, ready := ready }
        alternatives := if ready && selectedId != some id then
          tried.alternatives ++ [alternative id a] else tried.alternatives }

/-- Every leg arrives in time. -/
def TransferLeg.onTime (leg : TransferLeg) : Bool :=
  match instant leg.estimatedArrival, instant leg.requiredBy with
  | .ok arrival, .ok required => decide (arrival ≤ required)
  | _, _ => false

/-- The status of an item with a plan. -/
def planStatus (onTime unresolved : Bool) : PaymentLiquidityStatus :=
  if onTime then .transferRequired else if unresolved then .insufficientData else .transferTooLate

/-- The status of an item without one. -/
def noPlanStatus (unresolved : Bool) : PaymentLiquidityStatus :=
  if unresolved then .insufficientData else .notLiquid

/-- What is decided about an item whose selected account was tried. -/
structure Decision where
  status : PaymentLiquidityStatus
  plan : Option TransferPlan
  accounts : Accounts
  backing : BackingAllocation
  prefixes : SortedMap String TransferPrefix
  calendar : Bool

/-- The item stays as tried, without a plan. -/
def Trial.keep (trial : Trial) (prefixes : SortedMap String TransferPrefix)
    (status : PaymentLiquidityStatus) : Decision where
  status := status
  plan := none
  accounts := trial.spent.accounts
  backing := trial.backing
  prefixes := prefixes
  calendar := false

/-- The item can be paid once the inherited legs are done. -/
def inheritPlan (input : LiquidityInput) (expires : String) (item : LiquidityPurchaseItem)
    (due : Instant) (trial : Trial) (legs : List TransferLeg) (unresolved : Bool)
    (prefixes : SortedMap String TransferPrefix) : Checked Decision := do
  let plan ← transferPlan input expires item.amount.currency due legs trial.backing
  let onTime := plan.legs.all TransferLeg.onTime
  pure
    { status := planStatus onTime unresolved, plan := some plan, accounts := trial.spent.accounts
      backing := trial.backing, calendar := false
      prefixes := if onTime then prefixes.insert item.amount.currency
        { legs := plan.legs, unresolved := unresolved } else prefixes }

/-- Some leg of the plan follows a calendar policy. -/
def usesCalendar (input : LiquidityInput) (plan : TransferPlan) : Bool :=
  plan.legs.any fun leg => input.liquidityPolicy.transferRoutes.any fun route =>
    route.id == leg.timingRouteId && route.providerArrivalAt.isNone

/-- Apply the legs of a plan to the accounts. -/
def applyLegs (accounts : Accounts) (legs : List TransferLeg) : Checked Accounts :=
  legs.foldlM (fun accounts leg =>
    moveCash accounts leg.sourceAccountId leg.destinationAccountId leg.amount.minorUnits) accounts

/-- The item needs a transfer: the inherited legs and those of the solution. -/
def solutionPlan (input : LiquidityInput) (expires : String) (item : LiquidityPurchaseItem)
    (due : Instant) (trial : Trial) (inherited : List TransferLeg) (solution : TransferSolution)
    (unresolved : Bool) (prefixes : SortedMap String TransferPrefix) : Checked Decision := do
  let plan ← transferPlan input expires item.amount.currency due (inherited ++ solution.legs)
    solution.backingAfter
  let onTime := plan.legs.all TransferLeg.onTime
  let calendar := usesCalendar input plan
  if onTime then do
    -- inherited legs are prerequisites, their cash has been moved already
    let accounts ← applyLegs trial.spent.accounts (plan.legs.drop inherited.length)
    pure { status := planStatus true unresolved, plan := some plan, accounts := accounts
           backing := plan.backingAfter, calendar := calendar
           prefixes := prefixes.insert item.amount.currency
             { legs := plan.legs, unresolved := unresolved } }
  else
    pure { status := planStatus false unresolved, plan := some plan, calendar := calendar
           accounts := trial.spent.accounts, backing := trial.backing, prefixes := prefixes }

/-- The item cannot be paid as it stands: look for transfers. -/
def transferItem (input : LiquidityInput) (o : Opened) (s : Buying) (item : LiquidityPurchaseItem)
    (destination : String) (due : Instant) (trial : Trial) (inherited : List TransferLeg)
    (unresolved : Bool) : Checked Decision := do
  let a ← orStop (trial.spent.accounts.get? destination) "payment_account_missing"
  let authorized := trial.spent.credit.all fun c => !c.authorizationAfter.isNegative
  if (decide ((a.head : Int) < 0) || !trial.backing.feasible) && authorized && o.before.feasible &&
      !o.envelopes.unknown then do
    let needed ← sub 0 a.head
    let (solution, unknown) ← transfer input trial.spent.accounts o.categories trial.spent.demands
      { destination := destination, shortfall := needed.clamp, requiredBy := due } o.clock.now
      s.joint.prior
    match solution with
    | some solution =>
      solutionPlan input o.expires item due trial inherited solution (unresolved || unknown)
        s.prefixes
    | none => pure (trial.keep s.prefixes (noPlanStatus (unresolved || unknown)))
  else pure (trial.keep s.prefixes (noPlanStatus unresolved))

/-- Decide an item from its selected account's trial. -/
def decideItem (input : LiquidityInput) (o : Opened) (s : Buying) (item : LiquidityPurchaseItem)
    (destination : String) (due : Instant) (trial : Trial) (inherited : List TransferLeg)
    (alternatives : List PaymentAlternative) (unresolved : Bool) : Checked Decision :=
  if trial.ready then
    if inherited.isEmpty then pure (trial.keep s.prefixes .ready)
    else inheritPlan input o.expires item due trial inherited unresolved s.prefixes
  else if !alternatives.isEmpty then pure (trial.keep s.prefixes .useOtherAccount)
  else transferItem input o s item destination due trial inherited unresolved

/-- When a card payment is due, or the item. -/
def paymentDue (credit : Option CreditPaymentResult) (required : Instant) : Checked Instant :=
  match credit with
  | some c => instant c.dueAt
  | none => pure required

/-- The assumptions after an item that inherits legs. -/
def inheritAssumption (assumptions : List String) (inherited : Bool) : List String :=
  if inherited && !assumptions.contains "cumulative_same_currency_transfer_prefix" then
    assumptions ++ ["cumulative_same_currency_transfer_prefix"] else assumptions

/-- An item's result before anything is tried. -/
def blankResult (accounts : Accounts) (item : LiquidityPurchaseItem) (funding : BudgetFundingStatus)
    (selection : Option String × String) : PurchaseLiquidityResult where
  itemId := item.id
  categoryId := item.categoryId
  budgetFundingStatus := funding
  paymentLiquidityStatus := .insufficientData
  selectedAccountId := selection.1
  selectionSource := selection.2
  selectedBefore := selection.1.bind fun id => (accounts.get? id).map (·.output)
  selectedAfter := none
  alternatives := []
  transferPlan := none
  credit := none
  reasons := []

/-- Apply an item to its selected account. -/
def chargeItem (input : LiquidityInput) (o : Opened) (s : Buying) (item : LiquidityPurchaseItem)
    (required : Instant) (id : String) (trial : Trial) (tried : Tried)
    (result : PurchaseLiquidityResult) : Checked (Buying × PurchaseLiquidityResult) := do
  let destination := (trial.spent.credit.map (·.paymentAccountId)).getD id
  let due ← paymentDue trial.spent.credit required
  let previous := s.prefixes.get? item.amount.currency
  let inherited := (previous.map (·.legs)).getD []
  let unresolved := tried.unresolved || previous.any (·.unresolved)
  let decision ← decideItem input o s item destination due trial inherited tried.alternatives
    unresolved
  let assumptions := inheritAssumption s.joint.assumptions (!inherited.isEmpty)
  pure (
    { joint := { s.joint with
        accounts := decision.accounts, demands := trial.spent.demands, prior := decision.backing
        assumptions := if decision.calendar then
          assumptions ++ ["explicit_transfer_calendar_policy"] else assumptions }
      prefixes := decision.prefixes },
    { result with
      paymentLiquidityStatus := decision.status
      selectedAfter := (decision.accounts.get? id).map (·.output)
      transferPlan := decision.plan
      credit := trial.spent.credit
      alternatives := tried.alternatives
      reasons := tried.reasons ++ (if inherited.isEmpty then []
        else ["cumulative_same_currency_transfer_prefix"]) })

/-- An item whose selected account could not be tried leaves everything as it is. -/
def skipItem (tried : Tried) (result : PurchaseLiquidityResult) : PurchaseLiquidityResult :=
  match result.selectedAccountId with
  | none => { result with
      alternatives := tried.alternatives
      reasons := tried.reasons ++ ["no_payment_account_selected"] }
  | some _ => { result with
      alternatives := tried.alternatives
      paymentLiquidityStatus := if tried.alternatives.isEmpty then .insufficientData
        else .useOtherAccount
      reasons := tried.reasons ++ ["selected_account_unavailable"] }

/-- Whether the evidence behind the opening allocation is incomplete. -/
def openUnresolved (o : Opened) : Bool :=
  o.envelopes.unknown || o.before.reasons.contains "incomplete_backing_evidence"

/-- Pay an item from its selected account, if that can be tried. -/
def payItem (input : LiquidityInput) (o : Opened) (s : Buying) (item : LiquidityPurchaseItem)
    (required : Instant) (tried : Tried) (result : PurchaseLiquidityResult) :
    Checked (Buying × PurchaseLiquidityResult) :=
  match result.selectedAccountId with
  | none => pure (s, skipItem tried result)
  | some id =>
    match tried.trials.get? id with
    | none => pure (s, skipItem tried result)
    | some trial => chargeItem input o s item required id trial tried result

/-- One item of a joint purchase. -/
def purchaseStep (input : LiquidityInput) (o : Opened) (s : Buying)
    (item : LiquidityPurchaseItem) : Checked Buying := do
  let (n, required) ← itemTerms o.clock item
  let selection := selected item.routeSelection
  let (funding, available) ← fundItem o.categories s.joint.available item n
  let result := blankResult s.joint.accounts item funding selection
  let tried ← s.joint.accounts.entries.foldlM
    (tryAccount input o s.joint item selection.1)
    { trials := SortedMap.empty, alternatives := [], reasons := [], unresolved := openUnresolved o }
  let s : Buying := { s with joint := { s.joint with available := available } }
  let (s, result) ← payItem input o s item required tried result
  pure { s with joint := { s.joint with
    status := worse s.joint.status result.paymentLiquidityStatus
    budget := worseBudget s.joint.budget funding
    purchases := s.joint.purchases ++ [result] } }

/-- The items in order of identity. -/
def orderedItems (items : List LiquidityPurchaseItem) : List LiquidityPurchaseItem :=
  sortOn (·.id) items

/-- The scenario. -/
def runScenario (input : LiquidityInput) (o : Opened) : Checked Joint :=
  match input.scenario with
  | .none => pure o.joint
  | .reallocation moves => do
    unique (moves.map (·.id))
    (sortOn (·.id) moves).foldlM
      (reallocationStep input o.categories) o.joint
  | .purchases items => do
    unique (items.map (·.id))
    reject items.isEmpty "empty_purchase_scenario"
    let s ← (orderedItems items).foldlM (purchaseStep input o)
      { joint := { o.joint with status := .ready }, prefixes := SortedMap.empty }
    pure s.joint

/-! ## Closing -/

/-- A category's remaining availability. -/
def closeCategory (available : Amounts) (entry : String × CategoryCapacity) : CategoryCapacity :=
  { entry.2 with remainingAvailability :=
      (available.get? entry.1).map fun n => m n entry.2.authoritativeAvailability.currency }

/-- The overall status. -/
def closeStatus (input : LiquidityInput) (o : Opened) (s : Joint) (after : BackingAllocation) :
    PaymentLiquidityStatus :=
  let status := if !input.sourceCoverageComplete then .insufficientData else s.status
  match input.scenario with
  | .purchases _ => status
  | _ =>
    if after.feasible then status
    else if !input.sourceCoverageComplete || o.envelopes.unknown || anyUnknown s.accounts then
      .insufficientData
    else .notLiquid

/-- Everything after the scenario. -/
def closeEvaluation (input : LiquidityInput) (o : Opened) (s : Joint) :
    Checked AccountAwareSpendabilityResult := do
  let after ← allocation input s.accounts o.categories s.demands (some s.prior)
  let after := coverBacking input o.envelopes.unknown after
  pure { unavailable input "liquidity_unavailable" with
    reasons := []
    expiresAt := o.expires
    accountsBefore := o.accounts.values.map (·.output)
    accountsAfter := s.accounts.values.map (·.output)
    categories := o.envelopes.outputs.entries.map (closeCategory s.available)
    backingBefore := o.before
    backingAfter := after
    budgetFundingStatus := s.budget
    paymentLiquidityStatus := closeStatus input o s after
    purchases := s.purchases
    assumptions := s.assumptions }

def checkedEvaluate (input : LiquidityInput) : Checked AccountAwareSpendabilityResult := do
  let o ← openEvaluation input
  let s ← runScenario input o
  closeEvaluation input o s

def evaluate (input : LiquidityInput) : AccountAwareSpendabilityResult :=
  match checkedEvaluate input with
  | .ok result => result
  | .error reason => unavailable input reason

end BalanceFrame.Liquidity
