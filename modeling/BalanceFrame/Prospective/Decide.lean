import BalanceFrame.Prospective.Claims
import BalanceFrame.Purchase.Snapshot

/-!
# Evaluating a prospective purchase

Model of `evaluate_prospective_purchase`, `append_relevant_observation_issues`,
`observation_is_relevant` and `exceeds_max_age`
(`crates/core-protocol/src/prospective_decision.rs`). The source pushes its issues one after the
other; here each part of it lists the issues it pushes, and `pushIssues` pushes a list. The evidence
and the metadata of the envelope are left out.
-/

namespace BalanceFrame.Prospective

open Library Liquidity
open Decision (DecisionScope ObservationKind ObservationState SourceObservation
  SnapshotCoverage sourceCoverageComplete)

/-! ## Requests -/

/-- `Transaction`, with its id. -/
structure Transaction extends Purchase.Transaction where
  id : String

/-- `Category`, the fields read here. -/
structure Category where
  id : String
  deleted : Bool
  deriving DecidableEq

/-- `ProtocolSnapshot`, the fields read here; of a schedule only its id. -/
structure LegacySnapshot where
  snapshotDate : String
  bankSyncedAt : Option String
  accounts : List Purchase.Account
  transactions : List Transaction
  categories : List Category
  budgets : List Purchase.BudgetMonth
  schedules : List String

structure FinancialSnapshot where
  snapshotId : String
  contentHash : String
  capturedAt : String
  legacySnapshot : LegacySnapshot
  coverage : SnapshotCoverage
  observations : List SourceObservation
  liquidity : Option LiquidityFacts

structure PurchaseLiquidityContext where
  liquidityPolicy : LiquidityPolicy
  claimSet : LiquidityClaimSet
  priorAllocation : Option BackingAllocation
  routeSelection : RouteSelection
  purchaseAt : String
  requiredBy : String
  deriving DecidableEq

structure ProspectivePurchaseEvaluationRequest where
  financialSnapshot : FinancialSnapshot
  context : DecisionContext
  claims : List ProspectiveClaim
  proposedTransaction : Transaction
  categoryId : String
  requestId : String
  correlationId : String
  decisionId : String
  validUntil : String
  liquidity : Option PurchaseLiquidityContext

/-- The snapshot as the purchase evaluation reads it. -/
def LegacySnapshot.forPurchase (s : LegacySnapshot) : Purchase.ProtocolSnapshot where
  snapshotDate := s.snapshotDate
  accounts := s.accounts
  transactions := s.transactions.map (·.toTransaction)
  categories := s.categories.map (·.id)
  budgets := s.budgets

/-- The snapshot as `source_coverage_complete` reads it. -/
def FinancialSnapshot.forCoverage (s : FinancialSnapshot) : Decision.FinancialSnapshot where
  snapshotId := s.snapshotId
  contentHash := s.contentHash
  legacySnapshot :=
    { accounts := s.legacySnapshot.accounts.map (·.id)
      categories := s.legacySnapshot.categories.map (·.id)
      budgets := s.legacySnapshot.budgets.map (·.month) }
  coverage := s.coverage
  observations := s.observations
  liquidity := s.liquidity

/-- The request to `evaluate_purchase_with_policy`. -/
def purchaseRequest (r : ProspectivePurchaseEvaluationRequest) :
    Purchase.PurchaseEvaluationRequest where
  snapshot := r.financialSnapshot.legacySnapshot.forPurchase
  proposedTransaction := r.proposedTransaction.toTransaction
  categoryId := r.categoryId

/-! ## Issues of the request -/

/-- Push issues one after the other. -/
def pushIssues (issues : List DecisionIssue) (more : List DecisionIssue) : List DecisionIssue :=
  more.foldl pushIssueOnce issues

/-- An issue under a condition. -/
def issueIf (condition : Bool) (code : DecisionIssueCode) (scope : DecisionScope) :
    List DecisionIssue :=
  if condition then [blockingIssue code scope] else []

def validDecisionWindow (r : ProspectivePurchaseEvaluationRequest) : Bool :=
  match validContextTime r.context, parseRfc3339 r.validUntil,
    parseRfc3339 r.context.horizon.endsAt with
  | some evaluatedAt, some validUntil, some horizonEnd =>
    evaluatedAt.before validUntil && !horizonEnd.before validUntil
  | _, _, _ => false

/-- The scope of an issue about the proposed transaction. -/
def transactionScope (r : ProspectivePurchaseEvaluationRequest) : DecisionScope :=
  if isBlank r.proposedTransaction.id then .global else .transaction r.proposedTransaction.id

/-- The account of the proposed transaction. -/
def proposedAccount (r : ProspectivePurchaseEvaluationRequest) : Option Purchase.Account :=
  r.financialSnapshot.legacySnapshot.accounts.find? (·.id == r.proposedTransaction.accountId)

def budgetCategory (r : ProspectivePurchaseEvaluationRequest) : Option Money :=
  Purchase.budgetCategory (purchaseRequest r)

def expectedCurrency (r : ProspectivePurchaseEvaluationRequest) : Option String :=
  (budgetCategory r).map (·.currency)

/-- The claims with a listed id. -/
def listedClaims (r : ProspectivePurchaseEvaluationRequest) : List ProspectiveClaim :=
  r.claims.filter fun claim =>
    (evaluateProspectiveClaims r.context r.claims).eligibleClaimIds.contains claim.claimId

/-- The listed claims on the category of the purchase. -/
def categoryClaims (r : ProspectivePurchaseEvaluationRequest) : List ProspectiveClaim :=
  (listedClaims r).filter (·.scope == .category r.categoryId)

def incompatibleCurrency (r : ProspectivePurchaseEvaluationRequest) : Bool :=
  (expectedCurrency r).any fun currency =>
    r.proposedTransaction.amount.currency != currency ||
    ((proposedAccount r).any fun account =>
      accountAllowed r.context account.id && account.clearedBalance.currency != currency) ||
    (categoryClaims r).any (·.amount.currency != currency)

/-- The issues of the request, before the observations. -/
def requestIssues (r : ProspectivePurchaseEvaluationRequest) : List DecisionIssue :=
  let snapshot := r.financialSnapshot
  issueIf (isBlank r.requestId || isBlank r.correlationId || isBlank r.decisionId)
    (.unknown "invalid_request_identity") .global ++
  issueIf (isBlank snapshot.snapshotId || isBlank snapshot.contentHash)
    (.unknown "invalid_snapshot_identity") .global ++
  issueIf (r.context.snapshotId != snapshot.snapshotId) (.unknown "snapshot_mismatch") .global ++
  issueIf (r.context.contentHash != snapshot.contentHash) (.unknown "content_hash_mismatch")
    .global ++
  issueIf (!validDecisionWindow r) (.unknown "invalid_decision_validity") .global ++
  issueIf (isBlank r.proposedTransaction.accountId || isBlank r.categoryId ||
      r.proposedTransaction.categoryId != some r.categoryId ||
      decide (0 ≤ (r.proposedTransaction.amount.minorUnits : Int)))
    (.unknown "invalid_purchase_input") (transactionScope r) ++
  issueIf (!snapshot.legacySnapshot.categories.any fun category =>
      category.id == r.categoryId && !category.deleted)
    (.unknown "missing_required_identity") (.category r.categoryId) ++
  issueIf (proposedAccount r).isNone (.unknown "missing_required_identity")
    (.account r.proposedTransaction.accountId) ++
  issueIf (budgetCategory r).isNone (.unknown "missing_required_money") (.category r.categoryId) ++
  issueIf (incompatibleCurrency r) .currencyMismatch (.category r.categoryId)

/-! ## Issues of the observations -/

def observationIsRelevant (r : ProspectivePurchaseEvaluationRequest)
    (observation : SourceObservation) : Bool :=
  match observation.scope with
  | .global => true
  | .account id => id == r.proposedTransaction.accountId
  | .category id => id == r.categoryId
  | .transaction id =>
    id == r.proposedTransaction.id ||
      r.financialSnapshot.legacySnapshot.transactions.any fun transaction =>
        transaction.id == id &&
          (transaction.accountId == r.proposedTransaction.accountId ||
            transaction.categoryId == some r.categoryId)
  | .schedule id => r.financialSnapshot.legacySnapshot.schedules.contains id
  | .claim _ => false

/-- What an observation reports, and to what effect. -/
def observed :
    ObservationKind → ObservationState → Option (DecisionIssueCode × DecisionIssueEffect)
  | .accountFreshness, .stale => some (.accountFreshnessCoverage, .blocks)
  | .accountFreshness, .unavailable => some (.accountFreshnessCoverage, .blocks)
  | .accountCoverage, .unavailable => some (.accountFreshnessCoverage, .blocks)
  | .accountType, .unavailable => some (.accountFreshnessCoverage, .qualifies)
  | .accountBalance, .unavailable => some (.accountFreshnessCoverage, .blocks)
  | .scheduleCoverage, .unavailable => some (.scheduleCoverage, .blocks)
  | .creditCardObligationCoverage, .unavailable => some (.creditPaymentUncertainty, .blocks)
  | .transferAmbiguity, .ambiguous => some (.duplicateTransferAmbiguity, .blocks)
  | .duplicateCandidate, .present => some (.duplicateTransferAmbiguity, .blocks)
  | .duplicateCandidate, .ambiguous => some (.economicEventAmbiguity, .blocks)
  | .pendingActivity, .unavailable => some (.pendingAvailability, .blocks)
  | .currencyCompatibility, .incompatible => some (.currencyMismatch, .blocks)
  | .reconciliation, .unreconciled => some (.economicEventAmbiguity, .blocks)
  | _, _ => none

/-- `append_relevant_observation_issues`. -/
def observationIssues (r : ProspectivePurchaseEvaluationRequest) : List DecisionIssue :=
  (r.financialSnapshot.observations.filter (observationIsRelevant r)).filterMap fun observation =>
    (observed observation.kind observation.state).map fun reported =>
      ⟨reported.1, reported.2, observation.scope⟩

/-! ## The purchase -/

/-- `exceeds_max_age`: an age that cannot be read exceeds every limit. -/
def exceedsMaxAge (evaluatedAt : String) (observedAt : Option String)
    (maxAgeMinutes : Option Nat) : Bool :=
  match maxAgeMinutes with
  | none => false
  | some minutes =>
    match parseRfc3339 evaluatedAt, observedAt.bind parseRfc3339 with
    | some now, some observed =>
      decide ((minutes : Int) * 60 * nanosPerSecond < now.moment - observed.moment)
    | _, _ => true

def hasStaleSnapshot (r : ProspectivePurchaseEvaluationRequest) : Bool :=
  exceedsMaxAge r.context.evaluatedAt (some r.financialSnapshot.capturedAt)
    r.context.policy.maxBudgetSnapshotAgeMinutes

/-- The first ten bytes of a text: its date. -/
def dateOf (text : String) : Option String := (takeBytes 10 text.toList).map String.ofList

/-- `has_stale_bank_sync`: without a limit, a sync of an earlier date than the snapshot's. -/
def hasStaleBankSync (r : ProspectivePurchaseEvaluationRequest) : Bool :=
  let legacy := r.financialSnapshot.legacySnapshot
  if r.context.policy.maxBankSyncAgeMinutes.isSome then
    exceedsMaxAge r.context.evaluatedAt legacy.bankSyncedAt r.context.policy.maxBankSyncAgeMinutes
  else
    legacy.bankSyncedAt.any fun synced =>
      (dateOf synced).all fun date => decide (date < (dateOf legacy.snapshotDate).getD "")

/-- The purchase evaluation under the policy of the context. -/
def purchasePayload (r : ProspectivePurchaseEvaluationRequest) : Purchase.PurchaseEvaluation :=
  Purchase.evaluatePurchaseWithPolicy (purchaseRequest r)
    r.context.policy.toDecisionDataPolicy (hasStaleSnapshot r) (hasStaleBankSync r)

def payloadCurrencyCompatible (r : ProspectivePurchaseEvaluationRequest)
    (payload : Purchase.PurchaseEvaluation) : Bool :=
  (expectedCurrency r).any fun currency =>
    payload.categoryBudget.currency == currency && payload.categorySpent.currency == currency &&
      payload.categoryRemaining.currency == currency &&
      payload.projectedBalance.all (·.currency == currency)

/-- The issues of the purchase evaluation. -/
def payloadIssues (r : ProspectivePurchaseEvaluationRequest)
    (payload : Purchase.PurchaseEvaluation) : List DecisionIssue :=
  let reason := fun code => payload.reasonCodes.contains code
  let account := DecisionScope.account r.proposedTransaction.accountId
  issueIf ((budgetCategory r).isSome && !payloadCurrencyCompatible r payload) .currencyMismatch
    (.category r.categoryId) ++
  issueIf (reason "currency_mismatch") .currencyMismatch (.category r.categoryId) ++
  issueIf (reason "stale_snapshot") .accountFreshnessCoverage .global ++
  issueIf (reason "account_unavailable") (.unknown "account_unavailable") account ++
  issueIf (reason "stale_bank_sync") .accountFreshnessCoverage account ++
  issueIf (reason "evaluation_error") (.unknown "purchase_evaluation_error")
    (.transaction r.proposedTransaction.id)

/-- Take an amount from what is left, or report why not. -/
def takeAmount (categoryId : String) (s : Option Money × List DecisionIssue) (amount : Money) :
    Option Money × List DecisionIssue :=
  match s.1 with
  | none => s
  | some left =>
    match left.sub amount with
    | .ok remaining => (some remaining, s.2)
    | .error _ =>
      (none, pushIssueOnce s.2 (blockingIssue
        (if left.currency = amount.currency then .unknown "money_arithmetic_overflow"
          else .currencyMismatch) (.category categoryId)))

/-- `before_amount`, with the issues so far. -/
def beforeAmount (r : ProspectivePurchaseEvaluationRequest) (payload : Purchase.PurchaseEvaluation)
    (issues : List DecisionIssue) : Option Money × List DecisionIssue :=
  let compatible := payloadCurrencyCompatible r payload &&
    !issues.any (·.code == .currencyMismatch)
  (categoryClaims r).foldl (fun s claim => takeAmount r.categoryId s claim.amount)
    (if compatible then some payload.categoryRemaining else none, issues)

/-- `after_amount`, with the issues so far. -/
def afterAmount (r : ProspectivePurchaseEvaluationRequest)
    (s : Option Money × List DecisionIssue) : Option Money × List DecisionIssue :=
  match r.proposedTransaction.amount.minorUnits.checkedAbs with
  | none => (none, s.2)
  | some units => takeAmount r.categoryId s ⟨units, r.proposedTransaction.amount.currency⟩

/-! ## Claims for the engine -/

/-- The context of the request, or the one the source builds without it. -/
def liquidityContext (r : ProspectivePurchaseEvaluationRequest) : PurchaseLiquidityContext :=
  r.liquidity.getD
    { liquidityPolicy :=
        { version := r.context.policyVersion, policyHash := r.context.policyHash
          expiresAt := r.validUntil, accounts := [], transferRoutes := [] }
      claimSet := ⟨"unavailable", []⟩
      priorAllocation := none
      routeSelection :=
        { explicitAccountId := some r.proposedTransaction.accountId, sessionAccountId := none
          approvedPreference := none, historicalRoute := none }
      purchaseAt := r.context.evaluatedAt
      requiredBy := r.context.evaluatedAt }

/-- The kind of effect and the resource of a scope that can be represented. -/
def claimResource : DecisionScope → Option (ClaimEffectKind × String)
  | .category id => some (.category, id)
  | .account id => some (.accountDebit, id)
  | .global | .transaction _ | .schedule _ | .claim _ => none

/-- `linked_categories`: the categories of the listed claims of one source and amount. -/
def linkedCategories (listed : List ProspectiveClaim) (claim : ProspectiveClaim) : List String :=
  listed.filterMap fun candidate =>
    if candidate.sourceId == claim.sourceId && candidate.amount == claim.amount then
      match candidate.scope with
      | .category id => some id
      | _ => none
    else none

/-- The effect of a claim. -/
def claimEffect (listed : List ProspectiveClaim) (claim : ProspectiveClaim)
    (resource : ClaimEffectKind × String) : LiquidityClaimEffect where
  kind := resource.1
  resourceId := resource.2
  amount := claim.amount
  economicObligationId := claim.sourceId
  sourceEconomicObligationId := none
  categoryId := if resource.1 == .accountDebit then (linkedCategories listed claim).head? else none
  includedInBalance := false
  matchedTransactionIds := []

/-- The bundle of a claim that no bundle stands for. -/
def claimBundle (validUntil : String) (claim : ProspectiveClaim) (effect : LiquidityClaimEffect) :
    LiquidityClaimBundle where
  id := claim.claimId
  creationSnapshotId := claim.snapshotId
  creationPolicyVersion := claim.policyVersion
  state := .active
  expiresAt := claim.expiresAt.getD validUntil
  initiated := false
  effects := [effect]

/-- The claim set so far, and `legacy_claims_representable`. -/
structure Merged where
  bundles : List LiquidityClaimBundle
  representable : Bool

/-- One round of the loop over the listed claims. A bundle of the claim's id stands for it, when it
is in state `Active` and has the effect. -/
def mergeClaim (listed : List ProspectiveClaim) (validUntil : String) (s : Merged)
    (claim : ProspectiveClaim) : Merged :=
  match claimResource claim.scope with
  | none => { s with representable := false }
  | some resource =>
    if resource.1 == .accountDebit && 1 < (linkedCategories listed claim).length then
      { s with representable := false }
    else
      let effect := claimEffect listed claim resource
      match s.bundles.find? (·.id == claim.claimId) with
      | some existing =>
        if existing.state != .active || !existing.effects.contains effect then
          { s with representable := false }
        else s
      | none => { s with bundles := s.bundles ++ [claimBundle validUntil claim effect] }

/-- The claims of the request, merged. -/
def mergedClaims (r : ProspectivePurchaseEvaluationRequest) : Merged :=
  (listedClaims r).foldl (mergeClaim (listedClaims r) r.validUntil)
    { bundles := (liquidityContext r).claimSet.bundles, representable := true }

/-! ## The decision -/

def identityMatches (r : ProspectivePurchaseEvaluationRequest) : Bool :=
  r.financialSnapshot.snapshotId == r.context.snapshotId &&
    r.financialSnapshot.contentHash == r.context.contentHash &&
    (liquidityContext r).liquidityPolicy.version == r.context.policyVersion &&
    (liquidityContext r).liquidityPolicy.policyHash == r.context.policyHash

/-- The amount of the purchase, `-1` where it has no absolute value. -/
def purchaseAmount (r : ProspectivePurchaseEvaluationRequest) : Money :=
  match r.proposedTransaction.amount.abs with
  | .ok amount => amount
  | .error _ => ⟨.wrap (-1), r.proposedTransaction.amount.currency⟩

/-- The input of the account-aware engine. -/
def engineInput (r : ProspectivePurchaseEvaluationRequest) : LiquidityInput where
  sourceCoverageComplete := sourceCoverageComplete r.financialSnapshot.forCoverage
  maxBudgetSnapshotAgeMinutes := r.context.policy.maxBudgetSnapshotAgeMinutes.getD 15
  snapshotId := r.financialSnapshot.snapshotId
  contentHash := r.financialSnapshot.contentHash
  evaluatedAt := r.context.evaluatedAt
  horizon := r.context.horizon
  facts :=
    if r.liquidity.isSome && identityMatches r && (mergedClaims r).representable then
      r.financialSnapshot.liquidity
    else none
  liquidityPolicy := (liquidityContext r).liquidityPolicy
  claimSet := { (liquidityContext r).claimSet with bundles := (mergedClaims r).bundles }
  priorAllocation := (liquidityContext r).priorAllocation
  scenario := .purchases
    [{ id := r.requestId
       categoryId := r.categoryId
       amount := purchaseAmount r
       purchaseAt := (liquidityContext r).purchaseAt
       requiredBy := (liquidityContext r).requiredBy
       routeSelection := (liquidityContext r).routeSelection }]
  validUntil := r.validUntil

def accountAware (r : ProspectivePurchaseEvaluationRequest) : AccountAwareSpendabilityResult :=
  let result := evaluate (engineInput r)
  { result with
    reasons := if (mergedClaims r).representable then result.reasons
      else ["legacy_claim_scope_or_identity_conflict"]
    assumptions := if r.context.policy.maxBudgetSnapshotAgeMinutes.isNone then
      result.assumptions ++ ["default_15_minute_snapshot_age_policy"] else result.assumptions }

def accountReady (result : AccountAwareSpendabilityResult) : Bool :=
  result.budgetFundingStatus == .funded && result.paymentLiquidityStatus == .ready

/-- The issue of a payment that is not ready: it only qualifies where another route may pay. -/
def accountIssue (r : ProspectivePurchaseEvaluationRequest)
    (result : AccountAwareSpendabilityResult) : DecisionIssue where
  code := .unknown "account_payment_not_ready"
  effect :=
    if (result.paymentLiquidityStatus == .useOtherAccount ||
        result.paymentLiquidityStatus == .transferRequired ||
        result.paymentLiquidityStatus == .transferTooLate) &&
        result.budgetFundingStatus == .funded then .qualifies
    else .blocks
  scope := .account r.proposedTransaction.accountId

inductive DecisionReadiness
  | ready
  | qualified
  | blocked
  deriving DecidableEq

/-- The readiness of a decision with these issues. -/
def readinessOf (issues : List DecisionIssue) : DecisionReadiness :=
  if issues.any (·.effect == .blocks) then .blocked
  else if issues.any (·.effect == .qualifies) then .qualified
  else .ready

/-- `PurchaseEvaluation`, with its account-aware part. -/
structure PurchaseEvaluation extends Purchase.PurchaseEvaluation where
  accountAware : AccountAwareSpendabilityResult

/-- `ProspectiveDecisionEnvelope`: of `before` and `after` the amount of the category. -/
structure ProspectiveDecisionEnvelope where
  readiness : DecisionReadiness
  before : Option Money
  after : Option Money
  issues : List DecisionIssue
  expiresAt : String
  payload : PurchaseEvaluation

def evaluateProspectivePurchase (r : ProspectivePurchaseEvaluationRequest) :
    ProspectiveDecisionEnvelope :=
  let payload := purchasePayload r
  let issues := pushIssues (evaluateProspectiveClaims r.context r.claims).issues
    (requestIssues r ++ observationIssues r ++ payloadIssues r payload)
  let (beforeAmount, issues) := beforeAmount r payload issues
  let (afterAmount, issues) := afterAmount r (beforeAmount, issues)
  let result := accountAware r
  let ready := accountReady result
  let decided := if ready then issues else pushIssueOnce issues (accountIssue r result)
  { readiness := readinessOf decided
    before := beforeAmount
    after := afterAmount
    issues := decided
    expiresAt := result.expiresAt
    payload := { payload with
      allowable := ready && !issues.any (·.effect == .blocks)
      accountAware := result } }

end BalanceFrame.Prospective
