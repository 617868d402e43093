import BalanceFrame.Liquidity.Money

/-!
# The liquidity contract

Model of the data types of `crates/financial-core/src/liquidity.rs`: normalized facts, policy,
claims, scenarios, and the results and plans the engine returns. Field names are the source's in
camel case, which is also how they are serialized. `u32`, `i32` and `u64` fields are unbounded
numbers here: the engine only compares them or converts them with a check.
-/

namespace BalanceFrame.Liquidity

/-! ## Facts -/

inductive FactState
  | known
  | unknown
  | unavailable
  deriving DecidableEq

inductive FactSource
  | actualLedger
  | institutionProvider
  | userAttested
  | policyAssumption
  deriving DecidableEq

structure FactEvidence where
  state : FactState
  source : FactSource
  observedAt : Option String
  expiresAt : Option String
  reasons : List String
  deriving DecidableEq

inductive LiquidityAccountKind
  | cash
  | credit
  | unknown
  deriving DecidableEq

inductive AccountRole
  | dailySpending
  | billPayment
  | reserve
  | savings
  | restricted
  | creditPayment
  | cash
  | excluded
  deriving DecidableEq

inductive LiquidityCategoryKind
  | ordinary
  | income
  | transfer
  | reimbursement
  | debt
  | creditPayment
  deriving DecidableEq

inductive CategoryPeriodKind
  | current
  | future
  deriving DecidableEq

structure CategoryLiquidityFact where
  categoryId : String
  cashBucketId : String
  asOfMonth : String
  kind : LiquidityCategoryKind
  periodKind : CategoryPeriodKind
  availability : Money
  evidence : FactEvidence
  deriving DecidableEq

inductive FlowDirection
  | inflow
  | outflow
  deriving DecidableEq

inductive SettlementProvenance
  | actualImport
  | institutionImport
  | providerConfirmed
  | manualLedger
  deriving DecidableEq

structure UnsettledFlow where
  id : String
  economicObligationId : String
  direction : FlowDirection
  amount : Money
  includedInBalance : Bool
  matchedTransactionIds : List String
  scheduleId : Option String
  transferTransactionId : Option String
  importedId : Option String
  reconciled : Bool
  provenance : SettlementProvenance
  deriving DecidableEq

structure CashObligation where
  id : String
  economicObligationId : String
  categoryId : Option String
  amount : Money
  dueAt : String
  paid : Bool
  includedInBalance : Bool
  matchedTransactionIds : List String
  deriving DecidableEq

structure CreditLiquidityFact where
  authorizationAvailable : Money
  pendingIncludedInAuthorization : Bool
  paymentAccountId : String
  paymentCategoryId : String
  dueAt : String
  reservedCash : Money
  economicObligationId : String
  evidence : FactEvidence
  deriving DecidableEq

structure AccountLiquidityFact where
  accountId : String
  currency : String
  currencyEvidence : FactEvidence
  kind : LiquidityAccountKind
  kindEvidence : FactEvidence
  onBudget : Bool
  closed : Bool
  owned : Bool
  ownershipEvidence : FactEvidence
  recordedBalance : Money
  balanceEvidence : FactEvidence
  freshnessEvidence : FactEvidence
  activityEvidence : FactEvidence
  scheduleEvidence : FactEvidence
  baselineTransactionIds : List String
  unsettledFlows : List UnsettledFlow
  holds : Money
  holdsEvidence : FactEvidence
  obligations : List CashObligation
  credit : Option CreditLiquidityFact
  ambiguityReasons : List String
  deriving DecidableEq

inductive ScheduleAmountCertainty
  | exact
  | approximate
  | range
  | unknown
  deriving DecidableEq

inductive ScheduleFrequency
  | daily
  | weekly
  | monthly
  | yearly
  deriving DecidableEq

inductive ScheduleEndMode
  | never
  | afterNOccurrences
  | onDate
  deriving DecidableEq

inductive ScheduleWeekendSolveMode
  | before
  | after
  deriving DecidableEq

inductive SchedulePatternKind
  | su
  | mo
  | tu
  | we
  | th
  | fr
  | sa
  | day
  deriving DecidableEq

structure ScheduleRecurrencePattern where
  kind : SchedulePatternKind
  value : Int
  deriving DecidableEq

structure ScheduleRecurrence where
  frequency : ScheduleFrequency
  interval : Option Nat
  patterns : Option (List ScheduleRecurrencePattern)
  start : String
  endMode : Option ScheduleEndMode
  endOccurrences : Option Nat
  endDate : Option String
  skipWeekend : Option Bool
  weekendSolveMode : Option ScheduleWeekendSolveMode
  deriving DecidableEq

structure ScheduleLiquidityFact where
  id : String
  accountId : Option String
  categoryId : Option String
  ruleId : Option String
  dueDate : Option String
  certainty : ScheduleAmountCertainty
  amount : Option Money
  minimum : Option Money
  maximum : Option Money
  recurrence : Option ScheduleRecurrence
  deriving DecidableEq

/-- `LiquidityFacts`. The two vectors live in one address space, so together they hold far fewer
than `2^62` entries. -/
structure LiquidityFacts where
  version : String
  ledgerContentHash : String
  asOfMonth : String
  categories : List CategoryLiquidityFact
  accounts : List AccountLiquidityFact
  schedules : List ScheduleLiquidityFact
  addressable : accounts.length + categories.length < 4611686018427387000 := by decide
  deriving DecidableEq

/-! ## Policy -/

structure AccountLiquidityPolicy where
  accountId : String
  role : AccountRole
  protectedBuffer : Money
  paymentEligible : Bool
  sourceEligible : Bool
  backingEligible : Bool
  eligibleCategoryIds : List String
  restrictedCashBucketIds : List String
  automationAllowed : Bool
  resourceScope : String
  deriving DecidableEq

inductive CalendarMode
  | instant
  | calendarDays
  | businessDays
  deriving DecidableEq

structure TransferTimingRoute where
  id : String
  sourceAccountId : String
  destinationAccountId : String
  providerArrivalAt : Option String
  calendarMode : Option CalendarMode
  delayDays : Nat
  utcOffsetMinutes : Option Int
  cutoffMinute : Option Nat
  weekendsAvailable : Option Bool
  holidaysComplete : Bool
  holidays : List String
  evidence : FactEvidence
  deriving DecidableEq

structure LiquidityPolicy where
  version : String
  policyHash : String
  expiresAt : String
  accounts : List AccountLiquidityPolicy
  transferRoutes : List TransferTimingRoute
  deriving DecidableEq

/-! ## Claims -/

inductive LiquidityClaimState
  | active
  | initiated
  | cancelled
  | expired
  | settled
  deriving DecidableEq

inductive ClaimEffectKind
  | category
  | accountDebit
  | destinationHold
  deriving DecidableEq

structure LiquidityClaimEffect where
  kind : ClaimEffectKind
  resourceId : String
  amount : Money
  economicObligationId : String
  sourceEconomicObligationId : Option String
  categoryId : Option String
  includedInBalance : Bool
  matchedTransactionIds : List String
  deriving DecidableEq

structure LiquidityClaimBundle where
  id : String
  creationSnapshotId : String
  creationPolicyVersion : String
  state : LiquidityClaimState
  expiresAt : String
  initiated : Bool
  effects : List LiquidityClaimEffect
  deriving DecidableEq

structure LiquidityClaimSet where
  revision : String
  bundles : List LiquidityClaimBundle
  deriving DecidableEq

/-! ## Scenario and input -/

structure TrustedRoute where
  accountId : String
  referenceId : String
  deriving DecidableEq

structure RouteSelection where
  explicitAccountId : Option String
  sessionAccountId : Option String
  approvedPreference : Option TrustedRoute
  historicalRoute : Option TrustedRoute
  deriving DecidableEq

structure LiquidityPurchaseItem where
  id : String
  categoryId : String
  amount : Money
  purchaseAt : String
  requiredBy : String
  routeSelection : RouteSelection
  deriving DecidableEq

structure CategoryReallocation where
  id : String
  sourceCategoryId : String
  destinationCategoryId : String
  amount : Money
  deriving DecidableEq

inductive LiquidityScenario
  | none
  | purchases (items : List LiquidityPurchaseItem)
  | reallocation (moves : List CategoryReallocation)
  deriving DecidableEq

structure LiquidityHorizon where
  startsAt : String
  endsAt : String
  deriving DecidableEq

structure BackingLine where
  accountId : String
  categoryId : String
  cashBucketId : String
  amount : Money
  deriving DecidableEq

structure BackingAllocation where
  version : String
  snapshotId : String
  contentHash : String
  policyVersion : String
  policyHash : String
  claimSetRevision : String
  feasible : Bool
  lines : List BackingLine
  reasons : List String
  deriving DecidableEq

structure LiquidityInput where
  sourceCoverageComplete : Bool
  maxBudgetSnapshotAgeMinutes : Nat
  snapshotId : String
  contentHash : String
  evaluatedAt : String
  horizon : LiquidityHorizon
  facts : Option LiquidityFacts
  liquidityPolicy : LiquidityPolicy
  claimSet : LiquidityClaimSet
  priorAllocation : Option BackingAllocation
  scenario : LiquidityScenario
  validUntil : String
  deriving DecidableEq

/-! ## Results -/

inductive BudgetFundingStatus
  | funded
  | unfunded
  | insufficientData
  deriving DecidableEq

inductive PaymentLiquidityStatus
  | ready
  | useOtherAccount
  | transferRequired
  | transferTooLate
  | notLiquid
  | insufficientData
  deriving DecidableEq

structure CapacityDeduction where
  reason : String
  evidenceId : String
  amount : Money
  affectsBacking : Bool
  deriving DecidableEq

structure AccountCapacity where
  accountId : String
  recordedBalance : Money
  adjustedCash : Option Money
  signedHeadroom : Option Money
  existingShortfall : Option Money
  safeSpendingCapacity : Option Money
  safeTransferCapacity : Option Money
  backingCapacity : Option Money
  deductions : List CapacityDeduction
  reasons : List String
  deriving DecidableEq

structure CategoryCapacity where
  categoryId : String
  cashBucketId : String
  authoritativeAvailability : Money
  remainingAvailability : Option Money
  reasons : List String
  deriving DecidableEq

structure PaymentAlternative where
  accountId : String
  status : PaymentLiquidityStatus
  capacity : Money
  deriving DecidableEq

structure AccountPlanPrecondition where
  accountId : String
  recordedBalance : Money
  signedHeadroom : Money
  backingCapacity : Money
  baselineTransactionIds : List String
  deriving DecidableEq

structure TransferLeg where
  id : String
  sourceAccountId : String
  destinationAccountId : String
  amount : Money
  requiredBy : String
  estimatedArrival : String
  timingRouteId : String
  sourceBefore : AccountPlanPrecondition
  destinationBefore : AccountPlanPrecondition
  sourceAfter : Money
  destinationAfter : Money
  deriving DecidableEq

structure TransferPlan where
  version : String
  snapshotId : String
  contentHash : String
  policyVersion : String
  policyHash : String
  claimSetRevision : String
  evaluatedAt : String
  expiresAt : String
  minimumAmount : Money
  legs : List TransferLeg
  reservations : List LiquidityClaimEffect
  backingAfter : BackingAllocation
  scenario : LiquidityScenario
  preconditionsHash : String
  payloadHash : String
  deriving DecidableEq

structure CreditPaymentResult where
  accountId : String
  authorizationAvailable : Money
  authorizationAfter : Money
  paymentAccountId : String
  paymentCategoryId : String
  dueAt : String
  additionalPaymentCash : Money
  paymentCashReady : Bool
  deriving DecidableEq

structure PurchaseLiquidityResult where
  itemId : String
  categoryId : String
  budgetFundingStatus : BudgetFundingStatus
  paymentLiquidityStatus : PaymentLiquidityStatus
  selectedAccountId : Option String
  selectionSource : String
  selectedBefore : Option AccountCapacity
  selectedAfter : Option AccountCapacity
  alternatives : List PaymentAlternative
  transferPlan : Option TransferPlan
  credit : Option CreditPaymentResult
  reasons : List String
  deriving DecidableEq

structure AccountAwareSpendabilityResult where
  version : String
  snapshotId : String
  contentHash : String
  policyVersion : String
  policyHash : String
  claimSetRevision : String
  budgetFundingStatus : BudgetFundingStatus
  paymentLiquidityStatus : PaymentLiquidityStatus
  accountsBefore : List AccountCapacity
  accountsAfter : List AccountCapacity
  categories : List CategoryCapacity
  backingBefore : BackingAllocation
  backingAfter : BackingAllocation
  purchases : List PurchaseLiquidityResult
  horizon : LiquidityHorizon
  expiresAt : String
  assumptions : List String
  reasons : List String
  deriving DecidableEq

/-! ## Settlement and revalidation -/

structure TransferSettlementRecord where
  id : String
  accountId : String
  amount : Money
  observedAt : String
  occurredAt : String
  importedId : Option String
  providerReference : Option String
  pairId : String
  reconciled : Bool
  reversed : Bool
  provenance : SettlementProvenance
  deriving DecidableEq

structure TransferSettlementRequest where
  plan : TransferPlan
  evaluatedAt : String
  records : List TransferSettlementRecord
  consumedEvidenceIds : List String
  deriving DecidableEq

structure TransferSettlementResult where
  confirmed : Bool
  sourceObserved : Bool
  destinationObserved : Bool
  reconciled : Bool
  evidenceIds : List String
  reasons : List String
  claimEffects : Option (List LiquidityClaimEffect)
  deriving DecidableEq

structure TransferPreconditionRequest where
  plan : TransferPlan
  currentInput : LiquidityInput
  ownClaimId : Option String
  deriving DecidableEq

structure TransferPreconditionResult where
  valid : Bool
  reasons : List String
  deriving DecidableEq

end BalanceFrame.Liquidity
