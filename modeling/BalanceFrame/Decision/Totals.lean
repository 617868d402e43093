import BalanceFrame.Decision.Timestamps
import BalanceFrame.Liquidity.Scenario

/-!
# Requests of a decision card

Model of what `DecisionCardRequest` (`crates/core-protocol/src/decision_card.rs`) hands to the
account-aware engine: the snapshot, context, policy and claims, `source_coverage_complete` and
`domain` (`crates/core-protocol/src/account_aware_liquidity.rs`) with the snapshot's enumerations
(`crates/core-protocol/src/financial_snapshot.rs`). `engineInput` is `engine_request` and `domain`
in one: the input the engine evaluates for a scenario. An identity mismatch takes the facts away,
as the source does.
-/

namespace BalanceFrame.Decision

open Library Liquidity

inductive CoverageState
  | complete
  | partialCoverage
  | empty
  | unavailable
  | unknown
  deriving DecidableEq

inductive ObservationKind
  | accountFreshness
  | accountCoverage
  | accountCollectionCoverage
  | accountType
  | accountBalance
  | pendingActivity
  | unclearedActivity
  | scheduleCoverage
  | creditCardObligationCoverage
  | duplicateCandidate
  | transferAmbiguity
  | reconciliation
  | economicEventResolution
  | walletStatementAnchor
  | currencyCompatibility
  deriving DecidableEq

inductive ObservationState
  | fresh
  | stale
  | unavailable
  | resolved
  | unknown
  | included
  | complete
  | present
  | ambiguous
  | unreconciled
  | incompatible
  deriving DecidableEq

inductive DecisionScope
  | global
  | account (id : String)
  | category (id : String)
  | transaction (id : String)
  | schedule (id : String)
  | claim (id : String)
  deriving DecidableEq

/-- `SourceObservation`, the fields read here. -/
structure SourceObservation where
  kind : ObservationKind
  scope : DecisionScope
  state : ObservationState
  deriving DecidableEq

/-- `SnapshotCoverage` of the collections read here. -/
structure SnapshotCoverage where
  accounts : CoverageState
  categories : CoverageState
  budgets : CoverageState
  deriving DecidableEq

/-- `ProtocolSnapshot`: its accounts, categories and budgets by id; only whether there are any is
read. -/
structure ProtocolSnapshot where
  accounts : List String
  categories : List String
  budgets : List String
  deriving DecidableEq

structure FinancialSnapshot where
  snapshotId : String
  contentHash : String
  legacySnapshot : ProtocolSnapshot
  coverage : SnapshotCoverage
  observations : List SourceObservation
  liquidity : Option LiquidityFacts
  deriving DecidableEq

/-- `DecisionDataPolicy`, the limit read here. -/
structure DecisionDataPolicy where
  maxBudgetSnapshotAgeMinutes : Option Nat
  deriving DecidableEq

structure DecisionContext where
  evaluatedAt : String
  horizon : LiquidityHorizon
  policy : DecisionDataPolicy
  policyVersion : String
  policyHash : String
  snapshotId : String
  contentHash : String
  deriving DecidableEq

/-- `DecisionCardRequest`, without its items and its policies by category. -/
structure DecisionCardRequest where
  financialSnapshot : FinancialSnapshot
  context : DecisionContext
  liquidityPolicy : LiquidityPolicy
  claimSet : LiquidityClaimSet
  priorAllocation : Option BackingAllocation
  validUntil : String
  deriving DecidableEq

/-- One collection is covered: completely, or empty and without entries. -/
def covered (coverage : CoverageState) (empty : Bool) : Bool :=
  coverage == .complete || coverage == .empty && empty

/-- The global receipt that the account collection is complete, and only one. -/
def collectionComplete (snapshot : FinancialSnapshot) : Bool :=
  match snapshot.observations.filter fun observation =>
    observation.kind == .accountCollectionCoverage && observation.scope == .global with
  | [receipt] => receipt.state == .complete
  | _ => false

def sourceCoverageComplete (snapshot : FinancialSnapshot) : Bool :=
  let accounts := if snapshot.coverage.accounts == .partialCoverage &&
    collectionComplete snapshot then .complete else snapshot.coverage.accounts
  covered accounts (snapshot.legacySnapshot.accounts.isEmpty &&
      snapshot.liquidity.all (·.accounts.isEmpty)) &&
    covered snapshot.coverage.categories (snapshot.legacySnapshot.categories.isEmpty &&
      snapshot.liquidity.all (·.categories.isEmpty)) &&
    covered snapshot.coverage.budgets snapshot.legacySnapshot.budgets.isEmpty

/-- The snapshot or the policy is not the one the context names. -/
def identityMismatch (r : DecisionCardRequest) : Bool :=
  r.financialSnapshot.snapshotId != r.context.snapshotId ||
    r.financialSnapshot.contentHash != r.context.contentHash ||
    r.liquidityPolicy.version != r.context.policyVersion ||
    r.liquidityPolicy.policyHash != r.context.policyHash

/-- `engine_request` and `domain`: the engine's input for a scenario. -/
def engineInput (r : DecisionCardRequest) (scenario : LiquidityScenario) : LiquidityInput where
  sourceCoverageComplete := sourceCoverageComplete r.financialSnapshot
  maxBudgetSnapshotAgeMinutes := r.context.policy.maxBudgetSnapshotAgeMinutes.getD 15
  snapshotId := r.financialSnapshot.snapshotId
  contentHash := r.financialSnapshot.contentHash
  evaluatedAt := r.context.evaluatedAt
  horizon := r.context.horizon
  facts := if identityMismatch r then none else r.financialSnapshot.liquidity
  liquidityPolicy := r.liquidityPolicy
  claimSet := r.claimSet
  priorAllocation := r.priorAllocation
  scenario := scenario
  validUntil := r.validUntil

end BalanceFrame.Decision

/-!
## Category totals of a decision card

Model of `active_claim`, `category_fact_for_period`, `add_totals` and `category_totals`
(`crates/core-protocol/src/decision_card.rs`). A pass over the categories opens the totals with the
availabilities, a pass over the due account obligations adds the commitments, and a pass over the
category effects of the active claims adds the reservations. A claim that mirrors an obligation is
not added: the obligation is already a commitment.
-/

namespace BalanceFrame.Decision

open Library Liquidity

def activeClaim (b : LiquidityClaimBundle) (evaluatedAt : String) : Bool :=
  match b.state with
  | .settled | .cancelled | .expired => false
  | .initiated => true
  | .active => b.initiated ||
    match canonicalTimestamp b.expiresAt, canonicalTimestamp evaluatedAt with
    | .ok expiresAt, .ok evaluatedAt => evaluatedAt.before expiresAt
    | _, _ => false

def categoryFactForPeriod (facts : LiquidityFacts) (categoryId asOfMonth : String) :
    Option CategoryLiquidityFact :=
  facts.categories.find? fun c => c.categoryId == categoryId && c.asOfMonth == asOfMonth

structure CategoryTotals where
  availability : I64
  reservations : I64
  commitments : I64
  deriving DecidableEq

/-- `CategoryKey`: a category and a month. -/
abbrev CategoryKey := String ×ₗ String

abbrev Totals := SortedMap CategoryKey CategoryTotals

/-- The totals `add_totals` adds to. -/
inductive TotalKind
  | availability
  | reservations
  | commitments

def addTotals (totals : Totals) (key : CategoryKey) (amount : I64) (kind : TotalKind) :
    Checked Totals := do
  let entry := (totals.get? key).getD ⟨0, 0, 0⟩
  match kind with
  | .availability => do
    let n ← add entry.availability amount
    pure (totals.insert key { entry with availability := n })
  | .reservations => do
    let n ← add entry.reservations amount
    pure (totals.insert key { entry with reservations := n })
  | .commitments => do
    let n ← add entry.commitments amount
    pure (totals.insert key { entry with commitments := n })

/-! ## Availability -/

/-- What the pass over the categories carries. -/
structure Opening where
  totals : Totals
  currencies : SortedMap String String
  periods : List CategoryKey
  cashBuckets : List String

/-- One category. -/
def openTotals (facts : LiquidityFacts) (s : Opening) (c : CategoryLiquidityFact) :
    Checked Opening := do
  let factMonth ← categoryMonth c.asOfMonth
  let key := toLex (c.categoryId, c.asOfMonth)
  reject (isBlank c.categoryId || isBlank c.cashBucketId || s.periods.contains key ||
    s.cashBuckets.contains c.cashBucketId) "duplicate_or_invalid_category_identity"
  reject c.availability.isNegative "negative_category_availability"
  reject ((s.currencies.get? c.categoryId).any (· != c.availability.currency)) "currency_mismatch"
  let snapshotMonth ← categoryMonth facts.asOfMonth
  reject ((c.periodKind == .current && factMonth != snapshotMonth) ||
    (c.periodKind == .future && decide (toLex factMonth ≤ toLex snapshotMonth)))
    "category_period_mismatch"
  let totals ← addTotals s.totals key c.availability.minorUnits .availability
  pure
    { totals := totals, currencies := s.currencies.insert c.categoryId c.availability.currency
      periods := key :: s.periods, cashBuckets := c.cashBucketId :: s.cashBuckets }

/-! ## Commitments -/

structure ObligationMeta where
  amount : I64
  currency : String
  categoryId : Option String
  accountId : String
  deriving DecidableEq

/-- What the pass over the obligations carries. -/
structure Committing where
  totals : Totals
  obligations : SortedMap String ObligationMeta
  counted : List (String × CategoryKey)

/-- One obligation is one commitment, whatever it is met in again. -/
def recordObligation (s : Committing) (id : String) (candidate : ObligationMeta) :
    Checked Committing :=
  match s.obligations.get? id with
  | some previous => do
    reject (previous != candidate) "ambiguous_obligation_match"
    pure s
  | none => pure { s with obligations := s.obligations.insert id candidate }

/-- An obligation of a category is added to the commitments of its current month. -/
def commitCategory (facts : LiquidityFacts) (s : Committing) (o : CashObligation)
    (categoryId : String) : Checked Committing := do
  let category ← orStop (categoryFactForPeriod facts categoryId facts.asOfMonth) "category_missing"
  reject (category.availability.currency != o.amount.currency) "currency_mismatch"
  let key := toLex (categoryId, category.asOfMonth)
  if s.counted.contains (o.economicObligationId, key) then pure s
  else do
    let totals ← addTotals s.totals key o.amount.minorUnits .commitments
    pure { s with totals := totals, counted := (o.economicObligationId, key) :: s.counted }

/-- The obligation is unpaid, not in a balance yet and due inside the horizon. -/
def obligationCounts (r : DecisionCardRequest) (o : CashObligation) : Bool :=
  !(o.paid || o.includedInBalance || !obligationInHorizon o.dueAt r.context.horizon.endsAt)

/-- One obligation of an account. -/
def commitObligation (r : DecisionCardRequest) (facts : LiquidityFacts) (s : Committing)
    (entry : String × CashObligation) : Checked Committing :=
  let o := entry.2
  if !obligationCounts r o then pure s
  else do
    reject (o.economicObligationId == "") "missing_economic_obligation_id"
    reject (decide ((o.amount.minorUnits : Int) < 0)) "negative_obligation"
    let s ← recordObligation s o.economicObligationId
      { amount := o.amount.minorUnits, currency := o.amount.currency, categoryId := o.categoryId
        accountId := entry.1 }
    match o.categoryId with
    | none => pure s
    | some categoryId => commitCategory facts s o categoryId

/-- The obligations of all accounts, in the order of the loops. -/
def accountObligations (facts : LiquidityFacts) : List (String × CashObligation) :=
  facts.accounts.flatMap fun a => a.obligations.map fun o => (a.accountId, o)

/-! ## Reservations -/

/-- What a category claim was first met with. -/
structure ClaimMeta where
  key : CategoryKey
  amount : I64
  currency : String
  deriving DecidableEq

/-- What the pass over the claims carries. -/
structure Reserving where
  totals : Totals
  claims : SortedMap String ClaimMeta

/-- A claim met for the first time: it mirrors its obligation exactly, or it is a reservation. -/
def reserve (obligations : SortedMap String ObligationMeta) (s : Reserving)
    (e : LiquidityClaimEffect) (matched : String) (found : ClaimMeta) : Checked Reserving := do
  let claims := s.claims.insert e.economicObligationId found
  match obligations.get? matched with
  | some obligation => do
    reject (obligation.amount != found.amount || obligation.currency != found.currency ||
      obligation.categoryId != some (e.categoryId.getD e.resourceId)) "ambiguous_claim_match"
    pure { s with claims := claims }
  | none => do
    let totals ← addTotals s.totals found.key found.amount .reservations
    pure { totals := totals, claims := claims }

/-- One effect of an active claim. -/
def claimReservation (facts : LiquidityFacts) (obligations : SortedMap String ObligationMeta)
    (s : Reserving) (e : LiquidityClaimEffect) : Checked Reserving :=
  if e.kind != .category || e.includedInBalance then pure s
  else do
    reject (e.categoryId.any (· != e.resourceId)) "ambiguous_claim_match"
    reject (e.economicObligationId == "") "missing_economic_obligation_id"
    let category ← orStop (categoryFactForPeriod facts (e.categoryId.getD e.resourceId)
      facts.asOfMonth) "category_missing"
    reject (category.availability.currency != e.amount.currency) "currency_mismatch"
    reject (decide ((e.amount.minorUnits : Int) < 0)) "negative_claim"
    let matched ← e.matchedObligationId
    let found : ClaimMeta :=
      { key := toLex (e.categoryId.getD e.resourceId, category.asOfMonth)
        amount := e.amount.minorUnits, currency := e.amount.currency }
    match s.claims.get? e.economicObligationId with
    | some old => do
      reject (old != found) "ambiguous_claim_match"
      pure s
    | none => reserve obligations s e matched found

/-- The effects of the active claims, in the order of the loops. -/
def claimedEffects (r : DecisionCardRequest) : List LiquidityClaimEffect :=
  (r.claimSet.bundles.filter (activeClaim · r.context.evaluatedAt)).flatMap (·.effects)

def categoryTotals (r : DecisionCardRequest) : Checked Totals := do
  let facts ← orStop r.financialSnapshot.liquidity "liquidity_unavailable"
  let _ ← categoryMonth facts.asOfMonth
  let opened ← facts.categories.foldlM (openTotals facts)
    { totals := .empty, currencies := .empty, periods := [], cashBuckets := [] }
  let committed ← (accountObligations facts).foldlM (commitObligation r facts)
    { totals := opened.totals, obligations := .empty, counted := [] }
  let reserved ← (claimedEffects r).foldlM (claimReservation facts committed.obligations)
    { totals := committed.totals, claims := .empty }
  pure reserved.totals

end BalanceFrame.Decision
