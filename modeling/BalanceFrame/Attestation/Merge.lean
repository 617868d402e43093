import BalanceFrame.Governance.Clock
import BalanceFrame.Library.Salvage
import BalanceFrame.Library.Sorting
import BalanceFrame.Liquidity.Facts
import BalanceFrame.Merchant.RuleOrder
import Mathlib.Data.List.Infix
import Mathlib.Data.List.Lex

/-!
# Merging what a person attests into the ledger's facts

Model of `mergeUserAttestedLiquidityObservations`, `bindUserAttestedLiquidityObservations`,
`ledgerConfirmationHash` and `withLiquidityFacts`
(`packages/actual-adapter/src/liquidity-normalizer.ts`). Values a schema has parsed are typed here:
what the refinements of the two observation schemas say is a field of the structures. The source
edits the account in place and throws the copy away on an error, so `mergeObservation` edits a
value and writes it back at the end.

`MergeError.isStale` is the test of `capture` (`packages/application/src/liquidity-service.ts`) on
the text of an error. `isStale_iff` lists what it recognises: four rejections of eleven.
-/

namespace BalanceFrame.Attestation

open Library Liquidity

/-! ## Snapshots -/

/-- A text that `canonicalUtcTimestampSchema` accepts, with its `Date.parse`. -/
structure Timestamp where
  text : String
  millis : Int
  parsed : Governance.timestampMillis text = some millis
  deriving DecidableEq

structure Transaction where
  id : String
  accountId : String
  date : String
  payeeId : Option String
  payeeName : Option String
  categoryId : Option String
  categoryName : Option String
  amount : Money
  cleared : Bool
  reconciled : Bool
  importedId : Option String
  importedPayee : Option String
  notes : Option String
  tags : List String
  transferAccountId : Option String
  subtransactions : List Transaction

structure SnapshotSource where
  ledgerBackend : String
  ledgerId : String
  budgetId : String
  spaceId : Option String
  deriving DecidableEq

/-- `FinancialSnapshot` without its two identities: what the merge reads of it. The rows are those
of `legacySnapshot`. -/
structure SnapshotContent where
  source : SnapshotSource
  transactions : List Transaction
  liquidity : Option LiquidityFacts

structure FinancialSnapshot extends SnapshotContent where
  contentHash : String
  snapshotId : String

/-- What `ledgerConfirmationHash` digests. -/
structure ConfirmationMaterial where
  source : SnapshotSource
  accountId : String
  onBudget : Bool
  closed : Bool
  recordedBalance : Money
  baselineTransactionIds : List String
  unsettledFlows : List UnsettledFlow
  obligations : List CashObligation
  schedules : List ScheduleLiquidityFact
  transactions : List Transaction

/-- SHA-256 in hexadecimal of the canonical JSON of a value. -/
structure Digests where
  confirmation : ConfirmationMaterial → String
  content : SnapshotContent → String

/-! ## Observations -/

/-- `creditLiquidityFactSchema` without its evidence. -/
structure CreditDeclaration where
  authorizationAvailable : Money
  pendingIncludedInAuthorization : Bool
  paymentAccountId : String
  paymentCategoryId : String
  dueAt : String
  reservedCash : Money
  economicObligationId : String
  deriving DecidableEq

/-- The fact a declaration states. -/
def CreditDeclaration.fact (credit : CreditDeclaration) (evidence : FactEvidence) :
    CreditLiquidityFact where
  authorizationAvailable := credit.authorizationAvailable
  pendingIncludedInAuthorization := credit.pendingIncludedInAuthorization
  paymentAccountId := credit.paymentAccountId
  paymentCategoryId := credit.paymentCategoryId
  dueAt := credit.dueAt
  reservedCash := credit.reservedCash
  economicObligationId := credit.economicObligationId
  evidence := evidence

/-- The members of `userAttestedLiquidityObservationSchema` other than its times. A confirmation is
`true` or absent; credit may be absent, `null` or declared. -/
structure ObservedValues where
  accountId : String
  currency : Option String
  kind : Option LiquidityAccountKind
  owned : Option Bool
  currentLedgerConfirmed : Bool
  holds : Option Money
  unsettledFlows : Option (List UnsettledFlow)
  obligations : Option (List CashObligation)
  credit : Option (Option CreditDeclaration)
  manual : ∀ flow ∈ unsettledFlows.getD [], flow.provenance = .manualLedger
  deriving DecidableEq

/-- `UserAttestedLiquidityObservation`. -/
structure UserAttestedObservation extends ObservedValues where
  observedAt : Timestamp
  expiresAt : Timestamp
  ordered : observedAt.millis < expiresAt.millis
  deriving DecidableEq

/-- `PersistedUserAttestedLiquidityObservation`. -/
structure PersistedObservation extends UserAttestedObservation where
  ledgerConfirmationHash : Option String
  bound : ledgerConfirmationHash.isSome = currentLedgerConfirmed
  deriving DecidableEq

/-- The evidence an observation gives. -/
def PersistedObservation.attested (o : PersistedObservation) : FactEvidence where
  state := .known
  source := .userAttested
  observedAt := some o.observedAt.text
  expiresAt := some o.expiresAt.text
  reasons := ["explicit_user_attestation_not_bank_sync"]

/-! ## Rejections -/

/-- What `mergeUserAttestedLiquidityObservations` throws. -/
inductive MergeError
  | normalizationRequired
  | duplicateAccount
  | unknownAccount
  | balanceUnavailable
  | materialMismatch
  | holdEvidence
  | activityEvidence
  | obligationEvidence
  | paymentCategory
  | paymentCurrency
  | paymentAccount
  deriving DecidableEq

/-- The message of an error. -/
def MergeError.message : MergeError → String
  | .normalizationRequired =>
    "Ledger liquidity normalization is required before supplemental observations"
  | .duplicateAccount => "Duplicate account supplemental observation"
  | .unknownAccount => "Supplemental observation references an unknown account"
  | .balanceUnavailable =>
    "Current ledger confirmation requires an authoritative available ledger balance"
  | .materialMismatch => "Current ledger confirmation does not match account ledger material"
  | .holdEvidence => "Supplemental observation cannot replace existing hold evidence"
  | .activityEvidence => "Supplemental activity cannot replace ledger evidence"
  | .obligationEvidence => "Supplemental obligation cannot replace ledger evidence"
  | .paymentCategory =>
    "Credit payment category must be an available current Actual ordinary or payment category"
  | .paymentCurrency => "Credit payment category currency is incompatible"
  | .paymentAccount =>
    "Credit payment declaration requires a credit account and a distinct existing payment account"

/-- The alternatives of the pattern in `capture`. -/
def stalePatterns : List String :=
  ["does not match account ledger material", "references an unknown account",
    "cannot replace ledger evidence"]

/-- The pattern of `capture` occurs in the message. -/
def MergeError.isStale (e : MergeError) : Bool :=
  stalePatterns.any fun pattern => decide (pattern.toList <:+: e.message.toList)

theorem MergeError.isStale_iff {e : MergeError} :
    e.isStale = true ↔ e = .unknownAccount ∨ e = .materialMismatch ∨ e = .activityEvidence ∨
      e = .obligationEvidence := by
  cases e <;> decide +kernel

/-! ## The material of a confirmation -/

/-- `[...ids].sort()`: by UTF-16 units. -/
def sortTexts (ids : List String) : List String := sortOn Merchant.units16 ids

def byId {α : Type} (id : α → String) (items : List α) : List α :=
  sortOn (fun item => Merchant.units16 (id item)) items

def confirmationMaterial (snapshot : SnapshotContent) (account : AccountLiquidityFact) :
    ConfirmationMaterial where
  source := snapshot.source
  accountId := account.accountId
  onBudget := account.onBudget
  closed := account.closed
  recordedBalance := account.recordedBalance
  baselineTransactionIds := sortTexts account.baselineTransactionIds
  unsettledFlows := (byId (·.id) account.unsettledFlows).map fun flow =>
    { flow with matchedTransactionIds := sortTexts flow.matchedTransactionIds }
  obligations := (byId (·.id) account.obligations).map fun obligation =>
    { obligation with matchedTransactionIds := sortTexts obligation.matchedTransactionIds }
  schedules := byId (·.id) ((snapshot.liquidity.elim [] (·.schedules)).filter fun schedule =>
    schedule.accountId.isNone || schedule.accountId == some account.accountId)
  transactions := byId (·.id) (snapshot.transactions.filter (·.accountId == account.accountId))

/-- The balance is the ledger's, and known. -/
def Authoritative (account : AccountLiquidityFact) : Prop :=
  account.balanceEvidence.source = .actualLedger ∧ account.balanceEvidence.state = .known

instance (account : AccountLiquidityFact) : Decidable (Authoritative account) :=
  inferInstanceAs (Decidable (_ ∧ _))

variable (digests : Digests)

/-- The text that binds a confirmation to the account's material. -/
def confirmationHash (snapshot : SnapshotContent) (account : AccountLiquidityFact) : String :=
  "sha256:" ++ digests.confirmation (confirmationMaterial snapshot account)

def ledgerConfirmationHash (snapshot : SnapshotContent) (account : AccountLiquidityFact) :
    Except MergeError String := do
  reject (!decide (Authoritative account)) .balanceUnavailable
  .ok (confirmationHash digests snapshot account)

def withLiquidityFacts (snapshot : FinancialSnapshot) (facts : LiquidityFacts) :
    FinancialSnapshot :=
  let ledgerContentHash := snapshot.liquidity.elim snapshot.contentHash (·.ledgerContentHash)
  let liquidity := { facts with ledgerContentHash := ledgerContentHash }
  let composite := { snapshot.toSnapshotContent with liquidity := some liquidity }
  let digest := digests.content composite
  { composite with
    contentHash := "sha256:" ++ digest
    snapshotId := snapshot.source.ledgerBackend ++ ":" ++ snapshot.source.ledgerId ++ ":" ++
      snapshot.source.budgetId ++ ":sha256:" ++ digest }

/-! ## One observation -/

/-- `currentLedgerConfirmed`. -/
def confirm (snapshot : SnapshotContent) (o : PersistedObservation)
    (account : AccountLiquidityFact) : Except MergeError AccountLiquidityFact :=
  if o.currentLedgerConfirmed then do
    let hash ← ledgerConfirmationHash digests snapshot account
    reject (o.ledgerConfirmationHash != some hash) .materialMismatch
    .ok { account with freshnessEvidence := o.attested }
  else .ok account

/-- `currency`. -/
def declareCurrency (o : PersistedObservation) (account : AccountLiquidityFact) :
    AccountLiquidityFact :=
  match o.currency with
  | none => account
  | some currency => { account with currency, currencyEvidence := o.attested }

/-- `kind`. -/
def declareKind (o : PersistedObservation) (account : AccountLiquidityFact) :
    AccountLiquidityFact :=
  match o.kind with
  | none => account
  | some kind => { account with kind, kindEvidence := o.attested }

/-- `owned`. -/
def declareOwned (o : PersistedObservation) (account : AccountLiquidityFact) :
    AccountLiquidityFact :=
  match o.owned with
  | none => account
  | some owned => { account with owned, ownershipEvidence := o.attested }

/-- `holds`. -/
def mergeHolds (o : PersistedObservation) (account : AccountLiquidityFact) :
    Except MergeError AccountLiquidityFact :=
  match o.holds with
  | none => .ok account
  | some holds => do
    reject (account.holdsEvidence.state == .known && account.holds != holds) .holdEvidence
    .ok { account with holds, holdsEvidence := o.attested }

/-- What the merge compares of a flow or an obligation. -/
structure Entry where
  id : String
  economicObligationId : String
  matchedTransactionIds : List String
  deriving DecidableEq

def entryOfFlow (flow : UnsettledFlow) : Entry :=
  ⟨flow.id, flow.economicObligationId, flow.matchedTransactionIds⟩

def entryOfObligation (obligation : CashObligation) : Entry :=
  ⟨obligation.id, obligation.economicObligationId, obligation.matchedTransactionIds⟩

/-- An entry names what the ledger already has. -/
def Entry.replaces (existing : List Entry) (baseline : List String) (entry : Entry) : Bool :=
  existing.any (fun other =>
      other.id == entry.id || other.economicObligationId == entry.economicObligationId) ||
    entry.matchedTransactionIds.any (baseline.contains ·)

/-- Add an entry to a list of the account, unless it names what the ledger already has. -/
def push {ξ : Type} (entry : ξ → Entry) (existing : AccountLiquidityFact → List ξ)
    (put : AccountLiquidityFact → List ξ → AccountLiquidityFact) (e : MergeError)
    (account : AccountLiquidityFact) (x : ξ) : Except MergeError AccountLiquidityFact := do
  reject ((entry x).replaces ((existing account).map entry) account.baselineTransactionIds) e
  .ok (put account (existing account ++ [x]))

/-- The loop body of `unsettledFlows`. -/
def pushFlow : AccountLiquidityFact → UnsettledFlow → Except MergeError AccountLiquidityFact :=
  push entryOfFlow (·.unsettledFlows)
    (fun account flows => { account with unsettledFlows := flows }) .activityEvidence

/-- The loop body of `obligations`. -/
def pushObligation :
    AccountLiquidityFact → CashObligation → Except MergeError AccountLiquidityFact :=
  push entryOfObligation (·.obligations)
    (fun account obligations => { account with obligations := obligations }) .obligationEvidence

/-- `unsettledFlows`. -/
def mergeFlows (o : PersistedObservation) (account : AccountLiquidityFact) :
    Except MergeError AccountLiquidityFact :=
  match o.unsettledFlows with
  | none => .ok account
  | some flows => do
    let account ← flows.foldlM pushFlow account
    .ok (if !flows.isEmpty && account.activityEvidence.state == .known then
      { account with activityEvidence :=
        { o.attested with reasons := account.activityEvidence.reasons ++ o.attested.reasons } }
    else account)

/-- `obligations`. -/
def mergeObligations (o : PersistedObservation) (account : AccountLiquidityFact) :
    Except MergeError AccountLiquidityFact :=
  match o.obligations with
  | none => .ok account
  | some obligations => do
    let account ← obligations.foldlM pushObligation account
    .ok (if account.scheduleEvidence.state == .known then
      { account with scheduleEvidence := o.attested } else account)

/-- The current entries of a category. -/
def currentEntries (facts : LiquidityFacts) (categoryId : String) : List CategoryLiquidityFact :=
  facts.categories.filter fun category =>
    category.categoryId == categoryId && category.periodKind == .current &&
      category.asOfMonth == facts.asOfMonth

/-- A category whose cash may be set aside for a payment. -/
def LiquidityCategoryKind.Pays (kind : LiquidityCategoryKind) : Prop :=
  kind = .ordinary ∨ kind = .creditPayment

instance (kind : LiquidityCategoryKind) : Decidable (LiquidityCategoryKind.Pays kind) :=
  inferInstanceAs (Decidable (_ ∨ _))

/-- The ledger's own current category that a payment may use. -/
def Usable (category : CategoryLiquidityFact) : Prop :=
  LiquidityCategoryKind.Pays category.kind ∧ category.evidence.state = .known ∧
    category.evidence.source = .actualLedger

instance (category : CategoryLiquidityFact) : Decidable (Usable category) :=
  inferInstanceAs (Decidable (_ ∧ _))

def paymentCategory (facts : LiquidityFacts) (credit : CreditDeclaration) :
    Except MergeError CategoryLiquidityFact :=
  match currentEntries facts credit.paymentCategoryId with
  | [category] => if Usable category then .ok category else .error .paymentCategory
  | _ => .error .paymentCategory

/-- Every entry of the category becomes one of a credit payment. -/
def setPayment (facts : LiquidityFacts) (categoryId : String) : LiquidityFacts :=
  { facts with
    categories := facts.categories.map fun category =>
      if category.categoryId = categoryId then { category with kind := .creditPayment }
      else category
    addressable := by
      rw [List.length_map]
      exact facts.addressable }

/-- `credit`. -/
def mergeCredit (o : PersistedObservation) (facts : LiquidityFacts)
    (account : AccountLiquidityFact) :
    Except MergeError (LiquidityFacts × AccountLiquidityFact) :=
  match o.credit with
  | none => .ok (facts, account)
  | some none => .ok (facts, { account with credit := none })
  | some (some credit) => do
    let category ← paymentCategory facts credit
    reject (category.availability.currency != account.currency ||
      credit.authorizationAvailable.currency != account.currency ||
      credit.reservedCash.currency != account.currency) .paymentCurrency
    reject (account.kind != .credit || credit.paymentAccountId == account.accountId ||
      !facts.accounts.any (·.accountId == credit.paymentAccountId)) .paymentAccount
    .ok (setPayment facts category.categoryId,
      { account with credit := some (credit.fact o.attested) })

/-- The first account of an id. -/
def findAccount (facts : LiquidityFacts) (accountId : String) : Option AccountLiquidityFact :=
  facts.accounts.find? (·.accountId == accountId)

/-- Put an account in the place of the first one of its id. -/
def replaceFirst (account : AccountLiquidityFact) :
    List AccountLiquidityFact → List AccountLiquidityFact
  | [] => []
  | a :: accounts =>
    if a.accountId = account.accountId then account :: accounts
    else a :: replaceFirst account accounts

@[simp] theorem length_replaceFirst (account : AccountLiquidityFact)
    (accounts : List AccountLiquidityFact) :
    (replaceFirst account accounts).length = accounts.length := by
  induction accounts with
  | nil => rfl
  | cons a accounts ih =>
    unfold replaceFirst
    split <;> simp [ih]

def putAccount (facts : LiquidityFacts) (account : AccountLiquidityFact) : LiquidityFacts :=
  { facts with
    accounts := replaceFirst account facts.accounts
    addressable := by
      rw [length_replaceFirst]
      exact facts.addressable }

/-- The account after an observation, apart from its credit. -/
def mergeAccount (snapshot : SnapshotContent) (o : PersistedObservation)
    (account : AccountLiquidityFact) : Except MergeError AccountLiquidityFact := do
  let account ← confirm digests snapshot o account
  let account ← mergeHolds o (declareOwned o (declareKind o (declareCurrency o account)))
  let account ← mergeFlows o account
  mergeObligations o account

/-- The body of the loop over the observations. -/
def mergeObservation (snapshot : SnapshotContent) (facts : LiquidityFacts)
    (o : PersistedObservation) : Except MergeError LiquidityFacts := do
  let account ← orStop (findAccount facts o.accountId) .unknownAccount
  let account ← mergeAccount digests snapshot o account
  let (facts, account) ← mergeCredit o facts account
  .ok (putAccount facts account)

/-- The loop, with the accounts it has seen. -/
def mergeNext (snapshot : SnapshotContent) (state : List String × LiquidityFacts)
    (o : PersistedObservation) : Except MergeError (List String × LiquidityFacts) := do
  reject (state.1.contains o.accountId) .duplicateAccount
  let facts ← mergeObservation digests snapshot state.2 o
  .ok (o.accountId :: state.1, facts)

def mergeUserAttestedLiquidityObservations (snapshot : FinancialSnapshot)
    (observations : List PersistedObservation) : Except MergeError FinancialSnapshot := do
  let facts ← orStop snapshot.liquidity .normalizationRequired
  let state ← observations.foldlM (mergeNext digests snapshot.toSnapshotContent) ([], facts)
  .ok (withLiquidityFacts digests snapshot state.2)

end BalanceFrame.Attestation
