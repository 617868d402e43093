import BalanceFrame.Liquidity.Money

/-!
# Evidence records

Model of the data types of `crates/core-protocol/src/transaction_evidence.rs`,
`evidence_allocation.rs`, `wallet_statement.rs` and of those they use of `financial_snapshot.rs`.
Field names are the source's in camel case, which is also how they are serialized.

The resolver links observations before it looks at what they write to the ledger: `Observed` is an
observation without its effect, so a function of `Observed` cannot depend on it.
-/

namespace BalanceFrame.Evidence

open Liquidity (Money)

/-! ## Observations -/

structure EvidenceProvenance where
  documentId : String
  contentHash : String
  parserVersion : String
  sourceTimestamp : String
  receivedAt : String
  deriving DecidableEq, Inhabited

structure ManualTransactionSplit where
  categoryId : String
  amount : Money
  deriving DecidableEq

structure EconomicEventLedgerEffect where
  accountId : String
  amount : Money
  date : String
  categoryId : Option String
  payeeName : Option String
  notes : Option String
  splits : List ManualTransactionSplit
  deriving DecidableEq

/-- What an `EvidenceObservation` says apart from its ledger effect. -/
structure Observed where
  ledgerAccountId : Option String
  id : String
  kind : String
  sourceId : String
  externalEventId : Option String
  date : String
  amount : Money
  direction : String
  status : String
  eventType : String
  counterparty : Option String
  fundingInstrumentId : Option String
  walletId : Option String
  ledgerTransactionId : Option String
  reliability : Nat
  provenance : EvidenceProvenance
  deriving DecidableEq, Inhabited

structure EvidenceObservation extends Observed where
  reviewedLedgerEffect : Bool
  ledgerEffect : Option EconomicEventLedgerEffect
  deriving DecidableEq

structure EvidenceRelationship where
  id : String
  fromId : String
  toId : String
  kind : String
  state : String
  allocatedAmount : Option Money
  partialLink : Bool
  score : Nat
  reasonCodes : List String
  evidenceIds : List String
  deriving DecidableEq

/-! ## Wallets and receipts -/

structure WalletEvidence where
  walletId : String
  currency : String
  openingBalance : Option Money
  closingBalance : Option Money
  completeActivity : Bool
  materializedAccountId : Option String
  requiresStoredValue : Bool
  deriving DecidableEq

structure ReceiptLine where
  id : String
  rawDescription : String
  normalizedDescription : String
  sku : Option String
  department : Option String
  productFamily : Option String
  quantityMicros : Nat
  unitGross : Money
  gross : Money
  discount : Money
  tax : Money
  net : Money
  categoryId : Option String
  memberId : Option String
  evidenceStrength : Nat
  reasonCodes : List String
  returnOfLineId : Option String
  deriving DecidableEq

structure ReceiptTender where
  partialTender : Bool
  id : String
  kind : String
  amount : Money
  observationId : Option String
  deriving DecidableEq

structure ReceiptEvidence where
  id : String
  observationId : String
  version : Nat
  supersedesId : Option String
  fulfillmentGroupId : Option String
  total : Money
  discount : Money
  tax : Money
  lines : List ReceiptLine
  tenders : List ReceiptTender
  deriving DecidableEq

structure WalletStatementSource where
  documentId : String
  contentHash : String
  parserVersion : String
  deriving DecidableEq

structure WalletStatementActivity where
  observationId : String
  documentId : String
  contentHash : String
  parserVersion : String
  normalizedFieldsHash : String
  deriving DecidableEq

structure WalletStatementProof where
  proofId : String
  authorityKind : String
  statement : WalletStatementSource
  walletId : String
  currency : String
  calendarBasis : String
  startDate : String
  endDate : String
  openingBalance : Option Money
  closingBalance : Option Money
  activityManifest : List WalletStatementActivity
  actorId : String
  membershipId : String
  policyVersion : String
  reviewedAt : String
  deriving DecidableEq

/-! ## Allocations -/

structure EvidenceSettlementLineCategory where
  receiptId : String
  lineId : String
  categoryId : String
  deriving DecidableEq

structure EvidenceAllocationCell where
  receiptId : String
  lineId : String
  targetObservationId : String
  amount : Money
  deriving DecidableEq

structure EvidenceAllocationReview where
  contractVersion : String
  sourceHash : String
  allocationSetHash : String
  receiptIds : List String
  targetObservationIds : List String
  lineCategories : List EvidenceSettlementLineCategory
  cells : List EvidenceAllocationCell
  deriving DecidableEq

structure EvidenceAllocationProjection where
  eventId : String
  targetObservationId : String
  ledgerTransactionId : String
  evidenceIds : List String
  sources : List EvidenceProvenance
  ledgerEffect : EconomicEventLedgerEffect
  deriving DecidableEq

structure EvidenceAllocationRemainder where
  receiptId : String
  lineId : String
  amount : Money
  deriving DecidableEq

structure EvidenceAllocationTargetRemainder where
  targetObservationId : String
  amount : Money
  deriving DecidableEq

structure EvidenceAllocationPlan where
  contractVersion : String
  sourceHash : String
  allocationSetHash : String
  review : EvidenceAllocationReview
  projections : List EvidenceAllocationProjection
  remainders : List EvidenceAllocationRemainder
  targetRemainders : List EvidenceAllocationTargetRemainder
  fundingRelationships : Option (List EvidenceRelationship)
  deriving DecidableEq

/-! ## Requests and results -/

structure TransactionEvidenceRequest where
  statementProofs : List WalletStatementProof
  allocationReview : Option EvidenceAllocationReview
  contractVersion : String
  policyVersion : String
  maxSettlementDays : Nat
  observations : List EvidenceObservation
  relationships : List EvidenceRelationship
  wallets : List WalletEvidence
  receipts : List ReceiptEvidence
  deriving DecidableEq

structure DeriveEvidenceAllocationPlanRequest where
  contractVersion : String
  evidence : TransactionEvidenceRequest
  receiptIds : List String
  targetObservationIds : List String
  lineCategories : List EvidenceSettlementLineCategory
  cells : List EvidenceAllocationCell
  deriveFundingRelationships : Option Bool
  deriving DecidableEq

/-- `ObservationKind`: the kinds that the resolver writes. -/
inductive ObservationKind
  | economicEventResolution
  | walletStatementAnchor
  deriving DecidableEq

/-- `ObservationState`: the state that the resolver writes. -/
inductive ObservationState
  | resolved
  deriving DecidableEq

/-- `DecisionScope`: the scopes that the resolver writes. -/
inductive DecisionScope
  | transaction (id : String)
  | claim (id : String)
  deriving DecidableEq

/-- `RedactionState`: what the resolver writes. -/
inductive RedactionState
  | visible
  deriving DecidableEq

structure EvidenceReference where
  evidenceId : String
  kind : String
  authorized : Bool
  redaction : RedactionState
  deriving DecidableEq

structure WalletStatementBalanceAnchor where
  walletId : String
  amount : Money
  asOfDate : String
  boundary : String
  proofIds : List String
  proofSetHash : String
  activityManifestHash : String
  evidenceIds : List String
  deriving DecidableEq

structure SourceObservation where
  walletBalanceAnchor : Option WalletStatementBalanceAnchor
  allocationReview : Option EvidenceAllocationReview
  kind : ObservationKind
  scope : DecisionScope
  state : ObservationState
  observedAt : Option String
  contentHash : Option String
  version : Option String
  ledgerEffect : Option EconomicEventLedgerEffect
  evidence : List EvidenceReference
  deriving DecidableEq

structure WalletStatementCoverageInterval where
  startDate : String
  endDate : String
  proofIds : List String
  evidenceIds : List String
  openingBalance : Option Money
  closingBalance : Option Money
  state : String
  reasonCodes : List String
  deriving DecidableEq

structure WalletStatementCoverage where
  intervals : List WalletStatementCoverageInterval
  uncoveredObservationIds : List String
  blockedObservationIds : List String
  deriving DecidableEq

structure EvidenceBlocker where
  code : String
  subjectId : String
  evidenceIds : List String
  deriving DecidableEq

structure ResolvedEconomicEvent where
  projectionObservations : List SourceObservation
  allocationSetHash : Option String
  id : String
  version : String
  eventType : String
  state : String
  amount : Money
  observationIds : List String
  evidenceIds : List String
  reasonCodes : List String
  projectionObservation : Option SourceObservation
  deriving DecidableEq

structure WalletEvidenceResolution where
  coverage : Option WalletStatementCoverage
  balanceAnchors : Option (List WalletStatementBalanceAnchor)
  anchorObservations : Option (List SourceObservation)
  walletId : String
  openingBalance : Option Money
  closingBalance : Option Money
  balanceState : String
  projection : String
  reasonCodes : List String
  deriving DecidableEq

structure ReceiptEvidenceResolution where
  receiptId : String
  valid : Bool
  allocatedDiscount : List Money
  allocatedTax : List Money
  reasonCodes : List String
  deriving DecidableEq

structure TransactionEvidenceResult where
  contractVersion : String
  policyVersion : String
  resolutionHash : String
  events : List ResolvedEconomicEvent
  relationships : List EvidenceRelationship
  wallets : List WalletEvidenceResolution
  receipts : List ReceiptEvidenceResolution
  blockers : List EvidenceBlocker
  deriving DecidableEq

end BalanceFrame.Evidence
