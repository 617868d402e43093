import BalanceFrame.Evidence.Allocation
import BalanceFrame.Evidence.Statements

/-!
# Wallets

Model of `resolve_wallets` (`crates/core-protocol/src/transaction_evidence.rs`). A wallet with
statement proofs is resolved by them; another one from its own activity and stated balances.
-/

namespace BalanceFrame.Evidence

open Library
open Liquidity (I64 InI64 Money Checked isCurrencyCode)

section

variable (obs : List Observed) (events : List (String × List String))

/-- The activity of a wallet without proofs. -/
def ownActivity (walletId : String) : List Observed :=
  obs.filter fun o => o.walletId == some walletId && isWalletKind o.kind && active o

/-- What the activity adds up to so far. -/
structure WalletFlows where
  net : I64
  daily : SortedMap String (I64 × I64)
  identities : List (String × String)

/-- One member of the activity; a payment that a ledger row settles is left out. -/
def addWalletFlow (wallet : WalletEvidence) (t : WalletFlows) (o : Observed) :
    Checked WalletFlows := do
  let identities ← checkIdentity wallet.currency t.identities o
  if passesThrough obs events wallet.walletId o then pure { t with identities := identities }
  else do
    let totals := (t.daily.get? o.date).getD (0, 0)
    let totals ←
      if o.direction == "inflow" then do
        pure (← addAmount totals.1 o.amount.minorUnits, totals.2)
      else do
        pure (totals.1, ← addAmount totals.2 o.amount.minorUnits)
    let net ← addAmount t.net (signed o)
    pure ⟨net, t.daily.insert o.date totals, identities⟩

/-- Balances, state and reasons of a wallet so far. -/
structure WalletState where
  opening : Option Money
  closing : Option Money
  state : String
  reasons : List String

/-- Without a stated opening balance, count back from the closing one. -/
def inferOpening (wallet : WalletEvidence) (net : I64) (t : WalletState) : Checked WalletState :=
  if t.opening.isSome || !wallet.completeActivity then pure t
  else
    match t.closing with
    | none => pure t
    | some finish => do
      let inferred ← subAmount finish.minorUnits net
      if 0 ≤ (inferred : Int) then
        pure { t with
          opening := some ⟨inferred, wallet.currency⟩
          reasons := t.reasons ++ ["algebraic_opening_balance"] }
      else pure t

/-- `reasons`, with `code` once. -/
def withReason (reasons : List String) (code : String) : List String :=
  if reasons.contains code then reasons else reasons ++ [code]

/-- The end of the activity against the stated closing balance. -/
def checkClosing (wallet : WalletEvidence) (finish : I64) (t : WalletState) : WalletState :=
  if decide ((finish : Int) < 0) || t.closing.any (fun x => x.minorUnits != finish) then
    { t with
      state := "discontinuous"
      reasons := t.reasons ++ ["wallet_balance_discontinuity"] }
  else if t.closing.isNone then { t with closing := some ⟨finish, wallet.currency⟩ }
  else t

/-- Days in order: an inflow does not fund an earlier day, nor an outflow of its own day. -/
def runDays : List (String × (I64 × I64)) → I64 → WalletState → Checked WalletState
  | [], _, t => pure t
  | (_, (inflow, outflow)) :: rest, balance, t => do
    let next ← subAmount (← addAmount balance inflow) outflow
    if (next : Int) < 0 then
      pure { t with
        state := "discontinuous"
        reasons := withReason t.reasons "wallet_balance_discontinuity" }
    else
      runDays rest next
        (if (balance : Int) < outflow ∧ t.state ≠ "discontinuous" then
          { t with
            state := "balance_unknown"
            reasons := withReason t.reasons "wallet_activity_order_unknown" }
        else t)

/-- Balances and state of a wallet, from what its activity adds up to. -/
def walletState (wallet : WalletEvidence) (flows : WalletFlows) : Checked WalletState := do
  let t ← inferOpening wallet flows.net
    { opening := wallet.openingBalance
      closing := wallet.closingBalance
      state := if wallet.completeActivity then "known" else "balance_unknown"
      reasons := if wallet.completeActivity then [] else ["wallet_activity_incomplete"] }
  match t.opening with
  | none => pure { t with state := "balance_unknown" }
  | some start =>
    if wallet.completeActivity then do
      let finish ← addAmount start.minorUnits flows.net
      runDays flows.daily.entries start.minorUnits (checkClosing wallet finish t)
    else pure t

/-- The whole activity is settled pair by pair. -/
def passThrough (activity : List Observed) : Bool :=
  !activity.isEmpty && activity.all fun o =>
    events.any fun e => e.1 == "resolved" && e.2.contains o.id && e.2.length == 2

/-- The sign of a balance. -/
def isPositive (balance : Option Money) : Bool := balance.any fun x => decide (0 < (x.minorUnits : Int))

def isZero (balance : Option Money) : Bool := balance.any fun x => x.minorUnits == 0

/-- What a wallet is shown as. -/
def walletProjection (wallet : WalletEvidence) (activity : List Observed) (t : WalletState) :
    String :=
  if wallet.materializedAccountId.isSome then "materialized"
  else if wallet.requiresStoredValue || isPositive t.opening || isPositive t.closing ||
      activity.any (·.direction == "inflow") then "materialize"
  else if t.state == "known" && passThrough events activity && isZero t.opening &&
      isZero t.closing then "collapsed"
  else "unresolved"

/-- A wallet without proofs, with the blocker it adds. -/
def resolveOwnWallet (wallet : WalletEvidence) :
    Checked (WalletEvidenceResolution × List EvidenceBlocker) := do
  let activity := ownActivity obs wallet.walletId
  let flows ← activity.foldlM (addWalletFlow obs events wallet) ⟨0, SortedMap.empty, []⟩
  let t ← walletState wallet flows
  pure (
    { coverage := none
      balanceAnchors := none
      anchorObservations := none
      walletId := wallet.walletId
      openingBalance := t.opening
      closingBalance := t.closing
      balanceState := t.state
      projection := walletProjection events wallet activity t
      reasonCodes := t.reasons },
    if t.state == "known" then []
    else [⟨if t.state == "discontinuous" then "wallet_balance_discontinuity"
      else "wallet_balance_unknown", wallet.walletId,
      sortedSet (activity.map (·.provenance.documentId))⟩])

end

/-- The checks on a wallet; `ids` are those met before it. -/
def checkWallet (ids : List String) (wallet : WalletEvidence) : Checked Unit := do
  require (isId wallet.walletId && !ids.contains wallet.walletId && isCurrencyCode wallet.currency)
    "wallet"
  require (noneOr isId wallet.materializedAccountId) "wallet_account"
  require ((wallet.openingBalance.toList ++ wallet.closingBalance.toList).all fun balance =>
    isMoney balance && balance.currency == wallet.currency) "wallet_balance"

/-- The wallets so far, with their blockers and ids. -/
structure WalletsOut where
  wallets : List WalletEvidenceResolution
  blockers : List EvidenceBlocker
  ids : List String

section

variable (r : TransactionEvidenceRequest) (relationships : List EvidenceRelationship)
  (events : List (String × List String))

/-- By its statement proofs where there are any. -/
def resolveByEvidence (wallet : WalletEvidence) :
    Checked (WalletEvidenceResolution × List EvidenceBlocker) :=
  let obs := r.observations.map (·.toObserved)
  if r.statementProofs.any (·.walletId == wallet.walletId) then
    resolveStatementWallet r.policyVersion r.statementProofs obs relationships events wallet
  else resolveOwnWallet obs events wallet

def resolveWallet (out : WalletsOut) (wallet : WalletEvidence) : Checked WalletsOut := do
  checkWallet out.ids wallet
  let (resolution, blockers) ← resolveByEvidence r relationships events wallet
  pure
    { wallets := out.wallets ++ [resolution]
      blockers := out.blockers ++ blockers
      ids := wallet.walletId :: out.ids }

def resolveWallets : Checked (List WalletEvidenceResolution × List EvidenceBlocker) := do
  require (decide (r.statementProofs.length ≤ 100)) "statement_proof_size"
  require (decide ((r.statementProofs.map (·.activityManifest.length)).sum ≤ 20000))
    "statement_manifest_work_limit"
  require (decide (r.statementProofs.map (·.proofId)).Nodup) "statement_duplicate_proof"
  require (r.statementProofs.all fun p => r.wallets.any (·.walletId == p.walletId))
    "statement_wallet_missing"
  let out ← r.wallets.foldlM (resolveWallet r relationships events) ⟨[], [], []⟩
  pure (out.wallets, out.blockers)

end

end BalanceFrame.Evidence

/-!
## Resolution

Model of `resolve_transaction_evidence` (`crates/core-protocol/src/transaction_evidence.rs`) as a
whole, and of `derive_evidence_allocation_plan` (`evidence_allocation.rs`), which resolves a
stripped request and computes an allocation over the result.

`resolveTransactionEvidence` validates a request and hands its sorted form to `resolveSorted`, the
only part that looks at the order of anything.
-/

namespace BalanceFrame.Evidence

open Library
open Liquidity (I64 InI64 Money Checked Json)

/-! ## Normal form -/

/-- The sorts that open the resolver. -/
def sortRequest (r : TransactionEvidenceRequest) : TransactionEvidenceRequest :=
  { r with
    allocationReview := r.allocationReview.map normalizeReview
    statementProofs := (sortOn (·.proofId) r.statementProofs).map fun p =>
      { p with activityManifest := sortOn (·.observationId) p.activityManifest }
    observations := sortOn (fun o => o.id) r.observations
    relationships := sortOn (·.id) r.relationships
    wallets := sortOn (·.walletId) r.wallets
    receipts := sortOn (·.id) r.receipts }

/-- Mark the first observation with an id as superseded. -/
def supersedeObservation (id : String) : List EvidenceObservation → List EvidenceObservation
  | [] => []
  | o :: rest =>
    if o.id == id then { o with status := "superseded" } :: rest
    else o :: supersedeObservation id rest

/-- The observations so far, and the receipts replaced. -/
structure Replaced where
  observations : List EvidenceObservation
  receipts : List String

/-- A receipt that supersedes another: the older one's observation gives way. -/
def replaceReceipt (receipts : List ReceiptEvidence) (t : Replaced) (receipt : ReceiptEvidence) :
    Checked Replaced :=
  match receipt.supersedesId with
  | none => pure t
  | some priorId => do
    let prior ← orStop (receipts.find? fun p =>
      p.id == priorId && decide (p.version < receipt.version)) "receipt_version"
    require (prior.observationId != receipt.observationId) "receipt_source_version"
    require (!t.receipts.contains priorId) "receipt_version_fork"
    let source ← orStop (t.observations.find? (·.id == receipt.observationId)) "receipt"
    let previous ← orStop (t.observations.find? (·.id == prior.observationId)) "receipt"
    require (source.sourceId == previous.sourceId && source.direction == previous.direction &&
      source.amount.currency == previous.amount.currency) "receipt_source_lineage"
    pure ⟨supersedeObservation prior.observationId t.observations, priorId :: t.receipts⟩

/-- Superseded receipts hand their status to their observations. -/
def replaceReceipts (r : TransactionEvidenceRequest) : Checked TransactionEvidenceRequest := do
  let t ← r.receipts.foldlM (replaceReceipt r.receipts) ⟨r.observations, []⟩
  pure { r with observations := t.observations }

/-! ## Resolution -/

/-- Blocked events carry no projection; the others' projections carry the hash. -/
def finishEvent (hash : String) (blocked : List String) (event : ResolvedEconomicEvent) :
    ResolvedEconomicEvent :=
  if isBlocked blocked event then
    { event with
      state := "blocked"
      projectionObservation := none }
  else
    { event with
      projectionObservation := event.projectionObservation.map fun o =>
        { o with contentHash := some hash } }

/-- States and observation ids, which is what wallets look at. -/
def eventSides (events : List ResolvedEconomicEvent) : List (String × List String) :=
  events.map fun event => (event.state, event.observationIds)

/-- The resolution before a review is applied. -/
def resolveReplaced (r : TransactionEvidenceRequest) : Checked TransactionEvidenceResult := do
  let obs := r.observations.map (·.toObserved)
  let s ← linkEvidence obs r.maxSettlementDays r.relationships
  let out ← resolveEvents r.observations r.maxSettlementDays s
  let (receipts, receiptBlockers) ← resolveReceipts obs r.receipts
  let (wallets, walletBlockers) ← resolveWallets r s.relationships (eventSides out.events)
  let hash := digest r.json
  let blockers := out.blockers ++ receiptBlockers ++ walletBlockers
  let blocked := blockedProjectionSubjects r.observations r.wallets blockers
  pure
    { contractVersion := "1"
      policyVersion := r.policyVersion
      resolutionHash := hash
      events := out.events.map (finishEvent hash blocked)
      relationships := sortOn (·.id) s.relationships
      wallets := wallets
      receipts := receipts
      blockers := blockers }

/-- The resolution of a sorted request. -/
def resolveSorted (r : TransactionEvidenceRequest) : Checked TransactionEvidenceResult := do
  let r ← replaceReceipts r
  let result ← resolveReplaced r
  applyAllocationReview r result

def resolveTransactionEvidence (request : TransactionEvidenceRequest) :
    Checked TransactionEvidenceResult := do
  validate request
  resolveSorted (sortRequest request)

/-! ## A coffee paid by wallet -/

def capturedFrom (id : String) : EvidenceProvenance where
  documentId := id
  contentHash := "0000000000000000000000000000000000000000000000000000000000000000"
  parserVersion := "1"
  sourceTimestamp := "2024-01-05T09:00:00Z"
  receivedAt := "2024-01-05T10:00:00Z"

def coffeePayment : EvidenceObservation where
  ledgerAccountId := none
  id := "pay"
  kind := "wallet_payment"
  sourceId := "app"
  externalEventId := some "x1"
  date := "2024-01-05"
  amount := ⟨I64.ofInt 450, "USD"⟩
  direction := "outflow"
  status := "completed"
  eventType := "purchase"
  counterparty := none
  fundingInstrumentId := none
  walletId := none
  ledgerTransactionId := none
  reliability := 90
  provenance := capturedFrom "slip"
  reviewedLedgerEffect := false
  ledgerEffect := none

def coffeeRow : EvidenceObservation :=
  { coffeePayment with
    ledgerAccountId := some "checking"
    id := "row"
    kind := "ledger_transaction"
    sourceId := "bank"
    ledgerTransactionId := some "t1"
    provenance := capturedFrom "export" }

def coffeeRequest : TransactionEvidenceRequest where
  statementProofs := []
  allocationReview := none
  contractVersion := "1"
  policyVersion := "1"
  maxSettlementDays := 3
  observations := [coffeePayment, coffeeRow]
  relationships := []
  wallets := []
  receipts := []

/-- The payment and the row are one resolved event. -/
example : (resolveTransactionEvidence coffeeRequest).toOption.map
    (fun result => result.events.map fun event => (event.state, event.observationIds)) =
      some [("resolved", ["pay", "row"])] := by
  decide +kernel

/-! ## Plans -/

/-- The sum of the cells of a receipt and a target. -/
def addPair (pairs : SortedMap Pair Money) (cell : EvidenceAllocationCell) :
    Checked (SortedMap Pair Money) := do
  require (decide (0 < (cell.amount.minorUnits : Int))) "allocation_cell_amount_or_duplicate"
  let key : Pair := toLex (cell.receiptId, cell.targetObservationId)
  let amount := (pairs.get? key).getD ⟨0, cell.amount.currency⟩
  require (amount.currency == cell.amount.currency) "allocation_currency"
  pure (pairs.insert key ⟨← addAmount amount.minorUnits cell.amount.minorUnits, amount.currency⟩)

/-- A relationship that an allocation between the same observations replaces. -/
def isFunding (fromId toId : String) (edge : EvidenceRelationship) : Bool :=
  edge.fromId == fromId && edge.toId == toId &&
    ["funding", "partial_funding", "settlement"].contains edge.kind

/-- The confirmed allocation of a receipt to a target. -/
def allocationLink (receiptId : String) (source target : EvidenceObservation) (amount : Money) :
    EvidenceRelationship where
  id := "allocation:" ++ digest (.array [.string receiptId, .string target.id])
  fromId := source.id
  toId := target.id
  kind := "partial_funding"
  state := "confirmed"
  allocatedAmount := some amount
  partialLink := true
  score := 100
  reasonCodes := ["human_receipt_allocation"]
  evidenceIds := [source.provenance.documentId, target.provenance.documentId]

/-- Replace the funding between a receipt's observation and a target. -/
def fundPair (base : TransactionEvidenceRequest) (relationships : List EvidenceRelationship)
    (e : Pair × Money) : Checked (List EvidenceRelationship) := do
  let receipt ← orStop (base.receipts.find? (·.id == (ofLex e.1).1)) "allocation_receipt_missing"
  let source ← orStop (findObservation base receipt.observationId) "allocation_receipt_source"
  let target ← orStop (findObservation base (ofLex e.1).2) "allocation_target_missing"
  pure ((relationships.filter fun edge => !isFunding source.id target.id edge) ++
    [allocationLink (ofLex e.1).1 source target e.2])

/-- `derive_funding_relationships`. -/
def fundingRelationships (request : DeriveEvidenceAllocationPlanRequest)
    (base : TransactionEvidenceRequest) : Checked TransactionEvidenceRequest := do
  require (decide (request.cells.length ≤ 10000)) "allocation_shape"
  let pairs ← request.cells.foldlM addPair SortedMap.empty
  let relationships ← pairs.entries.foldlM (fundPair base) base.relationships
  pure { base with relationships := relationships }

/-- The stripped request of a derivation, with its funding. -/
def derivationBase (request : DeriveEvidenceAllocationPlanRequest) :
    Checked TransactionEvidenceRequest :=
  let base := baseline request.evidence request.targetObservationIds
  if request.deriveFundingRelationships == some true then fundingRelationships request base
  else pure base

def deriveEvidenceAllocationPlan (request : DeriveEvidenceAllocationPlanRequest) :
    Checked EvidenceAllocationPlan := do
  let base ← derivationBase request
  let resolved ← resolveTransactionEvidence base
  let plan ← compute base resolved
    { contractVersion := request.contractVersion
      sourceHash := resolved.resolutionHash
      allocationSetHash := ""
      receiptIds := request.receiptIds
      targetObservationIds := request.targetObservationIds
      lineCategories := request.lineCategories
      cells := request.cells }
  pure { plan with
    fundingRelationships :=
      if request.deriveFundingRelationships == some true then some base.relationships else none }

end BalanceFrame.Evidence
