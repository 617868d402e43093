import BalanceFrame.Evidence.Events
import BalanceFrame.Evidence.Receipts

/-!
# Receipt allocations

Model of `crates/core-protocol/src/evidence_allocation.rs`, without the derivation of a plan, and of
`blocked_projection_subjects` (`transaction_evidence.rs`). An allocation distributes the lines of
receipts over ledger rows. `compute` checks one against a resolution of its stripped request
(`baseline`) and projects the rows that are funded in full; `applyAllocationReview` computes it
again from a reviewed request and puts the projections on the events.
-/

namespace BalanceFrame.Evidence

open Library
open Liquidity (I64 InI64 Money Checked Json utf8 isBlank)

/-! ## Blocked subjects -/

/-- The subjects of the blockers with a code. -/
def subjectsOf (blockers : List EvidenceBlocker) (code : String) : List String :=
  (blockers.filter (·.code == code)).map (·.subjectId)

/-- The ledger account of a wallet. -/
def accountOf (wallets : List WalletEvidence) (wallet : String) : Option String :=
  (wallets.filter (·.materializedAccountId.isSome)).findSome? fun w =>
    if w.walletId == wallet then w.materializedAccountId else none

/-- The observation depends on its wallet's balance. -/
def requiresBalance (wallets : List WalletEvidence) (o : EvidenceObservation) (wallet : String) :
    Bool :=
  o.fundingInstrumentId == some wallet ||
    o.ledgerEffect.any fun effect => accountOf wallets wallet == some effect.accountId

/-- The observation belongs to a blocked wallet. -/
def walletBlocked (wallets : List WalletEvidence) (blockers : List EvidenceBlocker)
    (o : EvidenceObservation) : Bool :=
  o.walletId.any fun wallet =>
    (subjectsOf blockers "wallet_balance_discontinuity").contains wallet ||
      ((subjectsOf blockers "wallet_balance_unknown").contains wallet &&
        requiresBalance wallets o wallet)

def blockedProjectionSubjects (observations : List EvidenceObservation)
    (wallets : List WalletEvidence) (blockers : List EvidenceBlocker) : List String :=
  blockers.map (·.subjectId) ++ (observations.filter (walletBlocked wallets blockers)).map (·.id)

/-- The event or one of its observations is among the subjects. -/
def isBlocked (subjects : List String) (event : ResolvedEconomicEvent) : Bool :=
  subjects.contains event.id || event.observationIds.any subjects.contains

/-! ## Requests and reviews -/

/-- `id` of `evidence_allocation.rs`: not blank, at most 256 bytes, no control characters. -/
def isAllocationId (s : String) : Bool :=
  !isBlank s && byteLength s ≤ 256 && !s.toList.any isControl

/-- A pair of ids, in lexicographic order. -/
abbrev Pair := String ×ₗ String

/-- `add`. -/
def addTotal {κ : Type} [LinearOrder κ] (m : SortedMap κ I64) (key : κ) (amount : I64) :
    Checked (SortedMap κ I64) := do
  pure (m.insert key (← addAmount ((m.get? key).getD 0) amount))

def EvidenceSettlementLineCategory.key (c : EvidenceSettlementLineCategory) : String ×ₗ Pair :=
  toLex (c.receiptId, toLex (c.lineId, c.categoryId))

def EvidenceAllocationCell.key (c : EvidenceAllocationCell) : String ×ₗ Pair :=
  toLex (c.receiptId, toLex (c.lineId, c.targetObservationId))

def normalizeReview (review : EvidenceAllocationReview) : EvidenceAllocationReview :=
  { review with
    receiptIds := sortOn (fun s => s) review.receiptIds
    targetObservationIds := sortOn (fun s => s) review.targetObservationIds
    lineCategories := sortOn (·.key) review.lineCategories
    cells := sortOn (·.key) review.cells }

/-- An observation without its effect. -/
def EvidenceObservation.stripped (o : EvidenceObservation) : EvidenceObservation :=
  { o with
    ledgerEffect := none
    reviewedLedgerEffect := false }

def baseline (request : TransactionEvidenceRequest) (targets : List String) :
    TransactionEvidenceRequest :=
  { request with
    allocationReview := none
    observations := request.observations.map fun o =>
      if targets.contains o.id then o.stripped else o }

/-! ## Selection -/

section

variable (base : TransactionEvidenceRequest) (resolved : TransactionEvidenceResult)

/-- `observations.get(id)`. -/
def findObservation (id : String) : Option EvidenceObservation :=
  base.observations.find? (·.id == id)

/-- A ledger row that an allocation can project. -/
def isTarget (target : EvidenceObservation) : Bool :=
  target.kind == "ledger_transaction" && target.status == "completed" &&
    target.direction == "outflow" && decide (80 ≤ target.reliability) &&
    decide (0 < (target.amount.minorUnits : Int)) && target.ledgerAccountId.any isAllocationId &&
    target.ledgerTransactionId.any isAllocationId &&
    ["purchase", "unknown"].contains target.eventType

/-- One target; `parents` are the ledger transactions met before it. -/
def checkTarget (parents : List (Option String)) (target : EvidenceObservation) :
    Checked (List (Option String)) := do
  require (isTarget target) "allocation_target_unsupported"
  require (!parents.contains target.ledgerTransactionId &&
    (base.observations.filter fun o => o.kind == "ledger_transaction" &&
      o.ledgerTransactionId == target.ledgerTransactionId).length == 1) "allocation_parent_reuse"
  pure (target.ledgerTransactionId :: parents)

/-- A receipt of a current purchase. -/
def isPurchase (receipt : ReceiptEvidence) (source : EvidenceObservation) : Bool :=
  source.kind != "ledger_transaction" && source.status == "completed" &&
    source.direction == "outflow" && source.eventType == "purchase" &&
    source.ledgerEffect.isNone && source.amount == receipt.total &&
    decide (0 < (receipt.total.minorUnits : Int)) &&
    (resolved.receipts.any fun r => r.receiptId == receipt.id && r.valid) &&
    activeReceipt base.receipts receipt && receipt.lines.all (·.returnOfLineId.isNone)

/-- The selected observations and the lines to allocate, so far. -/
structure Selected where
  observations : List String
  lines : SortedMap Pair ReceiptLine

def selectReceipt (s : Selected) (receipt : ReceiptEvidence) : Checked Selected := do
  let source ← orStop (findObservation base receipt.observationId) "allocation_receipt_source"
  require (!s.observations.contains source.id && isPurchase base resolved receipt source)
    "allocation_receipt_not_current_purchase"
  pure
    { observations := source.id :: s.observations
      lines := receipt.lines.foldl (fun lines line =>
        lines.insert (toLex (receipt.id, line.id)) line) s.lines }

/-- What an allocation is about. -/
structure Selection extends Selected where
  targets : List EvidenceObservation
  receipts : List ReceiptEvidence

/-- The events of selected observations. -/
def relevantEvents (selected : List String) : List ResolvedEconomicEvent :=
  resolved.events.filter fun event => event.observationIds.any selected.contains

def checkShape (review : EvidenceAllocationReview) : Checked Unit :=
  require (review.contractVersion == "1" && !review.receiptIds.isEmpty &&
    decide (review.receiptIds.length ≤ 100) && !review.targetObservationIds.isEmpty &&
    decide (review.targetObservationIds.length ≤ 100) && decide (review.cells.length ≤ 10000) &&
    decide (review.lineCategories.length ≤ 10000)) "allocation_shape"

/-- Targets and receipts of a review in order, alone in their events and not blocked. -/
def select (review : EvidenceAllocationReview) : Checked Selection := do
  require (decide review.receiptIds.Nodup && decide review.targetObservationIds.Nodup &&
    (review.receiptIds ++ review.targetObservationIds).all isAllocationId)
    "allocation_duplicate_selection"
  let targets ← review.targetObservationIds.mapM fun id =>
    orStop (findObservation base id) "allocation_target_missing"
  let _ ← targets.foldlM (checkTarget base) []
  let receipts ← review.receiptIds.mapM fun id =>
    orStop (base.receipts.find? (·.id == id)) "allocation_receipt_missing"
  let s ← receipts.foldlM (selectReceipt base resolved)
    ⟨review.targetObservationIds, SortedMap.empty⟩
  let events := relevantEvents resolved s.observations
  require (events.all (·.observationIds.all s.observations.contains))
    "allocation_unselected_group_source"
  let hard := resolved.blockers.filter (·.code != "unmatched_funds")
  let blocked := blockedProjectionSubjects base.observations base.wallets hard
  require (events.all fun event => !isBlocked blocked event) "allocation_source_blocked"
  pure { s with targets := targets, receipts := receipts }

end

/-! ## The matrix -/

/-- The category of each line. -/
def chooseCategory (categories : SortedMap Pair String) (choice : EvidenceSettlementLineCategory) :
    Checked (SortedMap Pair String) := do
  let key : Pair := toLex (choice.receiptId, choice.lineId)
  require (isAllocationId choice.categoryId && (categories.get? key).isNone)
    "allocation_line_choice"
  pure (categories.insert key choice.categoryId)

/-- The sums of the cells by line, target, receipt and target, target and category. -/
structure Matrix where
  rows : SortedMap Pair I64
  columns : SortedMap String I64
  pairs : SortedMap Pair I64
  splits : SortedMap Pair I64
  keys : List (Pair × String)

def addCell (sel : Selection) (categories : SortedMap Pair String) (t : Matrix)
    (cell : EvidenceAllocationCell) : Checked Matrix := do
  let key : Pair := toLex (cell.receiptId, cell.lineId)
  let line ← orStop (sel.lines.get? key) "allocation_line_missing"
  let target ← orStop (sel.targets.find? (·.id == cell.targetObservationId))
    "allocation_cell_target"
  require (!t.keys.contains (key, cell.targetObservationId) &&
    decide (0 < (cell.amount.minorUnits : Int)) && cell.amount.currency == line.net.currency &&
    cell.amount.currency == target.amount.currency) "allocation_cell_amount_or_duplicate"
  let units := cell.amount.minorUnits
  let rows ← addTotal t.rows key units
  let columns ← addTotal t.columns cell.targetObservationId units
  let pairs ← addTotal t.pairs (toLex (cell.receiptId, cell.targetObservationId)) units
  let splits ← addTotal t.splits
    (toLex (cell.targetObservationId, (categories.get? key).getD "")) units
  pure ⟨rows, columns, pairs, splits, (key, cell.targetObservationId) :: t.keys⟩

/-- The receipt that an observation is selected for. -/
def receiptOf (sel : Selection) (observationId : String) : Option String :=
  (sel.receipts.find? (·.observationId == observationId)).map (·.id)

/-- Add a confirmed allocation from a selected receipt. -/
def addGraph (sel : Selection) (t : SortedMap Pair I64) (rel : EvidenceRelationship) :
    Checked (SortedMap Pair I64) :=
  match receiptOf sel rel.fromId with
  | none => pure t
  | some receipt => do
    require ((sel.targets.any (·.id == rel.toId)) && rel.kind != "transfer")
      "allocation_graph_target"
    let amount ← orStop rel.allocatedAmount "allocation_graph_amount"
    addTotal t (toLex (receipt, rel.toId)) amount.minorUnits

/-- The tenders of a receipt by card or bank: by observation, and without one. -/
structure Tendered where
  known : SortedMap String I64
  unknown : I64

def addTender (t : Tendered) (tender : ReceiptTender) : Checked Tendered :=
  if !(["card", "bank"].contains tender.kind) then pure t
  else
    match tender.observationId with
    | some target => do pure { t with known := ← addTotal t.known target tender.amount.minorUnits }
    | none => do pure { t with unknown := ← addAmount t.unknown tender.amount.minorUnits }

/-- What a target needs of a receipt beyond its known tenders. -/
def addNeed (pairs : SortedMap Pair I64) (receipt : ReceiptEvidence) (t : Tendered) (needed : I64)
    (target : EvidenceObservation) : Checked I64 := do
  let amount := (pairs.get? (toLex (receipt.id, target.id))).getD 0
  let rest ← subAmount amount ((t.known.get? target.id).getD 0)
  addAmount needed (I64.clamp rest)

/-- The card and bank tenders of a receipt cover its allocations. -/
def checkTenders (sel : Selection) (pairs : SortedMap Pair I64) (receipt : ReceiptEvidence) :
    Checked Unit := do
  let t ← receipt.tenders.foldlM addTender ⟨SortedMap.empty, 0⟩
  let needed ← sel.targets.foldlM (addNeed pairs receipt t) 0
  require (decide ((needed : Int) ≤ t.unknown)) "allocation_bank_tender_capacity"

/-- What is left of the lines. -/
def addRemainder (rows : SortedMap Pair I64) (out : List EvidenceAllocationRemainder)
    (e : Pair × ReceiptLine) : Checked (List EvidenceAllocationRemainder) := do
  let consumed := (rows.get? e.1).getD 0
  require (decide ((consumed : Int) ≤ e.2.net.minorUnits)) "allocation_line_capacity"
  let remaining : Int := e.2.net.minorUnits - consumed
  pure (if 0 < remaining then
    out ++ [⟨(ofLex e.1).1, (ofLex e.1).2, ⟨I64.wrap remaining, e.2.net.currency⟩⟩]
  else out)

/-! ## Projections -/

/-- The text length of a manifest, which every published parent carries. -/
def manifestBytes (review : EvidenceAllocationReview) (sources : List EvidenceProvenance)
    (evidenceIds : List String) : Nat :=
  byteLength (writtenText (.array [review.json, .array (sources.map (·.json)),
    .array (evidenceIds.map Json.string)]))

/-- A target funded in full. -/
def isFunded (columns : SortedMap String I64) (target : EvidenceObservation) : Bool :=
  (columns.get? target.id).getD 0 == target.amount.minorUnits

/-- The effect of a target funded in full: one category, or splits. -/
def fundedEffect (splits : SortedMap Pair I64) (total : I64) (target : EvidenceObservation) :
    EconomicEventLedgerEffect :=
  let parts : List ManualTransactionSplit :=
    (splits.entries.filter fun e => (ofLex e.1).1 == target.id).map fun e =>
      ⟨(ofLex e.1).2, ⟨I64.neg e.2, target.amount.currency⟩⟩
  { accountId := target.ledgerAccountId.getD ""
    amount := ⟨I64.neg total, target.amount.currency⟩
    date := target.date
    categoryId := if parts.length = 1 then parts.head?.map (·.categoryId) else none
    payeeName := none
    notes := none
    splits := if parts.length = 1 then [] else parts }

/-- Projections and remainders of the targets so far. -/
structure Projected where
  projections : List EvidenceAllocationProjection
  targetRemainders : List EvidenceAllocationTargetRemainder

def projectTarget (events : List ResolvedEconomicEvent) (t : Matrix)
    (sources : List EvidenceProvenance) (evidenceIds : List String) (out : Projected)
    (target : EvidenceObservation) : Checked Projected := do
  let total := (t.columns.get? target.id).getD 0
  require (decide ((total : Int) ≤ target.amount.minorUnits)) "allocation_target_capacity"
  if (total : Int) < target.amount.minorUnits then
    pure { out with
      targetRemainders := out.targetRemainders ++ [⟨target.id,
        ⟨I64.wrap (target.amount.minorUnits - total), target.amount.currency⟩⟩] }
  else do
    let event ← orStop (events.find? (·.observationIds.contains target.id))
      "allocation_event_missing"
    pure { out with
      projections := out.projections ++ [
        { eventId := event.id
          targetObservationId := target.id
          ledgerTransactionId := target.ledgerTransactionId.getD ""
          evidenceIds := evidenceIds
          sources := sources
          ledgerEffect := fundedEffect t.splits total target }] }

/-- The observations an allocation depends on. -/
def dependencyIds (sel : Selection) : List String :=
  sortedSet (sel.observations ++ sel.receipts.flatMap fun r => r.tenders.filterMap (·.observationId))

/-- The observations' sources. -/
def dependencySources (base : TransactionEvidenceRequest) (sel : Selection) :
    List EvidenceProvenance :=
  (dependencyIds sel).filterMap fun id => (findObservation base id).map (·.provenance)

/-- 2 MiB. -/
def publicationLimit : Nat := 2 * 1024 * 1024

/-- The plan of a review, with the hash of what it publishes. -/
def planOf (review : EvidenceAllocationReview) (remainders : List EvidenceAllocationRemainder)
    (out : Projected) : EvidenceAllocationPlan :=
  let hash := digestValue (.object [
    ("review", { review with allocationSetHash := "" : EvidenceAllocationReview }.json),
    ("projections", .array (out.projections.map (·.json))),
    ("remainders", .array (remainders.map (·.json))),
    ("targetRemainders", .array (out.targetRemainders.map (·.json)))])
  { contractVersion := "1"
    sourceHash := review.sourceHash
    allocationSetHash := hash
    review := { review with allocationSetHash := hash }
    projections := out.projections
    remainders := remainders
    targetRemainders := out.targetRemainders
    fundingRelationships := none }

/-- The cells of a review against its selection and the confirmed allocations. -/
def matrixOf (resolved : TransactionEvidenceResult) (sel : Selection)
    (review : EvidenceAllocationReview) : Checked Matrix := do
  let categories ← review.lineCategories.foldlM chooseCategory SortedMap.empty
  require (categories.keys.length == sel.lines.keys.length &&
    sel.lines.keys.all fun key => (categories.get? key).isSome)
    "allocation_line_categories_required"
  let t ← review.cells.foldlM (addCell sel categories)
    ⟨SortedMap.empty, SortedMap.empty, SortedMap.empty, SortedMap.empty, []⟩
  let graph ← (resolved.relationships.filter (·.allocates)).foldlM (addGraph sel) SortedMap.empty
  require (decide (graph.entries = t.pairs.entries)) "allocation_graph_matrix_mismatch"
  sel.receipts.forM (checkTenders sel t.pairs)
  pure t

/-- Every parent carries the manifest: their product is bounded. -/
def checkPublication (review : EvidenceAllocationReview) (sel : Selection) (t : Matrix)
    (sources : List EvidenceProvenance) (evidenceIds : List String) : Checked Unit := do
  let funded := (sel.targets.filter (isFunded t.columns)).length
  let items := review.cells.length + review.lineCategories.length + review.receiptIds.length +
    review.targetObservationIds.length + evidenceIds.length + sources.length
  require (decide (funded * items ≤ 50000)) "allocation_publication_limit"
  require (decide (max funded 1 * manifestBytes review sources evidenceIds ≤ publicationLimit))
    "allocation_publication_limit"

def compute (base : TransactionEvidenceRequest) (resolved : TransactionEvidenceResult)
    (review : EvidenceAllocationReview) : Checked EvidenceAllocationPlan := do
  checkShape review
  let review := normalizeReview review
  let sel ← select base resolved review
  let t ← matrixOf resolved sel review
  let remainders ← sel.lines.entries.foldlM (addRemainder t.rows) []
  let sources := dependencySources base sel
  let evidenceIds := sortedSet (sources.map (·.documentId))
  checkPublication review sel t sources evidenceIds
  let events := relevantEvents resolved sel.observations
  let out ← sel.targets.foldlM (projectTarget events t sources evidenceIds) ⟨[], []⟩
  let plan := planOf review remainders out
  require (decide (byteLength (writtenText plan.json) ≤ publicationLimit))
    "allocation_publication_limit"
  pure plan

/-! ## Applying a review -/

/-- The reviewed effect of a target is the projected one; payee and notes are the reviewer's. -/
def checkReviewed (plan : EvidenceAllocationPlan) (target : EvidenceObservation) :
    Checked Unit :=
  match plan.projections.find? (·.targetObservationId == target.id) with
  | none => require target.ledgerEffect.isNone "allocation_unfunded_effect"
  | some projection => do
    let actual ← orStop target.ledgerEffect "allocation_reviewed_effect_required"
    require (target.reviewedLedgerEffect && actual ==
      { projection.ledgerEffect with
        payeeName := actual.payeeName
        notes := actual.notes }) "allocation_reviewed_effect_mismatch"

/-- Events of the review lose their own projections and carry its hash. -/
def stampEvent (involved : List String) (hash : String) (event : ResolvedEconomicEvent) :
    ResolvedEconomicEvent :=
  if event.observationIds.any involved.contains then
    { event with
      projectionObservation := none
      projectionObservations := []
      allocationSetHash := some hash }
  else event

/-- What the review projects for a target. -/
def proofOf (plan : EvidenceAllocationPlan) (resolutionHash : String)
    (observations : List EvidenceObservation) (projection : EvidenceAllocationProjection) :
    SourceObservation where
  walletBalanceAnchor := none
  allocationReview := some plan.review
  kind := .economicEventResolution
  scope := .transaction projection.ledgerTransactionId
  state := .resolved
  observedAt := (projection.sources.map (·.receivedAt)).max?
  contentHash := some resolutionHash
  version := some "1"
  ledgerEffect :=
    (observations.find? (·.id == projection.targetObservationId)).bind (·.ledgerEffect)
  evidence := projection.evidenceIds.map (evidenceReference "economic_event_resolution")

/-- Put a projection on the first event with its id. -/
def attachProof (eventId : String) (proof : SourceObservation) :
    List ResolvedEconomicEvent → Option (List ResolvedEconomicEvent)
  | [] => none
  | event :: rest =>
    if event.id == eventId then
      some ({ event with projectionObservations := event.projectionObservations ++ [proof] } :: rest)
    else (attachProof eventId proof rest).map (event :: ·)

/-- A single projection of a review is the event's projection. -/
def settleSingle (event : ResolvedEconomicEvent) : ResolvedEconomicEvent :=
  match event.projectionObservations with
  | [proof] => { event with projectionObservation := some proof, projectionObservations := [] }
  | _ => event

/-- The observations of a review. -/
def involvedIds (request : TransactionEvidenceRequest) (review : EvidenceAllocationReview) :
    List String :=
  review.targetObservationIds ++ review.receiptIds.filterMap fun id =>
    (request.receipts.find? (·.id == id)).map (·.observationId)

/-- The events with the projections of a plan. -/
def publish (request : TransactionEvidenceRequest) (review : EvidenceAllocationReview)
    (plan : EvidenceAllocationPlan) (resolutionHash : String)
    (events : List ResolvedEconomicEvent) : Checked (List ResolvedEconomicEvent) := do
  let stamped := events.map (stampEvent (involvedIds request review) plan.allocationSetHash)
  let attached ← plan.projections.foldlM (fun events projection =>
    orStop (attachProof projection.eventId
      (proofOf plan resolutionHash request.observations projection) events)
      "allocation_event_missing") stamped
  pure (attached.map settleSingle)

def applyAllocationReview (request : TransactionEvidenceRequest)
    (result : TransactionEvidenceResult) : Checked TransactionEvidenceResult :=
  match request.allocationReview with
  | none => pure result
  | some review => do
    let base := baseline request review.targetObservationIds
    require (review.sourceHash == digest base.json) "allocation_source_changed"
    let plan ← compute base result review
    require (plan.review == review) "allocation_manifest_changed"
    (request.observations.filter fun o => review.targetObservationIds.contains o.id).forM
      (checkReviewed plan)
    let events ← publish request review plan result.resolutionHash result.events
    pure { result with events := events }

end BalanceFrame.Evidence
