import BalanceFrame.Workflow.Executing

/-!
# Session completions and transfers

Model of what `LiquidityWorkflow` (`packages/workflow-store/src/liquidity.ts`) writes to the
proposal tables: `admitSessionCompletion`, `approveSessionCompletion`,
`beginSessionCompletionWrite`, `finishSessionCompletionWrite`, `reconcileSessionCompletion`,
`closeCompletion`, `invalidateCompletionProposals`, `updateCompletion` and `record`, and the same
statements for transfers. Of the checks, those on the proposal, its phase and version, its write row
and the owner of the budget's writes are modelled; whether the others (authority, session, policy,
claims, evidence) pass comes with the call.
-/

namespace BalanceFrame.Workflow

open Library
open Governance

/-- What the other checks of a command find. -/
inductive Admission
  | admitted
  | refused (message : String)
  /-- The claim set changed: the proposal is closed as superseded. -/
  | stale
  deriving DecidableEq

/-- `SessionCompletionCommand`, with the texts of `randomUUID`. -/
structure CompletionCommand where
  proposalId : String
  budgetId : String
  payloadHash : String
  actorId : String
  idempotencyKey : String
  expectedVersion : Nat
  now : String
  auditId : String
  admission : Admission

namespace WorkflowStore

variable (s : WorkflowStore)

/-- `record`: the claim and the audit record of a finished command. -/
def record (key proposalId operation now actorId budgetId auditId : String) :
    Guarded WorkflowStore := do
  reject (s.idempotency.any (·.idempotencyKey == key)) { message := "UNIQUE constraint failed" }
  let claimed : WorkflowStore := { s with idempotency := s.idempotency ++
      [{ idempotencyKey := key, proposalId := proposalId, operation := operation
         executedAt := now, completed := true, status := .succeeded, leaseExpiresAt := none
         serialisedEffect := "" }] }
  claimed.insertAudit
    { id := auditId, classification := "workflow_transition", timestamp := now, actorId := actorId
      operation := some operation, proposalId := some proposalId, payloadHash := none
      budgetId := some budgetId, policyVersion := none, idempotencyKey := some key
      observedResultState := none, result := none, isError := false }

/-- `record` of a completion command. -/
def recordCompletion (input : CompletionCommand) (operation : String) : Guarded WorkflowStore :=
  s.record input.idempotencyKey input.proposalId operation input.now input.actorId input.budgetId
    input.auditId

/-- The rows whose approvals a withdrawal supersedes. -/
def supersedeApprovals (proposalId now : String) : WorkflowStore :=
  { s with approvals := s.approvals.map fun a =>
      if a.proposalId = proposalId ∧ a.status = .active then
        { a with status := .superseded, supersededAt := some now } else a }

def updateCompletion (proposal : ProposalRow) (phase : CompletionPhase) (outcome : Option String)
    (now : String) : Guarded WorkflowStore := do
  reject (!s.proposals.any fun p => p.id == proposal.id && p.version == proposal.version)
    { message := "Proposal version conflict" }
  .ok (s.setProposal proposal.id fun p =>
    { p with
      state := .completion phase outcome
      version := p.version + 1
      supersededAt := if outcome = some "superseded" then some now else p.supersededAt })

def closeCompletion (proposal : ProposalRow) (outcome now : String) : Guarded WorkflowStore :=
  (s.supersedeApprovals proposal.id now).updateCompletion proposal
    (if let .completion .writeIntent _ := proposal.state then .writeIntent else .closed)
    (some outcome) now

/-- `loadCompletion` with the checks of `completionCommand` on the row. -/
def completionOf (input : CompletionCommand) : Guarded (ProposalRow × CompletionPhase) := do
  let proposal ← orStop (s.selectProposal input.proposalId) { message := "Proposal unavailable" }
  reject (proposal.operation != .sessionCompletion) { message := "Unsupported operation" }
  reject (proposal.budgetId != input.budgetId) { message := "Resource authorization denied" }
  reject (proposal.payloadHash != input.payloadHash) { message := "Payload hash mismatch" }
  match proposal.state with
  | .completion phase _ => .ok (proposal, phase)
  | _ => .error { message := "Unsupported operation" }

/-- The proposal of a command that writes, at its expected version. -/
def currentCompletion (input : CompletionCommand) : Guarded (ProposalRow × CompletionPhase) := do
  let (proposal, phase) ← s.completionOf input
  reject (proposal.version != input.expectedVersion) { message := "Proposal version conflict" }
  .ok (proposal, phase)

/-! ## Session completions -/

/-- `admitSessionCompletion`: the row it inserts is part of the input. -/
def admitCompletion (input : CompletionCommand) (row : ProposalRow) : Guarded WorkflowStore := do
  reject (input.admission != .admitted) { message := "Session completion refused" }
  let proposed : ProposalRow :=
    { row with id := input.proposalId, operation := .sessionCompletion
               budgetId := input.budgetId, payloadHash := input.payloadHash, version := 1
               state := .completion .proposed none, supersededAt := none }
  reject (s.proposals.any (proposalClashes proposed)) { message := "UNIQUE constraint failed" }
  let added : WorkflowStore := { s with proposals := s.proposals ++ [proposed] }
  added.recordCompletion input "session_completion:admit"

/-- The approvals a command inserts; a duplicate stops it. -/
def insertApproval (row : ApprovalRow) : Guarded WorkflowStore := do
  reject (s.approvals.any (approvalClashes row)) { message := "UNIQUE constraint failed" }
  .ok { s with approvals := s.approvals ++ [row] }

/-- `approveSessionCompletion`; `approved` says that the current approvals are enough. -/
def approveCompletion (input : CompletionCommand) (row : ApprovalRow) (approved : Bool) :
    Guarded WorkflowStore := do
  let (proposal, phase) ← s.currentCompletion input
  reject (phase != .proposed && phase != .approved) { message := "Invalid approval phase" }
  match input.admission with
  | .refused message => .error { message }
  | .stale => s.closeCompletion proposal "superseded" input.now
  | .admitted => do
    let added ← s.insertApproval { row with proposalId := proposal.id, status := .active }
    let updated ← added.updateCompletion proposal (if approved then .approved else .proposed) none
      input.now
    updated.recordCompletion input "session_completion:approve"

/-- The write row of a completion that begins. -/
def writeRow (input : CompletionCommand) (intentId parentId : String) : CompletionWriteRow where
  budgetId := input.budgetId
  proposalId := input.proposalId
  intentId := intentId
  payloadHash := input.payloadHash
  parentId := parentId
  status := .writeIntent

/-- The insert of a write row. -/
def insertWrite (row : CompletionWriteRow) : Guarded WorkflowStore := do
  reject (s.completionWrites.any fun w =>
      (w.budgetId == row.budgetId && w.proposalId == row.proposalId) ||
        w.intentId == row.intentId || (w.budgetId == row.budgetId && w.parentId == row.parentId))
    { message := "UNIQUE constraint failed" }
  .ok { s with completionWrites := s.completionWrites ++ [row] }

/-- The consumption of approvals by their ids. -/
def consumeApprovals (ids : List String) (now : String) : WorkflowStore :=
  { s with approvals := s.approvals.map fun a =>
      if ids.contains a.id ∧ a.status = .active then
        { a with status := .consumed, consumedAt := some now } else a }

/-- `beginSessionCompletionWrite` that is no replay. -/
def beginCompletionWrite (input : CompletionCommand) (intentId parentId : String)
    (approvalIds : List String) : Guarded WorkflowStore := do
  let (proposal, phase) ← s.currentCompletion input
  reject (phase != .approved) { message := "Current approval required" }
  reject (s.hasConflictingOwner input.budgetId proposal.id)
    { message := "Another acquired budget mutation owns the write fence" }
  match input.admission with
  | .refused message => .error { message }
  | .stale => s.closeCompletion proposal "superseded" input.now
  | .admitted => do
    let written ← s.insertWrite (writeRow input intentId parentId)
    let updated ← (written.consumeApprovals approvalIds input.now).updateCompletion proposal
      .writeIntent none input.now
    updated.recordCompletion input "session_completion:begin_write"

/-- The status of a write row. -/
def setWrite (budgetId proposalId : String) (status : WriteStatus) : WorkflowStore :=
  { s with completionWrites := s.completionWrites.map fun w =>
      if w.budgetId = budgetId ∧ w.proposalId = proposalId then { w with status } else w }

/-- The write row of a completion. -/
def selectWrite (budgetId proposalId : String) : Option CompletionWriteRow :=
  s.completionWrites.find? fun w => w.budgetId == budgetId && w.proposalId == proposalId

/-- What a connector reports of a manual write. -/
inductive WriteResult
  | verified
  /-- `IMPORTED_CANDIDATE_REVIEW` or `AMBIGUOUS_IMPORTED_CANDIDATE`: no write was attempted. -/
  | importedCandidate
  | uncertain
  deriving DecidableEq

/-- The phase, the outcome and the write status a result leads to. -/
def WriteResult.leads : WriteResult → CompletionPhase × Option String × WriteStatus
  | .verified => (.verified, none, .verified)
  | .importedCandidate => (.closed, some "reconciliation_required", .reviewRequired)
  | .uncertain => (.reviewRequired, some "reconciliation_required", .reviewRequired)

/-- The approvals a result withdraws. -/
def withdrawAfter (result : WriteResult) (proposalId now : String) : WorkflowStore :=
  if result = .importedCandidate then s.supersedeApprovals proposalId now else s

/-- `finishSessionCompletionWrite` that is no replay. -/
def finishCompletionWrite (input : CompletionCommand) (intentId : String) (result : WriteResult) :
    Guarded WorkflowStore := do
  let (proposal, phase) ← s.currentCompletion input
  reject (input.admission != .admitted) { message := "Session completion write refused" }
  reject (phase != .writeIntent) { message := "Write intent unavailable" }
  reject (!(s.selectWrite input.budgetId proposal.id).any fun w =>
      w.payloadHash == proposal.payloadHash && w.status == .writeIntent && w.intentId == intentId &&
        !isBlank w.intentId)
    { message := "Write intent unavailable" }
  let written := (s.withdrawAfter result proposal.id input.now).setWrite input.budgetId proposal.id
    result.leads.2.2
  let updated ← written.updateCompletion proposal result.leads.1 result.leads.2.1 input.now
  updated.recordCompletion input "session_completion:finish_write"

/-- The evidence of a reconciliation. -/
inductive CompletionEvidence
  | manualParent
  | importedLink
  | ambiguous
  deriving DecidableEq

/-- The phase and the write status of a completion fit its reconciliation. -/
def reconcilable (phase : CompletionPhase) (status : WriteStatus) (evidence : CompletionEvidence) :
    Bool :=
  match phase with
  | .writeIntent => status == .writeIntent && evidence != .importedLink
  | .reviewRequired =>
    (status == .writeIntent || status == .reviewRequired) && evidence != .importedLink
  | .verified => status == .verified && evidence == .importedLink
  | _ => false

/-- The write row after a reconciliation. -/
def settleWrite (input : CompletionCommand) (evidence : CompletionEvidence) : WorkflowStore :=
  if evidence = .manualParent then s.setWrite input.budgetId input.proposalId .verified else s

/-- `reconcileSessionCompletion` that is no replay. -/
def reconcileCompletion (input : CompletionCommand) (evidence : CompletionEvidence) :
    Guarded WorkflowStore := do
  let (proposal, phase) ← s.currentCompletion input
  reject (input.admission != .admitted) { message := "Reconciliation refused" }
  reject (!(s.selectWrite input.budgetId proposal.id).any fun w =>
      w.payloadHash == proposal.payloadHash && reconcilable phase w.status evidence)
    { message := "Completion write intent unavailable" }
  let updated ← (s.settleWrite input evidence).updateCompletion proposal
    (if evidence = .ambiguous then .reviewRequired else .verified)
    (if evidence = .ambiguous then some "ambiguous" else none) input.now
  updated.recordCompletion input "session_completion:reconcile"

/-- The pending completions of a budget. -/
def pendingCompletions (budgetId : String) : List ProposalRow :=
  s.proposals.filter fun p => p.budgetId == budgetId && p.operation == .sessionCompletion &&
    match p.state with
    | .completion phase _ => phase == .proposed || phase == .approved
    | _ => false

/-- `invalidateCompletionProposals` over the pending completions with given ids. -/
def invalidateCompletions (budgetId : String) (ids : List String) (now : String) :
    Guarded WorkflowStore :=
  ((s.pendingCompletions budgetId).filter fun p => ids.contains p.id).foldlM
    (fun s p => s.closeCompletion p "superseded" now) s

/-! ## Transfers -/

/-- What a command on a transfer, a claim or a session writes. -/
inductive TransferChange
  | insert (row : ProposalRow)
  | update (proposalId : String) (expectedVersion : Nat) (supersededAt : Option String)
  | approve (row : ApprovalRow)
  | consume (proposalId : String) (approvalIds : List String)
  | withdraw (proposalId : String)
  | record (key proposalId operation actorId budgetId auditId : String)

/-- The row of a transfer. -/
def transferOf (proposalId : String) : Guarded ProposalRow := do
  let proposal ← orStop (s.selectProposal proposalId) { message := "Proposal unavailable" }
  reject (proposal.operation != .transfer) { message := "Unsupported operation" }
  .ok proposal

/-- The operations of `LiquidityWorkflow` are none of the generic proposal operations. -/
def isCommandOperation (operation : String) : Bool :=
  !(["set_category", "create_rule", "update_rule", "delete_rule",
    "consequential_action"].contains operation)

/-- One statement of such a command. -/
def transferChange (now : String) : TransferChange → Guarded WorkflowStore
  | .insert row => do
    let proposed : ProposalRow :=
      { row with operation := .transfer, version := 1, state := .other, supersededAt := none }
    reject (s.proposals.any (proposalClashes proposed)) { message := "UNIQUE constraint failed" }
    .ok { s with proposals := s.proposals ++ [proposed] }
  | .update proposalId expectedVersion supersededAt => do
    let proposal ← s.transferOf proposalId
    reject (proposal.version != expectedVersion) { message := "Proposal version conflict" }
    .ok (s.setProposal proposalId fun p =>
      { p with version := p.version + 1, supersededAt := supersededAt <|> p.supersededAt })
  | .approve row => do
    let _ ← s.transferOf row.proposalId
    s.insertApproval { row with status := .active }
  | .consume proposalId approvalIds => do
    let _ ← s.transferOf proposalId
    .ok (s.consumeApprovals
      ((s.approvals.filter fun a => a.proposalId == proposalId && approvalIds.contains a.id).map
        (·.id)) now)
  | .withdraw proposalId => do
    let _ ← s.transferOf proposalId
    .ok (s.supersedeApprovals proposalId now)
  | .record key proposalId operation actorId budgetId auditId => do
    reject (!isCommandOperation operation) { message := "Unsupported operation" }
    s.record key proposalId operation now actorId budgetId auditId

end WorkflowStore

end BalanceFrame.Workflow
