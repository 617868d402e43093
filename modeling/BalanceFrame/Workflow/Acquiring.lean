import BalanceFrame.Workflow.Approving

/-!
# Acquiring the execution of a proposal

Model of `acquireProposalExecutionSync` with its callers `acquireProposalExecution` and
`validateAcquiredProposalExecution` (`packages/workflow-store/src/store.ts`) and of
`hasConflictingBudgetMutationOwner` (`packages/workflow-store/src/liquidity.ts`).
-/

namespace BalanceFrame.Workflow

open Library
open Governance

/-! ## The owner of a budget's writes -/

/-- A row's state puts it among the owners: an acquired action, or a session completion with a write
row that is not verified. -/
def WorkflowStore.ownsByPhase (s : WorkflowStore) (p : ProposalRow) : Bool :=
  match p.operation, p.state with
  | .consequentialAction, .action state => state.phase.acquired
  | .sessionCompletion, .completion phase _ =>
    (phase == .writeIntent || phase == .reviewRequired) &&
      s.completionWrites.any fun w => w.budgetId == p.budgetId && w.proposalId == p.id &&
        (w.status == .writeIntent || w.status == .reviewRequired)
  | _, _ => false

/-- The state of an action or a completion says that its writing is over. -/
def finishedState (p : ProposalRow) : Bool :=
  match p.operation, p.state with
  | .consequentialAction, .action state =>
    state.phase == .verified || state.phase == .invalidatedNoDispatch
  | .consequentialAction, .completion phase _ | .sessionCompletion, .completion phase _ =>
    phase == .verified
  | .sessionCompletion, .action state =>
    state.phase == .verified || state.phase == .invalidatedNoDispatch
  | _, _ => false

/-- `acquisition` in the dispatch proof: the start of an execution of this proposal and key. -/
def startsExecution (p : ProposalRow) (key : String) (a : AuditRow) : Bool :=
  a.classification == "execution_started" && !a.isError && a.operation == some p.operation.text &&
    a.proposalId == some p.id && a.payloadHash == some p.payloadHash &&
    a.budgetId == some p.budgetId && a.idempotencyKey == some key

/-- `failure` in the dispatch proof: a failure that names an acquisition as never dispatched. -/
def deniesDispatch (p : ProposalRow) (key : String) (a : AuditRow) (acquisitionId : String) :
    Bool :=
  a.classification == "execution_failed" && a.isError && a.operation == some p.operation.text &&
    a.proposalId == some p.id && a.payloadHash == some p.payloadHash &&
    a.budgetId == some p.budgetId && a.idempotencyKey == some key &&
    a.observedResultState.any fun o => o.kind == some "categorization_dispatch" &&
      o.dispatchStarted == some false && o.acquisitionAuditId == some acquisitionId

namespace WorkflowStore

variable (s : WorkflowStore)

/-- The last start of an execution, followed by a failure that denies its dispatch. -/
def dispatchDenied (p : ProposalRow) (key : String) : Bool :=
  match (s.audits.reverse.find? (startsExecution p key)) with
  | none => false
  | some acquisition =>
    ((s.audits.dropWhile (·.id != acquisition.id)).drop 1).any fun failure =>
      deniesDispatch p key failure acquisition.id

/-- A record keeps its proposal among the owners: in progress, or failed without the proof that its
dispatch never started. -/
def ownsByRecord (p : ProposalRow) (i : IdempotencyRow) : Bool :=
  i.proposalId == p.id &&
    (i.status == .inProgress ||
      ((i.status == .retryableFailed || i.status == .terminalFailed) &&
        !(finishedState p || (p.operation == .setCategory && i.operation == p.operation.text &&
          s.dispatchDenied p i.idempotencyKey))))

/-- A proposal owns the writes of its budget. -/
def ownsWrites (p : ProposalRow) : Bool :=
  s.ownsByPhase p || s.idempotency.any (s.ownsByRecord p)

/-- `hasConflictingBudgetMutationOwner`. -/
def hasConflictingOwner (budgetId proposalId : String) : Bool :=
  s.proposals.any fun p => p.budgetId == budgetId && p.id != proposalId && s.ownsWrites p

/-- `assertBudgetMutationOwnerAvailable`. -/
def assertOwnerAvailable (budgetId proposalId : String) : Guarded Unit :=
  reject (s.hasConflictingOwner budgetId proposalId)
    (idempotencyInProgress "Another acquired budget mutation owns the write fence")

end WorkflowStore

/-! ## Acquiring -/

/-- `AcquireProposalExecutionInput`; `auditId` is the text of `randomUUID`. -/
structure AcquireInput where
  actorId : String
  proposalId : String
  payloadHash : String
  governancePolicyVersion : String
  idempotencyKey : String
  serialisedEffect : String
  approvalId : Option String
  auth : OperationalAuth
  now : String
  auditId : String
  answers : Answers

/-- What an acquisition returns: `isOwner`, the consumed approvals and the audit record. -/
structure Acquired where
  isOwner : Bool
  approvals : List ApprovalRow := []
  auditRecord : Option AuditRow := none
  deriving DecidableEq

namespace WorkflowStore

variable (s : WorkflowStore) (host : Host)

/-- The record under the key of an existing acquisition. -/
def acquiredRecord (input : AcquireInput) : Option IdempotencyRow :=
  (s.selectProposalExecutionAcquisition input.proposalId).bind fun a =>
    if a.idempotencyKey = input.idempotencyKey then s.selectIdempotency input.idempotencyKey
    else none

def completedReplay (input : AcquireInput) (proposal : ProposalRow)
    (acquisitionAuditId : Option String) : Bool :=
  acquisitionAuditId.isNone &&
    (s.selectProposalExecutionAcquisition input.proposalId).any (·.actorId == input.actorId) &&
    (s.acquiredRecord input).any fun i => i.proposalId == input.proposalId &&
      i.operation == proposal.operation.text && i.completed

/-- Expiry, supersession, version and hash of the proposal. -/
def checkAcquirable (input : AcquireInput) (proposal : ProposalRow)
    (acquisitionAuditId : Option String) : Guarded Unit := do
  let expired : Refusal := ⟨"proposal_expired", "Proposal is expired"⟩
  let nowMillis ← orStop (timestampMillis input.now) expired
  let expiresAt ← orStop (timestampMillis proposal.expiresAt) expired
  let replay := s.completedReplay input proposal acquisitionAuditId
  reject (decide (expiresAt ≤ nowMillis) && !replay) expired
  reject ((truthy proposal.supersededAt).isSome && !replay)
    ⟨"proposal_superseded", "Proposal is superseded"⟩
  reject (proposal.policyVersion != genericMutationPolicyVersion)
    (policyVersionMismatch "Generic mutation policy version changed")
  reject (!host.proposalHashMatches proposal || input.payloadHash != proposal.payloadHash)
    (payloadHashMismatch "Proposal hash does not match stored envelope")

/-- The credentials of the executor, and the key. -/
def checkExecutor (input : AcquireInput) (proposal : ProposalRow) : Guarded Unit := do
  let matches_ ← s.operationalAuthMatches input.auth input.actorId input.now
  reject (input.actorId != input.auth.actorId || !matches_)
    (authorizationDenied "Executor does not match trusted credentials")
  reject (!originDelegationMatches proposal input.auth)
    (authorizationDenied "Agent proposal origin delegation differs")
  reject (isBlank input.idempotencyKey)
    (idempotencyReplayMismatch "Idempotency key is required")

/-- The plan of an action names the key and the expiry, and an action that was never acquired is
still proposed or approved. -/
def checkActionIdentity (input : AcquireInput) (proposal : ProposalRow)
    (acquisitionAuditId : Option String) : Guarded Unit :=
  if proposal.operation = .consequentialAction then
    let refusal :=
      idempotencyReplayMismatch "Consequential-action identity is not executable"
    match proposal.payload.plan?, proposal.state with
    | some plan, .action state =>
      reject (plan.idempotencyKey != input.idempotencyKey || plan.expiresAt != proposal.expiresAt ||
          (acquisitionAuditId.isNone &&
            (s.selectProposalExecutionAcquisition input.proposalId).isNone &&
            !(state.phase == .proposed || state.phase == .approved))) refusal
    | _, _ => .error refusal
  else .ok ()

/-- The policy and the requester of the proposal are the current ones. -/
def executionPolicy (input : AcquireInput) (proposal : ProposalRow) :
    Guarded (String × PolicyRow) := do
  let (spaceId, policy) ← s.boundPolicy proposal
  reject (some input.governancePolicyVersion != proposal.governancePolicyVersion)
    (policyVersionMismatch "Current governance policy differs from proposal")
  let requester ← s.requesterMembershipCurrent proposal input.now
  reject (!requester)
    (authorizationDenied "Proposal requester membership is no longer current")
  .ok (spaceId, policy)

/-- Everything that both a new acquisition and a replay check first. -/
def admitExecution (input : AcquireInput) (acquisitionAuditId : Option String) :
    Guarded (Context × AuthorizationResult) := do
  let notFound := authorizationDenied "Generic proposal not found"
  let proposal ← orStop (s.selectProposal input.proposalId) notFound
  reject (!proposal.operation.isGeneric) notFound
  s.checkAcquirable host input proposal acquisitionAuditId
  s.checkExecutor input proposal
  let (spaceId, policy) ← s.executionPolicy input proposal
  let facts ← orStop (host.deriveProposalAuthorizationFacts proposal.operation proposal.payload
      proposal.preconditions)
    (payloadHashMismatch "Stored proposal authorization facts are invalid")
  s.checkActionIdentity input proposal acquisitionAuditId
  let c : Context := ⟨proposal, spaceId, policy, facts⟩
  reject (!s.proposalOriginAuthorityCurrent host c input.now)
    (authorizationDenied "Proposal origin authority is no longer current")
  reject (host.serialise proposal.operation proposal.payload proposal.preconditions !=
      input.serialisedEffect)
    (idempotencyReplayMismatch "Execution effect differs from proposal")
  let authorization := s.authorizeGenericProposal host
    (c.authorization input.actorId (some input.auth) .propose .execute input.now)
  reject (!authorization.allowed) (authorizationDenied authorization.reason)
  .ok (c, authorization)

/-- The approvers an execution needs: `none` when the financial policy of an action changed. -/
def requiredApprovals (c : Context) (authorization : AuthorizationResult) : Option Nat :=
  if c.proposal.operation = .consequentialAction then
    (s.actionRequiredApprovers c.proposal.budgetId c.proposal.payload c.proposal.preconditions
      (some c.policy) c.facts).map (max (requiredProposalApprovers authorization))
  else some (requiredProposalApprovers authorization)

/-- The execution is authorized once its human approvals are verified. -/
def executionAuthorized (input : AcquireInput) (c : Context) : Guarded Unit := do
  let authorization := s.authorizeGenericProposal host
    { c.authorization input.actorId (some input.auth) .execute .execute input.now with
      verifiedHumanApproval := true }
  reject (!authorization.allowed) (authorizationDenied authorization.reason)

/-! ### A replay -/

/-- The audit record of an acquisition is the one named, unchanged. -/
def acquisitionAuditMatches (input : AcquireInput) (proposal : ProposalRow) (acquiredAt : String)
    (audit : AuditRow) : Bool :=
  audit.classification == "execution_started" && !audit.isError &&
    audit.actorId == input.actorId && audit.proposalId == some input.proposalId &&
    audit.idempotencyKey == some input.idempotencyKey &&
    audit.operation == some proposal.operation.text &&
    audit.payloadHash == some proposal.payloadHash && audit.budgetId == some proposal.budgetId &&
    audit.policyVersion == some proposal.policyVersion && audit.timestamp == acquiredAt

/-- An approval id of an acquisition names an approval consumed by it. -/
def acquiredApproval (acquiredAt : String) (id : String) : Guarded ApprovalRow := do
  let refusal : Refusal := ⟨"approval_required", "Acquired approval is no longer current"⟩
  let approval ← orStop (s.selectApproval id) refusal
  reject (approval.status != .consumed || approval.consumedAt != some acquiredAt) refusal
  .ok approval

/-- The durable acquisition of an action is the one named. -/
def checkDurableAcquisition (input : AcquireInput) (proposal : ProposalRow)
    (acquisitionAuditId : String) : Guarded Unit :=
  if proposal.operation = .consequentialAction then do
    let state ← actionStateOf proposal
    reject (state.phase != .writeIntent || !state.acquisition.any fun a =>
        a.actorId == input.actorId && a.payloadHash == proposal.payloadHash &&
          a.idempotencyKey == input.idempotencyKey && a.acquisitionAuditId == acquisitionAuditId)
      (authorizationDenied "Exact durable action acquisition is no longer active")
  else .ok ()

/-- The checks of `validateAcquiredProposalExecution` on a replay. -/
def checkAcquired (input : AcquireInput) (c : Context) (authorization : AuthorizationResult)
    (acquisition : AcquisitionRow) (record : IdempotencyRow) (acquisitionAuditId : String) :
    Guarded Unit := do
  checkDurableAcquisition input c.proposal acquisitionAuditId
  reject (record.completed || record.status != .inProgress ||
      (c.proposal.operation != .consequentialAction &&
        !(record.leaseExpiresAt.bind timestampMillis).any fun lease =>
          (timestampMillis input.now).any (· < lease)) ||
      record.executedAt != acquisition.acquiredAt)
    (authorizationDenied "Acquired execution lease is no longer active")
  reject (!input.answers.proposalReviewProvenanceMatches c.proposal.operation ||
      !input.answers.ruleOverrideSnapshotMatches c.proposal.payload)
    (authorizationDenied "Acquired proposal provenance changed")
  let audit ← orStop ((s.selectAuditById acquisitionAuditId).filter
      (acquisitionAuditMatches input c.proposal acquisition.acquiredAt))
    (authorizationDenied "Exact acquired execution audit does not match")
  let acquired ← orStop (audit.result.filter fun r => r.proposalId == input.proposalId &&
      r.approvalIds.all (!isBlank ·) && decide r.approvalIds.Nodup)
    (authorizationDenied "Acquired approval audit is invalid")
  let approvals ← acquired.approvalIds.mapM (s.acquiredApproval acquisition.acquiredAt)
  let eligible ← s.eligibleAmong host c input.now approvals
  let required := (s.requiredApprovals c authorization).getD
    (requiredProposalApprovers authorization)
  reject (eligible.length != approvals.length || decide (eligible.length < required))
    ⟨"approval_required", "Acquired human approval authority changed"⟩
  s.executionAuthorized host input c
  s.assertOwnerAvailable c.proposal.budgetId c.proposal.id

/-- The checks of `validateAcquiredProposalExecution`, when it is the caller. -/
def checkToken (input : AcquireInput) (c : Context) (authorization : AuthorizationResult)
    (acquisition : AcquisitionRow) (record : IdempotencyRow) :
    Option String → Guarded Unit
  | some acquisitionAuditId =>
    s.checkAcquired host input c authorization acquisition record acquisitionAuditId
  | none => .ok ()

/-- An execution that was already acquired: the same actor and key get the record back. -/
def replayAcquisition (input : AcquireInput) (c : Context) (authorization : AuthorizationResult)
    (acquisition : AcquisitionRow) (acquisitionAuditId : Option String) : Guarded Unit := do
  reject (acquisition.actorId != input.actorId)
    (authorizationDenied "Execution replay is unavailable")
  reject (acquisition.idempotencyKey != input.idempotencyKey)
    (idempotencyInProgress "Proposal execution was already acquired")
  let record ← orStop ((s.acquiredRecord input).filter fun i =>
      i.proposalId == input.proposalId && i.operation == c.proposal.operation.text &&
        i.serialisedEffect == input.serialisedEffect)
    (idempotencyReplayMismatch "Execution replay does not match its claim")
  s.checkToken host input c authorization acquisition record acquisitionAuditId

/-! ### A new acquisition -/

/-- Nobody claimed the proposal or its key, and nobody else owns the budget's writes. -/
def checkUnclaimed (input : AcquireInput) (c : Context) : Guarded Unit := do
  reject (!input.answers.proposalReviewProvenanceMatches c.proposal.operation)
    (authorizationDenied "Proposal review provenance is no longer current")
  reject (!input.answers.ruleOverrideSnapshotMatches c.proposal.payload)
    (authorizationDenied "Current rule override state differs from the proposal")
  reject (s.selectIdempotency input.idempotencyKey).isSome
    (idempotencyReplayMismatch "Idempotency key is already in use")
  reject (s.selectIdempotencyByProposalOp input.proposalId c.proposal.operation.text).isSome
    (idempotencyInProgress "Proposal execution was already claimed")
  s.assertOwnerAvailable c.proposal.budgetId c.proposal.id

/-- The eligible approvals with the hinted one first. -/
def preferApproval (input : AcquireInput) (eligible : List ApprovalRow) :
    Guarded (List ApprovalRow) :=
  match truthy input.approvalId with
  | none => .ok eligible
  | some id =>
    match eligible.find? (·.id == id) with
    | some selected => .ok (selected :: eligible.filter (·.id != selected.id))
    | none => .error
      ⟨if (s.selectApproval id).any (·.status == .consumed) then "approval_consumed"
        else "approval_required", "Selected approval is not currently eligible"⟩

/-- The approvals a new acquisition consumes. -/
def selectApprovals (input : AcquireInput) (c : Context) (authorization : AuthorizationResult) :
    Guarded (List ApprovalRow) := do
  let eligible ← s.eligibleHumanApprovals host c input.now
  let required ← orStop (s.requiredApprovals c authorization)
    (policyVersionMismatch "Current financial approval policy differs from source")
  let preferred ← s.preferApproval input eligible
  reject (decide ((preferred.take required).length < required))
    ⟨"approval_required", "Additional human approval is required"⟩
  .ok (preferred.take required)

/-- `consumeApprovalStmt`. -/
def consumeApproval (now : String) (s : WorkflowStore) (approval : ApprovalRow) :
    Guarded WorkflowStore := do
  reject (!s.approvals.any fun a => a.id == approval.id && a.status == .active &&
      a.consumedAt.isNone && decide (now < a.expiresAt))
    ⟨"approval_consumed", "Approval changed during execution acquisition"⟩
  .ok { s with approvals := s.approvals.map fun a =>
    if a.id = approval.id then { a with status := .consumed, consumedAt := some now } else a }

/-- The claim of a new acquisition. -/
def claimRow (input : AcquireInput) (proposal : ProposalRow) : IdempotencyRow where
  idempotencyKey := input.idempotencyKey
  proposalId := input.proposalId
  operation := proposal.operation.text
  executedAt := input.now
  completed := false
  status := .inProgress
  leaseExpiresAt := some (if proposal.operation = .consequentialAction then proposal.expiresAt
    else toISOString ((timestampMillis input.now).getD 0 + 60000))
  serialisedEffect := input.serialisedEffect

def acquisitionRow (input : AcquireInput) : AcquisitionRow where
  proposalId := input.proposalId
  idempotencyKey := input.idempotencyKey
  actorId := input.actorId
  acquiredAt := input.now

/-- `insertIdempotency` and `insertProposalExecutionAcquisition`. -/
def insertClaim (input : AcquireInput) (proposal : ProposalRow) : Guarded WorkflowStore := do
  reject (s.idempotency.any (·.idempotencyKey == input.idempotencyKey))
    (idempotencyReplayMismatch "Idempotency key is already in use")
  reject (s.acquisitions.any fun a => a.proposalId == input.proposalId ||
      a.idempotencyKey == input.idempotencyKey)
    (idempotencyInProgress "Proposal execution was already acquired")
  .ok { s with idempotency := s.idempotency ++ [claimRow input proposal]
               acquisitions := s.acquisitions ++ [acquisitionRow input] }

/-- The audit record of a new acquisition. -/
def startedAudit (input : AcquireInput) (proposal : ProposalRow) (approvals : List ApprovalRow) :
    AuditRow where
  id := input.auditId
  classification := "execution_started"
  timestamp := input.now
  actorId := input.actorId
  operation := some proposal.operation.text
  proposalId := some input.proposalId
  payloadHash := some proposal.payloadHash
  budgetId := some proposal.budgetId
  policyVersion := some proposal.policyVersion
  idempotencyKey := some input.idempotencyKey
  observedResultState := none
  result := some ⟨input.proposalId, approvals.map (·.id)⟩
  isError := false

/-- The durable acquisition of an action. -/
def actionAcquisition (input : AcquireInput) (proposal : ProposalRow) : ActionAcquisition where
  actorId := input.actorId
  payloadHash := proposal.payloadHash
  idempotencyKey := input.idempotencyKey
  acquisitionAuditId := input.auditId
  acquiredAt := input.now

/-- An action that is acquired now. -/
def beginAction (input : AcquireInput) (proposal : ProposalRow) : Guarded WorkflowStore :=
  if proposal.operation = .consequentialAction then do
    let current ← orStop (s.selectProposal proposal.id)
      { message := "Cannot read properties of undefined" }
    let state ← actionStateOf current
    reject (!(state.phase == .proposed || state.phase == .approved) || state.acquisition.isSome)
      (idempotencyInProgress "Consequential action already has a write intent")
    s.updateActionState current
      { state with phase := .writeIntent, acquisition := some (actionAcquisition input proposal) }
  else .ok s

/-- A new acquisition. -/
def acquireNew (input : AcquireInput) (c : Context) (authorization : AuthorizationResult) :
    Guarded (Acquired × WorkflowStore) := do
  s.checkUnclaimed input c
  let selected ← s.selectApprovals host input c authorization
  s.executionAuthorized host input c
  let claimed ← s.insertClaim input c.proposal
  let consumed ← selected.foldlM (consumeApproval input.now) claimed
  let audited ← consumed.insertAudit (startedAudit input c.proposal selected)
  let begun ← audited.beginAction input c.proposal
  .ok (⟨true, selected.map fun a => { a with status := .consumed, consumedAt := some input.now },
    some (startedAudit input c.proposal selected)⟩, begun)

/-- `acquireProposalExecutionSync`. -/
def acquireExecution (input : AcquireInput) (acquisitionAuditId : Option String) :
    Guarded (Acquired × WorkflowStore) := do
  let (c, authorization) ← s.admitExecution host input acquisitionAuditId
  match s.selectProposalExecutionAcquisition input.proposalId, acquisitionAuditId with
  | some acquisition, _ => do
    s.replayAcquisition host input c authorization acquisition acquisitionAuditId
    .ok ({ isOwner := false }, s)
  | none, some _ => .error (authorizationDenied "Execution authority was not acquired")
  | none, none => s.acquireNew host input c authorization

end WorkflowStore

end BalanceFrame.Workflow
