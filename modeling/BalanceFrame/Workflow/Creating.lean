import BalanceFrame.Workflow.Approvals

/-!
# Creating and withdrawing proposals

Model of `createProposal`, `assertConsequentialActionAdmissionAvailable`, `supersedeProposal` and
`discardProposal` (`packages/workflow-store/src/store.ts`). An operation runs in one transaction:
it returns its value with the store it leaves, or stops and leaves the store as it was. The texts
of `randomUUID` and `nowISO` are part of the input.
-/

namespace BalanceFrame.Workflow

open Library
open Governance
open Liquidity (Json)

/-! ## Writing rows -/

namespace WorkflowStore

variable (s : WorkflowStore)

def insertAudit (row : AuditRow) : Guarded WorkflowStore := do
  reject (s.audits.any (·.id == row.id)) { message := "UNIQUE constraint failed" }
  .ok { s with audits := s.audits ++ [row] }

/-- An update of the row of one proposal. -/
def setProposal (id : String) (f : ProposalRow → ProposalRow) : WorkflowStore :=
  { s with proposals := s.proposals.map fun p => if p.id = id then f p else p }

/-- `supersedeProposalStmt` with `supersedeProposalApprovals`. -/
def supersede (id now : String) : WorkflowStore :=
  { s.setProposal id (fun p => { p with supersededAt := some now }) with
    approvals := s.approvals.map fun a =>
      if a.proposalId = id ∧ a.status = .active then
        { a with status := .superseded, supersededAt := some now } else a }

/-- `updateConsequentialActionState`. -/
def updateActionState (proposal : ProposalRow) (state : ActionState) : Guarded WorkflowStore := do
  reject (!s.proposals.any fun p => p.id == proposal.id && p.payloadHash == proposal.payloadHash &&
      p.version == proposal.version)
    (idempotencyInProgress "Consequential-action state changed concurrently")
  .ok (s.setProposal proposal.id fun p =>
    { p with state := .action state, version := p.version + 1 })

/-- The rows that keep `insertProposal` from adding one: the id, or the unique index on unsuperseded
payloads. -/
def proposalClashes (row p : ProposalRow) : Bool :=
  p.id == row.id ||
    (p.supersededAt.isNone && row.supersededAt.isNone && p.budgetId == row.budgetId &&
      p.operation == row.operation && p.payload.transactionId.getD "" ==
        row.payload.transactionId.getD "" && p.payloadHash == row.payloadHash)

end WorkflowStore

/-! ## Admission -/

/-- The phases in which an action owns its execution. -/
def ActionPhase.acquired : ActionPhase → Bool
  | .writeIntent | .reviewRequired => true
  | _ => false

/-- A stored action holds its identities at a time. -/
def holdsAt (row : ProposalRow) (phase : ActionPhase) (nowMillis : Int) : Bool :=
  phase != .invalidatedNoDispatch &&
    (phase.acquired || phase == .verified ||
      ((truthy row.supersededAt).isNone && (timestampMillis row.expiresAt).any (nowMillis < ·)))

/-- The keys a stored action holds at a time. -/
def heldKeys (budgetId : String) (nowMillis : Int) (row : ProposalRow) : Guarded (List String) := do
  let state ← actionStateOf row
  if holdsAt row state.phase nowMillis then do
    let plan ← orStop row.payload.plan?
      (authorizationDenied "Existing action hold cannot be safely reconciled")
    let keys ← governed (holdKeys plan budgetId)
    .ok (keys.filter fun key => state.phase != .verified || permanentIdentity key)
  else .ok []

/-- The check of a requested set of keys against one row. -/
def checkHold (requested : List String) (budgetId : String) (nowMillis : Int) (row : ProposalRow) :
    Guarded Unit := do
  let held ← heldKeys budgetId nowMillis row
  reject (held.any requested.contains)
    (idempotencyInProgress "Consequential-action economic identity is already held")

namespace WorkflowStore

variable (s : WorkflowStore) (host : Host)

/-- The actions of a budget. -/
def budgetActions (budgetId : String) : List ProposalRow :=
  s.proposals.filter fun p => p.budgetId == budgetId && p.operation == .consequentialAction

/-- `assertConsequentialActionAdmissionAvailable`. -/
def assertAdmissionAvailable (budgetId : String) (plan : Plan) (now : String) : Guarded Unit := do
  let nowMillis ← orStop (timestampMillis now) (authorizationDenied "Invalid action admission time")
  let requested ← governed (holdKeys plan budgetId)
  (s.budgetActions budgetId).forM (checkHold requested budgetId nowMillis)

end WorkflowStore

/-! ## Creating -/

structure CreateProposalInput where
  operation : ProposalOperation
  budgetId : String
  spaceId : String
  payload : Payload
  policyVersion : String
  preconditions : Preconditions
  expiresAt : String
  actorId : String
  auth : OperationalAuth
  id : String
  now : String
  answers : Answers

/-- The state a proposal starts in. -/
def initialState : ProposalOperation → ProposalState
  | .consequentialAction => .action { phase := .proposed }
  | _ => .other

namespace WorkflowStore

variable (s : WorkflowStore) (host : Host)

/-- The checks on the request alone. -/
def checkCreateRequest (input : CreateProposalInput) : Guarded Unit := do
  reject (input.operation != input.payload.kind || !input.operation.isGeneric)
    { message := "Unsupported proposal operation" }
  reject (input.policyVersion != genericMutationPolicyVersion)
    (policyVersionMismatch "Unsupported generic mutation policy version")
  let expiresAt ← orStop (timestampMillis input.expiresAt)
    { message := s!"Invalid expiresAt: '{input.expiresAt}' is not ISO-8601" }
  reject (decide (expiresAt ≤ (timestampMillis input.now).getD 0))
    { message := s!"expiresAt '{input.expiresAt}' is in the past" }
  let matches_ ← s.operationalAuthMatches input.auth input.actorId input.now
  reject (input.actorId != input.auth.actorId || !matches_)
    (authorizationDenied "Proposal actor does not match trusted credentials")

/-- The active space bound to the budget, with its current policy. -/
def createPolicy (input : CreateProposalInput) : Guarded PolicyRow := do
  let refusal := authorizationDenied "Proposal budget is not bound to an active space"
  let space ← orStop (s.governance.space input.spaceId) refusal
  reject (space.budgetId != some input.budgetId) refusal
  orStop (s.governance.getPolicy input.spaceId) refusal

/-- The checks on an action's plan and on a rule. -/
def checkCreatePayload (input : CreateProposalInput) (policy : PolicyRow) : Guarded Unit :=
  let malformed := policyVersionMismatch "Consequential-action source is stale or malformed"
  match input.payload with
  | .action plan =>
    reject (plan.expiresAt != input.expiresAt || (s.currentActionApprovalPolicy input.budgetId
        input.payload input.preconditions (some policy)).isNone) malformed
  | .other .consequentialAction .. => .error malformed
  | .other .createRule .. => host.ruleMatches input.payload input.preconditions
  | .other .. => .ok ()

/-- The row a request describes. -/
def draft (input : CreateProposalInput) (policy : PolicyRow) : ProposalRow where
  id := input.id
  operation := input.operation
  budgetId := input.budgetId
  spaceId := some input.spaceId
  requesterMembershipId := none
  requesterDelegationId := (agentCredential input.auth).map (·.2.1)
  requesterDelegationVersion := (agentCredential input.auth).map (·.2.2)
  governancePolicyVersion := some (toString policy.version)
  payload := input.payload
  payloadHash := host.canonicalProposalHash
    { operation := input.operation, budgetId := input.budgetId, payload := input.payload
      preconditions := input.preconditions, actorId := input.actorId
      policyVersion := genericMutationPolicyVersion, expiresAt := input.expiresAt }
  policyVersion := genericMutationPolicyVersion
  preconditions := input.preconditions
  expiresAt := input.expiresAt
  actorId := input.actorId
  supersededAt := none
  createdAt := input.now
  version := 1
  state := initialState input.operation

/-- Everything `createProposal` checks before it looks for the same payload. -/
def admitProposal (input : CreateProposalInput) : Guarded ProposalRow := do
  s.checkCreateRequest input
  let policy ← s.createPolicy input
  s.checkCreatePayload host input policy
  let facts ← orStop
    (host.deriveProposalAuthorizationFacts input.operation input.payload input.preconditions)
    { message := "Malformed generic proposal envelope" }
  reject (!input.answers.ruleOverrideSnapshotMatches input.payload)
    (authorizationDenied "Current rule override state differs from the proposal")
  let row := draft host input policy
  let authorization := s.authorizeGenericProposal host
    (Context.authorization ⟨row, input.spaceId, policy, facts⟩ input.actorId (some input.auth)
      .propose .propose input.now)
  reject (!authorization.allowed) (authorizationDenied authorization.reason)
  reject (!input.answers.proposalReviewProvenanceMatches input.operation)
    (authorizationDenied "Review provenance does not match a current review item")
  .ok { row with requesterMembershipId := authorization.membershipId }

/-- `insertProposal`: an ignored row leaves the one with the same key. -/
def insertProposal (row : ProposalRow) : Guarded (ProposalRow × WorkflowStore) :=
  if s.proposals.any (proposalClashes row) then do
    let existing ← orStop (s.selectProposalByExactKey row.budgetId row.payload.transactionId
      row.operation row.payloadHash) (authorizationDenied "Failed to create or retrieve proposal")
    .ok (existing, s)
  else .ok (row, { s with proposals := s.proposals ++ [row] })

/-- The part of `createProposal` that looks for the same payload, admits an action and inserts. -/
def storeProposal (row : ProposalRow) (now : String) : Guarded (ProposalRow × WorkflowStore) :=
  match row.payload with
  | .other .. => s.insertProposal row
  | .action plan =>
    match s.selectProposalByExactKey row.budgetId none row.operation row.payloadHash with
    | some existing => .ok (existing, s)
    | none => do
      s.assertAdmissionAvailable row.budgetId plan now
      s.insertProposal row

def createProposal (input : CreateProposalInput) : Guarded (ProposalRow × WorkflowStore) := do
  let row ← s.admitProposal host input
  s.storeProposal row input.now

/-! ## Withdrawing -/

/-- An acquired action cannot be superseded. -/
def checkSupersedable (existing : ProposalRow) : Guarded Unit := do
  reject (!existing.operation.isGeneric) { message := "Specialized workflow transition required" }
  if existing.operation = .consequentialAction then do
    let state ← actionStateOf existing
    reject state.phase.acquired
      (idempotencyInProgress "Acquired consequential action cannot be superseded")
  else .ok ()

def supersedeProposal (id now : String) : Guarded WorkflowStore := do
  let existing ← orStop (s.selectProposal id) { message := s!"Proposal {id} not found" }
  checkSupersedable existing
  .ok (if (truthy existing.supersededAt).isSome then s else s.supersede id now)

/-- `DiscardProposalAuthorization`, with the proposal, its actor and the id of the audit record. -/
structure DiscardInput where
  id : String
  actorId : String
  spaceId : String
  governancePolicyVersion : String
  now : String
  auth : OperationalAuth
  auditId : String

/-- What `discardProposal` needs of the stored proposal, or `none` where it returns `null`. -/
def discardContext (input : DiscardInput) : Option Context := do
  let proposal ← s.selectProposal input.id
  let policy ← s.governance.getPolicy input.spaceId
  let facts ← host.deriveProposalAuthorizationFacts proposal.operation proposal.payload
    proposal.preconditions
  let c : Context := ⟨proposal, input.spaceId, policy, facts⟩
  if proposal.operation.isGeneric && proposal.spaceId == some input.spaceId &&
      host.proposalHashMatches proposal &&
      (s.selectProposalExecutionAcquisition input.id).isNone &&
      toString policy.version == input.governancePolicyVersion &&
      (s.authorizeGenericProposal host (c.authorization input.actorId (some input.auth) .execute
        .execute input.now)).allowed then some c
  else none

/-- The audit record of a discarded proposal. -/
def discardAudit (input : DiscardInput) (c : Context) : AuditRow where
  id := input.auditId
  classification := "proposal_superseded"
  timestamp := input.now
  actorId := input.actorId
  operation := some c.proposal.operation.text
  proposalId := some c.proposal.id
  payloadHash := some c.proposal.payloadHash
  budgetId := some c.proposal.budgetId
  policyVersion := some (toString c.policy.version)
  idempotencyKey := none
  observedResultState := none
  result := none
  isError := false

/-- `discardProposal`: `false` where the source returns `null`. -/
def discardProposal (input : DiscardInput) : Guarded (Bool × WorkflowStore) :=
  match input.auth.credential with
  | .humanSession .. =>
    if freshHumanControl input.auth input.actorId input.now then do
      let matches_ ← s.operationalAuthMatches input.auth input.actorId input.now
      match (if matches_ then s.discardContext host input else none) with
      | none => .ok (false, s)
      | some c =>
        if (truthy c.proposal.supersededAt).isSome then .ok (true, s)
        else do
          let s' ← (s.supersede c.proposal.id input.now).insertAudit (discardAudit input c)
          .ok (true, s')
    else .ok (false, s)
  | _ => .ok (false, s)

end WorkflowStore

end BalanceFrame.Workflow
