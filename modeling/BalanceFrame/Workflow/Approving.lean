import BalanceFrame.Workflow.Creating

/-!
# Approving proposals

Model of `createApprovalSync` with `createApproval` and `createApprovals`, of the part of
`getProposalApprovalReadFrame` that recomputes the phase of an action, and of `markExpiredApprovals`
(`packages/workflow-store/src/store.ts`). Whether a reader may see a proposal at all is an answer
that comes with the call.
-/

namespace BalanceFrame.Workflow

open Library
open Governance

/-- `CreateApprovalInput`; `id` and `auditId` are the texts of `randomUUID`. -/
structure CreateApprovalInput where
  proposalId : String
  payloadHash : String
  actorId : String
  expiresAt : String
  auth : OperationalAuth
  now : String
  id : String
  auditId : String
  answers : Answers

/-- The session and its last reauthentication. -/
def reauthentication (auth : OperationalAuth) : Option (String × String) :=
  match auth.credential with
  | .humanSession sessionId reauthenticatedAt => some (sessionId, reauthenticatedAt)
  | _ => none

namespace WorkflowStore

variable (s : WorkflowStore) (host : Host)

/-- The times of an approval. -/
def checkApprovalTimes (proposal : ProposalRow) (input : CreateApprovalInput) : Guarded Unit := do
  let invalid : Refusal := ⟨"proposal_expired", "Proposal or approval time is invalid"⟩
  let nowMillis ← orStop (timestampMillis input.now) invalid
  let proposalExpiry ← orStop (timestampMillis proposal.expiresAt) invalid
  let approvalExpiry ← orStop (timestampMillis input.expiresAt) invalid
  reject (truthy proposal.supersededAt).isSome ⟨"proposal_superseded", "Proposal is superseded"⟩
  reject (decide (proposalExpiry ≤ nowMillis) || decide (approvalExpiry ≤ nowMillis) ||
      decide (proposalExpiry < approvalExpiry))
    ⟨"proposal_expired", "Proposal or approval expiry is invalid"⟩

/-- The envelope and the credentials of an approval. -/
def checkApprover (proposal : ProposalRow) (input : CreateApprovalInput) : Guarded Unit := do
  reject (proposal.policyVersion != genericMutationPolicyVersion ||
      !host.proposalHashMatches proposal || input.payloadHash != proposal.payloadHash)
    (payloadHashMismatch "Displayed proposal hash does not match")
  let refusal := authorizationDenied "Fresh human approval session required"
  reject (!freshHumanControl input.auth input.actorId input.now) refusal
  let matches_ ← s.operationalAuthMatches input.auth input.actorId input.now
  reject (!matches_) refusal
  let requester ← s.requesterMembershipCurrent proposal input.now
  reject (!requester)
    (authorizationDenied "Proposal requester membership is no longer current")

/-- The space and the policy a stored proposal is bound to. -/
def boundPolicy (proposal : ProposalRow) : Guarded (String × PolicyRow) := do
  let provenance := authorizationDenied "Proposal lacks trusted governance provenance"
  let spaceId ← orStop (truthy proposal.spaceId) provenance
  let _ ← orStop (truthy proposal.requesterMembershipId) provenance
  let version ← orStop (truthy proposal.governancePolicyVersion) provenance
  let refusal := policyVersionMismatch "Current governance policy differs from proposal"
  let space ← orStop (s.governance.space spaceId) refusal
  reject (space.budgetId != some proposal.budgetId) refusal
  let policy ← orStop (s.governance.getPolicy spaceId) refusal
  reject (toString policy.version != version) refusal
  .ok (spaceId, policy)

/-- Everything `createApprovalSync` checks before it inserts. -/
def admitApproval (input : CreateApprovalInput) :
    Guarded (Context × AuthorizationResult × String) := do
  let notFound := authorizationDenied "Generic proposal not found"
  let proposal ← orStop (s.selectProposal input.proposalId) notFound
  reject (!proposal.operation.isGeneric) notFound
  checkApprovalTimes proposal input
  s.checkApprover host proposal input
  let (spaceId, policy) ← s.boundPolicy proposal
  let facts ← orStop (host.deriveProposalAuthorizationFacts proposal.operation proposal.payload
      proposal.preconditions) (payloadHashMismatch "Stored proposal envelope is invalid")
  let c : Context := ⟨proposal, spaceId, policy, facts⟩
  reject (!s.proposalOriginAuthorityCurrent host c input.now)
    (authorizationDenied "Proposal origin authority is no longer current")
  reject (!input.answers.ruleOverrideSnapshotMatches proposal.payload)
    (authorizationDenied "Current rule override state differs from the proposal")
  let authorization := s.authorizeGenericProposal host
    (c.authorization input.actorId (some input.auth) .approve .approve input.now)
  reject (!authorization.allowed) (authorizationDenied authorization.reason)
  let membershipId ← orStop (truthy authorization.membershipId)
    (authorizationDenied authorization.reason)
  .ok (c, authorization, membershipId)

/-- The row of a new approval. -/
def approvalRow (input : CreateApprovalInput) (c : Context) (membershipId : String) :
    ApprovalRow where
  id := input.id
  proposalId := input.proposalId
  payloadHash := input.payloadHash
  actorId := input.actorId
  status := .active
  issuerMembershipId := some membershipId
  governancePolicyVersion := some (toString c.policy.version)
  reauthenticatedSessionId := (reauthentication input.auth).map (·.1)
  reauthenticatedAt := (reauthentication input.auth).map (·.2)
  expiresAt := input.expiresAt
  consumedAt := none
  supersededAt := none
  createdAt := input.now

/-- The rows that keep `insertApproval` from adding one. -/
def approvalClashes (row a : ApprovalRow) : Bool :=
  a.id == row.id ||
    (a.status == .active && row.status == .active && a.proposalId == row.proposalId &&
      a.actorId == row.actorId)

/-- The phase an unacquired action has with so many eligible approvals. -/
def approvalPhase (eligible required : Nat) : ActionPhase :=
  if required ≤ eligible then .approved else .proposed

/-- The recomputation of an action's phase from its eligible approvals. -/
def recomputePhase (proposal : ProposalRow) (eligible required : Nat) : Guarded WorkflowStore := do
  let state ← actionStateOf proposal
  if (state.phase = .proposed ∨ state.phase = .approved) ∧
      state.phase ≠ approvalPhase eligible required then
    s.updateActionState proposal { state with phase := approvalPhase eligible required }
  else .ok s

/-- The phase of an action after an approval was added. -/
def approveAction (c : Context) (authorization : AuthorizationResult) (now : String) :
    Guarded WorkflowStore :=
  if c.proposal.operation = .consequentialAction then do
    let current ← orStop (s.selectProposal c.proposal.id)
      { message := "Cannot read properties of undefined" }
    let financial ← orStop (s.actionRequiredApprovers c.proposal.budgetId c.proposal.payload
        c.proposal.preconditions (some c.policy) c.facts)
      (policyVersionMismatch "Current financial approval policy differs from source")
    let eligible ← s.eligibleHumanApprovals host c now
    s.recomputePhase current eligible.length
      (max (requiredProposalApprovers authorization) financial)
  else .ok s

/-- The audit record of an approval. -/
def approvalAudit (input : CreateApprovalInput) (c : Context) : AuditRow where
  id := input.auditId
  classification := "approval_granted"
  timestamp := input.now
  actorId := input.actorId
  operation := some c.proposal.operation.text
  proposalId := some c.proposal.id
  payloadHash := some c.proposal.payloadHash
  budgetId := some c.proposal.budgetId
  policyVersion := some c.proposal.policyVersion
  idempotencyKey := none
  observedResultState := none
  result := none
  isError := false

def selectApprovalByProposalActor (proposalId actorId : String) : Option ApprovalRow :=
  let rows := s.approvals.filter fun a => a.proposalId == proposalId && a.actorId == actorId
  (rows.find? (·.status == .active)) <|> ((sortOn (·.createdAt) rows).reverse.head?)

/-- An approval that is already there is returned as it is. -/
def existingApproval (input : CreateApprovalInput) (c : Context) (membershipId : String) :
    Guarded WorkflowStore :=
  if (s.selectApprovalByProposalActor input.proposalId input.actorId).any fun a =>
      a.status == .active &&
        (timestampMillis a.expiresAt).any (fun expiry =>
          (timestampMillis input.now).any (· < expiry)) &&
        a.payloadHash == c.proposal.payloadHash && a.issuerMembershipId == some membershipId &&
        a.governancePolicyVersion == some (toString c.policy.version) &&
        a.reauthenticatedSessionId.isSome && a.reauthenticatedAt.isSome then .ok s
  else .error ⟨"approval_consumed", "Approval cannot be reissued"⟩

/-- `createApprovalSync`. -/
def createApproval (input : CreateApprovalInput) : Guarded WorkflowStore := do
  let (c, authorization, membershipId) ← s.admitApproval host input
  let row := approvalRow input c membershipId
  if s.approvals.any (approvalClashes row) then s.existingApproval input c membershipId
  else do
    let added : WorkflowStore := { s with approvals := s.approvals ++ [row] }
    let approved ← added.approveAction host c authorization input.now
    approved.insertAudit (approvalAudit input c)

/-- `CreateApprovalsInput`; every item has its own ids. -/
structure CreateApprovalsInput where
  spaceId : String
  /-- Proposal, payload hash, id of the approval and of its audit record. -/
  items : List (String × String × String × String)
  auth : OperationalAuth
  now : String
  answers : Answers

/-- One item of `createApprovals`. -/
def createApprovalItem (input : CreateApprovalsInput) (s : WorkflowStore)
    (item : String × String × String × String) : Guarded WorkflowStore := do
  let refusal := authorizationDenied "Proposal unavailable in selected space"
  let proposal ← orStop (s.selectProposal item.1) refusal
  reject (proposal.spaceId != some input.spaceId) refusal
  s.createApproval host
    { proposalId := item.1, payloadHash := item.2.1, actorId := input.auth.actorId
      expiresAt := proposal.expiresAt, auth := input.auth, now := input.now, id := item.2.2.1
      auditId := item.2.2.2, answers := input.answers }

def createApprovals (input : CreateApprovalsInput) : Guarded WorkflowStore := do
  reject (isBlank input.spaceId || input.items.isEmpty)
    (authorizationDenied "Bulk approval request is invalid")
  reject (input.items.any fun item => isBlank item.1)
    (authorizationDenied "Bulk approval item is invalid")
  reject (!decide (input.items.map (·.1)).Nodup)
    (authorizationDenied "Duplicate proposal in bulk approvals")
  input.items.foldlM (createApprovalItem host input) s

/-! ## Reading -/

/-- `GetProposalApprovalSummaryInput`, with whether the reader's current authority covers the
proposal and with what `ruleOverrideSnapshotMatches` answers. -/
structure ReadInput where
  proposalId : String
  spaceId : String
  actorId : String
  auth : OperationalAuth
  now : String
  auditId : String
  readable : Bool
  answers : Answers

/-- The delegation of an agent that reads its own proposal is the one the proposal came from. -/
def originDelegationMatches (proposal : ProposalRow) (auth : OperationalAuth) : Bool :=
  (agentCredential auth).all fun agent =>
    (proposal.requesterDelegationId.isNone && proposal.requesterDelegationVersion.isNone) ||
      (proposal.requesterDelegationId == some agent.2.1 &&
        proposal.requesterDelegationVersion == some agent.2.2)

/-- A reader is an agent or a current member. -/
def readerCurrent (input : ReadInput) : Guarded Bool :=
  if (agentCredential input.auth).isSome then .ok true
  else do
    let membership ← s.getCurrentMembership input.spaceId input.actorId input.now
    .ok membership.isSome

/-- The credentials, the space and the envelope of a read. -/
def readContext (input : ReadInput) : Guarded Context := do
  reject (timestampMillis input.now).isNone
    (authorizationDenied "Current governance context unavailable")
  let unavailable := authorizationDenied "Proposal is unavailable in selected space"
  let proposal ← orStop (s.selectProposal input.proposalId) unavailable
  reject (!proposal.operation.isGeneric || truthy proposal.spaceId != some input.spaceId ||
      (truthy proposal.requesterMembershipId).isNone ||
      (truthy proposal.governancePolicyVersion).isNone) unavailable
  let matches_ ← s.operationalAuthMatches input.auth input.actorId input.now
  reject (input.actorId != input.auth.actorId || !matches_)
    (authorizationDenied "Summary reader credentials are unavailable")
  reject (input.actorId == proposal.actorId && !originDelegationMatches proposal input.auth)
    (authorizationDenied "Agent proposal origin delegation differs")
  let membership := authorizationDenied "Current selected-space membership unavailable"
  let space ← orStop (s.governance.space input.spaceId) membership
  reject (space.budgetId != some proposal.budgetId) membership
  let policy ← orStop (s.governance.getPolicy input.spaceId) membership
  let reader ← s.readerCurrent input
  reject (!reader) membership
  let requester ← s.requesterMembershipCurrent proposal input.now
  reject (!requester) membership
  reject (proposal.policyVersion != genericMutationPolicyVersion)
    (policyVersionMismatch "Generic mutation policy version changed")
  let invalid := payloadHashMismatch "Stored proposal authorization facts are invalid"
  reject (!host.proposalHashMatches proposal) invalid
  let facts ← orStop (host.deriveProposalAuthorizationFacts proposal.operation proposal.payload
    proposal.preconditions) invalid
  let c : Context := ⟨proposal, input.spaceId, policy, facts⟩
  reject (!s.proposalOriginAuthorityCurrent host c input.now)
    (authorizationDenied "Proposal origin authority is no longer current")
  reject (!input.readable)
    (authorizationDenied "Current exact proposal read authority unavailable")
  .ok c

/-- The approvals a read counts. -/
def readEligible (input : ReadInput) (c : Context) : Guarded (List ApprovalRow) :=
  if input.answers.ruleOverrideSnapshotMatches c.proposal.payload then
    s.eligibleHumanApprovals host c input.now
  else .ok []

/-- `approvalRead ?? requesterRead ?? executionRead`: a member is asked for approval, an agent for
its own proposal or for execution. -/
def readAuthorization (input : ReadInput) (c : Context) : GenericAuthorization :=
  if (agentCredential input.auth).isNone then
    c.authorization input.actorId (some input.auth) .read .approve input.now
  else if input.actorId = c.proposal.actorId then
    { c.authorization input.actorId (some input.auth) .read .propose input.now with
      membershipId := c.proposal.requesterMembershipId }
  else c.authorization input.actorId (some input.auth) .read .execute input.now

/-- The recomputation of the phase of an action that is read. -/
def readPhase (input : ReadInput) (c : Context) (eligible : List ApprovalRow) :
    Guarded WorkflowStore :=
  if c.proposal.operation = .consequentialAction then do
    let financial ← orStop (s.actionRequiredApprovers c.proposal.budgetId c.proposal.payload
        c.proposal.preconditions (some c.policy) c.facts)
      (policyVersionMismatch "Current financial approval policy differs from source")
    let read := s.authorizeGenericProposal host (readAuthorization input c)
    s.recomputePhase c.proposal eligible.length (max (requiredProposalApprovers read) financial)
  else .ok s

/-- The audit record of a read. -/
def readAudit (input : ReadInput) (c : Context) : AuditRow where
  id := input.auditId
  classification := "authorization_check"
  timestamp := input.now
  actorId := input.actorId
  operation := some c.proposal.operation.text
  proposalId := some c.proposal.id
  payloadHash := some c.proposal.payloadHash
  budgetId := some c.proposal.budgetId
  policyVersion := some (toString c.policy.version)
  idempotencyKey := none
  observedResultState := none
  result := none
  isError := false

/-- `getProposalApprovalReadFrame`, as far as it writes. -/
def readProposal (input : ReadInput) : Guarded WorkflowStore := do
  let c ← s.readContext host input
  let eligible ← s.readEligible host input c
  let read ← s.readPhase host input c eligible
  read.insertAudit (readAudit input c)

/-- One frame of `getProposalApprovalReads`: an unavailable proposal is left out. -/
def readFrame (s : WorkflowStore) (input : ReadInput) : Guarded WorkflowStore :=
  match s.readProposal host input with
  | .ok read => .ok read
  | .error refusal =>
    if ["authorization_denied", "policy_version_mismatch", "payload_hash_mismatch"].contains
        refusal.reasonCode then .ok s else .error refusal

/-- `getProposalApprovalReads`, as far as it writes. -/
def readProposals (inputs : List ReadInput) : Guarded WorkflowStore :=
  inputs.foldlM (readFrame host) s

def markExpiredApprovals (now : String) : WorkflowStore :=
  { s with approvals := s.approvals.map fun a =>
      if a.status = .active ∧ a.expiresAt ≤ now then { a with status := .expired } else a }

end WorkflowStore

end BalanceFrame.Workflow
