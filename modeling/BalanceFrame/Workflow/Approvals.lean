import BalanceFrame.Workflow.Proposals

/-!
# Who may propose, approve and execute

Model of the checks of `SqliteWorkflowStore` (`packages/workflow-store/src/store.ts`) that read the
governance tables: `operationalAuthMatches`, `freshHumanControl`, `requesterMembershipCurrent`,
`proposalHashMatches`, `currentConsequentialActionApprovalPolicy`,
`consequentialActionRequiredApprovers`, `authorizeGenericProposal`, `proposalOriginAuthorityCurrent`
and `eligibleHumanApprovals`.
-/

namespace BalanceFrame.Workflow

open Library
open Governance
open Liquidity (Json)

/-- A text the source treats as present. -/
def truthy (v : Option String) : Option String := v.filter (· != "")

/-- A safe integer that is at least 1. -/
def isSafeCount (n : Nat) : Bool := decide (1 ≤ n ∧ (n : Int) ≤ maxSafeInteger)

/-! ## The financial approval policy -/

/-- An approval policy in force for an action. -/
structure ActionApprovalPolicy where
  minimumApprovers : Nat
  thresholds : List ApprovalThreshold
  deriving DecidableEq

/-- An element of `approvalPolicy.thresholds`. -/
def parseFinancialThreshold (value : Json) : Option ApprovalThreshold :=
  match value with
  | .object entries => do
    let currency ← (Json.get? entries "currency").bind Json.asStr
    let amount ← ((Json.get? entries "minimumMinorUnits").bind Json.asStr).bind decimal
    let required ← (safeCount (Json.get? entries "minimumApprovers")).toOption
    if isCurrencyText currency && entries.all fun e =>
        ["currency", "minimumMinorUnits", "minimumApprovers"].contains e.1 then
      some { currency, amountMinorUnits := amount, requiredApprovers := required }
    else none
  | _ => none

/-- The approvers a financial approval policy asks for; an empty one leaves them to governance. -/
def parseFinancialPolicy (governancePolicy : GovernancePolicy) (approvalPolicy : Json) :
    Option ActionApprovalPolicy :=
  match approvalPolicy with
  | .object [] => some ⟨governancePolicy.minimumApprovers, governancePolicy.approvalThresholds⟩
  | .object entries => do
    let minimumApprovers ← (safeCount (Json.get? entries "minimumApprovers")).toOption
    let thresholds ← match Json.get? entries "thresholds" with
      | some (.array values) => values.mapM parseFinancialThreshold
      | _ => none
    if entries.all fun e => ["minimumApprovers", "thresholds"].contains e.1 then
      some ⟨minimumApprovers, thresholds⟩
    else none
  | _ => none

namespace WorkflowStore

variable (s : WorkflowStore)

/-- `currentConsequentialActionApprovalPolicy`. -/
def currentActionApprovalPolicy (budgetId : String) (payload : Payload)
    (preconditions : Preconditions) (governancePolicy : Option PolicyRow) :
    Option ActionApprovalPolicy := do
  let governancePolicy ← governancePolicy
  let plan ← payload.plan?
  if preconditionsMatch plan preconditions then do
    let (version, policyHash, approvalPolicy) ← s.currentFinancialPolicy budgetId
    if version == plan.source.financialPolicyVersion && policyHash.isSome &&
        policyHash == preconditions.financialPolicyHash then do
      let policy ← parseFinancialPolicy governancePolicy.policy approvalPolicy
      if policy.thresholds.all fun t =>
          isCurrencyText t.currency && isSafeCount t.requiredApprovers then some policy
      else none
    else none
  else none

end WorkflowStore

/-- The outgoing amounts by currency; `none` when one is negative. -/
def outgoingTotals (operations : List FactOperation) : Option (List (String × Int)) :=
  operations.foldlM (fun totals op =>
    match op.direction, op.amount with
    | some .outgoing, some (currency, amount) =>
      if amount < 0 then none
      else some ((currency, (totals.find? (·.1 == currency)).elim 0 Prod.snd + amount) ::
        totals.filter (·.1 != currency))
    | _, _ => some totals) []

namespace WorkflowStore

variable (s : WorkflowStore)

/-- `consequentialActionRequiredApprovers`. -/
def actionRequiredApprovers (budgetId : String) (payload : Payload)
    (preconditions : Preconditions) (governancePolicy : Option PolicyRow)
    (facts : AuthorizationFacts) : Option Nat := do
  let policy ← s.currentActionApprovalPolicy budgetId payload preconditions governancePolicy
  let outgoing ← outgoingTotals facts.operations
  some (policy.thresholds.foldl (fun required t =>
    if (t.amountMinorUnits : Int) ≤ (outgoing.find? (·.1 == t.currency)).elim 0 Prod.snd then
      max required t.requiredApprovers else required) policy.minimumApprovers)

/-! ## Credentials and memberships -/

def operationalAuthMatches (auth : OperationalAuth) (actorId now : String) : Guarded Bool :=
  if auth.actorId != actorId || !credentialLifetimeValid auth now then .ok false
  else
    match auth.credential with
    | .session sessionId | .humanSession sessionId _ => .ok (!isBlank sessionId)
    | .humanKey credentialId owner => do
      let principal ← governed
        (s.governance.resolveCredentialPrincipal credentialId owner none now)
      .ok (principal.any fun p => p.actorId == auth.actorId && p.credentialId == credentialId &&
        p.credentialOwnerId == owner && p.agent.isNone)
    | .agentKey credentialId owner delegationId delegationVersion => do
      let principal ← governed
        (s.governance.resolveCredentialPrincipal credentialId owner none now)
      .ok (principal.any fun p => p.actorId == auth.actorId && p.credentialId == credentialId &&
        p.credentialOwnerId == owner && p.agent == some (delegationId, delegationVersion))

/-- The row of `listMembershipHistory` with an id. -/
def membershipOf (spaceId membershipId : String) : Option SpaceMembership :=
  s.governance.memberships.find? fun m => m.spaceId == spaceId && m.id == membershipId

def getCurrentMembership (spaceId actorId now : String) : Guarded (Option SpaceMembership) := do
  let _ ← governed (isoTime now)
  governed (s.governance.currentMembership spaceId actorId now)

/-- The delegation of a proposal is in force. -/
def requesterDelegationCurrent (proposal : ProposalRow) (spaceId delegationId version : String)
    (membership : SpaceMembership) (now : String) : Bool :=
  let delegation := s.governance.delegations.find? fun d =>
    d.spaceId == spaceId && d.agentId == proposal.actorId && d.id == delegationId &&
      d.version == version
  let agent := s.governance.getAgent proposal.actorId
  delegation.any fun d =>
    d.revokedAt.isNone && d.issuerActorId == membership.actorId &&
      d.issuerMembershipId == membership.id &&
      agent.any (fun a => a.registeredSpaceId == spaceId && a.status == .active) &&
      (timestampMillis now).any fun nowMillis =>
        (timestampMillis d.validFrom).any (· ≤ nowMillis) &&
          d.validUntil.all fun until_ => (timestampMillis until_).any (nowMillis < ·)

/-- The part of `requesterMembershipCurrent` for a known, current membership. -/
def requesterCurrent (proposal : ProposalRow) (spaceId : String) (membership : SpaceMembership)
    (now : String) : Bool :=
  match truthy proposal.requesterDelegationId, truthy proposal.requesterDelegationVersion with
  | none, none => membership.actorId == proposal.actorId
  | some delegationId, some version =>
    membership.actorId != proposal.actorId &&
      s.requesterDelegationCurrent proposal spaceId delegationId version membership now
  | _, _ => false

def requesterMembershipCurrent (proposal : ProposalRow) (now : String) : Guarded Bool :=
  match truthy proposal.spaceId, truthy proposal.requesterMembershipId with
  | some spaceId, some membershipId =>
    match s.membershipOf spaceId membershipId with
    | none => .ok false
    | some membership => do
      let current ← s.getCurrentMembership spaceId membership.actorId now
      .ok (current.any (·.id == membership.id) &&
        s.requesterCurrent proposal spaceId membership now)
  | _, _ => .ok false

end WorkflowStore

def freshHumanControl (auth : OperationalAuth) (actorId now : String) : Bool :=
  match auth.credential with
  | .humanSession sessionId reauthenticatedAt =>
    auth.actorId == actorId && !isBlank sessionId &&
      (timestampMillis now).any fun current => (timestampMillis reauthenticatedAt).any fun reauth =>
        decide (reauth ≤ current) && decide (current - reauth ≤ 300000)
  | _ => false

/-- The agent credential of a request. -/
def agentCredential (auth : OperationalAuth) : Option (String × String × String) :=
  match auth.credential with
  | .agentKey _ _ delegationId delegationVersion =>
    some (auth.actorId, delegationId, delegationVersion)
  | _ => none

namespace Host

variable (host : Host)

def proposalHashMatches (proposal : ProposalRow) : Bool :=
  host.canonicalProposalHash
    { operation := proposal.operation, budgetId := proposal.budgetId, payload := proposal.payload
      preconditions := proposal.preconditions, actorId := proposal.actorId
      policyVersion := proposal.policyVersion, expiresAt := proposal.expiresAt } ==
    proposal.payloadHash

end Host

/-! ## Authorization -/

/-- The input of `authorizeGenericProposal`. -/
structure GenericAuthorization where
  actorId : String
  auth : Option OperationalAuth := none
  spaceId : String
  policyVersion : String
  phase : Phase
  capability : String
  operation : ProposalOperation
  budgetId : String
  facts : AuthorizationFacts
  payload : Payload
  preconditions : Preconditions
  capabilityPhase : CapabilityPhase
  now : String
  membershipId : Option String := none
  verifiedHumanApproval : Bool := false

def actionAssistanceLevel : AssistanceMaximum → Nat
  | .analysisOnly => 0
  | .recommendActions => 1
  | .createApprovalProposal => 2
  | .executeApprovedActions => 3

def actionAssistanceAllows (maximum : AssistanceMaximum) (phase : Phase) : Bool :=
  phase == .read || decide ((if phase = .execute then 3 else 2) ≤ actionAssistanceLevel maximum)

/-- `denied` of `authorizeGenericProposal`. -/
def deniedGeneric (input : GenericAuthorization) (reason : String) : AuthorizationResult where
  allowed := false
  disposition := .denied reason
  actorId := input.actorId
  spaceId := input.spaceId
  membershipId := none
  policyVersion := some input.policyVersion
  requiredApprovers := 1
  reason := reason

/-- The rights an operation other than an action needs. -/
def genericRequired (input : GenericAuthorization) : List RequiredRef :=
  (⟨.budget, input.budgetId⟩ :: input.facts.resources).map fun r =>
    { r with capability := input.capability }

/-- The request `authorizeGenericProposal` hands to `authorize`. -/
def genericRequest (input : GenericAuthorization) (required : List RequiredRef) :
    AuthorizationInput where
  actorId := input.actorId
  spaceId := input.spaceId
  membershipId := input.membershipId
  expectedPolicyVersion := input.policyVersion
  phase := input.phase
  operation := input.operation.text
  required := required
  payload := input.facts.authorizationPayload
  now := input.now
  agentId := (input.auth.bind agentCredential).map (·.1)
  delegationId := (input.auth.bind agentCredential).map (·.2.1)
  delegationVersion := (input.auth.bind agentCredential).map (·.2.2)
  auth := input.auth
  verifiedHumanApproval := input.verifiedHumanApproval

namespace WorkflowStore

variable (s : WorkflowStore) (host : Host)

/-- The checks of `authorizeGenericProposal` on an action, and the rights it needs. -/
def actionRights (input : GenericAuthorization) : Except String (List RequiredRef) :=
  match input.payload.plan? with
  | none => .error "Consequential-action source facts are invalid"
  | some plan => do
    let required ← orStop
      (host.actionRequirements plan input.preconditions input.budgetId input.capabilityPhase)
      "Consequential-action source facts are invalid"
    let governancePolicy ← orStop (s.governance.getPolicy input.spaceId)
      "Current consequential-action policy differs from source"
    reject (toString governancePolicy.version != input.policyVersion ||
        (s.currentActionApprovalPolicy input.budgetId input.payload input.preconditions
          (some governancePolicy)).isNone)
      "Current consequential-action policy differs from source"
    reject (!actionAssistanceAllows
        (governancePolicy.policy.assistanceMaximum.getD .analysisOnly) input.phase)
      "Current assistance maximum does not permit this action phase"
    .ok required

def authorizeGenericProposal (input : GenericAuthorization) : AuthorizationResult :=
  if input.operation = .consequentialAction then
    match s.actionRights host input with
    | .ok required => authorize s.governance (genericRequest input required)
    | .error reason => deniedGeneric input reason
  else authorize s.governance (genericRequest input (genericRequired input))

end WorkflowStore

def requiredProposalApprovers (result : AuthorizationResult) : Nat := max 1 result.requiredApprovers

/-- The capability an operation needs to be proposed, approved or executed. -/
def capabilityOf (operation : ProposalOperation) (phase : CapabilityPhase) : String :=
  (match operation with
    | .setCategory => "categorization"
    | .consequentialAction => "consequential_action"
    | _ => "rule") ++
  (match phase with
    | .propose => ":propose"
    | .approve => ":approve"
    | .execute => ":execute")

/-- The envelope of a stored proposal with the facts derived from it. -/
structure Context where
  proposal : ProposalRow
  spaceId : String
  policy : PolicyRow
  facts : AuthorizationFacts

/-- The authorization of a stored proposal for a capability. -/
def Context.authorization (c : Context) (actorId : String) (auth : Option OperationalAuth)
    (phase : Phase) (capabilityPhase : CapabilityPhase) (now : String) : GenericAuthorization where
  actorId := actorId
  auth := auth
  spaceId := c.spaceId
  policyVersion := toString c.policy.version
  phase := phase
  capability := capabilityOf c.proposal.operation capabilityPhase
  operation := c.proposal.operation
  budgetId := c.proposal.budgetId
  facts := c.facts
  payload := c.proposal.payload
  preconditions := c.proposal.preconditions
  capabilityPhase := capabilityPhase
  now := now

namespace WorkflowStore

variable (s : WorkflowStore) (host : Host)

def proposalOriginAuthorityCurrent (c : Context) (now : String) : Bool :=
  match truthy c.proposal.spaceId, truthy c.proposal.requesterMembershipId with
  | some spaceId, some membershipId =>
    c.proposal.requesterDelegationId.isSome == c.proposal.requesterDelegationVersion.isSome &&
      (s.membershipOf spaceId membershipId).any fun issuer =>
        (if c.proposal.requesterDelegationId.isSome then issuer.actorId != c.proposal.actorId
          else issuer.actorId == c.proposal.actorId) &&
        (s.authorizeGenericProposal host
          { c.authorization issuer.actorId none
              (if c.proposal.operation = .consequentialAction then .read else .propose) .propose
              now with
            membershipId := some issuer.id }).allowed
  | _, _ => false

/-! ## Eligible approvals -/

/-- The checks of `eligibleHumanApprovals` on the row of an approval. -/
def approvalCurrent (c : Context) (now : String) (approval : ApprovalRow) : Bool :=
  (timestampMillis now).any fun nowMillis =>
    approval.proposalId == c.proposal.id && approval.supersededAt.isNone &&
    (timestampMillis approval.expiresAt).any (nowMillis < ·) &&
    approval.payloadHash == c.proposal.payloadHash &&
    approval.governancePolicyVersion == some (toString c.policy.version) &&
    (truthy approval.issuerMembershipId).isSome &&
    approval.reauthenticatedSessionId.any (!isBlank ·) &&
    (approval.reauthenticatedAt.bind timestampMillis).any fun reauthenticatedAt =>
      (timestampMillis approval.createdAt).any fun approvedAt =>
        decide (reauthenticatedAt ≤ approvedAt) && decide (approvedAt - reauthenticatedAt ≤ 300000)

/-- The membership an approval was issued under is the actor's current one. -/
def approverCurrent (c : Context) (now : String) (approval : ApprovalRow) : Guarded Bool :=
  match approval.issuerMembershipId.bind (fun id =>
      s.governance.memberships.find? fun m =>
        m.spaceId == c.spaceId && m.actorId == approval.actorId && m.id == id) with
  | none => .ok false
  | some membership => do
    let current ← s.getCurrentMembership c.spaceId approval.actorId now
    .ok (current.any (·.id == membership.id))

/-- The authority of an approver. -/
def approverAuthorized (c : Context) (now : String) (approval : ApprovalRow) : Bool :=
  (s.authorizeGenericProposal host
    { c.authorization approval.actorId none
        (if c.proposal.operation = .consequentialAction then .read else .execute) .approve now with
      membershipId := approval.issuerMembershipId, verifiedHumanApproval := true }).allowed

/-- One pass of the loop of `eligibleHumanApprovals`. -/
def addEligible (c : Context) (now : String) (eligible : List ApprovalRow)
    (approval : ApprovalRow) : Guarded (List ApprovalRow) :=
  if approvalCurrent c now approval then do
    let current ← s.approverCurrent c now approval
    .ok (if current && s.approverAuthorized host c now approval &&
        !(eligible.map (·.actorId)).contains approval.actorId then
      eligible ++ [approval] else eligible)
  else .ok eligible

/-- `eligibleHumanApprovals` over given approvals. -/
def eligibleAmong (c : Context) (now : String) (approvals : List ApprovalRow) :
    Guarded (List ApprovalRow) :=
  if (timestampMillis now).isSome &&
      (c.proposal.operation != .consequentialAction || host.proposalHashMatches c.proposal) then
    approvals.foldlM (s.addEligible host c now) []
  else .ok []

def eligibleHumanApprovals (c : Context) (now : String) : Guarded (List ApprovalRow) :=
  s.eligibleAmong host c now (s.selectActiveApprovals c.proposal.id now)

end WorkflowStore

end BalanceFrame.Workflow
