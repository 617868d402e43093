import BalanceFrame.Workflow.ActionPlan

/-!
# Proposals, approvals and execution records

Model of the tables `action_proposals`, `proposal_approvals`, `idempotency_records`,
`proposal_execution_acquisitions`, `audit_records` and `session_completion_writes` and of the checks
that the proposal operations of `packages/workflow-store/src/store.ts` share:
`operationalAuthMatches`, `requesterMembershipCurrent`, `proposalOriginAuthorityCurrent`,
`proposalHashMatches`, `freshHumanControl`, `authorizeGenericProposal`,
`currentConsequentialActionApprovalPolicy`, `consequentialActionRequiredApprovers`,
`eligibleHumanApprovals`, `consequentialActionState` and `validateConsequentialActionEffects`. A
table is the list of its rows in `rowid` order; a JSON column holds the value whose text the source
writes.

What the source computes from an envelope alone (its hash, its serialised form, the resources,
operations and rights derived from it) is the parameter `Host`: nothing here depends on what it
returns. Answers read from tables that are not modelled come with each call as `Answers`.
-/

namespace BalanceFrame.Workflow

open Library
open Governance
open Liquidity (Json)

/-- A thrown error; a `ProposalAcquisitionError` has a reason code. -/
structure Refusal where
  reasonCode : String := ""
  message : String
  deriving DecidableEq

def authorizationDenied (message : String) : Refusal := ⟨"authorization_denied", message⟩

def payloadHashMismatch (message : String) : Refusal := ⟨"payload_hash_mismatch", message⟩

def policyVersionMismatch (message : String) : Refusal := ⟨"policy_version_mismatch", message⟩

def idempotencyInProgress (message : String) : Refusal := ⟨"idempotency_in_progress", message⟩

def idempotencyReplayMismatch (message : String) : Refusal :=
  ⟨"idempotency_replay_mismatch", message⟩

abbrev Guarded (α : Type) := Except Refusal α

/-- An error of the governance functions. -/
def governed {α : Type} (x : Except String α) : Guarded α :=
  match x with
  | .ok a => .ok a
  | .error message => .error { message }

@[simp] theorem governed_eq_ok {α : Type} {x : Except String α} {a : α} :
    governed x = .ok a ↔ x = .ok a := by
  cases x <;> simp [governed]

/-! ## Rows -/

/-- The `operation` of a proposal. -/
inductive ProposalOperation
  | setCategory
  | createRule
  | updateRule
  | deleteRule
  | consequentialAction
  | sessionCompletion
  | transfer
  deriving DecidableEq

def ProposalOperation.text : ProposalOperation → String
  | .setCategory => "set_category"
  | .createRule => "create_rule"
  | .updateRule => "update_rule"
  | .deleteRule => "delete_rule"
  | .consequentialAction => "consequential_action"
  | .sessionCompletion => "session_completion"
  | .transfer => "transfer"

/-- `isGenericProposalOperation`. -/
def ProposalOperation.isGeneric : ProposalOperation → Bool
  | .sessionCompletion | .transfer => false
  | _ => true

/-- A proposal payload: a plan, or the canonical text of another payload. -/
inductive Payload
  | action (plan : Plan)
  | other (kind : ProposalOperation) (transactionId : Option String) (text : String)
  deriving DecidableEq

def Payload.kind : Payload → ProposalOperation
  | .action _ => .consequentialAction
  | .other kind .. => kind

def Payload.transactionId : Payload → Option String
  | .action _ => none
  | .other _ transactionId _ => transactionId

/-- `consequentialActionPlanFromPayload`. -/
def Payload.plan? : Payload → Option Plan
  | .action plan => some plan
  | .other .. => none

/-- The preconditions of an action; a field that is absent or of another shape is `none`. -/
structure Preconditions where
  nativeActionHash : Option String
  nativeSource : Option PlanSource
  decisionCardPolicyHash : Option String
  financialPolicyVersion : Option String
  financialPolicyHash : Option String
  rest : String
  deriving DecidableEq

/-- `CanonicalProposalEnvelope`. -/
structure Envelope where
  operation : ProposalOperation
  budgetId : String
  payload : Payload
  preconditions : Preconditions
  actorId : String
  policyVersion : String
  expiresAt : String
  deriving DecidableEq

/-- `ConsequentialActionState['phase']`. -/
inductive ActionPhase
  | proposed
  | approved
  | writeIntent
  | verified
  | reviewRequired
  | invalidatedNoDispatch
  deriving DecidableEq

/-- `ConsequentialActionEffect`. -/
structure ActionEffect where
  effectIndex : Nat
  atomIndex : Nat
  dispatchIndex : Nat
  actionKind : ActionKind
  stableIdentity : StableIdentity
  result : Json
  recordedAt : String

/-- `ConsequentialActionAcquisition`. -/
structure ActionAcquisition where
  actorId : String
  payloadHash : String
  idempotencyKey : String
  acquisitionAuditId : String
  acquiredAt : String
  deriving DecidableEq

/-- The `result` of a finished action. -/
inductive NativeResult
  /-- `{ dispatchCount: 0, staleWorkerFenced: true }`. -/
  | notDispatched
  | verification (actionHash financialPolicyVersion : String) (observedState : ActionLedger)
  deriving DecidableEq

/-- What a state records of the ledger. -/
inductive ObservedState
  | reported (value : Json)
  | ledger (ledger : ActionLedger)

/-- `ConsequentialActionState`. -/
structure ActionState where
  phase : ActionPhase
  outcome : Option String := none
  effects : List ActionEffect := []
  acquisition : Option ActionAcquisition := none
  result : Option NativeResult := none
  observedState : Option ObservedState := none

/-- `SessionCompletionState['phase']`. -/
inductive CompletionPhase
  | proposed
  | approved
  | writeIntent
  | reviewRequired
  | verified
  | closed
  deriving DecidableEq

/-- The `state` column. -/
inductive ProposalState
  | action (state : ActionState)
  | completion (phase : CompletionPhase) (outcome : Option String)
  | other

/-- A row of `action_proposals`. -/
structure ProposalRow where
  id : String
  operation : ProposalOperation
  budgetId : String
  spaceId : Option String
  requesterMembershipId : Option String
  requesterDelegationId : Option String
  requesterDelegationVersion : Option String
  governancePolicyVersion : Option String
  payload : Payload
  payloadHash : String
  policyVersion : String
  preconditions : Preconditions
  expiresAt : String
  actorId : String
  supersededAt : Option String
  createdAt : String
  version : Nat
  state : ProposalState

inductive ApprovalStatus
  | active
  | consumed
  | superseded
  | expired
  deriving DecidableEq

/-- A row of `proposal_approvals`. -/
structure ApprovalRow where
  id : String
  proposalId : String
  payloadHash : String
  actorId : String
  status : ApprovalStatus
  issuerMembershipId : Option String
  governancePolicyVersion : Option String
  reauthenticatedSessionId : Option String
  reauthenticatedAt : Option String
  expiresAt : String
  consumedAt : Option String
  supersededAt : Option String
  createdAt : String
  deriving DecidableEq

inductive IdempotencyStatus
  | inProgress
  | succeeded
  | retryableFailed
  | terminalFailed
  deriving DecidableEq

/-- A row of `idempotency_records`. -/
structure IdempotencyRow where
  idempotencyKey : String
  proposalId : String
  operation : String
  executedAt : String
  completed : Bool
  status : IdempotencyStatus
  leaseExpiresAt : Option String
  serialisedEffect : String
  deriving DecidableEq

/-- A row of `proposal_execution_acquisitions`. -/
structure AcquisitionRow where
  proposalId : String
  idempotencyKey : String
  actorId : String
  acquiredAt : String
  deriving DecidableEq

/-- An `observed_result_state` that is a JSON object; a field of another type is `none`. -/
structure DispatchState where
  kind : Option String
  dispatchStarted : Option Bool
  acquisitionAuditId : Option String
  deriving DecidableEq

/-- A `result` of the shape `{ proposalId, approvalIds }`. -/
structure AcquiredSet where
  proposalId : String
  approvalIds : List String
  deriving DecidableEq

/-- A row of `audit_records`. -/
structure AuditRow where
  id : String
  classification : String
  timestamp : String
  actorId : String
  operation : Option String
  proposalId : Option String
  payloadHash : Option String
  budgetId : Option String
  policyVersion : Option String
  idempotencyKey : Option String
  observedResultState : Option DispatchState
  result : Option AcquiredSet
  isError : Bool
  deriving DecidableEq

inductive WriteStatus
  | writeIntent
  | verified
  | reviewRequired
  deriving DecidableEq

/-- A row of `session_completion_writes`. -/
structure CompletionWriteRow where
  budgetId : String
  proposalId : String
  intentId : String
  payloadHash : String
  parentId : String
  status : WriteStatus
  deriving DecidableEq

/-- The tables the proposal operations read and write. -/
structure WorkflowStore where
  governance : GovernanceDb := {}
  /-- `policy.policyHash` in `liquidity_policy_versions`, by budget and version. -/
  policyHashes : List (String × String × String) := []
  proposals : List ProposalRow := []
  approvals : List ApprovalRow := []
  idempotency : List IdempotencyRow := []
  acquisitions : List AcquisitionRow := []
  audits : List AuditRow := []
  completionWrites : List CompletionWriteRow := []

/-! ## What comes from outside -/

/-- An operation of `ProposalAuthorizationFacts`. -/
structure FactOperation where
  direction : Option Direction
  amount : Option (String × Int)
  deriving DecidableEq

/-- `ProposalAuthorizationFacts`, with the value `{ operations, proposal, resources }` that
`authorize` is given. -/
structure AuthorizationFacts where
  resources : List ResourceRef
  operations : List FactOperation
  authorizationPayload : Json

/-- The right a capability check of an action is made for. -/
inductive CapabilityPhase
  | propose
  | approve
  | execute
  deriving DecidableEq

structure Host where
  /-- `canonicalProposalHash`. -/
  canonicalProposalHash : Envelope → String
  /-- `JSON.stringify({ operation, payload, preconditions })`. -/
  serialise : ProposalOperation → Payload → Preconditions → String
  /-- `deriveProposalAuthorizationFacts`. -/
  deriveProposalAuthorizationFacts :
    ProposalOperation → Payload → Preconditions → Option AuthorizationFacts
  /-- `consequentialActionPhaseRequirements` with the rights of `deriveProposalSourceReadFacts`. -/
  actionRequirements : Plan → Preconditions → String → CapabilityPhase → Option (List RequiredRef)
  /-- The check of `createProposal` on a rule and its preconditions. -/
  ruleMatches : Payload → Preconditions → Guarded Unit

/-- Answers from the tables of review items and rule overrides. -/
structure Answers where
  reviewProvenanceMatches : Bool
  ruleOverrideMatches : Bool

def Answers.proposalReviewProvenanceMatches (answers : Answers) (operation : ProposalOperation) :
    Bool :=
  operation != .setCategory || answers.reviewProvenanceMatches

def Answers.ruleOverrideSnapshotMatches (answers : Answers) (payload : Payload) : Bool :=
  (payload.kind != .updateRule && payload.kind != .deleteRule) || answers.ruleOverrideMatches

def genericMutationPolicyVersion : String := "1.0"

/-! ## Statements -/

namespace WorkflowStore

variable (s : WorkflowStore)

def selectProposal (id : String) : Option ProposalRow := s.proposals.find? (·.id == id)

def selectApproval (id : String) : Option ApprovalRow := s.approvals.find? (·.id == id)

def selectIdempotency (key : String) : Option IdempotencyRow :=
  s.idempotency.find? (·.idempotencyKey == key)

def selectIdempotencyByProposalOp (proposalId operation : String) : Option IdempotencyRow :=
  s.idempotency.find? fun i => i.proposalId == proposalId && i.operation == operation

def selectProposalExecutionAcquisition (proposalId : String) : Option AcquisitionRow :=
  s.acquisitions.find? (·.proposalId == proposalId)

def selectAuditById (id : String) : Option AuditRow := s.audits.find? (·.id == id)

def selectActiveApprovals (proposalId now : String) : List ApprovalRow :=
  sortOn (·.createdAt) (s.approvals.filter fun a =>
    a.proposalId == proposalId && a.status == .active && decide (now < a.expiresAt) &&
      a.consumedAt.isNone && a.supersededAt.isNone)

def selectProposalByExactKey (budgetId : String) (transactionId : Option String)
    (operation : ProposalOperation) (payloadHash : String) : Option ProposalRow :=
  s.proposals.find? fun p => p.budgetId == budgetId && p.payload.transactionId == transactionId &&
    p.operation == operation && p.payloadHash == payloadHash

/-- The row of `liquidity_current_policy` joined with its version: policy hash and approval
policy. -/
def currentFinancialPolicy (budgetId : String) : Option (String × Option String × Json) := do
  let current ← s.governance.legacyCurrent.find? (·.1 == budgetId)
  let row ← s.governance.legacyPolicies.find? fun p =>
    p.budgetId == budgetId && p.version == current.2
  let hash := s.policyHashes.find? fun h => h.1 == budgetId && h.2.1 == current.2
  some (current.2, hash.map (·.2.2), row.approvalPolicy)

end WorkflowStore

/-! ## Stored actions -/

/-- `consequentialActionState`. -/
def actionStateOf (proposal : ProposalRow) : Guarded ActionState :=
  match proposal.state with
  | .action state => .ok state
  | _ => .error (payloadHashMismatch "Stored consequential-action state is invalid")

@[simp] theorem actionStateOf_eq_ok {proposal : ProposalRow} {state : ActionState} :
    actionStateOf proposal = .ok state ↔ proposal.state = .action state := by
  unfold actionStateOf
  cases proposal.state <;> simp

/-- `validateConsequentialActionPreconditions`. -/
def preconditionsMatch (plan : Plan) (p : Preconditions) : Bool :=
  p.nativeActionHash == some plan.actionHash && p.nativeSource == some plan.source &&
    p.decisionCardPolicyHash.any (!isBlank ·) &&
    p.financialPolicyVersion == some plan.source.financialPolicyVersion &&
    p.financialPolicyHash.any (!isBlank ·)

/-- The check of `validateConsequentialActionEffects` on one stored effect. -/
def effectMatches (atoms : List Atom) (index : Nat) (effect : ActionEffect) : Bool :=
  atoms[index]?.any fun atom =>
    effect.effectIndex == index && effect.atomIndex == index && effect.dispatchIndex == 0 &&
      (timestampMillis effect.recordedAt).isSome && effect.actionKind == atom.kind &&
      effect.stableIdentity == atom.stableIdentity

/-- `validateConsequentialActionEffects`. -/
def effectsMatch (state : ActionState) (plan : Plan) : Bool :=
  state.effects.zipIdx.all fun e => effectMatches plan.atoms e.2 e.1

end BalanceFrame.Workflow
