import BalanceFrame.Workflow.Completing

/-!
# Runs of the store

`Op` lists the operations of the store that write the proposal tables. `apply` runs one; an
operation that stops leaves the store as it was (`next`), and a run applies a list of operations to
a store. `administer` stands for every operation on spaces, memberships, grants, policies, agents
and credentials: it puts any other governance tables in place.
-/

namespace BalanceFrame.Workflow

open Library
open Governance

/-- The operations of the store. -/
inductive Op
  | createProposal (input : CreateProposalInput)
  | supersedeProposal (id now : String)
  | discardProposal (input : WorkflowStore.DiscardInput)
  | createApproval (input : CreateApprovalInput)
  | createApprovals (input : WorkflowStore.CreateApprovalsInput)
  | readProposals (inputs : List WorkflowStore.ReadInput)
  | markExpiredApprovals (now : String)
  | acquireExecution (input : AcquireInput)
  | recordEffect (input : RecordEffectInput)
  | finalizeExecution (input : FinalizeInput)
  | createIdempotencyRecord (input : WorkflowStore.CreateIdempotencyInput)
  | completeIdempotencyRecord (key : String) (errorMessage : Option String) (isRetryable : Bool)
  | reconcileStranded (now : String)
  | appendAudit (row : AuditRow)
  | admitCompletion (input : CompletionCommand) (row : ProposalRow)
  | approveCompletion (input : CompletionCommand) (row : ApprovalRow) (approved : Bool)
  | beginCompletionWrite (input : CompletionCommand) (intentId parentId : String)
      (approvalIds : List String)
  | finishCompletionWrite (input : CompletionCommand) (intentId : String)
      (result : WorkflowStore.WriteResult)
  | reconcileCompletion (input : CompletionCommand) (evidence : WorkflowStore.CompletionEvidence)
  | invalidateCompletions (budgetId : String) (ids : List String) (now : String)
  | transferChange (now : String) (change : WorkflowStore.TransferChange)
  | administer (governance : GovernanceDb) (policyHashes : List (String × String × String))

variable (host : Host)

/-- One operation. -/
def apply (s : WorkflowStore) : Op → Guarded WorkflowStore
  | .createProposal input => (·.2) <$> s.createProposal host input
  | .supersedeProposal id now => s.supersedeProposal id now
  | .discardProposal input => (·.2) <$> s.discardProposal host input
  | .createApproval input => s.createApproval host input
  | .createApprovals input => s.createApprovals host input
  | .readProposals inputs => s.readProposals host inputs
  | .markExpiredApprovals now => .ok (s.markExpiredApprovals now)
  | .acquireExecution input => (·.2) <$> s.acquireExecution host input none
  | .recordEffect input => s.recordEffect host input
  | .finalizeExecution input => s.finalizeExecution host input
  | .createIdempotencyRecord input => (·.2) <$> s.createIdempotencyRecord input
  | .completeIdempotencyRecord key errorMessage isRetryable =>
    s.completeIdempotencyRecord key errorMessage isRetryable
  | .reconcileStranded now => .ok (s.reconcileStranded now)
  | .appendAudit row => s.insertAudit row
  | .admitCompletion input row => s.admitCompletion input row
  | .approveCompletion input row approved => s.approveCompletion input row approved
  | .beginCompletionWrite input intentId parentId approvalIds =>
    s.beginCompletionWrite input intentId parentId approvalIds
  | .finishCompletionWrite input intentId result => s.finishCompletionWrite input intentId result
  | .reconcileCompletion input evidence => s.reconcileCompletion input evidence
  | .invalidateCompletions budgetId ids now => s.invalidateCompletions budgetId ids now
  | .transferChange now change => s.transferChange now change
  | .administer governance policyHashes => .ok { s with governance, policyHashes }

/-- The store after an operation; one that stops rolls back. -/
def next (s : WorkflowStore) (op : Op) : WorkflowStore := valueOr s (apply host s op)

/-- The store after a run. -/
def run (s : WorkflowStore) (ops : List Op) : WorkflowStore := ops.foldl (next host) s

theorem next_of_ok {s s' : WorkflowStore} {op : Op} (h : apply host s op = .ok s') :
    next host s op = s' := by
  simp [next, h, valueOr]

theorem run_inv {P : WorkflowStore → Prop} {s : WorkflowStore} {ops : List Op}
    (hs : P s) (hstep : ∀ s op s', op ∈ ops → P s → apply host s op = .ok s' → P s') :
    P (run host s ops) := by
  induction ops generalizing s with
  | nil => exact hs
  | cons op ops ih =>
    refine ih ?_ fun s' op' s'' hop => hstep s' op' s'' (List.mem_cons_of_mem _ hop)
    unfold next
    cases h : apply host s op with
    | error refusal => exact hs
    | ok s' => exact hstep s op s' List.mem_cons_self hs h

@[simp] theorem run_nil (s : WorkflowStore) : run host s [] = s := rfl

@[simp] theorem run_cons (s : WorkflowStore) (op : Op) (ops : List Op) :
    run host s (op :: ops) = run host (next host s op) ops := rfl

theorem run_append (s : WorkflowStore) (ops ops' : List Op) :
    run host s (ops ++ ops') = run host (run host s ops) ops' :=
  List.foldl_append

/-! ## A wallet is made -/

def walletHome : GovernanceDb where
  spaces := [{
    id := "home", name := "Home", kind := "household", budgetId := some "budget"
    createdBy := "ada", createdAt := "2026-01-01T00:00:00.000Z", deletedAt := none }]
  memberships := [{
    id := "period", spaceId := "home", actorId := "ada", grantedBy := "ada"
    validFrom := "2026-01-01T00:00:00.000Z", validUntil := none, revokedAt := none
    createdAt := "2026-01-01T00:00:00.000Z", origin := "governed" }]
  policies := [{
    spaceId := "home", version := 1, actorId := "ada", createdAt := "2026-01-01T00:00:00.000Z"
    isCurrent := true
    policy := {
      minimumApprovers := 1, approvalThresholds := [], operationApprovers := []
      assistanceMaximum := some .executeApprovedActions } }]
  grants := [CapabilityPhase.propose, .approve, .execute].map fun phase => {
    id := capabilityOf .consequentialAction phase, spaceId := some "home"
    membershipId := some "period", actorId := "ada", budgetId := some "budget"
    resourceKind := .budget, resourceId := "budget"
    capability := capabilityOf .consequentialAction phase, granted := true, restrictions := {}
    createdAt := "2026-01-01T00:00:00.000Z", updatedAt := "2026-01-01T00:00:00.000Z"
    revokedAt := none }
  identities := [{ actorId := "ada", status := "active", scope := "home" }]
  legacyCurrent := [("budget", "1")]
  legacyPolicies := [{
    budgetId := "budget", version := "1", approvalPolicy := .object [], actorId := "ada"
    createdAt := "2026-01-01T00:00:00.000Z" }]

def walletStore : WorkflowStore where
  governance := walletHome
  policyHashes := [("budget", "1", "policy")]

def walletHost : Host where
  canonicalProposalHash e := e.actorId ++ "/" ++ e.budgetId ++ "/" ++ e.expiresAt
  serialise operation _ preconditions := operation.text ++ "/" ++ preconditions.rest
  deriveProposalAuthorizationFacts operation _ _ := some {
    resources := [], operations := []
    authorizationPayload := .object [("operations", .array
      [.object [("operation", .string operation.text), ("budgetId", .string "budget")]])] }
  actionRequirements _ _ budgetId phase := some [{
    resourceKind := .budget, resourceId := budgetId
    capability := capabilityOf .consequentialAction phase }]
  ruleMatches _ _ := .ok ()

def walletPlan : Plan where
  action := .atomic (.walletMaterialization "wallet" "Cash" "EUR" "")
  source := { financialPolicyVersion := "1", rest := "" }
  evidenceReferences := []
  expiresAt := "2026-02-02T00:00:00.000Z"
  idempotencyKey := "key"
  expectedPostconditions := []
  dispatchPreconditions := []
  actionHash := "action"
  rest := ""

def walletAuth : OperationalAuth where
  actorId := "ada"
  credential := .humanSession "session" "2026-02-01T00:00:00.000Z"

def createWallet : CreateProposalInput where
  operation := .consequentialAction
  budgetId := "budget"
  spaceId := "home"
  payload := .action walletPlan
  policyVersion := "1.0"
  preconditions := {
    nativeActionHash := some "action", nativeSource := some walletPlan.source
    decisionCardPolicyHash := some "card", financialPolicyVersion := some "1"
    financialPolicyHash := some "policy", rest := "" }
  expiresAt := "2026-02-02T00:00:00.000Z"
  actorId := "ada"
  auth := walletAuth
  id := "proposal"
  now := "2026-02-01T00:00:00.000Z"
  answers := ⟨true, true⟩

def approveWallet : CreateApprovalInput where
  proposalId := "proposal"
  payloadHash := "ada/budget/2026-02-02T00:00:00.000Z"
  actorId := "ada"
  expiresAt := "2026-02-02T00:00:00.000Z"
  auth := walletAuth
  now := "2026-02-01T00:00:01.000Z"
  id := "approval"
  auditId := "granted"
  answers := ⟨true, true⟩

def acquireWallet : AcquireInput where
  actorId := "ada"
  proposalId := "proposal"
  payloadHash := "ada/budget/2026-02-02T00:00:00.000Z"
  governancePolicyVersion := "1"
  idempotencyKey := "key"
  serialisedEffect := "consequential_action/"
  approvalId := none
  auth := walletAuth
  now := "2026-02-01T00:00:02.000Z"
  auditId := "started"
  answers := ⟨true, true⟩

def walletExecution : ExecutionIdentity :=
  ⟨"proposal", "ada/budget/2026-02-02T00:00:00.000Z", "ada", "key", "started"⟩

def recordWallet : RecordEffectInput where
  toExecutionIdentity := walletExecution
  effectIndex := 0
  atomIndex := 0
  dispatchIndex := 0
  result := some (.object [("success", .bool true)])
  now := "2026-02-01T00:00:03.000Z"

def walletLedger : ActionLedger := ⟨[], [], [], [], [], ""⟩

def verifyWallet : FinalizeInput where
  toExecutionIdentity := walletExecution
  outcome := .verified (some {
    toExecutionIdentity := walletExecution, postconditions := true, plan := walletPlan
    financialPolicyVersion := "1", currentLedger := walletLedger
    observedState := some walletLedger, valid := true, reason := none, actionHash := "action" })
  now := "2026-02-01T00:00:04.000Z"
  auditId := "completed"

def acquireRun : List Op :=
  [.createProposal createWallet, .createApproval approveWallet, .acquireExecution acquireWallet]

def finishRun : List Op := [.recordEffect recordWallet, .finalizeExecution verifyWallet]

def ProposalRow.actionPhase (p : ProposalRow) : Option ActionPhase :=
  match p.state with
  | .action state => some state.phase
  | _ => none

example : ((run walletHost walletStore (acquireRun ++ finishRun)).selectProposal "proposal").bind
    (·.actionPhase) = some .verified := by
  decide +kernel

end BalanceFrame.Workflow

/-!
## What creating and withdrawing write

Inversion lemmas for the statements and for `createProposal`, `supersedeProposal` and
`discardProposal`: where an operation succeeds, which checks passed and which store it leaves.
-/

namespace BalanceFrame.Workflow

open Library
open Governance

/-! ## Statements -/

namespace WorkflowStore

variable {s s' : WorkflowStore}

theorem selectProposal_some {id : String} {p : ProposalRow} (h : s.selectProposal id = some p) :
    p ∈ s.proposals ∧ p.id = id :=
  ⟨List.mem_of_find?_eq_some h, by simpa using List.find?_some h⟩

theorem selectIdempotency_none {key : String} (h : s.selectIdempotency key = none) :
    ∀ i ∈ s.idempotency, i.idempotencyKey ≠ key := fun i hi => by
  simpa using List.find?_eq_none.mp h i hi

theorem insertAudit_ok {row : AuditRow} :
    s.insertAudit row = .ok s' ↔
      (∀ a ∈ s.audits, a.id ≠ row.id) ∧ s' = { s with audits := s.audits ++ [row] } := by
  simp only [insertAudit, bind_ok, reject_ok, Except.ok.injEq, List.any_eq_false, beq_iff_eq]
  constructor
  · rintro ⟨-, h, rfl⟩
    exact ⟨h, rfl⟩
  · rintro ⟨h, rfl⟩
    exact ⟨(), h, rfl⟩

theorem updateActionState_ok {proposal : ProposalRow} {state : ActionState} :
    s.updateActionState proposal state = .ok s' ↔
      (∃ p ∈ s.proposals, p.id = proposal.id ∧ p.payloadHash = proposal.payloadHash ∧
        p.version = proposal.version) ∧
      s' = s.setProposal proposal.id fun p =>
        { p with state := .action state, version := p.version + 1 } := by
  simp only [updateActionState, bind_ok, reject_ok, Except.ok.injEq, Bool.not_eq_false',
    List.any_eq_true, Bool.and_eq_true, beq_iff_eq]
  constructor
  · rintro ⟨-, ⟨p, hp, ⟨hid, hhash⟩, hversion⟩, rfl⟩
    exact ⟨⟨p, hp, hid, hhash, hversion⟩, rfl⟩
  · rintro ⟨⟨p, hp, hid, hhash, hversion⟩, rfl⟩
    exact ⟨(), ⟨p, hp, ⟨hid, hhash⟩, hversion⟩, rfl⟩

/-! ## Creating and withdrawing -/

variable {host : Host}

theorem insertProposal_ok {row r : ProposalRow} (h : s.insertProposal row = .ok (r, s')) :
    s' = s ∨ (∀ p ∈ s.proposals, proposalClashes row p = false) ∧
      s' = { s with proposals := s.proposals ++ [row] } := by
  unfold insertProposal at h
  split at h
  · obtain ⟨existing, -, h⟩ := bind_ok.mp h
    cases h
    exact .inl rfl
  · next hc =>
    cases h
    exact .inr ⟨by simpa using hc, rfl⟩

/-- What `admitProposal` leaves in the row. -/
structure Admitted (input : CreateProposalInput) (row : ProposalRow) : Prop where
  id : row.id = input.id
  operation : row.operation = input.operation
  kind : input.operation = input.payload.kind
  generic : input.operation.isGeneric = true
  budget : row.budgetId = input.budgetId
  payload : row.payload = input.payload
  expires : row.expiresAt = input.expiresAt
  unsuperseded : row.supersededAt = none
  state : row.state = initialState input.operation
  plan : input.operation = .consequentialAction → ∃ plan, input.payload = .action plan

theorem admitProposal_ok {input : CreateProposalInput} {row : ProposalRow}
    (h : s.admitProposal host input = .ok row) : Admitted input row := by
  simp only [admitProposal, bind_ok] at h
  obtain ⟨_, hrequest, policy, _, _, hpayload, facts, _, _, _, _, _, _, _, h⟩ := h
  cases h
  simp only [checkCreateRequest, bind_ok, reject_ok, Bool.or_eq_false_iff,
    bne_eq_false_iff_eq, Bool.not_eq_false'] at hrequest
  obtain ⟨-, ⟨hkind, hgeneric⟩, -⟩ := hrequest
  refine ⟨rfl, rfl, hkind, hgeneric, rfl, rfl, rfl, rfl, rfl, fun hop => ?_⟩
  cases hinput : input.payload with
  | action plan => exact ⟨plan, rfl⟩
  | other kind _ _ =>
    obtain rfl : kind = .consequentialAction := by rw [← hop, hkind, hinput]; rfl
    simp [checkCreatePayload, hinput] at hpayload

theorem createProposal_ok {input : CreateProposalInput} {r : ProposalRow}
    (h : s.createProposal host input = .ok (r, s')) :
    s' = s ∨ ∃ row, Admitted input row ∧ (∀ p ∈ s.proposals, proposalClashes row p = false) ∧
      (∀ plan, row.payload = .action plan →
        s.assertAdmissionAvailable row.budgetId plan input.now = .ok ()) ∧
      s' = { s with proposals := s.proposals ++ [row] } := by
  simp only [createProposal, bind_ok] at h
  obtain ⟨row, hadmit, h⟩ := h
  have hrow := admitProposal_ok hadmit
  unfold storeProposal at h
  split at h
  · next hpayload =>
    rcases insertProposal_ok h with rfl | ⟨hclash, rfl⟩
    · exact .inl rfl
    · refine .inr ⟨row, hrow, hclash, fun plan hplan => ?_, rfl⟩
      rw [hpayload] at hplan
      cases hplan
  · next plan hpayload =>
    split at h
    · cases h
      exact .inl rfl
    · obtain ⟨_, havailable, h⟩ := bind_ok.mp h
      rcases insertProposal_ok h with rfl | ⟨hclash, rfl⟩
      · exact .inl rfl
      · refine .inr ⟨row, hrow, hclash, fun plan' hplan => ?_, rfl⟩
        rw [hpayload] at hplan
        cases hplan
        exact havailable

/-- An action that may be withdrawn is not acquired. -/
def Unacquired (p : ProposalRow) : Prop :=
  p.operation = .consequentialAction → ∃ state, p.state = .action state ∧
    state.phase.acquired = false

theorem checkSupersedable_ok {p : ProposalRow} (h : checkSupersedable p = .ok ()) :
    p.operation.isGeneric = true ∧ Unacquired p := by
  simp only [checkSupersedable, bind_ok, reject_ok, Bool.not_eq_false'] at h
  obtain ⟨-, hgeneric, h⟩ := h
  refine ⟨hgeneric, fun hop => ?_⟩
  rw [if_pos hop] at h
  simpa [bind_ok] using h

theorem supersedeProposal_ok {id now : String} (h : s.supersedeProposal id now = .ok s') :
    s' = s ∨ ∃ p, s.selectProposal id = some p ∧ p.operation.isGeneric = true ∧ Unacquired p ∧
      truthy p.supersededAt = none ∧ s' = s.supersede id now := by
  simp only [supersedeProposal, bind_ok, orStop_ok, Except.ok.injEq] at h
  obtain ⟨p, hp, _, hcheck, h⟩ := h
  split at h
  · exact .inl h.symm
  · next hopen =>
    obtain ⟨hgeneric, hacquired⟩ := checkSupersedable_ok hcheck
    exact .inr ⟨p, hp, hgeneric, hacquired, by simpa using hopen, h.symm⟩

theorem discardContext_some {input : DiscardInput} {c : Context}
    (h : s.discardContext host input = some c) :
    s.selectProposal input.id = some c.proposal ∧ c.proposal.operation.isGeneric = true ∧
      s.selectProposalExecutionAcquisition input.id = none := by
  simp only [discardContext, Option.bind_eq_bind, Option.bind_eq_some_iff] at h
  obtain ⟨proposal, hp, policy, -, facts, -, h⟩ := h
  split at h
  · next hc =>
    cases h
    simp only [Bool.and_eq_true, Option.isNone_iff_eq_none] at hc
    exact ⟨hp, hc.1.1.1.1.1, hc.1.1.2⟩
  · cases h

theorem discardProposal_ok {input : DiscardInput} {b : Bool}
    (h : s.discardProposal host input = .ok (b, s')) :
    s' = s ∨ ∃ c, s.selectProposal input.id = some c.proposal ∧
      c.proposal.operation.isGeneric = true ∧
      s.selectProposalExecutionAcquisition input.id = none ∧
      truthy c.proposal.supersededAt = none ∧ (∀ a ∈ s.audits, a.id ≠ input.auditId) ∧
      s' = { s.supersede input.id input.now with
        audits := s.audits ++ [discardAudit input c] } := by
  unfold discardProposal at h
  split at h
  · split at h
    · obtain ⟨m, -, h⟩ := bind_ok.mp h
      split at h
      · cases h
        exact .inl rfl
      · next c hc =>
        split at h
        · cases h
          exact .inl rfl
        · next hopen =>
          obtain ⟨audited, haudit, h⟩ := bind_ok.mp h
          cases h
          split at hc
          · obtain ⟨hp, hgeneric, hnone⟩ := discardContext_some hc
            obtain ⟨hid, rfl⟩ := insertAudit_ok.mp haudit
            rw [(selectProposal_some hp).2]
            exact .inr ⟨c, hp, hgeneric, hnone, by simpa using hopen, hid, rfl⟩
          · cases hc
    · cases h
      exact .inl rfl
  · cases h
    exact .inl rfl

end WorkflowStore

end BalanceFrame.Workflow
