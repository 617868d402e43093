import BalanceFrame.Workflow.Runs
import Mathlib.Logic.Relation

/-!
# The writes of the store

`Change` lists what one write can do to the tables: rows of approvals, audit records and governance
(`aside`), new proposals of the other workflows, withdrawals, the phases of session completions and
of actions, acquisitions, the claims of finished commands and stranded claims. An operation is a
sequence of such writes (`apply_changes`), apart from `createProposal`, `createIdempotencyRecord`,
`completeIdempotencyRecord` and `appendAuditRecord`, whose one write is `Direct`: they let the
caller choose the row.
-/

namespace BalanceFrame.Workflow

open Library
open Governance
open Relation (ReflTransGen)

/-! ## Writes -/

/-- What a write leaves of the approvals: no approval becomes active again, and a new one has a new
id. -/
def ApprovalsKept (before after : List ApprovalRow) : Prop :=
  ∃ f new, after = before.map f ++ new ∧
    (∀ a ∈ before, (f a).id = a.id ∧ ((f a).status = .active → f a = a)) ∧
    (new.map (·.id)).Nodup ∧ ∀ a ∈ before, ∀ b ∈ new, b.id ≠ a.id

/-- New audit records, none the start of an execution. -/
def AuditsAdded (before after : List AuditRow) : Prop :=
  ∃ new, after = before ++ new ∧ (new.map (·.id)).Nodup ∧
    (∀ a ∈ before, ∀ b ∈ new, b.id ≠ a.id) ∧ ∀ b ∈ new, b.classification ≠ "execution_started"

/-- The row of an action in its next state. -/
def ProposalRow.moved (p : ProposalRow) (state : ActionState) : ProposalRow :=
  { p with state := .action state, version := p.version + 1 }

/-- The row of a completion in its next phase. -/
def ProposalRow.completed (p : ProposalRow) (phase : CompletionPhase) (outcome : Option String)
    (now : String) : ProposalRow :=
  { p with
    state := .completion phase outcome
    version := p.version + 1
    supersededAt := if outcome = some "superseded" then some now else p.supersededAt }

/-- The effects of the atoms from an index on. -/
def EffectsFrom (atoms : List Atom) (index : Nat) (effects : List ActionEffect) : Prop :=
  ∀ k (hk : k < effects.length), ∃ atom, atoms[index + k]? = some atom ∧
    ∃ result now, effects.get ⟨k, hk⟩ = effectOf (index + k) atom result now

/-- The next state of an acquired action that is not finished, given its plan. -/
inductive Moves (plan : Plan) (state : ActionState) : ActionState → Prop
  | effects {new} (hphase : state.phase.acquired = true)
      (hnew : EffectsFrom plan.atoms state.effects.length new) :
      Moves plan state { state with effects := state.effects ++ new }
  | review {reason observedState} (hphase : state.phase.acquired = true) :
      Moves plan state (WorkflowStore.reviewState state reason observedState)

/-- The last state of an action with the status of its claim. -/
inductive Finishes (plan : Plan) (state : ActionState) : ActionState → IdempotencyStatus → Prop
  | verified {proof} (hphase : state.phase.acquired = true)
      (hall : plan.atoms.length = state.effects.length) :
      Finishes plan state (WorkflowStore.verifiedState state proof) .succeeded
  | invalidated (hphase : state.phase = .writeIntent) (hnone : state.effects = []) :
      Finishes plan state (WorkflowStore.invalidatedState state) .terminalFailed

/-- What a new acquisition found: the proposal is open at the time of the operation, nobody claimed
it or the key, and no other proposal owns the budget's writes. -/
structure Acquires (time : Option String) (s : WorkflowStore) (input : AcquireInput)
    (p : ProposalRow) : Prop where
  now : time = some input.now
  mem : p ∈ s.proposals
  id : p.id = input.proposalId
  generic : p.operation.isGeneric = true
  unexpired : ∃ now expiry, timestampMillis input.now = some now ∧
    timestampMillis p.expiresAt = some expiry ∧ now < expiry
  unsuperseded : truthy p.supersededAt = none
  keyFree : ∀ i ∈ s.idempotency, i.idempotencyKey ≠ input.idempotencyKey
  unacquired : ∀ a ∈ s.acquisitions, a.proposalId ≠ input.proposalId ∧
    a.idempotencyKey ≠ input.idempotencyKey
  auditFree : ∀ a ∈ s.audits, a.id ≠ input.auditId
  ownerFree : s.hasConflictingOwner p.budgetId p.id = false

namespace WorkflowStore

variable (s : WorkflowStore)

/-- The store with the rows of a new acquisition. -/
def claimed (input : AcquireInput) (p : ProposalRow) (approvals : List ApprovalRow) :
    WorkflowStore :=
  { s with
    idempotency := s.idempotency ++ [claimRow input p]
    acquisitions := s.acquisitions ++ [acquisitionRow input]
    audits := s.audits ++ [startedAudit input p approvals] }

/-- The idempotency table with the claim of an action closed. -/
def closedClaims (key proposalId : String) (status : IdempotencyStatus) : List IdempotencyRow :=
  s.idempotency.map fun i =>
    if isOpenClaim key proposalId i then
      { i with completed := true, status := status, leaseExpiresAt := none } else i

/-- A completion has a write row of a status. -/
def HasWrite (p : ProposalRow) (status : WriteStatus) : Prop :=
  ∃ w ∈ s.completionWrites, w.budgetId = p.budgetId ∧ w.proposalId = p.id ∧ w.status = status

end WorkflowStore

open WorkflowStore

/-- One write of an operation that runs at a time. -/
inductive Change (time : Option String) (s : WorkflowStore) : WorkflowStore → Prop
  | aside {approvals audits governance policyHashes}
      (happrovals : ApprovalsKept s.approvals approvals) (haudits : AuditsAdded s.audits audits) :
      Change time s { s with approvals, audits, governance, policyHashes }
  | insert {row : ProposalRow} (hop : row.operation = .sessionCompletion ∨ row.operation = .transfer)
      (hstate : row.state = .completion .proposed none ∨ row.state = .other)
      (hid : ∀ p ∈ s.proposals, p.id ≠ row.id) :
      Change time s { s with proposals := s.proposals ++ [row] }
  | withdraw {p : ProposalRow} {now} (hp : p ∈ s.proposals) (hgeneric : p.operation.isGeneric = true)
      (hopen : truthy p.supersededAt = none)
      (hnot : Unacquired p ∨ ∀ a ∈ s.acquisitions, a.proposalId ≠ p.id) :
      Change time s (s.setProposal p.id fun q => { q with supersededAt := some now })
  | transfer {p : ProposalRow} {supersededAt} (hp : p ∈ s.proposals) (hop : p.operation = .transfer) :
      Change time s (s.setProposal p.id fun q =>
        { q with version := q.version + 1, supersededAt := supersededAt <|> q.supersededAt })
  | pending {p : ProposalRow} {old before phase outcome now} (hp : p ∈ s.proposals)
      (hop : p.operation = .sessionCompletion) (hstate : p.state = .completion old before)
      (hold : old = .proposed ∨ old = .approved)
      (hphase : phase = .proposed ∨ phase = .approved ∨ phase = .closed) :
      Change time s (s.setProposal p.id (·.completed phase outcome now))
  | fence {p : ProposalRow} {before now} {w : CompletionWriteRow} (hp : p ∈ s.proposals)
      (hop : p.operation = .sessionCompletion) (hstate : p.state = .completion .approved before)
      (howner : s.hasConflictingOwner p.budgetId p.id = false)
      (hbudget : w.budgetId = p.budgetId) (hproposal : w.proposalId = p.id)
      (hstatus : w.status = .writeIntent)
      (hnew : ∀ v ∈ s.completionWrites, ¬ (v.budgetId = w.budgetId ∧ v.proposalId = w.proposalId)) :
      Change time s { s.setProposal p.id (·.completed .writeIntent none now) with
        completionWrites := s.completionWrites ++ [w] }
  | finish {p : ProposalRow} {before now} (result : WriteResult) (hp : p ∈ s.proposals)
      (hop : p.operation = .sessionCompletion) (hstate : p.state = .completion .writeIntent before)
      (hwrite : s.HasWrite p .writeIntent) :
      Change time s { s.setProposal p.id (·.completed result.leads.1 result.leads.2.1 now) with
        completionWrites := (s.setWrite p.budgetId p.id result.leads.2.2).completionWrites }
  | reconcile {p : ProposalRow} {old before outcome now status} (evidence : CompletionEvidence)
      (hp : p ∈ s.proposals) (hop : p.operation = .sessionCompletion)
      (hstate : p.state = .completion old before) (hwrite : s.HasWrite p status)
      (hfits : reconcilable old status evidence = true) :
      Change time s { s.setProposal p.id (·.completed
          (if evidence = .ambiguous then .reviewRequired else .verified) outcome now) with
        completionWrites := if evidence = .manualParent then
          (s.setWrite p.budgetId p.id .verified).completionWrites else s.completionWrites }
  | toggle {p : ProposalRow} {state phase} (hp : p ∈ s.proposals)
      (hop : p.operation = .consequentialAction) (hstate : p.state = .action state)
      (hfrom : state.phase = .proposed ∨ state.phase = .approved)
      (hto : phase = .proposed ∨ phase = .approved) :
      Change time s (s.setProposal p.id (·.moved { state with phase }))
  | act {p : ProposalRow} {plan state state'} (hp : p ∈ s.proposals)
      (hop : p.operation = .consequentialAction) (hstate : p.state = .action state)
      (hplan : p.payload.plan? = some plan) (hmove : Moves plan state state') :
      Change time s (s.setProposal p.id (·.moved state'))
  | close {p : ProposalRow} {plan state state' status} (hp : p ∈ s.proposals)
      (hop : p.operation = .consequentialAction) (hstate : p.state = .action state)
      (hplan : p.payload.plan? = some plan) (hfinish : Finishes plan state state' status)
      (hclaim : ∃ i ∈ s.idempotency, isOpenClaim plan.idempotencyKey p.id i = true) :
      Change time s { s.setProposal p.id (·.moved state') with
        idempotency := s.closedClaims plan.idempotencyKey p.id status }
  | acquire {input p approvals} (h : Acquires time s input p)
      (hop : p.operation ≠ .consequentialAction) : Change time s (s.claimed input p approvals)
  | acquireAction {input p approvals plan state} (h : Acquires time s input p)
      (hop : p.operation = .consequentialAction) (hplan : p.payload.plan? = some plan)
      (hkey : plan.idempotencyKey = input.idempotencyKey) (hstate : p.state = .action state)
      (hphase : state.phase = .proposed ∨ state.phase = .approved)
      (hnone : state.acquisition = none) :
      Change time s ((s.claimed input p approvals).setProposal p.id (·.moved
        { state with phase := .writeIntent, acquisition := some (actionAcquisition input p) }))
  | command {row : IdempotencyRow} (hkey : ∀ i ∈ s.idempotency, i.idempotencyKey ≠ row.idempotencyKey)
      (hstatus : row.status = .succeeded)
      (hop : row.operation ≠ ProposalOperation.consequentialAction.text) :
      Change time s { s with idempotency := s.idempotency ++ [row] }
  | strand (now : String) : Change time s (s.reconcileStranded now)

/-! ## Rows of approvals and audit records -/

theorem ApprovalsKept.refl (l : List ApprovalRow) : ApprovalsKept l l :=
  ⟨id, [], by simp, fun _ _ => ⟨rfl, fun _ => rfl⟩, by simp, by simp⟩

theorem AuditsAdded.refl (l : List AuditRow) : AuditsAdded l l := ⟨[], by simp⟩

theorem ApprovalsKept.map {l : List ApprovalRow} {f : ApprovalRow → ApprovalRow}
    (h : ∀ a ∈ l, (f a).id = a.id ∧ ((f a).status = .active → f a = a)) :
    ApprovalsKept l (l.map f) :=
  ⟨f, [], by simp, h, by simp, by simp⟩

theorem ApprovalsKept.insert {l : List ApprovalRow} {row : ApprovalRow}
    (h : ∀ a ∈ l, approvalClashes row a = false) : ApprovalsKept l (l ++ [row]) := by
  refine ⟨id, [row], by simp, fun _ _ => ⟨rfl, fun _ => rfl⟩, by simp, fun a ha b hb => ?_⟩
  obtain rfl := List.mem_singleton.mp hb
  have := h a ha
  simp only [approvalClashes, Bool.or_eq_false_iff, beq_eq_false_iff_ne] at this
  exact Ne.symm this.1

variable {host : Host} {time : Option String} {s s' : WorkflowStore}

theorem Change.approvals {approvals : List ApprovalRow} (h : ApprovalsKept s.approvals approvals) :
    Change time s { s with approvals } :=
  .aside h (.refl _)

theorem Change.audits {audits : List AuditRow} (h : AuditsAdded s.audits audits) :
    Change time s { s with audits } :=
  .aside (.refl _) h

theorem insertAudit_changes {row : AuditRow} (h : s.insertAudit row = .ok s')
    (hrow : row.classification ≠ "execution_started") : ReflTransGen (Change time) s s' := by
  obtain ⟨hid, rfl⟩ := insertAudit_ok.mp h
  exact .single (.audits ⟨[row], rfl, by simp, by simpa [eq_comm] using hid, by simpa using hrow⟩)

theorem supersedeApprovals_changes (id now : String) :
    ReflTransGen (Change time) s (s.supersedeApprovals id now) := by
  refine .single (.approvals (.map fun a _ => ?_))
  split <;> simp

theorem insertApproval_changes {row : ApprovalRow} (h : s.insertApproval row = .ok s') :
    ReflTransGen (Change time) s s' := by
  simp only [insertApproval, bind_ok, reject_ok, Except.ok.injEq, List.any_eq_false] at h
  obtain ⟨-, hclash, rfl⟩ := h
  exact .single (.approvals (.insert fun a ha => by simpa using hclash a ha))

theorem consumeApprovals_changes (ids : List String) (now : String) :
    ReflTransGen (Change time) s (s.consumeApprovals ids now) := by
  refine .single (.approvals (.map fun a _ => ?_))
  split <;> simp

variable {p : ProposalRow} {c : Context} (now : String)

theorem supersede_changes {id now : String} (hp : s.selectProposal id = some p)
    (hgeneric : p.operation.isGeneric = true) (hopen : truthy p.supersededAt = none)
    (hnot : Unacquired p ∨ s.selectProposalExecutionAcquisition id = none) :
    ReflTransGen (Change time) s (s.supersede id now) := by
  obtain ⟨hmem, rfl⟩ := selectProposal_some hp
  have hwithdraw : Change time s (s.setProposal p.id fun q => { q with supersededAt := some now }) :=
    .withdraw hmem hgeneric hopen (hnot.imp_right fun hnone a ha => by
      simpa using List.find?_eq_none.mp hnone a ha)
  exact .head hwithdraw (supersedeApprovals_changes p.id now)

/-! ## Withdrawing, approving and reading -/

theorem supersedeProposal_changes {id now : String} (h : s.supersedeProposal id now = .ok s') :
    ReflTransGen (Change time) s s' := by
  rcases supersedeProposal_ok h with rfl | ⟨p, hp, hgeneric, hnot, hopen, rfl⟩
  · exact .refl
  · exact supersede_changes hp hgeneric hopen (.inl hnot)

theorem discardProposal_changes {input : DiscardInput} {b : Bool}
    (h : s.discardProposal host input = .ok (b, s')) : ReflTransGen (Change time) s s' := by
  rcases discardProposal_ok h with rfl | ⟨c, hp, hgeneric, hnone, hopen, haudit, rfl⟩
  · exact .refl
  · have hinsert : (s.supersede input.id input.now).insertAudit (discardAudit input c) =
        .ok { s.supersede input.id input.now with
          audits := s.audits ++ [discardAudit input c] } := insertAudit_ok.mpr ⟨haudit, rfl⟩
    exact (supersede_changes hp hgeneric hopen (.inr hnone)).trans
      (insertAudit_changes hinsert (by simp [discardAudit]))

theorem updateActionState_eq {state : ActionState} (h : s.updateActionState p state = .ok s') :
    s' = s.setProposal p.id (·.moved state) :=
  (updateActionState_ok.mp h).2

theorem recomputePhase_changes {eligible required : Nat} (hp : p ∈ s.proposals)
    (hop : p.operation = .consequentialAction) (h : s.recomputePhase p eligible required = .ok s') :
    ReflTransGen (Change time) s s' := by
  simp only [recomputePhase, bind_ok, actionStateOf_eq_ok] at h
  obtain ⟨state, hstate, h⟩ := h
  split at h
  · next hphase =>
    rw [updateActionState_eq h]
    refine .single (.toggle hp hop hstate hphase.1 ?_)
    unfold approvalPhase
    split <;> simp
  · cases h
    exact .refl

theorem approveAction_changes {authorization : AuthorizationResult} {now : String}
    (h : s.approveAction host c authorization now = .ok s')
    (hc : s.selectProposal c.proposal.id = some c.proposal) : ReflTransGen (Change time) s s' := by
  unfold approveAction at h
  split at h
  · next hop =>
    simp only [bind_ok, orStop_ok] at h
    obtain ⟨current, hcurrent, _, _, _, _, h⟩ := h
    obtain rfl : c.proposal = current := by simpa [hc] using hcurrent
    exact recomputePhase_changes (selectProposal_some hc).1 hop h
  · cases h
    exact .refl

theorem admitApproval_ok {input : CreateApprovalInput} {authorization : AuthorizationResult}
    {membershipId : String}
    (h : s.admitApproval host input = .ok (c, authorization, membershipId)) :
    s.selectProposal c.proposal.id = some c.proposal := by
  simp only [admitApproval, bind_ok, orStop_ok] at h
  obtain ⟨p, hp, _, _, _, _, _, _, ⟨spaceId, policy⟩, _, facts, _, _, _, _, _, _, _, id, _, h⟩ := h
  cases h
  rw [(selectProposal_some hp).2]
  exact hp

theorem createApproval_changes {input : CreateApprovalInput}
    (h : s.createApproval host input = .ok s') : ReflTransGen (Change time) s s' := by
  simp only [createApproval, bind_ok] at h
  obtain ⟨⟨c, authorization, membershipId⟩, hadmit, h⟩ := h
  split at h
  · unfold existingApproval at h
    split at h
    · cases h
      exact .refl
    · cases h
  · next hclash =>
    obtain ⟨approved, happrove, h⟩ := bind_ok.mp h
    have hinsert : ReflTransGen (Change time) s
        { s with approvals := s.approvals ++ [approvalRow input c membershipId] } :=
      .single (.approvals (.insert (by simpa using hclash)))
    have hsame := admitApproval_ok hadmit
    exact (hinsert.trans (approveAction_changes happrove hsame)).trans
      (insertAudit_changes h (by simp [approvalAudit]))

theorem createApprovals_changes {input : CreateApprovalsInput}
    (h : s.createApprovals host input = .ok s') : ReflTransGen (Change time) s s' := by
  simp only [createApprovals, bind_ok] at h
  obtain ⟨_, _, _, _, _, _, h⟩ := h
  refine foldlM_inv (P := fun t => ReflTransGen (Change time) s t) ?_ .refl h
  intro t t' item _ ht hitem
  simp only [createApprovalItem, bind_ok] at hitem
  obtain ⟨_, _, _, _, hitem⟩ := hitem
  exact ht.trans (createApproval_changes hitem)

theorem readContext_ok {input : ReadInput} (h : s.readContext host input = .ok c) :
    c.proposal ∈ s.proposals := by
  simp only [readContext, bind_ok, orStop_ok] at h
  obtain ⟨_, _, p, hp, _, _, _, _, _, _, _, _, _, _, _, _, policy, _, _, _, _, _, _, _, _, _, _, _,
    _, _, facts, _, _, _, _, _, h⟩ := h
  cases h
  exact (selectProposal_some hp).1

theorem readProposal_changes {input : ReadInput} (h : s.readProposal host input = .ok s') :
    ReflTransGen (Change time) s s' := by
  simp only [readProposal, bind_ok] at h
  obtain ⟨c, hc, eligible, _, read, hread, h⟩ := h
  refine ReflTransGen.trans ?_ (insertAudit_changes h (by simp [readAudit]))
  unfold readPhase at hread
  split at hread
  · next hop =>
    obtain ⟨_, _, hread⟩ := bind_ok.mp hread
    exact recomputePhase_changes (readContext_ok hc) hop hread
  · cases hread
    exact .refl

theorem readProposals_changes {inputs : List ReadInput}
    (h : s.readProposals host inputs = .ok s') : ReflTransGen (Change time) s s' := by
  refine foldlM_inv (P := fun t => ReflTransGen (Change time) s t) ?_ .refl h
  intro t t' input _ ht hread
  unfold readFrame at hread
  split at hread
  · next hok =>
    cases hread
    exact ht.trans (readProposal_changes hok)
  · split at hread
    · cases hread
      exact ht
    · cases hread

theorem markExpiredApprovals_changes :
    ReflTransGen (Change time) s (s.markExpiredApprovals now) := by
  refine .single (.approvals (.map fun a _ => ?_))
  split <;> simp

end BalanceFrame.Workflow
