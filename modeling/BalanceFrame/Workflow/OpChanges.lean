import BalanceFrame.Workflow.ExecutionChanges

/-!
# What an operation writes

Session completions and transfers as sequences of writes, and from them `apply_changes`: every
operation is a sequence of writes, or the one write its caller chose.
-/

namespace BalanceFrame.Workflow

open Library
open Governance
open Relation (ReflTransGen)
open WorkflowStore

variable {host : Host} {time : Option String} {s s' : WorkflowStore}

/-! ## Session completions and transfers -/

theorem record_changes {key proposalId operation now actorId budgetId auditId : String}
    (hop : operation ≠ ProposalOperation.consequentialAction.text)
    (h : s.record key proposalId operation now actorId budgetId auditId = .ok s') :
    ReflTransGen (Change time) s s' := by
  simp only [record, bind_ok, reject_ok, List.any_eq_false, beq_iff_eq] at h
  obtain ⟨_, hkey, h⟩ := h
  exact .head (.command hkey rfl hop) (insertAudit_changes h (by simp))

/-- What `completionCommand` found. -/
structure Completes (s : WorkflowStore) (input : CompletionCommand) (p : ProposalRow)
    (phase : CompletionPhase) : Prop where
  selected : s.selectProposal input.proposalId = some p
  completion : p.operation = .sessionCompletion
  budget : p.budgetId = input.budgetId
  state : ∃ outcome, p.state = .completion phase outcome

variable {input : CompletionCommand} {p : ProposalRow} {phase : CompletionPhase}

theorem currentCompletion_ok (h : s.currentCompletion input = .ok (p, phase)) :
    Completes s input p phase := by
  simp only [currentCompletion, completionOf, bind_ok, orStop_ok, reject_ok,
    bne_eq_false_iff_eq] at h
  obtain ⟨⟨p', phase'⟩, ⟨p'', hp, _, hop, _, hbudget, _, _, hstate⟩, _, _, h⟩ := h
  cases h
  split at hstate
  · next phase' outcome hcompletion =>
    cases hstate
    exact ⟨hp, hop, hbudget, outcome, hcompletion⟩
  · cases hstate

theorem Completes.mem (h : Completes s input p phase) : p ∈ s.proposals :=
  (selectProposal_some h.selected).1

theorem updateCompletion_eq {outcome : Option String}
    {now : String} (h : s.updateCompletion p phase outcome now = .ok s') :
    s' = s.setProposal p.id (·.completed phase outcome now) := by
  simp only [updateCompletion, bind_ok, Except.ok.injEq] at h
  obtain ⟨_, _, rfl⟩ := h
  rfl

theorem closeCompletion_changes {old : CompletionPhase}
    {before : Option String} {outcome now : String} (hp : p ∈ s.proposals)
    (hop : p.operation = .sessionCompletion) (hstate : p.state = .completion old before)
    (hold : old = .proposed ∨ old = .approved) (h : s.closeCompletion p outcome now = .ok s') :
    ReflTransGen (Change time) s s' := by
  rw [updateCompletion_eq h]
  refine (supersedeApprovals_changes p.id now).tail (.pending hp hop hstate hold ?_)
  rw [hstate]
  rcases hold with rfl | rfl <;> simp

theorem admitCompletion_changes {row : ProposalRow}
    (h : s.admitCompletion input row = .ok s') : ReflTransGen (Change time) s s' := by
  simp only [admitCompletion, bind_ok, reject_ok, List.any_eq_false, proposalClashes,
    Bool.or_eq_true, beq_iff_eq, not_or] at h
  obtain ⟨_, _, _, hclash, h⟩ := h
  exact .head (.insert (.inl rfl) (.inl rfl) fun p hp => (hclash p hp).1)
    (record_changes (by decide) h)

theorem approveCompletion_changes {row : ApprovalRow}
    {approved : Bool} (h : s.approveCompletion input row approved = .ok s') :
    ReflTransGen (Change time) s s' := by
  simp only [approveCompletion, bind_ok, reject_ok] at h
  obtain ⟨⟨p, phase⟩, hcurrent, _, hphase, h⟩ := h
  have hc := currentCompletion_ok hcurrent
  obtain ⟨outcome, hstate⟩ := hc.state
  have hold : phase = .proposed ∨ phase = .approved := by
    revert hphase
    cases phase <;> simp
  split at h
  · cases h
  · exact closeCompletion_changes hc.mem hc.completion hstate hold h
  · simp only [bind_ok] at h
    obtain ⟨added, hadded, updated, hupdate, h⟩ := h
    have hinsert : ReflTransGen (Change time) s added := insertApproval_changes hadded
    simp only [insertApproval, bind_ok, Except.ok.injEq] at hadded
    obtain ⟨_, _, rfl⟩ := hadded
    rw [updateCompletion_eq hupdate] at h
    refine (hinsert.tail (.pending hc.mem hc.completion hstate hold ?_)).trans
      (record_changes (by decide) h)
    cases approved <;> simp

theorem beginCompletionWrite_changes {intentId parentId : String}
    {ids : List String} (h : s.beginCompletionWrite input intentId parentId ids = .ok s') :
    ReflTransGen (Change time) s s' := by
  simp only [beginCompletionWrite, bind_ok, reject_ok, bne_eq_false_iff_eq] at h
  obtain ⟨⟨p, phase⟩, hcurrent, _, hphase, _, howner, h⟩ := h
  have hc := currentCompletion_ok hcurrent
  obtain ⟨outcome, hstate⟩ := hc.state
  dsimp only at hphase
  subst hphase
  split at h
  · cases h
  · exact closeCompletion_changes hc.mem hc.completion hstate (.inr rfl) h
  · simp only [bind_ok, insertWrite, reject_ok, List.any_eq_false, Except.ok.injEq] at h
    obtain ⟨written, ⟨_, hnew, rfl⟩, updated, hupdate, h⟩ := h
    rw [updateCompletion_eq hupdate] at h
    rw [← hc.budget] at howner
    refine ((consumeApprovals_changes ids input.now).tail
      (.fence (w := writeRow input intentId parentId) hc.mem hc.completion hstate howner
        hc.budget.symm (selectProposal_some hc.selected).2.symm rfl fun w hw hsame => ?_)).trans
      (record_changes (by decide) h)
    exact hnew w hw (by simp [hsame.1, hsame.2])

theorem selectWrite_hasWrite {w : CompletionWriteRow}
    (h : s.selectWrite p.budgetId p.id = some w) : s.HasWrite p w.status := by
  have hfound := List.find?_some h
  simp only [Bool.and_eq_true, beq_iff_eq] at hfound
  exact ⟨w, List.mem_of_find?_eq_some h, hfound.1, hfound.2, rfl⟩

theorem withdrawAfter_changes (result : WriteResult) (id now : String) :
    ReflTransGen (Change time) s (s.withdrawAfter result id now) := by
  unfold withdrawAfter
  split
  · exact supersedeApprovals_changes id now
  · exact .refl

theorem withdrawAfter_eq (result : WriteResult) (id now : String) :
    ∃ approvals, s.withdrawAfter result id now = { s with approvals } := by
  unfold withdrawAfter
  split
  · exact ⟨_, rfl⟩
  · exact ⟨s.approvals, rfl⟩

theorem finishCompletionWrite_changes {intentId : String}
    {result : WriteResult} (h : s.finishCompletionWrite input intentId result = .ok s') :
    ReflTransGen (Change time) s s' := by
  simp only [finishCompletionWrite, bind_ok, reject_ok, bne_eq_false_iff_eq,
    Bool.not_eq_false', Option.any_eq_true, Bool.and_eq_true, beq_iff_eq] at h
  obtain ⟨⟨p, phase⟩, hcurrent, _, _, _, hphase, _, ⟨w, hw, hwrite⟩, updated, hupdate, h⟩ := h
  have hc := currentCompletion_ok hcurrent
  obtain ⟨outcome, hstate⟩ := hc.state
  dsimp only at hphase hw
  subst hphase
  rw [← hc.budget] at hw hupdate
  have hintent : s.HasWrite p .writeIntent := by
    have := selectWrite_hasWrite hw
    rwa [hwrite.1.1.2] at this
  refine ReflTransGen.trans ?_ (record_changes (by decide) h)
  refine (withdrawAfter_changes result p.id input.now).tail ?_
  obtain ⟨approvals, hwithdraw⟩ := withdrawAfter_eq (s := s) result p.id input.now
  rw [updateCompletion_eq hupdate, hwithdraw]
  exact .finish (s := { s with approvals }) result hc.mem hc.completion hstate hintent

theorem reconcileCompletion_changes {evidence : CompletionEvidence}
    (h : s.reconcileCompletion input evidence = .ok s') : ReflTransGen (Change time) s s' := by
  simp only [reconcileCompletion, bind_ok, reject_ok, Bool.not_eq_false', Option.any_eq_true,
    Bool.and_eq_true, beq_iff_eq] at h
  obtain ⟨⟨p, phase⟩, hcurrent, _, _, _, ⟨w, hw, _, hfits⟩, updated, hupdate, h⟩ := h
  have hc := currentCompletion_ok hcurrent
  obtain ⟨outcome, hstate⟩ := hc.state
  rw [← hc.budget] at hw
  refine ReflTransGen.trans ?_ (record_changes (by decide) h)
  refine .single ?_
  rw [updateCompletion_eq hupdate]
  have hreconcile : Change time s { s.setProposal p.id (·.completed
      (if evidence = .ambiguous then .reviewRequired else .verified)
      (if evidence = .ambiguous then some "ambiguous" else none) input.now) with
    completionWrites := if evidence = .manualParent then
      (s.setWrite p.budgetId p.id .verified).completionWrites else s.completionWrites } :=
    .reconcile evidence hc.mem hc.completion hstate (selectWrite_hasWrite hw) hfits
  have hsettle : s.settleWrite input evidence =
      if evidence = .manualParent then s.setWrite p.budgetId p.id .verified else s := by
    rw [settleWrite, hc.budget, (selectProposal_some hc.selected).2]
  rw [hsettle]
  cases evidence <;> exact hreconcile

theorem transferOf_ok {id : String} (h : s.transferOf id = .ok p) :
    p ∈ s.proposals ∧ p.id = id ∧ p.operation = .transfer := by
  simp only [transferOf, bind_ok, orStop_ok, reject_ok, bne_eq_false_iff_eq,
    Except.ok.injEq] at h
  obtain ⟨p, hp, _, hop, rfl⟩ := h
  exact ⟨(selectProposal_some hp).1, (selectProposal_some hp).2, hop⟩

theorem transferChange_changes {now : String} {change : TransferChange}
    (h : s.transferChange now change = .ok s') : ReflTransGen (Change time) s s' := by
  cases change with
  | insert row =>
    simp only [transferChange, bind_ok, reject_ok, Except.ok.injEq, List.any_eq_false,
      proposalClashes, Bool.or_eq_true, beq_iff_eq, not_or] at h
    obtain ⟨_, hclash, rfl⟩ := h
    exact .single (.insert (.inr rfl) (.inr rfl) fun p hp => (hclash p hp).1)
  | update id expectedVersion supersededAt =>
    simp only [transferChange, bind_ok, Except.ok.injEq] at h
    obtain ⟨p, htransfer, _, _, rfl⟩ := h
    obtain ⟨hmem, rfl, hop⟩ := transferOf_ok htransfer
    exact .single (.transfer hmem hop)
  | approve row =>
    simp only [transferChange, bind_ok] at h
    obtain ⟨_, _, h⟩ := h
    exact insertApproval_changes h
  | consume id ids =>
    simp only [transferChange, bind_ok, Except.ok.injEq] at h
    obtain ⟨_, _, rfl⟩ := h
    exact consumeApprovals_changes _ now
  | withdraw id =>
    simp only [transferChange, bind_ok, Except.ok.injEq] at h
    obtain ⟨_, _, rfl⟩ := h
    exact supersedeApprovals_changes id now
  | record key id operation actorId budgetId auditId =>
    simp only [transferChange, bind_ok, reject_ok, Bool.not_eq_false'] at h
    obtain ⟨_, hoperation, h⟩ := h
    refine record_changes (fun hop => ?_) h
    rw [hop] at hoperation
    exact absurd hoperation (by decide)

/-- The ids of the proposals are pairwise different. -/
def DistinctIds (s : WorkflowStore) : Prop := (s.proposals.map (·.id)).Nodup

theorem DistinctIds.eq_of_id (h : DistinctIds s) {q : ProposalRow} (hp : p ∈ s.proposals)
    (hq : q ∈ s.proposals) (hid : p.id = q.id) : p = q :=
  List.inj_on_of_nodup_map h hp hq hid

theorem invalidateCompletions_changes {budgetId : String} {ids : List String} {now : String}
    (hids : DistinctIds s) (h : s.invalidateCompletions budgetId ids now = .ok s') :
    ReflTransGen (Change time) s s' := by
  let pending := (s.pendingCompletions budgetId).filter fun p => ids.contains p.id
  have hpending : ∀ p ∈ pending, p ∈ s.proposals := fun p hp =>
    List.mem_of_mem_filter (List.mem_of_mem_filter hp)
  -- what is still to be closed is stored as it was
  refine (foldlM_runAt (P := fun done t => ReflTransGen (Change time) s t ∧
      ∀ p ∈ pending, p ∉ done → p ∈ t.proposals) ?_ ⟨.refl, fun p hp _ => hpending p hp⟩ h).1
  rintro done p rest t t' hlist ⟨hchanges, hstored⟩ hclose
  change pending = done ++ p :: rest at hlist
  have hmem : p ∈ pending := by simp [hlist]
  have hfresh : p ∉ done := by
    have hnodup : pending.Nodup := ((List.Nodup.of_map _ hids).filter _).filter _
    rw [hlist, List.nodup_middle] at hnodup
    simpa using fun hp => (List.nodup_cons.mp hnodup).1 (List.mem_append_left _ hp)
  have hcompletion : p.operation = .sessionCompletion ∧ ∃ old before,
      p.state = .completion old before ∧ (old = .proposed ∨ old = .approved) := by
    have hfilter := (List.mem_filter.mp (List.mem_filter.mp hmem).1).2
    simp only [Bool.and_eq_true, beq_iff_eq] at hfilter
    obtain ⟨⟨_, hop⟩, hphase⟩ := hfilter
    split at hphase
    · next old before hstate => exact ⟨hop, old, before, hstate, by simpa using hphase⟩
    · cases hphase
  obtain ⟨hop, old, before, hstate, hold⟩ := hcompletion
  refine ⟨hchanges.trans (closeCompletion_changes (hstored p hmem hfresh) hop hstate hold hclose),
    fun q hq hnew => ?_⟩
  rw [List.mem_append, List.mem_singleton, not_or] at hnew
  rw [updateCompletion_eq hclose]
  refine List.mem_map.mpr ⟨q, hstored q hq hnew.1, if_neg fun hid => hnew.2 ?_⟩
  exact hids.eq_of_id (hpending q hq) (hpending p hmem) hid

theorem reconcileStranded_changes (now : String) :
    ReflTransGen (Change time) s (s.reconcileStranded now) :=
  .single (.strand now)

/-! ## Operations -/

/-- The one write of an operation whose caller chooses the row. -/
inductive Direct (s : WorkflowStore) : Op → WorkflowStore → Prop
  | create {input row} (hadmitted : Admitted input row)
      (hnew : ∀ p ∈ s.proposals, proposalClashes row p = false)
      (havailable : ∀ plan, row.payload = .action plan →
        s.assertAdmissionAvailable row.budgetId plan input.now = .ok ()) :
      Direct s (.createProposal input) { s with proposals := s.proposals ++ [row] }
  | claim {input : CreateIdempotencyInput} {row : IdempotencyRow}
      (hkey : row.idempotencyKey = input.idempotencyKey)
      (hproposal : row.proposalId = input.proposalId) (hoperation : row.operation = input.operation)
      (hstatus : row.status = .inProgress)
      (hnew : ∀ i ∈ s.idempotency, i.idempotencyKey ≠ input.idempotencyKey) :
      Direct s (.createIdempotencyRecord input) { s with idempotency := s.idempotency ++ [row] }
  | complete {key errorMessage isRetryable} :
      Direct s (.completeIdempotencyRecord key errorMessage isRetryable)
        { s with idempotency := s.idempotency.map fun i =>
          if isCompletable key i then
            { i with completed := true, status := completionStatus errorMessage isRetryable }
          else i }
  | audit {row : AuditRow} (hnew : ∀ a ∈ s.audits, a.id ≠ row.id) :
      Direct s (.appendAudit row) { s with audits := s.audits ++ [row] }

/-- The time of an operation, where it has one. -/
def Op.now : Op → Option String
  | .createProposal input => some input.now
  | .supersedeProposal _ now => some now
  | .discardProposal input => some input.now
  | .createApproval input => some input.now
  | .createApprovals input => some input.now
  | .markExpiredApprovals now => some now
  | .acquireExecution input => some input.now
  | .recordEffect input => some input.now
  | .finalizeExecution input => some input.now
  | .createIdempotencyRecord input => some input.now
  | .reconcileStranded now => some now
  | .admitCompletion input _ | .approveCompletion input _ _ | .beginCompletionWrite input _ _ _
  | .finishCompletionWrite input _ _ | .reconcileCompletion input _ => some input.now
  | .invalidateCompletions _ _ now => some now
  | .transferChange now _ => some now
  | .readProposals _ | .completeIdempotencyRecord _ _ _ | .appendAudit _ | .administer _ _ => none

theorem createProposal_changes {input : CreateProposalInput} {r : ProposalRow}
    (h : s.createProposal host input = .ok (r, s')) :
    s' = s ∨ Direct s (.createProposal input) s' := by
  rcases createProposal_ok h with rfl | ⟨row, hadmitted, hnew, havailable, rfl⟩
  · exact .inl rfl
  · exact .inr (.create hadmitted hnew havailable)

theorem createIdempotencyRecord_changes {input : CreateIdempotencyInput} {b : Bool}
    (h : s.createIdempotencyRecord input = .ok (b, s')) :
    s' = s ∨ Direct s (.createIdempotencyRecord input) s' := by
  unfold createIdempotencyRecord at h
  split at h
  · next hnone =>
    cases h
    exact .inr (.claim rfl rfl rfl rfl (selectIdempotency_none hnone))
  · simp only [bind_ok] at h
    obtain ⟨_, _, _, _, h⟩ := h
    cases h
    exact .inl rfl

theorem apply_other_changes {op : Op} (hother : ∀ input, op ≠ .acquireExecution input)
    (hids : DistinctIds s) (h : apply host s op = .ok s') :
    ReflTransGen (Change time) s s' ∨ Direct s op s' := by
  have hrefl {P : Prop} (hor : s' = s ∨ P) : ReflTransGen (Change time) s s' ∨ P := by
    rcases hor with rfl | hP
    · exact .inl .refl
    · exact .inr hP
  cases op with
  | createProposal input =>
    obtain ⟨⟨r, t⟩, hcreate, rfl⟩ := map_eq_ok.mp h
    exact hrefl (createProposal_changes hcreate)
  | supersedeProposal id now => exact .inl (supersedeProposal_changes h)
  | discardProposal input =>
    obtain ⟨⟨b, t⟩, hdiscard, rfl⟩ := map_eq_ok.mp h
    exact .inl (discardProposal_changes hdiscard)
  | createApproval input => exact .inl (createApproval_changes h)
  | createApprovals input => exact .inl (createApprovals_changes h)
  | readProposals inputs => exact .inl (readProposals_changes h)
  | markExpiredApprovals now =>
    cases h
    exact .inl (markExpiredApprovals_changes now)
  | acquireExecution input => exact absurd rfl (hother input)
  | recordEffect input => exact .inl (recordEffect_changes h)
  | finalizeExecution input => exact .inl (finalizeExecution_changes h)
  | createIdempotencyRecord input =>
    obtain ⟨⟨b, t⟩, hcreate, rfl⟩ := map_eq_ok.mp h
    exact hrefl (createIdempotencyRecord_changes hcreate)
  | completeIdempotencyRecord key errorMessage isRetryable =>
    simp only [apply, completeIdempotencyRecord, bind_ok, Except.ok.injEq] at h
    obtain ⟨_, _, rfl⟩ := h
    exact .inr .complete
  | reconcileStranded now =>
    cases h
    exact .inl (reconcileStranded_changes now)
  | appendAudit row =>
    obtain ⟨hnew, rfl⟩ := insertAudit_ok.mp h
    exact .inr (.audit hnew)
  | admitCompletion input row => exact .inl (admitCompletion_changes h)
  | approveCompletion input row approved => exact .inl (approveCompletion_changes h)
  | beginCompletionWrite input intentId parentId ids =>
    exact .inl (beginCompletionWrite_changes h)
  | finishCompletionWrite input intentId result => exact .inl (finishCompletionWrite_changes h)
  | reconcileCompletion input evidence => exact .inl (reconcileCompletion_changes h)
  | invalidateCompletions budgetId ids now =>
    exact .inl (invalidateCompletions_changes hids h)
  | transferChange now change => exact .inl (transferChange_changes h)
  | administer governance policyHashes =>
    cases h
    exact .inl (.single (.aside (.refl _) (.refl _)))

/-- **Every operation is a sequence of writes**, or the one write its caller chose. -/
theorem apply_changes {op : Op} (hids : DistinctIds s) (h : apply host s op = .ok s') :
    ReflTransGen (Change op.now) s s' ∨ Direct s op s' := by
  by_cases hacquire : ∃ input, op = .acquireExecution input
  · obtain ⟨input, rfl⟩ := hacquire
    obtain ⟨⟨result, t⟩, hacquired, rfl⟩ := map_eq_ok.mp h
    exact .inl (acquireExecution_changes hacquired)
  · exact apply_other_changes (fun input heq => hacquire ⟨input, heq⟩) hids h

end BalanceFrame.Workflow
