import BalanceFrame.Workflow.Changes

/-!
# What acquiring and executing write

`acquireProposalExecution`, `recordConsequentialActionEffect` and
`finalizeConsequentialActionExecution` as sequences of writes. `Admits` and `Executes` say what
their first half checked.
-/

namespace BalanceFrame.Workflow

open Library List
open Governance
open Relation (ReflTransGen)
open WorkflowStore

variable {input : AcquireInput} {p : ProposalRow} {frame : Frame} {id : Option String}

variable {host : Host} {time : Option String} {s s' : WorkflowStore}

/-! ## Acquiring -/

/-- What `admitExecution` checked. -/
structure Admits (host : Host) (s : WorkflowStore) (input : AcquireInput)
    (acquisitionAuditId : Option String) (c : Context) (authorization : AuthorizationResult) :
    Prop where
  selected : s.selectProposal input.proposalId = some c.proposal
  generic : c.proposal.operation.isGeneric = true
  acquirable : s.checkAcquirable host input c.proposal acquisitionAuditId = .ok ()
  policy : s.executionPolicy input c.proposal = .ok (c.spaceId, c.policy)
  identity : s.checkActionIdentity input c.proposal acquisitionAuditId = .ok ()
  authorized : authorization = s.authorizeGenericProposal host
    (c.authorization input.actorId (some input.auth) .propose .execute input.now)

theorem admitExecution_ok {c : Context} {authorization : AuthorizationResult}
    (h : s.admitExecution host input id = .ok (c, authorization)) :
    Admits host s input id c authorization := by
  simp only [admitExecution, bind_ok, orStop_ok, reject_ok, Bool.not_eq_false'] at h
  obtain ⟨p, hp, _, hgeneric, _, hacquirable, _, _, ⟨spaceId, policy⟩, hpolicy, facts, _, _,
    hidentity, _, _, _, _, _, _, h⟩ := h
  cases h
  exact ⟨hp, hgeneric, hacquirable, hpolicy, hidentity, rfl⟩

theorem checkAcquirable_ok (hnone : s.selectProposalExecutionAcquisition input.proposalId = none)
    (h : s.checkAcquirable host input p id = .ok ()) :
    (∃ now expiry, timestampMillis input.now = some now ∧
      timestampMillis p.expiresAt = some expiry ∧ now < expiry) ∧
    truthy p.supersededAt = none ∧ host.proposalHashMatches p = true ∧
      input.payloadHash = p.payloadHash := by
  have hreplay : s.completedReplay input p id = false := by simp [completedReplay, hnone]
  simp only [checkAcquirable, hreplay, bind_ok, orStop_ok, reject_ok, Bool.not_false,
    Bool.and_true, decide_eq_false_iff_not, Int.not_le, Option.isSome_eq_false_iff,
    Option.isNone_iff_eq_none, Bool.or_eq_false_iff, Bool.not_eq_false', bne_eq_false_iff_eq] at h
  obtain ⟨now, hnow, expiry, hexpiry, _, hopen, _, hunsuperseded, _, _, hhash, hpayload⟩ := h
  exact ⟨⟨now, expiry, hnow, hexpiry, hopen⟩, hunsuperseded, hhash, hpayload⟩

theorem checkActionIdentity_ok
    (hop : p.operation = .consequentialAction) (h : s.checkActionIdentity input p id = .ok ()) :
    ∃ plan state, p.payload.plan? = some plan ∧ p.state = .action state ∧
      plan.idempotencyKey = input.idempotencyKey := by
  simp only [checkActionIdentity, if_pos hop] at h
  split at h
  · next plan state hplan hstate =>
    simp only [reject_ok, Bool.or_eq_false_iff, bne_eq_false_iff_eq] at h
    exact ⟨plan, state, hplan, hstate, h.1.1⟩
  · cases h

theorem consumeApproval_changes (time : Option String) {now : String} {approvals : List ApprovalRow}
    (h : approvals.foldlM (consumeApproval now) s = .ok s') :
    ∃ consumed, s' = { s with approvals := consumed } ∧
      ∀ t : WorkflowStore, t.approvals = s.approvals →
        ReflTransGen (Change time) t { t with approvals := consumed } := by
  refine foldlM_inv (P := fun s' => ∃ consumed, s' = { s with approvals := consumed } ∧
      ∀ t : WorkflowStore, t.approvals = s.approvals →
        ReflTransGen (Change time) t { t with approvals := consumed }) ?_ ?_ h
  · rintro u u' a - ⟨consumed, rfl, hbefore⟩ hconsume
    simp only [consumeApproval, bind_ok, Except.ok.injEq] at hconsume
    obtain ⟨_, _, rfl⟩ := hconsume
    refine ⟨_, rfl, fun t ht => (hbefore t ht).tail (.approvals (.map fun b _ => ?_))⟩
    split <;> simp
  · exact ⟨s.approvals, rfl, fun t ht => by rw [← ht]⟩

theorem insertClaim_ok (h : s.insertClaim input p = .ok s') :
    (∀ i ∈ s.idempotency, i.idempotencyKey ≠ input.idempotencyKey) ∧
    (∀ a ∈ s.acquisitions, a.proposalId ≠ input.proposalId ∧
      a.idempotencyKey ≠ input.idempotencyKey) ∧
    s' = { s with idempotency := s.idempotency ++ [claimRow input p]
                  acquisitions := s.acquisitions ++ [acquisitionRow input] } := by
  simp only [insertClaim, bind_ok, reject_ok, Except.ok.injEq, any_eq_false,
    Bool.or_eq_true, beq_iff_eq, not_or] at h
  obtain ⟨_, hkey, _, hacquisitions, rfl⟩ := h
  exact ⟨hkey, hacquisitions, rfl⟩

theorem beginAction_ok (h : s.beginAction input p = .ok s') (hp : s.selectProposal p.id = some p) :
    p.operation ≠ .consequentialAction ∧ s' = s ∨
    p.operation = .consequentialAction ∧ ∃ state, p.state = .action state ∧
      (state.phase = .proposed ∨ state.phase = .approved) ∧ state.acquisition = none ∧
      s' = s.setProposal p.id (·.moved { state with
        phase := .writeIntent, acquisition := some (actionAcquisition input p) }) := by
  unfold beginAction at h
  split at h
  · next hop =>
    simp only [hp, orStop_some, ok_bind, bind_ok, actionStateOf_eq_ok, reject_ok,
      Bool.or_eq_false_iff, Bool.not_eq_false', Bool.or_eq_true, beq_iff_eq,
      Option.isSome_eq_false_iff, Option.isNone_iff_eq_none] at h
    obtain ⟨state, hstate, _, ⟨hphase, hnone⟩, h⟩ := h
    exact .inr ⟨hop, state, hstate, hphase, hnone, updateActionState_eq h⟩
  · next hop =>
    cases h
    exact .inl ⟨hop, rfl⟩

theorem acquireNew_changes {c : Context} {authorization : AuthorizationResult} {result : Acquired}
    (hnone : s.selectProposalExecutionAcquisition input.proposalId = none)
    (hadmits : Admits host s input none c authorization)
    (h : s.acquireNew host input c authorization = .ok (result, s')) :
    ReflTransGen (Change (some input.now)) s s' := by
  simp only [acquireNew, bind_ok] at h
  obtain ⟨_, hunclaimed, selected, _, _, _, claimed, hclaim, consumed, hconsumed, audited,
    haudit, begun, hbegun, h⟩ := h
  cases h
  simp only [checkUnclaimed, bind_ok, assertOwnerAvailable, reject_ok] at hunclaimed
  obtain ⟨_, _, _, _, _, _, _, _, howner⟩ := hunclaimed
  obtain ⟨hunexpired, hunsuperseded, -, -⟩ := checkAcquirable_ok hnone hadmits.acquirable
  obtain ⟨hmem, hid⟩ := selectProposal_some hadmits.selected
  obtain ⟨hkey, hacquisitions, rfl⟩ := insertClaim_ok hclaim
  obtain ⟨approvals, rfl, hbefore⟩ := consumeApproval_changes (some input.now) hconsumed
  obtain ⟨haudits, rfl⟩ := insertAudit_ok.mp haudit
  refine (hbefore s rfl).trans (.single ?_)
  have hacquires : Acquires (some input.now) { s with approvals } input c.proposal :=
    { now := rfl, mem := hmem, id := hid, generic := hadmits.generic, unexpired := hunexpired
      unsuperseded := hunsuperseded, keyFree := hkey, unacquired := hacquisitions
      auditFree := haudits, ownerFree := howner }
  have hselected : s.selectProposal c.proposal.id = some c.proposal := by
    rw [hid]
    exact hadmits.selected
  rcases beginAction_ok hbegun hselected with
    ⟨hop, rfl⟩ | ⟨hop, state, hstate, hphase, hunacquired, rfl⟩
  · exact .acquire hacquires hop
  · obtain ⟨plan, _, hplan, _, hkey⟩ := checkActionIdentity_ok hop hadmits.identity
    exact .acquireAction hacquires hop hplan hkey hstate hphase hunacquired

theorem acquireExecution_changes {result : Acquired}
    (h : s.acquireExecution host input none = .ok (result, s')) :
    ReflTransGen (Change (some input.now)) s s' := by
  simp only [acquireExecution, bind_ok] at h
  obtain ⟨⟨c, authorization⟩, hadmit, h⟩ := h
  split at h
  · obtain ⟨_, _, h⟩ := bind_ok.mp h
    cases h
    exact .refl
  · cases h
  · next hnone _ => exact acquireNew_changes hnone (admitExecution_ok hadmit) h

/-! ## Executing -/

/-- What `requireConsequentialActionExecution` checked. -/
structure Executes (host : Host) (s : WorkflowStore) (input : ExecutionIdentity)
    (phases : List ActionPhase) (frame : Frame) : Prop where
  selected : s.selectProposal input.proposalId = some frame.proposal
  action : frame.proposal.operation = .consequentialAction
  plan : frame.proposal.payload.plan? = some frame.plan
  key : frame.plan.idempotencyKey = input.idempotencyKey
  state : frame.proposal.state = .action frame.state
  phase : frame.state.phase ∈ phases
  effects : effectsMatch frame.state frame.plan = true

theorem requireExecution_ok {input : ExecutionIdentity} {phases : List ActionPhase}
    (h : s.requireExecution host input phases = .ok frame) :
    Executes host s input phases frame := by
  simp only [requireExecution, executionPlan, bind_ok, actionStateOf_eq_ok, orStop_ok,
    reject_ok, Bool.not_eq_false', Bool.or_eq_false_iff, bne_eq_false_iff_eq, Except.ok.injEq,
    contains_iff_mem] at h
  obtain ⟨⟨p, plan⟩, ⟨_, _, p', hp, _, ⟨⟨hop, _⟩, _⟩, plan', hplan, _, _, _, ⟨hkey, _⟩, heq⟩, state,
    hstate, _, hphase, acquisition, _, audit, _, _, _, _, heffects, rfl⟩ := h
  cases heq
  exact ⟨hp, hop, hplan, hkey, hstate, hphase, heffects⟩

theorem nextEffect_ok {input : RecordEffectInput} {effect : ActionEffect}
    (h : nextEffect frame input = .ok (some effect)) :
    EffectsFrom frame.plan.atoms frame.state.effects.length [effect] := by
  simp only [nextEffect, bind_ok, orStop_ok, reject_ok] at h
  obtain ⟨_, _, atom, hatom, result, _, h⟩ := h
  split at h
  · split at h <;> cases h
  · obtain ⟨_, hindex, h⟩ := bind_ok.mp h
    cases h
    simp only [reject_ok, Bool.or_eq_false_iff, bne_eq_false_iff_eq] at hindex
    have hat : input.atomIndex.toNat = frame.state.effects.length := by omega
    intro k hk
    obtain rfl : k = 0 := by simpa using hk
    exact ⟨atom, by rw [← hat]; exact hatom, result, input.now, by simp [hat]⟩

theorem recordEffect_changes {input : RecordEffectInput}
    (h : s.recordEffect host input = .ok s') : ReflTransGen (Change time) s s' := by
  simp only [recordEffect, bind_ok] at h
  obtain ⟨frame, hframe, effect, heffect, h⟩ := h
  obtain ⟨hselected, hop, hplan, -, hstate, hphase, -⟩ := requireExecution_ok hframe
  cases effect with
  | none =>
    cases h
    exact .refl
  | some effect =>
    rw [updateActionState_eq h]
    refine .single (.act (selectProposal_some hselected).1 hop hstate hplan
      (.effects ?_ (nextEffect_ok heffect)))
    rw [mem_singleton.mp hphase]
    rfl

theorem EffectsFrom.append {atoms : List Atom} {index : Nat} {first second : List ActionEffect}
    (h₁ : EffectsFrom atoms index first) (h₂ : EffectsFrom atoms (index + first.length) second) :
    EffectsFrom atoms index (first ++ second) := by
  intro k hk
  by_cases hlt : k < first.length
  · obtain ⟨atom, hatom, result, now, heq⟩ := h₁ k hlt
    exact ⟨atom, hatom, result, now, by simpa [getElem_append_left hlt] using heq⟩
  · have hge := Nat.le_of_not_lt hlt
    obtain ⟨atom, hatom, result, now, heq⟩ := h₂ (k - first.length) (by simp at hk; omega)
    have hindex : index + first.length + (k - first.length) = index + k := by omega
    rw [hindex] at hatom heq
    exact ⟨atom, hatom, result, now, by simpa [getElem_append_right hge] using heq⟩

theorem recoverEffects_ok {plan : Plan} {ledger : ActionLedger} {now : String}
    {effects out : List ActionEffect} (h : recoverEffects plan ledger now effects = .ok out) :
    ∃ new, out = effects ++ new ∧ new.length = (plan.atoms.drop effects.length).length ∧
      EffectsFrom plan.atoms effects.length new := by
  refine foldlM_runAt (P := fun done out => ∃ new, out = effects ++ new ∧
    new.length = done.length ∧ EffectsFrom plan.atoms effects.length new) ?_ ⟨[], by simp, rfl,
      fun k hk => absurd hk (by simp)⟩ h
  rintro done atom rest out out' hdrop ⟨new, rfl, hlength, hnew⟩ hnext
  simp only [recoverNext, recoverEffect, bind_ok, Except.ok.injEq] at hnext
  obtain ⟨effect, ⟨result, -, heffect⟩, rfl⟩ := hnext
  rw [length_append] at heffect
  have hatom : plan.atoms[effects.length + new.length]? = some atom := by
    rw [← getElem?_drop, hdrop, hlength]
    simp
  refine ⟨new ++ [effect], append_assoc _ _ _, by simp [hlength], hnew.append fun k hk => ?_⟩
  obtain rfl : k = 0 := by simpa using hk
  exact ⟨atom, hatom, _, now, heffect.symm⟩

theorem selectProposal_setProposal {f : ProposalRow → ProposalRow} {id : String}
    (hf : ∀ q, (f q).id = q.id) (hp : s.selectProposal id = some p) :
    (s.setProposal id f).selectProposal id = some (f p) := by
  have hkeep : ((·.id == id) ∘ fun q : ProposalRow => if q.id = id then f q else q) =
      (·.id == id) := by
    funext q
    simp only [Function.comp_apply]
    split <;> simp [hf]
  simp only [selectProposal] at hp
  simp only [selectProposal, setProposal, find?_map, hkeep, hp, Option.map_some]
  rw [if_pos (by simpa using find?_some hp)]

/-- An action that is executed. -/
structure Running (s : WorkflowStore) (frame : Frame) : Prop where
  selected : s.selectProposal frame.proposal.id = some frame.proposal
  action : frame.proposal.operation = .consequentialAction
  plan : frame.proposal.payload.plan? = some frame.plan
  state : frame.proposal.state = .action frame.state

theorem Executes.running {input : ExecutionIdentity} {phases : List ActionPhase}
    (h : Executes host s input phases frame) : Running s frame where
  selected := by
    rw [(selectProposal_some h.selected).2]
    exact h.selected
  action := h.action
  plan := h.plan
  state := h.state

theorem recoverFrame_changes {input : FinalizeInput} {frame' : Frame}
    {proof : VerificationProof} (hrun : Running s frame) (hphase : frame.state.phase.acquired = true)
    (hle : frame.state.effects.length ≤ frame.plan.atoms.length)
    (h : s.recoverFrame input frame proof = .ok (frame', s')) :
    ReflTransGen (Change time) s s' ∧ Running s' frame' ∧ frame'.plan = frame.plan ∧
      frame'.proposal.id = frame.proposal.id ∧ frame'.state.phase = frame.state.phase ∧
      frame'.plan.atoms.length = frame'.state.effects.length := by
  unfold recoverFrame at h
  split at h
  · simp only [bind_ok, orStop_ok, actionStateOf_eq_ok, Except.ok.injEq] at h
    obtain ⟨effects, heffects, updated, hupdate, p, hp, state, hstate, h⟩ := h
    cases h
    obtain ⟨new, rfl, hlength, hnew⟩ := recoverEffects_ok heffects
    have hselected := hrun.selected
    have hset := updateActionState_eq hupdate
    have hmoved := selectProposal_setProposal (f := (·.moved { frame.state with
      effects := frame.state.effects ++ new })) (fun _ => rfl) hselected
    rw [← hset, hp] at hmoved
    obtain rfl := Option.some.inj hmoved
    obtain rfl : state = { frame.state with effects := frame.state.effects ++ new } := by
      simpa [ProposalRow.moved] using hstate.symm
    refine ⟨.single ?_, ⟨hp, hrun.action, hrun.plan, rfl⟩, rfl, rfl, rfl, ?_⟩
    · rw [hset]
      exact .act (selectProposal_some hselected).1 hrun.action hrun.state hrun.plan
        (.effects hphase hnew)
    · rw [length_drop] at hlength
      simp only [length_append]
      omega
  · next hlt =>
    cases h
    exact ⟨.refl, hrun, rfl, rfl, rfl, by omega⟩

/-- The conclusion of an execution: the action either stays open for review or finishes with a
status. -/
theorem concludeExecution_changes {input : FinalizeInput} {frame' : Frame}
    {next : ActionState} (hrun : Running s frame) (hphase : frame.state.phase ∈ input.outcome.phases)
    (h : s.concludeExecution input frame = .ok (frame', next, s')) :
    ReflTransGen (Change time) s s' ∧ Running s' frame' ∧ frame'.plan = frame.plan ∧
      (Moves frame'.plan frame'.state next ∧ input.outcome.status = none ∨
        ∃ status, Finishes frame'.plan frame'.state next status ∧
          input.outcome.status = some status) := by
  unfold concludeExecution at h
  split at h
  · next reason observedState houtcome =>
    obtain ⟨_, _, h⟩ := bind_ok.mp h
    cases h
    refine ⟨.refl, hrun, rfl, .inl ⟨.review ?_, by rw [houtcome]; rfl⟩⟩
    simp only [houtcome, FinalOutcome.phases, mem_cons, not_mem_nil, or_false] at hphase
    rcases hphase with h | h <;> rw [h] <;> rfl
  · next proof houtcome =>
    simp only [bind_ok, reject_ok, Bool.or_eq_false_iff, Bool.not_eq_false',
      List.isEmpty_iff] at h
    obtain ⟨_, ⟨_, hnone⟩, h⟩ := h
    cases h
    simp only [houtcome, FinalOutcome.phases, mem_singleton] at hphase
    exact ⟨.refl, hrun, rfl, .inr ⟨_, .invalidated hphase hnone, by rw [houtcome]; rfl⟩⟩
  · next proof houtcome =>
    simp only [bind_ok, orStop_ok, Option.filter_eq_some_iff] at h
    obtain ⟨proof', ⟨_, haccepted⟩, ⟨frame'', s''⟩, hrecover, h⟩ := h
    cases h
    have hacquired : frame.state.phase.acquired = true := by
      simp only [houtcome, FinalOutcome.phases, mem_cons, not_mem_nil, or_false] at hphase
      rcases hphase with h | h <;> rw [h] <;> rfl
    have hle : frame.state.effects.length ≤ frame.plan.atoms.length := by
      simp only [proofAccepted, Bool.and_eq_true, decide_eq_true_eq] at haccepted
      exact haccepted.1.1.1.1.1.1.2
    obtain ⟨hchanges, hrun', hplan, -, hsame, hall⟩ :=
      recoverFrame_changes hrun hacquired hle hrecover
    exact ⟨hchanges, hrun', hplan, .inr ⟨_, .verified (hsame ▸ hacquired) hall, by
      rw [houtcome]; rfl⟩⟩

theorem finalizeExecution_changes {input : FinalizeInput}
    (h : s.finalizeExecution host input = .ok s') : ReflTransGen (Change time) s s' := by
  simp only [finalizeExecution, bind_ok] at h
  obtain ⟨frame, hframe, ⟨frame', next, recovered⟩, hconclude, updated, hupdate, closed, hclose,
    haudit⟩ := h
  have hexecutes := requireExecution_ok hframe
  obtain ⟨hchanges, hrun, hplan, hnext⟩ : ReflTransGen (Change time) s recovered ∧ _ :=
    concludeExecution_changes hexecutes.running hexecutes.phase hconclude
  have hmem := (selectProposal_some hrun.selected).1
  refine (hchanges.trans ?_).trans (insertAudit_changes haudit ?_)
  · rcases hnext with ⟨hmove, hstatus⟩ | ⟨status, hfinish, hstatus⟩
    · rw [hstatus] at hclose
      cases hclose
      rw [updateActionState_eq hupdate]
      exact .single (.act hmem hrun.action hrun.state hrun.plan hmove)
    · rw [hstatus] at hclose
      simp only [closeClaim, bind_ok, reject_ok, Bool.not_eq_false', any_eq_true,
        Except.ok.injEq] at hclose
      obtain ⟨_, hclaim, rfl⟩ := hclose
      rw [updateActionState_eq hupdate] at hclaim ⊢
      rw [← hexecutes.key, ← hplan] at hclaim ⊢
      exact .single (.close hmem hrun.action hrun.state hrun.plan hfinish hclaim)
  · simp only [finalAudit]
    split <;> simp

end BalanceFrame.Workflow
