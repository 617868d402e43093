import BalanceFrame.Workflow.Tables
import Mathlib.Data.List.Induction

/-!
# One execution, one quorum

Who gets `isOwner = true` of `acquireProposalExecution`, and what it costs. `Claimants` ties the
acquisition rows of a run to the calls that own an execution; `NotRevived` says that an approval
that is no longer active stays so; `selectApprovals_ok` says what the approvals of an owner are.
-/

namespace BalanceFrame.Workflow

open Library List Bool
open Governance
open Relation (ReflTransGen)
open WorkflowStore

variable {c : Context} {input : AcquireInput} {a b : ApprovalRow} {now : String} {result : Acquired}
  {op : Op} {eligible selected : List ApprovalRow}

variable {host : Host} {time : Option String} {s s' s₀ : WorkflowStore}

/-! ## Approvals over time -/

/-- An approval stays, and is active only as long as its row is untouched. -/
def NotRevived (s t : WorkflowStore) : Prop :=
  ∀ a ∈ s.approvals, ∃ b ∈ t.approvals, b.id = a.id ∧ (b.status = .active → b = a)

theorem NotRevived.of_approvals (h : s'.approvals = s.approvals) : NotRevived s s' := by
  intro a ha
  exact ⟨a, h ▸ ha, rfl, fun _ => rfl⟩

theorem NotRevived.refl (s : WorkflowStore) : NotRevived s s := .of_approvals rfl

theorem NotRevived.trans {t : WorkflowStore} (h : NotRevived s s') (h' : NotRevived s' t) :
    NotRevived s t := by
  intro a ha
  obtain ⟨b, hb, hid, hsame⟩ := h a ha
  obtain ⟨c, hc, hid', hsame'⟩ := h' b hb
  refine ⟨c, hc, hid'.trans hid, fun hactive => ?_⟩
  have hcb : c = b := hsame' hactive
  subst hcb
  exact hsame hactive

theorem Change.notRevived (h : Change time s s') : NotRevived s s' := by
  cases h with
  | aside hkept _ =>
    obtain ⟨f, new, rfl, hf, -⟩ := hkept
    intro a ha
    exact ⟨f a, mem_append_left _ (mem_map_of_mem ha), hf a ha⟩
  | _ => exact .of_approvals rfl

theorem Direct.notRevived (h : Direct s op s') : NotRevived s s' := by
  cases h <;> exact .of_approvals rfl

theorem run_notRevived (hk : Keyed s) (ops : List Op) :
    Keyed (run host s ops) ∧ NotRevived s (run host s ops) :=
  run_writes hk (.refl s) (fun _ _ _ _ hbefore h => hbefore.trans h.notRevived)
    fun _ _ _ _ _ hbefore h => hbefore.trans h.notRevived

theorem Keyed.approval_eq (hk : Keyed s) (ha : a ∈ s.approvals)
    (hb : b ∈ s.approvals) (h : a.id = b.id) : a = b :=
  inj_on_of_nodup_map hk.approvals ha hb h

theorem NotRevived.unchanged (h : NotRevived s s') (hk : Keyed s')
    (ha : a ∈ s'.approvals) (hactive : a.status = .active) (hb : b ∈ s.approvals)
    (hid : b.id = a.id) : b = a := by
  obtain ⟨c, hc, hsame, hkeep⟩ := h b hb
  have hca : c = a := hk.approval_eq hc ha (hsame.trans hid)
  subst hca
  exact (hkeep hactive).symm

theorem NotRevived.stays (h : NotRevived s s') (hk : Keyed s')
    (ha : a ∈ s.approvals) (hactive : a.status ≠ .active) (hb : b ∈ s'.approvals)
    (hid : b.id = a.id) : b.status ≠ .active := by
  intro hrevived
  obtain ⟨c, hc, hsame, hkeep⟩ := h a ha
  have hcb : c = b := hk.approval_eq hc hb (hsame.trans hid.symm)
  subst hcb
  exact hactive (hkeep hrevived ▸ hrevived)

/-! ## The approvals of an owner -/

/-- An approval of a proposal that counts at a time: active, of its payload and the current policy,
by a current member with the authority to approve. -/
structure InForce (host : Host) (s : WorkflowStore) (c : Context) (now : String)
    (a : ApprovalRow) : Prop where
  stored : a ∈ s.approvals
  active : a.status = .active
  proposal : a.proposalId = c.proposal.id
  payload : a.payloadHash = c.proposal.payloadHash
  policy : a.governancePolicyVersion = some (toString c.policy.version)
  member : ∃ m : SpaceMembership, s.getCurrentMembership c.spaceId a.actorId now = .ok (some m) ∧
    a.issuerMembershipId = some m.id
  authorized : s.approverAuthorized host c now a = true

/-- Approvals in force of distinct actors. -/
def Quorum (host : Host) (s : WorkflowStore) (c : Context) (now : String)
    (approvals : List ApprovalRow) : Prop :=
  (approvals.map (·.actorId)).Nodup ∧ ∀ a ∈ approvals, InForce host s c now a

theorem mem_selectActiveApprovals {proposalId : String}
    (h : a ∈ s.selectActiveApprovals proposalId now) : a ∈ s.approvals ∧ a.status = .active := by
  simp only [selectActiveApprovals, mem_sortOn, mem_filter, and_eq_true, beq_iff_eq] at h
  exact ⟨h.1, h.2.1.1.1.2⟩

theorem approvalCurrent_ok (h : approvalCurrent c now a = true) :
    a.proposalId = c.proposal.id ∧ a.payloadHash = c.proposal.payloadHash ∧
      a.governancePolicyVersion = some (toString c.policy.version) := by
  simp only [approvalCurrent, Option.any_eq_true_iff_get, and_eq_true, beq_iff_eq] at h
  obtain ⟨_, h⟩ := h
  exact ⟨h.1.1.1.1.1.1.1, h.1.1.1.1.2, h.1.1.1.2⟩

theorem approverCurrent_ok (h : s.approverCurrent c now a = .ok true) :
    ∃ m : SpaceMembership, s.getCurrentMembership c.spaceId a.actorId now = .ok (some m) ∧
      a.issuerMembershipId = some m.id := by
  unfold approverCurrent at h
  split at h
  · cases h
  · next membership hissuer =>
    obtain ⟨current, hcurrent, h⟩ := bind_ok.mp h
    simp only [Except.ok.injEq, Option.any_eq_true, beq_iff_eq] at h
    obtain ⟨m, rfl, hid⟩ := h
    obtain ⟨id, hid', hfind⟩ := Option.bind_eq_some_iff.mp hissuer
    have hmember := find?_some hfind
    simp only [and_eq_true, beq_iff_eq] at hmember
    exact ⟨m, hcurrent, by rw [hid', hid, hmember.2]⟩

theorem addEligible_quorum {eligible' : List ApprovalRow}
    (ha : a ∈ s.selectActiveApprovals c.proposal.id now)
    (hquorum : Quorum host s c now eligible)
    (h : s.addEligible host c now eligible a = .ok eligible') : Quorum host s c now eligible' := by
  unfold addEligible at h
  split at h
  · next hcurrent =>
    obtain ⟨current, hmember, h⟩ := bind_ok.mp h
    cases h
    split
    · next hadded =>
      simp only [and_eq_true, not_eq_true', contains_eq_mem,
        decide_eq_false_iff_not] at hadded
      obtain ⟨⟨rfl, hauthorized⟩, hfresh⟩ := hadded
      obtain ⟨hstored, hactive⟩ := mem_selectActiveApprovals ha
      obtain ⟨hproposal, hpayload, hpolicy⟩ := approvalCurrent_ok hcurrent
      refine ⟨?_, fun b hb => ?_⟩
      · rw [map_append]
        refine nodup_append.mpr ⟨hquorum.1, by simp, fun x hx y hy => ?_⟩
        obtain rfl := mem_singleton.mp hy
        intro heq
        have hactor : x = a.actorId := heq
        exact hfresh (hactor ▸ hx)
      · rcases mem_append.mp hb with hb | hb
        · exact hquorum.2 b hb
        · obtain rfl := mem_singleton.mp hb
          exact ⟨hstored, hactive, hproposal, hpayload, hpolicy, approverCurrent_ok hmember,
            hauthorized⟩
    · exact hquorum
  · cases h
    exact hquorum

theorem eligibleHumanApprovals_quorum
    (h : s.eligibleHumanApprovals host c now = .ok eligible) : Quorum host s c now eligible := by
  have hnone : Quorum host s c now [] := ⟨.nil, by simp⟩
  unfold eligibleHumanApprovals eligibleAmong at h
  split at h
  · exact foldlM_inv (P := Quorum host s c now)
      (fun _ _ _ ha hquorum hadd => addEligible_quorum ha hquorum hadd) hnone h
  · cases h
    exact hnone

theorem preferApproval_quorum
    {preferred : List ApprovalRow} (hquorum : Quorum host s c now eligible)
    (h : s.preferApproval input eligible = .ok preferred) : Quorum host s c now preferred := by
  unfold preferApproval at h
  split at h
  · cases h
    exact hquorum
  · split at h
    · next selected hfound =>
      cases h
      have hmem : selected ∈ eligible := mem_of_find?_eq_some hfound
      have hsub : (eligible.filter (·.id != selected.id)).Sublist eligible := filter_sublist
      refine ⟨?_, fun a ha => ?_⟩
      · rw [map_cons, nodup_cons]
        refine ⟨fun hactor => ?_, hquorum.1.sublist (hsub.map _)⟩
        obtain ⟨b, hb, heq⟩ := mem_map.mp hactor
        obtain ⟨hb, hne⟩ := mem_filter.mp hb
        have hsame : b = selected := inj_on_of_nodup_map hquorum.1 hb hmem heq
        simp [hsame] at hne
      · rcases mem_cons.mp ha with rfl | ha
        · exact hquorum.2 _ hmem
        · exact hquorum.2 a (hsub.subset ha)
    · cases h

/-- The approvers an execution needs: at least one, those the governance policy asks for, and for an
action those its financial policy asks for. -/
def Required (host : Host) (s : WorkflowStore) (input : AcquireInput) (c : Context)
    (required : Nat) : Prop :=
  ∃ financial, required = max (max 1 (s.authorizeGenericProposal host
      (c.authorization input.actorId (some input.auth) .propose .execute input.now)).requiredApprovers)
      financial ∧
    if c.proposal.operation = .consequentialAction then
      s.actionRequiredApprovers c.proposal.budgetId c.proposal.payload c.proposal.preconditions
        (some c.policy) c.facts = some financial
    else financial = 0

theorem requiredApprovals_ok {required : Nat}
    (h : s.requiredApprovals c (s.authorizeGenericProposal host
      (c.authorization input.actorId (some input.auth) .propose .execute input.now)) =
        some required) : Required host s input c required := by
  unfold requiredApprovals at h
  split at h
  · next hop =>
    obtain ⟨financial, hfinancial, rfl⟩ := Option.map_eq_some_iff.mp h
    exact ⟨financial, rfl, by rw [if_pos hop]; exact hfinancial⟩
  · next hop =>
    cases h
    exact ⟨0, by simp [requiredProposalApprovers], by rw [if_neg hop]⟩

/-- **The approvals of a new acquisition** are a quorum of the required size. -/
theorem selectApprovals_ok (h : s.selectApprovals host input c (s.authorizeGenericProposal host
      (c.authorization input.actorId (some input.auth) .propose .execute input.now)) =
        .ok selected) :
    Required host s input c selected.length ∧ Quorum host s c input.now selected := by
  simp only [selectApprovals, bind_ok, orStop_ok, reject_ok, Except.ok.injEq,
    decide_eq_false_iff_not, Nat.not_lt] at h
  obtain ⟨eligible, heligible, required, hrequired, preferred, hpreferred, _, henough, rfl⟩ := h
  have hquorum := preferApproval_quorum (eligibleHumanApprovals_quorum heligible) hpreferred
  have hcount : (preferred.take required).length = required := by
    rw [length_take] at henough ⊢
    omega
  refine ⟨by rw [hcount]; exact requiredApprovals_ok hrequired, ?_, fun a ha => ?_⟩
  · exact hquorum.1.sublist ((take_sublist _ _).map _)
  · exact hquorum.2 a (mem_of_mem_take ha)

/-! ## Consuming them -/

/-- A consumed approval. -/
def ApprovalRow.consumed (now : String) (a : ApprovalRow) : ApprovalRow :=
  { a with status := .consumed, consumedAt := some now }

theorem consumeApproval_approvals {approvals : List ApprovalRow}
    (h : approvals.foldlM (consumeApproval now) s = .ok s') :
    s'.approvals = s.approvals.map fun a =>
      if a.id ∈ approvals.map (·.id) then a.consumed now else a := by
  induction approvals generalizing s with
  | nil =>
    rw [foldlM_nil, pure_ok] at h
    cases h
    simp
  | cons x rest ih =>
    obtain ⟨u, hconsume, hrest⟩ := foldlM_cons_ok.mp h
    simp only [consumeApproval, bind_ok, Except.ok.injEq] at hconsume
    obtain ⟨_, _, rfl⟩ := hconsume
    rw [ih hrest, map_map]
    refine map_congr_left fun a _ => ?_
    by_cases hx : a.id = x.id
    · by_cases hrest : x.id ∈ rest.map (·.id)
      · simp [hx, hrest, ApprovalRow.consumed]
      · simp [hx, hrest, ApprovalRow.consumed]
    · simp [hx]

/-! ## Owners -/

/-- What a call that gets `isOwner = true` found and did. -/
structure Owns (host : Host) (s : WorkflowStore) (input : AcquireInput) (result : Acquired)
    (s' : WorkflowStore) (c : Context) (selected : List ApprovalRow) : Prop where
  proposal : s.selectProposal input.proposalId = some c.proposal
  unexpired : ∃ now expiry, timestampMillis input.now = some now ∧
    timestampMillis c.proposal.expiresAt = some expiry ∧ now < expiry
  unsuperseded : truthy c.proposal.supersededAt = none
  envelope : host.proposalHashMatches c.proposal = true ∧
    input.payloadHash = c.proposal.payloadHash
  policy : s.governance.getPolicy c.spaceId = some c.policy
  required : Required host s input c selected.length
  quorum : Quorum host s c input.now selected
  consumed : result.approvals = selected.map (·.consumed input.now)
  approvals : s'.approvals = s.approvals.map fun a =>
    if a.id ∈ selected.map (·.id) then a.consumed input.now else a
  unacquired : ∀ a ∈ s.acquisitions, a.proposalId ≠ input.proposalId
  acquisitions : s'.acquisitions = s.acquisitions ++ [acquisitionRow input]

theorem executionPolicy_ok {p : ProposalRow} {spaceId : String}
    {policy : PolicyRow} (h : s.executionPolicy input p = .ok (spaceId, policy)) :
    s.governance.getPolicy spaceId = some policy := by
  simp only [executionPolicy, bind_ok, boundPolicy, orStop_ok] at h
  obtain ⟨⟨_, _⟩, ⟨_, _, _, _, _, _, _, _, _, _, _, hpolicy, _, _, hbound⟩, _, _, _, _, _, _, h⟩ := h
  cases hbound
  cases h
  exact hpolicy

theorem acquireNew_owns {authorization : AuthorizationResult}
    (hnone : s.selectProposalExecutionAcquisition input.proposalId = none)
    (hadmits : Admits host s input none c authorization)
    (h : s.acquireNew host input c authorization = .ok (result, s')) :
    result.isOwner = true ∧ ∃ selected, Owns host s input result s' c selected := by
  simp only [acquireNew, bind_ok] at h
  obtain ⟨_, _, selected, hselected, _, _, claimed, hclaim, consumed, hconsumed, audited,
    haudit, begun, hbegun, h⟩ := h
  cases h
  obtain rfl := hadmits.authorized
  obtain ⟨hrequired, hquorum⟩ := selectApprovals_ok hselected
  obtain ⟨hunexpired, hunsuperseded, hhash, hpayload⟩ := checkAcquirable_ok hnone hadmits.acquirable
  obtain ⟨-, hacquisitions, rfl⟩ := insertClaim_ok hclaim
  have happrovals := consumeApproval_approvals hconsumed
  obtain ⟨approvals, rfl, -⟩ := consumeApproval_changes (some input.now) hconsumed
  obtain ⟨-, rfl⟩ := insertAudit_ok.mp haudit
  have hselect : s.selectProposal c.proposal.id = some c.proposal := by
    rw [(selectProposal_some hadmits.selected).2]
    exact hadmits.selected
  have hbegun' : s'.approvals = approvals ∧
      s'.acquisitions = s.acquisitions ++ [acquisitionRow input] := by
    rcases beginAction_ok hbegun hselect with ⟨-, rfl⟩ | ⟨-, _, -, -, -, rfl⟩
    · exact ⟨rfl, rfl⟩
    · exact ⟨rfl, rfl⟩
  exact ⟨rfl, selected, {
    proposal := hadmits.selected
    unexpired := hunexpired
    unsuperseded := hunsuperseded
    envelope := ⟨hhash, hpayload⟩
    policy := executionPolicy_ok hadmits.policy
    required := hrequired
    quorum := hquorum
    consumed := rfl
    approvals := hbegun'.1.trans happrovals
    unacquired := fun a ha => (hacquisitions a ha).1
    acquisitions := hbegun'.2 }⟩

/-- **A call that returns** owns the execution, or finds it acquired by the same actor and key. -/
theorem acquireExecution_ok (h : s.acquireExecution host input none = .ok (result, s')) :
    (result.isOwner = true ∧ ∃ c selected, Owns host s input result s' c selected) ∨
    (result.isOwner = false ∧ s' = s ∧ ∃ a ∈ s.acquisitions, a.proposalId = input.proposalId ∧
      a.actorId = input.actorId ∧ a.idempotencyKey = input.idempotencyKey) := by
  simp only [acquireExecution, bind_ok] at h
  obtain ⟨⟨c, authorization⟩, hadmit, h⟩ := h
  split at h
  · next acquisition hsome =>
    obtain ⟨_, hreplay, h⟩ := bind_ok.mp h
    cases h
    simp only [replayAcquisition, bind_ok, reject_ok, bne_eq_false_iff_eq] at hreplay
    obtain ⟨_, hactor, _, hkey, -⟩ := hreplay
    have hid := find?_some hsome
    exact .inr ⟨rfl, rfl, acquisition, mem_of_find?_eq_some hsome, by simpa using hid, hactor,
      hkey⟩
  · cases h
  · next hnone _ =>
    obtain ⟨howner, selected, howns⟩ := acquireNew_owns hnone (admitExecution_ok hadmit) h
    exact .inl ⟨howner, c, selected, howns⟩

theorem acquireExecution_replays
    (h : s.acquireExecution host input none = .ok (result, s')) (hreplay : result.isOwner = false) :
    result.approvals = [] := by
  simp only [acquireExecution, bind_ok] at h
  obtain ⟨⟨c, authorization⟩, hadmit, h⟩ := h
  split at h
  · obtain ⟨_, h⟩ := rest_ok h
    cases h
    rfl
  · cases h
  · next hnone _ =>
    rw [(acquireNew_owns hnone (admitExecution_ok hadmit) h).1] at hreplay
    cases hreplay

/-! ## Acquisitions over a run -/

/-- A call of a run that got `isOwner = true`. -/
def OwnerCall (host : Host) (s₀ : WorkflowStore) (ops : List Op) (input : AcquireInput) : Prop :=
  ∃ before after result s', ops = before ++ .acquireExecution input :: after ∧
    (run host s₀ before).acquireExecution host input none = .ok (result, s') ∧
    result.isOwner = true

/-- The acquisitions of a store are those of the calls of a run. -/
def Claimants (host : Host) (s₀ : WorkflowStore) (ops : List Op) (s : WorkflowStore) : Prop :=
  ∀ a, a ∈ s.acquisitions ↔ ∃ input, OwnerCall host s₀ ops input ∧ a = acquisitionRow input

theorem acquisitions_of_other (hother : ∀ input, op ≠ .acquireExecution input)
    (hids : DistinctIds s) (h : apply host s op = .ok s') : s'.acquisitions = s.acquisitions := by
  have hchange {t t' : WorkflowStore} (h : Change none t t') : t'.acquisitions = t.acquisitions := by
    cases h with
    | acquire hacquires | acquireAction hacquires => exact absurd hacquires.now (by simp)
    | _ => rfl
  obtain hwrites | hwrite : ReflTransGen (Change none) s s' ∨ Direct s op s' :=
    apply_other_changes hother hids h
  · clear h
    induction hwrites with
    | refl => rfl
    | tail _ hwrite ih => exact (hchange hwrite).trans ih
  · cases hwrite <;> rfl

theorem ownerCall_snoc {ops : List Op} :
    OwnerCall host s₀ (ops ++ [op]) input ↔ OwnerCall host s₀ ops input ∨
      op = .acquireExecution input ∧ ∃ result s',
        (run host s₀ ops).acquireExecution host input none = .ok (result, s') ∧
        result.isOwner = true := by
  constructor
  · rintro ⟨before, after, result, s', hops, hcall, howner⟩
    induction after using List.reverseRecOn with
    | nil =>
      obtain ⟨rfl, hop⟩ := append_inj' hops rfl
      cases hop
      exact .inr ⟨rfl, result, s', hcall, howner⟩
    | append_singleton after last _ =>
      have hops' : ops ++ [op] = (before ++ .acquireExecution input :: after) ++ [last] := by
        simpa using hops
      exact .inl ⟨before, after, result, s', (append_inj' hops' rfl).1, hcall, howner⟩
  · rintro (⟨before, after, result, s', rfl, hcall, howner⟩ | ⟨rfl, result, s', hcall, howner⟩)
    · exact ⟨before, after ++ [op], result, s', by simp, hcall, howner⟩
    · exact ⟨ops, [], result, s', rfl, hcall, howner⟩

theorem run_snoc (s : WorkflowStore) (ops : List Op) (op : Op) :
    run host s (ops ++ [op]) = next host (run host s ops) op := by
  simp [run_append]

theorem run_claimants (hk : Keyed s₀) (hnone : s₀.acquisitions = []) (ops : List Op) :
    Claimants host s₀ ops (run host s₀ ops) := by
  induction ops using List.reverseRecOn with
  | nil =>
    intro a
    simp [OwnerCall, hnone]
  | append_singleton ops op ih =>
    intro a
    have hkeyed : Keyed (run host s₀ ops) := (run_notRevived hk ops).1
    rw [run_snoc]
    simp only [ownerCall_snoc]
    by_cases hacquire : ∃ input, op = .acquireExecution input
    · obtain ⟨input, rfl⟩ := hacquire
      cases hcall : (run host s₀ ops).acquireExecution host input none with
      | error refusal =>
        have hnext : next host (run host s₀ ops) (.acquireExecution input) = run host s₀ ops := by
          simp [next, apply, hcall, valueOr, Functor.map, Except.map]
        rw [hnext, ih a]
        refine exists_congr fun other => and_congr_left fun _ => (or_iff_left ?_).symm
        rintro ⟨heq, result, s', hother, -⟩
        cases heq
        rw [hcall] at hother
        cases hother
      | ok outcome =>
        obtain ⟨result, s'⟩ := outcome
        have hnext : next host (run host s₀ ops) (.acquireExecution input) = s' :=
          next_of_ok host (by simp [apply, hcall, Functor.map, Except.map])
        rw [hnext]
        rcases acquireExecution_ok hcall with ⟨howner, _, _, howns⟩ | ⟨hreplay, rfl, -⟩
        · rw [howns.acquisitions, mem_append, ih a, mem_singleton]
          constructor
          · rintro (⟨other, hother, rfl⟩ | rfl)
            · exact ⟨other, .inl hother, rfl⟩
            · exact ⟨input, .inr ⟨rfl, result, s', hcall, howner⟩, rfl⟩
          · rintro ⟨other, hother | ⟨heq, -⟩, rfl⟩
            · exact .inl ⟨other, hother, rfl⟩
            · cases heq
              exact .inr rfl
        · rw [ih a]
          refine exists_congr fun other => and_congr_left fun _ => (or_iff_left ?_).symm
          rintro ⟨heq, result', s'', hother, howner⟩
          cases heq
          rw [hcall] at hother
          cases hother
          rw [hreplay] at howner
          cases howner
    · have hsame : (next host (run host s₀ ops) op).acquisitions =
          (run host s₀ ops).acquisitions := by
        unfold next
        cases happly : apply host (run host s₀ ops) op with
        | error refusal => rfl
        | ok s' =>
          exact acquisitions_of_other (fun input heq => hacquire ⟨input, heq⟩) hkeyed.proposals happly
      rw [hsame, ih a]
      refine exists_congr fun other => and_congr_left fun _ => (or_iff_left ?_).symm
      rintro ⟨heq, -⟩
      exact hacquire ⟨other, heq⟩

/-- An approval that a call of a run uses: untouched in every store before the call, active in none
after it, and so consumed by no later call. -/
structure UsedOnce (host : Host) (s₀ : WorkflowStore) (before : List Op) (input : AcquireInput)
    (a : ApprovalRow) : Prop where
  untouched : ∀ first rest, before = first ++ rest →
    ∀ b ∈ (run host s₀ first).approvals, b.id = a.id → b = a
  spent : ∀ after, ∀ b ∈ (run host s₀ (before ++ .acquireExecution input :: after)).approvals,
    b.id = a.id → b.status ≠ .active
  unshared : ∀ after later result s',
    (run host s₀ (before ++ .acquireExecution input :: after)).acquireExecution host later none =
      .ok (result, s') → a.id ∉ result.approvals.map (·.id)

theorem Owns.active (h : Owns host s input result s' c selected) {id : String}
    (hid : id ∈ result.approvals.map (·.id)) :
    ∃ a ∈ selected, a.id = id ∧ a ∈ s.approvals ∧ a.status = .active := by
  rw [h.consumed, map_map] at hid
  obtain ⟨a, ha, rfl⟩ := mem_map.mp hid
  have hforce := h.quorum.2 a ha
  exact ⟨a, ha, rfl, hforce.stored, hforce.active⟩

theorem Owns.usedOnce {before : List Op} (hk : Keyed s₀)
    (hcall : (run host s₀ before).acquireExecution host input none = .ok (result, s'))
    (h : Owns host (run host s₀ before) input result s' c selected)
    (ha : a ∈ selected) : UsedOnce host s₀ before input a := by
  have hforce := h.quorum.2 a ha
  have hnow : Keyed (run host s₀ before) := (run_notRevived hk before).1
  have hnext : next host (run host s₀ before) (.acquireExecution input) = s' :=
    next_of_ok host (by simp [apply, hcall, Functor.map, Except.map])
  have hrun (after : List Op) : run host s₀ (before ++ .acquireExecution input :: after) =
      run host s' after := by
    rw [run_append, run_cons, hnext]
  have hkeyed : Keyed s' := by
    have hone : Keyed (run host s₀ (before ++ [.acquireExecution input])) := (run_notRevived hk _).1
    rwa [hrun] at hone
  have hconsumed : a.consumed input.now ∈ s'.approvals := by
    rw [h.approvals]
    refine mem_map.mpr ⟨a, hforce.stored, ?_⟩
    rw [if_pos (mem_map_of_mem ha)]
  have hspent (after : List Op) (b : ApprovalRow) (hb : b ∈ (run host s' after).approvals)
      (hid : b.id = a.id) : b.status ≠ .active := by
    obtain ⟨hkeyed', hlater⟩ : Keyed (run host s' after) ∧ NotRevived s' (run host s' after) :=
      run_notRevived hkeyed after
    exact hlater.stays hkeyed' hconsumed (by simp [ApprovalRow.consumed]) hb hid
  refine ⟨fun first rest hbefore b hb hid => ?_, fun after b hb hid => ?_,
    fun after later result' t hlater hshared => ?_⟩
  · -- the rest of the run leads from the earlier store to the call
    have hfirst : Keyed (run host s₀ first) := (run_notRevived hk first).1
    have hrest : NotRevived (run host s₀ first) (run host (run host s₀ first) rest) :=
      (run_notRevived hfirst rest).2
    rw [← run_append, ← hbefore] at hrest
    exact hrest.unchanged hnow hforce.stored hforce.active hb hid
  · rw [hrun] at hb
    exact hspent after b hb hid
  · rw [hrun] at hlater
    rcases acquireExecution_ok hlater with ⟨-, _, _, howns⟩ | ⟨hreplay, -⟩
    · obtain ⟨b, -, hid, hb, hactive⟩ := howns.active hshared
      exact hspent after b hb hid hactive
    · simp [acquireExecution_replays hlater hreplay] at hshared

/-- **An execution is acquired at most once, by a full quorum.** After any run from an empty store, a
call that stops changes nothing; one that gets `isOwner = true` is the first for its proposal, which
is open and matches its hash, and consumes a quorum of the required size whose approvals were never
used before and are never used again; any other call changes nothing either, and comes from the
actor and with the key of the one owner. -/
theorem execution_acquired_once (host : Host) (governance : GovernanceDb)
    (policyHashes : List (String × String × String)) (before : List Op) (input : AcquireInput) :
    let s₀ := emptyStore governance policyHashes
    let s := run host s₀ before
    (∀ refusal, s.acquireExecution host input none = .error refusal →
      next host s (.acquireExecution input) = s) ∧
    ∀ result s', s.acquireExecution host input none = .ok (result, s') →
      (result.isOwner = true ∧
        (∀ earlier, OwnerCall host s₀ before earlier → earlier.proposalId ≠ input.proposalId) ∧
        ∃ c selected, Owns host s input result s' c selected ∧
          ∀ a ∈ selected, UsedOnce host s₀ before input a) ∨
      (result.isOwner = false ∧ s' = s ∧ ∃ owner, OwnerCall host s₀ before owner ∧
        owner.proposalId = input.proposalId ∧ owner.actorId = input.actorId ∧
        owner.idempotencyKey = input.idempotencyKey) := by
  intro s₀ s
  have hk : Keyed s₀ := emptyStore_keyed governance policyHashes
  have hclaimants : Claimants host s₀ before s := run_claimants hk rfl before
  refine ⟨fun refusal hstop => ?_, fun result s' hcall => ?_⟩
  · simp [next, apply, hstop, valueOr, Functor.map, Except.map]
  · rcases acquireExecution_ok hcall with ⟨howner, c, selected, howns⟩ |
      ⟨hreplay, rfl, a, ha, hid, hactor, hkey⟩
    · refine .inl ⟨howner, fun earlier hearlier heq => ?_, c, selected, howns,
        fun a ha => howns.usedOnce hk hcall ha⟩
      exact howns.unacquired _ ((hclaimants _).mpr ⟨earlier, hearlier, rfl⟩) heq
    · obtain ⟨owner, howner, rfl⟩ := (hclaimants a).mp ha
      exact .inr ⟨hreplay, rfl, owner, howner, hid, hactor, hkey⟩

example : ((run walletHost walletStore (acquireRun.take 2)).acquireExecution walletHost acquireWallet
    none).toOption.map (fun r => (r.1.isOwner, r.1.approvals.map (·.id))) =
      some (true, ["approval"]) := by
  decide +kernel

end BalanceFrame.Workflow
