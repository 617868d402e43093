import BalanceFrame.Holds.Rows

/-!
# Every call is a list of deeds

`apply_deeds`: a call that succeeds is a list of deeds of its budget, for any `Supply` that the
call's input meets (`Supplies`). Saving a policy changes the policy tables first
(`savePolicy_deeds`).
-/

namespace BalanceFrame.Holds

open Library List Bool
open Liquidity (LiquidityClaimBundle LiquidityClaimEffect LiquidityClaimState)
open Workflow (Refusal Guarded)

/-- The proposals have distinct ids. -/
structure DistinctProposals (s : Store) : Prop where
  completions : (s.completions.map (·.id)).Nodup
  transfers : (s.transfers.map (·.id)).Nodup

/-- The bundle of a new prospective claim. -/
def newBundle (claim : ProspectiveClaim) (expiresAt : String) (effect : LiquidityClaimEffect) :
    LiquidityClaimBundle :=
  { id := claim.claimId
    creationSnapshotId := claim.snapshotId
    creationPolicyVersion := claim.policyVersion
    state := .active
    expiresAt
    initiated := false
    effects := [effect] }

/-- The bundle of a new transfer. -/
def planBundle (plan : TransferPlan) (id : String) : LiquidityClaimBundle :=
  { id
    creationSnapshotId := plan.snapshotId
    creationPolicyVersion := plan.policyVersion
    state := .active
    expiresAt := plan.expiresAt
    initiated := false
    effects := plan.reservations }

/-- What a step's input brings is in the supply. -/
def Supplies (host : Host) (supply : Supply) (step : Step) : Prop :=
  match step.op with
  | .saveSpendSession input => ∀ claim, input.claim = some claim →
    supply.claim .session input.id claim
  | .saveProspectiveClaim input => ∀ policy expiresAt effect,
    prospectiveInput host input.claim policy step.call.now = .ok (expiresAt, effect) →
      supply.claim .prospective input.claim.claimId (newBundle input.claim expiresAt effect)
  | .admitSessionCompletion input => supply.session input.sessionId input.payload.sessionId ∧
    (validateCompletionPayload host input.payload step.call.now = .ok () →
      ∀ policy session,
        validateCompletionClaim host input.payload input.claim policy session step.call.now =
          .ok () → supply.claim .sessionCompletion input.proposalId input.claim)
  | .admitTransferProposal input =>
    supply.claim .proposal input.proposalId (planBundle input.plan input.proposalId)
  | .reportTransferInitiated input => supply.initiation input.proposalId
  | .verifyTransferSettlement input settlement => ∀ r effects, settlement = some r →
    r.wellFormed = true → r.claimEffects = some effects → supply.effects input.proposalId effects
  | _ => True

variable {host : Host} {supply : Supply} {budgetId now : String} {s s' : Store} {call : Call}

/-! ## Statements -/

theorem rest_deeds (same : SameTables s s') (ht : s'.transfers = s.transfers)
    (he : s'.transferEvidence = s.transferEvidence) : Deeds host supply budgetId s s' :=
  .single (.neutral (.rest same) (.of_claims same.claims same.completions ht he))

theorem record_deeds {key operation identity : String}
    (h : s.record key operation identity = .ok s') : Deeds host supply budgetId s s' := by
  obtain ⟨_, h⟩ := rest_ok h
  cases h
  exact rest_deeds ⟨rfl, rfl, rfl, rfl, rfl, rfl⟩ rfl rfl

variable {set : ClaimSet} {expected outcome : String} {t : Store} {input : SaveSessionInput}

theorem read_deeds (h : s.claimSet host budgetId now = .ok (set, s')) :
    Deeds host supply budgetId s s' :=
  .single (.neutral (.read h) (.read h))

theorem insertApproval_deeds {row : ApprovalRow} (h : s.insertApproval row = .ok s') :
    Deeds host supply budgetId s s' := by
  obtain ⟨_, h⟩ := rest_ok h
  cases h
  exact rest_deeds ⟨rfl, rfl, rfl, rfl, rfl, rfl⟩ rfl rfl

theorem validate_ok {plan : Option (String × String)}
    {outcome : Option Validation} {rejectInvalid : Bool} {v : Validation}
    (h : s.validate host budgetId expected now plan outcome rejectInvalid = .ok (v, s')) :
    ∃ set, s.claimSet host budgetId now = .ok (set, s') ∧
      s'.checkValidation host budgetId expected now plan outcome rejectInvalid set = .ok v := by
  obtain ⟨⟨set, t⟩, hset, h⟩ := bind_ok.1 h
  obtain ⟨w, hw, h⟩ := bind_ok.1 h
  simp only [Except.ok.injEq, Prod.mk.injEq] at h
  obtain ⟨rfl, rfl⟩ := h
  exact ⟨set, hset, hw⟩

theorem validate_deeds {plan : Option (String × String)}
    {outcome : Option Validation} {rejectInvalid : Bool} {v : Validation}
    (h : s.validate host budgetId expected now plan outcome rejectInvalid = .ok (v, s')) :
    Deeds host supply budgetId s s' := by
  obtain ⟨set, hset, -⟩ := validate_ok h
  exact read_deeds hset

theorem afterClaimSet_deeds : Deeds host supply budgetId s (s.afterClaimSet host budgetId now) := by
  unfold Store.afterClaimSet
  split
  · exact read_deeds ‹_›
  · exact .refl

@[simp] theorem afterClaimSet_completions :
    (s.afterClaimSet host budgetId now).completions = s.completions := by
  unfold Store.afterClaimSet
  split
  · next h =>
    obtain ⟨-, rfl, -⟩ := Store.claimSet_ok h
    simp
  · rfl

theorem restate_deeds {kind : OwnerKind} {ownerId : String} {c : ClaimRow}
    {bundle : LiquidityClaimBundle} (hk : kind.free)
    (hc : s.ownedClaim budgetId kind ownerId = some c) (hid : bundle.id = c.bundle.id)
    (he : bundle.effects = c.bundle.effects) (hend : kind = .prospective → holds bundle = false)
    (h : s.persistClaim budgetId kind ownerId bundle = .ok s') :
    Deeds host supply budgetId s s' :=
  .single (.neutral (.restate hc hid (.inl he) hend h) (.persist hk h))

/-! ## Closing proposals -/

theorem closeCompletion_completions {p : Completion}
    (h : s.closeCompletion p outcome now = .ok s') :
    ∃ f : Completion → Completion, (∀ r, (f r).id = r.id) ∧
      s'.completions = s.completions.map (fun r => if r.id = p.id then f r else r) ∧
        s'.transfers = s.transfers := by
  unfold Store.closeCompletion at h
  dsimp only at h
  split at h
  · rw [Store.updateCompletion_ok h]
    exact ⟨fun r => { r with
      phase := p.phase
      outcome := some outcome
      version := r.version + 1
      supersededAt := supersededBy (some outcome) now r.supersededAt }, fun _ => rfl, rfl, rfl⟩
  · obtain ⟨t, ht, h⟩ := bind_ok.1 h
    rw [Store.updateCompletion_ok h]
    have hframe : t.completions = s.completions ∧ t.transfers = s.transfers := by
      obtain ⟨c, -, ⟨-, rfl⟩ | ⟨-, hp⟩⟩ := Store.changeCompletionClaim_ok ht
      · exact ⟨rfl, rfl⟩
      · obtain ⟨claims, rfl⟩ := Store.persistClaim_frame hp
        exact ⟨rfl, rfl⟩
    refine ⟨fun r => { r with
      phase := .closed
      outcome := some outcome
      version := r.version + 1
      supersededAt := supersededBy (some outcome) now r.supersededAt }, fun _ => rfl, ?_, hframe.2⟩
    rw [Store.setCompletion, hframe.1]

theorem closeTransfer_transfers {p : Transfer} (h : s.closeTransfer p outcome now = .ok s') :
    ∃ f : Transfer → Transfer, (∀ r, (f r).id = r.id) ∧
      s'.transfers = s.transfers.map (fun r => if r.id = p.id then f r else r) ∧
        s'.completions = s.completions := by
  unfold Store.closeTransfer at h
  dsimp only at h
  split at h
  · rw [Store.updateTransfer_ok h]
    exact ⟨Store.moved .initiated (some outcome) now, fun _ => rfl, rfl, rfl⟩
  · obtain ⟨t, ht, h⟩ := bind_ok.1 h
    rw [Store.updateTransfer_ok h]
    have hframe : t.transfers = s.transfers ∧ t.completions = s.completions := by
      obtain ⟨c, -, ⟨-, rfl⟩ | ⟨-, hp⟩⟩ := Store.changeClaim_ok ht
      · exact ⟨rfl, rfl⟩
      · obtain ⟨claims, rfl⟩ := Store.persistClaim_frame hp
        exact ⟨rfl, rfl⟩
    refine ⟨Store.moved .closed (some outcome) now, fun _ => rfl, ?_, hframe.2⟩
    rw [hframe.1]

theorem closeCompletions_deeds {l : List Completion} :
    ∀ {s s' : Store}, (l.map (·.id)).Nodup → (∀ p ∈ l, p ∈ s.completions ∧
      p.budgetId = budgetId ∧ (p.phase = .proposed ∨ p.phase = .approved)) →
      l.foldlM (fun s p => s.closeCompletion p outcome now) s = .ok s' →
        Deeds host supply budgetId s s' := by
  induction l with
  | nil =>
    intro s s' _ _ h
    cases h
    exact .refl
  | cons p l ih =>
    intro s s' hnd hall h
    obtain ⟨t, ht, h⟩ := foldlM_cons_ok.1 h
    rw [map_cons, nodup_cons] at hnd
    obtain ⟨hp, hb, hpending⟩ := hall p mem_cons_self
    refine .head (.closeCompletion hp hb hpending ht) (ih hnd.2 (fun q hq => ?_) h)
    obtain ⟨hmem, hqb⟩ := hall q (mem_cons_of_mem _ hq)
    obtain ⟨f, -, hcompletions, -⟩ := closeCompletion_completions ht
    refine ⟨?_, hqb⟩
    have hne : q.id ≠ p.id := fun e => hnd.1 (e ▸ mem_map_of_mem hq)
    rw [hcompletions]
    exact mem_map.2 ⟨q, hmem, by simp [hne]⟩

theorem closeTransfers_deeds {l : List Transfer} :
    ∀ {s s' : Store}, (l.map (·.id)).Nodup → (∀ p ∈ l, p ∈ s.transfers ∧
      p.budgetId = budgetId ∧ p.phase ≠ .confirmed) →
      l.foldlM (fun s p => s.closeTransfer p outcome now) s = .ok s' →
        Deeds host supply budgetId s s' := by
  induction l with
  | nil =>
    intro s s' _ _ h
    cases h
    exact .refl
  | cons p l ih =>
    intro s s' hnd hall h
    obtain ⟨t, ht, h⟩ := foldlM_cons_ok.1 h
    rw [map_cons, nodup_cons] at hnd
    obtain ⟨hp, hb, hopen⟩ := hall p mem_cons_self
    refine .head (.closeTransfer hp hb hopen ht) (ih hnd.2 (fun q hq => ?_) h)
    obtain ⟨hmem, hqb⟩ := hall q (mem_cons_of_mem _ hq)
    obtain ⟨f, -, htransfers, -⟩ := closeTransfer_transfers ht
    refine ⟨?_, hqb⟩
    have hne : q.id ≠ p.id := fun e => hnd.1 (e ▸ mem_map_of_mem hq)
    rw [htransfers]
    exact mem_map.2 ⟨q, hmem, by simp [hne]⟩

theorem closeTransfers_distinct {l : List Transfer} (hd : DistinctProposals s)
    (h : l.foldlM (fun s p => s.closeTransfer p outcome now) s = .ok s') :
    DistinctProposals s' ∧ s'.completions = s.completions := by
  refine foldlM_inv (P := fun t => DistinctProposals t ∧ t.completions = s.completions)
    (fun t t' p _ ht hc => ?_) ⟨hd, rfl⟩ h
  obtain ⟨f, hf, htransfers, hcompletions⟩ := closeTransfer_transfers hc
  refine ⟨⟨hcompletions ▸ ht.1.completions, ?_⟩, hcompletions.trans ht.2⟩
  have hids : (t'.transfers.map (·.id)) = t.transfers.map (·.id) := by
    rw [htransfers, map_map]
    refine map_congr_left fun r _ => ?_
    by_cases hr : r.id = p.id <;> simp [hr, hf]
  exact hids ▸ ht.1.transfers

theorem closeCompletions_distinct {l : List Completion} (hd : DistinctProposals s)
    (h : l.foldlM (fun s p => s.closeCompletion p outcome now) s = .ok s') :
    DistinctProposals s' := by
  refine foldlM_inv (P := DistinctProposals) (fun t t' p _ ht hc => ?_) hd h
  obtain ⟨f, hf, hcompletions, htransfers⟩ := closeCompletion_completions hc
  refine ⟨?_, htransfers ▸ ht.transfers⟩
  have hids : (t'.completions.map (·.id)) = t.completions.map (·.id) := by
    rw [hcompletions, map_map]
    refine map_congr_left fun r _ => ?_
    by_cases hr : r.id = p.id <;> simp [hr, hf]
  exact hids ▸ ht.completions

theorem invalidateProposals_deeds {sessionId : Option String} (hd : DistinctProposals s)
    (h : s.invalidateProposals budgetId now sessionId = .ok s') :
    Deeds host supply budgetId s s' ∧ DistinctProposals s' := by
  obtain ⟨t, ht, h⟩ := bind_ok.1 h
  obtain ⟨hdt, hcompletions⟩ := closeTransfers_distinct hd ht
  refine ⟨(closeTransfers_deeds (hd.transfers.sublist (filter_sublist.map _))
    (fun p hp => ?_) ht).trans (closeCompletions_deeds
      (hdt.completions.sublist (filter_sublist.map _)) (fun p hp => ?_) h),
    closeCompletions_distinct hdt h⟩
  · simp only [mem_filter, and_eq_true, beq_iff_eq, not_eq_true',
      or_eq_false_iff, beq_eq_false_iff_ne] at hp
    exact ⟨hp.1, hp.2.1.1, hp.2.1.2.1⟩
  · simp only [mem_filter, and_eq_true, beq_iff_eq, or_eq_true] at hp
    exact ⟨hp.1, hp.2.1.1, hp.2.1.2⟩

/-! ## Policies and sessions -/

/-- The policy tables after a policy was saved. -/
def withPolicy (s : Store) (budgetId : String) (policy : PolicyRow) : Store :=
  ({ s with policies := s.policies ++ [{ policy with budgetId }] } : Store).setCurrentPolicy
    budgetId policy.version

theorem savePolicy_deeds {policy : PolicyRow} {expectedVersion : Option String}
    (hd : DistinctProposals s) (h : s.savePolicy host call policy expectedVersion = .ok s') :
    (withPolicy s call.budgetId policy).invalidateProposals call.budgetId call.now none = .ok s' ∧
      Deeds host supply call.budgetId (withPolicy s call.budgetId policy) s' := by
  obtain ⟨_, h⟩ := rest_ok h
  obtain ⟨_, h⟩ := rest_ok h
  obtain ⟨_, h⟩ := rest_ok h
  obtain ⟨_, h⟩ := rest_ok h
  have hdistinct : DistinctProposals (withPolicy s call.budgetId policy) :=
    ⟨hd.completions, hd.transfers⟩
  exact ⟨h, (invalidateProposals_deeds hdistinct h).1⟩

/-- Claims keep their id and effects. -/
def KeepsClaims (s s' : Store) : Prop :=
  ∀ b k o c, s.ownedClaim b k o = some c → ∃ c', s'.ownedClaim b k o = some c' ∧
    c'.bundle.id = c.bundle.id ∧ c'.bundle.effects = c.bundle.effects

theorem KeepsClaims.rfl : KeepsClaims s s := fun _ _ _ c hc => ⟨c, hc, Eq.refl _, Eq.refl _⟩

theorem KeepsClaims.trans (h : KeepsClaims s t) (h' : KeepsClaims t s') : KeepsClaims s s' := by
  intro b k o c hc
  obtain ⟨d, hd, hid, he⟩ := h b k o c hc
  obtain ⟨e, he', hid', hee⟩ := h' b k o d hd
  exact ⟨e, he', hid'.trans hid, hee.trans he⟩

theorem KeepsClaims.read (h : s.claimSet host budgetId now = .ok (set, s')) : KeepsClaims s s' := by
  obtain ⟨-, rfl, -⟩ := Store.claimSet_ok h
  intro b k o c hc
  rw [Store.ownedClaim_reread, hc]
  exact ⟨_, Eq.refl _, by simp, by simp⟩

theorem expectedRevision_deeds {given : Option String}
    (h : s.expectedRevision host budgetId now given = .ok (expected, s')) :
    Deeds host supply budgetId s s' ∧ KeepsClaims s s' := by
  unfold Store.expectedRevision at h
  split at h
  · cases h
    exact ⟨.refl, .rfl⟩
  · obtain ⟨⟨set, t⟩, ht, h⟩ := bind_ok.1 h
    simp only [Except.ok.injEq, Prod.mk.injEq] at h
    obtain ⟨-, rfl⟩ := h
    exact ⟨read_deeds ht, .read ht⟩

theorem restated_after {kind : OwnerKind} {ownerId : String} {c : ClaimRow}
    {bundle : LiquidityClaimBundle} (hk : kind.free)
    (hc : s.ownedClaim budgetId kind ownerId = some c) (hkeep : KeepsClaims s t)
    (hid : bundle.id = c.bundle.id) (he : bundle.effects = c.bundle.effects)
    (hend : kind = .prospective → holds bundle = false)
    (h : t.persistClaim budgetId kind ownerId bundle = .ok s') :
    Deeds host supply budgetId t s' := by
  obtain ⟨d, hd, hid', he'⟩ := hkeep _ _ _ c hc
  exact restate_deeds hk hd (hid.trans hid'.symm) (he.trans he'.symm) hend h

theorem replaceSessionClaim_deeds {existing : Option LiquidityClaimBundle}
    (hs : ∀ claim, input.claim = some claim → supply.claim .session input.id claim)
    (hexisting : ∀ b, existing = some b →
      ∃ c, s.ownedClaim budgetId .session input.id = some c ∧ c.bundle = b)
    (hkeep : KeepsClaims s t) (h : t.replaceSessionClaim budgetId input existing = .ok s') :
    Deeds host supply budgetId t s' := by
  unfold Store.replaceSessionClaim at h
  split at h
  · next claim hclaim =>
    obtain ⟨_, h⟩ := rest_ok h
    exact .single (.neutral (.supplied (hs claim hclaim) (.inl rfl) h) (.persist (.inr rfl) h))
  · split at h
    · next b =>
      split at h
      · cases h
        exact .refl
      · obtain ⟨c, hc, hb⟩ := hexisting b rfl
        subst hb
        refine restated_after (.inr rfl) hc hkeep ?_ ?_ nofun h <;> rfl
    · cases h
      exact .refl

theorem putSession_deeds {row : SessionRow} : Deeds host supply budgetId s (s.putSession row) :=
  rest_deeds ⟨rfl, rfl, rfl, rfl, rfl, rfl⟩ rfl rfl

theorem DistinctProposals.of_eq (hd : DistinctProposals s) (hc : s'.completions = s.completions)
    (ht : s'.transfers = s.transfers) : DistinctProposals s' :=
  ⟨hc ▸ hd.completions, ht ▸ hd.transfers⟩

theorem replaceSessionClaim_proposals {existing : Option LiquidityClaimBundle}
    (h : s.replaceSessionClaim budgetId input existing = .ok s') :
    s'.completions = s.completions ∧ s'.transfers = s.transfers := by
  unfold Store.replaceSessionClaim at h
  split at h
  · obtain ⟨_, h⟩ := rest_ok h
    obtain ⟨claims, rfl⟩ := Store.persistClaim_frame h
    exact ⟨rfl, rfl⟩
  · split at h
    · split at h
      · cases h
        exact ⟨rfl, rfl⟩
      · obtain ⟨claims, rfl⟩ := Store.persistClaim_frame h
        exact ⟨rfl, rfl⟩
    · cases h
      exact ⟨rfl, rfl⟩

theorem claimSet_proposals (h : s.claimSet host budgetId now = .ok (set, s')) :
    s'.completions = s.completions ∧ s'.transfers = s.transfers := by
  obtain ⟨-, rfl, -⟩ := Store.claimSet_ok h
  simp

theorem expectedRevision_proposals {given : Option String}
    (h : s.expectedRevision host budgetId now given = .ok (expected, s')) :
    s'.completions = s.completions ∧ s'.transfers = s.transfers := by
  unfold Store.expectedRevision at h
  split at h
  · cases h
    exact ⟨rfl, rfl⟩
  · obtain ⟨⟨set, t⟩, ht, h⟩ := bind_ok.1 h
    simp only [Except.ok.injEq, Prod.mk.injEq] at h
    obtain ⟨-, rfl⟩ := h
    exact claimSet_proposals ht

theorem saveNewSession_deeds (hd : DistinctProposals s)
    (hs : ∀ claim, input.claim = some claim → supply.claim .session input.id claim)
    (h : s.saveNewSession host call input = .ok s') : Deeds host supply call.budgetId s s' := by
  obtain ⟨_, h⟩ := rest_ok h
  obtain ⟨_, h⟩ := rest_ok h
  obtain ⟨_, h⟩ := rest_ok h
  obtain ⟨⟨expected, t⟩, ht, h⟩ := bind_ok.1 h
  obtain ⟨⟨v, u⟩, hu, h⟩ := bind_ok.1 h
  obtain ⟨w, hw, h⟩ := bind_ok.1 h
  obtain ⟨x, hx, h⟩ := bind_ok.1 h
  obtain ⟨hdeeds, hkeep⟩ := @expectedRevision_deeds host supply _ _ _ _ _ _ ht
  obtain ⟨set, hset, -⟩ := validate_ok hu
  have hreplace : Deeds host supply call.budgetId u w := by
    refine replaceSessionClaim_deeds hs (fun b hb => ?_) (hkeep.trans (.read hset)) hw
    obtain ⟨_, -, hb⟩ := Option.bind_eq_some_iff.1 hb
    exact Option.map_eq_some_iff.1 hb
  have hproposals : (w.completions = s.completions) ∧ w.transfers = s.transfers := by
    obtain ⟨hc, hT⟩ := replaceSessionClaim_proposals hw
    obtain ⟨hc', hT'⟩ := claimSet_proposals hset
    obtain ⟨hc'', hT''⟩ := expectedRevision_proposals ht
    exact ⟨hc.trans (hc'.trans hc''), hT.trans (hT'.trans hT'')⟩
  have hdw : DistinctProposals (w.putSession
      { budgetId := call.budgetId
        id := input.id
        actorId := call.actorId
        version := input.expectedVersion + 1
        expiresAt := input.expiresAt }) := hd.of_eq hproposals.1 hproposals.2
  exact hdeeds.trans <| (read_deeds hset).trans <| hreplace.trans <| putSession_deeds.trans <|
    (invalidateProposals_deeds hdw hx).1.trans (record_deeds h)

theorem saveSpendSession_deeds (hd : DistinctProposals s)
    (hs : ∀ claim, input.claim = some claim → supply.claim .session input.id claim)
    (h : s.saveSpendSession host call input = .ok s') : Deeds host supply call.budgetId s s' := by
  obtain ⟨_, h⟩ := rest_ok h
  obtain ⟨_, h⟩ := rest_ok h
  obtain ⟨replayed, -, h⟩ := bind_ok.1 h
  cases replayed with
  | true =>
    cases h
    exact .refl
  | false => exact saveNewSession_deeds hd hs h

theorem releaseSessionClaim_deeds {id : String}
    (h : s.releaseSessionClaim budgetId id = .ok s') :
    Deeds host supply budgetId s s' ∧ s'.completions = s.completions ∧
      s'.transfers = s.transfers := by
  unfold Store.releaseSessionClaim at h
  split at h
  · next c hc =>
    split at h
    · cases h
      exact ⟨.refl, rfl, rfl⟩
    · refine ⟨restate_deeds (.inr rfl) hc ?_ ?_ nofun h, ?_⟩
      · rfl
      · rfl
      · obtain ⟨claims, rfl⟩ := Store.persistClaim_frame h
        exact ⟨rfl, rfl⟩
  · cases h
    exact ⟨.refl, rfl, rfl⟩

theorem cancelSpendSession_deeds {id : String} {expectedVersion : Nat} (hd : DistinctProposals s)
    (h : s.cancelSpendSession host call id expectedVersion = .ok s') :
    Deeds host supply call.budgetId s s' := by
  obtain ⟨session, -, h⟩ := bind_ok.1 h
  obtain ⟨_, h⟩ := rest_ok h
  obtain ⟨_, h⟩ := rest_ok h
  obtain ⟨replayed, -, h⟩ := bind_ok.1 h
  cases replayed with
  | true =>
    cases h
    exact .refl
  | false =>
    obtain ⟨_, h⟩ := rest_ok h
    obtain ⟨_, h⟩ := rest_ok h
    obtain ⟨_, h⟩ := rest_ok h
    obtain ⟨t, ht, h⟩ := bind_ok.1 h
    obtain ⟨u, hu, h⟩ := bind_ok.1 h
    obtain ⟨hdeeds, hc, hT⟩ := releaseSessionClaim_deeds ht
    have hdt : DistinctProposals t := hd.of_eq hc hT
    exact putSession_deeds.trans <| hdeeds.trans <|
      (invalidateProposals_deeds hdt hu).1.trans (record_deeds h)

/-! ## Prospective claims -/

theorem prospectiveInput_fits {claim : ProspectiveClaim} {policy : PolicyRow} {expiresAt : String}
    {effect : LiquidityClaimEffect}
    (h : prospectiveInput host claim policy now = .ok (expiresAt, effect)) :
    ClaimFits { claim with expiresAt := some expiresAt } [effect] := by
  simp only [prospectiveInput, bind_ok, orStop_ok] at h
  obtain ⟨_, _, _, _, _, _, _, _, _, _, ⟨kind, id⟩, hscope, _, _, _, _, _, _, _, _, _, _, _, _, h⟩ := h
  cases h
  exact ⟨_, rfl, hscope, rfl⟩

theorem assertNoDuplicateEffect_apart {effect : LiquidityClaimEffect} {source : Option String}
    (h : s.assertNoDuplicateEffect budgetId effect source = .ok ())
    (hset : s.claimSet host budgetId now = .ok (set, s')) :
    ∀ d ∈ s'.claims, d.budgetId = budgetId → holds d.bundle = true → ∀ e ∈ d.bundle.effects,
      e.kind = effect.kind → e.resourceId = effect.resourceId →
        e.economicObligationId ≠ effect.economicObligationId := by
  obtain ⟨-, rfl, -⟩ := Store.claimSet_ok hset
  intro d hd hb hholds e he hkind hresource hsame
  rw [Store.reread_claims] at hd
  obtain ⟨c, hc, rfl⟩ := mem_map.1 hd
  have hheld : Store.lapse host budgetId now c = c := by
    unfold Store.lapse at hholds ⊢
    split
    · next hlapsed => simp [hlapsed, holds] at hholds
    · rfl
  rw [hheld] at hb hholds he
  simp only [Store.assertNoDuplicateEffect, reject_ok, any_eq_false] at h
  refine h c hc ?_
  simp only [and_eq_true, beq_iff_eq, any_eq_true, or_eq_true]
  exact ⟨⟨hb, hholds⟩, e, he, ⟨hkind, hresource⟩, .inl hsame⟩

theorem saveNewClaim_deeds {input : SaveClaimInput}
    (hs : ∀ policy expiresAt effect,
      prospectiveInput host input.claim policy call.now = .ok (expiresAt, effect) →
        supply.claim .prospective input.claim.claimId (newBundle input.claim expiresAt effect))
    (h : s.saveNewClaim host call input = .ok s') : Deeds host supply call.budgetId s s' := by
  obtain ⟨policy, -, h⟩ := bind_ok.1 h
  obtain ⟨_, h⟩ := rest_ok h
  obtain ⟨⟨expiresAt, effect⟩, heffect, h⟩ := bind_ok.1 h
  obtain ⟨_, hunused, h⟩ := bind_ok.1 h
  obtain ⟨_, h⟩ := rest_ok h
  obtain ⟨⟨set, t⟩, ht, h⟩ := bind_ok.1 h
  obtain ⟨_, hduplicate, h⟩ := bind_ok.1 h
  obtain ⟨⟨v, u⟩, hu, h⟩ := bind_ok.1 h
  obtain ⟨w, hw, h⟩ := bind_ok.1 h
  obtain ⟨x, hx, h⟩ := bind_ok.1 h
  obtain ⟨set', hset', -⟩ := validate_ok hu
  have happart := assertNoDuplicateEffect_apart hduplicate hset'
  have hat : u.claimAt call.budgetId input.claim.claimId = none := by
    obtain ⟨-, rfl, -⟩ := Store.claimSet_ok ht
    obtain ⟨-, rfl, -⟩ := Store.claimSet_ok hset'
    have : s.claimAt call.budgetId input.claim.claimId = none := by simpa using hunused
    simp [Store.claimAt_reread, this]
  have hneutral : Neutral u x := by
    have hpersist : Neutral u w := .persist (.inl rfl) hw
    obtain ⟨_, hx⟩ := rest_ok hx
    cases hx
    exact hpersist.trans (.of_claims rfl rfl rfl rfl)
  refine (read_deeds ht).trans <| (read_deeds hset').trans <| .trans (.single (.neutral ?_ hneutral))
    (record_deeds h)
  have hbundle : u.persistClaim call.budgetId .prospective
      (newBundle input.claim expiresAt effect).id (newBundle input.claim expiresAt effect) =
        .ok w := hw
  refine .prospective (hs policy expiresAt effect heffect) hat ?_ hbundle rfl rfl hx
  exact {
    state := rfl
    fresh := rfl
    lifecycle := rfl
    source := rfl
    effects := prospectiveInput_fits heffect
    apart := fun d hd hb hholds e he f hf hkind hresource hsame => by
      obtain rfl := mem_singleton.1 hf
      exact happart d hd hb hholds e he hkind hresource hsame }

theorem listProspectiveClaims_deeds (h : s.listProspectiveClaims host call = .ok s') :
    Deeds host supply call.budgetId s s' := by
  obtain ⟨_, h⟩ := rest_ok h
  obtain ⟨⟨set, t⟩, ht, h⟩ := bind_ok.1 h
  cases h
  exact read_deeds ht

theorem saveProspectiveClaim_deeds {input : SaveClaimInput}
    (hs : ∀ policy expiresAt effect,
      prospectiveInput host input.claim policy call.now = .ok (expiresAt, effect) →
        supply.claim .prospective input.claim.claimId (newBundle input.claim expiresAt effect))
    (h : s.saveProspectiveClaim host call input = .ok s') :
    Deeds host supply call.budgetId s s' := by
  obtain ⟨_, h⟩ := rest_ok h
  obtain ⟨_, h⟩ := rest_ok h
  obtain ⟨replayed, -, h⟩ := bind_ok.1 h
  cases replayed with
  | true => exact listProspectiveClaims_deeds h
  | false => exact saveNewClaim_deeds hs h

theorem leaveActive_deeds {claimId : String} {state : ClaimLifecycle} {evidenceId : Option String}
    (hended : ∀ c, s.ownedClaim budgetId .prospective claimId = some c → holds c.bundle = false)
    (h : s.leaveActive budgetId claimId now state evidenceId = .ok s') :
    Deeds host supply budgetId s s' := by
  obtain ⟨_, h⟩ := rest_ok h
  cases h
  refine .single (.neutral (.metadata _ (fun m => ?_) fun m => ?_) (.of_claims rfl rfl rfl rfl))
  · split <;> rfl
  · split
    · next hm => exact .inr fun c hc => hended c (by rwa [hm.1, hm.2.1] at hc)
    · exact .inl rfl

theorem transitionClaim_deeds {input : TransitionInput}
    (h : s.transitionClaim host call input = .ok s') : Deeds host supply call.budgetId s s' := by
  obtain ⟨⟨set, t⟩, ht, h⟩ := bind_ok.1 h
  obtain ⟨_, h⟩ := rest_ok h
  obtain ⟨m, -, h⟩ := bind_ok.1 h
  obtain ⟨_, h⟩ := rest_ok h
  obtain ⟨_, h⟩ := rest_ok h
  obtain ⟨c, hc, h⟩ := bind_ok.1 h
  obtain ⟨_, h⟩ := rest_ok h
  obtain ⟨_, h⟩ := rest_ok h
  obtain ⟨_, h⟩ := rest_ok h
  obtain ⟨w, hw, h⟩ := bind_ok.1 h
  obtain ⟨x, hx, h⟩ := bind_ok.1 h
  have hended : holds { c.bundle with state := input.transition.target.1 } = false := by
    cases input.transition <;> rfl
  have hrestate : Deeds host supply call.budgetId t w := by
    refine restate_deeds (.inl rfl) (orStop_ok.1 hc) ?_ ?_ (fun _ => ?_) hw
    · rfl
    · rfl
    · exact hended
  refine (read_deeds ht).trans <| hrestate.trans <|
    (leaveActive_deeds (fun d hd => ?_) hx).trans (record_deeds h)
  obtain ⟨e, he, hbundle⟩ := Store.ownedClaim_persist_self hw
  rw [he] at hd
  cases hd
  rw [hbundle]
  exact hended

theorem transitionProspectiveClaim_deeds {input : TransitionInput}
    (h : s.transitionProspectiveClaim host call input = .ok s') :
    Deeds host supply call.budgetId s s' := by
  obtain ⟨_, h⟩ := rest_ok h
  obtain ⟨_, h⟩ := rest_ok h
  obtain ⟨_, h⟩ := rest_ok h
  obtain ⟨_, h⟩ := rest_ok h
  obtain ⟨replayed, -, h⟩ := bind_ok.1 h
  cases replayed with
  | true =>
    cases h
    exact .refl
  | false => exact transitionClaim_deeds h

end BalanceFrame.Holds
