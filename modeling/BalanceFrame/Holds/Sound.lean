import BalanceFrame.Holds.ProposalCalls

/-!
# The rows of every run

Every deed is a list of statements (`deed_edits`), so `Rows` holds in every run (`sound_run`), and
with it the ids of proposals are distinct.
-/

namespace BalanceFrame.Holds

open Library Option
open Liquidity (LiquidityClaimBundle LiquidityClaimEffect LiquidityClaimState)
open Workflow (Refusal Guarded)

variable {p : Completion} {outcome : Option String} {state : LiquidityClaimState}
  {phase : TransferPhase} {row : MetadataRow × ClaimRow} {parentEvidenceId ownerId : String}
  {kind : OwnerKind} {bundle : LiquidityClaimBundle} {r : Settlement}

variable {host : Host} {supply : Supply} {budgetId now : String} {s t s' : Store}

/-! ## Statements of a deed -/

theorem rest_edits (same : SameTables s s') : Edits supply budgetId s s' := .single (.rest same)

theorem updateCompletion_edits {phase : CompletionPhase}
    (h : s.updateCompletion p phase outcome now = .ok s') : Edits supply budgetId s s' := by
  rw [Store.updateCompletion_ok h]
  exact .single (.completion _ _ fun _ => ⟨rfl, rfl, rfl⟩)

theorem updateTransfer_edits {p : Transfer}
    (h : s.updateTransfer p phase outcome now = .ok s') : Edits supply budgetId s s' := by
  rw [Store.updateTransfer_ok h]
  exact rest_edits ⟨rfl, rfl, rfl, rfl, rfl, rfl⟩

theorem changeCompletionClaim_edits
    (hb : p.budgetId = budgetId) (h : s.changeCompletionClaim p state = .ok s') :
    Edits supply budgetId s s' := by
  subst hb
  obtain ⟨c, hc, ⟨-, rfl⟩ | ⟨-, hp⟩⟩ := Store.changeCompletionClaim_ok h
  · exact .refl
  · refine .single (.restate hc ?_ (.inl ?_) nofun hp) <;> rfl

theorem changeClaim_edits {p : Transfer}
    (hb : p.budgetId = budgetId) (h : s.changeClaim p state = .ok s') :
    Edits supply budgetId s s' := by
  subst hb
  obtain ⟨c, hc, ⟨-, rfl⟩ | ⟨-, hp⟩⟩ := Store.changeClaim_ok h
  · exact .refl
  · refine .single (.restate hc ?_ (.inl ?_) nofun hp) <;> rfl

theorem closeCompletion_edits {outcome : String} (hb : p.budgetId = budgetId)
    (h : s.closeCompletion p outcome now = .ok s') : Edits supply budgetId s s' := by
  have hsupersede : Edits supply budgetId s (s.supersedeApprovals p.id) :=
    rest_edits ⟨rfl, rfl, rfl, rfl, rfl, rfl⟩
  unfold Store.closeCompletion at h
  dsimp only at h
  split at h
  · exact hsupersede.trans (updateCompletion_edits h)
  · obtain ⟨t, ht, h⟩ := bind_ok.1 h
    exact hsupersede.trans ((changeCompletionClaim_edits hb ht).trans (updateCompletion_edits h))

theorem closeTransfer_edits {p : Transfer} {outcome : String} (hb : p.budgetId = budgetId)
    (h : s.closeTransfer p outcome now = .ok s') : Edits supply budgetId s s' := by
  have hsupersede : Edits supply budgetId s (s.supersedeApprovals p.id) :=
    rest_edits ⟨rfl, rfl, rfl, rfl, rfl, rfl⟩
  unfold Store.closeTransfer at h
  dsimp only at h
  split at h
  · exact hsupersede.trans (updateTransfer_edits h)
  · obtain ⟨t, ht, h⟩ := bind_ok.1 h
    exact hsupersede.trans ((changeClaim_edits hb ht).trans (updateTransfer_edits h))

/-! ## Consumed claims -/

theorem mem_sessionClaims
    (h : row ∈ s.sessionClaims p) : row.1 ∈ s.metadata ∧ row.1.budgetId = p.budgetId ∧
      row.1.actorId = p.actorId ∧ row.1.lifecycleState = .active ∧
        row.1.sourceId = sessionSource p.payload.sessionId p.payload.sessionVersion ∧
          s.claimAt row.1.budgetId row.1.claimId = some row.2 := by
  obtain ⟨m, hm, h⟩ := List.mem_filterMap.1 h
  split at h
  · next hcond =>
    obtain ⟨c, hc, rfl⟩ := map_eq_some_iff.1 h
    exact ⟨hm, hcond.1, hcond.2.1, hcond.2.2.1, hcond.2.2.2, hc⟩
  · cases h

theorem claimAt_eq_some {id : String} {c : ClaimRow} (h : s.claimAt budgetId id = some c) :
    c ∈ s.claims ∧ c.budgetId = budgetId ∧ c.id = id :=
  ⟨List.mem_of_find?_eq_some h, by simpa using List.find?_some h⟩

theorem Rows.described_owned (hr : Rows s) {m : MetadataRow} (hm : m ∈ s.metadata) :
    ∃ c, s.claimAt m.budgetId m.claimId = some c ∧
      s.ownedClaim m.budgetId .prospective m.claimId = some c := by
  obtain ⟨c, hc, hb, hid, hk⟩ := hr.described m hm
  have howner : c.ownerId = m.claimId := ((hr.named c hc (.inl hk)).symm.trans hid)
  refine ⟨c, ?_, hr.ownedClaim_eq hc ⟨hb, hk, howner⟩⟩
  cases hfound : s.claimAt m.budgetId m.claimId with
  | none => exact absurd ⟨hb, hid⟩ (Store.claimAt_eq_none_iff.1 hfound c hc)
  | some d =>
    obtain ⟨hd, hdb, hdid⟩ := claimAt_eq_some hfound
    have hkey : (d.budgetId, d.id) = (c.budgetId, c.id) := by rw [hdb, hdid, hb, hid]
    exact congrArg some (List.inj_on_of_nodup_map hr.ids hd hc hkey)

theorem Rows.sessionClaims_owned (hr : Rows s) (h : row ∈ s.sessionClaims p) :
    s.ownedClaim p.budgetId .prospective row.1.claimId = some row.2 := by
  obtain ⟨hm, hb, -, -, -, hat⟩ := mem_sessionClaims h
  obtain ⟨c, hc, ho⟩ := hr.described_owned hm
  rw [hat] at hc
  rw [← hb, ho, hc]

/-- **What `consumeClaim` does**: nothing, or the claim is settled and its metadata is consumed. -/
theorem consumeClaim_cases (h : Store.consumeClaim p parentEvidenceId now s row = .ok s') :
    (¬ (row.2.bundle.state = .active ∧ row.2.bundle.initiated = false ∧
        Store.matchesCompletion p.payload row.1.claim = true) ∧ s' = s) ∨
    ((row.2.bundle.state = .active ∧ row.2.bundle.initiated = false ∧
        Store.matchesCompletion p.payload row.1.claim = true) ∧
      ∃ t, s.persistClaim p.budgetId .prospective row.1.claimId
          { row.2.bundle with state := .settled } = .ok t ∧
        s' = { t with metadata := t.metadata.map fun n =>
          if n.budgetId = p.budgetId ∧ n.claimId = row.1.claimId ∧ n.lifecycleState = .active then
            { n with
              lifecycleState := .consumed
              updatedAt := now
              consumptionEvidenceId :=
                some (Store.claimEvidence parentEvidenceId row.1.claimId) }
          else n }) := by
  obtain ⟨m, c⟩ := row
  simp only [Store.consumeClaim] at h
  split at h
  · next hcond =>
    obtain ⟨t, ht, h⟩ := bind_ok.1 h
    obtain ⟨_, h⟩ := rest_ok h
    exact .inr ⟨hcond, t, ht, (Except.ok.inj h).symm⟩
  · next hcond => exact .inl ⟨hcond, (Except.ok.inj h).symm⟩

theorem KeepsClaims.persist {c : ClaimRow} (hc : s.ownedClaim budgetId kind ownerId = some c)
    (hid : bundle.id = c.bundle.id) (he : bundle.effects = c.bundle.effects)
    (h : s.persistClaim budgetId kind ownerId bundle = .ok s') : KeepsClaims s s' := by
  intro b k o d hd
  by_cases hown : b = budgetId ∧ k = kind ∧ o = ownerId
  · obtain ⟨rfl, rfl, rfl⟩ := hown
    obtain ⟨e, he', hbundle⟩ := Store.ownedClaim_persist_self h
    rw [hc] at hd
    obtain rfl := some.inj hd
    exact ⟨e, he', hbundle ▸ hid, hbundle ▸ he⟩
  · exact ⟨d, (Store.ownedClaim_persist_ne h hown).trans hd, Eq.refl _, Eq.refl _⟩

theorem consumeClaim_edits (hb : p.budgetId = budgetId)
    (hrow : s.ownedClaim budgetId .prospective row.1.claimId = some row.2)
    (hkeep : KeepsClaims s t)
    (h : Store.consumeClaim p parentEvidenceId now t row = .ok s') :
    Edits supply budgetId t s' ∧ KeepsClaims s s' := by
  subst hb
  obtain ⟨-, rfl⟩ | ⟨-, u, hu, rfl⟩ := consumeClaim_cases h
  · exact ⟨.refl, hkeep⟩
  · obtain ⟨d, hd, hid, he⟩ := hkeep _ _ _ _ hrow
    have hmeta : Edits supply p.budgetId u { u with metadata := u.metadata.map fun n =>
          if n.budgetId = p.budgetId ∧ n.claimId = row.1.claimId ∧ n.lifecycleState = .active then
            { n with
              lifecycleState := .consumed
              updatedAt := now
              consumptionEvidenceId :=
                some (Store.claimEvidence parentEvidenceId row.1.claimId) }
          else n } := by
      refine .single (.metadata _ (fun m => ?_) fun m => ?_)
      · split <;> rfl
      · obtain ⟨c, hc, hbundle⟩ := Store.ownedClaim_persist_self hu
        split
        · next hm =>
          refine .inr fun c' hc' => ?_
          rw [hm.1, hm.2.1, hc] at hc'
          cases hc'
          simp [hbundle, holds]
        · exact .inl rfl
    have hpersist : Edits supply p.budgetId t u := by
      refine .single (.restate hd ?_ (.inl ?_) (fun _ => rfl) hu)
      · exact hid.symm
      · exact he.symm
    have hkeep' : KeepsClaims t u := by
      refine .persist hd ?_ ?_ hu
      · exact hid.symm
      · exact he.symm
    exact ⟨hpersist.trans hmeta, hkeep.trans hkeep'⟩

theorem consumeClaims_edits (hr : Rows s)
    (hb : p.budgetId = budgetId) (h : s.consumeClaims p parentEvidenceId now = .ok s') :
    Edits supply budgetId s s' := by
  refine (foldlM_inv (P := fun u => Edits supply budgetId s u ∧ KeepsClaims s u)
    (fun u u' row hrow hP hu => ?_) ⟨.refl, .rfl⟩ h).1
  have howned := hr.sessionClaims_owned hrow
  rw [hb] at howned
  obtain ⟨hedits, hkeep⟩ := consumeClaim_edits hb howned hP.2 hu
  exact ⟨hP.1.trans hedits, hkeep⟩

theorem insertEvidence_edits {row : CompletionEvidenceRow} (h : s.insertEvidence row = .ok s') :
    Edits supply budgetId s s' := by
  obtain ⟨_, h⟩ := rest_ok h
  cases h
  exact rest_edits ⟨rfl, rfl, rfl, rfl, rfl, rfl⟩

theorem verifyCompletion_edits {evidenceId : String} (hr : Rows s)
    (hb : p.budgetId = budgetId) (h : s.verifyCompletion p evidenceId now = .ok s') :
    Edits supply budgetId s s' := by
  obtain ⟨t, ht, h⟩ := bind_ok.1 h
  obtain ⟨u, hu, h⟩ := bind_ok.1 h
  obtain ⟨w, hw, h⟩ := bind_ok.1 h
  have htedits : Edits supply budgetId s t := insertEvidence_edits ht
  have huedits : Edits supply budgetId s u := htedits.trans (changeCompletionClaim_edits hb hu)
  have hwrite : Edits supply budgetId w (w.setWrite p .verified) :=
    rest_edits ⟨rfl, rfl, rfl, rfl, rfl, rfl⟩
  exact huedits.trans ((consumeClaims_edits (hr.edits huedits) hb hw).trans
    (hwrite.trans (updateCompletion_edits h)))

theorem releaseWrite_edits (hb : p.budgetId = budgetId)
    (h : s.releaseWrite p now = .ok s') : Edits supply budgetId s s' := by
  subst hb
  obtain ⟨b, hbundle, h⟩ := bind_ok.1 h
  obtain ⟨c, hc, hcb⟩ := map_eq_some_iff.1 (orStop_ok.1 hbundle)
  subst hcb
  obtain ⟨t, ht, h⟩ := bind_ok.1 h
  have hrest : Edits supply p.budgetId t ((t.supersedeApprovals p.id).setWrite p .reviewRequired) :=
    rest_edits ⟨rfl, rfl, rfl, rfl, rfl, rfl⟩
  refine .trans (.single (.restate hc ?_ (.inl ?_) nofun ht)) (hrest.trans (updateCompletion_edits h))
  · rfl
  · rfl

theorem settleClaim_edits {p : Transfer} (hb : p.budgetId = budgetId)
    (hr : ∀ effects, r.claimEffects = some effects → supply.effects p.id effects)
    (h : s.settleClaim p r = .ok s') : Edits supply budgetId s s' := by
  unfold Store.settleClaim at h
  split at h
  · exact changeClaim_edits hb h
  · split at h
    · next effects he =>
      obtain ⟨b, hbundle, h⟩ := bind_ok.1 h
      obtain ⟨c, hc, hcb⟩ := map_eq_some_iff.1 (orStop_ok.1 hbundle)
      subst hcb hb
      refine .single (.restate hc ?_ (.inr ⟨rfl, hr effects he⟩) nofun h)
      rfl
    · cases h
      exact .refl

theorem deed_edits (hr : Rows s) (h : Deed host supply budgetId s s') :
    Edits supply budgetId s s' := by
  cases h with
  | neutral edit same => exact .single edit
  | admitCompletion supplied session budget phase fresh fits unused single read persisted =>
    exact .single (.admission supplied unused fits read persisted)
  | closeCompletion current budget pending closed => exact closeCompletion_edits budget closed
  | approveCompletion current pending next updated => exact updateCompletion_edits updated
  | acquire current budget approved claimed read updated =>
    refine (changeCompletionClaim_edits budget claimed).trans (.trans (.single (.read read)) ?_)
    refine .trans (.single (.rest ?_)) (updateCompletion_edits updated)
    exact ⟨rfl, rfl, rfl, rfl, rfl, rfl⟩
  | verify current budget awaiting verified => exact verifyCompletion_edits hr budget verified
  | release current budget intent released => exact releaseWrite_edits budget released
  | review current awaiting updated => exact updateCompletion_edits updated
  | relink current verified updated => exact updateCompletion_edits updated
  | admitTransfer supplied id budget phase fresh unused persisted =>
    refine .trans (.single (.rest ?_)) (.single (.supplied supplied (.inr ⟨rfl, id⟩) persisted))
    exact ⟨rfl, rfl, rfl, rfl, rfl, rfl⟩
  | closeTransfer current budget unconfirmed closed => exact closeTransfer_edits budget closed
  | markTransfer current moves updated => exact updateTransfer_edits updated
  | initiate current budget approved reported claimed updated =>
    exact (changeClaim_edits budget claimed).trans (updateTransfer_edits updated)
  | settle current budget initiated accepted remaining updated settled =>
    exact (updateTransfer_edits updated).trans (settleClaim_edits budget remaining settled)
  | evidence budget current added =>
    obtain ⟨_, added⟩ := rest_ok added
    cases added
    refine rest_edits ⟨?_, ?_, ?_, ?_, ?_, ?_⟩ <;> split <;> rfl

theorem deeds_edits (hr : Rows s) (h : Deeds host supply budgetId s s') :
    Edits supply budgetId s s' := by
  induction h with
  | refl => exact .refl
  | tail _ hdeed ih => exact ih.trans (deed_edits (hr.edits ih) hdeed)

/-! ## What belongs to the other kind of proposal -/

/-- The transfers, their evidence and their claims stay. -/
structure TransfersKept (s s' : Store) : Prop where
  transfers : s'.transfers = s.transfers
  evidence : s'.transferEvidence = s.transferEvidence
  holds : Kept .proposal s s'

/-- The completions and their claims stay. -/
structure CompletionsKept (s s' : Store) : Prop where
  completions : s'.completions = s.completions
  holds : Kept .sessionCompletion s s'

theorem TransfersKept.trans (h : TransfersKept s t) (h' : TransfersKept t s') :
    TransfersKept s s' :=
  ⟨h'.transfers.trans h.transfers, h'.evidence.trans h.evidence, h.holds.trans h'.holds⟩

theorem CompletionsKept.trans (h : CompletionsKept s t) (h' : CompletionsKept t s') :
    CompletionsKept s s' :=
  ⟨h'.completions.trans h.completions, h.holds.trans h'.holds⟩

theorem TransfersKept.of_claims (hc : s'.claims = s.claims) (ht : s'.transfers = s.transfers)
    (he : s'.transferEvidence = s.transferEvidence) : TransfersKept s s' :=
  ⟨ht, he, .of_claims hc⟩

theorem CompletionsKept.of_claims (hc : s'.claims = s.claims)
    (hp : s'.completions = s.completions) : CompletionsKept s s' :=
  ⟨hp, .of_claims hc⟩

theorem TransfersKept.persist
    (hk : .proposal ≠ kind) (h : s.persistClaim budgetId kind ownerId bundle = .ok s') :
    TransfersKept s s' := by
  obtain ⟨claims, hs⟩ := Store.persistClaim_frame h
  exact ⟨by simp [hs], by simp [hs], .persist hk h⟩

theorem CompletionsKept.persist (hk : .sessionCompletion ≠ kind)
    (h : s.persistClaim budgetId kind ownerId bundle = .ok s') : CompletionsKept s s' := by
  obtain ⟨claims, hs⟩ := Store.persistClaim_frame h
  exact ⟨by simp [hs], .persist hk h⟩

theorem TransfersKept.read {set : ClaimSet} (h : s.claimSet host budgetId now = .ok (set, s')) :
    TransfersKept s s' :=
  let hn := Neutral.read h
  ⟨hn.transfers, hn.evidence, hn.transferHolds⟩

theorem changeCompletionClaim_transfers
    (h : s.changeCompletionClaim p state = .ok s') : TransfersKept s s' := by
  obtain ⟨c, -, ⟨-, rfl⟩ | ⟨-, hp⟩⟩ := Store.changeCompletionClaim_ok h
  · exact .of_claims rfl rfl rfl
  · exact .persist (by simp) hp

theorem changeClaim_completions {p : Transfer}
    (h : s.changeClaim p state = .ok s') : CompletionsKept s s' := by
  obtain ⟨c, -, ⟨-, rfl⟩ | ⟨-, hp⟩⟩ := Store.changeClaim_ok h
  · exact .of_claims rfl rfl
  · exact .persist (by simp) hp

theorem updateCompletion_transfers {phase : CompletionPhase}
    (h : s.updateCompletion p phase outcome now = .ok s') :
    TransfersKept s s' := by
  rw [Store.updateCompletion_ok h]
  exact .of_claims rfl rfl rfl

theorem updateTransfer_completions {p : Transfer}
    (h : s.updateTransfer p phase outcome now = .ok s') :
    CompletionsKept s s' := by
  rw [Store.updateTransfer_ok h]
  exact .of_claims rfl rfl

theorem consumeClaims_neutral (h : s.consumeClaims p parentEvidenceId now = .ok s') : Neutral s s' := by
  refine foldlM_inv (P := Neutral s) (fun u u' row _ hP hu => ?_) (.of_claims rfl rfl rfl rfl) h
  obtain ⟨-, rfl⟩ | ⟨-, w, hw, rfl⟩ := consumeClaim_cases hu
  · exact hP
  · have hpersist : Neutral u w := .persist (.inl rfl) hw
    exact hP.trans (hpersist.trans (.of_claims rfl rfl rfl rfl))

theorem Neutral.transfersKept (h : Neutral s s') : TransfersKept s s' :=
  ⟨h.transfers, h.evidence, h.transferHolds⟩

theorem Neutral.completionsKept (h : Neutral s s') : CompletionsKept s s' :=
  ⟨h.completions, h.completionHolds⟩

theorem insertEvidence_neutral {row : CompletionEvidenceRow}
    (h : s.insertEvidence row = .ok s') : Neutral s s' := by
  obtain ⟨_, h⟩ := rest_ok h
  cases h
  exact .of_claims rfl rfl rfl rfl

theorem closeCompletion_transfers {outcome : String}
    (h : s.closeCompletion p outcome now = .ok s') : TransfersKept s s' := by
  have hsupersede : TransfersKept s (s.supersedeApprovals p.id) := .of_claims rfl rfl rfl
  unfold Store.closeCompletion at h
  dsimp only at h
  split at h
  · exact hsupersede.trans (updateCompletion_transfers h)
  · obtain ⟨t, ht, h⟩ := bind_ok.1 h
    exact hsupersede.trans
      ((changeCompletionClaim_transfers ht).trans (updateCompletion_transfers h))

theorem closeTransfer_completions {p : Transfer} {outcome : String}
    (h : s.closeTransfer p outcome now = .ok s') : CompletionsKept s s' := by
  have hsupersede : CompletionsKept s (s.supersedeApprovals p.id) := .of_claims rfl rfl
  unfold Store.closeTransfer at h
  dsimp only at h
  split at h
  · exact hsupersede.trans (updateTransfer_completions h)
  · obtain ⟨t, ht, h⟩ := bind_ok.1 h
    exact hsupersede.trans ((changeClaim_completions ht).trans (updateTransfer_completions h))

theorem verifyCompletion_transfers {evidenceId : String}
    (h : s.verifyCompletion p evidenceId now = .ok s') : TransfersKept s s' := by
  obtain ⟨t, ht, h⟩ := bind_ok.1 h
  obtain ⟨u, hu, h⟩ := bind_ok.1 h
  obtain ⟨w, hw, h⟩ := bind_ok.1 h
  have hwrite : TransfersKept w (w.setWrite p .verified) := .of_claims rfl rfl rfl
  exact (insertEvidence_neutral ht).transfersKept.trans <|
    (changeCompletionClaim_transfers hu).trans <| (consumeClaims_neutral hw).transfersKept.trans <|
      hwrite.trans (updateCompletion_transfers h)

theorem releaseWrite_transfers (h : s.releaseWrite p now = .ok s') : TransfersKept s s' := by
  obtain ⟨b, -, h⟩ := bind_ok.1 h
  obtain ⟨t, ht, h⟩ := bind_ok.1 h
  have hrest : TransfersKept t ((t.supersedeApprovals p.id).setWrite p .reviewRequired) :=
    .of_claims rfl rfl rfl
  have hpersist : TransfersKept s t := .persist (by simp) ht
  exact hpersist.trans (hrest.trans (updateCompletion_transfers h))

theorem settleClaim_completions {p : Transfer}
    (h : s.settleClaim p r = .ok s') : CompletionsKept s s' := by
  unfold Store.settleClaim at h
  split at h
  · exact changeClaim_completions h
  · split at h
    · obtain ⟨b, -, h⟩ := bind_ok.1 h
      exact .persist (by simp) h
    · cases h
      exact .of_claims rfl rfl

/-! ## Runs -/

/-- The rows, and distinct ids of transfers. -/
structure Sound (s : Store) : Prop where
  rows : Rows s
  transferIds : (s.transfers.map (·.id)).Nodup

theorem Sound.distinct (h : Sound s) : DistinctProposals s := ⟨h.rows.completionIds, h.transferIds⟩

theorem sound_empty : Sound {} := ⟨rows_empty, List.nodup_nil⟩

theorem map_transfers_ids {p : Transfer} (l : List Transfer) :
    (l.map fun r => if r.id = p.id then Store.moved phase outcome now r else r).map (·.id) =
      l.map (·.id) := by
  rw [List.map_map]
  refine List.map_congr_left fun r _ => ?_
  simp only [Function.comp_apply]
  split <;> rfl

theorem updateTransfer_ids {p : Transfer} (h : s.updateTransfer p phase outcome now = .ok s') :
    s'.transfers.map (·.id) = s.transfers.map (·.id) := by
  rw [Store.updateTransfer_ok h]
  exact map_transfers_ids s.transfers

theorem changeClaim_transfers {p : Transfer} (h : s.changeClaim p state = .ok s') :
    s'.transfers = s.transfers ∧ s'.transferEvidence = s.transferEvidence := by
  obtain ⟨c, -, ⟨-, rfl⟩ | ⟨-, hp⟩⟩ := Store.changeClaim_ok h
  · exact ⟨rfl, rfl⟩
  · obtain ⟨claims, rfl⟩ := Store.persistClaim_frame hp
    exact ⟨rfl, rfl⟩

theorem settleClaim_transfers {p : Transfer} (h : s.settleClaim p r = .ok s') :
    s'.transfers = s.transfers ∧ s'.transferEvidence = s.transferEvidence := by
  unfold Store.settleClaim at h
  split at h
  · exact changeClaim_transfers h
  · split at h
    · obtain ⟨b, -, h⟩ := bind_ok.1 h
      obtain ⟨claims, rfl⟩ := Store.persistClaim_frame h
      exact ⟨rfl, rfl⟩
    · cases h
      exact ⟨rfl, rfl⟩

theorem deed_transferIds (hs : (s.transfers.map (·.id)).Nodup)
    (h : Deed host supply budgetId s s') : (s'.transfers.map (·.id)).Nodup := by
  cases h with
  | neutral edit same => exact same.transfers ▸ hs
  | admitCompletion supplied session budget phase fresh fits unused single read persisted =>
    obtain ⟨claims, rfl⟩ := Store.persistClaim_frame persisted
    rw [Store.bump_transfers, (TransfersKept.read read).transfers]
    exact hs
  | closeCompletion current budget pending closed =>
    exact (closeCompletion_transfers closed).transfers ▸ hs
  | approveCompletion current pending next updated =>
    exact (updateCompletion_transfers updated).transfers ▸ hs
  | acquire current budget approved claimed read updated =>
    rw [(updateCompletion_transfers updated).transfers, (TransfersKept.read read).transfers,
      (changeCompletionClaim_transfers claimed).transfers]
    exact hs
  | verify current budget awaiting verified =>
    exact (verifyCompletion_transfers verified).transfers ▸ hs
  | release current budget intent released =>
    exact (releaseWrite_transfers released).transfers ▸ hs
  | review current awaiting updated => exact (updateCompletion_transfers updated).transfers ▸ hs
  | relink current verified updated => exact (updateCompletion_transfers updated).transfers ▸ hs
  | admitTransfer supplied id budget phase fresh unused persisted =>
    obtain ⟨claims, rfl⟩ := Store.persistClaim_frame persisted
    rw [Store.bump_transfers, List.map_append, List.nodup_append]
    refine ⟨hs, by simp, ?_⟩
    rintro _ hq _ hrow rfl
    obtain ⟨q, hq, hid⟩ := List.mem_map.1 hq
    simp only [List.map_cons, List.map_nil, List.mem_singleton] at hrow
    exact unused q hq (hid.trans hrow)
  | closeTransfer current budget unconfirmed closed =>
    obtain ⟨f, hf, htransfers, -⟩ := closeTransfer_transfers closed
    rw [htransfers, List.map_map]
    refine (congrArg List.Nodup (List.map_congr_left fun r _ => ?_)).mpr hs
    simp only [Function.comp_apply]
    split
    · exact hf r
    · rfl
  | markTransfer current moves updated => exact updateTransfer_ids updated ▸ hs
  | initiate current budget approved reported claimed updated =>
    rw [updateTransfer_ids updated, (changeClaim_transfers claimed).1]
    exact hs
  | settle current budget initiated accepted remaining updated settled =>
    rw [(settleClaim_transfers settled).1, updateTransfer_ids updated]
    exact hs
  | evidence budget current added => exact addEvidence_transfers added ▸ hs

theorem Sound.deeds (hs : Sound s) (h : Deeds host supply budgetId s s') : Sound s' := by
  refine ⟨hs.rows.edits (deeds_edits hs.rows h), ?_⟩
  induction h with
  | refl => exact hs.transferIds
  | tail _ hdeed ih => exact deed_transferIds ih hdeed

theorem Sound.withPolicy (hs : Sound s) (policy : PolicyRow) :
    Sound (withPolicy s budgetId policy) :=
  ⟨⟨hs.rows.ids, hs.rows.owners, hs.rows.named, hs.rows.owned, hs.rows.described, hs.rows.single,
    hs.rows.completionIds⟩, hs.transferIds⟩

/-- A supply that every step meets. -/
def anySupply : Supply := ⟨fun _ _ _ => True, fun _ _ => True, fun _ _ => True, fun _ => True⟩

theorem supplies_any (step : Step) : Supplies host anySupply step := by
  unfold Supplies
  split <;> simp [anySupply]

theorem Sound.apply {step : Step} {answer : Answer} (hs : Sound s)
    (h : apply host s step = .ok (answer, s')) : Sound s' := by
  by_cases hop : ∃ policy expectedVersion, step.op = .savePolicy policy expectedVersion
  · obtain ⟨call, op⟩ := step
    obtain ⟨policy, expectedVersion, rfl⟩ := hop
    have hsave := (quietly_ok h).1
    exact (hs.withPolicy policy).deeds
      (@savePolicy_deeds host anySupply _ _ _ policy expectedVersion hs.distinct hsave).2
  · refine hs.deeds (apply_deeds hs.distinct (supplies_any step) (fun policy version he => ?_) h)
    exact hop ⟨policy, version, he⟩

theorem throughout_true {steps : List Step} :
    ∀ {s : Store}, Throughout host (fun _ _ => True) s steps := by
  induction steps with
  | nil => exact trivial
  | cons step steps ih => exact ⟨trivial, ih⟩

theorem sound_run (hs : Sound s) (steps : List Step) : Sound (run host s steps) :=
  run_inv host hs throughout_true fun _ _ _ _ hs _ h => hs.apply h

/-- **No reference dangles**, after any calls: the claim of a completion has its completion; metadata
describe a prospective claim that owns itself, each another one; and in a budget neither an id nor an
owner has two claims. -/
theorem references_resolve (host : Host) (steps : List Step) :
    (∀ c ∈ (run host {} steps).claims, c.ownerKind = .sessionCompletion →
      ∃ p ∈ (run host {} steps).completions, p.id = c.ownerId) ∧
    (∀ m ∈ (run host {} steps).metadata, ∃ c ∈ (run host {} steps).claims,
      c.budgetId = m.budgetId ∧ c.id = m.claimId ∧ c.ownerKind = .prospective ∧ c.id = c.ownerId) ∧
    (∀ m ∈ (run host {} steps).metadata, ∀ m' ∈ (run host {} steps).metadata,
      m.budgetId = m'.budgetId → m.claimId = m'.claimId → m = m') ∧
    ∀ c ∈ (run host {} steps).claims, ∀ c' ∈ (run host {} steps).claims, c.budgetId = c'.budgetId →
      c.id = c'.id ∨ c.ownerKind = c'.ownerKind ∧ c.ownerId = c'.ownerId → c = c' := by
  obtain ⟨hrows, -⟩ : Sound (run host {} steps) := sound_run sound_empty steps
  refine ⟨hrows.owned, fun m hm => ?_, fun m hm m' hm' hb hc =>
    List.inj_on_of_nodup_map hrows.single hm hm' (Prod.ext hb hc), fun c hc c' hc' hb hsame => ?_⟩
  · obtain ⟨c, hc, hb, hid, hkind⟩ := hrows.described m hm
    exact ⟨c, hc, hb, hid, hkind, hrows.named c hc (.inl hkind)⟩
  · rcases hsame with hid | ⟨hkind, howner⟩
    · exact List.inj_on_of_nodup_map hrows.ids hc hc' (Prod.ext hb hid)
    · exact List.inj_on_of_nodup_map hrows.owners hc hc' (Prod.ext hb (Prod.ext hkind howner))

end BalanceFrame.Holds
