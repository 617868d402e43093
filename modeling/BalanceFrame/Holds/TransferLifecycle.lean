import BalanceFrame.Holds.CompletionLifecycle

/-!
# The lifecycle of a transfer

`TransferHolding` is what a transfer's phase says about its claim and `TransferMoves` where its phase
may go: into `initiated` by a report and out of it by a confirmed settlement only, which the `Supply`
of a step names (`transferSupply`). `deed_transfers` says that a deed leaves the transfers alone,
moves one, admits one, or stores evidence. `TransferLifecycle` is the invariant that follows
(`transfer_lifecycle`). A claim that lapses expires while its transfer is still pending
(`lapsed_pending_transfer`), and evidence is told apart within a budget only.
-/

namespace BalanceFrame.Holds

open Library List
open Liquidity (LiquidityClaimBundle LiquidityClaimEffect LiquidityClaimState)
open Workflow (Refusal Guarded)

/-- **What a phase says about the claim.** -/
def TransferHolding : TransferPhase → LiquidityClaimBundle → Prop
  | .proposed, b | .awaitingApproval, b | .approved, b =>
    (b.state = .active ∨ b.state = .expired) ∧ b.initiated = false
  | .initiated, b => b.state = .initiated ∧ b.initiated = true
  | .confirmed, b => b.state = .settled
  | .closed, b => (b.state = .cancelled ∨ b.state = .expired) ∧ b.initiated = false

/-- **Where the phase of a transfer may go.** -/
structure TransferMoves (supply : Supply) (id : String) (phase phase' : TransferPhase) : Prop where
  initiated : phase' = .initiated → phase = .initiated ∨ supply.initiation id
  confirmed : phase' = .confirmed →
    phase = .confirmed ∨ (phase = .initiated ∨ supply.initiation id) ∧ supply.effects id []
  released : phase = .initiated → phase' = .initiated ∨ phase' = .confirmed ∧ supply.effects id []
  final : phase = .confirmed → phase' = .confirmed

/-- The claim of a transfer. -/
def Store.transferHold (s : Store) (p : Transfer) : Option ClaimRow :=
  s.ownedClaim p.budgetId .proposal p.id

/-- **One move** of a transfer into a phase. -/
structure TransferMoved (p : Transfer) (phase : TransferPhase) (s s' : Store) : Prop where
  transfers : ∃ outcome now, s'.transfers = s.transfers.map fun q =>
    if q.id = p.id then Store.moved phase outcome now q else q
  evidence : s'.transferEvidence = s.transferEvidence
  others : KeptBut .proposal p.budgetId p.id s s'
  own : ∀ c, s.transferHold p = some c → TransferHolding p.phase c.bundle →
    ∃ c', s'.transferHold p = some c' ∧ TransferHolding phase c'.bundle

/-- An admission: the row is new and its claim active. -/
structure TransferAdmitted (p : Transfer) (s s' : Store) : Prop where
  transfers : s'.transfers = s.transfers ++ [p]
  evidence : s'.transferEvidence = s.transferEvidence
  phase : p.phase = .proposed
  unused : ∀ q ∈ s.transfers, q.id ≠ p.id
  others : KeptBut .proposal p.budgetId p.id s s'
  own : ∃ c, s'.transferHold p = some c ∧ TransferHolding .proposed c.bundle

/-- A piece of evidence that was not stored. -/
structure EvidenceAdded (row : EvidenceRow) (s s' : Store) : Prop where
  transfers : s'.transfers = s.transfers
  evidence : s'.transferEvidence = s.transferEvidence ++ [row]
  unused : ∀ e ∈ s.transferEvidence, ¬ (e.budgetId = row.budgetId ∧ e.evidenceId = row.evidenceId)
  holds : Kept .proposal s s'

section Moves

variable {host : Host} {supply : Supply} {budgetId now id : String} {s t s' : Store} {p : Transfer}
  {phase : TransferPhase} {outcome : Option String}

theorem TransferHolding.lapses {c c' : ClaimRow} (h : TransferHolding phase c.bundle)
    (hl : Lapses c c') : TransferHolding phase c'.bundle := by
  obtain rfl | ⟨hstate, hinit, rfl⟩ := hl
  · exact h
  · cases phase <;> simp [TransferHolding, hstate, hinit] at h ⊢

theorem TransferMoves.refl : TransferMoves supply id phase phase where
  initiated h := .inl h
  confirmed h := .inl h
  released h := .inl h
  final h := h

theorem TransferMoves.trans {a b c : TransferPhase} (h : TransferMoves supply id a b)
    (h' : TransferMoves supply id b c) : TransferMoves supply id a c where
  initiated hc := (h'.initiated hc).elim h.initiated .inr
  confirmed hc := by
    obtain hb | ⟨hb | hinit, heffects⟩ := h'.confirmed hc
    · exact h.confirmed hb
    · exact .inr ⟨h.initiated hb, heffects⟩
    · exact .inr ⟨.inr hinit, heffects⟩
  released ha := by
    obtain hb | ⟨hb, heffects⟩ := h.released ha
    · exact h'.released hb
    · exact .inr ⟨h'.final hb, heffects⟩
  final ha := h'.final (h.final ha)

theorem TransferMoves.of_pending {phase' : TransferPhase}
    (h : phase ≠ .initiated ∧ phase ≠ .confirmed) (h' : phase' ≠ .initiated ∧ phase' ≠ .confirmed) :
    TransferMoves supply id phase phase' where
  initiated he := absurd he h'.1
  confirmed he := absurd he h'.2
  released he := absurd he h.1
  final he := absurd he h.2

theorem Kept.transferHolding {c : ClaimRow} (h : Kept .proposal s s')
    (hc : s.transferHold p = some c) (hh : TransferHolding phase c.bundle) :
    ∃ c', s'.transferHold p = some c' ∧ TransferHolding phase c'.bundle := by
  obtain ⟨f, hf, hl⟩ := h p.budgetId p.id
  refine ⟨f c, ?_, hh.lapses (hl c)⟩
  rw [Store.transferHold, hf, ← Store.transferHold, hc]
  rfl

theorem TransferMoved.update (htransfers : t.transfers = s.transfers)
    (hevidence : t.transferEvidence = s.transferEvidence)
    (hothers : KeptBut .proposal p.budgetId p.id s t)
    (hown : ∀ c, s.transferHold p = some c → TransferHolding p.phase c.bundle →
      ∃ c', t.transferHold p = some c' ∧ TransferHolding phase c'.bundle)
    (h : t.updateTransfer p phase outcome now = .ok s') : TransferMoved p phase s s' := by
  have hs' := Store.updateTransfer_ok h
  have hkept : Kept .proposal t s' := by
    rw [hs']
    exact .of_claims rfl
  refine ⟨⟨outcome, now, ?_⟩, ?_, hothers.trans hkept.but, fun c hc hh => ?_⟩
  · rw [hs', htransfers]
  · rw [hs', ← hevidence]
  · obtain ⟨c', hc', hh'⟩ := hown c hc hh
    exact hkept.transferHolding hc' hh'

theorem changed_transferHold {state : LiquidityClaimState} (h : s.changeClaim p state = .ok t) :
    KeptBut .proposal p.budgetId p.id s t ∧ ∃ c, s.transferHold p = some c ∧
      ∃ c', t.transferHold p = some c' ∧ (c.bundle.state = state ∧ c' = c ∨
        c.bundle.state ≠ state ∧ c'.bundle = inState c.bundle state) := by
  obtain ⟨c, hc, ⟨hstate, rfl⟩ | ⟨hstate, hp⟩⟩ := Store.changeClaim_ok h
  · exact ⟨(Kept.of_claims rfl).but, c, hc, c, hc, .inl ⟨hstate, rfl⟩⟩
  · obtain ⟨d, hd, hb⟩ := Store.ownedClaim_persist_self hp
    exact ⟨.persist hp, c, hc, d, hd, .inr ⟨hstate, hb⟩⟩

theorem closeTransfer_moved {outcome : String} (hunconfirmed : p.phase ≠ .confirmed)
    (h : s.closeTransfer p outcome now = .ok s') :
    ∃ phase, TransferMoves supply p.id p.phase phase ∧ TransferMoved p phase s s' := by
  have hsupersede : Kept .proposal s (s.supersedeApprovals p.id) := .of_claims rfl
  unfold Store.closeTransfer at h
  dsimp only at h
  split at h
  · next hphase =>
    exact ⟨.initiated, hphase ▸ .refl, .update (t := s.supersedeApprovals p.id) rfl rfl
      hsupersede.but (fun c hc hh => ⟨c, hc, hphase ▸ hh⟩) h⟩
  · next hphase =>
    obtain ⟨t, ht, h⟩ := bind_ok.1 h
    obtain ⟨hbut, c, hc, c', hc', hchange⟩ := changed_transferHold ht
    obtain ⟨htransfers, hevidence⟩ := changeClaim_transfers ht
    have hclosed : closedState outcome = .cancelled ∨ closedState outcome = .expired := by
      unfold closedState
      split
      · exact .inr rfl
      · exact .inl rfl
    refine ⟨.closed, .of_pending ⟨hphase, hunconfirmed⟩ (by simp), .update htransfers hevidence
      (hsupersede.but.trans hbut) (fun d hd hh => ⟨c', hc', ?_⟩) h⟩
    obtain rfl : d = c := Option.some.inj (hd.symm.trans hc)
    have hinit : d.bundle.initiated = false := by
      cases hp : p.phase <;> rw [hp] at hh <;> first | exact hh.2 | skip
      · exact absurd hp hphase
      · exact absurd hp hunconfirmed
    obtain ⟨hstate, rfl⟩ | ⟨-, hb⟩ := hchange
    · exact ⟨hstate ▸ hclosed, hinit⟩
    · rw [hb]
      refine ⟨hclosed, ?_⟩
      obtain hc | hc := hclosed <;> simp [inState, hc, hinit]

theorem marked_moved (hh : ∀ b, TransferHolding p.phase b → TransferHolding phase b)
    (h : s.updateTransfer p phase outcome now = .ok s') : TransferMoved p phase s s' :=
  .update rfl rfl (Kept.of_claims rfl).but (fun c hc hhold => ⟨c, hc, hh _ hhold⟩) h

theorem initiate_moved (happroved : p.phase = .approved)
    (hclaimed : s.changeClaim p .initiated = .ok t)
    (h : t.updateTransfer p .initiated outcome now = .ok s') :
    TransferMoved p .initiated s s' := by
  obtain ⟨hbut, c, hc, c', hc', hchange⟩ := changed_transferHold hclaimed
  obtain ⟨htransfers, hevidence⟩ := changeClaim_transfers hclaimed
  refine .update htransfers hevidence hbut (fun d hd hh => ⟨c', hc', ?_⟩) h
  obtain rfl : d = c := Option.some.inj (hd.symm.trans hc)
  rw [happroved] at hh
  obtain ⟨hstate, rfl⟩ | ⟨-, hb⟩ := hchange
  · obtain ⟨ha | ha, -⟩ := hh <;> rw [hstate] at ha <;> cases ha
  · rw [hb]
    exact ⟨rfl, rfl⟩

theorem settle_moved {r : Settlement} (hinitiated : p.phase = .initiated)
    (hupdated : s.updateTransfer p (if r.confirmed then .confirmed else .initiated) outcome now =
      .ok t) (h : t.settleClaim p r = .ok s') :
    TransferMoved p (if r.confirmed then .confirmed else .initiated) s s' := by
  have ht := Store.updateTransfer_ok hupdated
  obtain ⟨htransfers, hevidence⟩ := settleClaim_transfers h
  have hkept : Kept .proposal s t := by
    rw [ht]
    exact .of_claims rfl
  refine ⟨⟨outcome, now, by rw [htransfers, ht]⟩, by rw [hevidence, ht], ?_, fun c hc hh => ?_⟩
  · unfold Store.settleClaim at h
    split at h
    · exact hkept.but.trans (changed_transferHold h).1
    · split at h
      · obtain ⟨b, -, h⟩ := bind_ok.1 h
        exact hkept.but.trans (.persist h)
      · cases h
        exact hkept.but
  · obtain ⟨d, hd, hhd⟩ := hkept.transferHolding hc hh
    unfold Store.settleClaim at h
    split at h
    · next hconfirmed =>
      rw [if_pos hconfirmed]
      obtain ⟨-, e, he, c', hc', hchange⟩ := changed_transferHold h
      refine ⟨c', hc', ?_⟩
      obtain ⟨hstate, rfl⟩ | ⟨-, hb⟩ := hchange
      · exact hstate
      · rw [hb]
        rfl
    · next hconfirmed =>
      rw [if_neg hconfirmed]
      rw [hinitiated] at hhd
      split at h
      · obtain ⟨b, hb, h⟩ := bind_ok.1 h
        obtain ⟨e, he, rfl⟩ := Option.map_eq_some_iff.1 (orStop_ok.1 hb)
        obtain rfl : d = e := Option.some.inj (hd.symm.trans he)
        obtain ⟨c', hc', hb'⟩ := Store.ownedClaim_persist_self h
        exact ⟨c', hc', by rw [hb']; exact hhd⟩
      · cases h
        exact ⟨d, hd, hhd⟩

theorem confirmed_effects {r : Settlement} (haccepted : r.wellFormed = true) :
    r.confirmed = true ↔ r.claimEffects = some [] := by
  unfold Settlement.wellFormed at haccepted
  cases hc : r.confirmed <;> simp [hc] at haccepted ⊢ <;> simp [haccepted]

theorem deed_transfers (h : Deed host supply budgetId s s') :
    TransfersKept s s' ∨
      (∃ p phase, p ∈ s.transfers ∧ TransferMoves supply p.id p.phase phase ∧
        TransferMoved p phase s s') ∨
      (∃ p, TransferAdmitted p s s') ∨ ∃ row, EvidenceAdded row s s' := by
  cases h with
  | neutral edit same => exact .inl same.transfersKept
  | admitCompletion supplied session budget phase fresh fits unused single read persisted =>
    refine .inl (.trans ?_ ((TransfersKept.read read).trans (.persist (by simp) persisted)))
    exact .of_claims rfl rfl rfl
  | closeCompletion current budget pending closed => exact .inl (closeCompletion_transfers closed)
  | approveCompletion current pending next updated =>
    exact .inl (updateCompletion_transfers updated)
  | acquire current budget approved claimed read updated =>
    refine .inl ((changeCompletionClaim_transfers claimed).trans
      ((TransfersKept.read read).trans (.trans ?_ (updateCompletion_transfers updated))))
    exact .of_claims rfl rfl rfl
  | verify current budget awaiting verified => exact .inl (verifyCompletion_transfers verified)
  | release current budget intent released => exact .inl (releaseWrite_transfers released)
  | review current awaiting updated => exact .inl (updateCompletion_transfers updated)
  | relink current verified updated => exact .inl (updateCompletion_transfers updated)
  | admitTransfer supplied id budget phase fresh unused persisted =>
    rename_i p bundle
    subst budget
    obtain ⟨claims, hframe⟩ := Store.persistClaim_frame persisted
    obtain ⟨c, hc, hb⟩ := Store.ownedClaim_persist_self persisted
    have happend : Kept .proposal s { s with transfers := s.transfers ++ [p] } := .of_claims rfl
    refine .inr (.inr (.inl ⟨p, ?_, ?_, phase, unused, happend.but.trans (.persist persisted), c,
      hc, ?_⟩))
    · rw [hframe]
      rfl
    · rw [hframe]
      rfl
    · rw [hb]
      exact ⟨.inl fresh.1, fresh.2⟩
  | closeTransfer current budget unconfirmed closed =>
    obtain ⟨phase, hmoves, hmoved⟩ := closeTransfer_moved unconfirmed closed
    exact .inr (.inl ⟨_, phase, current, hmoves, hmoved⟩)
  | markTransfer current moves updated =>
    obtain rfl | ⟨hpending, hnext⟩ := moves
    · exact .inr (.inl ⟨_, _, current, .refl, marked_moved (fun _ hb => hb) updated⟩)
    · refine .inr (.inl ⟨_, _, current, .of_pending ?_ ?_, marked_moved (fun b hb => ?_) updated⟩)
      · obtain h | h | h := hpending <;> simp [h]
      · obtain h | h | h := hnext <;> simp [h]
      · obtain h | h | h := hpending <;> obtain rfl | rfl | rfl := hnext <;> rw [h] at hb <;>
          exact hb
  | initiate current budget approved reported claimed updated =>
    refine .inr (.inl ⟨_, .initiated, current, ⟨fun _ => .inr reported, nofun, fun h => ?_,
      fun h => ?_⟩, initiate_moved approved claimed updated⟩) <;> rw [approved] at h <;> cases h
  | settle current budget initiated accepted remaining updated settled =>
    refine .inr (.inl ⟨_, _, current, ?_, settle_moved initiated updated settled⟩)
    rw [initiated]
    split
    · next hconfirmed =>
      have heffects := remaining [] ((confirmed_effects accepted).1 hconfirmed)
      exact ⟨nofun, fun _ => .inr ⟨.inl rfl, heffects⟩, fun _ => .inr ⟨rfl, heffects⟩, nofun⟩
    · exact .refl
  | evidence budget current added =>
    rename_i p existing evidenceId
    obtain ⟨_, added⟩ := rest_ok added
    cases added
    split
    · exact .inl (.of_claims rfl rfl rfl)
    · next hnew =>
      refine .inr (.inr (.inr ⟨⟨p.budgetId, evidenceId, p.id⟩, rfl, rfl, fun e he => ?_,
        .of_claims rfl⟩))
      rintro ⟨hb, hid⟩
      exact hnew (any_eq_true.2 ⟨e, he, by simp [hb, hid]⟩)

end Moves

/-! ## The invariant -/

/-- **The invariant**: every transfer has its claim in the state its phase asks for, and a budget's
evidence is stored once. -/
structure TransferLifecycle (s : Store) : Prop where
  held : ∀ p ∈ s.transfers, ∃ c, s.transferHold p = some c ∧ TransferHolding p.phase c.bundle
  evidence : (s.transferEvidence.map fun e => (e.budgetId, e.evidenceId)).Nodup

/-- Every transfer stays, and every transfer comes from a stored or a proposed one. -/
structure TransfersMove (supply : Supply) (s s' : Store) : Prop where
  stay : ∀ p ∈ s.transfers, ∃ p' ∈ s'.transfers, p'.id = p.id ∧
    TransferMoves supply p.id p.phase p'.phase
  come : ∀ p' ∈ s'.transfers, ∃ phase,
    (phase = .proposed ∨ ∃ p ∈ s.transfers, p.id = p'.id ∧ p.phase = phase) ∧
      TransferMoves supply p'.id phase p'.phase

section Invariant

variable {host : Host} {supply : Supply} {budgetId : String} {s t s' : Store} {p : Transfer}
  {phase : TransferPhase}

theorem TransfersMove.of_transfers (h : s'.transfers = s.transfers) : TransfersMove supply s s' where
  stay p hp := ⟨p, h ▸ hp, rfl, .refl⟩
  come p hp := ⟨p.phase, .inr ⟨p, h ▸ hp, rfl, rfl⟩, .refl⟩

theorem TransfersMove.trans (h : TransfersMove supply s t) (h' : TransfersMove supply t s') :
    TransfersMove supply s s' where
  stay p hp := by
    obtain ⟨p', hp', hid, hm⟩ := h.stay p hp
    obtain ⟨p'', hp'', hid', hm'⟩ := h'.stay p' hp'
    exact ⟨p'', hp'', hid'.trans hid, hm.trans (hid ▸ hm')⟩
  come p'' hp'' := by
    obtain ⟨phase, rfl | ⟨p', hp', hid, rfl⟩, hm⟩ := h'.come p'' hp''
    · exact ⟨.proposed, .inl rfl, hm⟩
    · obtain ⟨phase, hfrom, hm'⟩ := h.come p' hp'
      rw [hid] at hfrom hm'
      exact ⟨phase, hfrom, hm'.trans hm⟩

theorem transferLifecycle_kept (hl : TransferLifecycle s) (h : TransfersKept s s') :
    TransferLifecycle s' ∧ TransfersMove supply s s' := by
  refine ⟨⟨fun p hp => ?_, h.evidence ▸ hl.evidence⟩, .of_transfers h.transfers⟩
  obtain ⟨c, hc, hh⟩ := hl.held p (h.transfers ▸ hp)
  exact h.holds.transferHolding hc hh

theorem transferLifecycle_moved (hs : Sound s) (hl : TransferLifecycle s) (hp : p ∈ s.transfers)
    (hmoves : TransferMoves supply p.id p.phase phase) (h : TransferMoved p phase s s') :
    TransferLifecycle s' ∧ TransfersMove supply s s' := by
  obtain ⟨⟨outcome, now, htransfers⟩, hevidence, hothers, hown⟩ := h
  have hself : ∀ q ∈ s.transfers, q.id = p.id → q = p := fun q hq =>
    inj_on_of_nodup_map hs.transferIds hq hp
  refine ⟨⟨fun q' hq' => ?_, hevidence ▸ hl.evidence⟩, fun q hq => ?_, fun q' hq' => ?_⟩
  · rw [htransfers] at hq'
    obtain ⟨q, hq, rfl⟩ := mem_map.1 hq'
    obtain ⟨c, hc, hh⟩ := hl.held q hq
    split
    · next hid =>
      obtain rfl := hself q hq hid
      exact hown c hc hh
    · next hid =>
      obtain ⟨g, hg, hlapses⟩ := hothers q.budgetId q.id fun ⟨_, he⟩ => hid he
      refine ⟨g c, ?_, hh.lapses (hlapses c)⟩
      rw [Store.transferHold, hg, ← Store.transferHold, hc]
      rfl
  · refine ⟨_, htransfers ▸ mem_map_of_mem hq, ?_⟩
    split
    · next hid =>
      obtain rfl := hself q hq hid
      exact ⟨rfl, hmoves⟩
    · exact ⟨rfl, .refl⟩
  · rw [htransfers] at hq'
    obtain ⟨q, hq, rfl⟩ := mem_map.1 hq'
    refine ⟨q.phase, .inr ⟨q, hq, ?_, rfl⟩, ?_⟩
    · split <;> rfl
    · split
      · next hid =>
        obtain rfl := hself q hq hid
        exact hmoves
      · exact .refl

theorem transferLifecycle_admitted (hl : TransferLifecycle s) (h : TransferAdmitted p s s') :
    TransferLifecycle s' ∧ TransfersMove supply s s' := by
  refine ⟨⟨fun q hq => ?_, h.evidence ▸ hl.evidence⟩,
    fun q hq => ⟨q, h.transfers ▸ mem_append_left _ hq, rfl, .refl⟩, fun q hq => ?_⟩
  · rw [h.transfers, mem_append, mem_singleton] at hq
    obtain hq | rfl := hq
    · obtain ⟨c, hc, hh⟩ := hl.held q hq
      obtain ⟨g, hg, hlapses⟩ := h.others q.budgetId q.id fun ⟨_, he⟩ => h.unused q hq he
      refine ⟨g c, ?_, hh.lapses (hlapses c)⟩
      rw [Store.transferHold, hg, ← Store.transferHold, hc]
      rfl
    · rw [h.phase]
      exact h.own
  · rw [h.transfers, mem_append, mem_singleton] at hq
    obtain hq | rfl := hq
    · exact ⟨q.phase, .inr ⟨q, hq, rfl, rfl⟩, .refl⟩
    · exact ⟨.proposed, .inl rfl, h.phase ▸ .refl⟩

theorem transferLifecycle_evidence {row : EvidenceRow} (hl : TransferLifecycle s)
    (h : EvidenceAdded row s s') : TransferLifecycle s' ∧ TransfersMove supply s s' := by
  refine ⟨⟨fun p hp => ?_, ?_⟩, .of_transfers h.transfers⟩
  · obtain ⟨c, hc, hh⟩ := hl.held p (h.transfers ▸ hp)
    exact h.holds.transferHolding hc hh
  · rw [h.evidence, map_append, nodup_append]
    refine ⟨hl.evidence, by simp, ?_⟩
    rintro _ he _ hrow rfl
    obtain ⟨e, he, hkey⟩ := mem_map.1 he
    simp only [map_cons, map_nil, mem_singleton] at hrow
    rw [hrow] at hkey
    simp only [Prod.mk.injEq] at hkey
    exact h.unused e he hkey

theorem transferLifecycle_deed (hs : Sound s) (hl : TransferLifecycle s)
    (h : Deed host supply budgetId s s') : TransferLifecycle s' ∧ TransfersMove supply s s' := by
  obtain h | ⟨p, phase, hp, hmoves, h⟩ | ⟨p, h⟩ | ⟨row, h⟩ := deed_transfers h
  · exact transferLifecycle_kept hl h
  · exact transferLifecycle_moved hs hl hp hmoves h
  · exact transferLifecycle_admitted hl h
  · exact transferLifecycle_evidence hl h

theorem transferLifecycle_deeds (hs : Sound s) (hl : TransferLifecycle s)
    (h : Deeds host supply budgetId s s') : TransferLifecycle s' ∧ TransfersMove supply s s' := by
  refine (h.keep (P := fun u => Sound u ∧ TransferLifecycle u ∧ TransfersMove supply s u)
    ⟨hs, hl, .of_transfers rfl⟩ fun u u' hu hdeed => ?_).2
  obtain ⟨hlu, hmoves⟩ := transferLifecycle_deed hu.1 hu.2.1 hdeed
  exact ⟨hu.1.deeds (.single hdeed), hlu, hu.2.2.trans hmoves⟩

/-- What a step may initiate and settle. -/
def transferSupply (step : Step) : Supply where
  claim _ _ _ := True
  effects id effects := ∃ input r, step.op = .verifyTransferSettlement input (some r) ∧
    input.proposalId = id ∧ r.claimEffects = some effects ∧ r.wellFormed = true
  session _ _ := True
  initiation id := ∃ input, step.op = .reportTransferInitiated input ∧ input.proposalId = id

theorem supplies_transferSupply (step : Step) : Supplies host (transferSupply step) step := by
  obtain ⟨call, op⟩ := step
  cases op <;> first | exact trivial | skip
  case saveSpendSession input => exact fun _ _ => trivial
  case saveProspectiveClaim input => exact fun _ _ _ _ => trivial
  case admitSessionCompletion input => exact ⟨trivial, fun _ _ _ _ => trivial⟩
  case reportTransferInitiated input => exact ⟨input, rfl, rfl⟩
  case verifyTransferSettlement input settlement =>
    exact fun r effects hr hformed he => ⟨input, r, by rw [hr], rfl, he, hformed⟩

theorem transferLifecycle_apply {step : Step} {answer : Answer} (hs : Sound s)
    (hl : TransferLifecycle s) (h : apply host s step = .ok (answer, s')) :
    TransferLifecycle s' ∧ TransfersMove (transferSupply step) s s' := by
  by_cases hop : ∃ policy expectedVersion, step.op = .savePolicy policy expectedVersion
  · obtain ⟨call, op⟩ := step
    obtain ⟨policy, expectedVersion, rfl⟩ := hop
    obtain ⟨hlp, hmoves⟩ := @transferLifecycle_kept
      (transferSupply ⟨call, .savePolicy policy expectedVersion⟩) s
      (withPolicy s call.budgetId policy) hl (.of_claims rfl rfl rfl)
    obtain ⟨hl', hmoves'⟩ := transferLifecycle_deeds (hs.withPolicy policy) hlp
      (@savePolicy_deeds host (transferSupply ⟨call, .savePolicy policy expectedVersion⟩) _ _ _
        policy expectedVersion hs.distinct (quietly_ok h).1).2
    exact ⟨hl', hmoves.trans hmoves'⟩
  · exact transferLifecycle_deeds hs hl (apply_deeds hs.distinct (supplies_transferSupply step)
      (fun policy version he => hop ⟨policy, version, he⟩) h)

theorem transferLifecycle_empty : TransferLifecycle {} where
  held := by simp
  evidence := nodup_nil

theorem transferLifecycle_run (host : Host) (steps : List Step) :
    Sound (run host {} steps) ∧ TransferLifecycle (run host {} steps) :=
  run_inv host (P := fun u => Sound u ∧ TransferLifecycle u)
    ⟨sound_empty, transferLifecycle_empty⟩ throughout_true fun _ _ _ _ hu _ happly =>
      ⟨hu.1.apply happly, (transferLifecycle_apply hu.1 hu.2 happly).1⟩

/-! ## Approvals -/

theorem addApproval_foldl {requester : String} {checks : Checks} {P : ApprovalRow → Prop}
    {rows accepted : List ApprovalRow} (hrows : ∀ a ∈ rows, P a)
    (hnodup : (accepted.map (·.actorId)).Nodup)
    (haccepted : ∀ a ∈ accepted, P a ∧ a.actorId ≠ requester ∧ checks.current a = true) :
    ((rows.foldl (Store.addApproval requester checks) accepted).map (·.actorId)).Nodup ∧
      ∀ a ∈ rows.foldl (Store.addApproval requester checks) accepted,
        P a ∧ a.actorId ≠ requester ∧ checks.current a = true := by
  induction rows generalizing accepted with
  | nil => exact ⟨hnodup, haccepted⟩
  | cons row rows ih =>
    rw [foldl_cons]
    have hrest : ∀ a ∈ rows, P a := fun a ha => hrows a (mem_cons_of_mem _ ha)
    unfold Store.addApproval
    split
    · exact ih hrest hnodup haccepted
    · next hrow =>
      simp only [Bool.or_eq_true, beq_iff_eq, contains_iff_mem, Bool.not_eq_true', not_or,
        Bool.not_eq_false] at hrow
      refine ih hrest ?_ fun a ha => ?_
      · rw [map_append, nodup_append]
        refine ⟨hnodup, by simp, ?_⟩
        rintro _ hactor _ hnew rfl
        simp only [map_cons, map_nil, mem_singleton] at hnew
        exact hrow.1.2 (hnew ▸ hactor)
      · obtain ha | ha := mem_append.1 ha
        · exact haccepted a ha
        · obtain rfl := mem_singleton.1 ha
          exact ⟨hrows a mem_cons_self, hrow.1.1, hrow.2⟩

/-- **The current approvals** of a proposal come from different actors other than the requester, and
are active, unexpired and of its payload. -/
theorem currentApprovals_ok (s : Store) (id hash requester now : String) (checks : Checks) :
    ((s.currentApprovals id hash requester now checks false).map (·.actorId)).Nodup ∧
      ∀ a ∈ s.currentApprovals id hash requester now checks false,
        (a ∈ s.approvals ∧ a.proposalId = id ∧ a.payloadHash = hash ∧ a.status = .active ∧
          now < a.expiresAt) ∧ a.actorId ≠ requester ∧ checks.current a = true := by
  unfold Store.currentApprovals
  refine addApproval_foldl (fun a ha => ?_) nodup_nil (by simp)
  rw [mem_sortOn, mem_sortOn, mem_filter] at ha
  simpa [and_assoc] using ha

/-- **A report** of a transfer that is not a replay finds it approved, with the approvals it needs. -/
theorem reportTransferInitiated_approved {call : Call} {input : RecheckCommand}
    (h : s.reportTransferInitiated host call input = .ok s') :
    s' = s ∨ ∃ p ∈ s.transfers, p.id = input.proposalId ∧ p.phase = .approved ∧
      call.checks.required ≤ (s.transferApprovals call p false).length := by
  obtain ⟨p, hp, h⟩ := bind_ok.1 h
  obtain ⟨replayed, -, h⟩ := bind_ok.1 h
  obtain ⟨hmem, hid, -⟩ := command_ok hp
  cases replayed with
  | true =>
    cases h
    exact .inl rfl
  | false =>
    obtain ⟨_, h⟩ := rest_ok h
    obtain ⟨_, happroved, h⟩ := bind_ok.1 h
    simp only [reject_ok, Bool.or_eq_false_iff, bne_eq_false_iff_eq, decide_eq_false_iff_not,
      not_lt] at happroved
    exact .inr ⟨p, hmem, hid, happroved.1, happroved.2⟩

end Invariant

/-! ## Runs -/

/-- A step that settles a transfer with a confirmed settlement. -/
def Settles (step : Step) (id : String) : Prop :=
  ∃ input r, step.op = .verifyTransferSettlement input (some r) ∧ input.proposalId = id ∧
    r.confirmed = true

/-- The approvals that a report of a transfer needs. -/
def EnoughApprovals (s : Store) (call : Call) (p : Transfer) : Prop :=
  ∃ approvals : List ApprovalRow, call.checks.required ≤ approvals.length ∧
    (approvals.map (·.actorId)).Nodup ∧ ∀ a ∈ approvals,
      (a ∈ s.approvals ∧ a.proposalId = p.id ∧ a.payloadHash = p.payloadHash ∧
        a.status = .active ∧ call.now < a.expiresAt) ∧ a.actorId ≠ p.actorId ∧
          call.checks.current a = true

def callIn (budgetId actorId key now : String) : Call :=
  { sampleCall actorId key with budgetId, now }

def samplePlan (id : String) : TransferPlan where
  payloadHash := id
  policyHash := "policy"
  policyVersion := "1"
  snapshotId := "snapshot"
  expiresAt := "2026-06-01T00:00:00.000Z"
  reservations := []

def admitted (budgetId : String) : List Step :=
  [⟨callIn budgetId "ada" ("policy:" ++ budgetId) sampleNow,
      .savePolicy (samplePolicy "1" .block) none⟩,
    ⟨callIn budgetId "ada" ("admit:" ++ budgetId) sampleNow, .admitTransferProposal {
      plan := samplePlan budgetId, sessionId := none, expectedClaimSetRevision := "0"
      proposalId := "transfer:" ++ budgetId, outcome := some ⟨true, none⟩ }⟩]

def recheckInput (budgetId : String) (expectedVersion : Nat) (revision : String) :
    RecheckCommand where
  proposalId := "transfer:" ++ budgetId
  payloadHash := budgetId
  expectedVersion := expectedVersion
  expectedClaimSetRevision := revision
  outcome := some ⟨true, none⟩

def settled (budgetId : String) : List Step :=
  admitted budgetId ++
    [⟨callIn budgetId "bob" ("approve:" ++ budgetId) sampleNow,
        .approveTransfer (recheckInput budgetId 1 "1") ("approval:" ++ budgetId)⟩,
      ⟨callIn budgetId "ada" ("initiate:" ++ budgetId) sampleNow,
        .reportTransferInitiated (recheckInput budgetId 2 "1")⟩,
      ⟨callIn budgetId "ada" ("settle:" ++ budgetId) sampleNow,
        .verifyTransferSettlement (recheckInput budgetId 3 "2").toTransferCommand (some {
          confirmed := true, sourceObserved := true, destinationObserved := true
          reconciled := true, claimEffects := some [], evidenceIds := ["transaction"]
          reasons := [] })⟩]

end BalanceFrame.Holds
