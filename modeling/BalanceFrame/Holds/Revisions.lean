import BalanceFrame.Holds.Views
import Std.Data.String.ToNat

/-!
# A revision names a claim set

Every statement that changes what a claim set is read from raises the revision (`Progress`), except
`savePolicy`: a new reservation mode is a new view, and only an open proposal that it closes raises
the revision (`mode_flip_keeps_revision`). Where each saved policy keeps the mode or raises the
revision (`KeepsMode`), two claim sets of one revision are equal, and a call that validates against
a revision sees the bundles its plan was made from (`revision_names_claim_set`).
-/

namespace BalanceFrame.Holds

open Library List Except
open Liquidity (LiquidityClaimBundle LiquidityClaimEffect LiquidityClaimState)
open Workflow (Refusal Guarded)
open Store (SameView claimsOf coresOf mayInform)

/-- The revision never falls, and where it stays the view stays. -/
structure Progress (b : String) (s s' : Store) : Prop where
  le : s.revision b ≤ s'.revision b
  view : s'.revision b = s.revision b → SameView b s s'

namespace Progress

variable {s t s' : Store} {b budgetId : String} {host : Host} {now : String}

theorem refl (s : Store) : Progress b s s := ⟨le_rfl, fun _ => .refl s⟩

theorem trans (h : Progress b s t) (h' : Progress b t s') : Progress b s s' := by
  refine ⟨h.le.trans h'.le, fun he => ?_⟩
  have ht : t.revision b = s.revision b := le_antisymm (he ▸ h'.le) h.le
  exact (h.view ht).trans (h'.view (he.trans ht.symm))

theorem of_lt (h : s.revision b < s'.revision b) : Progress b s s' :=
  ⟨h.le, fun he => absurd he h.ne'⟩

theorem of_sameView (hrevision : s'.revision b = s.revision b) (h : SameView b s s') :
    Progress b s s' :=
  ⟨hrevision.ge, fun _ => h⟩

end Progress

section Statements

variable {s t s' : Store} {b budgetId : String} {host : Host} {now : String}

theorem sameView_of_claims (hclaims : s'.claimsOf b = s.claimsOf b)
    (hcores : s'.coresOf b = s.coresOf b) (hpolicies : s'.policies = s.policies)
    (hcurrent : s'.currentPolicies = s.currentPolicies)
    (hcompletions : s'.completions = s.completions) :
    SameView b s s' where
  claims := hclaims
  cores := hcores
  mode _ policy h := by
    refine ⟨policy, ?_, rfl⟩
    rw [Store.currentPolicy, hpolicies, hcurrent]
    exact h
  covers _ p h := ⟨p, hcompletions ▸ h, rfl, rfl⟩

theorem progress_persist {kind : OwnerKind} {ownerId : String} {bundle : LiquidityClaimBundle}
    (h : s.persistClaim budgetId kind ownerId bundle = .ok s') : Progress b s s' := by
  obtain ⟨claims, hs⟩ := Store.persistClaim_frame h
  by_cases hb : b = budgetId
  · subst hb
    refine .of_lt ?_
    rw [hs, Store.revision_bump]
    exact Nat.lt_succ_self _
  · refine .of_sameView ?_ (sameView_of_claims ?_ ?_ ?_ ?_ ?_)
    · rw [hs, Store.revision_bump_ne _ _ hb]
      rfl
    · obtain ⟨c, -, rfl⟩ | ⟨-, -, rfl⟩ := Store.persistClaim_cases h
      · rw [claimsOf, Store.bump_claims, Store.replaced, filter_map]
        have hkeep : ((fun c : ClaimRow => c.budgetId == b) ∘ fun c : ClaimRow =>
            if Store.OwnedBy budgetId kind ownerId c then { c with bundle } else c) =
              fun c => c.budgetId == b := by
          funext c
          simp only [Function.comp_apply]
          split <;> rfl
        rw [hkeep]
        refine (map_congr_left fun c hc => ?_).trans (map_id _)
        have hcb : c.budgetId = b := by simpa using (mem_filter.1 hc).2
        rw [if_neg fun hown => hb (hcb.symm.trans hown.1), id_eq]
      · rw [claimsOf, Store.bump_claims, filter_append]
        have hne : (budgetId == b) = false := beq_false_of_ne fun e => hb e.symm
        simp [claimsOf, hne]
    · rw [hs]
      rfl
    · rw [hs]
      rfl
    · rw [hs]
      rfl
    · rw [hs]
      rfl

theorem claimsOf_reread_ne (hb : b ≠ budgetId) :
    (s.reread host budgetId now).claimsOf b = s.claimsOf b := by
  rw [claimsOf, Store.reread_claims, filter_map]
  have hkeep : ((fun c : ClaimRow => c.budgetId == b) ∘ Store.lapse host budgetId now) =
      fun c => c.budgetId == b := by
    funext c
    simp
  rw [hkeep]
  refine (map_congr_left fun c hc => ?_).trans (map_id _)
  have hcb : c.budgetId = b := by simpa using (mem_filter.1 hc).2
  exact Store.lapse_of_ne _ _ _ _ (hcb ▸ hb)

theorem progress_reread (s : Store) (host : Host) (budgetId now : String) :
    Progress b s (s.reread host budgetId now) := by
  by_cases hb : b = budgetId
  · subst hb
    cases hc : s.changes host b now with
    | true =>
      refine .of_lt ?_
      rw [Store.revision_reread_of_changes s b host now hc]
      exact Nat.lt_succ_self _
    | false =>
      refine .of_sameView (Store.revision_reread_of_not_changes s b host now hc b)
        (sameView_of_claims ?_ (Store.coresOf_reread s b) (by simp) (by simp) (by simp))
      rw [claimsOf, claimsOf, Store.reread_claims_of_not_changes s b host now hc]
  · exact .of_sameView (Store.revision_reread_ne s budgetId host now hb)
      (sameView_of_claims (claimsOf_reread_ne hb) (Store.coresOf_reread s b) (by simp) (by simp)
        (by simp))

theorem coresOf_map {f : MetadataRow → MetadataRow} (hf : ∀ m, Store.core (f m) = Store.core m)
    (hmetadata : s'.metadata = s.metadata.map f) : s'.coresOf b = s.coresOf b := by
  have hbudget (m : MetadataRow) : (f m).budgetId = m.budgetId := by
    simpa [Store.core] using congrArg MetadataRow.budgetId (hf m)
  rw [coresOf, hmetadata, filter_map, map_map]
  have hkeep : ((fun m : MetadataRow => m.budgetId == b) ∘ f) = fun m => m.budgetId == b := by
    funext m
    simp [hbudget]
  rw [hkeep]
  exact map_congr_left fun m _ => hf m

theorem sameView_of_completions (hclaims : s'.claims = s.claims)
    (hmetadata : s'.metadata = s.metadata)
    (hpolicies : s'.policies = s.policies) (hcurrent : s'.currentPolicies = s.currentPolicies)
    (hcovers : ∀ id p, s.completions.find? (·.id == id) = some p →
      ∃ p', s'.completions.find? (·.id == id) = some p' ∧ p'.actorId = p.actorId ∧
        p'.payload = p.payload) : SameView b s s' where
  claims := by rw [claimsOf, claimsOf, hclaims]
  cores := by rw [coresOf, coresOf, hmetadata]
  mode _ policy h := by
    refine ⟨policy, ?_, rfl⟩
    rw [Store.currentPolicy, hpolicies, hcurrent]
    exact h
  covers := hcovers

theorem progress_edit {supply : Supply} (he : Edit supply budgetId s s') : Progress b s s' := by
  cases he with
  | restate owned id effects ends persisted => exact progress_persist persisted
  | supplied supplied kinds persisted => exact progress_persist persisted
  | prospective supplied unused entry persisted budget claim inserted =>
    rename_i t bundle row
    obtain ⟨_, inserted⟩ := rest_ok inserted
    cases inserted
    by_cases hb : b = budgetId
    · -- the row is new to the view, and its claim raised the revision
      subst hb
      obtain ⟨claims, rfl⟩ := Store.persistClaim_frame persisted
      refine .of_lt ?_
      have hlt : s.revision b < (({ s with claims } : Store).bump b).revision b := by
        rw [Store.revision_bump]
        exact Nat.lt_succ_self _
      exact hlt
    · refine (progress_persist persisted).trans (.of_sameView rfl
        (sameView_of_claims rfl ?_ rfl rfl rfl))
      have hne : (row.budgetId == b) = false :=
        beq_false_of_ne fun e => hb (e.symm.trans budget)
      simp [coresOf, hne]
  | admission supplied unused fits read persisted =>
    rename_i t p claim host now set
    obtain ⟨-, rfl, -⟩ := Store.claimSet_ok read
    refine Progress.trans ?_ ((progress_reread _ host budgetId now).trans
      (progress_persist persisted))
    refine .of_sameView rfl (sameView_of_completions rfl rfl rfl rfl fun id q hq => ?_)
    exact ⟨q, by rw [find?_append, hq, Option.some_or], rfl, rfl⟩
  | read read =>
    obtain ⟨-, rfl, -⟩ := Store.claimSet_ok read
    exact progress_reread _ _ _ _
  | metadata f kept ended =>
    exact .of_sameView rfl (sameView_of_claims rfl (coresOf_map kept rfl) rfl rfl rfl)
  | completion id f kept =>
    refine .of_sameView rfl (sameView_of_completions rfl rfl rfl rfl fun id' p hp => ?_)
    refine ⟨if p.id = id then f p else p, ?_, ?_⟩
    · have hids : ((fun q : Completion => q.id == id') ∘ fun q =>
          if q.id = id then f q else q) = fun q => q.id == id' := by
        funext q
        simp only [Function.comp_apply]
        split
        · rw [(kept q).1]
        · rfl
      rw [Store.setCompletion, find?_map, hids, hp]
      rfl
    · split
      · exact (kept p).2
      · exact ⟨rfl, rfl⟩
  | rest same =>
    refine .of_sameView ?_ (sameView_of_claims ?_ ?_ same.policies same.currentPolicies
      same.completions)
    · rw [Store.revision, Store.revision, same.revisions]
    · rw [claimsOf, claimsOf, same.claims]
    · rw [coresOf, coresOf, same.metadata]

theorem progress_edits {supply : Supply} (he : Edits supply budgetId s s') : Progress b s s' := by
  induction he with
  | refl => exact .refl s
  | tail _ hedit ih => exact ih.trans (progress_edit hedit)

end Statements

/-! ## Saving a policy -/

/-- An open proposal of the budget whose claim was not cancelled: closing it raises the revision. -/
def Invalidates (s : Store) (b : String) : Prop :=
  (∃ p ∈ s.transfers, p.budgetId = b ∧
    (p.phase ≠ .confirmed ∧ p.phase ≠ .closed ∧ p.phase ≠ .initiated) ∧
      ∃ c, s.ownedClaim b .proposal p.id = some c ∧ c.bundle.state ≠ .cancelled) ∨
  ∃ p ∈ s.completions, p.budgetId = b ∧ (p.phase = .proposed ∨ p.phase = .approved) ∧
    ∃ c, s.ownedClaim b .sessionCompletion p.id = some c ∧ c.bundle.state ≠ .cancelled

/-- **The condition on a step**: a policy that is saved keeps the reservation mode of the policy it
replaces, or no stored reservation may only inform, or a proposal is closed. -/
def KeepsMode (s : Store) (step : Step) : Prop :=
  ∀ policy expectedVersion, step.op = .savePolicy policy expectedVersion →
    ∀ old, s.currentPolicy step.call.budgetId = .ok old →
      policy.reservationMode = old.reservationMode ∨ s.mayInform step.call.budgetId = false ∨
        Invalidates s step.call.budgetId

/-- The claim of an owner is cancelled. -/
def Cancelled (s : Store) (b : String) (k : OwnerKind) (o : String) : Prop :=
  ∃ c, s.ownedClaim b k o = some c ∧ c.bundle.state = .cancelled

section Policies

variable {s t s' : Store} {b budgetId now : String} {host : Host}

variable {k : OwnerKind} {o : String}

theorem cancelled_persist {k' : OwnerKind} {o' : String} {bundle : LiquidityClaimBundle}
    (hp : s.persistClaim budgetId k o (inState bundle .cancelled) = .ok s')
    (h : Cancelled s b k' o') : Cancelled s' b k' o' := by
  by_cases he : b = budgetId ∧ k' = k ∧ o' = o
  · obtain ⟨rfl, rfl, rfl⟩ := he
    obtain ⟨c, hc, hb⟩ := Store.ownedClaim_persist_self hp
    exact ⟨c, hc, by rw [hb]; rfl⟩
  · obtain ⟨c, hc, hstate⟩ := h
    exact ⟨c, (Store.ownedClaim_persist_ne hp he).trans hc, hstate⟩

theorem cancelled_of_claims (hclaims : s'.claims = s.claims) (h : Cancelled s b k o) :
    Cancelled s' b k o := by
  obtain ⟨c, hc, hstate⟩ := h
  refine ⟨c, ?_, hstate⟩
  rw [Store.ownedClaim, hclaims]
  exact hc

theorem closedState_superseded : closedState "superseded" = .cancelled := if_neg (by decide)

/-- A claim that is cancelled, or already was, keeps the others cancelled. -/
theorem changed_cancels {c : ClaimRow} (hc : s.ownedClaim budgetId k o = some c)
    (h : c.bundle.state = .cancelled ∧ t = s ∨ c.bundle.state ≠ .cancelled ∧
      s.persistClaim budgetId k o (inState c.bundle .cancelled) = .ok t)
    (hclaims : s'.claims = t.claims) :
    (∀ b k o, Cancelled s b k o → Cancelled s' b k o) ∧ Cancelled s' budgetId k o := by
  obtain ⟨hstate, rfl⟩ | ⟨-, hp⟩ := h
  · exact ⟨fun b k o hc => cancelled_of_claims hclaims hc,
      cancelled_of_claims hclaims ⟨c, hc, hstate⟩⟩
  · refine ⟨fun b k o hc => cancelled_of_claims hclaims (cancelled_persist hp hc), ?_⟩
    obtain ⟨d, hd, hb⟩ := Store.ownedClaim_persist_self hp
    exact cancelled_of_claims hclaims ⟨d, hd, by rw [hb]; rfl⟩

/-- Superseding a transfer cancels its claim, unless it was initiated, and frees no other. -/
theorem closeTransfer_cancels {p : Transfer} (h : s.closeTransfer p "superseded" now = .ok s') :
    (∀ b k o, Cancelled s b k o → Cancelled s' b k o) ∧
      (p.phase ≠ .initiated → Cancelled s' p.budgetId .proposal p.id) := by
  unfold Store.closeTransfer at h
  dsimp only at h
  split at h
  · next hphase =>
    rw [Store.updateTransfer_ok h]
    exact ⟨fun b k o hc => cancelled_of_claims rfl hc, fun hne => absurd hphase hne⟩
  · obtain ⟨t, ht, h⟩ := bind_ok.1 h
    rw [Store.updateTransfer_ok h]
    obtain ⟨c, hc, hchange⟩ := Store.changeClaim_ok ht
    obtain ⟨hkeep, hself⟩ := changed_cancels hc (closedState_superseded ▸ hchange) rfl
    exact ⟨hkeep, fun _ => hself⟩

theorem closeCompletion_cancels {p : Completion}
    (h : s.closeCompletion p "superseded" now = .ok s') :
    (∀ b k o, Cancelled s b k o → Cancelled s' b k o) ∧
      (p.phase ≠ .writeIntent → Cancelled s' p.budgetId .sessionCompletion p.id) := by
  unfold Store.closeCompletion at h
  dsimp only at h
  split at h
  · next hphase =>
    rw [Store.updateCompletion_ok h]
    exact ⟨fun b k o hc => cancelled_of_claims rfl hc, fun hne => absurd hphase hne⟩
  · obtain ⟨t, ht, h⟩ := bind_ok.1 h
    rw [Store.updateCompletion_ok h]
    obtain ⟨c, hc, hchange⟩ := Store.changeCompletionClaim_ok ht
    obtain ⟨hkeep, hself⟩ := changed_cancels hc (closedState_superseded ▸ hchange) rfl
    exact ⟨hkeep, fun _ => hself⟩

/-- Closing records in order cancels the claim of each that is not spared, and frees no other. -/
theorem close_each_cancels {P : Type} {close : Store → P → Guarded Store} {Spared : P → Prop}
    (owner : P → String × String)
    (hone : ∀ {s s' p}, close s p = .ok s' → (∀ b k o, Cancelled s b k o → Cancelled s' b k o) ∧
      (¬Spared p → Cancelled s' (owner p).1 k (owner p).2)) {l : List P}
    (h : l.foldlM close s = .ok s') :
    (∀ b k o, Cancelled s b k o → Cancelled s' b k o) ∧
      ∀ p ∈ l, ¬Spared p → Cancelled s' (owner p).1 k (owner p).2 := by
  induction l generalizing s with
  | nil =>
    cases h
    exact ⟨fun _ _ _ h => h, fun p hp => absurd hp not_mem_nil⟩
  | cons q l ih =>
    rw [foldlM_cons] at h
    obtain ⟨t, ht, h⟩ := bind_ok.1 h
    obtain ⟨hkeep, hself⟩ := hone ht
    obtain ⟨hkeep', hall⟩ := ih h
    refine ⟨fun b k o hc => hkeep' b k o (hkeep b k o hc), fun p hp hspared => ?_⟩
    obtain rfl | hp := mem_cons.1 hp
    · exact hkeep' _ _ _ (hself hspared)
    · exact hall p hp hspared

theorem closeTransfers_cancel {l : List Transfer}
    (h : l.foldlM (fun s p => s.closeTransfer p "superseded" now) s = .ok s') :
    (∀ b k o, Cancelled s b k o → Cancelled s' b k o) ∧
      ∀ p ∈ l, p.phase ≠ .initiated → Cancelled s' p.budgetId .proposal p.id :=
  close_each_cancels (fun p => (p.budgetId, p.id)) closeTransfer_cancels h

theorem closeCompletions_cancel {l : List Completion}
    (h : l.foldlM (fun s p => s.closeCompletion p "superseded" now) s = .ok s') :
    (∀ b k o, Cancelled s b k o → Cancelled s' b k o) ∧
      ∀ p ∈ l, p.phase ≠ .writeIntent → Cancelled s' p.budgetId .sessionCompletion p.id :=
  close_each_cancels (fun p => (p.budgetId, p.id)) closeCompletion_cancels h

theorem ownedClaim_of_claimsOf (h : s'.claimsOf b = s.claimsOf b) :
    s'.ownedClaim b k o = s.ownedClaim b k o := by
  have hread (u : Store) : u.ownedClaim b k o =
      (u.claimsOf b).find? fun c => c.ownerKind == k && c.ownerId == o := by
    rw [Store.ownedClaim, claimsOf, find?_filter]
    congr 1
    funext c
    rw [Bool.decide_and, Bool.decide_coe, Bool.decide_coe, Bool.and_assoc]
  rw [hread, hread, h]

theorem invalidateProposals_lt (hd : DistinctProposals s) (hv : Invalidates s b)
    (h : s.invalidateProposals b now none = .ok s') (hprogress : Progress b s s') :
    s.revision b < s'.revision b := by
  refine lt_of_le_of_ne hprogress.le fun he => ?_
  have hclaims := (hprogress.view he.symm).claims
  obtain ⟨t, ht, h⟩ := bind_ok.1 h
  have hback : ∀ k o, Cancelled s' b k o → ∀ c, s.ownedClaim b k o = some c →
      c.bundle.state = .cancelled := by
    rintro k o ⟨d, hd, hstate⟩ c hc
    rw [ownedClaim_of_claimsOf hclaims, hc] at hd
    exact Option.some.inj hd ▸ hstate
  obtain ⟨p, hp, hb, ⟨hconfirmed, hclosed, hinitiated⟩, c, hc, hstate⟩ |
    ⟨p, hp, hb, hphase, c, hc, hstate⟩ := hv
  · have hcancelled := (closeTransfers_cancel ht).2 p (by simp [hp, hb, hconfirmed, hclosed])
      hinitiated
    exact hstate (hback _ _ ((closeCompletions_cancel h).1 _ _ _ (hb ▸ hcancelled)) c hc)
  · have hmem : p ∈ t.completions := (closeTransfers_distinct hd ht).2 ▸ hp
    have hcancelled := (closeCompletions_cancel h).2 p
      (by obtain hphase | hphase := hphase <;> simp [hmem, hb, hphase])
      (by obtain hphase | hphase := hphase <;> simp [hphase])
    exact hstate (hback _ _ (hb ▸ hcancelled) c hc)

theorem find?_setCurrentPolicy (s : Store) (b budgetId version : String) :
    (s.setCurrentPolicy budgetId version).currentPolicies.find? (·.1 == b) =
      if b = budgetId then some (budgetId, version) else s.currentPolicies.find? (·.1 == b) := by
  unfold Store.setCurrentPolicy
  by_cases h : s.currentPolicies.any (·.1 == budgetId) = true
  · simp only [h, if_true]
    rw [Store.find?_map_fst (fun c => by split <;> rfl)]
    by_cases hb : b = budgetId
    · subst hb
      obtain ⟨c, hc⟩ := Option.isSome_iff_exists.1 (find?_isSome.2 (any_eq_true.1 h))
      have hid := find?_some hc
      simp only [beq_iff_eq] at hid
      simp [hc, hid]
    · rw [if_neg hb]
      cases hc : s.currentPolicies.find? (·.1 == b) with
      | none => rfl
      | some c =>
        have hid := find?_some hc
        simp only [beq_iff_eq] at hid
        have hne : c.1 ≠ budgetId := hid ▸ hb
        simp [hne]
  · simp only [h, Bool.false_eq_true, if_false]
    by_cases hb : b = budgetId
    · subst hb
      have hnone : s.currentPolicies.find? (·.1 == b) = none :=
        find?_eq_none.2 fun c hc he => h (any_eq_true.2 ⟨c, hc, he⟩)
      simp [find?_append, hnone]
    · have hne : budgetId ≠ b := fun e => hb e.symm
      simp [find?_append, hb, hne]

theorem currentPolicy_withPolicy_ne {policy old : PolicyRow} (hb : b ≠ budgetId)
    (h : s.currentPolicy b = .ok old) : (withPolicy s budgetId policy).currentPolicy b = .ok old := by
  obtain ⟨c, hc, hold⟩ := Option.bind_eq_some_iff.1 (orStop_ok.1 h)
  refine orStop_ok.2 (Option.bind_eq_some_iff.2 ⟨c, ?_, ?_⟩)
  · rw [withPolicy, find?_setCurrentPolicy, if_neg hb]
    exact hc
  · have hpolicies : (withPolicy s budgetId policy).policies =
        s.policies ++ [{ policy with budgetId }] := rfl
    rw [hpolicies, find?_append, hold, Option.some_or]

theorem currentPolicy_withPolicy {policy : PolicyRow}
    (hnew : (s.policies.any fun p => p.budgetId == b && p.version == policy.version) = false) :
    (withPolicy s b policy).currentPolicy b = .ok { policy with budgetId := b } := by
  refine orStop_ok.2 (Option.bind_eq_some_iff.2 ⟨(b, policy.version), ?_, ?_⟩)
  · rw [withPolicy, find?_setCurrentPolicy, if_pos rfl]
  · have hpolicies : (withPolicy s b policy).policies =
        s.policies ++ [{ policy with budgetId := b }] := rfl
    have hnone : s.policies.find? (fun p => p.budgetId == b && p.version == policy.version) = none :=
      find?_eq_none.2 fun p hp he => any_eq_false.1 hnew p hp he
    simp [hpolicies, find?_append, hnone]

/-- **Every call makes progress**, when a saved policy keeps the mode. -/
theorem progress_apply {step : Step} {answer : Answer} (hs : Sound s) (hC : KeepsMode s step)
    (h : apply host s step = .ok (answer, s')) : Progress b s s' := by
  by_cases hop : ∃ policy expectedVersion, step.op = .savePolicy policy expectedVersion
  · obtain ⟨call, op⟩ := step
    obtain ⟨policy, expectedVersion, rfl⟩ := hop
    have hsave := (quietly_ok h).1
    have hp := @Sound.withPolicy call.budgetId s hs policy
    obtain ⟨hinvalidate, hdeeds⟩ := @savePolicy_deeds host anySupply _ _ _ policy expectedVersion
      hs.distinct hsave
    have hprogress (b : String) : Progress b (withPolicy s call.budgetId policy) s' :=
      progress_edits (deeds_edits hp.rows hdeeds)
    have hsame (hm : s.mayInform b = true → ∀ old, s.currentPolicy b = .ok old →
        ∃ policy', (withPolicy s call.budgetId policy).currentPolicy b = .ok policy' ∧
          policy'.reservationMode = old.reservationMode) :
        Progress b s (withPolicy s call.budgetId policy) :=
      .of_sameView rfl ⟨rfl, rfl, hm, fun _ p hp => ⟨p, hp, rfl, rfl⟩⟩
    by_cases hb : b = call.budgetId
    · subst hb
      cases hcurrent : s.currentPolicy call.budgetId with
      | error _ =>
        exact (hsame fun _ old hold => by rw [hcurrent] at hold; cases hold).trans (hprogress _)
      | ok old =>
        obtain hmode | hinform | hv := hC policy expectedVersion rfl old hcurrent
        · obtain ⟨_, hsave⟩ := rest_ok hsave
          obtain ⟨_, hsave⟩ := rest_ok hsave
          obtain ⟨_, hsave⟩ := rest_ok hsave
          obtain ⟨_, hnew, -⟩ := bind_ok.1 hsave
          refine (hsame fun _ old' hold => ?_).trans (hprogress _)
          obtain rfl := ok.inj (hcurrent.symm.trans hold)
          exact ⟨_, currentPolicy_withPolicy (reject_ok.1 hnew), hmode⟩
        · exact (hsame fun h => by rw [hinform] at h; cases h).trans (hprogress _)
        · have hlt := @invalidateProposals_lt (withPolicy s call.budgetId policy) s' _ _ hp.distinct
            hv hinvalidate (hprogress _)
          exact .of_lt hlt
    · exact (hsame fun _ old hold => ⟨old, currentPolicy_withPolicy_ne hb hold, rfl⟩).trans
        (hprogress b)
  · exact progress_edits (deeds_edits hs.rows (apply_deeds hs.distinct (supplies_any step)
      (fun policy version he => hop ⟨policy, version, he⟩) h))

end Policies

/-! ## Runs -/

section Runs

variable {host : Host} {s t : Store} {b now : String}

theorem progress_run {steps : List Step} (hs : Sound s) (hC : Throughout host KeepsMode s steps) :
    Sound (run host s steps) ∧ Progress b s (run host s steps) :=
  run_inv host (P := fun u => Sound u ∧ Progress b s u) ⟨hs, .refl s⟩ hC
    fun _ _ _ _ hu hstep happly =>
      ⟨hu.1.apply happly, hu.2.trans (progress_apply hu.1 hstep happly)⟩

theorem bundlesAt_of_progress {set : ClaimSet} {u : Store}
    (hread : s.claimSet host b now = .ok (set, t)) (hprogress : Progress b t u)
    (he : u.revision b ≤ set.revision) : u.bundlesAt host b now = .ok set.bundles := by
  obtain ⟨hbundles, rfl, hrevision⟩ := Store.claimSet_ok hread
  have hsame : u.revision b = (s.reread host b now).revision b :=
    le_antisymm (hrevision ▸ he) hprogress.le
  exact Store.bundlesAt_of_sameView (hprogress.view hsame) (Store.bundlesAt_reread hbundles)

end Runs

theorem validate_revision {host : Host} {s s' : Store} {b now : String} {revision : Nat}
    {plan : Option (String × String)} {outcome : Option Validation} {rejects : Bool}
    {result : Validation}
    (h : s.validate host b (toString revision) now plan outcome rejects = .ok (result, s')) :
    (s.reread host b now).revision b = revision := by
  obtain ⟨⟨set, t⟩, hread, h⟩ := bind_ok.1 h
  obtain ⟨_, hcheck, -⟩ := bind_ok.1 h
  obtain ⟨_, hrevision, -⟩ := bind_ok.1 hcheck
  obtain ⟨-, rfl, hset⟩ := Store.claimSet_ok hread
  have he : toString set.revision = toString revision := by simpa using hrevision
  exact hset.symm.trans (Nat.repr_injective he)

/-- **A revision names a claim set**: after a claim set was read, in every run that keeps the mode,
a claim set of the same revision at the same time has the same bundles, and a call that validates
against the revision, whatever statements it has run before, finds these bundles. -/
theorem revision_names_claim_set (host : Host) (before after : List Step) (b now : String)
    (set : ClaimSet) (t : Store) (h : (run host {} before).claimSet host b now = .ok (set, t))
    (hC : Throughout host KeepsMode t after) :
    (∀ set' t', (run host t after).claimSet host b now = .ok (set', t') →
      set'.revision = set.revision → set'.bundles = set.bundles) ∧
    ∀ u plan outcome rejects result u', Edits anySupply b (run host t after) u →
      u.validate host b (toString set.revision) now plan outcome rejects = .ok (result, u') →
        u.bundlesAt host b now = .ok set.bundles := by
  have hs : Sound t := by
    obtain ⟨-, rfl, -⟩ := Store.claimSet_ok h
    have hs : Sound (run host {} before) := sound_run sound_empty before
    exact ⟨hs.rows.reread host now, by simpa using hs.transferIds⟩
  have hprogress := (progress_run (b := b) hs hC).2
  refine ⟨fun set' t' h' he => ?_, fun u plan outcome rejects result u' hedits hvalid => ?_⟩
  · obtain ⟨hbundles, rfl, hrevision⟩ := Store.claimSet_ok h'
    have hle := (progress_reread (b := b) (run host t after) host b now).le
    have hagain := bundlesAt_of_progress h hprogress (hle.trans (hrevision.symm.trans he).le)
    exact ok.inj (hbundles.symm.trans hagain)
  · have hle := (progress_reread (b := b) u host b now).le
    exact bundlesAt_of_progress h (hprogress.trans (progress_edits hedits))
      (hle.trans (validate_revision hvalid).le)

def saveReservation : Step :=
  ⟨sampleCall "ada" "reserve", .saveProspectiveClaim {
    claim := {
      claimId := "reserved", kind := .reservation, sourceId := "plan", scope := .category "food"
      amount := sampleMoney, effectiveFrom := sampleNow, expiresAt := none, policyVersion := "1"
      snapshotId := "snapshot" }
    expectedClaimSetRevision := "0", outcome := some ⟨true, none⟩ }⟩

def replacePolicy (mode : ClaimMode) : Step :=
  ⟨sampleCall "ada" "replace", .savePolicy (samplePolicy "2" mode) (some "1")⟩

def reservedBundle : LiquidityClaimBundle where
  id := "reserved"
  creationSnapshotId := "snapshot"
  creationPolicyVersion := "1"
  state := .active
  expiresAt := "2027-01-01T00:00:00.000Z"
  initiated := false
  effects := [{
    kind := .category, resourceId := "food", amount := sampleMoney
    economicObligationId := "plan:category:food", sourceEconomicObligationId := some "plan"
    categoryId := some "food", includedInBalance := false, matchedTransactionIds := [] }]

theorem revision_names_claim_set_reserved :
    ∃ t, (run sampleHost {} [firstPolicy, saveReservation]).claimSet sampleHost "budget" sampleNow =
      .ok (⟨1, [reservedBundle]⟩, t) ∧
        ∀ set' t', (run sampleHost t [replacePolicy .block]).claimSet sampleHost "budget" sampleNow =
          .ok (set', t') → set'.revision = 1 → set'.bundles = [reservedBundle] := by
  have hset : sampleSet (run sampleHost {} [firstPolicy, saveReservation]) =
      some ⟨1, [reservedBundle]⟩ := by decide +kernel
  obtain ⟨t, ht⟩ := claimSet_of_sampleSet hset
  refine ⟨t, ht, (revision_names_claim_set sampleHost [firstPolicy, saveReservation]
    [replacePolicy .block] "budget" sampleNow _ t ht ⟨?_, trivial⟩).1⟩
  intro policy expectedVersion hop old hold
  obtain ⟨-, rfl, -⟩ := Store.claimSet_ok ht
  cases hop
  have hblock : ((run sampleHost {} [firstPolicy, saveReservation]).reread sampleHost "budget"
      sampleNow).currentPolicy "budget" = .ok (samplePolicy "1" .block) := by decide +kernel
  obtain rfl := ok.inj (hblock.symm.trans hold)
  exact .inl rfl

theorem mode_flip_keeps_revision :
    ¬ ∀ (host : Host) (before after : List Step) (b now : String) (set : ClaimSet) (t : Store),
      (run host {} before).claimSet host b now = .ok (set, t) →
        ∀ set' t', (run host t after).claimSet host b now = .ok (set', t') →
          set'.revision = set.revision → set'.bundles = set.bundles := by
  intro hall
  have hset : sampleSet (run sampleHost {} [firstPolicy, saveReservation]) =
      some ⟨1, [reservedBundle]⟩ := by decide +kernel
  have hset' : sampleSet (run sampleHost ((run sampleHost {} [firstPolicy, saveReservation]).reread
      sampleHost "budget" sampleNow) [replacePolicy .inform]) = some ⟨1, []⟩ := by decide +kernel
  obtain ⟨t, ht⟩ := claimSet_of_sampleSet hset
  obtain ⟨t', ht'⟩ := claimSet_of_sampleSet hset'
  obtain ⟨-, rfl, -⟩ := Store.claimSet_ok ht
  have hequal := hall sampleHost _ _ "budget" sampleNow _ _ ht _ t' ht' rfl
  cases hequal

end BalanceFrame.Holds
