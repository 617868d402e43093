import BalanceFrame.Holds.Calls

/-!
# The calls of session completions and transfers

The deeds of each call that moves a proposal, and `apply_deeds` for every call.
-/

namespace BalanceFrame.Holds

open Library List
open Liquidity (LiquidityClaimBundle LiquidityClaimEffect LiquidityClaimState)
open Workflow (Refusal Guarded)

variable {host : Host} {supply : Supply} {budgetId now : String} {s s' : Store} {call : Call}

/-! ## Session completions -/

variable {input : RecheckCommand} {intentId approvalId : String} {p : Completion} {answer : Answer}

theorem loadCompletion_ok {id : String} (h : s.loadCompletion id = .ok p) :
    p ∈ s.completions ∧ p.id = id := by
  have hfound := orStop_ok.1 h
  exact ⟨mem_of_find?_eq_some hfound, by simpa using find?_some hfound⟩

theorem commanded_ok {proposalId payloadHash : String}
    (h : s.commanded host call proposalId payloadHash = .ok p) :
    p ∈ s.completions ∧ p.id = proposalId ∧ p.budgetId = call.budgetId := by
  obtain ⟨q, hq, h⟩ := bind_ok.1 h
  obtain ⟨_, hbudget, h⟩ := bind_ok.1 h
  obtain ⟨_, h⟩ := rest_ok h
  obtain ⟨_, h⟩ := rest_ok h
  obtain ⟨_, h⟩ := rest_ok h
  cases h
  obtain ⟨hmem, hid⟩ := loadCompletion_ok hq
  exact ⟨hmem, hid, by simpa using hbudget⟩

theorem completionCommand_ok {proposalId payloadHash : String}
    (h : s.completionCommand host call proposalId payloadHash = .ok p) :
    p ∈ s.completions ∧ p.id = proposalId ∧ p.budgetId = call.budgetId := by
  obtain ⟨q, hq, h⟩ := bind_ok.1 h
  obtain ⟨_, h⟩ := rest_ok h
  cases h
  exact commanded_ok hq

theorem validateCompletionClaim_fresh {payload : CompletionPayload} {claim : LiquidityClaimBundle}
    {policy : PolicyRow} {session : SessionRow}
    (h : validateCompletionClaim host payload claim policy session now = .ok ()) :
    claim.state = .active ∧ claim.initiated = false := by
  obtain ⟨_, hc, -⟩ := bind_ok.1 h
  simp only [reject_ok, Bool.or_eq_false_iff, bne_eq_false_iff_eq] at hc
  exact ⟨hc.1.1.1.2, hc.1.1.2⟩

theorem length_filter_add_le {α : Type} {p q : α → Bool} (l : List α)
    (hapart : ∀ a, p a = true → q a = false) :
    (l.filter p).length + (l.filter q).length ≤ l.length := by
  induction l with
  | nil => simp
  | cons a l ih =>
    by_cases hp : p a = true
    · simp only [filter_cons, hp, hapart a hp, if_true, length_cons]
      simp only [Bool.false_eq_true, if_false]
      omega
    · by_cases hq : q a = true
      · simp only [filter_cons, hp, hq, if_true, length_cons]
        simp only [Bool.false_eq_true, if_false]
        omega
      · simp only [filter_cons, hp, hq, length_cons]
        simp only [Bool.false_eq_true, if_false]
        omega

/-- **A validated claim fits its payload**: each charge has one effect and there is one debit, so
there is no room for another category. -/
theorem validateCompletionClaim_fits {payload : CompletionPayload} {claim : LiquidityClaimBundle}
    {policy : PolicyRow} {session : SessionRow}
    (hpayload : validateCompletionPayload host payload now = .ok ())
    (h : validateCompletionClaim host payload claim policy session now = .ok ()) :
    Fits payload claim.effects := by
  simp only [validateCompletionPayload, bind_ok, reject_ok, Bool.or_eq_false_iff,
    decide_eq_false_iff_not, not_not] at hpayload
  obtain ⟨_, _, _, _, _, _, _, _, _, ⟨_, hnodup⟩, _⟩ := hpayload
  simp only [validateCompletionClaim, bind_ok, reject_ok, Bool.or_eq_false_iff,
    bne_eq_false_iff_eq, Bool.not_eq_false', all_eq_true] at h
  obtain ⟨_, ⟨_, hlength⟩, _, _, _, _, _, ⟨hone, hdebit⟩, _, hall, _⟩ := h
  have hcharges : ∀ charge ∈ payload.categoryCharges,
      (claim.effects.filter fun e => e.kind == .category && e.resourceId == charge.1).length = 1 ∧
        ∀ e ∈ claim.effects.filter (fun e => e.kind == .category && e.resourceId == charge.1),
          isCharge session.id charge e = true := by
    simpa only [reject_ok, Bool.or_eq_false_iff, bne_eq_false_iff_eq, Bool.not_eq_false',
      all_eq_true] using forM_eq_ok.1 hall
  constructor
  · intro e he hkind
    have hroom := length_filter_add_le (p := fun e : LiquidityClaimEffect => e.kind == .accountDebit)
      (q := fun e => e.kind == .category) claim.effects (fun e he => by simp_all)
    have hsubset : payload.categoryCharges.map (·.1) ⊆
        (claim.effects.filter (·.kind == .category)).map (·.resourceId) := by
      intro id hid
      obtain ⟨charge, hcharge, rfl⟩ := mem_map.1 hid
      obtain ⟨hfound, -⟩ := hcharges charge hcharge
      obtain ⟨d, hd⟩ := exists_mem_of_length_pos (by rw [hfound]; exact Nat.one_pos)
      simp only [mem_filter, Bool.and_eq_true, beq_iff_eq] at hd
      exact mem_map.2 ⟨d, by simp [hd.1, hd.2.1], hd.2.2⟩
    have hperm := (subperm_of_subset hnodup hsubset).perm_of_length_le (by
      simp only [length_map]
      omega)
    have hmem : e.resourceId ∈ payload.categoryCharges.map (·.1) :=
      hperm.mem_iff.2 (mem_map_of_mem (by simp [he, hkind]))
    obtain ⟨charge, hcharge, hid⟩ := mem_map.1 hmem
    obtain ⟨-, hall⟩ := hcharges charge hcharge
    have hfits := hall e (by simp [he, hkind, hid])
    simp only [isCharge, Bool.and_eq_true, beq_iff_eq] at hfits
    rw [hfits.1.1, ← hid]
    exact hcharge
  · intro e he hkind
    have hfits := hdebit e (by simp [he, hkind])
    simp only [isAccountDebit, Bool.and_eq_true, beq_iff_eq, decide_eq_true_eq] at hfits
    exact ⟨hfits.1.1.1, hfits.1.2⟩

theorem admitNew_deeds {input : AdmitCompletionInput}
    (hpayload : validateCompletionPayload host input.payload call.now = .ok ())
    (hsession : supply.session input.sessionId input.payload.sessionId)
    (hs : ∀ policy session,
      validateCompletionClaim host input.payload input.claim policy session call.now = .ok () →
        supply.claim .sessionCompletion input.proposalId input.claim)
    (h : s.admitNew host call input = .ok s') : Deeds host supply call.budgetId s s' := by
  obtain ⟨policy, -, h⟩ := bind_ok.1 h
  obtain ⟨_, h⟩ := rest_ok h
  obtain ⟨session, -, h⟩ := bind_ok.1 h
  obtain ⟨_, h⟩ := rest_ok h
  obtain ⟨_, h⟩ := rest_ok h
  obtain ⟨_, hclaim, h⟩ := bind_ok.1 h
  obtain ⟨_, hactive, h⟩ := bind_ok.1 h
  obtain ⟨_, h⟩ := rest_ok h
  obtain ⟨_, h⟩ := rest_ok h
  obtain ⟨_, hclash, h⟩ := bind_ok.1 h
  obtain ⟨⟨v, t⟩, ht, h⟩ := bind_ok.1 h
  obtain ⟨u, hu, h⟩ := bind_ok.1 h
  obtain ⟨set, hset, -⟩ := validate_ok ht
  refine .trans (.single ?_) (record_deeds h)
  refine .admitCompletion (hs policy session hclaim) hsession ?_ ?_
    (validateCompletionClaim_fresh hclaim) (validateCompletionClaim_fits hpayload hclaim)
    (fun q hq he => ?_) (fun q hq hb hid => ?_) hset hu
  · rfl
  · rfl
  · simp only [reject_ok, Store.completionClashes, Bool.or_eq_false_iff,
      any_eq_false, Bool.or_eq_true, beq_iff_eq, not_or] at hclash
    exact (hclash.2 q hq).1 he
  · simp only [reject_ok, any_eq_false, Bool.and_eq_true, beq_iff_eq, bne_iff_ne, ne_eq,
      not_and, not_not] at hactive
    exact hactive q hq ⟨hb, hid⟩

theorem admitSessionCompletion_deeds {input : AdmitCompletionInput}
    (hsession : supply.session input.sessionId input.payload.sessionId)
    (hs : validateCompletionPayload host input.payload call.now = .ok () →
      ∀ policy session,
        validateCompletionClaim host input.payload input.claim policy session call.now = .ok () →
          supply.claim .sessionCompletion input.proposalId input.claim)
    (h : s.admitSessionCompletion host call input = .ok s') :
    Deeds host supply call.budgetId s s' := by
  obtain ⟨_, hpayload, h⟩ := bind_ok.1 h
  obtain ⟨_, h⟩ := rest_ok h
  obtain ⟨replayed, -, h⟩ := bind_ok.1 h
  cases replayed with
  | true =>
    cases h
    exact .refl
  | false => exact admitNew_deeds hpayload hsession (hs hpayload) h

theorem closeStale_deeds {message : String} (hp : p ∈ s.completions)
    (hb : p.budgetId = call.budgetId) (hpending : p.phase = .proposed ∨ p.phase = .approved)
    (h : s.closeStale host call p message = .ok (answer, s')) :
    Deeds host supply call.budgetId s s' ∧ answer = .stale message := by
  obtain ⟨t, ht, h⟩ := bind_ok.1 h
  simp only [Except.ok.injEq, Prod.mk.injEq] at h
  obtain ⟨rfl, rfl⟩ := h
  exact ⟨afterClaimSet_deeds.trans (.single (.closeCompletion (by simpa using hp) hb hpending ht)),
    rfl⟩

theorem recordApproval_deeds (hp : p ∈ s.completions)
    (hpending : p.phase = .proposed ∨ p.phase = .approved)
    (h : s.recordApproval call p approvalId = .ok s') : Deeds host supply call.budgetId s s' := by
  obtain ⟨t, ht, h⟩ := bind_ok.1 h
  obtain ⟨u, hu, h⟩ := bind_ok.1 h
  have hpt : p ∈ t.completions := by
    obtain ⟨_, ht⟩ := rest_ok ht
    cases ht
    exact hp
  refine (insertApproval_deeds ht).trans <| .trans (.single (.approveCompletion hpt hpending ?_ hu))
    (record_deeds h)
  split
  · exact .inr rfl
  · exact .inl rfl

theorem approveNew_deeds {input : CompletionCommand} {approvalId : String} {p : Completion}
    {answer : Answer} (hp : p ∈ s.completions) (hb : p.budgetId = call.budgetId)
    (h : s.approveNew host call input approvalId p = .ok (answer, s')) :
    Deeds host supply call.budgetId s s' ∧ answer ≠ .write true := by
  obtain ⟨_, h⟩ := rest_ok h
  obtain ⟨_, h⟩ := rest_ok h
  obtain ⟨_, hphase, h⟩ := bind_ok.1 h
  obtain ⟨_, h⟩ := rest_ok h
  obtain ⟨_, h⟩ := rest_ok h
  obtain ⟨_, h⟩ := rest_ok h
  have hpending : p.phase = .proposed ∨ p.phase = .approved := by
    simp only [reject_ok, Bool.and_eq_false_iff, bne_eq_false_iff_eq] at hphase
    exact hphase
  split at h
  · obtain ⟨hdeeds, rfl⟩ := closeStale_deeds hp hb hpending h
    exact ⟨hdeeds, by simp⟩
  · next t ht =>
    obtain ⟨u, hu, h⟩ := bind_ok.1 h
    simp only [Except.ok.injEq, Prod.mk.injEq] at h
    obtain ⟨rfl, rfl⟩ := h
    obtain ⟨set, hset, -⟩ := validate_ok ht
    have hpt : p ∈ t.completions := (claimSet_proposals hset).1 ▸ hp
    exact ⟨(read_deeds hset).trans (recordApproval_deeds hpt hpending hu), by simp⟩

theorem approveSessionCompletion_deeds {input : CompletionCommand}
    (h : s.approveSessionCompletion host call input approvalId = .ok (answer, s')) :
    Deeds host supply call.budgetId s s' ∧ answer ≠ .write true := by
  obtain ⟨p, hp, h⟩ := bind_ok.1 h
  obtain ⟨replayed, -, h⟩ := bind_ok.1 h
  obtain ⟨hmem, -, hb⟩ := completionCommand_ok hp
  cases replayed with
  | true =>
    cases h
    exact ⟨.refl, by simp⟩
  | false => exact approveNew_deeds hmem hb h

theorem acquireWrite_deeds {approvals : List ApprovalRow} (hp : p ∈ s.completions)
    (hb : p.budgetId = call.budgetId) (hphase : p.phase = .approved)
    (h : s.acquireWrite host call intentId p approvals = .ok s') :
    Deeds host supply call.budgetId s s' := by
  obtain ⟨_, h⟩ := rest_ok h
  obtain ⟨t, ht, h⟩ := bind_ok.1 h
  obtain ⟨⟨set, u⟩, hu, h⟩ := bind_ok.1 h
  obtain ⟨w, hw, h⟩ := bind_ok.1 h
  have hconsume : Deeds host supply call.budgetId s
      (s.consumeApprovals (approvals.map (·.id))) :=
    rest_deeds ⟨rfl, rfl, rfl, rfl, rfl, rfl⟩ rfl rfl
  exact hconsume.trans (.trans (.single (.acquire hp hb hphase ht hu hw)) (record_deeds h))

theorem beginNew_deeds {input : CompletionCommand} (hp : p ∈ s.completions)
    (hb : p.budgetId = call.budgetId)
    (h : s.beginNew host call input intentId p = .ok (answer, s')) :
    Deeds host supply call.budgetId s s' := by
  obtain ⟨_, h⟩ := rest_ok h
  obtain ⟨_, hphase, h⟩ := bind_ok.1 h
  obtain ⟨_, h⟩ := rest_ok h
  obtain ⟨_, h⟩ := rest_ok h
  obtain ⟨_, h⟩ := rest_ok h
  obtain ⟨_, h⟩ := rest_ok h
  obtain ⟨_, h⟩ := rest_ok h
  have happroved : p.phase = .approved := by simpa using hphase
  split at h
  · exact (closeStale_deeds hp hb (.inr happroved) h).1
  · next t ht =>
    obtain ⟨u, hu, h⟩ := bind_ok.1 h
    simp only [Except.ok.injEq, Prod.mk.injEq] at h
    obtain ⟨-, rfl⟩ := h
    obtain ⟨set, hset, -⟩ := validate_ok ht
    have hpt : p ∈ t.completions := (claimSet_proposals hset).1 ▸ hp
    exact (read_deeds hset).trans (acquireWrite_deeds hpt hb happroved hu)

theorem beginSessionCompletionWrite_deeds {input : CompletionCommand}
    (h : s.beginSessionCompletionWrite host call input intentId = .ok (answer, s')) :
    Deeds host supply call.budgetId s s' := by
  obtain ⟨candidate, -, h⟩ := bind_ok.1 h
  obtain ⟨_, h⟩ := rest_ok h
  obtain ⟨_, h⟩ := rest_ok h
  obtain ⟨_, h⟩ := rest_ok h
  obtain ⟨p, hp, h⟩ := bind_ok.1 h
  obtain ⟨replayed, -, h⟩ := bind_ok.1 h
  obtain ⟨hmem, -, hb⟩ := completionCommand_ok hp
  split at h
  · cases h
    exact .refl
  · exact beginNew_deeds hmem hb h

theorem validateSessionCompletionWrite_deeds {input : CompletionCommand}
    (h : s.validateSessionCompletionWrite host call input intentId = .ok s') :
    Deeds host supply call.budgetId s s' := by
  obtain ⟨p, -, h⟩ := bind_ok.1 h
  obtain ⟨_, h⟩ := rest_ok h
  obtain ⟨w, -, h⟩ := bind_ok.1 h
  obtain ⟨⟨set, t⟩, ht, h⟩ := bind_ok.1 h
  obtain ⟨_, h⟩ := rest_ok h
  obtain ⟨_, h⟩ := rest_ok h
  obtain ⟨_, h⟩ := rest_ok h
  obtain ⟨_, h⟩ := rest_ok h
  cases h
  exact read_deeds ht

theorem setWrite_deeds {status : WriteStatus} :
    Deeds host supply budgetId s (s.setWrite p status) :=
  rest_deeds ⟨rfl, rfl, rfl, rfl, rfl, rfl⟩ rfl rfl

theorem finishWith_deeds {result : WriteResult} (hp : p ∈ s.completions)
    (hb : p.budgetId = budgetId) (hphase : p.phase = .writeIntent)
    (h : s.finishWith p result now = .ok s') : Deeds host supply budgetId s s' := by
  unfold Store.finishWith at h
  split at h
  · obtain ⟨_, h⟩ := rest_ok h
    exact .single (.verify hp hb (.inl hphase) h)
  · split at h
    · exact .single (.release hp hb hphase h)
    · exact setWrite_deeds.trans (.single (.review hp (.inl hphase) h))

theorem finishSessionCompletionWrite_deeds {input : FinishInput}
    (h : s.finishSessionCompletionWrite host call input = .ok s') :
    Deeds host supply call.budgetId s s' := by
  obtain ⟨p, hp, h⟩ := bind_ok.1 h
  obtain ⟨_, h⟩ := rest_ok h
  obtain ⟨replayed, -, h⟩ := bind_ok.1 h
  obtain ⟨hmem, -, hb⟩ := commanded_ok hp
  cases replayed with
  | true =>
    cases h
    exact .refl
  | false =>
    obtain ⟨_, h⟩ := rest_ok h
    obtain ⟨_, hphase, h⟩ := bind_ok.1 h
    obtain ⟨w, -, h⟩ := bind_ok.1 h
    obtain ⟨_, h⟩ := rest_ok h
    obtain ⟨_, h⟩ := rest_ok h
    obtain ⟨t, ht, h⟩ := bind_ok.1 h
    exact (finishWith_deeds hmem hb (by simpa using hphase) ht).trans (record_deeds h)

theorem insertEvidence_deeds {row : CompletionEvidenceRow} (h : s.insertEvidence row = .ok s') :
    Deeds host supply budgetId s s' ∧ s'.completions = s.completions := by
  obtain ⟨_, h⟩ := rest_ok h
  cases h
  exact ⟨rest_deeds ⟨rfl, rfl, rfl, rfl, rfl, rfl⟩ rfl rfl, rfl⟩

theorem reconcileWith_deeds {evidence : Reconciliation} (hp : p ∈ s.completions)
    (hb : p.budgetId = budgetId)
    (hphase : (evidence.kind = .importedLink → p.phase = .verified) ∧
      (evidence.kind ≠ .importedLink → p.phase = .writeIntent ∨ p.phase = .reviewRequired))
    (h : s.reconcileWith p evidence now = .ok s') : Deeds host supply budgetId s s' := by
  unfold Store.reconcileWith at h
  split at h
  · next hk => exact .single (.verify hp hb (hphase.2 (by simp [hk])) h)
  · next hk =>
    obtain ⟨t, ht, h⟩ := bind_ok.1 h
    obtain ⟨hdeeds, hc⟩ := @insertEvidence_deeds host supply budgetId _ _ _ ht
    exact hdeeds.trans (.single (.relink (hc ▸ hp) (hphase.1 hk) h))
  · next hk =>
    obtain ⟨t, ht, h⟩ := bind_ok.1 h
    obtain ⟨hdeeds, hc⟩ := @insertEvidence_deeds host supply budgetId _ _ _ ht
    exact hdeeds.trans (.single (.review (hc ▸ hp) (hphase.2 (by simp [hk])) h))

theorem reconcileNew_deeds {input : ReconcileInput} {w : WriteRow} (hp : p ∈ s.completions)
    (hb : p.budgetId = call.budgetId) (h : s.reconcileNew call input p w = .ok s') :
    Deeds host supply call.budgetId s s' := by
  obtain ⟨_, h⟩ := rest_ok h
  obtain ⟨_, hphase, h⟩ := bind_ok.1 h
  obtain ⟨_, h⟩ := rest_ok h
  obtain ⟨_, h⟩ := rest_ok h
  obtain ⟨_, hevidence, h⟩ := bind_ok.1 h
  obtain ⟨_, h⟩ := rest_ok h
  obtain ⟨t, ht, h⟩ := bind_ok.1 h
  refine (reconcileWith_deeds hp hb ⟨fun hk => ?_, fun hk => ?_⟩ ht).trans (record_deeds h)
  · obtain ⟨_, hevidence⟩ := rest_ok hevidence
    obtain ⟨_, hevidence⟩ := rest_ok hevidence
    obtain ⟨_, hevidence⟩ := rest_ok hevidence
    rw [hk] at hevidence
    simp only [reject_ok, Bool.or_eq_false_iff, Bool.not_eq_false', Bool.and_eq_true,
      beq_iff_eq] at hevidence
    exact hevidence.1.1.1.1.1.1.1
  · have hlater : (input.evidence.kind == .importedLink) = false := by simpa using hk
    simp only [reject_ok, hlater, Bool.and_false, Bool.not_false, Bool.true_and,
      Bool.not_eq_false', Bool.or_eq_true, beq_iff_eq] at hphase
    exact hphase

theorem reconcileSessionCompletion_deeds {input : ReconcileInput}
    (h : s.reconcileSessionCompletion host call input = .ok s') :
    Deeds host supply call.budgetId s s' := by
  obtain ⟨p, hp, h⟩ := bind_ok.1 h
  obtain ⟨_, h⟩ := rest_ok h
  obtain ⟨w, -, h⟩ := bind_ok.1 h
  obtain ⟨_, h⟩ := rest_ok h
  obtain ⟨replayed, -, h⟩ := bind_ok.1 h
  obtain ⟨hmem, -, hb⟩ := commanded_ok hp
  cases replayed with
  | true =>
    cases h
    exact .refl
  | false => exact reconcileNew_deeds hmem hb h

/-! ## Transfers -/

theorem command_ok {input : TransferCommand} {p : Transfer} (h : s.command call input = .ok p) :
    p ∈ s.transfers ∧ p.id = input.proposalId ∧ p.budgetId = call.budgetId := by
  obtain ⟨q, hq, h⟩ := bind_ok.1 h
  obtain ⟨_, hbudget, h⟩ := bind_ok.1 h
  obtain ⟨_, h⟩ := rest_ok h
  obtain ⟨_, h⟩ := rest_ok h
  cases h
  have hfound := orStop_ok.1 hq
  exact ⟨mem_of_find?_eq_some hfound, by simpa using find?_some hfound,
    by simpa using hbudget⟩

theorem recheck_deeds {p : Transfer} {rejectInvalid : Bool} {v : Validation}
    (h : s.recheck host call p input rejectInvalid = .ok (v, s')) :
    Deeds host supply call.budgetId s s' ∧ s'.transfers = s.transfers := by
  obtain ⟨_, h⟩ := rest_ok h
  obtain ⟨set, hset, -⟩ := validate_ok h
  exact ⟨read_deeds hset, (claimSet_proposals hset).2⟩

theorem admitTransferNew_deeds {input : AdmitTransferInput}
    (hs : supply.claim .proposal input.proposalId (planBundle input.plan input.proposalId))
    (h : s.admitTransferNew host call input = .ok s') : Deeds host supply call.budgetId s s' := by
  obtain ⟨_, h⟩ := rest_ok h
  obtain ⟨session, -, h⟩ := bind_ok.1 h
  obtain ⟨⟨v, t⟩, ht, h⟩ := bind_ok.1 h
  obtain ⟨_, hclash, h⟩ := bind_ok.1 h
  obtain ⟨u, hu, h⟩ := bind_ok.1 h
  refine (validate_deeds ht).trans <| .trans (.single ?_) (record_deeds h)
  refine .admitTransfer hs ?_ ?_ ?_ ⟨?_, ?_⟩ (fun q hq he => ?_) hu
  · rfl
  · rfl
  · rfl
  · rfl
  · rfl
  · simp only [reject_ok, Store.transferClashes, Bool.or_eq_false_iff,
      any_eq_false, Bool.or_eq_true, beq_iff_eq, not_or] at hclash
    exact (hclash.2 q hq).1 he

theorem admitTransferProposal_deeds {input : AdmitTransferInput}
    (hs : supply.claim .proposal input.proposalId (planBundle input.plan input.proposalId))
    (h : s.admitTransferProposal host call input = .ok s') :
    Deeds host supply call.budgetId s s' := by
  obtain ⟨_, h⟩ := rest_ok h
  obtain ⟨replayed, -, h⟩ := bind_ok.1 h
  cases replayed with
  | true =>
    cases h
    exact .refl
  | false => exact admitTransferNew_deeds hs h

theorem approveTransfer_deeds (h : s.approveTransfer host call input approvalId = .ok s') :
    Deeds host supply call.budgetId s s' := by
  obtain ⟨p, hp, h⟩ := bind_ok.1 h
  obtain ⟨replayed, -, h⟩ := bind_ok.1 h
  obtain ⟨hmem, -, hb⟩ := command_ok hp
  cases replayed with
  | true =>
    obtain ⟨_, h⟩ := rest_ok h
    cases h
    exact .refl
  | false =>
    obtain ⟨_, h⟩ := rest_ok h
    obtain ⟨_, hphase, h⟩ := bind_ok.1 h
    obtain ⟨⟨v, t⟩, ht, h⟩ := bind_ok.1 h
    obtain ⟨u, hu, h⟩ := bind_ok.1 h
    obtain ⟨w, hw, h⟩ := bind_ok.1 h
    obtain ⟨hdeeds, htransfers⟩ := @recheck_deeds host supply _ _ _ _ _ _ _ ht
    have hmemu : p ∈ u.transfers := by
      obtain ⟨_, hu⟩ := rest_ok hu
      cases hu
      exact htransfers ▸ hmem
    refine hdeeds.trans <| (insertApproval_deeds hu).trans <|
      .trans (.single (.markTransfer hmemu (.inr ⟨?_, ?_⟩) hw)) (record_deeds h)
    · simp only [reject_ok, Bool.and_eq_false_iff, bne_eq_false_iff_eq] at hphase
      obtain (hphase | hphase) | hphase := hphase
      · exact .inl hphase
      · exact .inr (.inl hphase)
      · exact .inr (.inr hphase)
    · split
      · exact .inr (.inr rfl)
      · exact .inr (.inl rfl)

theorem cas_open {p : Transfer} {expectedVersion : Nat}
    (h : cas host call p expectedVersion false = .ok ()) : p.phase ≠ .closed := by
  obtain ⟨_, h⟩ := rest_ok h
  simp only [Bool.false_eq_true, if_false] at h
  obtain ⟨_, h⟩ := rest_ok h
  simp only [reject_ok, Bool.or_eq_false_iff, beq_eq_false_iff_ne, ne_eq] at h
  exact h.2

theorem revalidateTransfer_deeds (h : s.revalidateTransfer host call input = .ok s') :
    Deeds host supply call.budgetId s s' := by
  obtain ⟨p, hp, h⟩ := bind_ok.1 h
  obtain ⟨replayed, -, h⟩ := bind_ok.1 h
  obtain ⟨hmem, -, hb⟩ := command_ok hp
  cases replayed with
  | true =>
    cases h
    exact .refl
  | false =>
    obtain ⟨_, hcas, h⟩ := bind_ok.1 h
    obtain ⟨_, hconfirmed, h⟩ := bind_ok.1 h
    obtain ⟨⟨v, t⟩, ht, h⟩ := bind_ok.1 h
    obtain ⟨u, hu, h⟩ := bind_ok.1 h
    obtain ⟨hdeeds, htransfers⟩ := @recheck_deeds host supply _ _ _ _ _ _ _ ht
    have hsupersede : Deeds host supply call.budgetId t
        (if v.valid then t else t.supersedeApprovals p.id) := by
      split
      · exact .refl
      · exact rest_deeds ⟨rfl, rfl, rfl, rfl, rfl, rfl⟩ rfl rfl
    have hmemt : p ∈ (if v.valid then t else t.supersedeApprovals p.id).transfers := by
      split
      · exact htransfers ▸ hmem
      · exact htransfers ▸ hmem
    refine hdeeds.trans <| hsupersede.trans <|
      .trans (.single (.markTransfer hmemt ?_ hu)) (record_deeds h)
    have hopen := cas_open hcas
    have hunconfirmed : p.phase ≠ .confirmed := by simpa using hconfirmed
    split
    · exact .inl rfl
    · next hcond =>
      simp only [Bool.or_eq_true, beq_iff_eq, not_or] at hcond
      refine .inr ⟨?_, .inl rfl⟩
      cases hphase : p.phase with
      | proposed => exact .inl rfl
      | awaitingApproval => exact .inr (.inl rfl)
      | approved => exact .inr (.inr rfl)
      | initiated => exact absurd hphase hcond.2
      | confirmed => exact absurd hphase hunconfirmed
      | closed => exact absurd hphase hopen

theorem getTransferInstructions_deeds (h : s.getTransferInstructions host call input = .ok s') :
    Deeds host supply call.budgetId s s' := by
  obtain ⟨p, -, h⟩ := bind_ok.1 h
  obtain ⟨_, h⟩ := rest_ok h
  obtain ⟨⟨v, t⟩, ht, h⟩ := bind_ok.1 h
  obtain ⟨_, h⟩ := rest_ok h
  cases h
  exact (recheck_deeds ht).1

theorem reportTransferInitiated_deeds (hs : supply.initiation input.proposalId)
    (h : s.reportTransferInitiated host call input = .ok s') :
    Deeds host supply call.budgetId s s' := by
  obtain ⟨p, hp, h⟩ := bind_ok.1 h
  obtain ⟨replayed, -, h⟩ := bind_ok.1 h
  obtain ⟨hmem, hid, hb⟩ := command_ok hp
  cases replayed with
  | true =>
    cases h
    exact .refl
  | false =>
    obtain ⟨_, h⟩ := rest_ok h
    obtain ⟨_, happroved, h⟩ := bind_ok.1 h
    obtain ⟨⟨v, t⟩, ht, h⟩ := bind_ok.1 h
    obtain ⟨u, hu, h⟩ := bind_ok.1 h
    obtain ⟨w, hw, h⟩ := bind_ok.1 h
    obtain ⟨hdeeds, htransfers⟩ := @recheck_deeds host supply _ _ _ _ _ _ _ ht
    simp only [reject_ok, Bool.or_eq_false_iff, bne_eq_false_iff_eq] at happroved
    have hconsume : Deeds host supply call.budgetId t
        (t.consumeApprovals ((s.transferApprovals call p false).map (·.id))) :=
      rest_deeds ⟨rfl, rfl, rfl, rfl, rfl, rfl⟩ rfl rfl
    have hmemt : p ∈ (t.consumeApprovals
        ((s.transferApprovals call p false).map (·.id))).transfers := htransfers ▸ hmem
    exact hdeeds.trans <| hconsume.trans <|
      .trans (.single (.initiate hmemt hb happroved.1 (hid ▸ hs) hu hw)) (record_deeds h)

theorem addEvidence_transfers {p : Transfer} {existing : List EvidenceRow} {evidenceId : String}
    (h : Store.addEvidence p existing s evidenceId = .ok s') : s'.transfers = s.transfers := by
  obtain ⟨_, h⟩ := rest_ok h
  cases h
  split <;> rfl

theorem verifyTransferSettlement_deeds {input : TransferCommand} {settlement : Option Settlement}
    (hs : ∀ r effects, settlement = some r → r.wellFormed = true →
      r.claimEffects = some effects → supply.effects input.proposalId effects)
    (h : s.verifyTransferSettlement host call input settlement = .ok s') :
    Deeds host supply call.budgetId s s' := by
  obtain ⟨p, hp, h⟩ := bind_ok.1 h
  obtain ⟨replayed, -, h⟩ := bind_ok.1 h
  obtain ⟨hmem, hid, hb⟩ := command_ok hp
  cases replayed with
  | true =>
    cases h
    exact .refl
  | false =>
    obtain ⟨_, h⟩ := rest_ok h
    obtain ⟨_, hphase, h⟩ := bind_ok.1 h
    obtain ⟨r, hr, h⟩ := bind_ok.1 h
    obtain ⟨_, hformed, h⟩ := bind_ok.1 h
    obtain ⟨t, ht, h⟩ := bind_ok.1 h
    obtain ⟨u, hu, h⟩ := bind_ok.1 h
    obtain ⟨w, hw, h⟩ := bind_ok.1 h
    have haccepted : r.wellFormed = true := by simpa using hformed
    obtain ⟨hdeeds, htransfers⟩ : Deeds host supply call.budgetId s t ∧
        t.transfers = s.transfers := by
      refine foldlM_inv (P := fun t => Deeds host supply call.budgetId s t ∧
        t.transfers = s.transfers) (fun t t' id _ hP hadd => ?_) ⟨.refl, rfl⟩ ht
      refine ⟨hP.1.tail (.evidence hb (hP.2 ▸ hmem) hadd), ?_⟩
      rw [addEvidence_transfers hadd, hP.2]
    have hmemt : p ∈ t.transfers := htransfers ▸ hmem
    refine hdeeds.trans <| .trans (.single (.settle hmemt hb (by simpa using hphase) haccepted
      (fun effects he => hid ▸ hs r effects (orStop_ok.1 hr) haccepted he) hu hw))
      (record_deeds h)

theorem cancelTransfer_deeds {input : TransferCommand}
    (h : s.cancelTransfer host call input = .ok s') : Deeds host supply call.budgetId s s' := by
  obtain ⟨p, hp, h⟩ := bind_ok.1 h
  obtain ⟨replayed, -, h⟩ := bind_ok.1 h
  obtain ⟨hmem, -, hb⟩ := command_ok hp
  cases replayed with
  | true =>
    cases h
    exact .refl
  | false =>
    obtain ⟨_, h⟩ := rest_ok h
    obtain ⟨_, hconfirmed, h⟩ := bind_ok.1 h
    obtain ⟨t, ht, h⟩ := bind_ok.1 h
    have hunconfirmed : p.phase ≠ .confirmed := by simpa using hconfirmed
    exact .trans (.single (.closeTransfer hmem hb hunconfirmed ht)) (record_deeds h)

theorem expire_deeds {listed : Transfer → Bool} (hd : DistinctProposals s)
    (h : s.expire host call listed = .ok s') : Deeds host supply call.budgetId s s' := by
  obtain ⟨_, h⟩ := rest_ok h
  obtain ⟨_, h⟩ := rest_ok h
  obtain ⟨t, ht, h⟩ := bind_ok.1 h
  obtain ⟨hdt, -⟩ := closeTransfers_distinct hd ht
  have htransfers : Deeds host supply call.budgetId s t := by
    refine closeTransfers_deeds (hd.transfers.sublist (filter_sublist.map _))
      (fun p hp => ?_) ht
    simp only [mem_filter, Bool.and_eq_true, beq_iff_eq, Bool.not_eq_true',
      Bool.or_eq_false_iff, beq_eq_false_iff_ne] at hp
    exact ⟨hp.1, hp.2.1.1.1.1, hp.2.1.2.1⟩
  refine htransfers.trans (foldlM_inv (P := fun u => Deeds host supply call.budgetId t u ∧
    DistinctProposals u) (fun u u' session _ hP hu => ?_) ⟨.refl, hdt⟩ h).1
  obtain ⟨hdeeds, hdistinct⟩ := invalidateProposals_deeds hP.2 hu
  exact ⟨hP.1.trans hdeeds, hdistinct⟩

/-! ## Every call -/

theorem quietly_ok {x : Guarded Store} (h : quietly x = .ok (answer, s')) :
    x = .ok s' ∧ answer = .done := by
  obtain ⟨t, ht, h⟩ := map_eq_ok.1 h
  simp only [Prod.mk.injEq] at h
  exact ⟨h.2 ▸ ht, h.1.symm⟩

/-- **Every call but `savePolicy` is a list of deeds** of its budget. -/
theorem apply_deeds {step : Step} (hd : DistinctProposals s) (hs : Supplies host supply step)
    (hop : ∀ policy expectedVersion, step.op ≠ .savePolicy policy expectedVersion)
    (h : apply host s step = .ok (answer, s')) : Deeds host supply step.call.budgetId s s' := by
  obtain ⟨call, op⟩ := step
  cases op with
  | savePolicy policy expectedVersion => exact absurd rfl (hop policy expectedVersion)
  | factsChanged =>
    obtain ⟨_, h⟩ := rest_ok (quietly_ok h).1
    exact (invalidateProposals_deeds hd h).1
  | getClaimSet =>
    obtain ⟨⟨set, t⟩, ht, h⟩ := map_eq_ok.1 h
    obtain ⟨_, ht⟩ := rest_ok ht
    simp only [Prod.mk.injEq] at h
    exact h.2 ▸ read_deeds ht
  | listProspectiveClaims => exact listProspectiveClaims_deeds (quietly_ok h).1
  | saveSpendSession input => exact saveSpendSession_deeds hd hs (quietly_ok h).1
  | cancelSpendSession id expectedVersion => exact cancelSpendSession_deeds hd (quietly_ok h).1
  | saveProspectiveClaim input => exact saveProspectiveClaim_deeds hs (quietly_ok h).1
  | transitionProspectiveClaim input => exact transitionProspectiveClaim_deeds (quietly_ok h).1
  | admitSessionCompletion input => exact admitSessionCompletion_deeds hs.1 hs.2 (quietly_ok h).1
  | approveSessionCompletion input approvalId => exact (approveSessionCompletion_deeds h).1
  | beginSessionCompletionWrite input intentId => exact beginSessionCompletionWrite_deeds h
  | validateSessionCompletionWrite input intentId =>
    exact validateSessionCompletionWrite_deeds (quietly_ok h).1
  | finishSessionCompletionWrite input => exact finishSessionCompletionWrite_deeds (quietly_ok h).1
  | reconcileSessionCompletion input => exact reconcileSessionCompletion_deeds (quietly_ok h).1
  | admitTransferProposal input => exact admitTransferProposal_deeds hs (quietly_ok h).1
  | approveTransfer input approvalId => exact approveTransfer_deeds (quietly_ok h).1
  | revalidateTransfer input => exact revalidateTransfer_deeds (quietly_ok h).1
  | getTransferInstructions input => exact getTransferInstructions_deeds (quietly_ok h).1
  | reportTransferInitiated input => exact reportTransferInitiated_deeds hs (quietly_ok h).1
  | verifyTransferSettlement input settlement =>
    exact verifyTransferSettlement_deeds hs (quietly_ok h).1
  | cancelTransfer input => exact cancelTransfer_deeds (quietly_ok h).1
  | expire listed => exact expire_deeds hd (quietly_ok h).1

end BalanceFrame.Holds
