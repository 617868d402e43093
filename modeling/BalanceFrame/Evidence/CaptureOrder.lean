import BalanceFrame.Evidence.Resolve

/-!
# Capture order is irrelevant

Requests with the same members in another order (`Recaptured`) resolve alike. Validation accepts
both or neither (`validate_recaptured`). An accepted request names its members apart: observations
by `validate`, receipts, wallets and proofs by the passes over them (`resolveReplaced_apart`), so
both requests sort to one (`sortRequest_eq`), and nothing after the sorts sees the difference.
-/

namespace BalanceFrame.Evidence

open Library List
open Liquidity (Checked)

/-- The same request, captured in another order. -/
structure Recaptured (r r' : TransactionEvidenceRequest) : Prop where
  observations : r.observations.Perm r'.observations
  relationships : r.relationships.Perm r'.relationships
  wallets : r.wallets.Perm r'.wallets
  receipts : r.receipts.Perm r'.receipts
  statementProofs : r.statementProofs.Perm r'.statementProofs
  allocationReview : r.allocationReview = r'.allocationReview
  contractVersion : r.contractVersion = r'.contractVersion
  policyVersion : r.policyVersion = r'.policyVersion
  maxSettlementDays : r.maxSettlementDays = r'.maxSettlementDays

variable {r r' : TransactionEvidenceRequest} {ids : List String}

theorem Recaptured.symm (h : Recaptured r r') : Recaptured r' r where
  observations := h.observations.symm
  relationships := h.relationships.symm
  wallets := h.wallets.symm
  receipts := h.receipts.symm
  statementProofs := h.statementProofs.symm
  allocationReview := h.allocationReview.symm
  contractVersion := h.contractVersion.symm
  policyVersion := h.policyVersion.symm
  maxSettlementDays := h.maxSettlementDays.symm

/-! ## Validation -/

theorem checkObserved_eq_ok (ids : List String) {o : Observed} {u : Unit} :
    checkObserved ids o = .ok u ↔ o.id ∉ ids ∧ checkObserved [] o = .ok u := by
  have hfirst : ∀ v, require (isId o.id && !ids.contains o.id && isId o.sourceId &&
      isMoney o.amount && o.reliability ≤ 100) "observation" = .ok v ↔
      o.id ∉ ids ∧ require (isId o.id && !([] : List String).contains o.id && isId o.sourceId &&
        isMoney o.amount && o.reliability ≤ 100) "observation" = .ok v := by
    intro v
    simp only [require_eq_ok, Bool.and_eq_true, Bool.not_eq_true', contains_eq_mem,
      decide_eq_false_iff_not, not_mem_nil, not_false_eq_true, and_true]
    tauto
  unfold checkObserved
  constructor
  · intro hok
    obtain ⟨v, h, hrest⟩ := bind_ok.mp hok
    obtain ⟨hnot, h⟩ := (hfirst v).mp h
    exact ⟨hnot, bind_ok.mpr ⟨v, h, hrest⟩⟩
  · rintro ⟨hnot, hok⟩
    obtain ⟨v, h, hrest⟩ := bind_ok.mp hok
    exact bind_ok.mpr ⟨v, (hfirst v).mpr ⟨hnot, h⟩, hrest⟩

theorem checkObservation_eq_ok {all : List EvidenceObservation} {ids' : List String}
    {o : EvidenceObservation} :
    checkObservation all ids o = .ok ids' ↔
      ids' = o.id :: ids ∧ o.id ∉ ids ∧ checkObservation all [] o = .ok [o.id] := by
  simp only [checkObservation, bind_ok, checkObserved_eq_ok ids, pure_ok,
    Except.ok.injEq, and_true]
  constructor
  · rintro ⟨u, ⟨hnot, hok⟩, v, heffect, rfl⟩
    exact ⟨rfl, hnot, u, hok, v, heffect⟩
  · rintro ⟨rfl, hnot, u, hok, v, heffect⟩
    exact ⟨u, ⟨hnot, hok⟩, v, heffect, rfl⟩

theorem checkObservation_perm {all all' : List EvidenceObservation} (h : all.Perm all') :
    checkObservation all = checkObservation all' := by
  funext ids o
  unfold checkObservation checkLedgerEffect checkEffect
  simp only [h.any_eq]

theorem checkRelationship_eq_ok {relIds relIds' : List String} {rel : EvidenceRelationship} :
    checkRelationship ids relIds rel = .ok relIds' ↔
      relIds' = rel.id :: relIds ∧ rel.id ∉ relIds ∧
        checkRelationship ids [] rel = .ok [rel.id] := by
  simp only [checkRelationship, bind_ok, require_eq_ok, Bool.and_eq_true, Bool.not_eq_true',
    contains_eq_mem, decide_eq_false_iff_not, not_mem_nil, not_false_eq_true, pure_ok,
    Except.ok.injEq, and_true]
  constructor
  · rintro ⟨-, h1, -, h2, -, h3, rfl⟩
    exact ⟨rfl, h1.1.1.1.1.2, (), by tauto, (), h2, (), h3⟩
  · rintro ⟨rfl, hnot, -, h1, -, h2, -, h3⟩
    exact ⟨(), by tauto, (), h2, (), h3, rfl⟩

theorem checkRelationship_congr {ids' : List String} (h : ∀ id, id ∈ ids ↔ id ∈ ids') :
    checkRelationship ids = checkRelationship ids' := by
  funext relIds rel
  unfold checkRelationship
  simp only [contains_eq_mem, h]

theorem validate_eq_ok {u : Unit} : validate r = .ok u ↔
      (r.contractVersion = "1" ∧ isId r.policyVersion = true ∧ r.maxSettlementDays ≤ 90) ∧
      (r.observations.length ≤ 10000 ∧ r.relationships.length ≤ 20000 ∧
        r.wallets.length ≤ 1000 ∧ r.receipts.length ≤ 1000) ∧
      ((r.observations.map fun o => o.id).Nodup ∧
        ∀ o ∈ r.observations, checkObservation r.observations [] o = .ok [o.id]) ∧
      (r.relationships.map (·.id)).Nodup ∧
        ∀ rel ∈ r.relationships, checkRelationship (r.observations.map fun o => o.id) [] rel =
          .ok [rel.id] := by
  have hobs : ∀ ids, r.observations.foldlM (checkObservation r.observations) [] = .ok ids ↔
      ids = (r.observations.map fun o => o.id).reverse ∧
        (r.observations.map fun o => o.id).Nodup ∧
        ∀ o ∈ r.observations, checkObservation r.observations [] o = .ok [o.id] := by
    intro ids
    rw [foldlM_distinct (fun o : EvidenceObservation => o.id)
      (fun o => checkObservation r.observations [] o = .ok [o.id])
      fun _ _ _ => checkObservation_eq_ok]
    simp
  have hrel : ∀ ids, (∃ relIds, r.relationships.foldlM (checkRelationship ids) [] = .ok relIds) ↔
      (r.relationships.map (·.id)).Nodup ∧
        ∀ rel ∈ r.relationships, checkRelationship ids [] rel = .ok [rel.id] := by
    intro ids
    simp only [foldlM_distinct (fun rel : EvidenceRelationship => rel.id)
      (fun rel => checkRelationship ids [] rel = .ok [rel.id])
      fun _ _ _ => checkRelationship_eq_ok]
    simp
  have hreverse : checkRelationship (r.observations.map fun o => o.id).reverse =
      checkRelationship (r.observations.map fun o => o.id) :=
    checkRelationship_congr fun id => mem_reverse
  simp only [validate, bind_ok, require_eq_ok, Bool.and_eq_true, beq_iff_eq, decide_eq_true_eq,
    pure_ok, hobs, and_true, exists_const]
  constructor
  · rintro ⟨h1, h2, ids, ⟨rfl, h3⟩, h4⟩
    have h5 := (hrel _).mp h4
    rw [hreverse] at h5
    tauto
  · rintro ⟨h1, h2, h3, h4⟩
    refine ⟨by tauto, by tauto, _, ⟨rfl, h3⟩, (hrel _).mpr ?_⟩
    rw [hreverse]
    exact h4

theorem validate_recaptured (h : Recaptured r r')
    (hr : validate r = .ok ()) : validate r' = .ok () := by
  rw [validate_eq_ok] at hr ⊢
  obtain ⟨h1, h2, ⟨hnd, hobs⟩, hrnd, hrel⟩ := hr
  have hids := h.observations.map fun o => o.id
  refine ⟨h.contractVersion ▸ h.policyVersion ▸ h.maxSettlementDays ▸ h1, ?_,
    ⟨hids.nodup_iff.mp hnd, fun o ho => ?_⟩, (h.relationships.map _).nodup_iff.mp hrnd,
    fun rel hmem => ?_⟩
  · rwa [← h.observations.length_eq, ← h.relationships.length_eq, ← h.wallets.length_eq,
      ← h.receipts.length_eq]
  · rw [← checkObservation_perm h.observations]
    exact hobs o (h.observations.mem_iff.mpr ho)
  · rw [← checkRelationship_congr fun id => hids.mem_iff]
    exact hrel rel (h.relationships.mem_iff.mpr hmem)

/-! ## Members named apart -/

theorem resolveReceipt_ids {obs : List Observed} {receipts : List ReceiptEvidence}
    {claims : Claimed} {lines : SortedMap String Owned} {out out' : ReceiptsOut}
    {receipt : ReceiptEvidence}
    (h : resolveReceipt obs receipts claims lines out receipt = .ok out') :
    out'.ids = receipt.id :: out.ids ∧ receipt.id ∉ out.ids := by
  simp only [resolveReceipt, checkReceiptHead, bind_ok, require_eq_ok, Bool.and_eq_true,
    Bool.not_eq_true', contains_eq_mem, decide_eq_false_iff_not, pure_ok,
    Except.ok.injEq] at h
  obtain ⟨_, ⟨-, hhead, -⟩, _, -, _, -, _, -, _, -, _, -, rfl⟩ := h
  exact ⟨rfl, hhead.1.1.2⟩

theorem resolveReceipts_apart {obs : List Observed} {receipts : List ReceiptEvidence}
    {out : List ReceiptEvidenceResolution × List EvidenceBlocker}
    (h : resolveReceipts obs receipts = .ok out) : (receipts.map (·.id)).Nodup := by
  simp only [resolveReceipts, bind_ok] at h
  obtain ⟨-, -, claims, -, lines, -, t, ht, -⟩ := h
  refine (foldlM_run (P := fun done (t : ReceiptsOut) =>
    t.ids = (done.map fun x : ReceiptEvidence => x.id).reverse ∧
      (done.map fun x : ReceiptEvidence => x.id).Nodup) ?_ ⟨rfl, nodup_nil⟩ ht).2
  rintro done t t' receipt ⟨hids, hnd⟩ hstep
  obtain ⟨hids', hnot⟩ := resolveReceipt_ids hstep
  rw [hids, mem_reverse] at hnot
  rw [hids', hids, map_append, map_singleton, reverse_append]
  exact ⟨rfl, nodup_append_comm.mp (nodup_cons.mpr ⟨hnot, hnd⟩)⟩

theorem resolveWallet_ids {relationships : List EvidenceRelationship}
    {events : List (String × List String)} {out out' : WalletsOut} {wallet : WalletEvidence}
    (h : resolveWallet r relationships events out wallet = .ok out') :
    out'.ids = wallet.walletId :: out.ids ∧ wallet.walletId ∉ out.ids := by
  simp only [resolveWallet, checkWallet, bind_ok, require_eq_ok, Bool.and_eq_true,
    Bool.not_eq_true', contains_eq_mem, decide_eq_false_iff_not, pure_ok,
    Except.ok.injEq] at h
  obtain ⟨-, ⟨-, hhead, -⟩, p, -, rfl⟩ := h
  exact ⟨rfl, hhead.1.2⟩

theorem resolveWallets_apart
    {relationships : List EvidenceRelationship} {events : List (String × List String)}
    {out : List WalletEvidenceResolution × List EvidenceBlocker}
    (h : resolveWallets r relationships events = .ok out) :
    (r.wallets.map (·.walletId)).Nodup ∧ (r.statementProofs.map (·.proofId)).Nodup := by
  simp only [resolveWallets, bind_ok, require_eq_ok, decide_eq_true_eq] at h
  obtain ⟨-, -, -, -, -, hproofs, -, -, t, ht, -⟩ := h
  refine ⟨(foldlM_run (P := fun done (t : WalletsOut) =>
    t.ids = (done.map fun x : WalletEvidence => x.walletId).reverse ∧
      (done.map fun x : WalletEvidence => x.walletId).Nodup) ?_ ⟨rfl, nodup_nil⟩ ht).2, hproofs⟩
  rintro done t t' wallet ⟨hids, hnd⟩ hstep
  obtain ⟨hids', hnot⟩ := resolveWallet_ids hstep
  rw [hids, mem_reverse] at hnot
  rw [hids', hids, map_append, map_singleton, reverse_append]
  exact ⟨rfl, nodup_append_comm.mp (nodup_cons.mpr ⟨hnot, hnd⟩)⟩

/-- Receipts, wallets and proofs of a request that resolves are named apart. -/
structure Apart (r : TransactionEvidenceRequest) : Prop where
  receipts : (r.receipts.map (·.id)).Nodup
  wallets : (r.wallets.map (·.walletId)).Nodup
  statementProofs : (r.statementProofs.map (·.proofId)).Nodup

theorem resolveSorted_apart {result : TransactionEvidenceResult}
    (h : resolveSorted r = .ok result) : Apart r := by
  simp only [resolveSorted, replaceReceipts, resolveReplaced, bind_ok, pure_ok,
    Except.ok.injEq] at h
  obtain ⟨r', ⟨t, -, rfl⟩, _, ⟨s, -, events, -, receipts, hreceipts, wallets, hwallets, -⟩, -⟩ := h
  obtain ⟨hw, hp⟩ := resolveWallets_apart hwallets
  exact ⟨resolveReceipts_apart hreceipts, hw, hp⟩

theorem Apart.of_sorted (h : Apart (sortRequest r)) : Apart r where
  receipts := ((perm_sortOn _ r.receipts).map _).nodup_iff.mp h.receipts
  wallets := ((perm_sortOn _ r.wallets).map _).nodup_iff.mp h.wallets
  statementProofs := by
    have hproofs := h.statementProofs
    unfold sortRequest at hproofs
    rw [map_map] at hproofs
    exact ((perm_sortOn _ r.statementProofs).map _).nodup_iff.mp hproofs

/-! ## One sorted request -/

theorem sortRequest_eq (h : Recaptured r r') (hr : Apart r)
    (hvalid : validate r = .ok ()) : sortRequest r = sortRequest r' := by
  obtain ⟨-, -, ⟨hobs, -⟩, hrel, -⟩ := validate_eq_ok.mp hvalid
  have h1 := sortOn_eq_of_perm h.observations (key_injOn hobs)
  have h2 := sortOn_eq_of_perm h.relationships (key_injOn hrel)
  have h3 := sortOn_eq_of_perm h.wallets (key_injOn hr.wallets)
  have h4 := sortOn_eq_of_perm h.receipts (key_injOn hr.receipts)
  have h5 := sortOn_eq_of_perm h.statementProofs (key_injOn hr.statementProofs)
  unfold sortRequest
  rw [h1, h2, h3, h4, h5, h.allocationReview, h.contractVersion, h.policyVersion,
    h.maxSettlementDays]

theorem resolve_recaptured (h : Recaptured r r')
    {result : TransactionEvidenceResult} (hr : resolveTransactionEvidence r = .ok result) :
    resolveTransactionEvidence r' = .ok result := by
  simp only [resolveTransactionEvidence, bind_ok] at hr ⊢
  obtain ⟨u, hvalid, hsorted⟩ := hr
  have hapart := (resolveSorted_apart hsorted).of_sorted
  exact ⟨u, validate_recaptured h hvalid, sortRequest_eq h hapart hvalid ▸ hsorted⟩

/-- **Capture order is irrelevant**: both requests have the same result, or both fail. -/
theorem resolution_order_irrelevant {r r' : TransactionEvidenceRequest} (h : Recaptured r r')
    (result : TransactionEvidenceResult) :
    resolveTransactionEvidence r = .ok result ↔ resolveTransactionEvidence r' = .ok result :=
  ⟨resolve_recaptured h, resolve_recaptured h.symm⟩

def coffeeSwapped : TransactionEvidenceRequest :=
  { coffeeRequest with observations := [coffeeRow, coffeePayment] }

theorem resolution_order_irrelevant_coffee :
    isOk (resolveTransactionEvidence coffeeRequest) = true ∧
      ∀ result, resolveTransactionEvidence coffeeRequest = .ok result ↔
        resolveTransactionEvidence coffeeSwapped = .ok result :=
  ⟨by decide +kernel, resolution_order_irrelevant
    ⟨List.Perm.swap coffeeRow coffeePayment [], .rfl, .rfl, .rfl, .rfl, rfl, rfl, rfl, rfl⟩⟩

end BalanceFrame.Evidence
