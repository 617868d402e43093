import BalanceFrame.Evidence.AllocationTotals
import BalanceFrame.Evidence.SpentOnce
import BalanceFrame.Evidence.Text

/-!
# Allocations conserve every cent

`allocation_conserves`: in a plan of `derive_evidence_allocation_plan`, the cells of a receipt line
and its remainder are the line's net, the cells of a target and its remainder are its amount, and a
projection exists exactly for the targets without a remainder. A projection takes the target's
amount from its account and books it by category as the cells say, and the card and bank tenders of
a receipt cover its cells.
-/

namespace BalanceFrame.Evidence

open Library List Bool
open Liquidity (I64 InI64 Money Checked)

/-! ## What a plan conserves -/

/-- The parts have the currency of the whole and add up to it. -/
def AddsUp (parts : List Money) (whole : Money) : Prop :=
  (∀ x ∈ parts, x.currency = whole.currency) ∧
    (parts.map fun x => (x.minorUnits : Int)).sum = whole.minorUnits

/-- The cells of a line and its remainder. -/
def EvidenceAllocationPlan.lineParts (plan : EvidenceAllocationPlan) (receiptId lineId : String) :
    List Money :=
  (plan.review.cells.filter fun c => c.receiptId == receiptId && c.lineId == lineId).map
      (·.amount) ++
    (plan.remainders.filter fun r => r.receiptId == receiptId && r.lineId == lineId).map (·.amount)

/-- The cells of a target and its remainder. -/
def EvidenceAllocationPlan.targetParts (plan : EvidenceAllocationPlan) (target : String) :
    List Money :=
  (plan.review.cells.filter fun c => c.targetObservationId == target).map (·.amount) ++
    (plan.targetRemainders.filter fun r => r.targetObservationId == target).map (·.amount)

/-- The categories that an effect books, with their amounts. -/
def EconomicEventLedgerEffect.booked (effect : EconomicEventLedgerEffect) :
    List ManualTransactionSplit :=
  match effect.categoryId with
  | some category => [⟨category, effect.amount⟩]
  | none => effect.splits

/-- An effect takes the target's amount, by category as the cells say. -/
structure BooksCells (choices : List EvidenceSettlementLineCategory)
    (cells : List EvidenceAllocationCell) (target : Observed) (effect : EconomicEventLedgerEffect) :
    Prop where
  currency : effect.amount.currency = target.amount.currency
  amount : (effect.amount.minorUnits : Int) = -(target.amount.minorUnits : Int)
  single : effect.categoryId.isSome → effect.splits = []
  apart : (effect.booked.map (·.categoryId)).Nodup
  booked : ∀ category amount, ⟨category, amount⟩ ∈ effect.booked ↔
    (∃ c ∈ cells, c.targetObservationId = target.id ∧
      lineCategory choices c = some category) ∧
    amount.currency = target.amount.currency ∧
    (amount.minorUnits : Int) = -totalWhere (fun c => c.targetObservationId == target.id &&
      lineCategory choices c == some category) (·.units) cells

/-- What a plan conserves of a request. -/
structure Conserved (request : DeriveEvidenceAllocationPlanRequest)
    (plan : EvidenceAllocationPlan) : Prop where
  cells : plan.review.cells.Perm request.cells
  categories : plan.review.lineCategories.Perm request.lineCategories
  receiptIds : plan.review.receiptIds.Perm request.receiptIds
  targetIds : plan.review.targetObservationIds.Perm request.targetObservationIds
  receipts : ∀ id ∈ plan.review.receiptIds, ∃ receipt ∈ request.evidence.receipts, receipt.id = id
  observations : ∀ id ∈ plan.review.targetObservationIds,
    ∃ target ∈ request.evidence.observations, target.id = id
  lines : ∀ receipt ∈ request.evidence.receipts, receipt.id ∈ plan.review.receiptIds →
    ∀ line ∈ receipt.lines, AddsUp (plan.lineParts receipt.id line.id) line.net
  targets : ∀ target ∈ request.evidence.observations,
    target.id ∈ plan.review.targetObservationIds →
      AddsUp (plan.targetParts target.id) target.amount
  projected : plan.projections.map (·.targetObservationId) =
    plan.review.targetObservationIds.filter fun id =>
      !plan.targetRemainders.any (·.targetObservationId == id)
  effects : ∀ projection ∈ plan.projections, ∃ target ∈ request.evidence.observations,
    target.id = projection.targetObservationId ∧
      BooksCells plan.review.lineCategories plan.review.cells target.toObserved
        projection.ledgerEffect
  tenders : ∀ receipt ∈ request.evidence.receipts, receipt.id ∈ plan.review.receiptIds →
    ∃ d, Covers (·.observationId) (·.units)
      (fun target => totalWhere (fun c => c.receiptId == receipt.id &&
        c.targetObservationId == target) (·.units) plan.review.cells)
      (receipt.tenders.filter isBankTender) plan.review.targetObservationIds d

/-! ## Receipts -/

/-- What resolution establishes of receipts. -/
structure Receipted (receipts : List ReceiptEvidence) : Prop where
  apart : (receipts.map (·.id)).Nodup
  lines : ∀ receipt ∈ receipts, (receipt.lines.map (·.id)).Nodup
  tenders : ∀ receipt ∈ receipts, (receipt.tenders.map (·.id)).Nodup
  amounts : ∀ receipt ∈ receipts, ∀ tender ∈ receipt.tenders, 0 ≤ tender.units

variable {receipt : ReceiptEvidence} {resolved : TransactionEvidenceResult}

theorem lines_apart {m m' : SortedMap String Owned}
    (h : receipt.lines.foldlM (indexLine receipt) m = .ok m') :
    (receipt.lines.map (·.id)).Nodup := by
  refine (foldlM_run (P := fun done (m : SortedMap String Owned) =>
    (∀ line ∈ done, (m.get? line.id).isSome) ∧
      (done.map fun line : ReceiptLine => line.id).Nodup)
    (fun done m m' line hdone hstep => ?_)
    ⟨fun _ hl => absurd hl not_mem_nil, nodup_nil⟩ h).2
  simp only [indexLine, bind_ok, require_eq_ok, and_eq_true, Option.isNone_iff_eq_none,
    pure_ok, Except.ok.injEq] at hstep
  obtain ⟨-, ⟨-, hnone⟩, rfl⟩ := hstep
  obtain ⟨hmet, hnd⟩ := hdone
  refine ⟨fun l hl => ?_, ?_⟩
  · rw [SortedMap.get?_insert]
    split
    · rfl
    · rename_i hne
      rcases mem_append.mp hl with hl | hl
      · exact hmet l hl
      · exact absurd (congrArg ReceiptLine.id (mem_singleton.mp hl)).symm hne
  · rw [map_append, map_singleton]
    refine nodup_append_comm.mp (nodup_cons.mpr ⟨fun hmem => ?_, hnd⟩)
    obtain ⟨l, hl, heq⟩ := mem_map.mp hmem
    have := hmet l hl
    rw [heq, hnone] at this
    cases this

theorem tenders_apart {obs : List Observed} {receipts : List ReceiptEvidence} {claims : Claimed}
    {observation : Observed} {t t' : TenderSums}
    (h : receipt.tenders.foldlM (checkTender obs receipts claims receipt observation) t = .ok t')
    (hempty : t.ids = []) : (receipt.tenders.map (·.id)).Nodup := by
  refine (foldlM_run (P := fun done (t : TenderSums) =>
    t.ids = (done.map fun tender : ReceiptTender => tender.id).reverse ∧
      (done.map fun tender : ReceiptTender => tender.id).Nodup)
    (fun done t t' tender hdone hstep => ?_) ⟨hempty, nodup_nil⟩ h).2
  obtain ⟨hids, hnd⟩ := hdone
  have hkept : t'.ids = tender.id :: t.ids ∧ tender.id ∉ t.ids := by
    simp only [checkTender, bind_ok, require_eq_ok, and_eq_true, not_eq_true',
      contains_eq_mem, decide_eq_false_iff_not] at hstep
    obtain ⟨-, ⟨⟨-, hnot⟩, -⟩, hstep⟩ := hstep
    split at hstep
    · cases hstep
      exact ⟨rfl, hnot⟩
    · obtain ⟨source, -, hstep⟩ := bind_ok.mp hstep
      cases hstep
      exact ⟨rfl, hnot⟩
  rw [hkept.1, hids, map_append, map_singleton, reverse_append]
  refine ⟨rfl, nodup_append_comm.mp (nodup_cons.mpr ⟨fun hmem => hkept.2 ?_, hnd⟩)⟩
  rw [hids]
  exact mem_reverse.mpr hmem

theorem receipted_of_resolve {obs : List Observed} {receipts : List ReceiptEvidence}
    {out : List ReceiptEvidenceResolution × List EvidenceBlocker}
    (h : resolveReceipts obs receipts = .ok out) : Receipted receipts := by
  have hapart := resolveReceipts_apart h
  simp only [resolveReceipts, bind_ok] at h
  obtain ⟨-, -, claims, -, lines, hlines, t, ht, -⟩ := h
  have hone : ∀ receipt ∈ receipts, (receipt.tenders.map (·.id)).Nodup ∧
      ∀ tender ∈ receipt.tenders, 0 ≤ tender.units := by
    intro receipt hr
    obtain ⟨c, c', hstep⟩ := foldlM_mem_ok ht receipt hr
    simp only [resolveReceipt, bind_ok] at hstep
    obtain ⟨observation, -, sums, -, tenders, htenders, total, htotal, -⟩ := hstep
    exact ⟨tenders_apart htenders rfl, fun tender hmem =>
      nonneg_of_sum htotal _ (mem_map_of_mem hmem)⟩
  refine ⟨hapart, fun receipt hr => ?_, fun receipt hr => (hone receipt hr).1,
    fun receipt hr => (hone receipt hr).2⟩
  obtain ⟨m, m', hstep⟩ := foldlM_mem_ok hlines receipt hr
  exact lines_apart hstep

/-! ## Selections -/

/-- What `select` finds. -/
structure Selects (base : TransactionEvidenceRequest) (review : EvidenceAllocationReview)
    (sel : Selection) : Prop where
  receiptIds : review.receiptIds.Nodup
  targetIds : review.targetObservationIds.Nodup
  targets : sel.targets.map (fun o => o.id) = review.targetObservationIds
  observed : ∀ o ∈ sel.targets, o ∈ base.observations
  positive : ∀ o ∈ sel.targets, 0 < (o.amount.minorUnits : Int)
  receipts : sel.receipts.map (·.id) = review.receiptIds
  stored : ∀ receipt ∈ sel.receipts, receipt ∈ base.receipts
  lines : ∀ receipt ∈ sel.receipts, ∀ line ∈ receipt.lines,
    sel.lines.get? (toLex (receipt.id, line.id)) = some line

theorem selectReceipt_lines {base : TransactionEvidenceRequest} {s s' : Selected}
    (hnd : (receipt.lines.map (·.id)).Nodup)
    (h : selectReceipt base resolved s receipt = .ok s') :
    (∀ line ∈ receipt.lines, s'.lines.get? (toLex (receipt.id, line.id)) = some line) ∧
      ∀ r l, r ≠ receipt.id → s'.lines.get? (toLex (r, l)) = s.lines.get? (toLex (r, l)) := by
  simp only [selectReceipt, bind_ok, pure_ok, Except.ok.injEq] at h
  obtain ⟨source, -, -, -, rfl⟩ := h
  have hkeys : (receipt.lines.map fun line => (toLex (receipt.id, line.id) : Pair)).Nodup := by
    refine List.Nodup.of_map (fun k => (ofLex k).2) ?_
    rw [map_map]
    exact hnd
  obtain ⟨hmem, hout⟩ := SortedMap.get?_foldl_insert
    (fun line : ReceiptLine => (toLex (receipt.id, line.id) : Pair)) (fun line => line) hkeys
    s.lines
  refine ⟨hmem, fun r l hr => hout _ fun hk => hr ?_⟩
  obtain ⟨line, -, heq⟩ := mem_map.mp hk
  exact (Prod.mk.inj (toLex.injective heq)).1.symm

theorem select_spec {base : TransactionEvidenceRequest}
    {review : EvidenceAllocationReview} {sel : Selection} (hbase : Receipted base.receipts)
    (h : select base resolved review = .ok sel) : Selects base review sel := by
  simp only [select, bind_ok, require_eq_ok, and_eq_true, decide_eq_true_iff, pure_ok,
    Except.ok.injEq] at h
  obtain ⟨-, ⟨⟨hreceiptIds, htargetIds⟩, -⟩, targets, htargets, parents, hparents, receipts,
    hreceipts, s, hs, -, -, -, -, rfl⟩ := h
  have hfound := mapM_eq_ok.mp htargets
  have hstored := mapM_eq_ok.mp hreceipts
  simp only [orStop_ok] at hfound hstored
  have hids : receipts.map (·.id) = review.receiptIds := map_of_forall₂ (fun id receipt h => by
    simpa using find?_some h) hstored
  have hmem : ∀ receipt ∈ receipts, receipt ∈ base.receipts := fun receipt hr => by
    obtain ⟨id, -, hfind⟩ := exists_of_forall₂ hstored hr
    exact mem_of_find?_eq_some hfind
  refine
    { receiptIds := hreceiptIds
      targetIds := htargetIds
      targets := map_of_forall₂ (fun id o h => by simpa using find?_some h) hfound
      observed := fun o ho => ?_
      positive := fun o ho => ?_
      receipts := hids
      stored := hmem
      lines := ?_ }
  · obtain ⟨id, -, hfind⟩ := exists_of_forall₂ hfound ho
    exact mem_of_find?_eq_some hfind
  · obtain ⟨c, c', hstep⟩ := foldlM_mem_ok hparents o ho
    simp only [checkTarget, isTarget, bind_ok, require_eq_ok, and_eq_true,
      decide_eq_true_iff] at hstep
    obtain ⟨-, htarget, -⟩ := hstep
    exact htarget.1.1.1.2
  · refine foldlM_runAt (P := fun done (s : Selected) => ∀ receipt ∈ done,
      ∀ line ∈ receipt.lines, s.lines.get? (toLex (receipt.id, line.id)) = some line)
      (fun done receipt rest s s' hl hdone hstep => ?_)
      (fun _ hr => absurd hr not_mem_nil) hs
    have hr : receipt ∈ receipts := hl ▸ mem_append_right _ mem_cons_self
    obtain ⟨hown, hothers⟩ := selectReceipt_lines (hbase.lines receipt (hmem receipt hr)) hstep
    intro other hother line hline
    rcases mem_append.mp hother with hother | hother
    · rw [hothers]
      · exact hdone other hother line hline
      · intro heq
        rw [← hids, hl, map_append, map_cons] at hreceiptIds
        exact (nodup_append.mp hreceiptIds).2.2 _ (mem_map_of_mem hother) _
          mem_cons_self heq
    · obtain rfl := mem_singleton.mp hother
      exact hown line hline

/-! ## What is left -/

/-- What is left of a whole. -/
def leftOf (consumed : I64) (whole : Money) : List Money :=
  if (consumed : Int) < whole.minorUnits then
    [⟨I64.wrap (whole.minorUnits - consumed), whole.currency⟩]
  else []

theorem addsUp_left {whole : Money} {parts : List Money} {consumed : I64}
    (hcurrency : ∀ x ∈ parts, x.currency = whole.currency)
    (hsum : (consumed : Int) = (parts.map fun x => (x.minorUnits : Int)).sum)
    (hpos : 0 ≤ (consumed : Int)) (hle : (consumed : Int) ≤ whole.minorUnits) :
    AddsUp (parts ++ leftOf consumed whole) whole := by
  have hmax := whole.minorUnits.le_max
  unfold leftOf
  split
  · have hwrap : (I64.wrap (whole.minorUnits - consumed) : Int) = whole.minorUnits - consumed :=
      I64.coe_wrap ⟨by omega, by omega⟩
    refine ⟨fun x hx => ?_, ?_⟩
    · rcases mem_append.mp hx with hx | hx
      · exact hcurrency x hx
      · rw [mem_singleton.mp hx]
    · rw [map_append, sum_append, ← hsum, map_singleton, sum_singleton, hwrap]
      omega
  · rw [append_nil]
    exact ⟨hcurrency, by omega⟩

/-- The remainder of a line. -/
def remainderOf (rows : SortedMap Pair I64) (e : Pair × ReceiptLine) :
    Option EvidenceAllocationRemainder :=
  (leftOf ((rows.get? e.1).getD 0) e.2.net).head?.map fun amount =>
    ⟨(ofLex e.1).1, (ofLex e.1).2, amount⟩

/-- The remainder of a target. -/
def targetRemainderOf (columns : SortedMap String I64) (target : EvidenceObservation) :
    Option EvidenceAllocationTargetRemainder :=
  (leftOf ((columns.get? target.id).getD 0) target.amount).head?.map fun amount =>
    ⟨target.id, amount⟩

theorem toList_head?_leftOf (consumed : I64) (whole : Money) :
    (leftOf consumed whole).head?.toList = leftOf consumed whole := by
  unfold leftOf
  split <;> rfl

theorem remainders_of_fold {rows : SortedMap Pair I64} {entries : List (Pair × ReceiptLine)}
    {out : List EvidenceAllocationRemainder}
    (h : entries.foldlM (addRemainder rows) [] = .ok out) :
    out = entries.filterMap (remainderOf rows) ∧
      ∀ e ∈ entries, (((rows.get? e.1).getD 0 : I64) : Int) ≤ e.2.net.minorUnits := by
  refine foldlM_run (P := fun done (out : List EvidenceAllocationRemainder) =>
    out = done.filterMap (remainderOf rows) ∧
      ∀ e ∈ done, (((rows.get? e.1).getD 0 : I64) : Int) ≤ e.2.net.minorUnits)
    (fun done out out' e hdone hstep => ?_) ⟨rfl, fun _ he => absurd he not_mem_nil⟩ h
  simp only [addRemainder, bind_ok, require_eq_ok, decide_eq_true_iff, pure_ok,
    Except.ok.injEq] at hstep
  obtain ⟨-, hle, rfl⟩ := hstep
  obtain ⟨rfl, hall⟩ := hdone
  refine ⟨?_, fun x hx => ?_⟩
  · rw [filterMap_append]
    by_cases hpos : (((rows.get? e.1).getD 0 : I64) : Int) < e.2.net.minorUnits
    · rw [if_pos (sub_pos.mpr hpos)]
      simp [remainderOf, leftOf, hpos]
    · rw [if_neg fun hsub => hpos (sub_pos.mp hsub)]
      simp [remainderOf, leftOf, hpos]
  · rcases mem_append.mp hx with hx | hx
    · exact hall x hx
    · exact mem_singleton.mp hx ▸ hle

/-- What the targets' fold leaves. -/
structure ProjectedOf (t : Matrix) (done : List EvidenceObservation) (out : Projected) : Prop where
  within : ∀ target ∈ done,
    (((t.columns.get? target.id).getD 0 : I64) : Int) ≤ target.amount.minorUnits
  remainders : out.targetRemainders = done.filterMap (targetRemainderOf t.columns)
  projected : out.projections.map (·.targetObservationId) =
    (done.filter fun target => (targetRemainderOf t.columns target).isNone).map fun o => o.id
  effects : ∀ projection ∈ out.projections, ∃ target ∈ done,
    (((t.columns.get? target.id).getD 0 : I64) : Int) = target.amount.minorUnits ∧
      target.id = projection.targetObservationId ∧ projection.ledgerEffect =
        fundedEffect t.splits ((t.columns.get? target.id).getD 0) target

theorem ProjectedOf.add {events : List ResolvedEconomicEvent} {t : Matrix}
    {sources : List EvidenceProvenance} {evidenceIds : List String}
    {done : List EvidenceObservation} {out out' : Projected} {target : EvidenceObservation}
    (h : ProjectedOf t done out)
    (hadd : projectTarget events t sources evidenceIds out target = .ok out') :
    ProjectedOf t (done ++ [target]) out' := by
  simp only [projectTarget, bind_ok, require_eq_ok, decide_eq_true_iff] at hadd
  obtain ⟨-, hle, hadd⟩ := hadd
  have hwithin : ∀ o ∈ done ++ [target],
      (((t.columns.get? o.id).getD 0 : I64) : Int) ≤ o.amount.minorUnits := by
    intro o ho
    rcases mem_append.mp ho with ho | ho
    · exact h.within o ho
    · exact mem_singleton.mp ho ▸ hle
  have hkept : ∀ projection ∈ out.projections, ∃ o ∈ done ++ [target],
      (((t.columns.get? o.id).getD 0 : I64) : Int) = o.amount.minorUnits ∧
        o.id = projection.targetObservationId ∧ projection.ledgerEffect =
          fundedEffect t.splits ((t.columns.get? o.id).getD 0) o := fun projection hp => by
    obtain ⟨o, ho, hfacts⟩ := h.effects projection hp
    exact ⟨o, mem_append_left _ ho, hfacts⟩
  split at hadd
  · rename_i hlt
    cases hadd
    refine ⟨hwithin, ?_, ?_, hkept⟩
    · rw [h.remainders, filterMap_append]
      simp [targetRemainderOf, leftOf, hlt]
    · have hleft : (targetRemainderOf t.columns target).isNone = false := by
        simp [targetRemainderOf, leftOf, hlt]
      rw [h.projected, filter_append, filter_cons_of_neg (by simp [hleft]),
        filter_nil, append_nil]
  · rename_i hge
    obtain ⟨event, -, hadd⟩ := bind_ok.mp hadd
    cases hadd
    refine ⟨hwithin, ?_, ?_, fun projection hp => ?_⟩
    · rw [h.remainders, filterMap_append]
      simp [targetRemainderOf, leftOf, hge]
    · have hfunded : (targetRemainderOf t.columns target).isNone = true := by
        simp [targetRemainderOf, leftOf, hge]
      have hlast : [target].filter (fun o => (targetRemainderOf t.columns o).isNone) = [target] :=
        filter_eq_self.mpr fun o ho => mem_singleton.mp ho ▸ hfunded
      rw [map_append, h.projected, filter_append, hlast, map_append]
      rfl
    · rcases mem_append.mp hp with hp | hp
      · exact hkept projection hp
      · rw [mem_singleton.mp hp]
        exact ⟨target, mem_append_right _ mem_cons_self,
          le_antisymm hle (not_lt.mp hge), rfl, rfl⟩

/-! ## Effects -/

/-- The splits of a target. -/
def partsOf (splits : SortedMap Pair I64) (target : EvidenceObservation) :
    List ManualTransactionSplit :=
  (splits.entries.filter fun e => (ofLex e.1).1 == target.id).map fun e =>
    ⟨(ofLex e.1).2, ⟨I64.neg e.2, target.amount.currency⟩⟩

theorem mem_partsOf {splits : SortedMap Pair I64} {target : EvidenceObservation}
    {category : String} {amount : Money} : ⟨category, amount⟩ ∈ partsOf splits target ↔
      ∃ n, splits.get? (toLex (target.id, category)) = some n ∧
        amount = ⟨I64.neg n, target.amount.currency⟩ := by
  unfold partsOf
  rw [mem_map]
  constructor
  · rintro ⟨⟨k, n⟩, he, heq⟩
    obtain ⟨hmem, htarget⟩ := mem_filter.mp he
    obtain ⟨rfl, rfl⟩ := ManualTransactionSplit.mk.inj heq
    have hk : k = toLex (target.id, (ofLex k).2) := by
      rw [← eq_of_beq htarget]
      rfl
    exact ⟨n, by rw [← hk]; exact SortedMap.mem_entries_iff.mp hmem, rfl⟩
  · rintro ⟨n, hn, rfl⟩
    exact ⟨(toLex (target.id, category), n),
      mem_filter.mpr ⟨SortedMap.mem_entries_iff.mpr hn, by simp⟩, rfl⟩

theorem nodup_partsOf (splits : SortedMap Pair I64) (target : EvidenceObservation) :
    ((partsOf splits target).map (·.categoryId)).Nodup := by
  have hkeys : (splits.entries.map Prod.fst).Nodup := splits.nodup_keys
  unfold partsOf
  rw [map_map]
  refine List.Nodup.map_on (fun e he e' he' heq => ?_) ((List.Nodup.of_map _ hkeys).filter _)
  obtain ⟨he, htarget⟩ := mem_filter.mp he
  obtain ⟨he', htarget'⟩ := mem_filter.mp he'
  refine inj_on_of_nodup_map hkeys he he' (ofLex.injective (Prod.ext ?_ heq))
  exact (eq_of_beq htarget).trans (eq_of_beq htarget').symm

section

variable {choices : List EvidenceSettlementLineCategory} {cells : List EvidenceAllocationCell}
  {sel : Selection} {categories : SortedMap Pair String} {t : Matrix}

theorem splitKey_eq_iff {c : EvidenceAllocationCell} (hsome : (lineCategory choices c).isSome)
    (hsame : categories.get? c.line = lineCategory choices c) {target category : String} :
    splitKey categories c = toLex (target, category) ↔
      c.targetObservationId = target ∧ lineCategory choices c = some category := by
  obtain ⟨own, hown⟩ := Option.isSome_iff_exists.mp hsome
  unfold splitKey
  rw [hsame, hown, Option.getD_some, toLex_inj, Prod.mk.injEq, Option.some.injEq]

variable (hmatrix : MatrixOf sel categories cells t)
  (hcategories : ∀ c ∈ cells, (lineCategory choices c).isSome ∧
    categories.get? c.line = lineCategory choices c)

include hmatrix hcategories

theorem mem_partsOf_iff (target : EvidenceObservation) (category : String) (amount : Money) :
    ⟨category, amount⟩ ∈ partsOf t.splits target ↔
      (∃ c ∈ cells, c.targetObservationId = target.id ∧
        lineCategory choices c = some category) ∧
      amount.currency = target.amount.currency ∧
      (amount.minorUnits : Int) = -totalWhere (fun c => c.targetObservationId == target.id &&
        lineCategory choices c == some category) (·.units) cells := by
  have hkey : ∀ c ∈ cells, (c.targetObservationId == target.id &&
      lineCategory choices c == some category) = true ↔
        splitKey categories c = toLex (target.id, category) := fun c hc => by
    rw [splitKey_eq_iff (hcategories c hc).1 (hcategories c hc).2]
    simp
  have hneg : ∀ {n : I64}, t.splits.get? (toLex (target.id, category)) = some n →
      (I64.neg n : Int) = -totalWhere (fun c => c.targetObservationId == target.id &&
        lineCategory choices c == some category) (·.units) cells := by
    intro n hn
    have htotal := hmatrix.splits.get? hn hkey
    rw [coe_neg_of_nonneg, htotal]
    rw [htotal]
    exact totalWhere_nonneg fun c hc => (hmatrix.positive c hc).le
  rw [mem_partsOf]
  constructor
  · rintro ⟨n, hn, rfl⟩
    obtain ⟨c, hc, hck⟩ := (hmatrix.splits.met _).mp (Option.isSome_iff_exists.mpr ⟨n, hn⟩)
    exact ⟨⟨c, hc, (splitKey_eq_iff (hcategories c hc).1 (hcategories c hc).2).mp hck⟩, rfl,
      hneg hn⟩
  · rintro ⟨⟨c, hc, htarget, hcategory⟩, hcurrency, hunits⟩
    obtain ⟨n, hn⟩ := Option.isSome_iff_exists.mp ((hmatrix.splits.met _).mpr ⟨c, hc,
      (splitKey_eq_iff (hcategories c hc).1 (hcategories c hc).2).mpr ⟨htarget, hcategory⟩⟩)
    refine ⟨n, hn, ?_⟩
    cases amount
    rw [Money.mk.injEq]
    exact ⟨I64.ext (hunits.trans (hneg hn).symm), hcurrency⟩

theorem booked_fundedEffect (target : EvidenceObservation) :
    (fundedEffect t.splits ((t.columns.get? target.id).getD 0) target).booked =
      partsOf t.splits target := by
  by_cases hlen : (partsOf t.splits target).length = 1
  · obtain ⟨⟨category, amount⟩, hs⟩ := length_eq_one_iff.mp hlen
    have hmem : ⟨category, amount⟩ ∈ partsOf t.splits target := hs ▸ mem_cons_self
    obtain ⟨n, hn, rfl⟩ := mem_partsOf.mp hmem
    -- every cell of the target is of the one category
    have honly : ∀ c ∈ cells, (c.targetObservationId == target.id) = true ↔
        splitKey categories c = toLex (target.id, category) := by
      intro c hc
      rw [splitKey_eq_iff (hcategories c hc).1 (hcategories c hc).2, beq_iff_eq]
      refine ⟨fun htarget => ⟨htarget, ?_⟩, fun h => h.1⟩
      obtain ⟨own, hown⟩ := Option.isSome_iff_exists.mp (hcategories c hc).1
      obtain ⟨k, hk⟩ := Option.isSome_iff_exists.mp ((hmatrix.splits.met _).mpr ⟨c, hc,
        (splitKey_eq_iff (hcategories c hc).1 (hcategories c hc).2).mpr ⟨htarget, hown⟩⟩)
      have hpart : (⟨own, ⟨I64.neg k, target.amount.currency⟩⟩ : ManualTransactionSplit) ∈
          partsOf t.splits target := mem_partsOf.mpr ⟨k, hk, rfl⟩
      rw [hs, mem_singleton, ManualTransactionSplit.mk.injEq] at hpart
      rw [hown, hpart.1]
    have htotal : (t.columns.get? target.id).getD 0 = n := by
      refine I64.ext ?_
      rw [hmatrix.splits.get? hn honly]
      exact hmatrix.columns.total _ _ fun c _ => beq_iff_eq
    have hcategory : (fundedEffect t.splits ((t.columns.get? target.id).getD 0) target).categoryId =
        some category := by
      change (if (partsOf t.splits target).length = 1 then
        (partsOf t.splits target).head?.map (·.categoryId) else none) = _
      rw [if_pos hlen, hs]
      rfl
    unfold EconomicEventLedgerEffect.booked
    rw [hcategory, hs, ← htotal]
    rfl
  · have hcategory : (fundedEffect t.splits ((t.columns.get? target.id).getD 0) target).categoryId =
        none := if_neg hlen
    unfold EconomicEventLedgerEffect.booked
    rw [hcategory]
    exact if_neg hlen

theorem booksCells_fundedEffect {target : EvidenceObservation}
    (hfunded : (((t.columns.get? target.id).getD 0 : I64) : Int) = target.amount.minorUnits)
    (hpos : 0 < (target.amount.minorUnits : Int)) :
    BooksCells choices cells target.toObserved
      (fundedEffect t.splits ((t.columns.get? target.id).getD 0) target) where
  currency := rfl
  amount := by
    change (I64.neg ((t.columns.get? target.id).getD 0) : Int) = _
    rw [coe_neg_of_nonneg (by omega), hfunded]
  single hsome := by
    change (if (partsOf t.splits target).length = 1 then [] else partsOf t.splits target) = []
    refine if_pos ?_
    by_contra hlen
    have hnone : (fundedEffect t.splits ((t.columns.get? target.id).getD 0) target).categoryId =
        none := if_neg hlen
    rw [hnone] at hsome
    cases hsome
  apart := by
    rw [booked_fundedEffect hmatrix hcategories]
    exact nodup_partsOf _ _
  booked category amount := by
    rw [booked_fundedEffect hmatrix hcategories]
    exact mem_partsOf_iff hmatrix hcategories target category amount

end

/-! ## Plans -/

theorem sum_amounts {α : Type} (p : α → Bool) (amount : α → Money) (l : List α) :
    (((l.filter p).map amount).map fun x => (x.minorUnits : Int)).sum =
      totalWhere p (fun a => (amount a).minorUnits) l := by
  rw [map_map]
  rfl

section

variable {base : TransactionEvidenceRequest} {review : EvidenceAllocationReview} {sel : Selection}
  {categories : SortedMap Pair String} {t : Matrix}

theorem line_addsUp (hmatrix : MatrixOf sel categories review.cells t)
    {out : List EvidenceAllocationRemainder}
    (h : sel.lines.entries.foldlM (addRemainder t.rows) [] = .ok out) {r l : String}
    {line : ReceiptLine} (hline : sel.lines.get? (toLex (r, l)) = some line) :
    AddsUp ((review.cells.filter fun c => c.receiptId == r && c.lineId == l).map (·.amount) ++
      (out.filter fun x => x.receiptId == r && x.lineId == l).map (·.amount)) line.net := by
  have hentry := SortedMap.mem_entries_iff.mpr hline
  obtain ⟨rfl, hwithin⟩ := remainders_of_fold h
  have hcell : ∀ c : EvidenceAllocationCell, (c.receiptId == r && c.lineId == l) = true ↔
      c.line = toLex (r, l) := fun c => by simp [EvidenceAllocationCell.line]
  have htotal := hmatrix.rows.total (toLex (r, l)) _ fun c _ => hcell c
  have hleft : ((sel.lines.entries.filterMap (remainderOf t.rows)).filter fun x =>
      x.receiptId == r && x.lineId == l).map (·.amount) =
        leftOf ((t.rows.get? (toLex (r, l))).getD 0) line.net := by
    rw [filter_filterMap_of_key Prod.fst
      (fun x : EvidenceAllocationRemainder => (toLex (x.receiptId, x.lineId) : Pair))
      (k := toLex (r, l)) (fun e x hx => ?_) (fun x => by simp) sel.lines.nodup_keys _ hentry rfl]
    · rw [← toList_head?_leftOf]
      unfold remainderOf
      cases (leftOf ((t.rows.get? (toLex (r, l))).getD 0) line.net).head? <;> rfl
    · obtain ⟨amount, -, rfl⟩ := Option.map_eq_some_iff.mp hx
      rfl
  rw [hleft]
  refine addsUp_left (fun x hx => ?_) (htotal.trans (sum_amounts _ _ _).symm) ?_
    (hwithin _ hentry)
  · obtain ⟨c, hc, rfl⟩ := mem_map.mp hx
    obtain ⟨hc, hown⟩ := mem_filter.mp hc
    obtain ⟨line', hline', hcurrency⟩ := hmatrix.lines c hc
    rw [(hcell c).mp hown, hline] at hline'
    cases hline'
    exact hcurrency
  · rw [htotal]
    exact totalWhere_nonneg fun c hc => (hmatrix.positive c hc).le

/-- **Targets**: the cells of a target and what is left of it are its amount. -/
theorem target_addsUp (hmatrix : MatrixOf sel categories review.cells t)
    (hsel : Selects base review sel) {out : Projected} (hout : ProjectedOf t sel.targets out)
    {target : EvidenceObservation} (htarget : target ∈ sel.targets) :
    AddsUp ((review.cells.filter fun c => c.targetObservationId == target.id).map (·.amount) ++
      (out.targetRemainders.filter fun x => x.targetObservationId == target.id).map (·.amount))
      target.amount := by
  have hnd : (sel.targets.map fun o => o.id).Nodup := hsel.targets ▸ hsel.targetIds
  have htotal := hmatrix.columns.total target.id (fun c => c.targetObservationId == target.id)
    fun c _ => beq_iff_eq
  have hleft : (out.targetRemainders.filter fun x =>
      x.targetObservationId == target.id).map (·.amount) =
        leftOf ((t.columns.get? target.id).getD 0) target.amount := by
    rw [hout.remainders, filter_filterMap_of_key (fun o : EvidenceObservation => o.id)
      (fun x : EvidenceAllocationTargetRemainder => x.targetObservationId)
      (k := target.id) (fun o x hx => ?_) (fun x => beq_iff_eq) hnd target htarget rfl]
    · rw [← toList_head?_leftOf]
      unfold targetRemainderOf
      cases (leftOf ((t.columns.get? target.id).getD 0) target.amount).head? <;> rfl
    · obtain ⟨amount, -, rfl⟩ := Option.map_eq_some_iff.mp hx
      rfl
  rw [hleft]
  refine addsUp_left (fun x hx => ?_) (htotal.trans (sum_amounts _ _ _).symm) ?_
    (hout.within target htarget)
  · obtain ⟨c, hc, rfl⟩ := mem_map.mp hx
    obtain ⟨hc, hown⟩ := mem_filter.mp hc
    obtain ⟨o, ho, hid, hcurrency⟩ := hmatrix.targets c hc
    obtain rfl : o = target :=
      inj_on_of_nodup_map hnd ho htarget (hid.trans (eq_of_beq hown))
    exact hcurrency
  · rw [htotal]
    exact totalWhere_nonneg fun c hc => (hmatrix.positive c hc).le

theorem projected_iff_funded (hsel : Selects base review sel) {out : Projected}
    (hout : ProjectedOf t sel.targets out) :
    out.projections.map (·.targetObservationId) = review.targetObservationIds.filter fun id =>
      !out.targetRemainders.any (·.targetObservationId == id) := by
  have hnd : (sel.targets.map fun o => o.id).Nodup := hsel.targets ▸ hsel.targetIds
  rw [hout.projected, ← hsel.targets, filter_map]
  congr 1
  refine filter_congr fun target htarget => ?_
  have hown := filter_filterMap_of_key (f := targetRemainderOf t.columns)
    (fun o : EvidenceObservation => o.id)
    (fun x : EvidenceAllocationTargetRemainder => x.targetObservationId)
    (p := fun x => x.targetObservationId == target.id) (k := target.id)
    (fun o x hx => by
      obtain ⟨amount, -, rfl⟩ := Option.map_eq_some_iff.mp hx
      rfl) (fun x => beq_iff_eq) hnd target htarget rfl
  rw [Function.comp_apply, hout.remainders]
  cases hleft : targetRemainderOf t.columns target with
  | none =>
    rw [hleft] at hown
    rw [any_eq_false.mpr fun x hx => filter_eq_nil_iff.mp hown x hx]
    rfl
  | some x =>
    rw [hleft] at hown
    have hmem : x ∈ ((sel.targets.filterMap (targetRemainderOf t.columns)).filter fun x =>
        x.targetObservationId == target.id) := by
      rw [hown]
      exact mem_singleton.mpr rfl
    rw [any_eq_true.mpr ⟨x, mem_filter.mp hmem⟩]
    rfl

theorem observed_of_baseline {request : DeriveEvidenceAllocationPlanRequest}
    (h : derivationBase request = .ok base) : base.receipts = request.evidence.receipts ∧
      base.observations.map (·.toObserved) =
        request.evidence.observations.map (·.toObserved) := by
  have hbaseline : (baseline request.evidence request.targetObservationIds).observations.map
      (·.toObserved) = request.evidence.observations.map (·.toObserved) := by
    unfold baseline
    rw [map_map]
    refine map_congr_left fun o _ => ?_
    rw [Function.comp_apply]
    split <;> rfl
  unfold derivationBase at h
  split at h
  · simp only [fundingRelationships, bind_ok, pure_ok, Except.ok.injEq] at h
    obtain ⟨-, -, pairs, -, relationships, -, rfl⟩ := h
    exact ⟨rfl, hbaseline⟩
  · cases h
    exact ⟨rfl, hbaseline⟩

theorem admitted_of_resolve (h : resolveTransactionEvidence base = .ok resolved) :
    Receipted base.receipts ∧ (base.observations.map fun o => o.id).Nodup := by
  obtain ⟨u, hvalid, h⟩ := bind_ok.mp h
  obtain ⟨r, hr, h⟩ := bind_ok.mp h
  obtain ⟨result, hresult, -⟩ := bind_ok.mp h
  obtain ⟨s, -, hresult⟩ := bind_ok.mp hresult
  obtain ⟨out, -, hresult⟩ := bind_ok.mp hresult
  obtain ⟨receipts, hreceipts, -⟩ := bind_ok.mp hresult
  refine ⟨?_, (validate_eq_ok.mp hvalid).2.2.1.1⟩
  have hsorted := receipted_of_resolve hreceipts
  have hsame : r.receipts = sortOn (·.id) base.receipts := by
    rw [(replaceReceipts_frame hr).1]
    rfl
  have hperm : r.receipts.Perm base.receipts := hsame ▸ perm_sortOn _ _
  exact
    { apart := (hperm.map _).nodup_iff.mp hsorted.apart
      lines := fun receipt hmem => hsorted.lines receipt (hperm.mem_iff.mpr hmem)
      tenders := fun receipt hmem => hsorted.tenders receipt (hperm.mem_iff.mpr hmem)
      amounts := fun receipt hmem => hsorted.amounts receipt (hperm.mem_iff.mpr hmem) }

end

/-- **Allocations conserve every cent.** -/
theorem allocation_conserves {request : DeriveEvidenceAllocationPlanRequest}
    {plan : EvidenceAllocationPlan} (h : deriveEvidenceAllocationPlan request = .ok plan) :
    Conserved request plan := by
  simp only [deriveEvidenceAllocationPlan, bind_ok, pure_ok, Except.ok.injEq] at h
  obtain ⟨base, hbase, resolved, hresolved, computed, hcompute, rfl⟩ := h
  obtain ⟨hreceipts, hobs⟩ := observed_of_baseline hbase
  obtain ⟨hreceipted, hnd⟩ := admitted_of_resolve hresolved
  simp only [compute, bind_ok, pure_ok, Except.ok.injEq] at hcompute
  obtain ⟨-, -, sel, hsel, t, ht, remainders, hremainders, -, -, out, hout, -, -, rfl⟩ := hcompute
  have hsel := select_spec hreceipted hsel
  obtain ⟨categories, hmatrix, hcategories, htenders⟩ := matrixOf_spec ht
  have hout : ProjectedOf t sel.targets out :=
    foldlM_run (fun _ _ _ _ hdone hstep => hdone.add hstep)
      ⟨fun _ ho => absurd ho not_mem_nil, rfl, rfl, fun _ hp => absurd hp not_mem_nil⟩
      hout
  have hcaptured : ∀ o ∈ sel.targets, ∃ target ∈ request.evidence.observations,
      target.toObserved = o.toObserved := by
    intro o ho
    have hmem := mem_map_of_mem (f := fun o : EvidenceObservation => o.toObserved)
      (hsel.observed o ho)
    rw [hobs] at hmem
    exact mem_map.mp hmem
  have hchosen : ∀ target ∈ request.evidence.observations,
      target.id ∈ sortOn (fun s => s) request.targetObservationIds →
        ∃ o ∈ sel.targets, o.toObserved = target.toObserved := by
    intro target htarget hid
    have hmem := mem_map_of_mem (f := fun o : EvidenceObservation => o.toObserved) htarget
    rw [← hobs] at hmem
    obtain ⟨o, ho, heq⟩ := mem_map.mp hmem
    obtain ⟨o', ho', hid'⟩ := mem_map.mp (by rw [hsel.targets]; exact hid)
    obtain rfl : o' = o := inj_on_of_nodup_map hnd (hsel.observed o' ho') ho
      (hid'.trans (congrArg Observed.id heq).symm)
    exact ⟨o', ho', heq⟩
  have hpicked : ∀ receipt ∈ request.evidence.receipts,
      receipt.id ∈ sortOn (fun s => s) request.receiptIds → receipt ∈ sel.receipts := by
    intro receipt hreceipt hid
    obtain ⟨receipt', hmem, hid'⟩ := mem_map.mp (by rw [hsel.receipts]; exact hid)
    obtain rfl : receipt' = receipt := inj_on_of_nodup_map hreceipted.apart
      (hsel.stored receipt' hmem) (hreceipts ▸ hreceipt) hid'
    exact hmem
  exact
    { cells := perm_sortOn _ _
      categories := perm_sortOn _ _
      receiptIds := perm_sortOn _ _
      targetIds := perm_sortOn _ _
      receipts := fun id hid => by
        obtain ⟨receipt, hmem, heq⟩ := mem_map.mp (hsel.receipts ▸ hid)
        exact ⟨receipt, hreceipts ▸ hsel.stored receipt hmem, heq⟩
      observations := fun id hid => by
        obtain ⟨o, ho, heq⟩ := mem_map.mp (hsel.targets ▸ hid)
        obtain ⟨target, htarget, hsame⟩ := hcaptured o ho
        exact ⟨target, htarget, (congrArg Observed.id hsame).trans heq⟩
      lines := fun receipt hreceipt hid line hline =>
        line_addsUp hmatrix hremainders
          (hsel.lines receipt (hpicked receipt hreceipt hid) line hline)
      targets := fun target htarget hid => by
        obtain ⟨o, ho, heq⟩ := hchosen target htarget hid
        rw [← heq]
        exact target_addsUp hmatrix hsel hout ho
      projected := projected_iff_funded hsel hout
      effects := fun projection hp => by
        obtain ⟨o, ho, hfunded, hid, heffect⟩ := hout.effects projection hp
        obtain ⟨target, htarget, hsame⟩ := hcaptured o ho
        refine ⟨target, htarget, (congrArg Observed.id hsame).trans hid, ?_⟩
        rw [hsame, heffect]
        exact booksCells_fundedEffect hmatrix hcategories hfunded (hsel.positive o ho)
      tenders := fun receipt hreceipt hid => by
        have hmem := hpicked receipt hreceipt hid
        have hstored := hsel.stored receipt hmem
        have hcovers := exists_distribution hmatrix.pairs hmatrix.positive
          (hsel.targets ▸ hsel.targetIds) (hreceipted.tenders receipt hstored)
          (hreceipted.amounts receipt hstored) (htenders receipt hmem)
        rw [hsel.targets] at hcovers
        exact hcovers }

/-! ## A coffee booked to dining -/

def EvidenceAllocationReview.unhashed (r : EvidenceAllocationReview) : EvidenceAllocationReview :=
  { r with
    sourceHash := ""
    allocationSetHash := "" }

def EvidenceAllocationPlan.unhashed (p : EvidenceAllocationPlan) : EvidenceAllocationPlan :=
  { p with
    sourceHash := ""
    allocationSetHash := ""
    review := p.review.unhashed }

theorem weight_review (r : EvidenceAllocationReview) : weight r.json =
    weight r.unhashed.json + 6 * r.sourceHash.toList.length +
      6 * r.allocationSetHash.toList.length := by
  simp only [EvidenceAllocationReview.json, EvidenceAllocationReview.unhashed, weight,
    weightEntries, String.toList_empty, length_nil]
  omega

theorem weight_plan {p : EvidenceAllocationPlan} (h : p.fundingRelationships = none) :
    weight p.json = weight p.unhashed.json + 6 * p.sourceHash.toList.length +
      6 * p.allocationSetHash.toList.length + 6 * p.review.sourceHash.toList.length +
      6 * p.review.allocationSetHash.toList.length := by
  have := weight_review p.review
  simp only [EvidenceAllocationPlan.json, EvidenceAllocationPlan.unhashed, h, present,
    Option.toList_none, map_nil, append_nil, weight, weightEntries, String.toList_empty,
    length_nil]
  omega

def fits (base : TransactionEvidenceRequest) (resolved : TransactionEvidenceResult)
    (review : EvidenceAllocationReview) : Checked Unit := do
  checkShape review
  let review := normalizeReview review
  let sel ← select base resolved review
  let t ← matrixOf resolved sel review
  let remainders ← sel.lines.entries.foldlM (addRemainder t.rows) []
  let sources := dependencySources base sel
  let evidenceIds := sortedSet (sources.map (·.documentId))
  let funded := (sel.targets.filter (isFunded t.columns)).length
  let items := review.cells.length + review.lineCategories.length + review.receiptIds.length +
    review.targetObservationIds.length + evidenceIds.length + sources.length
  require (decide (funded * items ≤ 50000)) "allocation_publication_limit"
  require (decide (max funded 1 * (4 * (weight (.array [review.unhashed.json,
    .array (sources.map (·.json)), .array (evidenceIds.map .string)]) + 768)) ≤
      publicationLimit)) "allocation_publication_limit"
  let events := relevantEvents resolved sel.observations
  let out ← sel.targets.foldlM (projectTarget events t sources evidenceIds) ⟨[], []⟩
  require (decide (4 * (weight (planOf review remainders out).unhashed.json + 1536) ≤
    publicationLimit)) "allocation_publication_limit"

/-- **A plan that fits is returned**: a hash takes 64 characters. -/
theorem compute_of_fits {base : TransactionEvidenceRequest}
    {review : EvidenceAllocationReview} (hsource : review.sourceHash.toList.length ≤ 64)
    (hset : review.allocationSetHash.toList.length ≤ 64)
    (h : fits base resolved review = .ok ()) : ∃ plan, compute base resolved review = .ok plan := by
  simp only [fits, bind_ok, require_eq_ok, decide_eq_true_iff] at h
  obtain ⟨⟨⟩, hshape, sel, hsel, t, ht, remainders, hremainders, ⟨⟩, hitems, ⟨⟩, hmanifest, out,
    hout, hplan⟩ := h
  simp only [compute, checkPublication, bind_ok, require_eq_ok, decide_eq_true_iff, pure_ok,
    Except.ok.injEq]
  refine ⟨_, (), hshape, sel, hsel, t, ht, remainders, hremainders, (), ⟨(), hitems, ?_⟩, out, hout,
    (), ?_, rfl⟩
  · refine (Nat.mul_le_mul_left _ ?_).trans hmanifest
    refine (byteLength_writtenText_le _).trans ?_
    have hreview := weight_review (normalizeReview review)
    have hsource' : (normalizeReview review).sourceHash.toList.length ≤ 64 := hsource
    have hset' : (normalizeReview review).allocationSetHash.toList.length ≤ 64 := hset
    simp only [weight, weightValues]
    omega
  · refine (byteLength_writtenText_le _).trans ?_
    have hweight := weight_plan (p := planOf (normalizeReview review) remainders out) rfl
    have hhash : (planOf (normalizeReview review) remainders out).allocationSetHash.toList.length =
      64 := length_sha256Hex _
    have hown : (planOf (normalizeReview review) remainders
      out).review.allocationSetHash.toList.length = 64 := length_sha256Hex _
    have hsource' : (planOf (normalizeReview review) remainders out).sourceHash.toList.length ≤
      64 := hsource
    have hsource'' : (planOf (normalizeReview review) remainders
      out).review.sourceHash.toList.length ≤ 64 := hsource
    omega

def coffeeLine : ReceiptLine where
  id := "l1"
  rawDescription := "coffee"
  normalizedDescription := "coffee"
  sku := none
  department := none
  productFamily := none
  quantityMicros := 1000000
  unitGross := coffeePayment.amount
  gross := coffeePayment.amount
  discount := ⟨0, "USD"⟩
  tax := ⟨0, "USD"⟩
  net := coffeePayment.amount
  categoryId := none
  memberId := none
  evidenceStrength := 80
  reasonCodes := []
  returnOfLineId := none

def coffeeReceipt : ReceiptEvidence where
  id := "r1"
  observationId := "pay"
  version := 1
  supersedesId := none
  fulfillmentGroupId := none
  total := coffeePayment.amount
  discount := ⟨0, "USD"⟩
  tax := ⟨0, "USD"⟩
  lines := [coffeeLine]
  tenders := [⟨false, "c1", "card", coffeePayment.amount, none⟩]

def coffeeFunding : EvidenceRelationship where
  id := "a1"
  fromId := "pay"
  toId := "row"
  kind := "partial_funding"
  state := "confirmed"
  allocatedAmount := some coffeePayment.amount
  partialLink := true
  score := 100
  reasonCodes := []
  evidenceIds := []

def coffeeDerivation : DeriveEvidenceAllocationPlanRequest where
  contractVersion := "1"
  evidence :=
    { coffeeRequest with
      relationships := [coffeeFunding]
      receipts := [coffeeReceipt] }
  receiptIds := ["r1"]
  targetObservationIds := ["row"]
  lineCategories := [⟨"r1", "l1", "dining"⟩]
  cells := [⟨"r1", "l1", "row", coffeePayment.amount⟩]
  deriveFundingRelationships := none

def coffeeReview (sourceHash : String) : EvidenceAllocationReview where
  contractVersion := "1"
  sourceHash := sourceHash
  allocationSetHash := ""
  receiptIds := ["r1"]
  targetObservationIds := ["row"]
  lineCategories := [⟨"r1", "l1", "dining"⟩]
  cells := [⟨"r1", "l1", "row", coffeePayment.amount⟩]

theorem resolutionHash_length {r : TransactionEvidenceRequest} {result : TransactionEvidenceResult}
    (h : resolveTransactionEvidence r = .ok result) :
    result.resolutionHash.toList.length = 64 := by
  obtain ⟨u, -, h⟩ := bind_ok.mp h
  obtain ⟨sorted, -, h⟩ := bind_ok.mp h
  obtain ⟨resolved, hresolved, h⟩ := bind_ok.mp h
  have hsame : result.resolutionHash = resolved.resolutionHash := by
    unfold applyAllocationReview at h
    split at h
    · cases h
      rfl
    · simp only [bind_ok, pure_ok, Except.ok.injEq] at h
      obtain ⟨-, -, plan, -, -, -, -, -, events, -, rfl⟩ := h
      rfl
  obtain ⟨s, -, hresolved⟩ := bind_ok.mp hresolved
  obtain ⟨out, -, hresolved⟩ := bind_ok.mp hresolved
  obtain ⟨_, hresolved⟩ := rest_ok hresolved
  obtain ⟨_, hresolved⟩ := rest_ok hresolved
  cases hresolved
  rw [hsame]
  exact length_sha256Hex _

theorem allocation_conserves_coffee : ∃ plan,
    deriveEvidenceAllocationPlan coffeeDerivation = .ok plan ∧ Conserved coffeeDerivation plan := by
  have hfits : isOk (do
      let resolved ← resolveTransactionEvidence
        (baseline coffeeDerivation.evidence coffeeDerivation.targetObservationIds)
      fits (baseline coffeeDerivation.evidence coffeeDerivation.targetObservationIds) resolved
        (coffeeReview resolved.resolutionHash)) = true := by decide +kernel
  obtain ⟨u, hfits⟩ := isOk_iff.mp hfits
  obtain ⟨resolved, hresolved, hfits⟩ := bind_ok.mp hfits
  obtain ⟨plan, hplan⟩ := compute_of_fits (resolutionHash_length hresolved).le (Nat.zero_le _) hfits
  have hderived : ∃ plan, deriveEvidenceAllocationPlan coffeeDerivation = .ok plan := by
    simp only [deriveEvidenceAllocationPlan, bind_ok]
    exact ⟨_, _, rfl, resolved, hresolved, plan, hplan, rfl⟩
  obtain ⟨plan, hplan⟩ := hderived
  exact ⟨plan, hplan, allocation_conserves hplan⟩

end BalanceFrame.Evidence
