import BalanceFrame.Evidence.Resolve
import BalanceFrame.Evidence.CaptureOrder
import BalanceFrame.Library.Transport

/-!
# The totals of an allocation

`compute` keeps the cells of an allocation summed by line, by target, by receipt and target, and by
target and category. `TotalsOf` says that a map holds such sums; `MatrixOf` is what `addCell` keeps
of the four. `exists_distribution`: where `checkTenders` passes, the card and bank tenders of a
receipt can be distributed over the targets so that they cover its cells.
-/

namespace BalanceFrame.Evidence

open Library List Bool
open Liquidity (I64 InI64 Money Checked)

/-- The minor units of a cell. -/
def EvidenceAllocationCell.units (c : EvidenceAllocationCell) : Int := c.amount.minorUnits

/-- The line of a cell. -/
def EvidenceAllocationCell.line (c : EvidenceAllocationCell) : Pair := toLex (c.receiptId, c.lineId)

/-- The receipt and the target of a cell. -/
def EvidenceAllocationCell.pair (c : EvidenceAllocationCell) : Pair :=
  toLex (c.receiptId, c.targetObservationId)

/-- The target and the category of a cell. -/
def splitKey (categories : SortedMap Pair String) (c : EvidenceAllocationCell) : Pair :=
  toLex (c.targetObservationId, (categories.get? c.line).getD "")

/-! ## Totals by key -/

/-- The map holds the total of every key that was met. -/
structure TotalsOf {α κ : Type} [LinearOrder κ] (key : α → κ) (units : α → Int) (done : List α)
    (m : SortedMap κ I64) : Prop where
  met : ∀ k, (m.get? k).isSome ↔ ∃ a ∈ done, key a = k
  total : ∀ k (p : α → Bool), (∀ a ∈ done, p a = true ↔ key a = k) →
    (((m.get? k).getD 0 : I64) : Int) = totalWhere p units done

section

variable {α κ : Type} [LinearOrder κ] {key : α → κ} {units : α → Int}

theorem totalsOf_nil : TotalsOf key units [] SortedMap.empty where
  met k := by simp
  total k p _ := rfl

theorem TotalsOf.add {done : List α} {m m' : SortedMap κ I64} (h : TotalsOf key units done m)
    {a : α} {amount : I64} (hunits : (amount : Int) = units a)
    (hadd : addTotal m (key a) amount = .ok m') : TotalsOf key units (done ++ [a]) m' := by
  obtain ⟨n, hn, hadd⟩ := bind_ok.mp hadd
  rw [addAmount_eq_ok] at hn
  cases hadd
  constructor
  · intro k
    rw [SortedMap.get?_insert]
    by_cases heq : key a = k
    · rw [if_pos heq]
      exact ⟨fun _ => ⟨a, mem_append_right _ mem_cons_self, heq⟩, fun _ => rfl⟩
    · rw [if_neg heq, h.met k]
      constructor
      · rintro ⟨b, hb, hk⟩
        exact ⟨b, mem_append_left _ hb, hk⟩
      · rintro ⟨b, hb, hk⟩
        rcases mem_append.mp hb with hb | hb
        · exact ⟨b, hb, hk⟩
        · exact absurd ((mem_singleton.mp hb) ▸ hk) heq
  · intro k p hp
    have hdone : ∀ b ∈ done, p b = true ↔ key b = k := fun b hb =>
      hp b (mem_append_left _ hb)
    have ha := hp a (mem_append_right _ mem_cons_self)
    rw [totalWhere_snoc, SortedMap.get?_insert]
    by_cases heq : key a = k
    · rw [if_pos heq, if_pos (ha.mpr heq), Option.getD_some, hn, hunits, heq, h.total k p hdone]
    · rw [if_neg heq, if_neg fun hpa => heq (ha.mp hpa), add_zero]
      exact h.total k p hdone

theorem TotalsOf.get? {done : List α} {m : SortedMap κ I64} (h : TotalsOf key units done m) {k : κ}
    {n : I64} (hn : m.get? k = some n) {p : α → Bool}
    (hp : ∀ a ∈ done, p a = true ↔ key a = k) :
    (n : Int) = totalWhere p units done := by
  rw [← h.total k p hp, hn, Option.getD_some]

end

/-! ## The matrix -/

/-- The four sums over the cells, and what each cell refers to. -/
structure MatrixOf (sel : Selection) (categories : SortedMap Pair String)
    (done : List EvidenceAllocationCell) (t : Matrix) : Prop where
  rows : TotalsOf (·.line) (·.units) done t.rows
  columns : TotalsOf (·.targetObservationId) (·.units) done t.columns
  pairs : TotalsOf (·.pair) (·.units) done t.pairs
  splits : TotalsOf (splitKey categories) (·.units) done t.splits
  positive : ∀ c ∈ done, 0 < c.units
  lines : ∀ c ∈ done, ∃ line, sel.lines.get? c.line = some line ∧
    c.amount.currency = line.net.currency
  targets : ∀ c ∈ done, ∃ target ∈ sel.targets, target.id = c.targetObservationId ∧
    c.amount.currency = target.amount.currency

theorem matrixOf_nil (sel : Selection) (categories : SortedMap Pair String) :
    MatrixOf sel categories []
      ⟨SortedMap.empty, SortedMap.empty, SortedMap.empty, SortedMap.empty, []⟩ where
  rows := totalsOf_nil
  columns := totalsOf_nil
  pairs := totalsOf_nil
  splits := totalsOf_nil
  positive _ h := absurd h not_mem_nil
  lines _ h := absurd h not_mem_nil
  targets _ h := absurd h not_mem_nil

variable {sel : Selection}

theorem MatrixOf.add {categories : SortedMap Pair String} {done : List EvidenceAllocationCell}
    {t t' : Matrix} {cell : EvidenceAllocationCell} (h : MatrixOf sel categories done t)
    (hadd : addCell sel categories t cell = .ok t') :
    MatrixOf sel categories (done ++ [cell]) t' := by
  simp only [addCell, bind_ok, orStop_ok, require_eq_ok, and_eq_true, beq_iff_eq,
    decide_eq_true_iff, pure_ok, Except.ok.injEq] at hadd
  obtain ⟨line, hline, target, htarget, -, ⟨⟨⟨-, hpos⟩, hcurrency⟩, htargetCurrency⟩, rows, hrows,
    columns, hcolumns, pairs, hpairs, splits, hsplits, rfl⟩ := hadd
  have hsnoc : ∀ {P : EvidenceAllocationCell → Prop}, (∀ c ∈ done, P c) → P cell →
      ∀ c ∈ done ++ [cell], P c := by
    intro P hdone hcell c hc
    rcases mem_append.mp hc with hc | hc
    · exact hdone c hc
    · exact mem_singleton.mp hc ▸ hcell
  exact
    { rows := h.rows.add rfl hrows
      columns := h.columns.add rfl hcolumns
      pairs := h.pairs.add rfl hpairs
      splits := h.splits.add rfl hsplits
      positive := hsnoc h.positive hpos
      lines := hsnoc h.lines ⟨line, hline, hcurrency⟩
      targets := hsnoc h.targets ⟨target, mem_of_find?_eq_some htarget,
        by simpa using find?_some htarget, htargetCurrency⟩ }

/-- The category of the line of a cell. -/
def lineCategory (choices : List EvidenceSettlementLineCategory) (c : EvidenceAllocationCell) :
    Option String :=
  (choices.find? fun choice =>
    choice.receiptId == c.receiptId && choice.lineId == c.lineId).map (·.categoryId)

theorem categories_of_fold {choices : List EvidenceSettlementLineCategory}
    {categories : SortedMap Pair String}
    (h : choices.foldlM chooseCategory SortedMap.empty = .ok categories) (r l : String) :
    categories.get? (toLex (r, l)) =
      (choices.find? fun choice => choice.receiptId == r && choice.lineId == l).map
        (·.categoryId) := by
  refine foldlM_run (P := fun done (categories : SortedMap Pair String) => ∀ r l,
    categories.get? (toLex (r, l)) = (done.find? fun choice : EvidenceSettlementLineCategory =>
      choice.receiptId == r && choice.lineId == l).map (·.categoryId))
    (fun done m m' choice hdone hstep r l => ?_) (fun _ _ => rfl) h r l
  simp only [chooseCategory, bind_ok, require_eq_ok, and_eq_true, Option.isNone_iff_eq_none,
    pure_ok, Except.ok.injEq] at hstep
  obtain ⟨-, ⟨-, hnone⟩, rfl⟩ := hstep
  rw [SortedMap.get?_insert, find?_append]
  by_cases heq : choice.receiptId = r ∧ choice.lineId = l
  · obtain ⟨rfl, rfl⟩ := heq
    rw [hdone, Option.map_eq_none_iff] at hnone
    rw [if_pos rfl, hnone]
    simp
  · have hkey : toLex (choice.receiptId, choice.lineId) ≠ toLex (r, l) := fun hk =>
      heq (Prod.mk.inj (toLex.injective hk))
    rw [if_neg hkey, hdone]
    have hlast : List.find? (fun choice : EvidenceSettlementLineCategory =>
        choice.receiptId == r && choice.lineId == l) [choice] = none := by
      rw [find?_singleton, if_neg]
      simpa using heq
    rw [hlast, Option.or_none]

theorem matrixOf_spec {resolved : TransactionEvidenceResult} {review : EvidenceAllocationReview}
    {t : Matrix} (h : matrixOf resolved sel review = .ok t) :
    ∃ categories, MatrixOf sel categories review.cells t ∧
      (∀ c ∈ review.cells, (lineCategory review.lineCategories c).isSome ∧
        categories.get? c.line = lineCategory review.lineCategories c) ∧
      ∀ receipt ∈ sel.receipts, checkTenders sel t.pairs receipt = .ok () := by
  simp only [matrixOf, bind_ok, require_eq_ok, and_eq_true, all_eq_true, pure_ok,
    Except.ok.injEq] at h
  obtain ⟨categories, hcategories, -, ⟨-, hall⟩, t', ht, graph, -, -, -, ⟨⟩, htenders,
    rfl⟩ := h
  have hmatrix : MatrixOf sel categories review.cells t' :=
    foldlM_run (fun _ _ _ _ hdone hstep => hdone.add hstep) (matrixOf_nil sel categories) ht
  refine ⟨categories, hmatrix, fun c hc => ?_, forM_eq_ok.mp htenders⟩
  have hsame : categories.get? c.line = lineCategory review.lineCategories c :=
    categories_of_fold hcategories c.receiptId c.lineId
  obtain ⟨line, hline, -⟩ := hmatrix.lines c hc
  exact ⟨hsame ▸ hall c.line (SortedMap.mem_keys_iff.mpr ⟨line, hline⟩), hsame⟩

/-! ## Tenders -/

/-- A tender that pays an allocation. -/
def isBankTender (tender : ReceiptTender) : Bool := ["card", "bank"].contains tender.kind

/-- The minor units of a tender. -/
def ReceiptTender.units (tender : ReceiptTender) : Int := tender.amount.minorUnits

/-- The tenders are summed by the observation they are bound to. -/
structure TenderedOf (done : List ReceiptTender) (t : Tendered) : Prop where
  known : ∀ k, (((t.known.get? k).getD 0 : I64) : Int) =
    boundTo (·.observationId) (·.units) (done.filter isBankTender) (some k)
  unknown : (t.unknown : Int) =
    boundTo (·.observationId) (·.units) (done.filter isBankTender) none

theorem TenderedOf.add {done : List ReceiptTender} {t t' : Tendered} {tender : ReceiptTender}
    (h : TenderedOf done t) (hadd : addTender t tender = .ok t') :
    TenderedOf (done ++ [tender]) t' := by
  unfold addTender at hadd
  cases hbank : isBankTender tender with
  | false =>
    have hfilter : (done ++ [tender]).filter isBankTender = done.filter isBankTender := by
      rw [filter_append, filter_cons_of_neg (by simp [hbank]), filter_nil,
        append_nil]
    unfold isBankTender at hbank
    rw [if_pos (by rw [hbank]; rfl)] at hadd
    cases hadd
    exact ⟨hfilter ▸ h.known, hfilter ▸ h.unknown⟩
  | true =>
    have hfilter : (done ++ [tender]).filter isBankTender =
        done.filter isBankTender ++ [tender] := by
      rw [filter_append, filter_cons_of_pos hbank, filter_nil]
    unfold isBankTender at hbank
    rw [if_neg (by rw [hbank]; decide)] at hadd
    have hsnoc : ∀ k : Option String,
        boundTo (·.observationId) (·.units) ((done ++ [tender]).filter isBankTender) k =
          boundTo (·.observationId) (·.units) (done.filter isBankTender) k +
            if tender.observationId = k then tender.units else 0 := by
      intro k
      rw [hfilter, boundTo, totalWhere_snoc]
      simp only [decide_eq_true_iff]
      rfl
    split at hadd
    · rename_i target hbound
      obtain ⟨known, hknown, hadd⟩ := bind_ok.mp hadd
      obtain ⟨n, hn, hknown⟩ := bind_ok.mp hknown
      rw [addAmount_eq_ok] at hn
      cases hknown
      cases hadd
      refine ⟨fun k => ?_, ?_⟩
      · rw [hsnoc, hbound, SortedMap.get?_insert]
        by_cases hk : target = k
        · rw [if_pos hk, if_pos (congrArg some hk), Option.getD_some, hn, hk, h.known k]
          rfl
        · rw [if_neg hk, if_neg fun heq => hk (Option.some.inj heq), add_zero]
          exact h.known k
      · rw [hsnoc, hbound, if_neg (by simp), add_zero]
        exact h.unknown
    · rename_i hbound
      obtain ⟨n, hn, hadd⟩ := bind_ok.mp hadd
      rw [addAmount_eq_ok] at hn
      cases hadd
      refine ⟨fun k => ?_, ?_⟩
      · rw [hsnoc, hbound, if_neg (by simp), add_zero]
        exact h.known k
      · rw [hsnoc, hbound, if_pos rfl, ← h.unknown]
        exact hn

theorem needs_of_checkTenders {pairs : SortedMap Pair I64} {receipt : ReceiptEvidence}
    (h : checkTenders sel pairs receipt = .ok ()) :
    (sel.targets.map fun target => max 0 ((((pairs.get? (toLex (receipt.id, target.id))).getD 0 :
      I64) : Int) - boundTo (·.observationId) (·.units) (receipt.tenders.filter isBankTender)
        (some target.id))).sum ≤
      boundTo (·.observationId) (·.units) (receipt.tenders.filter isBankTender) none := by
  simp only [checkTenders, bind_ok, require_eq_ok, decide_eq_true_iff] at h
  obtain ⟨t, ht, needed, hneeded, hle⟩ := h
  have htendered : TenderedOf receipt.tenders t :=
    foldlM_run (fun _ _ _ _ hdone hstep => hdone.add hstep) ⟨fun _ => rfl, rfl⟩ ht
  have hsum : (needed : Int) = (sel.targets.map fun target =>
      max 0 ((((pairs.get? (toLex (receipt.id, target.id))).getD 0 : I64) : Int) -
        (((t.known.get? target.id).getD 0 : I64) : Int))).sum := by
    refine foldlM_run (P := fun done (needed : I64) => (needed : Int) =
      (done.map fun target : EvidenceObservation =>
        max 0 ((((pairs.get? (toLex (receipt.id, target.id))).getD 0 : I64) : Int) -
          (((t.known.get? target.id).getD 0 : I64) : Int))).sum)
      (fun done n n' target hdone hstep => ?_) rfl hneeded
    simp only [addNeed, bind_ok, subAmount_eq_ok, addAmount_eq_ok] at hstep
    obtain ⟨rest, hrest, hn'⟩ := hstep
    rw [map_append, sum_append, map_singleton, sum_singleton, ← hdone, hn',
      I64.coe_clamp, hrest]
  simp only [htendered.known] at hsum
  rw [← hsum, ← htendered.unknown]
  exact hle

/-- **Tenders cover the cells**: the card and bank tenders of a receipt can be distributed over the
targets, those bound to an observation only to it, so that each target gets its cells. -/
theorem exists_distribution {cells : List EvidenceAllocationCell} {pairs : SortedMap Pair I64}
    (hpairs : TotalsOf (·.pair) (·.units) cells pairs) (hpos : ∀ c ∈ cells, 0 < c.units)
    (hnd : (sel.targets.map fun o => o.id).Nodup) {receipt : ReceiptEvidence}
    (htenders : (receipt.tenders.map (·.id)).Nodup)
    (hamounts : ∀ tender ∈ receipt.tenders, 0 ≤ tender.units)
    (h : checkTenders sel pairs receipt = .ok ()) :
    ∃ d, Covers (·.observationId) (·.units) (fun target => totalWhere (fun c =>
        c.receiptId == receipt.id && c.targetObservationId == target) (·.units) cells)
      (receipt.tenders.filter isBankTender) (sel.targets.map fun o => o.id) d := by
  have hdemand : ∀ target : String, (((pairs.get? (toLex (receipt.id, target))).getD 0 : I64) :
      Int) = totalWhere (fun c => c.receiptId == receipt.id && c.targetObservationId == target)
        (·.units) cells := fun target => hpairs.total _ _ fun c _ => by
    simp [EvidenceAllocationCell.pair]
  refine exists_covers ((List.Nodup.of_map _ htenders).filter _) hnd
    (fun tender ht => hamounts tender (mem_of_mem_filter ht))
    (fun k _ => totalWhere_nonneg fun c hc => (hpos c hc).le) ?_
  have hneeds := needs_of_checkTenders h
  simp only [hdemand] at hneeds
  rw [map_map]
  exact hneeds

end BalanceFrame.Evidence
