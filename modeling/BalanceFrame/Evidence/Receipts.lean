import BalanceFrame.Evidence.Check
import BalanceFrame.Library.SortedMap
import BalanceFrame.Library.Sorting

/-!
# Receipts

Model of `resolve_receipts` (`crates/core-protocol/src/transaction_evidence.rs`) and of
`allocate_evidence_amount` (`crates/financial-core/src/evidence.rs`). What active receipts claim of
an observation, of a tender's observation and of a returned line is summed first (`Claimed`), so a
receipt is checked against all of them.
-/

namespace BalanceFrame.Evidence

open Library
open Liquidity (I64 InI64 Money Checked)

/-! ## Allocation by weights -/

/-- `allocate_evidence_amount`: shares by weight, the units left over to the largest remainders.
A product of two 64-bit numbers fits 128 bits. -/
def allocateEvidenceAmount (amount : Money) (weights : List Nat) : Checked (List Money) := do
  reject (decide ((amount.minorUnits : Int) < 0)) "negative_amount"
  let total := weights.sum
  if total = 0 then
    reject (decide ((amount.minorUnits : Int) ≠ 0)) "division_by_zero"
    pure (weights.map fun _ => ⟨0, amount.currency⟩)
  else
    let units := (amount.minorUnits : Int).toNat
    let shares := weights.map fun w => units * w / total
    let remainders := (weights.map fun w => units * w % total).zipIdx
    let raised := ((sortOn (fun p => -(p.1 : Int)) remainders).take (units - shares.sum)).map (·.2)
    pure (shares.zipIdx.map fun p =>
      ⟨I64.wrap (if raised.contains p.2 then p.1 + 1 else p.1), amount.currency⟩)

/-! ## What receipts claim -/

/-- No newer receipt takes this one's place. -/
def activeReceipt (receipts : List ReceiptEvidence) (receipt : ReceiptEvidence) : Bool :=
  !receipts.any fun newer => newer.supersedesId == some receipt.id

/-- Add to the total of a key. -/
def addTo (m : SortedMap String I64) (key : String) (amount : I64) :
    Checked (SortedMap String I64) := do
  pure (m.insert key (← addAmount ((m.get? key).getD 0) amount))

/-- The sums over active receipts, by observation and by returned line. -/
structure Claimed where
  receipts : SortedMap String I64
  returned : SortedMap String Nat
  refunded : SortedMap String I64
  tenders : SortedMap String I64

/-- The returned quantity and amount of a line. -/
def claimLine (c : Claimed) (line : ReceiptLine) : Checked Claimed :=
  match line.returnOfLineId with
  | none => pure c
  | some prior => do
    let quantity := (c.returned.get? prior).getD 0 + line.quantityMicros
    reject (decide (18446744073709551616 ≤ quantity)) "amount_overflow"
    let refunded ← addTo c.refunded prior line.net.minorUnits
    pure { c with returned := c.returned.insert prior quantity, refunded := refunded }

def claimTender (c : Claimed) (tender : ReceiptTender) : Checked Claimed :=
  match tender.observationId with
  | none => pure c
  | some source => do
    pure { c with tenders := ← addTo c.tenders source tender.amount.minorUnits }

def claimReceipt (c : Claimed) (receipt : ReceiptEvidence) : Checked Claimed := do
  let totals ← addTo c.receipts receipt.observationId receipt.total.minorUnits
  let c ← receipt.lines.foldlM claimLine { c with receipts := totals }
  receipt.tenders.foldlM claimTender c

/-- What active receipts claim. -/
def claimed (receipts : List ReceiptEvidence) : Checked Claimed :=
  (receipts.filter (activeReceipt receipts)).foldlM claimReceipt
    ⟨SortedMap.empty, SortedMap.empty, SortedMap.empty, SortedMap.empty⟩

/-! ## Lines -/

/-- A line and the receipt it is on. -/
abbrev Owned := ReceiptLine × ReceiptEvidence

/-- `lines` and `line_owners`. -/
def indexLine (receipt : ReceiptEvidence) (lines : SortedMap String Owned) (line : ReceiptLine) :
    Checked (SortedMap String Owned) := do
  require (isId line.id && (lines.get? line.id).isNone) "duplicate_receipt_line"
  pure (lines.insert line.id (line, receipt))

def indexLines (receipts : List ReceiptEvidence) : Checked (SortedMap String Owned) :=
  receipts.foldlM (fun lines receipt => receipt.lines.foldlM (indexLine receipt) lines)
    SortedMap.empty

/-- What the lines of a receipt say so far. -/
structure LineSums where
  valid : Bool
  weights : List Nat
  discounts : I64
  taxes : I64
  nets : I64

section

variable (obs : List Observed) (receipts : List ReceiptEvidence) (claims : Claimed)
  (lines : SortedMap String Owned)

/-- `r.observations.iter().find(|o| o.id == id)`. -/
def findObserved (id : String) : Option Observed := obs.find? (·.id == id)

/-- The source of a purchase that may be returned. -/
def isPurchaseSource (source : Observed) : Bool :=
  source.status == "completed" && source.direction == "outflow" &&
    ["purchase", "p2p_payment"].contains source.eventType &&
    !(["order", "spend_session_item", "wallet_request"].contains source.kind)

/-- A line that returns another: the original stands, and is not returned beyond itself. -/
def checkReturn (receipt : ReceiptEvidence) (line : ReceiptLine) (prior : String) (valid : Bool) :
    Checked Bool := do
  let (original, originalReceipt) ← orStop (lines.get? prior) "return_line_missing"
  require (prior != line.id && original.returnOfLineId.isNone &&
    original.unitGross == line.unitGross) "return_line_identity"
  let valid ←
    if activeReceipt receipts receipt then do
      let source ← orStop (findObserved obs originalReceipt.observationId) "return_purchase_source"
      require (activeReceipt receipts originalReceipt && isPurchaseSource source)
        "return_purchase_source"
      pure (valid && decide ((claims.returned.get? prior).getD 0 ≤ original.quantityMicros) &&
        decide ((((claims.refunded.get? prior).getD 0 : I64) : Int) ≤ original.net.minorUnits))
    else pure valid
  require (obs.any fun o => o.id == receipt.observationId && o.direction == "inflow" &&
    o.eventType == "refund") "return_observation"
  pure valid

/-- The amounts of a line fit each other. -/
def lineAddsUp (line : ReceiptLine) : Bool :=
  let product := (line.unitGross.minorUnits : Int) * line.quantityMicros
  product % 1000000 == 0 && product / 1000000 == line.gross.minorUnits &&
    ((I64.checkedSub line.gross.minorUnits line.discount.minorUnits).bind
      (I64.checkedAdd · line.tax.minorUnits)) == some line.net.minorUnits &&
    decide ((line.discount.minorUnits : Int) ≤ line.gross.minorUnits)

def checkLine (receipt : ReceiptEvidence) (t : LineSums) (line : ReceiptLine) :
    Checked LineSums := do
  require (decide (0 < line.quantityMicros) && decide (line.evidenceStrength ≤ 100) &&
    decide (byteLength line.rawDescription ≤ 4096) &&
    decide (byteLength line.normalizedDescription ≤ 4096)) "receipt_line"
  require ([line.unitGross, line.gross, line.discount, line.tax, line.net].all fun amount =>
    isMoney amount && amount.currency == receipt.total.currency) "receipt_line_currency"
  let discounts ← addAmount t.discounts line.discount.minorUnits
  let taxes ← addAmount t.taxes line.tax.minorUnits
  let nets ← addAmount t.nets line.net.minorUnits
  let valid := t.valid && lineAddsUp line
  let valid ←
    match line.returnOfLineId with
    | none => pure valid
    | some prior => checkReturn obs receipts claims lines receipt line prior valid
  pure
    { valid := valid
      weights := t.weights ++ [(line.gross.minorUnits : Int).toNat]
      discounts := discounts
      taxes := taxes
      nets := nets }

/-! ## Tenders -/

/-- The tender ids so far, and whether the receipt still adds up. -/
structure TenderSums where
  valid : Bool
  ids : List String

/-- A tender's observation covers it. -/
def tenderFits (receipt : ReceiptEvidence) (observation source : Observed)
    (tender : ReceiptTender) : Bool :=
  source.amount.currency == tender.amount.currency && source.direction == observation.direction &&
    active source && decide (0 < (tender.amount.minorUnits : Int)) &&
    (if tender.partialTender then
      decide ((tender.amount.minorUnits : Int) ≤ source.amount.minorUnits)
    else source.amount == tender.amount) &&
    (!activeReceipt receipts receipt || noneOr (fun total : I64 =>
      decide ((total : Int) ≤ source.amount.minorUnits)) (claims.tenders.get? source.id))

def checkTender (receipt : ReceiptEvidence) (observation : Observed) (t : TenderSums)
    (tender : ReceiptTender) : Checked TenderSums := do
  require (isId tender.id && !t.ids.contains tender.id &&
    ["card", "bank", "gift_card", "reward", "wallet", "cash"].contains tender.kind) "tender"
  let ids := tender.id :: t.ids
  match tender.observationId with
  | none => pure ⟨t.valid, ids⟩
  | some id => do
    let source ← orStop (findObserved obs id) "tender_observation"
    pure ⟨t.valid && tenderFits receipts claims receipt observation source tender, ids⟩

/-! ## Receipts -/

/-- An active receipt's observation is an open purchase, or a refund, that covers what is claimed. -/
def receiptStands (receipt : ReceiptEvidence) (observation : Observed) : Bool :=
  !activeReceipt receipts receipt ||
    (active observation &&
      observation.direction == (if observation.eventType == "refund" then "inflow" else "outflow") &&
      noneOr (fun total : I64 => decide ((total : Int) ≤ observation.amount.minorUnits))
        (claims.receipts.get? receipt.observationId))

/-- The share of each line, as stated when the lines add up. -/
def shares (receipt : ReceiptEvidence) (stated : ReceiptLine → Money) (total : Money)
    (statedSum : I64) (weights : List Nat) : Checked (List Money) :=
  if statedSum = total.minorUnits then pure (receipt.lines.map stated)
  else (allocateEvidenceAmount total weights).mapError fun _ => "receipt_allocation"

/-- The checks that do not depend on the lines. -/
def checkReceiptHead (ids : List String) (receipt : ReceiptEvidence) : Checked Observed := do
  require (isId receipt.id && !ids.contains receipt.id && decide (0 < receipt.version) &&
    obs.any (·.id == receipt.observationId)) "receipt"
  require (isMoney receipt.total && isMoney receipt.discount && isMoney receipt.tax &&
    receipt.discount.currency == receipt.total.currency &&
    receipt.tax.currency == receipt.total.currency) "receipt_currency"
  require (noneOr (fun prior => receipts.any fun p =>
    p.id == prior && decide (p.version < receipt.version)) receipt.supersedesId) "receipt_version"
  orStop (findObserved obs receipt.observationId) "receipt"

/-- The receipts so far, with their blockers and ids. -/
structure ReceiptsOut where
  receipts : List ReceiptEvidenceResolution
  blockers : List EvidenceBlocker
  ids : List String

def resolveReceipt (out : ReceiptsOut) (receipt : ReceiptEvidence) : Checked ReceiptsOut := do
  let observation ← checkReceiptHead obs receipts out.ids receipt
  let t ← receipt.lines.foldlM (checkLine obs receipts claims lines receipt)
    ⟨receiptStands receipts claims receipt observation, [], 0, 0, 0⟩
  let tender ← receipt.tenders.foldlM (checkTender obs receipts claims receipt observation)
    ⟨t.valid && t.discounts == receipt.discount.minorUnits && t.taxes == receipt.tax.minorUnits &&
      t.nets == receipt.total.minorUnits && !receipt.lines.isEmpty, []⟩
  let tendered ← sum (receipt.tenders.map (·.amount)) receipt.total.currency
  let valid := tender.valid && tendered == receipt.total.minorUnits &&
    observation.amount == receipt.total
  let allocatedDiscount ← shares receipt (·.discount) receipt.discount t.discounts t.weights
  let allocatedTax ← shares receipt (·.tax) receipt.tax t.taxes t.weights
  pure
    { receipts := out.receipts ++ [
        { receiptId := receipt.id
          valid := valid
          allocatedDiscount := allocatedDiscount
          allocatedTax := allocatedTax
          reasonCodes := if valid then [] else ["receipt_total_mismatch"] }]
      blockers := out.blockers ++ if valid then [] else
        [⟨"receipt_total_mismatch", receipt.observationId, [observation.provenance.documentId]⟩]
      ids := receipt.id :: out.ids }

/-! ## Returns of invalid purchases -/

/-- An active receipt returns a line of a receipt that is not valid. -/
def returnsInvalid (resolutions : List ReceiptEvidenceResolution) (receipt : ReceiptEvidence) :
    Bool :=
  activeReceipt receipts receipt && receipt.lines.any fun line =>
    match line.returnOfLineId with
    | none => false
    | some prior => !resolutions.any fun resolution =>
        resolution.valid && (lines.get? prior).any fun owned => owned.2.id == resolution.receiptId

/-- `invalid_returns.contains(receipt_id)`, for a valid resolution. -/
def isInvalidReturn (resolutions : List ReceiptEvidenceResolution)
    (resolution : ReceiptEvidenceResolution) : Bool :=
  resolution.valid && receipts.any fun receipt =>
    receipt.id == resolution.receiptId && returnsInvalid receipts lines resolutions receipt

/-- A return of an invalid purchase is not valid. -/
def withdraw (resolutions : List ReceiptEvidenceResolution)
    (resolution : ReceiptEvidenceResolution) : ReceiptEvidenceResolution :=
  if isInvalidReturn receipts lines resolutions resolution then
    { resolution with
      valid := false
      reasonCodes := resolution.reasonCodes ++ ["return_purchase_invalid"] }
  else resolution

/-- The blocker of a withdrawn return. -/
def withdrawnBlocker (resolutions : List ReceiptEvidenceResolution)
    (resolution : ReceiptEvidenceResolution) : Option EvidenceBlocker := do
  if isInvalidReturn receipts lines resolutions resolution then
    let source ← receipts.find? (·.id == resolution.receiptId)
    let observation ← findObserved obs source.observationId
    some ⟨"return_purchase_invalid", source.observationId, [observation.provenance.documentId]⟩
  else none

end

def resolveReceipts (obs : List Observed) (receipts : List ReceiptEvidence) :
    Checked (List ReceiptEvidenceResolution × List EvidenceBlocker) := do
  require (receipts.all fun receipt =>
    decide (receipt.lines.length ≤ 1000) && decide (receipt.tenders.length ≤ 100)) "receipt_size"
  let claims ← claimed receipts
  let lines ← indexLines receipts
  let out ← receipts.foldlM (resolveReceipt obs receipts claims lines) ⟨[], [], []⟩
  pure (out.receipts.map (withdraw receipts lines out.receipts),
    out.blockers ++ out.receipts.filterMap (withdrawnBlocker obs receipts lines out.receipts))

end BalanceFrame.Evidence
