import BalanceFrame.Evidence.Check
import BalanceFrame.Evidence.Record
import BalanceFrame.Liquidity.Plan

/-!
# Serialized evidence

`serde_json` writes a struct's fields in declaration order and a `serde_json::Value` by key. A
`Json` keeps the declaration order: `written` is the text of a struct, `Json.toText` that of a
value. The entries below follow the `record!` declarations of the source, with the fields that
`skip_serializing_if` leaves out when they are empty.
-/

namespace BalanceFrame.Evidence

open Library
open Liquidity (Json Money utf8)
open Liquidity.Json (object string array option list strings nat quote enclose)

/-! ## Texts of structs -/

mutual

/-- `serde_json::to_vec` of a struct, as characters. -/
def written : Json → List Char
  | .null => "null".toList
  | .bool b => (if b then "true" else "false").toList
  | .number n => (toString n).toList
  | .string s => quote s
  | .array values => enclose '[' ']' (writtenValues values)
  | .object entries => enclose '\x7b' '\x7d' (writtenEntries entries)

def writtenValues : List Json → List (List Char)
  | [] => []
  | v :: rest => written v :: writtenValues rest

def writtenEntries : List (String × Json) → List (List Char)
  | [] => []
  | (key, v) :: rest => (quote key ++ ':' :: written v) :: writtenEntries rest

end

/-- The text of a struct. -/
def writtenText (v : Json) : String := String.ofList (written v)

/-- `format!("{:x}", Sha256::digest(serde_json::to_vec(v)))` of a struct. -/
def digest (v : Json) : String := sha256Hex (utf8 (writtenText v))

/-- `digest` of `wallet_statement.rs`, and of a `json!` value. -/
def digestValue (v : Json) : String := sha256Hex (utf8 v.toText)

/-- A field written only when present. -/
def present {α : Type} (key : String) (f : α → Json) (x : Option α) : List (String × Json) :=
  x.toList.map fun a => (key, f a)

/-- A flag written only when set. -/
def flagged (key : String) (b : Bool) : List (String × Json) := if b then [(key, .bool true)] else []

/-- A list written only when not empty. -/
def nonemptyList {α : Type} (key : String) (f : α → Json) (l : List α) : List (String × Json) :=
  if l.isEmpty then [] else [(key, list f l)]

/-! ## Observations -/

def EvidenceProvenance.json (p : EvidenceProvenance) : Json :=
  object [("documentId", string p.documentId), ("contentHash", string p.contentHash),
    ("parserVersion", string p.parserVersion), ("sourceTimestamp", string p.sourceTimestamp),
    ("receivedAt", string p.receivedAt)]

def ManualTransactionSplit.json (s : ManualTransactionSplit) : Json :=
  object [("categoryId", string s.categoryId), ("amount", s.amount.json)]

def EconomicEventLedgerEffect.json (e : EconomicEventLedgerEffect) : Json :=
  object [("accountId", string e.accountId), ("amount", e.amount.json), ("date", string e.date),
    ("categoryId", option string e.categoryId), ("payeeName", option string e.payeeName),
    ("notes", option string e.notes), ("splits", list ManualTransactionSplit.json e.splits)]

/-- The fields of an observation; `reviewed` and `effect` are those that `Observed` leaves out. -/
def Observed.entries (o : Observed) (reviewed effect : List (String × Json)) :
    List (String × Json) :=
  present "ledgerAccountId" string o.ledgerAccountId ++ reviewed ++
    [("id", string o.id), ("kind", string o.kind), ("sourceId", string o.sourceId),
    ("externalEventId", option string o.externalEventId), ("date", string o.date),
    ("amount", o.amount.json), ("direction", string o.direction), ("status", string o.status),
    ("eventType", string o.eventType), ("counterparty", option string o.counterparty),
    ("fundingInstrumentId", option string o.fundingInstrumentId),
    ("walletId", option string o.walletId),
    ("ledgerTransactionId", option string o.ledgerTransactionId)] ++ effect ++
    [("reliability", nat o.reliability), ("provenance", o.provenance.json)]

def EvidenceObservation.json (o : EvidenceObservation) : Json :=
  object (o.toObserved.entries (flagged "reviewedLedgerEffect" o.reviewedLedgerEffect)
    [("ledgerEffect", option EconomicEventLedgerEffect.json o.ledgerEffect)])

def EvidenceRelationship.json (r : EvidenceRelationship) : Json :=
  object [("id", string r.id), ("fromId", string r.fromId), ("toId", string r.toId),
    ("kind", string r.kind), ("state", string r.state),
    ("allocatedAmount", option Money.json r.allocatedAmount), ("partial", .bool r.partialLink),
    ("score", nat r.score), ("reasonCodes", strings r.reasonCodes),
    ("evidenceIds", strings r.evidenceIds)]

/-! ## Wallets and receipts -/

def WalletEvidence.json (w : WalletEvidence) : Json :=
  object [("walletId", string w.walletId), ("currency", string w.currency),
    ("openingBalance", option Money.json w.openingBalance),
    ("closingBalance", option Money.json w.closingBalance),
    ("completeActivity", .bool w.completeActivity),
    ("materializedAccountId", option string w.materializedAccountId),
    ("requiresStoredValue", .bool w.requiresStoredValue)]

def ReceiptLine.json (l : ReceiptLine) : Json :=
  object [("id", string l.id), ("rawDescription", string l.rawDescription),
    ("normalizedDescription", string l.normalizedDescription), ("sku", option string l.sku),
    ("department", option string l.department), ("productFamily", option string l.productFamily),
    ("quantityMicros", nat l.quantityMicros), ("unitGross", l.unitGross.json),
    ("gross", l.gross.json), ("discount", l.discount.json), ("tax", l.tax.json),
    ("net", l.net.json), ("categoryId", option string l.categoryId),
    ("memberId", option string l.memberId), ("evidenceStrength", nat l.evidenceStrength),
    ("reasonCodes", strings l.reasonCodes), ("returnOfLineId", option string l.returnOfLineId)]

def ReceiptTender.json (t : ReceiptTender) : Json :=
  object (flagged "partial" t.partialTender ++ [("id", string t.id), ("kind", string t.kind),
    ("amount", t.amount.json), ("observationId", option string t.observationId)])

def ReceiptEvidence.json (r : ReceiptEvidence) : Json :=
  object [("id", string r.id), ("observationId", string r.observationId),
    ("version", nat r.version), ("supersedesId", option string r.supersedesId),
    ("fulfillmentGroupId", option string r.fulfillmentGroupId), ("total", r.total.json),
    ("discount", r.discount.json), ("tax", r.tax.json), ("lines", list ReceiptLine.json r.lines),
    ("tenders", list ReceiptTender.json r.tenders)]

def WalletStatementSource.json (s : WalletStatementSource) : Json :=
  object [("documentId", string s.documentId), ("contentHash", string s.contentHash),
    ("parserVersion", string s.parserVersion)]

def WalletStatementActivity.json (a : WalletStatementActivity) : Json :=
  object [("observationId", string a.observationId), ("documentId", string a.documentId),
    ("contentHash", string a.contentHash), ("parserVersion", string a.parserVersion),
    ("normalizedFieldsHash", string a.normalizedFieldsHash)]

def WalletStatementProof.json (p : WalletStatementProof) : Json :=
  object [("proofId", string p.proofId), ("authorityKind", string p.authorityKind),
    ("statement", p.statement.json), ("walletId", string p.walletId),
    ("currency", string p.currency), ("calendarBasis", string p.calendarBasis),
    ("startDate", string p.startDate), ("endDate", string p.endDate),
    ("openingBalance", option Money.json p.openingBalance),
    ("closingBalance", option Money.json p.closingBalance),
    ("activityManifest", list WalletStatementActivity.json p.activityManifest),
    ("actorId", string p.actorId), ("membershipId", string p.membershipId),
    ("policyVersion", string p.policyVersion), ("reviewedAt", string p.reviewedAt)]

/-! ## Allocations and requests -/

def EvidenceSettlementLineCategory.json (c : EvidenceSettlementLineCategory) : Json :=
  object [("receiptId", string c.receiptId), ("lineId", string c.lineId),
    ("categoryId", string c.categoryId)]

def EvidenceAllocationCell.json (c : EvidenceAllocationCell) : Json :=
  object [("receiptId", string c.receiptId), ("lineId", string c.lineId),
    ("targetObservationId", string c.targetObservationId), ("amount", c.amount.json)]

def EvidenceAllocationReview.json (r : EvidenceAllocationReview) : Json :=
  object [("contractVersion", string r.contractVersion), ("sourceHash", string r.sourceHash),
    ("allocationSetHash", string r.allocationSetHash), ("receiptIds", strings r.receiptIds),
    ("targetObservationIds", strings r.targetObservationIds),
    ("lineCategories", list EvidenceSettlementLineCategory.json r.lineCategories),
    ("cells", list EvidenceAllocationCell.json r.cells)]

def EvidenceAllocationProjection.json (p : EvidenceAllocationProjection) : Json :=
  object [("eventId", string p.eventId), ("targetObservationId", string p.targetObservationId),
    ("ledgerTransactionId", string p.ledgerTransactionId), ("evidenceIds", strings p.evidenceIds),
    ("sources", list EvidenceProvenance.json p.sources), ("ledgerEffect", p.ledgerEffect.json)]

def EvidenceAllocationRemainder.json (r : EvidenceAllocationRemainder) : Json :=
  object [("receiptId", string r.receiptId), ("lineId", string r.lineId), ("amount", r.amount.json)]

def EvidenceAllocationTargetRemainder.json (r : EvidenceAllocationTargetRemainder) : Json :=
  object [("targetObservationId", string r.targetObservationId), ("amount", r.amount.json)]

def EvidenceAllocationPlan.json (p : EvidenceAllocationPlan) : Json :=
  object ([("contractVersion", string p.contractVersion), ("sourceHash", string p.sourceHash),
    ("allocationSetHash", string p.allocationSetHash), ("review", p.review.json),
    ("projections", list EvidenceAllocationProjection.json p.projections),
    ("remainders", list EvidenceAllocationRemainder.json p.remainders),
    ("targetRemainders", list EvidenceAllocationTargetRemainder.json p.targetRemainders)] ++
    present "fundingRelationships" (list EvidenceRelationship.json) p.fundingRelationships)

def TransactionEvidenceRequest.json (r : TransactionEvidenceRequest) : Json :=
  object (nonemptyList "statementProofs" WalletStatementProof.json r.statementProofs ++
    present "allocationReview" EvidenceAllocationReview.json r.allocationReview ++
    [("contractVersion", string r.contractVersion), ("policyVersion", string r.policyVersion),
    ("maxSettlementDays", nat r.maxSettlementDays),
    ("observations", list EvidenceObservation.json r.observations),
    ("relationships", list EvidenceRelationship.json r.relationships),
    ("wallets", list WalletEvidence.json r.wallets),
    ("receipts", list ReceiptEvidence.json r.receipts)])

end BalanceFrame.Evidence

/-!
## How long a text is

`weight` bounds the characters of a struct's text by the lengths of its strings alone, so a text
with a hash in it is bounded without the hash (`byteLength_writtenText_le`, `length_sha256Hex`).
-/

namespace BalanceFrame.Evidence

open Library
open Liquidity (Json)
open Liquidity.Json (quote enclose escape hexDigits)

mutual

def weight : Json → Nat
  | .null => 4
  | .bool _ => 5
  | .number n => (toString n).toList.length
  | .string s => 6 * s.toList.length + 2
  | .array values => weightValues values + 2
  | .object entries => weightEntries entries + 2

def weightValues : List Json → Nat
  | [] => 0
  | v :: rest => weight v + 1 + weightValues rest

def weightEntries : List (String × Json) → Nat
  | [] => 0
  | (key, v) :: rest => 6 * key.toList.length + weight v + 4 + weightEntries rest

end

theorem length_escape_le (c : Char) : (escape c).length ≤ 6 := by
  unfold escape
  split
  case h_8 =>
    split
    · simp [hexDigits]
    · simp
  all_goals simp

theorem length_quote_le (s : String) : (quote s).length ≤ 6 * s.toList.length + 2 := by
  have hescaped : (s.toList.flatMap escape).length ≤ 6 * s.toList.length := by
    induction s.toList with
    | nil => rfl
    | cons c l ih =>
      have := length_escape_le c
      rw [List.flatMap_cons, List.length_append, List.length_cons]
      omega
  unfold quote
  rw [List.length_append, List.length_cons, List.length_singleton]
  omega

theorem length_intersperse_le (c : Char) : ∀ texts : List (List Char),
    ((texts.intersperse [c]).flatten).length ≤ (texts.map fun text => text.length + 1).sum
  | [] => Nat.le_refl _
  | [text] => by simp
  | text :: text' :: texts => by
    have ih := length_intersperse_le c (text' :: texts)
    rw [List.intersperse_cons₂, List.flatten_cons, List.flatten_cons, List.length_append,
      List.length_append, List.map_cons, List.sum_cons, List.length_singleton]
    omega

theorem length_enclose_le (left right : Char) (texts : List (List Char)) :
    (enclose left right texts).length ≤ (texts.map fun text => text.length + 1).sum + 2 := by
  have := length_intersperse_le ',' texts
  unfold enclose
  rw [List.length_append, List.length_cons, List.length_singleton]
  omega

mutual

theorem length_written_le : ∀ v : Json, (written v).length ≤ weight v
  | .null => by
    rw [written, weight]
    decide
  | .bool b => by
    rw [written, weight]
    cases b <;> decide
  | .number n => by
    rw [written, weight]
  | .string s => by
    rw [written, weight]
    exact length_quote_le s
  | .array values => by
    rw [written, weight]
    have := length_writtenValues_le values
    have := length_enclose_le '[' ']' (writtenValues values)
    omega
  | .object entries => by
    rw [written, weight]
    have := length_writtenEntries_le entries
    have := length_enclose_le '\x7b' '\x7d' (writtenEntries entries)
    omega

theorem length_writtenValues_le : ∀ values : List Json,
    ((writtenValues values).map fun text => text.length + 1).sum ≤ weightValues values
  | [] => by
    rw [writtenValues, weightValues]
    rfl
  | v :: rest => by
    have := length_written_le v
    have := length_writtenValues_le rest
    rw [writtenValues, weightValues, List.map_cons, List.sum_cons]
    omega

theorem length_writtenEntries_le : ∀ entries : List (String × Json),
    ((writtenEntries entries).map fun text => text.length + 1).sum ≤ weightEntries entries
  | [] => by
    rw [writtenEntries, weightEntries]
    rfl
  | (key, v) :: rest => by
    have := length_written_le v
    have := length_writtenEntries_le rest
    have := length_quote_le key
    rw [writtenEntries, weightEntries, List.map_cons, List.sum_cons, List.length_append,
      List.length_cons]
    omega

end

/-- **A text's bytes are bounded by its weight**: a character takes at most four. -/
theorem byteLength_writtenText_le (v : Json) : byteLength (writtenText v) ≤ 4 * weight v := by
  have hbytes : ∀ l : List Char,
      (l.flatMap fun c => (String.utf8EncodeChar c).map UInt8.toNat).length ≤ 4 * l.length := by
    intro l
    induction l with
    | nil => rfl
    | cons c l ih =>
      have := c.utf8Size_le_four
      rw [List.flatMap_cons, List.length_append, List.length_map, String.length_utf8EncodeChar,
        List.length_cons]
      omega
  have hchars := length_written_le v
  have := hbytes (written v)
  unfold byteLength Liquidity.bytes writtenText
  rw [String.toList_ofList]
  omega

theorem length_sha256Hex (message : List UInt8) : (sha256Hex message).toList.length = 64 := by
  rw [sha256Hex, String.toList_ofList]
  rfl

end BalanceFrame.Evidence
