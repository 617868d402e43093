import BalanceFrame.Evidence.Record
import BalanceFrame.Liquidity.Evidence

/-!
# Admission of evidence

Model of the checks that open `resolve_transaction_evidence`
(`crates/core-protocol/src/transaction_evidence.rs`): `id`, `hash`, `money`, `sum`, `civil`,
`consuming`, `transfer_observation`, `supports_local_candidate`, `active`, `compatible` and
`validate`, with the dates and timestamps of `crates/financial-core/src/evidence.rs` and the parts
of `chrono` they call.
-/

namespace BalanceFrame.Evidence

open Library
open Liquidity (I64 InI64 Money Checked bytes isAsciiDigit number slice codePoints
  parseNaiveDate isCurrencyCode)

/-! ## Texts -/

def require (ok : Bool) (code : String) : Checked Unit := reject (!ok) code

@[simp] theorem require_eq_ok {ok : Bool} {code : String} {u : Unit} :
    require ok code = .ok u ↔ ok = true := by
  rw [require, reject_ok, Bool.not_eq_false']

def isControl (c : Char) : Bool := c.toNat < 32 || (127 ≤ c.toNat && c.toNat < 160)

/-- `s.len()`. -/
def byteLength (s : String) : Nat := (bytes s).length

/-- `id`. -/
def isId (s : String) : Bool := s != "" && byteLength s ≤ 256 && !s.toList.any isControl

/-- `hash`: 64 lowercase hexadecimal digits; a byte outside ASCII is none. -/
def isHash (s : String) : Bool :=
  s.toList.length == 64 && s.toList.all fun c => ('0' ≤ c && c ≤ '9') || ('a' ≤ c && c ≤ 'f')

/-- `value.as_ref().is_none_or(test)`. -/
def noneOr {α : Type} (test : α → Bool) : Option α → Bool
  | none => true
  | some a => test a

/-! ## Amounts -/

/-- `money`. -/
def isMoney (x : Money) : Bool := 0 ≤ (x.minorUnits : Int) && isCurrencyCode x.currency

/-- `a.checked_add(b).ok_or("amount_overflow")`. -/
def addAmount (a b : I64) : Checked I64 := orStop (I64.checkedAdd a b) "amount_overflow"

/-- `a.checked_sub(b).ok_or("amount_overflow")`. -/
def subAmount (a b : I64) : Checked I64 := orStop (I64.checkedSub a b) "amount_overflow"

theorem addAmount_eq_ok {a b c : I64} : addAmount a b = .ok c ↔ (c : Int) = a + b := by
  rw [addAmount, orStop_ok, I64.checkedAdd_eq_some]

theorem subAmount_eq_ok {a b c : I64} : subAmount a b = .ok c ↔ (c : Int) = a - b := by
  rw [subAmount, orStop_ok, I64.checkedSub]
  split
  · rw [Option.some.injEq, Subtype.ext_iff]
    exact eq_comm
  · rename_i hout
    simp only [reduceCtorEq, false_iff]
    exact fun heq => hout (heq ▸ c.2)

theorem coe_neg_of_nonneg {n : I64} (h : 0 ≤ (n : Int)) : (I64.neg n : Int) = -(n : Int) := by
  have hmax := n.le_max
  have hin : InI64 (-n.1) := by
    unfold InI64
    change 0 ≤ n.1 at h
    change n.1 ≤ _ at hmax
    omega
  unfold I64.neg
  rw [dif_pos hin]

/-- One step of `sum`. -/
def sumStep (currency : String) (total : I64) (x : Money) : Checked I64 := do
  require (isMoney x && x.currency == currency) "currency_or_amount"
  addAmount total x.minorUnits

def sum (values : List Money) (currency : String) : Checked I64 :=
  values.foldlM (sumStep currency) 0

theorem sum_eq_ok {values : List Money} {currency : String} {t : I64}
    (h : sum values currency = .ok t) :
    (t : Int) = (values.map fun x => (x.minorUnits : Int)).sum := by
  refine foldlM_run (P := fun (done : List Money) (t : I64) =>
    (t : Int) = (done.map fun x => (x.minorUnits : Int)).sum) ?_ rfl h
  intro done t t' x htotal hstep
  simp only [sumStep, addAmount, bind_ok, require_eq_ok, orStop_ok] at hstep
  obtain ⟨-, -, hadd⟩ := hstep
  rw [I64.checkedAdd_eq_some.mp hadd, htotal, List.map_append, List.sum_append, List.map_singleton,
    List.sum_singleton]

theorem nonneg_of_sum {values : List Money} {currency : String} {t : I64}
    (h : sum values currency = .ok t) : ∀ x ∈ values, 0 ≤ (x.minorUnits : Int) := by
  intro x hx
  obtain ⟨c, c', hstep⟩ := foldlM_mem_ok h x hx
  simp only [sumStep, isMoney, bind_ok, require_eq_ok, Bool.and_eq_true,
    decide_eq_true_iff] at hstep
  obtain ⟨-, ⟨⟨hpos, -⟩, -⟩, -⟩ := hstep
  exact hpos

/-! ## Dates -/

/-- The layout `dddd-dd-dd`. -/
def isDateShape (b : List Nat) : Bool :=
  b.length == 10 && b.zipIdx.all fun p =>
    if p.2 == 4 || p.2 == 7 then p.1 == 45 else isAsciiDigit p.1

/-- `evidence_date_ordinal`: days from 0001-01-01, which is day 1. -/
def evidenceDateOrdinal (value : String) : Option Int :=
  if !isDateShape (bytes value) then none
  else (parseNaiveDate value).bind fun n =>
    if 0 < (Library.civil n).year then some (n + 719163) else none

def civil (s : String) : Checked Int := orStop (evidenceDateOrdinal s) "date"

/-- `w` digits, and what follows. -/
def scanDigits (w : Nat) (l : List Nat) : Option (Nat × List Nat) :=
  if (l.take w).length = w then (number (l.take w)).map fun n => (n, l.drop w) else none

/-- One of the characters, and what follows. -/
def scanChar (cs : List Nat) : List Nat → Option (List Nat)
  | c :: rest => if cs.contains c then some rest else none
  | [] => none

/-- An optional fraction: a point and at least one digit. -/
def scanFraction : List Nat → Option (List Nat)
  | 46 :: rest => if (rest.takeWhile isAsciiDigit).isEmpty then none
    else some (rest.dropWhile isAsciiDigit)
  | rest => some rest

/-- `scan::timezone_offset`: `Z`, or a sign (`-` also as U+2212), two digits, a colon and two digits
below 60. -/
def scanOffset : List Nat → Option (List Nat)
  | 90 :: rest | 122 :: rest => some rest
  | l => do
    let l ← scanChar [43, 45, 8722] l
    let (hours, l) ← scanDigits 2 l
    let l ← scanChar [58] l
    let (minutes, l) ← scanDigits 2 l
    if hours ≤ 23 ∧ minutes ≤ 59 then some l else none

/-- `evidence_timestamp_valid`: `DateTime::parse_from_rfc3339` accepts. -/
def evidenceTimestampValid (value : String) : Bool := Option.isSome <| do
  let (year, l) ← scanDigits 4 (codePoints value)
  let l ← scanChar [45] l
  let (month, l) ← scanDigits 2 l
  let l ← scanChar [45] l
  let (day, l) ← scanDigits 2 l
  let l ← scanChar [116, 84, 32] l
  let (hour, l) ← scanDigits 2 l
  let l ← scanChar [58] l
  let (minute, l) ← scanDigits 2 l
  let l ← scanChar [58] l
  let (second, l) ← scanDigits 2 l
  let l ← scanFraction l
  let l ← scanOffset l
  let date : CivilDate := ⟨year, month, day⟩
  if l.isEmpty && date.isDate && hour ≤ 23 && minute ≤ 59 && second ≤ 60 then some () else none

example : evidenceTimestampValid "2024-02-29 23:59:60.1234567890+05:30" = true := by decide +kernel

/-! ## Observations -/

def consuming (kind : String) : Bool :=
  ["funding", "partial_funding", "settlement", "transfer"].contains kind

/-- `kind.starts_with("wallet_")`. -/
def isWalletKind (kind : String) : Bool := "wallet_".toList.isPrefixOf kind.toList

def transferObservation (o : Observed) : Bool :=
  o.kind == "wallet_transfer" || ["transfer", "self_transfer"].contains o.eventType

def supportsLocalCandidate (a b : Observed) : Bool :=
  let wallet (kind : String) := ["wallet_payment", "wallet_fee", "wallet_refund"].contains kind
  let retail (kind : String) := ["receipt", "order"].contains kind
  let annotates (kind : String) := ["spend_session_item", "user_correction"].contains kind
  (wallet a.kind && (retail b.kind || annotates b.kind)) ||
    (wallet b.kind && (retail a.kind || annotates a.kind)) ||
    (retail a.kind && (annotates b.kind || (retail b.kind && a.kind != b.kind))) ||
    (retail b.kind && annotates a.kind)

def active (o : Observed) : Bool :=
  o.status == "completed" && !(["wallet_request", "order"].contains o.kind)

/-- `civil(&date).unwrap()`: the dates of an accepted request are read. -/
def ordinal (date : String) : Int := (evidenceDateOrdinal date).getD 0

def compatible (a b : Observed) (days : Nat) (inverse : Bool) : Bool :=
  a.amount.currency == b.amount.currency && (a.direction != b.direction) == inverse &&
    (ordinal a.date - ordinal b.date).natAbs ≤ days &&
    (a.fundingInstrumentId.isNone || b.fundingInstrumentId.isNone ||
      a.fundingInstrumentId == b.fundingInstrumentId)

/-! ## Validation -/

def observationKinds : List String :=
  ["ledger_transaction", "wallet_payment", "wallet_transfer", "wallet_fee", "wallet_refund",
    "wallet_request", "receipt", "order", "spend_session_item", "user_correction"]

def observationStatuses : List String := ["pending", "completed", "reversed", "superseded"]

def eventTypes : List String :=
  ["purchase", "p2p_payment", "transfer", "reimbursement", "refund", "fee", "mixed", "unknown",
    "repayment", "rent_contribution", "gift", "business_income", "income", "self_transfer"]

def relationshipKinds : List String :=
  ["same_event", "funding", "partial_funding", "settlement", "transfer", "reimbursement", "refund",
    "reversal", "supersession", "containment", "corroboration"]

def relationshipStates : List String := ["candidate", "confirmed", "rejected", "superseded"]

/-- An amount as the ledger writes it: outflows are negative. -/
def expectedEffect (o : Observed) : Option I64 :=
  if o.direction == "outflow" then I64.checkedNeg o.amount.minorUnits else some o.amount.minorUnits

/-- A ledger row of the effect's account and date, with the observation's amount. -/
def datesEffect (o : Observed) (e : EconomicEventLedgerEffect) (source : Observed) : Bool :=
  source.kind == "ledger_transaction" && source.ledgerTransactionId.isSome &&
    source.ledgerAccountId == some e.accountId && source.date == e.date &&
    source.amount == o.amount && source.direction == o.direction

/-- The sum of an effect's splits. -/
def splitStep (e : EconomicEventLedgerEffect) (total : I64) (split : ManualTransactionSplit) :
    Checked I64 := do
  require (isId split.categoryId && split.amount.currency == e.amount.currency &&
    (split.amount.minorUnits : Int).sign == (e.amount.minorUnits : Int).sign) "ledger_split"
  addAmount total split.amount.minorUnits

/-- The checks on a ledger effect. -/
def checkEffect (observations : List EvidenceObservation) (o : EvidenceObservation)
    (e : EconomicEventLedgerEffect) : Checked Unit := do
  require (o.kind != "order") "order_not_settled"
  require o.reviewedLedgerEffect "unapproved_ledger_effect"
  require (isId e.accountId && expectedEffect o.toObserved == some e.amount.minorUnits &&
    e.amount.currency == o.amount.currency &&
    (e.date == o.date || observations.any fun source =>
      datesEffect o.toObserved e source.toObserved)) "ledger_effect"
  require (noneOr isId e.categoryId && (e.splits.isEmpty || e.categoryId.isNone))
    "ledger_effect_category"
  let splitSum ← e.splits.foldlM (splitStep e) 0
  require (e.splits.isEmpty || splitSum == e.amount.minorUnits) "ledger_split_total"

/-- The checks on an observation without its effect. -/
def checkObserved (ids : List String) (o : Observed) : Checked Unit := do
  require (isId o.id && !ids.contains o.id && isId o.sourceId && isMoney o.amount &&
    o.reliability ≤ 100) "observation"
  require (observationKinds.contains o.kind) "observation_kind"
  require (["inflow", "outflow"].contains o.direction && observationStatuses.contains o.status &&
    eventTypes.contains o.eventType) "observation_state"
  require (o.kind != "ledger_transaction" || o.ledgerTransactionId.isSome)
    "ledger_transaction_identity"
  require (o.ledgerAccountId.isNone || o.kind == "ledger_transaction") "ledger_account_identity"
  let _ ← civil o.date
  require ([o.externalEventId, o.counterparty, o.fundingInstrumentId, o.walletId,
    o.ledgerTransactionId, o.ledgerAccountId].all (noneOr isId)) "observation_identity"
  let p := o.provenance
  require (isId p.documentId && isHash p.contentHash && isId p.parserVersion &&
    evidenceTimestampValid p.sourceTimestamp && evidenceTimestampValid p.receivedAt) "provenance"

/-- The checks on the effect of an observation that has one. -/
def checkLedgerEffect (observations : List EvidenceObservation) (o : EvidenceObservation) :
    Checked Unit :=
  match o.ledgerEffect with
  | none => pure ()
  | some e => checkEffect observations o e

/-- One observation; `ids` are those met before it. -/
def checkObservation (observations : List EvidenceObservation) (ids : List String)
    (o : EvidenceObservation) : Checked (List String) := do
  checkObserved ids o.toObserved
  checkLedgerEffect observations o
  pure (o.id :: ids)

/-- One relationship; `relIds` are those met before it. -/
def checkRelationship (ids : List String) (relIds : List String) (rel : EvidenceRelationship) :
    Checked (List String) := do
  require (isId rel.id && !relIds.contains rel.id && rel.fromId != rel.toId &&
    ids.contains rel.fromId && ids.contains rel.toId && rel.score ≤ 100) "relationship"
  require (relationshipKinds.contains rel.kind && relationshipStates.contains rel.state)
    "relationship_state"
  require (noneOr isMoney rel.allocatedAmount && rel.reasonCodes.all isId &&
    rel.evidenceIds.all isId) "relationship_metadata"
  pure (rel.id :: relIds)

def validate (r : TransactionEvidenceRequest) : Checked Unit := do
  require (r.contractVersion == "1" && isId r.policyVersion && r.maxSettlementDays ≤ 90)
    "version_or_policy"
  require (r.observations.length ≤ 10000 && r.relationships.length ≤ 20000 &&
    r.wallets.length ≤ 1000 && r.receipts.length ≤ 1000) "input_limit"
  let ids ← r.observations.foldlM (checkObservation r.observations) []
  let _ ← r.relationships.foldlM (checkRelationship ids) []
  pure ()

end BalanceFrame.Evidence
