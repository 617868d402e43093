import BalanceFrame.Liquidity.Money

/-!
# Evaluating a proposed purchase

Model of `Money::{add, sub, abs}` (`crates/financial-core/src/money.rs`), of the data policy
(`crates/financial-core/src/financial_state.rs`) and of `evaluate_purchase` with its helpers
(`crates/financial-core/src/purchase.rs`). The early returns of the source are read in stages: what
the data blocks (`blocked`), the floor of a protected account (`protectedVerdict`), the reservation
(`reservationVerdict`) and the category (`categoryVerdict`). A stage that returns gives its verdict,
and every return builds the evidence last.
-/

namespace BalanceFrame.Liquidity

open Library

/-- `MoneyError`, the errors raised here. -/
inductive MoneyError
  | currencyMismatch (expected actual : String)
  | overflow
  deriving DecidableEq

def Money.zero (currency : String) : Money := ⟨0, currency⟩

def Money.isZero (x : Money) : Bool := (x.minorUnits : Int) == 0

def Money.add (x y : Money) : Except MoneyError Money := do
  reject (x.currency != y.currency) (.currencyMismatch x.currency y.currency)
  let n ← orStop (x.minorUnits.checkedAdd y.minorUnits) .overflow
  pure ⟨n, x.currency⟩

def Money.sub (x y : Money) : Except MoneyError Money := do
  reject (x.currency != y.currency) (.currencyMismatch x.currency y.currency)
  let n ← orStop (x.minorUnits.checkedSub y.minorUnits) .overflow
  pure ⟨n, x.currency⟩

def Money.abs (x : Money) : Except MoneyError Money := do
  let n ← orStop x.minorUnits.checkedAbs .overflow
  pure ⟨n, x.currency⟩

theorem I64.checkedSub_eq_some {n k t : I64} : checkedSub n k = some t ↔ (t : Int) = n - k := by
  unfold checkedSub
  split
  · rw [Option.some.injEq, Subtype.ext_iff]
    exact eq_comm
  · rename_i h
    simp only [reduceCtorEq, false_iff]
    intro ht
    exact h (ht ▸ t.2)

theorem I64.checkedAbs_eq_some {n k : I64} (h : n.checkedAbs = some k) :
    (k : Int) = |(n : Int)| := by
  unfold I64.checkedAbs at h
  split at h
  · rw [← Option.some.inj h]
  · exact absurd h (by simp)

theorem Money.add_eq_ok {x y z : Money} : x.add y = .ok z ↔
    x.currency = y.currency ∧ z.currency = x.currency ∧
      (z.minorUnits : Int) = x.minorUnits + y.minorUnits := by
  simp only [Money.add, bind_ok, reject_ok, bne_eq_false_iff_eq, orStop_ok,
    I64.checkedAdd_eq_some, pure_ok, Except.ok.injEq]
  constructor
  · rintro ⟨-, hc, n, hn, rfl⟩
    exact ⟨hc, rfl, hn⟩
  · rintro ⟨hc, hz, hn⟩
    exact ⟨(), hc, z.minorUnits, hn, by rw [← hz]⟩

theorem Money.sub_eq_ok {x y z : Money} : x.sub y = .ok z ↔
    x.currency = y.currency ∧ z.currency = x.currency ∧
      (z.minorUnits : Int) = x.minorUnits - y.minorUnits := by
  simp only [Money.sub, bind_ok, reject_ok, bne_eq_false_iff_eq, orStop_ok,
    I64.checkedSub_eq_some, pure_ok, Except.ok.injEq]
  constructor
  · rintro ⟨-, hc, n, hn, rfl⟩
    exact ⟨hc, rfl, hn⟩
  · rintro ⟨hc, hz, hn⟩
    exact ⟨(), hc, z.minorUnits, hn, by rw [← hz]⟩

end BalanceFrame.Liquidity

namespace BalanceFrame.Purchase

open Library Liquidity

/-! ## Policies -/

inductive PendingMode
  | include
  | exclude
  | includeConservatively
  deriving DecidableEq

inductive UncategorizedMode
  | block
  | reserveFullAmount
  | ignore
  deriving DecidableEq

inductive UnclearedMode
  | include
  | exclude
  deriving DecidableEq

structure AccountOverrides where
  includeOnly : Option (List String)
  exclude : List String
  deriving DecidableEq

/-- `DecisionDataPolicy`, without its age limits. -/
structure DecisionDataPolicy where
  pendingMode : PendingMode
  uncategorizedMode : UncategorizedMode
  unclearedMode : UnclearedMode
  accountOverrides : AccountOverrides
  deriving DecidableEq

def DecisionDataPolicy.standard : DecisionDataPolicy where
  pendingMode := .includeConservatively
  uncategorizedMode := .reserveFullAmount
  unclearedMode := .include
  accountOverrides := ⟨none, []⟩

structure PurchasePolicy where
  minimumBalance : Money
  bufferAmount : Money
  deriving DecidableEq

def PurchasePolicy.totalReservation (p : PurchasePolicy) : Except MoneyError Money :=
  p.minimumBalance.add p.bufferAmount

inductive TransactionSemantic
  | card
  | payment
  | transfer
  | split
  | reimbursement
  | rollover
  deriving DecidableEq

/-! ## Outcomes -/

inductive PurchaseOutcomeKind
  | approved
  | declined
  | flaggedForReview
  | insufficientData
  deriving DecidableEq

/-- `PurchaseReasonCode`, the codes an evaluation gives. -/
inductive PurchaseReasonCode
  | withinBudget
  | donorCovered
  | rolloverApplied
  | reimbursementExpected
  | staleSnapshot
  | staleBankSync
  | pendingExposure
  | uncategorizedExposure
  | exceedsCategoryBudget
  | exceedsBuffer
  | exceedsProtectedBalance
  | insufficientMinimumBalance
  | splitApplied
  | transferPair
  | scheduledPayment
  deriving DecidableEq

def PurchaseReasonCode.asStr : PurchaseReasonCode → String
  | .withinBudget => "within_budget"
  | .donorCovered => "donor_covered"
  | .rolloverApplied => "rollover_applied"
  | .reimbursementExpected => "reimbursement_expected"
  | .staleSnapshot => "stale_snapshot"
  | .staleBankSync => "stale_bank_sync"
  | .pendingExposure => "pending_exposure"
  | .uncategorizedExposure => "uncategorized_exposure"
  | .exceedsCategoryBudget => "exceeds_category_budget"
  | .exceedsBuffer => "exceeds_buffer"
  | .exceedsProtectedBalance => "exceeds_protected_balance"
  | .insufficientMinimumBalance => "insufficient_minimum_balance"
  | .splitApplied => "split_applied"
  | .transferPair => "transfer_pair"
  | .scheduledPayment => "scheduled_payment"

structure PurchaseDataBlocker where
  code : String
  message : String
  deriving DecidableEq

structure PurchaseEvidence where
  categoryBudget : Money
  categorySpent : Money
  categoryRemaining : Money
  availableBalance : Option Money
  projectedBalance : Option Money
  accountBalance : Option Money
  pendingTotal : Money
  uncategorizedTotal : Money
  unclearedTotal : Money
  bufferRemaining : Option Money
  donorAvailable : Option Money
  rolloverApplied : Option Money
  deriving DecidableEq

/-- `PurchaseOutcome`; its label is always the same. -/
structure PurchaseOutcome where
  outcome : PurchaseOutcomeKind
  reasonCodes : List String
  evidence : PurchaseEvidence
  dataBlockers : List PurchaseDataBlocker
  transactionSemantic : TransactionSemantic
  deriving DecidableEq

/-- The arguments of `evaluate_purchase`. -/
structure PurchaseInput where
  amount : Money
  categoryBudget : Money
  categorySpent : Money
  accountBalance : Option Money
  pendingTotal : Money
  uncategorizedTotal : Money
  unclearedTotal : Money
  policy : PurchasePolicy
  dataPolicy : DecisionDataPolicy
  semantic : TransactionSemantic
  rolloverAvailable : Option Money
  donorAvailable : Option Money
  isProtectedAccount : Bool
  hasStaleSnapshot : Bool
  hasStaleBankSync : Bool
  deriving DecidableEq

/-! ## Evidence -/

/-- Take `total` where the policy reserves it. -/
def reserve (reserved : Bool) (total balance : Money) : Except MoneyError Money :=
  if reserved then balance.sub total else pure balance

def computeEffectiveBalance (i : PurchaseInput) : Except MoneyError (Option Money) :=
  match i.accountBalance with
  | none => pure none
  | some balance => do
    let effective ← reserve (i.dataPolicy.pendingMode != .exclude) i.pendingTotal balance
    let effective ← reserve (i.dataPolicy.uncategorizedMode != .ignore) i.uncategorizedTotal
      effective
    let effective ← reserve (i.dataPolicy.unclearedMode != .exclude) i.unclearedTotal effective
    pure (some effective)

/-- What a projected balance leaves above the minimum. -/
def bufferAbove (i : PurchaseInput) (balance : Money) : Except MoneyError Money := do
  let afterMin ← balance.sub i.policy.minimumBalance
  pure (if afterMin.isNegative then .zero afterMin.currency else afterMin)

def buildEvidence (i : PurchaseInput) : Except MoneyError PurchaseEvidence := do
  let categoryRemaining ← i.categoryBudget.sub i.categorySpent
  let availableBalance ← computeEffectiveBalance i
  let projectedBalance ← availableBalance.mapM (·.sub i.amount)
  let bufferRemaining ← projectedBalance.mapM (bufferAbove i)
  pure
    { categoryBudget := i.categoryBudget, categorySpent := i.categorySpent
      categoryRemaining := categoryRemaining, availableBalance := availableBalance
      projectedBalance := projectedBalance, accountBalance := i.accountBalance
      pendingTotal := i.pendingTotal, uncategorizedTotal := i.uncategorizedTotal
      unclearedTotal := i.unclearedTotal, bufferRemaining := bufferRemaining
      donorAvailable := i.donorAvailable, rolloverApplied := none }

/-! ## The data -/

/-- One currency of a purchase. -/
def checkCurrency (i : PurchaseInput) (x : Money) : Except MoneyError Unit :=
  reject (x.currency != i.amount.currency) (.currencyMismatch i.amount.currency x.currency)

/-- The currency checks; the zero totals may have any currency. -/
def checkCurrencies (i : PurchaseInput) : Except MoneyError Unit := do
  [i.categoryBudget, i.categorySpent, i.policy.minimumBalance, i.policy.bufferAmount].forM
    (checkCurrency i)
  i.accountBalance.toList.forM (checkCurrency i)
  ([i.pendingTotal, i.uncategorizedTotal, i.unclearedTotal].filter (!·.isZero)).forM
    (checkCurrency i)
  i.rolloverAvailable.toList.forM (checkCurrency i)
  i.donorAvailable.toList.forM (checkCurrency i)

/-- The data blockers. -/
def dataBlockers (i : PurchaseInput) : List PurchaseDataBlocker :=
  (if i.hasStaleSnapshot then [⟨"stale_snapshot",
    "Snapshot data exceeds maximum age threshold; evaluation may be unreliable."⟩] else []) ++
  (if i.hasStaleBankSync then [⟨"stale_bank_sync",
    "Bank sync data is stale; account balance may be inaccurate."⟩] else [])

/-- The reason codes of the data. -/
def dataReasons (i : PurchaseInput) : List PurchaseReasonCode :=
  (if i.hasStaleSnapshot then [.staleSnapshot] else []) ++
  (if i.hasStaleBankSync then [.staleBankSync] else []) ++
  (if !i.pendingTotal.isZero && i.dataPolicy.pendingMode != .exclude then [.pendingExposure]
    else []) ++
  (if !i.uncategorizedTotal.isZero && i.dataPolicy.uncategorizedMode != .ignore
    then [.uncategorizedExposure] else [])

/-- The data supports no evaluation: a stale snapshot without a balance, blocked uncategorized
transactions, or a stale bank sync. -/
def blocked (i : PurchaseInput) : Bool :=
  (i.hasStaleSnapshot && i.accountBalance.isNone) ||
    (i.dataPolicy.uncategorizedMode == .block && !i.uncategorizedTotal.isZero) ||
    i.hasStaleBankSync

/-! ## Verdicts -/

/-- An outcome, and the reason codes it adds. -/
structure Verdict where
  kind : PurchaseOutcomeKind
  codes : List PurchaseReasonCode
  deriving DecidableEq

/-- The donor has the deficit. -/
def donorCovers (i : PurchaseInput) (deficit : Money) : Bool :=
  i.donorAvailable.any fun donor => decide ((deficit.minorUnits : Int) ≤ donor.minorUnits)

/-- Approved by the donor, or refused otherwise. -/
def donorOr (i : PurchaseInput) (deficit : Money) (otherwise : Verdict) : Verdict :=
  if donorCovers i deficit then ⟨.approved, [.donorCovered]⟩ else otherwise

/-- The minimum of a protected account. -/
def protectedVerdict (i : PurchaseInput) (balance projected : Money) :
    Except MoneyError (Option Verdict) :=
  let minimum := i.policy.minimumBalance
  if !(i.isProtectedAccount && !minimum.isZero) then pure none
  else if (balance.minorUnits : Int) < minimum.minorUnits then
    pure (some ⟨.declined, [.exceedsProtectedBalance]⟩)
  else if (projected.minorUnits : Int) < minimum.minorUnits then do
    let deficit ← minimum.sub projected
    pure (some (donorOr i deficit ⟨.declined, [.exceedsProtectedBalance]⟩))
  else pure none

/-- The minimum and the buffer. -/
def reservationVerdict (i : PurchaseInput) (balance : Money) :
    Except MoneyError (Option Verdict) := do
  let reservation ← i.policy.totalReservation
  if reservation.isZero then pure none
  else do
    let afterPurchase ← balance.sub i.amount
    let remaining ← afterPurchase.sub reservation
    if remaining.isNegative then do
      let deficit ← remaining.abs
      if donorCovers i deficit then pure (some ⟨.approved, [.donorCovered]⟩)
      else do
        let afterMin ← afterPurchase.sub i.policy.minimumBalance
        pure (some (if !afterMin.isNegative then ⟨.flaggedForReview, [.exceedsBuffer]⟩
          else ⟨.declined, [.insufficientMinimumBalance]⟩))
    else pure none

/-- The category's budget. -/
def categoryVerdict (i : PurchaseInput) (remaining : Money) : Except MoneyError Verdict :=
  if (remaining.minorUnits : Int) < i.amount.minorUnits then
    match i.donorAvailable with
    | none => pure ⟨.flaggedForReview, [.exceedsCategoryBudget]⟩
    | some _ => do
      let deficit ← i.amount.sub remaining
      pure (if donorCovers i deficit then ⟨.approved, [.exceedsCategoryBudget, .donorCovered]⟩
        else ⟨.flaggedForReview, [.exceedsCategoryBudget]⟩)
  else pure ⟨.approved, [.withinBudget]⟩

/-- What the semantic adds to the reasons. -/
def semanticReasons : TransactionSemantic → List PurchaseReasonCode
  | .reimbursement => [.reimbursementExpected]
  | .split => [.splitApplied]
  | .transfer => [.transferPair]
  | .payment => [.scheduledPayment]
  | .card | .rollover => []

/-- The rollover that is applied. -/
def rolloverApplied (i : PurchaseInput) : Option Money :=
  i.rolloverAvailable.filter (!·.isZero)

/-- What is left of the category, with the rollover. -/
def adjustedRemaining (i : PurchaseInput) : Except MoneyError Money := do
  let remaining ← i.categoryBudget.sub i.categorySpent
  match rolloverApplied i with
  | none => pure remaining
  | some rollover => remaining.add rollover

/-- The verdict on data that is not blocked. -/
def verdict (i : PurchaseInput) (effective : Option Money) (remaining : Money) :
    Except MoneyError Verdict :=
  if i.semantic == .reimbursement then pure ⟨.approved, []⟩
  else
    match effective with
    | none => pure ⟨.flaggedForReview, []⟩
    | some balance => do
      let projected ← balance.sub i.amount
      match ← protectedVerdict i balance projected with
      | some v => pure v
      | none =>
        match ← reservationVerdict i balance with
        | some v => pure v
        | none => categoryVerdict i remaining

/-- The reason codes of an evaluation. -/
def reasonCodes (i : PurchaseInput) (v : Verdict) : List PurchaseReasonCode :=
  dataReasons i ++ (if (rolloverApplied i).isSome then [.rolloverApplied] else []) ++
    semanticReasons i.semantic ++ v.codes

def evaluatePurchase (i : PurchaseInput) : Except MoneyError PurchaseOutcome := do
  checkCurrencies i
  if blocked i then do
    let evidence ← buildEvidence i
    pure
      { outcome := .insufficientData, reasonCodes := (dataReasons i).map (·.asStr)
        evidence := evidence, dataBlockers := dataBlockers i, transactionSemantic := i.semantic }
  else do
    let effective ← computeEffectiveBalance i
    let remaining ← adjustedRemaining i
    let v ← verdict i effective remaining
    let evidence ← buildEvidence i
    pure
      { outcome := v.kind
        reasonCodes := (reasonCodes i v).map (·.asStr)
        evidence := { evidence with rolloverApplied := rolloverApplied i }
        dataBlockers := dataBlockers i, transactionSemantic := i.semantic }

end BalanceFrame.Purchase
