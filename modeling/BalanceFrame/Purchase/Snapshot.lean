import BalanceFrame.Purchase.Evaluate
import BalanceFrame.Library.LexCodes
import BalanceFrame.Library.SortedMap

/-!
# Evaluating a purchase against a snapshot

Model of `checked_outflow_total` and `evaluate_purchase_with_policy`
(`crates/core-protocol/src/lib.rs`), and of `leaves` (`crates/core-protocol/src/native_rules.rs`)
as far as it says which transactions are leaves. The evaluation filters the top transactions of the
snapshot four times; it never looks at their subtransactions.
-/

namespace BalanceFrame.Purchase

open Library Liquidity

/-! ## Snapshots -/

/-- `Transaction`, the fields read here. -/
structure Transaction where
  accountId : String
  categoryId : Option String
  amount : Money
  cleared : Bool
  reconciled : Bool
  subtransactions : List Transaction

/-- `Account`, the fields read here. -/
structure Account where
  id : String
  clearedBalance : Money
  deriving DecidableEq

/-- `BudgetMonth`: the budgeted amounts by category. -/
structure BudgetMonth where
  month : String
  categories : SortedMap String Money

/-- `ProtocolSnapshot`, the fields read here; of a category only its id. -/
structure ProtocolSnapshot where
  snapshotDate : String
  accounts : List Account
  transactions : List Transaction
  categories : List String
  budgets : List BudgetMonth

structure PurchaseEvaluationRequest where
  snapshot : ProtocolSnapshot
  proposedTransaction : Transaction
  categoryId : String

/-- `PurchaseEvaluation`; it never has an account-aware part here. -/
structure PurchaseEvaluation where
  allowable : Bool
  reasonCodes : List String
  categoryBudget : Money
  categorySpent : Money
  categoryRemaining : Money
  projectedBalance : Option Money
  deriving DecidableEq

/-! ## Budgets -/

/-- The snapshot's month, or the whole date where it has none. -/
def snapshotMonth (s : ProtocolSnapshot) : String := (monthOf s.snapshotDate).getD s.snapshotDate

/-- `max_by` on the month: of equal months the last. -/
def laterMonth (best : Option BudgetMonth) (b : BudgetMonth) : Option BudgetMonth :=
  match best with
  | none => some b
  | some a => if a.month ≤ b.month then some b else some a

/-- The latest month not after the snapshot. -/
def latestBudget (s : ProtocolSnapshot) : Option BudgetMonth :=
  (s.budgets.filter fun b => decide (b.month ≤ snapshotMonth s)).foldl laterMonth none

/-- What the latest month budgets for the category. -/
def budgetCategory (r : PurchaseEvaluationRequest) : Option Money :=
  (latestBudget r.snapshot).bind fun b => b.categories.get? r.categoryId

def calculationCurrency (r : PurchaseEvaluationRequest) : String :=
  ((budgetCategory r).map (·.currency)).getD r.proposedTransaction.amount.currency

def budgetAmount (r : PurchaseEvaluationRequest) : Money :=
  (budgetCategory r).getD (.zero (calculationCurrency r))

/-! ## What counts -/

def accountIsIncluded (p : DecisionDataPolicy) (accountId : String) : Bool :=
  p.accountOverrides.includeOnly.all (·.contains accountId) &&
    !p.accountOverrides.exclude.contains accountId

/-- The account of the proposed transaction, when included. -/
def proposedAccount (r : PurchaseEvaluationRequest) (p : DecisionDataPolicy) : Option Account :=
  (r.snapshot.accounts.find? (·.id == r.proposedTransaction.accountId)).filter
    fun account => accountIsIncluded p account.id

def settlementIsIncluded (p : DecisionDataPolicy) (t : Transaction) : Bool :=
  if !t.cleared then p.pendingMode != .exclude
  else if !t.reconciled then p.unclearedMode != .exclude
  else true

def contributesToCategory (r : PurchaseEvaluationRequest) (p : DecisionDataPolicy)
    (t : Transaction) : Bool :=
  accountIsIncluded p t.accountId && settlementIsIncluded p t && t.categoryId == some r.categoryId

def contributesPending (p : DecisionDataPolicy) (t : Transaction) : Bool :=
  accountIsIncluded p t.accountId && !t.cleared && p.pendingMode != .exclude

def contributesUncategorized (p : DecisionDataPolicy) (t : Transaction) : Bool :=
  accountIsIncluded p t.accountId && settlementIsIncluded p t && p.uncategorizedMode != .ignore &&
    t.categoryId.all (· == "")

def contributesUncleared (p : DecisionDataPolicy) (t : Transaction) : Bool :=
  accountIsIncluded p t.accountId && t.cleared && !t.reconciled && p.unclearedMode != .exclude

def hasIncompatibleMoney (r : PurchaseEvaluationRequest) (p : DecisionDataPolicy) : Bool :=
  let currency := calculationCurrency r
  r.proposedTransaction.amount.currency != currency ||
    (proposedAccount r p).any (·.clearedBalance.currency != currency) ||
    r.snapshot.transactions.any fun t =>
      (contributesToCategory r p t || contributesPending p t || contributesUncategorized p t ||
        contributesUncleared p t) && t.amount.currency != currency

/-- Add one outflow. -/
def addOutflow (total : I64) (t : Transaction) : Option I64 :=
  if (t.amount.minorUnits : Int) < 0 then t.amount.minorUnits.checkedAbs.bind total.checkedAdd
  else some total

def checkedOutflowTotal (transactions : List Transaction) : Option I64 :=
  transactions.foldlM addOutflow 0

/-- The four totals. -/
structure OutflowTotals where
  spent : I64
  pending : I64
  uncategorized : I64
  uncleared : I64

/-- The outflows that count for the category, as pending, as uncategorized and as uncleared. -/
def outflowTotals (r : PurchaseEvaluationRequest) (p : DecisionDataPolicy) :
    Option OutflowTotals := do
  let spent ← checkedOutflowTotal (r.snapshot.transactions.filter (contributesToCategory r p))
  let pending ← checkedOutflowTotal (r.snapshot.transactions.filter (contributesPending p))
  let uncategorized ← checkedOutflowTotal
    (r.snapshot.transactions.filter (contributesUncategorized p))
  let uncleared ← checkedOutflowTotal (r.snapshot.transactions.filter (contributesUncleared p))
  pure ⟨spent, pending, uncategorized, uncleared⟩

/-! ## The evaluation -/

/-- The arguments of the financial core: nothing reserved, no rollover and no donor. -/
def purchaseInput (r : PurchaseEvaluationRequest) (p : DecisionDataPolicy) (t : OutflowTotals)
    (proposed : I64) (hasStaleSnapshot hasStaleBankSync : Bool) : PurchaseInput :=
  let currency := calculationCurrency r
  { amount := ⟨proposed, currency⟩
    categoryBudget := budgetAmount r
    categorySpent := ⟨t.spent, currency⟩
    accountBalance := (proposedAccount r p).map (·.clearedBalance)
    pendingTotal := ⟨t.pending, currency⟩
    uncategorizedTotal := ⟨t.uncategorized, currency⟩
    unclearedTotal := ⟨t.uncleared, currency⟩
    policy := ⟨.zero currency, .zero currency⟩
    dataPolicy := p
    semantic := .card
    rolloverAvailable := none
    donorAvailable := none
    isProtectedAccount := false
    hasStaleSnapshot := hasStaleSnapshot
    hasStaleBankSync := hasStaleBankSync }

/-- A refusal that read nothing of the category. -/
def unread (reason currency : String) : PurchaseEvaluation :=
  ⟨false, [reason], .zero currency, .zero currency, .zero currency, none⟩

/-- A refusal that read the category's budget. -/
def refused (reason : String) (r : PurchaseEvaluationRequest) (spent : Money) :
    PurchaseEvaluation :=
  ⟨false, [reason], budgetAmount r, spent, budgetAmount r, none⟩

/-- The evaluation of the core's answer. -/
def answered (r : PurchaseEvaluationRequest) (spent : Money) (hasStaleSnapshot : Bool) :
    Except MoneyError PurchaseOutcome → PurchaseEvaluation
  | .error _ => refused "evaluation_error" r spent
  | .ok out =>
    let allowable := out.outcome == .approved && !hasStaleSnapshot
    let suffix := if hasStaleSnapshot then []
      else if allowable then ["budget_sufficient"]
      else if (budgetCategory r).isNone then ["category_not_budgeted"]
      else ["budget_insufficient"]
    { allowable := allowable, reasonCodes := out.reasonCodes ++ suffix
      categoryBudget := out.evidence.categoryBudget, categorySpent := out.evidence.categorySpent
      categoryRemaining := out.evidence.categoryRemaining
      projectedBalance := out.evidence.projectedBalance }

def evaluatePurchaseWithPolicy (r : PurchaseEvaluationRequest) (p : DecisionDataPolicy)
    (hasStaleSnapshot hasStaleBankSync : Bool) : PurchaseEvaluation :=
  let currency := calculationCurrency r
  if !r.snapshot.categories.contains r.categoryId then
    unread "category_not_found" r.proposedTransaction.amount.currency
  else if (!r.snapshot.accounts.isEmpty && (proposedAccount r p).isNone) ||
      !accountIsIncluded p r.proposedTransaction.accountId then
    unread "account_unavailable" currency
  else if hasIncompatibleMoney r p then refused "currency_mismatch" r (.zero currency)
  else
    match outflowTotals r p with
    | none => refused "evaluation_error" r (.zero currency)
    | some t =>
      match r.proposedTransaction.amount.minorUnits.checkedAbs with
      | none => refused "evaluation_error" r ⟨t.spent, currency⟩
      | some proposed => answered r ⟨t.spent, currency⟩ hasStaleSnapshot
          (evaluatePurchase (purchaseInput r p t proposed hasStaleSnapshot hasStaleBankSync))

/-! ## Leaves -/

mutual

/-- The leaves below a transaction: those without subtransactions. -/
def Transaction.leaves : Transaction → List Transaction
  | ⟨a, c, n, cleared, reconciled, []⟩ => [⟨a, c, n, cleared, reconciled, []⟩]
  | ⟨_, _, _, _, _, t :: rest⟩ => t.leaves ++ leavesOf rest

/-- The leaves below transactions. -/
def leavesOf : List Transaction → List Transaction
  | [] => []
  | t :: rest => t.leaves ++ leavesOf rest

end

theorem leaves_of_unsplit {t : Transaction} (h : t.subtransactions = []) : t.leaves = [t] := by
  obtain ⟨a, c, n, cleared, reconciled, sub⟩ := t
  cases sub with
  | nil => rw [Transaction.leaves]
  | cons t rest => cases h

end BalanceFrame.Purchase
