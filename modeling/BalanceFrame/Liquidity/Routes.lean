import BalanceFrame.Liquidity.Prepare
import BalanceFrame.Liquidity.Plan

/-!
# Routes, transfers and payments

Model of `arrival`, `precondition`, `move_cash`, `minimum_transfers`, `transfer`, `selected` and
`spend` (`crates/financial-core/src/liquidity_routes.rs`). The network of `minimum_transfers` is
described as that of `allocation`: a `TransferArc` names one `connect` call and `transferLink` gives
its arguments.
-/

namespace BalanceFrame.Liquidity

open Library

/-! ## Arrival -/

/-- `checked_mul(60)` and `FixedOffset::east_opt`, in nanoseconds. -/
def eastOffset (minutes : Int) : Option Int :=
  if -86400 < minutes * 60 ∧ minutes * 60 < 86400 then some (minutes * 60 * nanosPerSecond)
  else none

/-- `checked_add_signed(Duration::days(1))`. -/
def addDay (t : Instant) : Checked Instant :=
  orStop (checkedAddSigned t nanosPerDay) "timestamp_overflow"

/-- `format("%Y-%m-%d")` of a day. -/
def formatDate (day : Int) : String :=
  let date := civil day
  String.ofList ((yearDigits date.year ++ 45 :: pad 2 date.month.toNat ++
    45 :: pad 2 date.day.toNat).map Char.ofNat)

/-- A route's calendar, read in its own time zone. -/
structure RouteCalendar where
  mode : CalendarMode
  offset : Int
  weekends : Bool
  holidays : List String

/-- `acceptable`: a processing day. -/
def RouteCalendar.acceptable (c : RouteCalendar) (t : Instant) : Bool :=
  (c.weekends || decide (weekdayFromMonday ((t + c.offset) / nanosPerDay) ≤ 5)) &&
    (c.mode != .businessDays || !c.holidays.contains (formatDate ((t + c.offset) / nanosPerDay)))

/-- Move on to a processing day; at most `left` days are skipped. -/
def RouteCalendar.roll (c : RouteCalendar) : Nat → Instant → Checked Instant
  | left, t =>
    if c.acceptable t then pure t
    else do
      let t ← addDay t
      match left with
      | 0 => throw "transfer_calendar_unavailable"
      | left + 1 => c.roll left t

/-- Count transit days. Every step is a day, so `fuel` days to the last instant are enough. -/
def RouteCalendar.transit (c : RouteCalendar) : Nat → Nat → Instant → Checked Instant
  | _, 0, t => pure t
  | 0, _ + 1, _ => throw "timestamp_overflow"
  | fuel + 1, remaining + 1, t => do
    let t ← addDay t
    c.transit fuel (if c.mode == .calendarDays || c.acceptable t then remaining else remaining + 1) t

/-- The route's calendar and its cutoff minute. -/
def routeCalendar (route : TransferTimingRoute) : Checked (RouteCalendar × Nat) := do
  let mode ← orStop route.calendarMode "unknown_transfer_timing"
  let minutes ← orStop route.utcOffsetMinutes "unknown_transfer_timezone"
  let offset ← orStop (eastOffset minutes) "invalid_transfer_timezone"
  let cutoff ← orStop route.cutoffMinute "unknown_transfer_cutoff"
  reject (decide (1440 ≤ cutoff)) "invalid_transfer_cutoff"
  let weekends ← orStop route.weekendsAvailable "unknown_weekend_coverage"
  reject (mode == .businessDays && !route.holidaysComplete) "unknown_holiday_coverage"
  route.holidays.forM fun day => do
    let _ ← orStop (parseNaiveDate day) "invalid_holiday_date"
  pure ({ mode := mode, offset := offset, weekends := weekends, holidays := route.holidays }, cutoff)

/-- The minute of the local day. -/
def minuteOfDay (t : Instant) (offset : Int) : Int :=
  (t + offset) % nanosPerDay / (60 * nanosPerSecond)

/-- Where a route that is not instant starts: the next day after the cutoff. -/
def afterCutoff (c : RouteCalendar) (cutoff : Nat) (now : Instant) : Checked Instant :=
  if (cutoff : Int) ≤ minuteOfDay now c.offset then addDay now else pure now

/-- The days from the last step of a transit to the end of time. -/
def daysLeft (t : Instant) : Nat := ((maxInstant - t) / nanosPerDay).toNat + 1

def arrival (route : TransferTimingRoute) (now : Instant) (maxAgeMinutes : Nat) :
    Checked Instant := do
  timingEvidence route now maxAgeMinutes
  match route.providerArrivalAt with
  | some text => do
    let t ← instant text
    reject (decide (t < now)) "arrival_precedes_evaluation"
    pure t
  | none => do
    let (c, cutoff) ← routeCalendar route
    if c.mode == .instant then do
      reject (route.delayDays != 0) "invalid_instant_route"
      pure now
    else do
      let t ← afterCutoff c cutoff now
      reject (decide (3660 < route.delayDays)) "transfer_horizon_exceeded"
      let t ← c.roll 3660 t
      let t ← c.transit (daysLeft t) route.delayDays t
      c.roll 3660 t

/-! ## Moving cash -/

/-- Every transaction the account's facts name, sorted. -/
def baselineIds (f : AccountLiquidityFact) : List String :=
  (f.baselineTransactionIds ++
    (f.unsettledFlows.flatMap fun flow =>
      flow.id :: (flow.importedId.toList ++ flow.matchedTransactionIds)) ++
    f.obligations.flatMap (·.matchedTransactionIds)).foldl
      (fun ids id => ids.insert id ()) (SortedMap.empty : SortedMap String Unit) |>.keys

def precondition (a : Cash) : AccountPlanPrecondition where
  accountId := a.fact.accountId
  recordedBalance := a.fact.recordedBalance
  signedHeadroom := m a.head a.fact.currency
  backingCapacity := m a.backing.clamp a.fact.currency
  baselineTransactionIds := baselineIds a.fact

/-- Take `n` out of an account. -/
def withdraw (a : Cash) (n : I64) : Checked Cash := do
  let head ← sub a.head n
  let adjusted ← sub a.adjusted n
  let backing ← sub a.backing n
  checkedRefresh { a with head := head, adjusted := adjusted, backing := backing }

/-- Put `n` into an account. -/
def deposit (a : Cash) (n : I64) : Checked Cash := do
  let head ← add a.head n
  let adjusted ← add a.adjusted n
  let backing ← add a.backing n
  checkedRefresh { a with head := head, adjusted := adjusted, backing := backing }

def moveCash (accounts : Accounts) (source destination : String) (n : I64) : Checked Accounts := do
  let a ← orStop (accounts.get? source) "source_not_found"
  let a ← withdraw a n
  let accounts := accounts.insert source a
  let b ← orStop (accounts.get? destination) "destination_not_found"
  let b ← deposit b n
  pure (accounts.insert destination b)

/-! ## Minimum transfers -/

/-- One `connect` call of `minimum_transfers`. -/
inductive TransferArc
  | supply (i : Nat) (capacity : I64)
  | route (node : Nat) (capacity : I64)
  | replenish (capacity : I64)
  | back (i j : Nat) (capacity : I64)
  | spare (capacity : I64)
  | recirculate (capacity : I64)
  | surplus (node : Nat) (capacity : I64)
  | deficit (node : Nat) (capacity : I64)
  deriving DecidableEq

/-- The nodes of the network, for `n` accounts and `k` buckets. -/
structure TransferNodes where
  n : Nat
  k : Nat
  destination : Nat

namespace TransferNodes

variable (t : TransferNodes)

def gate : Nat := 1 + t.n

def bucket (j : Nat) : Nat := t.gate + 1 + j

def sink : Nat := t.gate + 1 + t.k

def superSource : Nat := t.sink + 1

def superSink : Nat := t.sink + 2

/-- The number of nodes. -/
def size : Nat := t.superSink + 1

end TransferNodes

/-- The arguments of the call. -/
def transferLink (t : TransferNodes) : TransferArc → Link
  | .supply i capacity => ⟨0, 1 + i, capacity, 0⟩
  | .route node capacity => ⟨node, t.gate, capacity, 1⟩
  | .replenish capacity => ⟨t.gate, t.destination, capacity, 0⟩
  | .back i j capacity => ⟨1 + i, t.bucket j, capacity, 0⟩
  | .spare capacity => ⟨t.destination, t.sink, capacity, 0⟩
  | .recirculate capacity => ⟨t.sink, 0, capacity, 0⟩
  | .surplus node capacity => ⟨t.superSource, node, capacity, 0⟩
  | .deficit node capacity => ⟨node, t.superSink, capacity, 0⟩

/-- `account_nodes[id]`. -/
def accountNode (aa : List Cash) (id : String) : Nat :=
  1 + aa.findIdx (·.fact.accountId == id)

/-- What a route may take: the source's head. -/
def routeLimit (accounts : Accounts) (route : TransferTimingRoute) : I64 :=
  ((accounts.get? route.sourceAccountId).map fun a => a.head.clamp).getD 0

/-- `balance[node] = f(balance[node])?`. -/
def adjust (f : I64 → Checked I64) (balance : List I64) (node : Nat) : Checked (List I64) := do
  let n ← f (balance.getD node 0)
  pure (balance.set node n)

/-- The backing the destination lacks. -/
def backingDebt (accounts : Accounts) (destination : String) : Checked I64 :=
  match accounts.get? destination with
  | some a => if (a.backing : Int) < 0 then sub 0 a.backing else pure 0
  | none => pure 0

/-- The imbalances that the lower bounds leave at the nodes. -/
def imbalances (t : TransferNodes) (demands : Amounts) (cc : List CategoryLiquidityFact)
    (needed debt : I64) : Checked (List I64) := do
  let balance ← adjust (sub · needed) (List.replicate t.size 0) t.gate
  let balance ← adjust (add · needed) balance t.destination
  let balance ← adjust (sub · debt) balance t.destination
  let balance ← adjust (add · debt) balance t.sink
  cc.zipIdx.foldlM (fun balance c => do
    let balance ← adjust (sub · (bucketDemand demands c.1)) balance (t.bucket c.2)
    adjust (add · (bucketDemand demands c.1)) balance t.sink) balance

/-- The calls that connect accounts to bucket `j`. -/
def backArcs (demands : Amounts) (aa : List Cash) (c : CategoryLiquidityFact) (j : Nat) :
    List TransferArc :=
  aa.zipIdx.flatMap fun a => if edge a.1 c then [.back a.2 j (bucketDemand demands c)] else []

/-- The calls before the imbalances are discharged. -/
def transferArcs (accounts : Accounts) (demands : Amounts) (aa : List Cash)
    (cc : List CategoryLiquidityFact) (routes : List (Instant × TransferTimingRoute))
    (capacity room : I64) : List TransferArc :=
  (aa.zipIdx.map fun a => .supply a.2 (backingCash a.1)) ++
    (routes.map fun r => .route (accountNode aa r.2.sourceAccountId) (routeLimit accounts r.2)) ++
    .replenish room :: (cc.zipIdx.flatMap fun c => backArcs demands aa c.1 c.2) ++
    [.spare capacity, .recirculate capacity]

/-- Discharge the imbalance of one node. -/
def discharge (s : List TransferArc × I64) (entry : I64 × Nat) : Checked (List TransferArc × I64) :=
  if 0 < (entry.1 : Int) then do
    let target ← add s.2 entry.1
    pure (s.1 ++ [.surplus entry.2 entry.1], target)
  else if (entry.1 : Int) < 0 then do
    let n ← sub 0 entry.1
    pure (s.1 ++ [.deficit entry.2 n], s.2)
  else pure s

/-- What a route carries; other calls are not read back. -/
def readRoute (g : Graph) (amounts : List I64) (line : TransferArc × Nat) : Checked (List I64) :=
  match line.1 with
  | .route node _ => do
    let n ← carried g node line.2
    pure (amounts ++ [n])
  | _ => pure amounts

def minimumTransfers (accounts : Accounts) (categories : Categories) (demands : Amounts)
    (routes : List (Instant × TransferTimingRoute)) (destination : String) (needed : I64) :
    Checked (Option (List I64)) := do
  let aa := accounts.values
  let cc := categories.values
  let t : TransferNodes := ⟨aa.length, cc.length, accountNode aa destination⟩
  let capacity ← aa.foldlM (fun sum a => add sum (backingCash a)) 0
  let maximum ← routes.foldlM (fun sum r => add sum (routeLimit accounts r.2)) 0
  if (maximum : Int) < needed then pure none
  else do
    let room ← sub maximum needed
    let debt ← backingDebt accounts destination
    let balance ← imbalances t demands cc needed debt
    let (arcs, target) ← balance.zipIdx.foldlM discharge
      (transferArcs accounts demands aa cc routes capacity room, 0)
    let links := arcs.map (transferLink t)
    let (actual, graph) ← flow (connectAll t.size links) t.superSource t.superSink target
    if actual ≠ target then pure none
    else some <$> (arcs.zip (positionsFrom (connectAll t.size []) links)).foldlM (readRoute graph) []

/-! ## Transfers -/

structure TransferSolution where
  legs : List TransferLeg
  backingAfter : BackingAllocation

structure TransferNeed where
  destination : String
  shortfall : I64
  requiredBy : Instant

/-- A route leads to the destination from another account. -/
def TransferTimingRoute.leadsTo (route : TransferTimingRoute) (destination : String) : Bool :=
  route.destinationAccountId == destination && route.sourceAccountId != destination

/-- Keep a route that can be used; note one whose evidence is missing. -/
def collectRoute (input : LiquidityInput) (accounts : Accounts) (destination currency : String)
    (now : Instant) (s : List (Instant × TransferTimingRoute) × Bool)
    (route : TransferTimingRoute) : Checked (List (Instant × TransferTimingRoute) × Bool) :=
  if !route.leadsTo destination then pure s
  else
    match accounts.get? route.sourceAccountId with
    | none => pure (s.1, true)
    | some source =>
      if !mayTransfer source then pure s
      else if !source.known then pure (s.1, true)
      else if source.fact.currency != currency || decide ((source.head : Int) ≤ 0) then pure s
      else
        match arrival route now input.maxBudgetSnapshotAgeMinutes with
        | .error _ => pure (s.1, true)
        | .ok t => do
          let ends ← instant input.horizon.endsAt
          pure (if t < ends then (s.1 ++ [(t, route)], s.2) else (s.1, true))

/-- Routes are tried by arrival, then source, then identity. -/
def routeOrder (r : Instant × TransferTimingRoute) : Instant ×ₗ String ×ₗ String :=
  toLex (r.1, toLex (r.2.sourceAccountId, r.2.id))

/-- The first route of every source. -/
def firstBySource (seen : List String) :
    List (Instant × TransferTimingRoute) → List (Instant × TransferTimingRoute)
  | [] => []
  | r :: rest =>
    if seen.contains r.2.sourceAccountId then firstBySource seen rest
    else r :: firstBySource (r.2.sourceAccountId :: seen) rest

/-- One leg: what the accounts were before, and the move. -/
def transferLeg (destination currency : String) (required : Instant)
    (s : Accounts × List TransferLeg) (step : (Instant × TransferTimingRoute) × I64) :
    Checked (Accounts × List TransferLeg) :=
  if step.2 = 0 then pure s
  else do
    let route := step.1.2
    let source ← orStop (s.1.get? route.sourceAccountId) "source_not_found"
    let dest ← orStop (s.1.get? destination) "destination_not_found"
    let work ← moveCash s.1 route.sourceAccountId destination step.2
    pure (work, s.2 ++ [
      { id := "leg-" ++ toString (s.2.length + 1)
        sourceAccountId := route.sourceAccountId
        destinationAccountId := destination
        amount := m step.2 currency
        requiredBy := stamp required
        estimatedArrival := stamp step.1.1
        timingRouteId := route.id
        sourceBefore := precondition source
        destinationBefore := precondition dest
        sourceAfter := m (((work.get? route.sourceAccountId).map Cash.head).getD 0) currency
        destinationAfter := m (((work.get? destination).map Cash.head).getD 0) currency }])

/-- The routes to use and their amounts: on time if that is enough, else all. -/
def chooseRoutes (accounts : Accounts) (categories : Categories) (demands : Amounts)
    (routes : List (Instant × TransferTimingRoute)) (need : TransferNeed) :
    Checked (Option (List ((Instant × TransferTimingRoute) × I64))) := do
  let onTime := routes.takeWhile fun r => decide (r.1 ≤ need.requiredBy)
  match ← minimumTransfers accounts categories demands onTime need.destination need.shortfall with
  | some amounts => pure (some (onTime.zip amounts))
  | none =>
    if onTime.length ≠ routes.length then do
      let amounts ← minimumTransfers accounts categories demands routes need.destination
        need.shortfall
      pure (amounts.map routes.zip)
    else pure none

def transfer (input : LiquidityInput) (accounts : Accounts) (categories : Categories)
    (demands : Amounts) (need : TransferNeed) (now : Instant) (prior : BackingAllocation) :
    Checked (Option TransferSolution × Bool) := do
  let dest ← orStop (accounts.get? need.destination) "destination_not_found"
  if !dest.known || dest.fact.kind != .cash || !payment dest then pure (none, true)
  else do
    let currency := dest.fact.currency
    let (routes, unknown) ← input.liquidityPolicy.transferRoutes.foldlM
      (collectRoute input accounts need.destination currency now) ([], false)
    let routes := firstBySource [] (sortOn routeOrder routes)
    match ← chooseRoutes accounts categories demands routes need with
    | none => pure (none, unknown)
    | some steps => do
      let (work, legs) ← steps.foldlM (transferLeg need.destination currency need.requiredBy)
        (accounts, [])
      if legs.isEmpty then pure (none, unknown)
      else do
        let backingAfter ← allocation input work categories demands (some prior)
        pure (if backingAfter.feasible then some ⟨legs, backingAfter⟩ else none, unknown)

/-! ## Paying -/

/-- A trusted route with a reference. -/
def trustedRoute (route : Option TrustedRoute) : Option String :=
  (route.filter (·.referenceId != "")).map (·.accountId)

def selected (route : RouteSelection) : Option String × String :=
  match route.explicitAccountId with
  | some id => (some id, "explicit")
  | none =>
    match route.sessionAccountId with
    | some id => (some id, "session")
    | none =>
      match trustedRoute route.approvedPreference with
      | some id => (some id, "approved_preference")
      | none =>
        match trustedRoute route.historicalRoute with
        | some id => (some id, "historical_route")
        | none => (none, "none")

/-- `purchase_at[..7]`, of a text that was read as an instant. -/
def purchaseMonth (purchaseAt : String) : String := String.ofList (purchaseAt.toList.take 7)

/-- The checks before a payment: the account, the amount and the category. -/
def paymentTerms (accounts : Accounts) (categories : Categories) (item : LiquidityPurchaseItem)
    (accountId : String) : Checked (Cash × I64 × CategoryLiquidityFact) := do
  let a ← orStop (accounts.get? accountId) "selected_account_not_found"
  reject (!payment a) "selected_account_unavailable"
  let n ← units item.amount a.fact.currency true
  let category ← orStop (monthCategory categories item.categoryId (purchaseMonth item.purchaseAt))
    "category_not_found"
  let _ ← units item.amount category.availability.currency true
  reject (category.kind != .ordinary) "category_not_ordinary_spending"
  reject (!a.policy.eligibleCategoryIds.isEmpty &&
    !a.policy.eligibleCategoryIds.contains item.categoryId) "payment_category_ineligible"
  pure (a, n, category)

/-- The category a card payment is reserved in. -/
def creditCategory (input : LiquidityInput) (categories : Categories) (now : Instant)
    (item : LiquidityPurchaseItem) (credit : CreditLiquidityFact) :
    Checked CategoryLiquidityFact := do
  known credit.evidence now input.maxBudgetSnapshotAgeMinutes
  let due ← instant credit.dueAt
  let purchaseAt ← instant item.purchaseAt
  let ends ← if due < purchaseAt then pure due else instant input.horizon.endsAt
  reject (decide (due < purchaseAt) || decide (ends ≤ due)) "credit_due_outside_horizon"
  let category ← orStop
    (monthCategory categories credit.paymentCategoryId (purchaseMonth item.purchaseAt))
    "credit_payment_category_missing"
  reject (category.kind != .creditPayment ||
    category.availability.currency != item.amount.currency) "credit_payment_category_invalid"
  pure category

/-- Charge a card. -/
def chargeCard (a : Cash) (n : I64) : Checked (Cash × I64 × I64) := do
  let auth ← orStop a.authorization "credit_authorization_unknown"
  let after ← sub auth n
  let a ← checkedRefresh { a with authorization := some after, head := after }
  pure (a, auth, after)

/-- Set aside a card payment. -/
def reservePayment (accounts : Accounts) (item : LiquidityPurchaseItem) (id : String) (n : I64) :
    Checked Cash := do
  let a ← orStop (accounts.get? id) "credit_payment_account_missing"
  reject (!payment a || a.fact.kind != .cash || a.fact.currency != item.amount.currency)
    "credit_payment_account_unavailable"
  let head ← sub a.head n
  checkedRefresh { a with head := head }

/-- What a payment leaves. -/
structure Spent where
  accounts : Accounts
  demands : Amounts
  credit : Option CreditPaymentResult

/-- The payment by card. -/
def spendCredit (accounts : Accounts) (categories : Categories) (demands : Amounts)
    (item : LiquidityPurchaseItem) (a : Cash) (accountId : String) (n : I64)
    (input : LiquidityInput) (now : Instant) : Checked Spent := do
  let credit ← orStop a.fact.credit "credit_payment_unknown"
  let category ← creditCategory input categories now item credit
  let (a, auth, after) ← chargeCard a n
  let accounts := accounts.insert accountId a
  let b ← reservePayment accounts item credit.paymentAccountId n
  let accounts := accounts.insert credit.paymentAccountId b
  let reserve ← orStop (demands.get? category.cashBucketId) "credit_payment_category_missing"
  let reserve ← add reserve n
  pure {
    accounts := accounts
    demands := demands.insert category.cashBucketId reserve
    credit := some
      { accountId := accountId
        authorizationAvailable := m auth item.amount.currency
        authorizationAfter := m after item.amount.currency
        paymentAccountId := credit.paymentAccountId
        paymentCategoryId := credit.paymentCategoryId
        dueAt := credit.dueAt
        additionalPaymentCash := item.amount
        paymentCashReady := decide (0 ≤ (b.head : Int)) } }

def spend (accounts : Accounts) (categories : Categories) (demands : Amounts)
    (item : LiquidityPurchaseItem) (accountId : String) (input : LiquidityInput) (now : Instant) :
    Checked Spent := do
  let (a, n, category) ← paymentTerms accounts categories item accountId
  let demand ← orStop (demands.get? category.cashBucketId) "category_not_found"
  let demand ← sub demand n
  let demands := demands.insert category.cashBucketId demand
  if a.fact.kind == .credit then
    spendCredit accounts categories demands item a accountId n input now
  else do
    let a ← withdraw a n
    pure { accounts := accounts.insert accountId a, demands := demands, credit := none }

end BalanceFrame.Liquidity
