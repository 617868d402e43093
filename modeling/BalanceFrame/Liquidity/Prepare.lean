import BalanceFrame.Library.SortedMap
import BalanceFrame.Liquidity.Evidence
import BalanceFrame.Liquidity.Flow
import Mathlib.Data.Prod.Lex

/-!
# Preparing an account

Model of `Cash`, `eligible`, `payment`, `edge`, `refresh`, `deduct` and `prepare_account`
(`crates/financial-core/src/liquidity_engine.rs`). The source prepares an account in place: what
was deducted before an error stays in the output. Here a preparation step returns the account, and
a step that fails returns it inside the error (`Stop`), as it stood.
-/

namespace BalanceFrame.Liquidity

open Library

/-- `Cash`: an account under evaluation. -/
structure Cash where
  fact : AccountLiquidityFact
  policy : AccountLiquidityPolicy
  output : AccountCapacity
  head : I64
  backing : I64
  adjusted : I64
  known : Bool
  authorization : Option I64
  deriving DecidableEq

/-- `BTreeMap<String, Cash>`. -/
abbrev Accounts := SortedMap String Cash

/-- `BTreeMap<String, CategoryLiquidityFact>`, by cash bucket. -/
abbrev Categories := SortedMap String CategoryLiquidityFact

/-- Amounts by cash bucket. -/
abbrev Amounts := SortedMap String I64

/-- Why a preparation stopped, and the account as it stood. -/
structure Stop where
  reason : String
  account : Cash

/-- A preparation step. -/
abbrev Prep (α : Type) := Except Stop α

/-- Run a check; a failure stops at `a`. -/
def stopAt {α : Type} (a : Cash) (x : Checked α) : Prep α := x.mapError fun reason => ⟨reason, a⟩

@[simp] theorem stopAt_ok {α : Type} (a : Cash) (v : α) : stopAt a (.ok v) = .ok v := rfl

@[simp] theorem stopAt_eq_ok {α : Type} {a : Cash} {x : Checked α} {v : α} :
    stopAt a x = .ok v ↔ x = .ok v := by
  cases x <;> simp [stopAt, Except.mapError]

def eligible (p : AccountLiquidityPolicy) (f : AccountLiquidityFact) : Bool :=
  f.onBudget && !f.closed && f.owned && p.role != .excluded

/-- `payment`: the account may pay. -/
def payment (a : Cash) : Bool :=
  a.known && eligible a.policy a.fact && a.policy.paymentEligible && a.policy.role != .restricted

/-- `edge`: the account may back the category's bucket. -/
def edge (a : Cash) (c : CategoryLiquidityFact) : Bool :=
  if !a.known || !eligible a.policy a.fact || !a.policy.backingEligible || a.fact.kind != .cash ||
      a.fact.currency != c.availability.currency then false
  else if !a.policy.eligibleCategoryIds.isEmpty &&
      !a.policy.eligibleCategoryIds.contains c.categoryId then false
  else a.policy.role != .restricted ||
    (a.policy.restrictedCashBucketIds.contains c.cashBucketId &&
      a.policy.eligibleCategoryIds.contains c.categoryId)

/-- The account may send a transfer. -/
def mayTransfer (a : Cash) : Bool :=
  eligible a.policy a.fact && a.policy.sourceEligible && a.fact.kind == .cash &&
    a.policy.role != .restricted

/-- The account may back category demand. -/
def mayBack (a : Cash) : Bool :=
  a.policy.backingEligible && eligible a.policy a.fact && a.fact.kind == .cash

/-- `refresh`: rewrite the reported capacities of a known account. -/
def refresh (a : Cash) : Prep Cash :=
  if a.known then do
    let c := a.fact.currency
    let a := { a with output := { a.output with
      adjustedCash := some (m a.adjusted c), signedHeadroom := some (m a.head c) } }
    let shortfall ← stopAt a (if (a.head : Int) < 0 then sub 0 a.head else pure 0)
    pure { a with output := { a.output with
      existingShortfall := some (m shortfall c)
      safeSpendingCapacity := some (m (if payment a then a.head.clamp else 0) c)
      safeTransferCapacity := some (m (if mayTransfer a then a.head.clamp else 0) c)
      backingCapacity := some (m (if mayBack a then a.backing.clamp else 0) c) } }
  else pure a

/-- `refresh`, where a failure drops the account. -/
def checkedRefresh (a : Cash) : Checked Cash := (refresh a).mapError Stop.reason

/-- Record a deduction. -/
def Cash.addDeduction (a : Cash) (d : CapacityDeduction) : Cash :=
  { a with output := { a.output with deductions := a.output.deductions ++ [d] } }

/-- Record a reason. -/
def Cash.addReason (a : Cash) (reason : String) : Cash :=
  { a with output := { a.output with reasons := a.output.reasons ++ [reason] } }

def deduct (a : Cash) (n : I64) (reason id : String) (backing : Bool) : Prep Cash := do
  let head ← stopAt a (sub a.head n)
  let a := { a with head := head }
  let backed ← stopAt a (if backing then sub a.backing n else pure a.backing)
  let a := { a with backing := backed }
  pure (a.addDeduction { reason := reason, evidenceId := id, amount := m n a.fact.currency,
                         affectsBacking := backing })

def monthCategory (categories : Categories) (categoryId month : String) :
    Option CategoryLiquidityFact :=
  categories.values.find? fun c => c.categoryId == categoryId && c.asOfMonth == month

def currentCategory (categories : Categories) (categoryId : String) (input : LiquidityInput) :
    Option CategoryLiquidityFact :=
  input.facts.bind fun facts => monthCategory categories categoryId facts.asOfMonth

/-! ## The steps of `prepare_account` -/

/-- An account before anything is known about it. -/
def openingCash (f : AccountLiquidityFact) (p : AccountLiquidityPolicy) : Cash where
  fact := f
  policy := p
  output :=
    { accountId := f.accountId, recordedBalance := f.recordedBalance, adjustedCash := none
      signedHeadroom := none, existingShortfall := none, safeSpendingCapacity := none
      safeTransferCapacity := none, backingCapacity := none, deductions := [], reasons := [] }
  head := 0
  backing := 0
  adjusted := 0
  known := false
  authorization := none

/-- The eight pieces of evidence every account needs, in the order they are checked. -/
def accountEvidence (f : AccountLiquidityFact) : List FactEvidence :=
  [f.balanceEvidence, f.activityEvidence, f.scheduleEvidence, f.currencyEvidence, f.kindEvidence,
    f.holdsEvidence, f.ownershipEvidence, f.freshnessEvidence]

/-- The checks on an account's own evidence. -/
def checkEvidence (f : AccountLiquidityFact) (now : Instant) (maxAge : Nat) : Checked Unit := do
  (accountEvidence f).forM fun e => known e now maxAge
  reject (f.freshnessEvidence.source != .institutionProvider &&
    f.freshnessEvidence.source != .userAttested) "account_freshness_unconfirmed"
  reject (f.kind == .unknown) "unknown_account_kind"
  reject (!f.ambiguityReasons.isEmpty) "ambiguous_account_evidence"

/-- The amounts and matched transactions of outflows, by economic identity. -/
abbrev Economic := SortedMap String (I64 × List String)

/-- `deducted`: the flow's effect on the balance is taken back. -/
def UnsettledFlow.deducted (flow : UnsettledFlow) : Bool :=
  flow.direction == .inflow && flow.includedInBalance ||
    flow.direction == .outflow && !flow.includedInBalance

/-- Take an unsettled flow out of the adjusted balance. -/
def excludeFlow (a : Cash) (flow : UnsettledFlow) (n : I64) : Prep Cash :=
  if flow.deducted then do
    let adjusted ← stopAt a (sub a.adjusted n)
    pure (Cash.addDeduction { a with adjusted := adjusted }
      { reason := if flow.direction == .inflow then "unsettled_inflow_excluded"
          else "unincluded_outflow"
        evidenceId := flow.id, amount := flow.amount, affectsBacking := true })
  else pure a

/-- One unsettled flow. -/
def recordFlow (s : Cash × Economic) (flow : UnsettledFlow) : Prep (Cash × Economic) := do
  let n ← stopAt s.1 (units flow.amount s.1.fact.currency true)
  stopAt s.1 (reject (flow.economicObligationId == "" ||
    (s.2.get? flow.economicObligationId).isSome) "ambiguous_economic_obligation")
  let a ← excludeFlow s.1 flow n
  pure (a, if flow.direction == .outflow then
    s.2.insert flow.economicObligationId (n, flow.matchedTransactionIds) else s.2)

/-- One of the identities names the flow. -/
def UnsettledFlow.linkedTo (flow : UnsettledFlow) (ids : List String) : Bool :=
  ids.any fun id => id == flow.id || flow.importedId == some id ||
    flow.matchedTransactionIds.contains id

/-- A cash reserve: amount, category, and the fact it comes from. -/
structure Reserve where
  amount : I64
  categoryId : Option String
  id : String
  deriving DecidableEq

/-- Reserves by economic identity. -/
abbrev Reserves := SortedMap String Reserve

/-- One obligation. -/
def reserveObligation (economic : Economic) (horizonEnd : Instant) (s : Cash × Reserves)
    (o : CashObligation) : Prep (Cash × Reserves) := do
  let n ← stopAt s.1 (units o.amount s.1.fact.currency true)
  let due ← stopAt s.1 (obligationDue o.dueAt horizonEnd)
  if !due || o.paid || o.includedInBalance then pure s
  else
    let a := if (bytes o.dueAt).length = 10 then
      s.1.addReason "date_only_obligation_reserved_conservatively" else s.1
    match a.fact.unsettledFlows.filter fun flow =>
        flow.direction == .outflow && flow.linkedTo o.matchedTransactionIds with
    | flow :: more => do
      stopAt a (reject (!more.isEmpty || flow.amount != o.amount) "ambiguous_obligation_match")
      pure (a, s.2)
    | [] =>
      match economic.get? o.economicObligationId with
      | some (existing, ids) => do
        stopAt a (reject (existing != n || (!ids.isEmpty && !o.matchedTransactionIds.isEmpty &&
          !o.matchedTransactionIds.any ids.contains)) "ambiguous_obligation_match")
        pure (a, s.2)
      | none =>
        match s.2.get? o.economicObligationId with
        | some old => do
          stopAt a (reject (old.amount != n || old.categoryId != o.categoryId)
            "ambiguous_obligation_match")
          pure (a, s.2)
        | none => pure (a, s.2.insert o.economicObligationId ⟨n, o.categoryId, o.id⟩)

/-- One schedule: an exact outflow due on this account has to be among its obligations. -/
def checkSchedule (f : AccountLiquidityFact) (horizonEnd : Instant)
    (schedule : ScheduleLiquidityFact) : Checked Unit :=
  if schedule.accountId.any (· != f.accountId) then pure ()
  else do
    let due ← orStop schedule.dueDate "schedule_horizon_unavailable"
    let isDue ← obligationDue due horizonEnd
    if !isDue then pure ()
    else do
      reject (schedule.certainty != .exact) "schedule_amount_uncertain"
      let amount ← orStop schedule.amount "schedule_amount_unknown"
      reject (amount.currency != f.currency) "currency_mismatch"
      if !amount.isNegative then pure ()
      else
        reject (!(f.obligations.any fun o => o.id == schedule.id ||
          o.economicObligationId == "schedule:" ++ schedule.id ++ ":" ++ due))
          "schedule_obligation_unaccounted"

/-- The reserve of one card whose payment account this is. -/
def reserveCard (f : AccountLiquidityFact) (economic : Economic) (now : Instant) (maxAge : Nat)
    (reserves : Reserves) (card : AccountLiquidityFact) : Checked Reserves :=
  match card.credit with
  | none => pure reserves
  | some credit =>
    if credit.paymentAccountId != f.accountId then pure reserves
    else do
      known credit.evidence now maxAge
      let n ← units credit.reservedCash f.currency true
      if (economic.get? credit.economicObligationId).isSome then pure reserves
      else
        match reserves.get? credit.economicObligationId with
        | some old => do
          reject (old.amount != n || old.categoryId != some credit.paymentCategoryId)
            "ambiguous_card_payment_reserve"
          pure reserves
        | none => pure (reserves.insert credit.economicObligationId
            ⟨n, some credit.paymentCategoryId, card.accountId⟩)

/-- Hold an unsettled destination credit, unless the flow it matches already is. -/
def holdDestination (a : Cash) (e : LiquidityClaimEffect) (n : I64) (flow : Option UnsettledFlow)
    (bundleId : String) : Prep Cash :=
  if e.includedInBalance &&
      !flow.any (fun flow => flow.direction == .inflow && flow.includedInBalance) then do
    let adjusted ← stopAt a (sub a.adjusted n)
    deduct { a with adjusted := adjusted } n "unsettled_destination_hold" bundleId true
  else pure a

/-- Reserve an account debit, unless a reserve with its source or own identity stands already. -/
def reserveEffect (reserves : Reserves) (matchedId : String) (e : LiquidityClaimEffect) (n : I64)
    (bundleId : String) : Checked Reserves :=
  match (reserves.get? matchedId).or (reserves.get? e.economicObligationId) with
  | some old => do
    reject (old.amount != n || old.categoryId != e.categoryId) "ambiguous_claim_match"
    pure reserves
  | none => pure (reserves.insert e.economicObligationId ⟨n, e.categoryId, bundleId⟩)

/-- The flow a claim effect stands for. -/
def matchingFlow (f : AccountLiquidityFact) (matchedId : String) (e : LiquidityClaimEffect) :
    Option UnsettledFlow :=
  f.unsettledFlows.find? fun flow =>
    flow.economicObligationId == matchedId || flow.linkedTo e.matchedTransactionIds

/-- One effect of an active claim bundle. -/
def applyEffect (economic : Economic) (bundleId : String) (s : Cash × Reserves)
    (e : LiquidityClaimEffect) : Prep (Cash × Reserves) :=
  if e.resourceId != s.1.fact.accountId || e.kind == .category then pure s
  else do
    let n ← stopAt s.1 (units e.amount s.1.fact.currency true)
    let matchedId ← stopAt s.1 e.matchedObligationId
    let flow := matchingFlow s.1.fact matchedId e
    stopAt s.1 (reject (flow.any (·.amount != e.amount)) "claim_flow_amount_mismatch")
    if e.kind == .destinationHold then do
      let a ← holdDestination s.1 e n flow bundleId
      pure (a, s.2)
    else do
      stopAt s.1 (reject ((economic.get? matchedId).any (·.1 != n)) "ambiguous_claim_match")
      if e.includedInBalance || (economic.get? matchedId).isSome ||
          flow.any (·.direction == .outflow) then pure s
      else do
        let reserves ← stopAt s.1 (reserveEffect s.2 matchedId e n bundleId)
        pure (s.1, reserves)

/-- One claim bundle. -/
def applyBundle (economic : Economic) (now : Instant) (s : Cash × Reserves)
    (b : LiquidityClaimBundle) : Prep (Cash × Reserves) := do
  let isActive ← stopAt s.1 (active b now)
  if isActive then b.effects.foldlM (applyEffect economic b.id) s else pure s

/-- How much of a reserve its category covers, and the bucket totals after it. -/
def coverReserve (input : LiquidityInput) (categories : Categories) (now : Instant)
    (currency : String) (used : Amounts) (r : Reserve) : Checked (I64 × Amounts) :=
  match r.categoryId with
  | none => pure (0, used)
  | some cat => do
    let category ← orStop (currentCategory categories cat input) "unknown_obligation_category"
    known category.evidence now input.maxBudgetSnapshotAgeMinutes
    let available ← units category.availability currency false
    let before := (used.get? category.cashBucketId).getD 0
    let left ← sub available.clamp before
    let covered := r.amount.least left.clamp
    let after ← add before covered
    pure (covered, used.insert category.cashBucketId after)

/-- Deduct one reserve: its covered part from the head only, the rest from the backing too. -/
def applyReserve (input : LiquidityInput) (categories : Categories) (now : Instant)
    (s : Cash × Amounts) (r : Reserve) : Prep (Cash × Amounts) := do
  let (covered, used) ← stopAt s.1
    (coverReserve input categories now s.1.fact.currency s.2 r)
  let a ← deduct s.1 covered "funded_category_obligation" r.id false
  let rest ← stopAt a (sub r.amount covered)
  let a ← deduct a rest "unbacked_obligation_reserve" r.id true
  pure (a, used)

/-- The authorization left after pending card outflows. -/
def cardAuthorization (f : AccountLiquidityFact) (now : Instant) (maxAge : Nat) : Checked I64 := do
  let credit ← orStop f.credit "credit_payment_unknown"
  known credit.evidence now maxAge
  let auth ← units credit.authorizationAvailable f.currency true
  if credit.pendingIncludedInAuthorization then pure auth
  else f.unsettledFlows.foldlM (fun auth flow =>
    if flow.direction == .outflow then do
      let n ← units flow.amount f.currency true
      sub auth n
    else pure auth) auth

/-- A card's head is its authorization; it backs nothing. -/
def applyCredit (a : Cash) (now : Instant) (maxAge : Nat) : Prep Cash :=
  if a.fact.kind == .credit then do
    let auth ← stopAt a (cardAuthorization a.fact now maxAge)
    pure { a with authorization := some auth, head := auth, backing := 0 }
  else pure a

/-- The balance, the flows and the two fixed deductions. -/
def openBalance (a : Cash) : Prep (Cash × Economic) := do
  let adjusted ← stopAt a (units a.fact.recordedBalance a.fact.currency false)
  let a := { a with adjusted := adjusted }
  stopAt a (unique (a.fact.unsettledFlows.map (·.id)))
  stopAt a (unique (a.fact.obligations.map (·.id)))
  stopAt a (unique (a.fact.unsettledFlows.map (·.economicObligationId)))
  let (a, economic) ← a.fact.unsettledFlows.foldlM recordFlow (a, SortedMap.empty)
  let a := { a with head := a.adjusted, backing := a.adjusted }
  let buffer ← stopAt a (units a.policy.protectedBuffer a.fact.currency true)
  let a ← deduct a buffer "protected_buffer" a.policy.accountId true
  let holds ← stopAt a (units a.fact.holds a.fact.currency true)
  let a ← deduct a holds "hold" a.fact.accountId true
  pure (a, economic)

/-- The reserves of the account's own obligations and of the cards it pays. -/
def openReserves (input : LiquidityInput) (now : Instant) (economic : Economic) (a : Cash) :
    Prep (Cash × Reserves) := do
  let horizonEnd ← stopAt a (instant input.horizon.endsAt)
  let (a, reserves) ← a.fact.obligations.foldlM (reserveObligation economic horizonEnd)
    (a, SortedMap.empty)
  stopAt a ((input.facts.elim [] (·.schedules)).forM (checkSchedule a.fact horizonEnd))
  let reserves ← stopAt a ((input.facts.elim [] (·.accounts)).foldlM
    (reserveCard a.fact economic now input.maxBudgetSnapshotAgeMinutes) reserves)
  pure (a, reserves)

/-- The closure of `prepare_account`, for an eligible account. -/
def prepareSteps (input : LiquidityInput) (categories : Categories) (now : Instant)
    (funded : Amounts) (a : Cash) : Prep (Cash × Amounts) := do
  stopAt a (checkEvidence a.fact now input.maxBudgetSnapshotAgeMinutes)
  let (a, economic) ← openBalance a
  let s ← openReserves input now economic a
  let (a, reserves) ← input.claimSet.bundles.foldlM (applyBundle economic now) s
  let (a, funded) ← reserves.values.foldlM (applyReserve input categories now) (a, funded)
  let a ← applyCredit a now input.maxBudgetSnapshotAgeMinutes
  let a ← refresh { a with known := true }
  pure (a, funded)

/-- `prepare_account`: the account and the bucket totals its obligations use up. -/
def prepareAccount (f : AccountLiquidityFact) (p : AccountLiquidityPolicy) (input : LiquidityInput)
    (categories : Categories) (now : Instant) (funded : Amounts) : Cash × Amounts :=
  let a := openingCash f p
  if !input.sourceCoverageComplete then (a.addReason "incomplete_source_coverage", funded)
  else if !eligible p f then (a.addReason "account_ineligible", funded)
  else
    match prepareSteps input categories now funded a with
    | .ok (a, used) => (a, used)
    | .error stop => (Cash.addReason { stop.account with known := false } stop.reason, funded)

end BalanceFrame.Liquidity

/-!
## Backing allocation

Model of `identity` and `allocation` (`crates/financial-core/src/liquidity_engine.rs`). The network
has a source, one node for each account, one for each cash bucket, and a sink. A `BackingArc` names
one `connect` call, `backingArcs` lists the calls in the source's order, and `backingLink` gives
their arguments.
-/

namespace BalanceFrame.Liquidity

open Library

/-- `identity`: an empty allocation bound to the input. -/
def identity (input : LiquidityInput) : BackingAllocation where
  version := "1"
  snapshotId := input.snapshotId
  contentHash := input.contentHash
  policyVersion := input.liquidityPolicy.version
  policyHash := input.liquidityPolicy.policyHash
  claimSetRevision := input.claimSet.revision
  feasible := false
  lines := []
  reasons := []

/-- A prior allocation is trusted when it is bound to the same input. -/
def trusted (input : LiquidityInput) (p : BackingAllocation) : Bool :=
  p.version == "1" && p.snapshotId == input.snapshotId && p.contentHash == input.contentHash &&
    p.policyVersion == input.liquidityPolicy.version &&
    p.policyHash == input.liquidityPolicy.policyHash &&
    p.claimSetRevision == input.claimSet.revision

/-- Amounts to retain, by account and bucket. -/
abbrev Retained := SortedMap (String ×ₗ String) I64

/-- Retain one prior line; a repeated pair retains nothing. -/
def retainLine (accounts : Accounts) (categories : Categories) (retained : Retained)
    (line : BackingLine) : Retained :=
  match accounts.get? line.accountId, categories.get? line.cashBucketId with
  | some a, some c =>
    if line.categoryId == c.categoryId && edge a c &&
        line.amount.currency == c.availability.currency && !line.amount.isNegative then
      retained.insert (toLex (line.accountId, line.cashBucketId))
        (if (retained.get? (toLex (line.accountId, line.cashBucketId))).isSome then 0
          else line.amount.minorUnits)
    else retained
  | _, _ => retained

/-- What a trusted prior allocation asks to keep. -/
def retainedLines (input : LiquidityInput) (accounts : Accounts) (categories : Categories)
    (prior : Option BackingAllocation) : Retained :=
  ((prior.filter (trusted input)).elim [] (·.lines)).foldl (retainLine accounts categories)
    SortedMap.empty

/-- The cash an account offers. -/
def backingCash (a : Cash) : I64 := ((a.output.backingCapacity.map Money.minorUnits).getD 0).clamp

/-- The demand of a bucket. -/
def bucketDemand (demands : Amounts) (c : CategoryLiquidityFact) : I64 :=
  ((demands.get? c.cashBucketId).getD 0).clamp

/-- One `connect` call of `allocation`: account `i`'s supply, bucket `j`'s demand, and between them
what is kept and what is free. -/
inductive BackingArc
  | supply (i : Nat) (capacity : I64)
  | demand (j : Nat) (capacity : I64)
  | kept (i j : Nat) (capacity : I64)
  | free (i j : Nat) (capacity : I64)
  deriving DecidableEq

/-- The arguments of the call, with `n` accounts and `k` buckets. -/
def backingLink (n k : Nat) : BackingArc → Link
  | .supply i capacity => ⟨0, 1 + i, capacity, 0⟩
  | .demand j capacity => ⟨1 + n + j, 1 + n + k, capacity, 0⟩
  | .kept i j capacity => ⟨1 + i, 1 + n + j, capacity, I64.ofInt (-1)⟩
  | .free i j capacity => ⟨1 + i, 1 + n + j, capacity, 0⟩

/-- The calls that connect account `i` to bucket `j`. -/
def pairArcs (retained : Retained) (demands : Amounts) (c : CategoryLiquidityFact) (j : Nat)
    (a : Cash) (i : Nat) : List BackingArc :=
  if edge a c then
    let keep := ((retained.get? (toLex (a.fact.accountId, c.cashBucketId))).getD 0).least
      (bucketDemand demands c)
    (if 0 < (keep : Int) then [.kept i j keep] else []) ++ [.free i j (bucketDemand demands c)]
  else []

/-- The calls for bucket `j`. -/
def bucketArcs (retained : Retained) (demands : Amounts) (aa : List Cash)
    (c : CategoryLiquidityFact) (j : Nat) : List BackingArc :=
  .demand j (bucketDemand demands c) ::
    aa.zipIdx.flatMap fun a => pairArcs retained demands c j a.1 a.2

/-- All calls, in order. -/
def backingArcs (retained : Retained) (demands : Amounts) (aa : List Cash)
    (cc : List CategoryLiquidityFact) : List BackingArc :=
  (aa.zipIdx.map fun a => .supply a.2 (backingCash a.1)) ++
    cc.zipIdx.flatMap fun c => bucketArcs retained demands aa c.1 c.2

/-- The account and bucket a line is read back for. -/
def BackingArc.pair? : BackingArc → Option (Nat × Nat)
  | .kept i j _ => some (i, j)
  | .free i j _ => some (i, j)
  | _ => none

/-- Add what one pair's connection carries to the pair's total. -/
def addLine (g : Graph) (totals : SortedMap (Nat ×ₗ Nat) I64) (line : BackingArc × Nat) :
    Checked (SortedMap (Nat ×ₗ Nat) I64) :=
  match line.1.pair? with
  | none => pure totals
  | some (i, j) => do
    let n ← carried g (1 + i) line.2
    let total ← add ((totals.get? (toLex (i, j))).getD 0) n
    pure (totals.insert (toLex (i, j)) total)

/-- The line of a pair with a positive total. -/
def backingLine (aa : List Cash) (cc : List CategoryLiquidityFact) (e : (Nat ×ₗ Nat) × I64) :
    Option BackingLine :=
  if 0 < (e.2 : Int) then
    match aa[(ofLex e.1).1]?, cc[(ofLex e.1).2]? with
    | some a, some c => some { accountId := a.fact.accountId, categoryId := c.categoryId
                               cashBucketId := c.cashBucketId
                               amount := m e.2 c.availability.currency }
    | _, _ => none
  else none

/-- The sum of the demands. -/
def backingTarget (demands : Amounts) (cc : List CategoryLiquidityFact) : Checked I64 :=
  cc.foldlM (fun target c => add target (bucketDemand demands c)) 0

/-- Some eligible account is not known. -/
def anyUnknown (accounts : Accounts) : Bool :=
  accounts.values.any fun a => eligible a.policy a.fact && !a.known

def allocation (input : LiquidityInput) (accounts : Accounts) (categories : Categories)
    (demands : Amounts) (prior : Option BackingAllocation) : Checked BackingAllocation := do
  let aa := accounts.values
  let cc := categories.values
  let sink := 1 + aa.length + cc.length
  let retained := retainedLines input accounts categories prior
  let arcs := backingArcs retained demands aa cc
  let links := arcs.map (backingLink aa.length cc.length)
  let target ← backingTarget demands cc
  let (actual, graph) ← flow (connectAll (sink + 1) links) 0 sink target
  if actual ≠ target then
    pure { identity input with reasons :=
      [if anyUnknown accounts then "incomplete_backing_evidence" else "insufficient_cash_backing"] }
  else do
    let totals ← (arcs.zip (positionsFrom (connectAll (sink + 1) []) links)).foldlM (addLine graph)
      SortedMap.empty
    pure { identity input with
      feasible := true, lines := totals.entries.filterMap (backingLine aa cc) }

end BalanceFrame.Liquidity
