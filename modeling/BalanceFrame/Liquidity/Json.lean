import BalanceFrame.Liquidity.Facts
import BalanceFrame.Library.Sha256
import BalanceFrame.Library.Sorting

/-!
# Serialized values

Model of the `serde_json` values that the engine hashes: facts, policy, claims, scenario, horizon
and transfer plans. An object's entries are kept in declaration order; `serde_json` stores them
sorted by key, which shows only in the text, so `render` writes them in key order.
-/

namespace BalanceFrame.Liquidity

open Library

/-- `serde_json::Value`, without fractions. -/
inductive Json
  | null
  | bool (b : Bool)
  | number (n : Int)
  | string (s : String)
  | array (values : List Json)
  | object (entries : List (String × Json))

namespace Json

/-! ## Text -/

/-- `w` lowercase hexadecimal digits of `n`. -/
def hexDigits (w n : Nat) : List Char :=
  (List.range w).reverse.map fun k => Nat.digitChar (n / 16 ^ k % 16)

/-- How `serde_json` escapes a character. -/
def escape (c : Char) : List Char :=
  match c.toNat with
  | 0x22 => ['\\', '"']
  | 0x5c => ['\\', '\\']
  | 0x08 => ['\\', 'b']
  | 0x09 => ['\\', 't']
  | 0x0a => ['\\', 'n']
  | 0x0c => ['\\', 'f']
  | 0x0d => ['\\', 'r']
  | n => if n < 0x20 then '\\' :: 'u' :: hexDigits 4 n else [c]

/-- A quoted string. -/
def quote (s : String) : List Char := '"' :: s.toList.flatMap escape ++ ['"']

/-- Texts between brackets, with commas. -/
def enclose (left right : Char) (texts : List (List Char)) : List Char :=
  left :: (texts.intersperse [',']).flatten ++ [right]

mutual

/-- `serde_json::to_string`, as characters. -/
def render : Json → List Char
  | null => "null".toList
  | bool b => (if b then "true" else "false").toList
  | number n => (toString n).toList
  | string s => quote s
  | array values => enclose '[' ']' (renderValues values)
  | object entries => enclose '\x7b' '\x7d'
      ((sortOn Prod.fst (renderEntries entries)).map Prod.snd)

/-- The texts of an array. -/
def renderValues : List Json → List (List Char)
  | [] => []
  | v :: rest => render v :: renderValues rest

/-- The keys of an object, and the texts of its entries. -/
def renderEntries : List (String × Json) → List (String × List Char)
  | [] => []
  | (key, v) :: rest => (key, quote key ++ ':' :: render v) :: renderEntries rest

end

/-- `serde_json::to_string`. -/
def toText (v : Json) : String := String.ofList v.render

/-! ## Objects -/

/-- `object.get(key)`. -/
def get? (entries : List (String × Json)) (key : String) : Option Json :=
  (entries.find? (·.1 == key)).map Prod.snd

/-- `object.remove(key)`. -/
def remove (entries : List (String × Json)) (key : String) : List (String × Json) :=
  entries.filter (·.1 != key)

/-- `value.as_object_mut()` with `remove(key)`; other values stay. -/
def without (key : String) : Json → Json
  | object entries => object (remove entries key)
  | v => v

def asStr : Json → Option String
  | string s => some s
  | _ => none

/-- `None` is `null`. -/
def option {α : Type} (f : α → Json) : Option α → Json
  | none => null
  | some a => f a

def list {α : Type} (f : α → Json) (l : List α) : Json := array (l.map f)

def strings (l : List String) : Json := list string l

def nat (n : Nat) : Json := number n

end Json

open Json

/-! ## Facts -/

def Money.json (v : Money) : Json :=
  object [("minorUnits", string (toString (v.minorUnits : Int))), ("currency", string v.currency)]

def FactState.json : FactState → Json
  | .known => string "known"
  | .unknown => string "unknown"
  | .unavailable => string "unavailable"

def FactSource.json : FactSource → Json
  | .actualLedger => string "actual_ledger"
  | .institutionProvider => string "institution_provider"
  | .userAttested => string "user_attested"
  | .policyAssumption => string "policy_assumption"

def FactEvidence.json (e : FactEvidence) : Json :=
  object [("state", e.state.json), ("source", e.source.json),
    ("observedAt", option string e.observedAt), ("expiresAt", option string e.expiresAt),
    ("reasons", strings e.reasons)]

def LiquidityAccountKind.json : LiquidityAccountKind → Json
  | .cash => string "cash"
  | .credit => string "credit"
  | .unknown => string "unknown"

def AccountRole.json : AccountRole → Json
  | .dailySpending => string "daily_spending"
  | .billPayment => string "bill_payment"
  | .reserve => string "reserve"
  | .savings => string "savings"
  | .restricted => string "restricted"
  | .creditPayment => string "credit_payment"
  | .cash => string "cash"
  | .excluded => string "excluded"

def LiquidityCategoryKind.json : LiquidityCategoryKind → Json
  | .ordinary => string "ordinary"
  | .income => string "income"
  | .transfer => string "transfer"
  | .reimbursement => string "reimbursement"
  | .debt => string "debt"
  | .creditPayment => string "credit_payment"

def CategoryPeriodKind.json : CategoryPeriodKind → Json
  | .current => string "current"
  | .future => string "future"

def CategoryLiquidityFact.json (c : CategoryLiquidityFact) : Json :=
  object [("categoryId", string c.categoryId), ("cashBucketId", string c.cashBucketId),
    ("asOfMonth", string c.asOfMonth), ("kind", c.kind.json), ("periodKind", c.periodKind.json),
    ("availability", c.availability.json), ("evidence", c.evidence.json)]

def FlowDirection.json : FlowDirection → Json
  | .inflow => string "inflow"
  | .outflow => string "outflow"

def SettlementProvenance.json : SettlementProvenance → Json
  | .actualImport => string "actual_import"
  | .institutionImport => string "institution_import"
  | .providerConfirmed => string "provider_confirmed"
  | .manualLedger => string "manual_ledger"

def UnsettledFlow.json (flow : UnsettledFlow) : Json :=
  object [("id", string flow.id), ("economicObligationId", string flow.economicObligationId),
    ("direction", flow.direction.json), ("amount", flow.amount.json),
    ("includedInBalance", bool flow.includedInBalance),
    ("matchedTransactionIds", strings flow.matchedTransactionIds),
    ("scheduleId", option string flow.scheduleId),
    ("transferTransactionId", option string flow.transferTransactionId),
    ("importedId", option string flow.importedId), ("reconciled", bool flow.reconciled),
    ("provenance", flow.provenance.json)]

def CashObligation.json (o : CashObligation) : Json :=
  object [("id", string o.id), ("economicObligationId", string o.economicObligationId),
    ("categoryId", option string o.categoryId), ("amount", o.amount.json),
    ("dueAt", string o.dueAt), ("paid", bool o.paid),
    ("includedInBalance", bool o.includedInBalance),
    ("matchedTransactionIds", strings o.matchedTransactionIds)]

def CreditLiquidityFact.json (c : CreditLiquidityFact) : Json :=
  object [("authorizationAvailable", c.authorizationAvailable.json),
    ("pendingIncludedInAuthorization", bool c.pendingIncludedInAuthorization),
    ("paymentAccountId", string c.paymentAccountId),
    ("paymentCategoryId", string c.paymentCategoryId), ("dueAt", string c.dueAt),
    ("reservedCash", c.reservedCash.json), ("economicObligationId", string c.economicObligationId),
    ("evidence", c.evidence.json)]

def AccountLiquidityFact.json (f : AccountLiquidityFact) : Json :=
  object [("accountId", string f.accountId), ("currency", string f.currency),
    ("currencyEvidence", f.currencyEvidence.json), ("kind", f.kind.json),
    ("kindEvidence", f.kindEvidence.json), ("onBudget", bool f.onBudget), ("closed", bool f.closed),
    ("owned", bool f.owned), ("ownershipEvidence", f.ownershipEvidence.json),
    ("recordedBalance", f.recordedBalance.json), ("balanceEvidence", f.balanceEvidence.json),
    ("freshnessEvidence", f.freshnessEvidence.json), ("activityEvidence", f.activityEvidence.json),
    ("scheduleEvidence", f.scheduleEvidence.json),
    ("baselineTransactionIds", strings f.baselineTransactionIds),
    ("unsettledFlows", list UnsettledFlow.json f.unsettledFlows), ("holds", f.holds.json),
    ("holdsEvidence", f.holdsEvidence.json),
    ("obligations", list CashObligation.json f.obligations),
    ("credit", option CreditLiquidityFact.json f.credit),
    ("ambiguityReasons", strings f.ambiguityReasons)]

def ScheduleAmountCertainty.json : ScheduleAmountCertainty → Json
  | .exact => string "exact"
  | .approximate => string "approximate"
  | .range => string "range"
  | .unknown => string "unknown"

def ScheduleFrequency.json : ScheduleFrequency → Json
  | .daily => string "daily"
  | .weekly => string "weekly"
  | .monthly => string "monthly"
  | .yearly => string "yearly"

def ScheduleEndMode.json : ScheduleEndMode → Json
  | .never => string "never"
  | .afterNOccurrences => string "after_n_occurrences"
  | .onDate => string "on_date"

def ScheduleWeekendSolveMode.json : ScheduleWeekendSolveMode → Json
  | .before => string "before"
  | .after => string "after"

def SchedulePatternKind.json : SchedulePatternKind → Json
  | .su => string "su"
  | .mo => string "mo"
  | .tu => string "tu"
  | .we => string "we"
  | .th => string "th"
  | .fr => string "fr"
  | .sa => string "sa"
  | .day => string "day"

def ScheduleRecurrencePattern.json (p : ScheduleRecurrencePattern) : Json :=
  object [("kind", p.kind.json), ("value", number p.value)]

def ScheduleRecurrence.json (r : ScheduleRecurrence) : Json :=
  object [("frequency", r.frequency.json), ("interval", option nat r.interval),
    ("patterns", option (list ScheduleRecurrencePattern.json) r.patterns),
    ("start", string r.start), ("endMode", option ScheduleEndMode.json r.endMode),
    ("endOccurrences", option nat r.endOccurrences), ("endDate", option string r.endDate),
    ("skipWeekend", option bool r.skipWeekend),
    ("weekendSolveMode", option ScheduleWeekendSolveMode.json r.weekendSolveMode)]

def ScheduleLiquidityFact.json (s : ScheduleLiquidityFact) : Json :=
  object [("id", string s.id), ("accountId", option string s.accountId),
    ("categoryId", option string s.categoryId), ("ruleId", option string s.ruleId),
    ("dueDate", option string s.dueDate), ("certainty", s.certainty.json),
    ("amount", option Money.json s.amount), ("minimum", option Money.json s.minimum),
    ("maximum", option Money.json s.maximum),
    ("recurrence", option ScheduleRecurrence.json s.recurrence)]

def LiquidityFacts.json (f : LiquidityFacts) : Json :=
  object [("version", string f.version), ("ledgerContentHash", string f.ledgerContentHash),
    ("asOfMonth", string f.asOfMonth), ("categories", list CategoryLiquidityFact.json f.categories),
    ("accounts", list AccountLiquidityFact.json f.accounts),
    ("schedules", list ScheduleLiquidityFact.json f.schedules)]

/-! ## Policy, claims and scenario -/

def AccountLiquidityPolicy.json (p : AccountLiquidityPolicy) : Json :=
  object [("accountId", string p.accountId), ("role", p.role.json),
    ("protectedBuffer", p.protectedBuffer.json), ("paymentEligible", bool p.paymentEligible),
    ("sourceEligible", bool p.sourceEligible), ("backingEligible", bool p.backingEligible),
    ("eligibleCategoryIds", strings p.eligibleCategoryIds),
    ("restrictedCashBucketIds", strings p.restrictedCashBucketIds),
    ("automationAllowed", bool p.automationAllowed), ("resourceScope", string p.resourceScope)]

def CalendarMode.json : CalendarMode → Json
  | .instant => string "instant"
  | .calendarDays => string "calendar_days"
  | .businessDays => string "business_days"

def TransferTimingRoute.json (r : TransferTimingRoute) : Json :=
  object [("id", string r.id), ("sourceAccountId", string r.sourceAccountId),
    ("destinationAccountId", string r.destinationAccountId),
    ("providerArrivalAt", option string r.providerArrivalAt),
    ("calendarMode", option CalendarMode.json r.calendarMode), ("delayDays", nat r.delayDays),
    ("utcOffsetMinutes", option number r.utcOffsetMinutes),
    ("cutoffMinute", option nat r.cutoffMinute),
    ("weekendsAvailable", option bool r.weekendsAvailable),
    ("holidaysComplete", bool r.holidaysComplete), ("holidays", strings r.holidays),
    ("evidence", r.evidence.json)]

def LiquidityPolicy.json (p : LiquidityPolicy) : Json :=
  object [("version", string p.version), ("policyHash", string p.policyHash),
    ("expiresAt", string p.expiresAt), ("accounts", list AccountLiquidityPolicy.json p.accounts),
    ("transferRoutes", list TransferTimingRoute.json p.transferRoutes)]

def LiquidityClaimState.json : LiquidityClaimState → Json
  | .active => string "active"
  | .initiated => string "initiated"
  | .cancelled => string "cancelled"
  | .expired => string "expired"
  | .settled => string "settled"

def ClaimEffectKind.json : ClaimEffectKind → Json
  | .category => string "category"
  | .accountDebit => string "account_debit"
  | .destinationHold => string "destination_hold"

/-- An absent source obligation is not written. -/
def LiquidityClaimEffect.json (e : LiquidityClaimEffect) : Json :=
  object ([("kind", e.kind.json), ("resourceId", string e.resourceId), ("amount", e.amount.json),
    ("economicObligationId", string e.economicObligationId)] ++
    (e.sourceEconomicObligationId.toList.map fun id =>
      ("sourceEconomicObligationId", string id)) ++
    [("categoryId", option string e.categoryId), ("includedInBalance", bool e.includedInBalance),
    ("matchedTransactionIds", strings e.matchedTransactionIds)])

def LiquidityClaimBundle.json (b : LiquidityClaimBundle) : Json :=
  object [("id", string b.id), ("creationSnapshotId", string b.creationSnapshotId),
    ("creationPolicyVersion", string b.creationPolicyVersion), ("state", b.state.json),
    ("expiresAt", string b.expiresAt), ("initiated", bool b.initiated),
    ("effects", list LiquidityClaimEffect.json b.effects)]

def TrustedRoute.json (r : TrustedRoute) : Json :=
  object [("accountId", string r.accountId), ("referenceId", string r.referenceId)]

def RouteSelection.json (r : RouteSelection) : Json :=
  object [("explicitAccountId", option string r.explicitAccountId),
    ("sessionAccountId", option string r.sessionAccountId),
    ("approvedPreference", option TrustedRoute.json r.approvedPreference),
    ("historicalRoute", option TrustedRoute.json r.historicalRoute)]

def LiquidityPurchaseItem.json (i : LiquidityPurchaseItem) : Json :=
  object [("id", string i.id), ("categoryId", string i.categoryId), ("amount", i.amount.json),
    ("purchaseAt", string i.purchaseAt), ("requiredBy", string i.requiredBy),
    ("routeSelection", i.routeSelection.json)]

def CategoryReallocation.json (r : CategoryReallocation) : Json :=
  object [("id", string r.id), ("sourceCategoryId", string r.sourceCategoryId),
    ("destinationCategoryId", string r.destinationCategoryId), ("amount", r.amount.json)]

def LiquidityScenario.json : LiquidityScenario → Json
  | .none => object [("kind", string "none")]
  | .purchases items => object [("kind", string "purchases"),
      ("items", list LiquidityPurchaseItem.json items)]
  | .reallocation moves => object [("kind", string "reallocation"),
      ("moves", list CategoryReallocation.json moves)]

def LiquidityHorizon.json (h : LiquidityHorizon) : Json :=
  object [("startsAt", string h.startsAt), ("endsAt", string h.endsAt)]

/-! ## Plans -/

def BackingLine.json (l : BackingLine) : Json :=
  object [("accountId", string l.accountId), ("categoryId", string l.categoryId),
    ("cashBucketId", string l.cashBucketId), ("amount", l.amount.json)]

def BackingAllocation.json (a : BackingAllocation) : Json :=
  object [("version", string a.version), ("snapshotId", string a.snapshotId),
    ("contentHash", string a.contentHash), ("policyVersion", string a.policyVersion),
    ("policyHash", string a.policyHash), ("claimSetRevision", string a.claimSetRevision),
    ("feasible", bool a.feasible), ("lines", list BackingLine.json a.lines),
    ("reasons", strings a.reasons)]

def AccountPlanPrecondition.json (p : AccountPlanPrecondition) : Json :=
  object [("accountId", string p.accountId), ("recordedBalance", p.recordedBalance.json),
    ("signedHeadroom", p.signedHeadroom.json), ("backingCapacity", p.backingCapacity.json),
    ("baselineTransactionIds", strings p.baselineTransactionIds)]

def TransferLeg.json (l : TransferLeg) : Json :=
  object [("id", string l.id), ("sourceAccountId", string l.sourceAccountId),
    ("destinationAccountId", string l.destinationAccountId), ("amount", l.amount.json),
    ("requiredBy", string l.requiredBy), ("estimatedArrival", string l.estimatedArrival),
    ("timingRouteId", string l.timingRouteId), ("sourceBefore", l.sourceBefore.json),
    ("destinationBefore", l.destinationBefore.json), ("sourceAfter", l.sourceAfter.json),
    ("destinationAfter", l.destinationAfter.json)]

def TransferPlan.json (p : TransferPlan) : Json :=
  object [("version", string p.version), ("snapshotId", string p.snapshotId),
    ("contentHash", string p.contentHash), ("policyVersion", string p.policyVersion),
    ("policyHash", string p.policyHash), ("claimSetRevision", string p.claimSetRevision),
    ("evaluatedAt", string p.evaluatedAt), ("expiresAt", string p.expiresAt),
    ("minimumAmount", p.minimumAmount.json), ("legs", list TransferLeg.json p.legs),
    ("reservations", list LiquidityClaimEffect.json p.reservations),
    ("backingAfter", p.backingAfter.json), ("scenario", p.scenario.json),
    ("preconditionsHash", string p.preconditionsHash), ("payloadHash", string p.payloadHash)]

end BalanceFrame.Liquidity
