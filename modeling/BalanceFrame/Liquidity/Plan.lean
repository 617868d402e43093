import BalanceFrame.Liquidity.Json
import BalanceFrame.Liquidity.Evidence

/-!
# Transfer plans

Model of `canonical`, `plan_hash`, `transfer_plan` (`liquidity_routes.rs`),
`input_preconditions_hash` and `validate_plan` (`liquidity_settlement.rs`). Serializing a plan or an
input never fails, so the hashes are total here.
-/

namespace BalanceFrame.Liquidity

open Library

/-! ## Hashes -/

/-- `s.as_bytes()`, as the digest reads them. -/
def utf8 (s : String) : List UInt8 := s.toList.flatMap String.utf8EncodeChar

/-- A SHA-256 digest of a text under a domain line. -/
def domainHash (domain text : String) : String := sha256Hex (utf8 (domain ++ "\n" ++ text))

mutual

/-- `sorted`: entries in key order, at every depth. -/
def sorted : Json → Json
  | .object entries => .object (sortOn Prod.fst (sortedEntries entries))
  | .array values => .array (sortedValues values)
  | v => v

def sortedValues : List Json → List Json
  | [] => []
  | v :: rest => sorted v :: sortedValues rest

def sortedEntries : List (String × Json) → List (String × Json)
  | [] => []
  | (key, v) :: rest => (key, sorted v) :: sortedEntries rest

end

/-- `canonical`: sorted-key JSON without the payload hash. -/
def canonical (plan : TransferPlan) : String := (sorted (plan.json.without "payloadHash")).toText

def planHash (plan : TransferPlan) : String :=
  domainHash "balanceframe.transfer-plan.v1" (canonical plan)

/-- The entries of an evidence object that only date its capture. -/
def withoutCapture (entries : List (String × Json)) : List (String × Json) :=
  if (Json.get? entries "source").bind Json.asStr == some "actual_ledger" &&
      (Json.get? entries "state").isSome then
    Json.remove (Json.remove entries "observedAt") "expiresAt"
  else entries

mutual

/-- `discard_ledger_capture_metadata`. What `withoutCapture` drops has no children to visit, so it
may run after them. -/
def discardLedgerCaptureMetadata : Json → Json
  | .object entries => .object (withoutCapture (discardEntries entries))
  | .array values => .array (discardValues values)
  | v => v

def discardValues : List Json → List Json
  | [] => []
  | v :: rest => discardLedgerCaptureMetadata v :: discardValues rest

def discardEntries : List (String × Json) → List (String × Json)
  | [] => []
  | (key, v) :: rest => (key, discardLedgerCaptureMetadata v) :: discardEntries rest

end

/-- What a plan depends on. -/
def preconditionsPayload (input : LiquidityInput) : Json :=
  .object [("facts", discardLedgerCaptureMetadata
      ((Json.option LiquidityFacts.json input.facts).without "ledgerContentHash")),
    ("sourceCoverageComplete", .bool input.sourceCoverageComplete),
    ("policy", input.liquidityPolicy.json),
    ("maxBudgetSnapshotAgeMinutes", Json.nat input.maxBudgetSnapshotAgeMinutes),
    ("claims", Json.list LiquidityClaimBundle.json input.claimSet.bundles),
    ("scenario", input.scenario.json), ("horizon", input.horizon.json)]

def inputPreconditionsHash (input : LiquidityInput) : String :=
  domainHash "balanceframe.transfer-preconditions.v1" (preconditionsPayload input).toText

/-! ## Building a plan -/

/-- Number a leg, bring its deadline forward to the plan's, and add its amount. -/
def planLeg (currency : String) (required : Instant) (s : I64 × List TransferLeg)
    (leg : TransferLeg × Nat) : Checked (I64 × List TransferLeg) := do
  let n ← units leg.1.amount currency true
  let minimum ← add s.1 n
  let due ← instant leg.1.requiredBy
  pure (minimum, s.2 ++ [{ leg.1 with
    id := "leg-" ++ toString (leg.2 + 1)
    requiredBy := if required < due then stamp required else leg.1.requiredBy }])

/-- The source debit a leg reserves. -/
def legReservation (reservationIdentity : String) (leg : TransferLeg) : LiquidityClaimEffect where
  kind := .accountDebit
  resourceId := leg.sourceAccountId
  amount := leg.amount
  economicObligationId := "transfer:" ++ reservationIdentity ++ ":" ++ leg.id
  sourceEconomicObligationId := none
  categoryId := none
  includedInBalance := false
  matchedTransactionIds := []

/-- A plan before its reservations and its hash. -/
def draftPlan (input : LiquidityInput) (expires currency : String) (minimum : I64)
    (legs : List TransferLeg) (backingAfter : BackingAllocation) : TransferPlan where
  version := "1"
  snapshotId := input.snapshotId
  contentHash := input.contentHash
  policyVersion := input.liquidityPolicy.version
  policyHash := input.liquidityPolicy.policyHash
  claimSetRevision := input.claimSet.revision
  evaluatedAt := input.evaluatedAt
  expiresAt := expires
  minimumAmount := m minimum currency
  legs := legs
  reservations := []
  backingAfter := backingAfter
  scenario := input.scenario
  preconditionsHash := inputPreconditionsHash input
  payloadHash := ""

/-- The draft with its reservations. -/
def reservePlan (plan : TransferPlan) : TransferPlan :=
  let identity := domainHash "balanceframe.transfer-reservation.v1" (canonical plan)
  { plan with reservations := plan.legs.map (legReservation identity) }

/-- The plan with its hash. -/
def TransferPlan.hashed (plan : TransferPlan) : TransferPlan :=
  { plan with payloadHash := planHash plan }

def transferPlan (input : LiquidityInput) (expires currency : String) (required : Instant)
    (legs : List TransferLeg) (backingAfter : BackingAllocation) : Checked TransferPlan := do
  let (minimum, legs) ← legs.zipIdx.foldlM (planLeg currency required) (0, [])
  reject (minimum == 0) "empty_transfer_plan"
  pure (reservePlan (draftPlan input expires currency minimum legs backingAfter)).hashed

/-! ## Checking a plan -/

/-- The check of one leg, and the total so far. -/
def checkLeg (currency : String) (created : Instant) (sum : I64) (leg : TransferLeg) :
    Checked I64 := do
  let n ← units leg.amount currency true
  reject (n == 0 || leg.sourceAccountId == leg.destinationAccountId ||
    leg.sourceBefore.accountId != leg.sourceAccountId ||
    leg.destinationBefore.accountId != leg.destinationAccountId) "invalid_transfer_leg"
  let sum ← add sum n
  let required ← instant leg.requiredBy
  let arrival ← if required < created then pure required else instant leg.estimatedArrival
  reject (decide (required < created) || decide (arrival < created)) "invalid_transfer_dates"
  pure sum

/-- The plan names what it is bound to, and its hash is right. -/
def hashAndIdentity (plan : TransferPlan) : Bool :=
  plan.version == "1" && plan.payloadHash == planHash plan && !plan.legs.isEmpty &&
    plan.snapshotId != "" && plan.contentHash != "" && plan.policyVersion != "" &&
    plan.policyHash != "" && plan.claimSetRevision != ""

def validatePlan (plan : TransferPlan) : Checked Unit := do
  reject (!hashAndIdentity plan) "invalid_plan_hash_or_identity"
  unique (plan.legs.map (·.id))
  let expected ← units plan.minimumAmount plan.minimumAmount.currency true
  reject (expected == 0) "nonpositive_transfer"
  let created ← instant plan.evaluatedAt
  let expires ← instant plan.expiresAt
  reject (decide (expires ≤ created)) "invalid_plan_expiry"
  let sum ← plan.legs.foldlM (checkLeg plan.minimumAmount.currency created) 0
  reject (sum != expected) "transfer_total_mismatch"

/-! ## What the hashes read -/

theorem planHash_congr (plan : TransferPlan) (hash : String) :
    planHash { plan with payloadHash := hash } = planHash plan := rfl

theorem hashAndIdentity_hashed (plan : TransferPlan) :
    hashAndIdentity plan.hashed = (plan.version == "1" && !plan.legs.isEmpty &&
      plan.snapshotId != "" && plan.contentHash != "" && plan.policyVersion != "" &&
      plan.policyHash != "" && plan.claimSetRevision != "") := by
  unfold hashAndIdentity
  rw [show planHash plan.hashed = plan.hashed.payloadHash from planHash_congr plan _, beq_self_eq_true,
    Bool.and_true]
  rfl

end BalanceFrame.Liquidity
