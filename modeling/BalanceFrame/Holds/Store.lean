import BalanceFrame.Workflow.Proposals
import BalanceFrame.Library.Sorting

/-!
# Claims and their set

Model of the tables of `LiquidityWorkflow` (`packages/workflow-store/src/liquidity.ts`) that hold
reserved money, and of the functions all its operations share: `claimSet`, `bump`, `persistClaim`,
`currentPolicy`, `validate`, `replay`, `record`, `assertNoDuplicateEconomicEffect` and
`hasVerifiedSessionCompletion`. Bundles and effects are those of the engine. A table is the list of
its rows, a JSON column the value whose text the source writes; proposals of the two workflows are
two tables here.

`Date.parse` is the parameter `Host`. What a call reads from tables that are not modelled
(credentials, memberships, grants), and the checks of fields that hold no money (item lists, hashes,
correlation ids, cooldowns), come with it as `Checks`.
-/

namespace BalanceFrame.Holds

open Library
open Liquidity (Money LiquidityClaimBundle LiquidityClaimEffect LiquidityClaimState
  ClaimEffectKind isCurrencyCode)
open Workflow (Refusal Guarded)

/-- `Date.parse`; `none` is `NaN`. -/
structure Host where
  dateParse : String → Option Int

/-- An error with its message. -/
def refusal (message : String) : Refusal := { message }

/-! ## Rows -/

inductive OwnerKind
  | prospective
  | session
  | sessionCompletion
  | proposal
  deriving DecidableEq

/-- `liquidity_claims`. -/
structure ClaimRow where
  budgetId : String
  id : String
  ownerKind : OwnerKind
  ownerId : String
  bundle : LiquidityClaimBundle
  deriving DecidableEq

inductive ClaimMode
  | inform
  | block
  deriving DecidableEq

inductive ClaimKind
  | reservation
  | commitment
  deriving DecidableEq

inductive ClaimLifecycle
  | active
  | released
  | consumed
  | expired
  deriving DecidableEq

/-- The scope of a prospective claim; only accounts and categories are supported. -/
inductive ClaimScope
  | account (id : String)
  | category (id : String)
  | other
  deriving DecidableEq

/-- The effect kind and the resource of a supported scope. -/
def ClaimScope.resource? : ClaimScope → Option (ClaimEffectKind × String)
  | .account id => some (.accountDebit, id)
  | .category id => some (.category, id)
  | .other => none

/-- `ProspectiveClaim`; `active` says that its status is `active`. -/
structure ProspectiveClaim where
  claimId : String
  kind : ClaimKind
  sourceId : String
  scope : ClaimScope
  amount : Money
  active : Bool := true
  effectiveFrom : String
  expiresAt : Option String
  policyVersion : String
  snapshotId : String
  deriving DecidableEq

/-- `liquidity_claim_metadata`. -/
structure MetadataRow where
  budgetId : String
  claimId : String
  actorId : String
  mode : ClaimMode
  lifecycleState : ClaimLifecycle
  sourceId : String
  policyVersion : String
  claim : ProspectiveClaim
  updatedAt : String
  consumptionEvidenceId : Option String := none
  deriving DecidableEq

/-- `liquidity_policy_versions`. -/
structure PolicyRow where
  budgetId : String
  version : String
  policyHash : String
  reservationMode : ClaimMode
  expiresAt : String
  deriving DecidableEq

/-- `spend_sessions`. -/
structure SessionRow where
  budgetId : String
  id : String
  actorId : String
  version : Nat
  expiresAt : String
  deriving DecidableEq

/-- `SessionCompletionPayload`, as far as money is held: what the session's cart charges and the
parent transaction of the manual write, whose amount is negative. -/
structure CompletionPayload where
  sessionId : String
  sessionVersion : Nat
  accountId : String
  parentId : String
  amount : Int
  categoryCharges : List (String × Money)
  deriving DecidableEq

/-- The `phase` of a session completion. -/
inductive CompletionPhase
  | proposed
  | approved
  | writeIntent
  | reviewRequired
  | verified
  | closed
  deriving DecidableEq

/-- A session completion of `action_proposals`. -/
structure Completion where
  id : String
  budgetId : String
  actorId : String
  payloadHash : String
  policyVersion : String
  expiresAt : String
  version : Nat
  phase : CompletionPhase
  outcome : Option String
  supersededAt : Option String
  payload : CompletionPayload
  deriving DecidableEq

/-- The `phase` of a transfer. -/
inductive TransferPhase
  | proposed
  | awaitingApproval
  | approved
  | initiated
  | confirmed
  | closed
  deriving DecidableEq

/-- A transfer of `action_proposals` with the parts of its plan that the store reads. -/
structure Transfer where
  id : String
  budgetId : String
  actorId : String
  payloadHash : String
  policyVersion : String
  policyHash : String
  expiresAt : String
  version : Nat
  phase : TransferPhase
  outcome : Option String
  supersededAt : Option String
  sessionId : Option String
  sessionVersion : Option Nat
  deriving DecidableEq

inductive ApprovalStatus
  | active
  | superseded
  | consumed
  deriving DecidableEq

/-- `proposal_approvals`. -/
structure ApprovalRow where
  id : String
  proposalId : String
  payloadHash : String
  actorId : String
  status : ApprovalStatus
  expiresAt : String
  createdAt : String
  deriving DecidableEq

inductive WriteStatus
  | writeIntent
  | reviewRequired
  | verified
  deriving DecidableEq

/-- `session_completion_writes`. -/
structure WriteRow where
  budgetId : String
  proposalId : String
  intentId : String
  payloadHash : String
  parentId : String
  claimSetRevision : String
  status : WriteStatus
  deriving DecidableEq

/-- `transfer_evidence`. -/
structure EvidenceRow where
  budgetId : String
  evidenceId : String
  proposalId : String
  deriving DecidableEq

inductive EvidenceKind
  | manualParent
  | importedLink
  | ambiguous
  deriving DecidableEq

/-- `session_completion_evidence`. -/
structure CompletionEvidenceRow where
  budgetId : String
  evidenceId : String
  proposalId : String
  kind : EvidenceKind
  parentId : String
  accountId : String
  deriving DecidableEq

/-- `idempotency_records`. -/
structure IdempotencyRow where
  idempotencyKey : String
  operation : String
  requestIdentity : String
  deriving DecidableEq

/-- The tables. -/
structure Store where
  claims : List ClaimRow := []
  metadata : List MetadataRow := []
  revisions : List (String × Nat) := []
  policies : List PolicyRow := []
  currentPolicies : List (String × String) := []
  sessions : List SessionRow := []
  completions : List Completion := []
  transfers : List Transfer := []
  approvals : List ApprovalRow := []
  writes : List WriteRow := []
  transferEvidence : List EvidenceRow := []
  completionEvidence : List CompletionEvidenceRow := []
  idempotency : List IdempotencyRow := []

/-- What the checks outside the tables find: a refusal, the approvals whose actor is still a member
with the right to approve, and the approvals a proposal needs. -/
structure Checks where
  refused : Option String := none
  current : ApprovalRow → Bool := fun _ => true
  required : Nat := 1

/-- A check of `Checks` passed. -/
def Checks.pass (checks : Checks) : Guarded Unit :=
  match checks.refused with
  | none => .ok ()
  | some message => .error (refusal message)

/-- The result of a trusted validator or verifier; an input of the call is `none` when it throws or
returns something else. -/
structure Validation where
  valid : Bool
  reason : Option String := none

/-- What every call brings: the actor and budget, the idempotency key with the identity of the
request, the time, and the checks. -/
structure Call where
  actorId : String
  budgetId : String
  idempotencyKey : String
  requestIdentity : String
  now : String
  checks : Checks := {}

/-! ## Times -/

namespace Host

variable (host : Host)

def time (value : String) : Guarded Unit :=
  reject (host.dateParse value).isNone (refusal "Invalid timestamp")

/-- A comparison with `NaN` is false. -/
def compares (r : Int → Int → Bool) (a b : String) : Bool :=
  (host.dateParse a).any fun x => (host.dateParse b).any fun y => r x y

/-- `Date.parse(a) <= Date.parse(b)`. -/
def atMost (a b : String) : Bool := host.compares (fun x y => decide (x ≤ y)) a b

/-- `Date.parse(a) < Date.parse(b)`. -/
def before (a b : String) : Bool := host.compares (fun x y => decide (x < y)) a b

def future (expiresAt now : String) : Guarded Unit := do
  host.time now
  host.time expiresAt
  reject (host.atMost expiresAt now) (refusal "Expired")

end Host

/-- `positiveMoney`: an amount of the contract is a decimal within 64 bits. -/
def positiveMoney (value : Money) : Guarded Unit :=
  reject (decide ((value.minorUnits : Int) ≤ 0) || !isCurrencyCode value.currency)
    (refusal "Invalid money")

namespace Store

variable (s : Store)

/-! ## Claims and revisions -/

/-- The number in `liquidity_claim_revisions`. -/
def revision (budgetId : String) : Nat := ((s.revisions.find? (·.1 == budgetId)).map (·.2)).getD 0

def bump (budgetId : String) : Store :=
  { s with revisions :=
      if s.revisions.any (·.1 == budgetId) then
        s.revisions.map fun r => if r.1 = budgetId then (r.1, r.2 + 1) else r
      else s.revisions ++ [(budgetId, 1)] }

/-- The claim row of an owner. -/
def ownedClaim (budgetId : String) (kind : OwnerKind) (ownerId : String) : Option ClaimRow :=
  s.claims.find? fun c => c.budgetId == budgetId && c.ownerKind == kind && c.ownerId == ownerId

/-- The claim row with an id. -/
def claimAt (budgetId id : String) : Option ClaimRow :=
  s.claims.find? fun c => c.budgetId == budgetId && c.id == id

/-- `persistClaim`: a stored claim of the owner keeps its row id. -/
def persistClaim (budgetId : String) (kind : OwnerKind) (ownerId : String)
    (bundle : LiquidityClaimBundle) : Guarded Store :=
  match s.ownedClaim budgetId kind ownerId with
  | some _ =>
    let updated : Store :=
      { s with claims := s.claims.map fun c =>
          if c.budgetId = budgetId ∧ c.ownerKind = kind ∧ c.ownerId = ownerId then
            { c with bundle } else c }
    .ok (updated.bump budgetId)
  | none => do
    reject (s.claimAt budgetId bundle.id).isSome (refusal "UNIQUE constraint failed")
    let inserted : Store :=
      { s with claims := s.claims ++
          [{ budgetId, id := bundle.id, ownerKind := kind, ownerId, bundle }] }
    .ok (inserted.bump budgetId)

def currentPolicy (budgetId : String) : Guarded PolicyRow :=
  orStop ((s.currentPolicies.find? (·.1 == budgetId)).bind fun c =>
      s.policies.find? fun p => p.budgetId == budgetId && p.version == c.2)
    (refusal "Liquidity policy unavailable")

end Store

/-! ## The claim set -/

/-- `LiquidityClaimSet` as the store returns it. -/
structure ClaimSet where
  revision : Nat
  bundles : List LiquidityClaimBundle
  deriving DecidableEq

/-- A bundle is active, not initiated and past its expiry. -/
def lapsed (host : Host) (now : String) (b : LiquidityClaimBundle) : Bool :=
  b.state == .active && !b.initiated && host.atMost b.expiresAt now

/-- A bundle holds its effects: active or initiated. -/
def holds (b : LiquidityClaimBundle) : Bool := b.state == .active || b.state == .initiated

/-- The source a prospective claim names when a session version has to be covered. -/
def sessionSource (sessionId : String) (sessionVersion : Nat) : String :=
  "session:" ++ sessionId ++ ":" ++ toString sessionVersion

/-- A prospective claim has an equal effect among those of a live completion. -/
def coveredBy (effects : List LiquidityClaimEffect) (claim : ProspectiveClaim) : Bool :=
  claim.scope.resource?.any fun (kind, id) =>
    effects.any fun e => e.kind == kind && e.resourceId == id && e.amount == claim.amount

/-- A claim takes effect later than `now`. -/
def upcoming (host : Host) (now : String) (b : LiquidityClaimBundle) (claim : ProspectiveClaim) :
    Bool :=
  b.state == .active && !b.initiated && host.before now claim.effectiveFrom

/-- A claim whose activation was not recorded yet. -/
def activates (host : Host) (b : LiquidityClaimBundle) (m : MetadataRow) : Bool :=
  b.state == .active && !b.initiated && host.before m.updatedAt m.claim.effectiveFrom

namespace Store

variable (s : Store) (host : Host)

/-- The rows of a budget in id order. -/
def budgetRows (budgetId : String) : List ClaimRow :=
  sortOn (·.id) (s.claims.filter (·.budgetId == budgetId))

/-- The metadata of a claim row. -/
def metadataOf (c : ClaimRow) : Option MetadataRow :=
  s.metadata.find? fun m => m.budgetId == c.budgetId && m.claimId == c.id

/-- The effects of the live completions of a budget, with the actor and the session version they
cover. -/
def covering (budgetId now : String) :
    Guarded (List ((String × String) × List LiquidityClaimEffect)) :=
  ((s.budgetRows budgetId).filter fun c =>
      c.ownerKind == .sessionCompletion && holds c.bundle &&
        (c.bundle.initiated || !host.atMost c.bundle.expiresAt now)).mapM fun c => do
    let p ← orStop (s.completions.find? (·.id == c.ownerId))
      (refusal "Cannot read properties of undefined")
    .ok ((p.actorId, sessionSource p.payload.sessionId p.payload.sessionVersion), c.bundle.effects)

/-- A prospective claim is covered by a live completion of its actor and session version. -/
def isCovered (covered : List ((String × String) × List LiquidityClaimEffect)) (m : MetadataRow) :
    Bool :=
  (covered.reverse.find? (·.1 == (m.actorId, m.claim.sourceId))).any (coveredBy ·.2 m.claim)

/-- A reservation only informs under the current policy. -/
def informational (budgetId : String) (c : ClaimRow) : Option MetadataRow → Guarded Bool
  | some m =>
    if m.claim.kind = .reservation ∧ c.bundle.state = .active ∧ c.bundle.initiated = false then do
      let policy ← s.currentPolicy budgetId
      .ok (policy.reservationMode == .inform)
    else .ok false
  | none => .ok false

/-- The bundle of a row that has not lapsed, where the claim set shows it. -/
def shown (covered : List ((String × String) × List LiquidityClaimEffect)) (budgetId now : String)
    (c : ClaimRow) : Guarded (Option LiquidityClaimBundle) :=
  let m := s.metadataOf c
  if m.any (fun m => upcoming host now c.bundle m.claim || isCovered covered m) then .ok none
  else do
    let informs ← s.informational budgetId c m
    .ok (if !informs && (holds c.bundle || (c.bundle.initiated && c.bundle.state != .settled)) then
      some c.bundle else none)

/-- Lapsed claims expire, and what became effective is stamped. -/
def refresh (budgetId now : String) : Store :=
  let stale c := c.budgetId == budgetId && lapsed host now c.bundle
  let active m := m.budgetId == budgetId && m.lifecycleState == .active
  { s with
    claims := s.claims.map fun c =>
      if stale c then { c with bundle := { c.bundle with state := .expired } } else c
    metadata := s.metadata.map fun m =>
      if active m then
        match s.claimAt m.budgetId m.claimId with
        | some c =>
          if stale c then { m with lifecycleState := .expired, updatedAt := now }
          else if !upcoming host now c.bundle m.claim && activates host c.bundle m then
            { m with updatedAt := now }
          else m
        | none => m
      else m }

/-- Something in the budget lapses or becomes effective. -/
def changes (budgetId now : String) : Bool :=
  (s.budgetRows budgetId).any fun c =>
    lapsed host now c.bundle ||
      (s.metadataOf c).any fun m =>
        !upcoming host now c.bundle m.claim && activates host c.bundle m

def claimSet (budgetId now : String) : Guarded (ClaimSet × Store) := do
  host.time now
  let covered ← s.covering host budgetId now
  let bundles ← ((s.budgetRows budgetId).filter fun c => !lapsed host now c.bundle).mapM
    (s.shown host covered budgetId now)
  let refreshed := s.refresh host budgetId now
  let after := if s.changes host budgetId now then refreshed.bump budgetId else refreshed
  .ok (⟨after.revision budgetId, bundles.filterMap id⟩, after)

/-! ## Validation -/

/-- `validate` after the claim set was read, with the plan's policy where there is a plan. -/
def checkValidation (budgetId expected now : String) (plan : Option (String × String))
    (outcome : Option Validation) (rejectInvalid : Bool) (set : ClaimSet) : Guarded Validation := do
  reject (toString set.revision != expected) (refusal "Claim-set revision conflict")
  let policy ← s.currentPolicy budgetId
  host.future policy.expiresAt now
  reject (plan.any fun (hash, version) => hash != policy.policyHash || version != policy.version)
    (refusal "Policy changed")
  let result ← orStop outcome (refusal "Invalid trusted validation result")
  reject (!result.valid && rejectInvalid)
    (refusal (result.reason.getD "Trusted validation failed"))
  .ok result

def validate (budgetId expected now : String) (plan : Option (String × String))
    (outcome : Option Validation) (rejectInvalid : Bool) : Guarded (Validation × Store) := do
  let (set, s) ← s.claimSet host budgetId now
  let result ← s.checkValidation host budgetId expected now plan outcome rejectInvalid set
  .ok (result, s)

/-! ## Replays -/

/-- `replay`: a key that was used for the same request. -/
def replay (key operation requestIdentity : String) : Guarded Bool :=
  match s.idempotency.find? (·.idempotencyKey == key) with
  | none => .ok false
  | some row => do
    reject (row.operation != operation || row.requestIdentity != requestIdentity)
      (refusal "Idempotency replay mismatch")
    .ok true

def record (key operation requestIdentity : String) : Guarded Store := do
  reject (s.idempotency.any (·.idempotencyKey == key)) (refusal "UNIQUE constraint failed")
  .ok { s with idempotency := s.idempotency ++
    [{ idempotencyKey := key, operation, requestIdentity }] }

/-! ## Shared reads -/

/-- `hasVerifiedSessionCompletion`. -/
def hasVerifiedCompletion (budgetId sessionId : String) : Bool :=
  s.completions.any fun p =>
    p.budgetId == budgetId && p.payload.sessionId == sessionId && p.phase == .verified

/-- `assertNoDuplicateEconomicEffect`. -/
def assertNoDuplicateEffect (budgetId : String) (effect : LiquidityClaimEffect)
    (legacySourceId : Option String) : Guarded Unit :=
  reject (s.claims.any fun c => c.budgetId == budgetId && holds c.bundle &&
      c.bundle.effects.any fun e => e.kind == effect.kind && e.resourceId == effect.resourceId &&
        (e.economicObligationId == effect.economicObligationId ||
          some e.economicObligationId == legacySourceId))
    (refusal "Duplicate economic obligation")

end Store

end BalanceFrame.Holds
