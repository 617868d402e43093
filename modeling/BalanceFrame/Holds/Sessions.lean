import BalanceFrame.Holds.Proposals
import BalanceFrame.Governance.Spaces

/-!
# Policies, sessions and prospective claims

Model of `savePolicy`, `saveSpendSession`, `cancelSpendSession`, `saveProspectiveClaim`,
`transitionProspectiveClaim`, `listProspectiveClaims` and `getClaimSet` of `LiquidityWorkflow`, and
of the invalidation that `saveSupplementalFacts` and `approvePaymentPreference` end with.
-/

namespace BalanceFrame.Holds

open Library
open Liquidity (Money LiquidityClaimBundle LiquidityClaimEffect LiquidityClaimState
  ClaimEffectKind)
open Workflow (Refusal Guarded)
open Governance (isBlank trim)

/-- A claim that was initiated can no longer be replaced or released. -/
def isInitiated (b : LiquidityClaimBundle) : Bool := b.initiated || b.state == .initiated

structure SaveSessionInput where
  id : String
  expectedVersion : Nat
  expectedClaimSetRevision : Option String
  expiresAt : String
  claim : Option LiquidityClaimBundle
  outcome : Option Validation

structure SaveClaimInput where
  claim : ProspectiveClaim
  expectedClaimSetRevision : String
  outcome : Option Validation

inductive ClaimTransition
  | release
  | consume
  deriving DecidableEq

/-- The state a transition gives the claim, and its lifecycle. -/
def ClaimTransition.target : ClaimTransition → LiquidityClaimState × ClaimLifecycle
  | .release => (.cancelled, .released)
  | .consume => (.settled, .consumed)

structure TransitionInput where
  claimId : String
  transition : ClaimTransition
  expectedClaimSetRevision : String
  consumptionEvidenceId : Option String
  verified : Option Validation

/-- `/^session:(.+):[1-9]\d*$/`: the session a source names. -/
def sourceSession (source : String) : Option String :=
  let chars := source.toList
  let lead := "session:".toList
  if lead.isPrefixOf chars then
    let tail := (chars.drop lead.length).reverse
    let digits := tail.takeWhile Char.isDigit
    match tail.dropWhile Char.isDigit with
    | ':' :: name =>
      if name.isEmpty || name.any (['\n', '\r', '\u2028', '\u2029'].contains ·) ||
          digits.getLast?.all (· == '0') then none
      else some (String.ofList name.reverse)
    | _ => none
  else none

/-- `prospectiveInput`: the expiry and the effect of a claim to be saved. -/
def prospectiveInput (host : Host) (claim : ProspectiveClaim) (policy : PolicyRow) (now : String) :
    Guarded (String × LiquidityClaimEffect) := do
  reject (isBlank claim.claimId) (refusal "Invalid claim ID")
  reject (!claim.active) (refusal "Only active claims may be saved")
  reject (isBlank claim.sourceId) (refusal "Missing economic obligation source")
  reject (isBlank claim.snapshotId) (refusal "Missing snapshot identity")
  reject (claim.policyVersion != policy.version) (refusal "Policy version mismatch")
  let (kind, id) ← orStop claim.scope.resource? (refusal "Unsupported claim scope")
  reject (isBlank id) (refusal "Unsupported claim scope")
  positiveMoney claim.amount
  host.time claim.effectiveFrom
  let expiresAt := claim.expiresAt.getD policy.expiresAt
  host.future expiresAt now
  reject (host.before policy.expiresAt expiresAt) (refusal "Claim exceeds policy expiry")
  reject (host.atMost expiresAt claim.effectiveFrom) (refusal "Invalid claim time range")
  let scope := if kind = .category then "category" else "account"
  .ok (expiresAt,
    { kind
      resourceId := id
      amount := claim.amount
      economicObligationId := claim.sourceId ++ ":" ++ scope ++ ":" ++ id
      sourceEconomicObligationId := some claim.sourceId
      categoryId := if kind = .category then some id else none
      includedInBalance := false
      matchedTransactionIds := [] })

namespace Store

variable (s : Store) (host : Host)

/-! ## Policies -/

/-- The upsert of `liquidity_current_policy`. -/
def setCurrentPolicy (budgetId version : String) : Store :=
  { s with currentPolicies :=
      if s.currentPolicies.any (·.1 == budgetId) then
        s.currentPolicies.map fun c => if c.1 = budgetId then (c.1, version) else c
      else s.currentPolicies ++ [(budgetId, version)] }

def savePolicy (call : Call) (policy : PolicyRow) (expectedVersion : Option String) :
    Guarded Store := do
  call.checks.pass
  host.future policy.expiresAt call.now
  reject (((s.currentPolicies.find? (·.1 == call.budgetId)).map (·.2)) != expectedVersion)
    (refusal "Financial policy version conflict")
  reject (s.policies.any fun p => p.budgetId == call.budgetId && p.version == policy.version)
    (refusal "UNIQUE constraint failed")
  let updated : Store :=
    { s with policies := s.policies ++ [{ policy with budgetId := call.budgetId }] }
  (updated.setCurrentPolicy call.budgetId policy.version).invalidateProposals call.budgetId
    call.now none

/-- What `saveSupplementalFacts` and `approvePaymentPreference` do to the proposals. -/
def factsChanged (call : Call) : Guarded Store := do
  call.checks.pass
  s.invalidateProposals call.budgetId call.now none

/-! ## Reads -/

/-- `getClaimSet` and the other reads of a budget's claim set. -/
def getClaimSet (call : Call) : Guarded (ClaimSet × Store) := do
  call.checks.pass
  s.claimSet host call.budgetId call.now

/-- `listProspectiveClaims`: the claims are read after the claim set was refreshed. -/
def listProspectiveClaims (call : Call) : Guarded Store := do
  call.checks.pass
  let (_, s) ← s.claimSet host call.budgetId call.now
  .ok s

/-! ## Sessions -/

/-- The session of a budget with an id. -/
def sessionAt (budgetId id : String) : Option SessionRow :=
  s.sessions.find? fun t => t.budgetId == budgetId && t.id == id

/-- The upsert of `spend_sessions`. -/
def putSession (row : SessionRow) : Store :=
  { s with sessions :=
      if (s.sessionAt row.budgetId row.id).isSome then
        s.sessions.map fun t => if t.budgetId = row.budgetId ∧ t.id = row.id then row else t
      else s.sessions ++ [row] }

/-- The revision a session is saved against: the given one, or the present one. -/
def expectedRevision (budgetId now : String) : Option String → Guarded (String × Store)
  | some revision => .ok (revision, s)
  | none => do
    let (set, s) ← s.claimSet host budgetId now
    .ok (toString set.revision, s)

/-- The claim of a saved session: a new one takes the place of the stored one, and without a new one
a stored claim is cancelled, unless it was initiated. -/
def replaceSessionClaim (budgetId : String) (input : SaveSessionInput)
    (existing : Option LiquidityClaimBundle) : Guarded Store :=
  match input.claim with
  | some claim => do
    reject (input.expectedClaimSetRevision.all (· == "") || claim.state != .active ||
      claim.initiated) (refusal "Invalid session claim")
    s.persistClaim budgetId .session input.id claim
  | none =>
    match existing with
    | some b =>
      if isInitiated b then .ok s
      else s.persistClaim budgetId .session input.id { b with state := .cancelled }
    | none => .ok s

/-- The checks of a stored session before it is saved again. -/
def checkPrevious (call : Call) (id : String) : Option SessionRow → Guarded Unit
  | some previous => do
    reject (previous.actorId != call.actorId) (refusal "Session authorization denied")
    host.future previous.expiresAt call.now
    reject (s.hasVerifiedCompletion call.budgetId id) (refusal "Session already completed")
  | none => .ok ()

/-- `saveSpendSession` after its replay check. -/
def saveNewSession (call : Call) (input : SaveSessionInput) : Guarded Store := do
  let previous := s.sessionAt call.budgetId input.id
  reject ((previous.map (·.version)).getD 0 != input.expectedVersion)
    (refusal "Session version conflict")
  s.checkPrevious host call input.id previous
  let existing := previous.bind fun _ =>
    (s.ownedClaim call.budgetId .session input.id).map (·.bundle)
  reject (existing.any isInitiated && input.claim.isSome)
    (refusal "Initiated session claim cannot be replaced")
  let (expected, s) ← s.expectedRevision host call.budgetId call.now input.expectedClaimSetRevision
  let (_, s) ← s.validate host call.budgetId expected call.now none input.outcome true
  let s ← s.replaceSessionClaim call.budgetId input existing
  let s := s.putSession
    { budgetId := call.budgetId
      id := input.id
      actorId := call.actorId
      version := input.expectedVersion + 1
      expiresAt := input.expiresAt }
  let s ← s.invalidateProposals call.budgetId call.now (some input.id)
  s.record call.idempotencyKey "session:save" call.requestIdentity

def saveSpendSession (call : Call) (input : SaveSessionInput) : Guarded Store := do
  call.checks.pass
  host.future input.expiresAt call.now
  if ← s.replay call.idempotencyKey "session:save" call.requestIdentity then .ok s
  else s.saveNewSession host call input

/-- The claim of a cancelled session is released unless it was initiated. -/
def releaseSessionClaim (budgetId id : String) : Guarded Store :=
  match s.ownedClaim budgetId .session id with
  | some c =>
    if isInitiated c.bundle then .ok s
    else s.persistClaim budgetId .session id { c.bundle with state := .cancelled }
  | none => .ok s

/-- `cancelSpendSession` after its replay check. -/
def cancelSession (call : Call) (session : SessionRow) (expectedVersion : Nat) : Guarded Store := do
  reject (session.version != expectedVersion) (refusal "Session version conflict")
  reject (s.hasVerifiedCompletion call.budgetId session.id) (refusal "Session already completed")
  host.time call.now
  let s := s.putSession { session with version := session.version + 1, expiresAt := call.now }
  let s ← s.releaseSessionClaim call.budgetId session.id
  let s ← s.invalidateProposals call.budgetId call.now (some session.id)
  s.record call.idempotencyKey "session:cancel" call.requestIdentity

def cancelSpendSession (call : Call) (id : String) (expectedVersion : Nat) : Guarded Store := do
  let session ← orStop (s.sessionAt call.budgetId id) (refusal "Session unavailable")
  call.checks.pass
  reject (session.actorId != call.actorId) (refusal "Session authorization denied")
  if ← s.replay call.idempotencyKey "session:cancel" call.requestIdentity then .ok s
  else s.cancelSession host call session expectedVersion

/-! ## Prospective claims -/

/-- The insert of a claim's metadata. -/
def insertMetadata (row : MetadataRow) : Guarded Store := do
  reject (s.metadata.any fun m => m.budgetId == row.budgetId && m.claimId == row.claimId)
    (refusal "UNIQUE constraint failed")
  .ok { s with metadata := s.metadata ++ [row] }

/-- The mode of a claim. -/
def claimMode (claim : ProspectiveClaim) (policy : PolicyRow) : ClaimMode :=
  if claim.kind = .commitment then .block else policy.reservationMode

/-- `saveProspectiveClaim` after its replay check. -/
def saveNewClaim (call : Call) (input : SaveClaimInput) : Guarded Store := do
  let claim := input.claim
  let policy ← s.currentPolicy call.budgetId
  host.future policy.expiresAt call.now
  let (expiresAt, effect) ← prospectiveInput host claim policy call.now
  reject (s.claimAt call.budgetId claim.claimId).isSome (refusal "Claim ID already exists")
  reject ((sourceSession claim.sourceId).any (s.hasVerifiedCompletion call.budgetId))
    (refusal "Session already completed")
  let (_, s) ← s.claimSet host call.budgetId call.now
  s.assertNoDuplicateEffect call.budgetId effect (some claim.sourceId)
  let mode := claimMode claim policy
  let (_, s) ← s.validate host call.budgetId input.expectedClaimSetRevision call.now none
    input.outcome (mode == .block)
  let s ← s.persistClaim call.budgetId .prospective claim.claimId
    { id := claim.claimId
      creationSnapshotId := claim.snapshotId
      creationPolicyVersion := claim.policyVersion
      state := .active
      expiresAt
      initiated := false
      effects := [effect] }
  let s ← s.insertMetadata
    { budgetId := call.budgetId
      claimId := claim.claimId
      actorId := call.actorId
      mode
      lifecycleState := .active
      sourceId := claim.sourceId
      policyVersion := claim.policyVersion
      claim := { claim with expiresAt := some expiresAt }
      updatedAt := call.now }
  s.record call.idempotencyKey "prospective_claim:save" call.requestIdentity

def saveProspectiveClaim (call : Call) (input : SaveClaimInput) : Guarded Store := do
  call.checks.pass
  host.time call.now
  if ← s.replay call.idempotencyKey "prospective_claim:save" call.requestIdentity then
    s.listProspectiveClaims host call
  else s.saveNewClaim host call input

/-- The metadata of a claim id. -/
def metadataAt (budgetId claimId : String) : Option MetadataRow :=
  s.metadata.find? fun m => m.budgetId == budgetId && m.claimId == claimId

/-- The evidence of a claim that is consumed is new and verified. -/
def checkConsumption (budgetId : String) (evidenceId : Option String)
    (verified : Option Validation) : ClaimTransition → Guarded Unit
  | .release => .ok ()
  | .consume => do
    reject (s.metadata.any fun m => m.budgetId == budgetId &&
      m.consumptionEvidenceId.isSome && m.consumptionEvidenceId == evidenceId)
      (refusal "Consumption evidence already consumed")
    let result ← orStop verified (refusal "Invalid trusted consumption verification result")
    reject (!result.valid)
      (refusal (result.reason.getD "Trusted consumption verification failed"))

/-- The update of a claim's metadata when it leaves the active state. -/
def leaveActive (budgetId claimId now : String) (state : ClaimLifecycle)
    (evidenceId : Option String) : Guarded Store := do
  reject (evidenceId.isSome && s.metadata.any fun m => m.budgetId == budgetId &&
    m.consumptionEvidenceId == evidenceId) (refusal "UNIQUE constraint failed")
  .ok { s with metadata := s.metadata.map fun m =>
    if m.budgetId = budgetId ∧ m.claimId = claimId ∧ m.lifecycleState = .active then
      { m with lifecycleState := state, updatedAt := now, consumptionEvidenceId := evidenceId }
    else m }

/-- `transitionProspectiveClaim` after its replay check. -/
def transitionClaim (call : Call) (input : TransitionInput) : Guarded Store := do
  let (set, s) ← s.claimSet host call.budgetId call.now
  reject (toString set.revision != input.expectedClaimSetRevision)
    (refusal "Claim-set revision conflict")
  let m ← orStop (s.metadataAt call.budgetId input.claimId)
    (refusal "Prospective claim unavailable")
  let evidenceId := (input.consumptionEvidenceId.map trim).filter (· != "")
  reject (input.transition == .consume && evidenceId.isNone) (refusal "Verified evidence required")
  reject (m.lifecycleState != .active) (refusal "Claim is not active")
  let c ← orStop (s.ownedClaim call.budgetId .prospective input.claimId)
    (refusal "Prospective claim unavailable")
  reject (isInitiated c.bundle) (refusal "Initiated claim cannot be released or consumed")
  reject (c.bundle.state != .active) (refusal "Claim is not active")
  s.checkConsumption call.budgetId evidenceId input.verified input.transition
  let (state, lifecycle) := input.transition.target
  let s ← s.persistClaim call.budgetId .prospective input.claimId { c.bundle with state }
  let s ← s.leaveActive call.budgetId input.claimId call.now lifecycle evidenceId
  s.record call.idempotencyKey "prospective_claim:transition" call.requestIdentity

def transitionProspectiveClaim (call : Call) (input : TransitionInput) : Guarded Store := do
  call.checks.pass
  host.time call.now
  reject (isBlank input.claimId) (refusal "Invalid claim ID")
  reject (s.metadataAt call.budgetId input.claimId).isNone (refusal "Prospective claim unavailable")
  if ← s.replay call.idempotencyKey "prospective_claim:transition" call.requestIdentity then .ok s
  else s.transitionClaim host call input

end Store

end BalanceFrame.Holds
