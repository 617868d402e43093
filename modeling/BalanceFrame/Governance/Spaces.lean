import BalanceFrame.Governance.Authorize

/-!
# Spaces, membership periods and policy versions

Model of the writing side of `SpaceGovernance` (`packages/workflow-store/src/governance.ts`):
`parsePolicy`, `createSpace`, `bindBudget` with `importLegacyApprovalPolicy`,
`backfillKnownBudgetSpace`, `addMembership`, `acceptInvitedMembership`, `revokeMembership` and
`setPolicy`. An `INSERT` fails on the constraints of its table; an error rolls the operation's
transaction back, so an operation either fails or returns the store it leaves.
-/

namespace BalanceFrame.Governance

open Library
open Liquidity (Json)

/-- The texts that the calls of `randomUUID` in one operation return, in order. -/
abbrev Ids := Nat → String

/-- The texts after the first `n`. -/
def Ids.skip (ids : Ids) (n : Nat) : Ids := fun k => ids (n + k)

/-- `INSERT`, where no row may clash with the new one. -/
def insertRow {α : Type} (clashes : α → α → Bool) (rows : List α) (row : α) :
    Except String (List α) := do
  reject (rows.any (clashes row)) "UNIQUE constraint failed"
  .ok (rows ++ [row])

theorem insertRow_ok {α : Type} {clashes : α → α → Bool} {rows rows' : List α} {row : α} :
    insertRow clashes rows row = .ok rows' ↔
      (∀ r ∈ rows, clashes row r = false) ∧ rows' = rows ++ [row] := by
  simp only [insertRow, bind_ok, reject_ok, Except.ok.injEq]
  constructor
  · rintro ⟨-, h, rfl⟩
    exact ⟨fun r hr => Bool.eq_false_iff.mpr (List.any_eq_false.mp h r hr), rfl⟩
  · rintro ⟨h, rfl⟩
    exact ⟨(), List.any_eq_false.mpr fun r hr => Bool.eq_false_iff.mp (h r hr), rfl⟩

/-! ## Policies -/

def maxSafeInteger : Int := 9007199254740991

/-- `safeCount` with the minimum 1. -/
def safeCount (value : Option Json) : Except String Nat :=
  match value with
  | some (.number n) =>
    if 1 ≤ n ∧ n ≤ maxSafeInteger then .ok n.toNat else .error "Invalid governance count"
  | _ => .error "Invalid governance count"

/-- `ASSISTANCE_MAXIMUMS`. -/
def AssistanceMaximum.ofText : String → Option AssistanceMaximum
  | "analysis_only" => some .analysisOnly
  | "recommend_actions" => some .recommendActions
  | "create_approval_proposal" => some .createApprovalProposal
  | "execute_approved_actions" => some .executeApprovedActions
  | _ => none

/-- An element of `approvalThresholds`. -/
def parseThreshold (raw : Json) : Except String ApprovalThreshold :=
  match field raw "currency", field raw "amountMinorUnits" with
  | some (.string currency), some (.string amount) => do
    reject (!isCurrencyText currency) "Invalid approval threshold"
    let minorUnits ← orStop (safeMinor (some (.string amount))) "Invalid money amount"
    let required ← safeCount (field raw "requiredApprovers")
    .ok { currency, amountMinorUnits := minorUnits, requiredApprovers := required }
  | _, _ => .error "Invalid approval threshold"

/-- An entry of `operationApprovers`. -/
def parseOperationApprovers (entry : String × Json) : Except String (String × Nat) := do
  requireText entry.1 "operation"
  let count ← safeCount (some entry.2)
  .ok (entry.1, count)

/-- The assistance ceiling of a raw policy. -/
def parseAssistance : Option Json → Except String (Option AssistanceMaximum)
  | none | some .null => .ok none
  | some (.string word) =>
    match AssistanceMaximum.ofText word with
    | some assistance => .ok (some assistance)
    | none => .error "Invalid assistance maximum"
  | _ => .error "Invalid assistance maximum"

/-- `minimumApprovers`, 1 where it is omitted. -/
def parseMinimum : Option Json → Except String Nat
  | none => .ok 1
  | value => safeCount value

/-- `approvalThresholds`, none where they are omitted or `null`. -/
def parseThresholds : Option Json → Except String (List ApprovalThreshold)
  | none | some .null => .ok []
  | some (.array raw) => raw.mapM parseThreshold
  | _ => .error "Invalid approval thresholds"

/-- `operationApprovers`, none where they are omitted or `null`. -/
def parseOperations : Option Json → Except String (List (String × Nat))
  | none | some .null => .ok []
  | some (.object entries) => entries.mapM parseOperationApprovers
  | _ => .error "Invalid operation approval requirements"

/-- `parsePolicy` on the entries of a record. -/
def parsePolicy (input : Entries) : Except String GovernancePolicy := do
  let minimumApprovers ← parseMinimum (Json.get? input "minimumApprovers")
  let thresholds ← parseThresholds (Json.get? input "approvalThresholds")
  let operations ← parseOperations (Json.get? input "operationApprovers")
  let assistance ← parseAssistance (Json.get? input "assistanceMaximum")
  .ok { minimumApprovers, approvalThresholds := thresholds, operationApprovers := operations
        assistanceMaximum := assistance }

/-- `parsePolicy({})`. -/
def defaultPolicy : GovernancePolicy where
  minimumApprovers := 1
  approvalThresholds := []
  operationApprovers := []
  assistanceMaximum := none

example : parsePolicy [] = .ok defaultPolicy := rfl

/-! ## Inputs -/

structure CreateSpaceInput where
  actorId : String
  name : String
  kind : String
  now : String
  auth : OperationalAuth

structure BindBudgetInput where
  spaceId : String
  budgetId : String
  now : String
  auth : OperationalAuth

structure AddMembershipInput where
  spaceId : String
  actorId : String
  validFrom : String
  validUntil : Option String
  now : String
  auth : OperationalAuth

/-- `AcceptInvitedMembershipInput`, with `email.trim().toLowerCase()` for the email. -/
structure AcceptInvitedMembershipInput where
  claimId : String
  email : String
  now : String
  auth : OperationalAuth

structure RevokeMembershipInput where
  spaceId : String
  membershipId : String
  now : String
  auth : OperationalAuth

/-- `SetGovernancePolicyInput`. -/
structure SetPolicyInput where
  spaceId : String
  expectedVersion : Option String
  policy : Json
  now : String
  auth : OperationalAuth

def trim (s : String) : String :=
  String.ofList ((s.toList.dropWhile isJsSpace).reverse.dropWhile isJsSpace).reverse

namespace GovernanceDb

/-! ## Statements -/

/-- `INSERT INTO spaces`. -/
def insertSpace (db : GovernanceDb) (space : Space) : Except String GovernanceDb := do
  let spaces ← insertRow (fun s t => s.id == t.id || s.budgetId.isSome && s.budgetId == t.budgetId)
    db.spaces space
  .ok { db with spaces }

/-- `INSERT INTO space_memberships`, with the text comparison of its `CHECK`. -/
def insertMembership (db : GovernanceDb) (m : SpaceMembership) : Except String GovernanceDb := do
  reject (m.validUntil.any fun finish => !decide (m.validFrom < finish)) "CHECK constraint failed"
  let memberships ← insertRow (fun m m' => m.id == m'.id) db.memberships m
  .ok { db with memberships }

/-- `INSERT INTO governance_policies`: one row a version, one current row a space. -/
def insertPolicy (db : GovernanceDb) (row : PolicyRow) : Except String GovernanceDb := do
  let policies ← insertRow (fun p q => p.spaceId == q.spaceId &&
    (p.version == q.version || p.isCurrent && q.isCurrent)) db.policies row
  .ok { db with policies }

/-- `UPDATE governance_policies SET is_current=0`. -/
def retirePolicy (db : GovernanceDb) (spaceId : String) : GovernanceDb :=
  { db with policies := db.policies.map fun p =>
      if p.spaceId == spaceId && p.isCurrent then { p with isCurrent := false } else p }

/-- `INSERT INTO resource_grants`: one unrevoked row a period, capability and resource. -/
def insertGrantRow (db : GovernanceDb) (grant : ResourceGrant) : Except String GovernanceDb := do
  let grants ← insertRow (fun g h => g.id == h.id || g.membershipId.isSome &&
    g.membershipId == h.membershipId && g.capability == h.capability &&
    g.toResourceRef == h.toResourceRef && g.revokedAt.isNone && h.revokedAt.isNone) db.grants grant
  .ok { db with grants }

/-- `audit`. -/
def recordAudit (db : GovernanceDb) (id spaceId actorId classification : String)
    (subjectId : Option String) (now : String) (details : Json := .object []) :
    Except String GovernanceDb := do
  let audit ← insertRow (fun a b => a.id == b.id) db.audit
    { id, spaceId, actorId, classification, subjectId, timestamp := now, details }
  .ok { db with audit }

def insertGrant (db : GovernanceDb) (id : String) (member : SpaceMembership)
    (budgetId : Option String) (capability : String) (ref : ResourceRef)
    (restrictions : ResourceGrantRestrictions) (now : String) : Except String GovernanceDb :=
  db.insertGrantRow {
    toResourceRef := ref, id, spaceId := some member.spaceId, membershipId := some member.id
    actorId := member.actorId, budgetId, capability, granted := true, restrictions
    createdAt := now, updatedAt := now, revokedAt := none }

def createMembership (db : GovernanceDb) (id spaceId actorId grantedBy : String) (validFrom : Int)
    (validUntil : Option Int) (now origin : String) :
    Except String (GovernanceDb × SpaceMembership) := do
  let m : SpaceMembership := {
    id, spaceId, actorId, grantedBy, validFrom := toISOString validFrom
    validUntil := validUntil.map toISOString, revokedAt := none, createdAt := now, origin }
  let db ← db.insertMembership m
  .ok (db, m)

/-! ## Control -/

def manager (db : GovernanceDb) (m : SpaceMembership) (capability operation : String) : Bool :=
  (db.grants.find? fun g => g.actorId == m.actorId && g.spaceId == some m.spaceId &&
    g.membershipId == some m.id && g.capability == capability && g.resourceKind = .space &&
    g.resourceId == m.spaceId && g.granted && g.revokedAt.isNone).any fun g =>
      g.restrictions.operations.all (·.contains operation) &&
      g.restrictions.maxOperationCount != some 0 && g.restrictions.aggregateOnly != some true &&
      g.restrictions.proposalOnly != some true

def requireManager (db : GovernanceDb) (spaceId actorId capability now operation : String) :
    Except String SpaceMembership := do
  let membership ← db.currentMembership spaceId actorId now
  let m ← orStop membership "Space control authorization denied"
  reject (!db.manager m capability operation) "Space control authorization denied"
  .ok m

/-! ## Operations -/

def createSpace (db : GovernanceDb) (ids : Ids) (input : CreateSpaceInput) :
    Except String (GovernanceDb × Space) := do
  db.controlAuth input.auth input.actorId input.now
  requireText input.name "space name"
  let nowMillis ← isoTime input.now
  let space : Space := {
    id := ids 0, name := trim input.name, kind := input.kind, budgetId := none
    createdBy := input.actorId, createdAt := input.now, deletedAt := none }
  let db ← db.insertSpace space
  let (db, member) ← db.createMembership (ids 1) space.id input.actorId input.actorId nowMillis none
    input.now "created"
  let db ← controlCapabilities.zipIdx.foldlM (fun db c =>
    db.insertGrant (ids (2 + c.2)) member none c.1 ⟨.space, space.id⟩ {} input.now) db
  let db ← db.insertPolicy {
    spaceId := space.id, version := 1, policy := defaultPolicy, actorId := input.actorId
    createdAt := input.now, isCurrent := true }
  let db ← db.recordAudit (ids 12) space.id input.actorId "space_created" (some space.id) input.now
    (.object [("kind", .string input.kind)])
  .ok (db, space)

def legacyThresholds (legacy : Json) : Except String (List Json) :=
  match legacy, field legacy "thresholds" with
  | .null, _ => .error "Cannot read properties of null"
  | _, none | _, some .null => .ok []
  | _, some (.array values) => .ok values
  | _, _ => .error "Invalid legacy approval policy"

/-- A legacy threshold under the names that `parsePolicy` reads. -/
def legacyThreshold : Json → Except String Json
  | .object entries =>
    .ok (.object ((Json.get? entries "currency").toList.map (Prod.mk "currency") ++
      (Json.get? entries "minimumMinorUnits").toList.map (Prod.mk "amountMinorUnits") ++
      (Json.get? entries "minimumApprovers").toList.map (Prod.mk "requiredApprovers")))
  | _ => .error "Invalid legacy approval threshold"

/-- The raw policy that `importLegacyApprovalPolicy` builds from a legacy one. -/
def legacyPolicyInput (legacy : Json) : Except String Entries := do
  let thresholds ← legacyThresholds legacy
  let mapped ← thresholds.mapM legacyThreshold
  .ok ((field legacy "minimumApprovers").toList.map (Prod.mk "minimumApprovers") ++
    [("approvalThresholds", .array mapped)])

/-- The loop body of `importLegacyApprovalPolicy`: the next number for one legacy row. -/
def importLegacyRow (spaceId currentVersion : String) (state : GovernanceDb × Nat)
    (row : LegacyPolicyRow) : Except String (GovernanceDb × Nat) := do
  let policy ← parsePolicy (← legacyPolicyInput row.approvalPolicy)
  let index := state.2 + 1
  reject (!decide ((index : Int) ≤ maxSafeInteger)) "Governance policy version exhausted"
  let isCurrent := row.version == currentVersion
  let db := if isCurrent then state.1.retirePolicy spaceId else state.1
  let db ← db.insertPolicy {
    spaceId, version := index, policy, actorId := row.actorId, createdAt := row.createdAt
    isCurrent }
  .ok (db, index)

/-- The legacy rows of a budget in the order of their import. -/
def legacyRows (db : GovernanceDb) (budgetId : String) : List LegacyPolicyRow :=
  sortOn LegacyPolicyRow.createdAt (db.legacyPolicies.filter (·.budgetId == budgetId))

/-- The legacy version that is current for a budget. -/
def legacyVersion (db : GovernanceDb) (budgetId : String) : Option String :=
  (db.legacyCurrent.find? (·.1 == budgetId)).map Prod.snd

def importLegacyApprovalPolicy (db : GovernanceDb) (auditId spaceId budgetId actorId now : String) :
    Except String GovernanceDb :=
  match db.legacyVersion budgetId with
  | none => .ok db
  | some current => do
    let rows := db.legacyRows budgetId
    reject (!rows.any (·.version == current)) "Legacy financial policy unavailable"
    let index := (db.getPolicy spaceId).elim 0 (·.version)
    reject (!decide ((index : Int) ≤ maxSafeInteger)) "Governance policy version exhausted"
    let (db, _) ← rows.foldlM (importLegacyRow spaceId current) (db, index)
    db.recordAudit auditId spaceId actorId "legacy_approval_policy_imported" (some budgetId) now
      (.object [("versions", .number rows.length)])

/-- The checks that `bindBudget` makes before its transaction and again inside. -/
def checkConnection (db : GovernanceDb) (input : BindBudgetInput) : Except String Unit := do
  reject (db.registeredOwner != some input.auth.actorId) "Registered connection owner required"
  let _ ← db.requireManager input.spaceId input.auth.actorId "connection:manage" input.now
    "connection:budget.bind"
  .ok ()

/-- `UPDATE spaces SET budget_id=?`. -/
def bindSpace (db : GovernanceDb) (spaceId budgetId : String) : GovernanceDb :=
  { db with spaces := db.spaces.map fun s =>
      if s.id == spaceId && s.budgetId.isNone then { s with budgetId := some budgetId } else s }

def bindBudget (db : GovernanceDb) (ids : Ids) (input : BindBudgetInput) :
    Except String (GovernanceDb × Space) := do
  db.controlAuth input.auth input.auth.actorId input.now
  requireText input.budgetId "budget ID"
  let _ ← isoTime input.now
  let space ← orStop (db.space input.spaceId) "Space unavailable"
  db.checkConnection input
  reject space.budgetId.isSome "Space budget binding cannot change"
  db.checkConnection input
  reject (db.spaces.any (·.budgetId == some input.budgetId)) "Budget is already bound to a space"
  let db ← (db.bindSpace input.spaceId input.budgetId).importLegacyApprovalPolicy (ids 0) input.spaceId input.budgetId input.auth.actorId
    input.now
  let db ← db.recordAudit (ids 1) input.spaceId input.auth.actorId "budget_bound"
    (some input.budgetId) input.now
  .ok (db, { space with budgetId := some input.budgetId })

/-- A legacy grant under a membership period. -/
def importGrant (id : String) (space : Space) (member : SpaceMembership) (now : String)
    (legacy : ResourceGrant) (db : GovernanceDb) : Except String GovernanceDb :=
  db.insertGrantRow {
    toResourceRef := legacy.toResourceRef, id, spaceId := some space.id
    membershipId := some member.id, actorId := member.actorId, budgetId := space.budgetId
    capability := legacy.capability, granted := legacy.granted, restrictions := {}
    createdAt := now, updatedAt := now, revokedAt := if legacy.granted then none else some now }

/-- Where `backfillKnownBudgetSpace` stands: the store, the number of texts used and of memberships
created. -/
structure Backfill where
  db : GovernanceDb
  used : Nat
  created : Nat

/-- The unrevoked period of a known actor, created where there is none. -/
def backfillMember (ids : Ids) (space : Space) (input : CreateSpaceInput) (nowMillis : Int)
    (state : Backfill) (actorId : String) : Except String (Backfill × SpaceMembership) :=
  match (state.db.periods space.id actorId).head? with
  | some m => .ok (state, m)
  | none => do
    let (db, m) ← state.db.createMembership (ids state.used) space.id actorId input.actorId nowMillis
      none input.now "migration"
    .ok (⟨db, state.used + 1, state.created + 1⟩, m)

/-- The loop body of `backfillKnownBudgetSpace` for one known actor. -/
def backfillActor (ids : Ids) (space : Space) (input : CreateSpaceInput) (nowMillis : Int)
    (oldGrants : List ResourceGrant) (state : Backfill) (actorId : String) :
    Except String Backfill := do
  let (state, member) ← backfillMember ids space input nowMillis state actorId
  (oldGrants.filter (·.actorId == actorId)).foldlM (fun state legacy => do
    let db ← importGrant (ids state.used) space member input.now legacy state.db
    .ok { state with db, used := state.used + 1 }) state

/-- `backfillKnownBudgetSpace`. The known actors are distinct; which of them comes first shows only
in the order of the rows. -/
def backfillKnownBudgetSpace (db : GovernanceDb) (ids : Ids) (input : CreateSpaceInput)
    (budgetId : String) : Except String (GovernanceDb × Space) := do
  let nowMillis ← isoTime input.now
  requireText budgetId "budget ID"
  let (db, created) ← db.createSpace ids input
  let (db, space) ← db.bindBudget (ids.skip 13)
    { spaceId := created.id, budgetId, now := input.now, auth := input.auth }
  let scope := s!"budget:{budgetId}"
  let oldGrants := db.grants.filter fun g =>
    g.spaceId.isNone && g.membershipId.isNone && g.budgetId == some budgetId
  let knownActors := ((db.identities.filter (·.scope == scope)).map (·.actorId) ++
    oldGrants.map (·.actorId)).dedup
  let state ← knownActors.foldlM (backfillActor ids space input nowMillis oldGrants) ⟨db, 15, 0⟩
  let db ← state.db.recordAudit (ids state.used) space.id input.actorId "legacy_budget_backfilled"
    (some budgetId) input.now (.object [("memberships", .number state.created),
      ("importedGrantCount", .number oldGrants.length), ("explicitBudgetScope", .string scope)])
  .ok (db, space)

/-- A period that is open or ends after a time. -/
def endsAfter (t : Int) (m : SpaceMembership) : Except String Bool :=
  match m.validUntil with
  | none => .ok true
  | some endText => do .ok (decide (t < (← isoTime endText)))

/-- A period overlaps the one from `start` to `finish`, as `addMembership` tests it: the second
comparison is made only if the first holds. -/
def overlaps (start : Int) (finish : Option Int) (m : SpaceMembership) : Except String Bool := do
  if ← endsAfter start m then do
    let periodStart ← isoTime m.validFrom
    .ok (finish.all (periodStart < ·))
  else .ok false

/-- `periods.some(...)`, stopping at the first that holds or throws. -/
def someOverlap (start : Int) (finish : Option Int) : List SpaceMembership → Except String Bool
  | [] => .ok false
  | m :: rest => do
    if ← overlaps start finish m then .ok true else someOverlap start finish rest

/-- An end that may be omitted. -/
def isoUntil : Option String → Except String (Option Int)
  | none => .ok none
  | some text => some <$> isoTime text

def addMembership (db : GovernanceDb) (ids : Ids) (input : AddMembershipInput) :
    Except String (GovernanceDb × SpaceMembership) := do
  db.controlAuth input.auth input.auth.actorId input.now
  let manager ← db.requireManager input.spaceId input.auth.actorId "identity:manage" input.now
    "membership:add"
  reject ((db.space input.spaceId).isNone || !db.activeIdentity input.actorId)
    "Membership identity unavailable"
  let start ← isoTime input.validFrom
  let finish ← isoUntil input.validUntil
  reject (finish.any (· ≤ start)) "Invalid membership interval"
  let overlap ← someOverlap start finish (db.periods input.spaceId input.actorId)
  reject overlap "Membership periods overlap"
  let (db, m) ← db.createMembership (ids 0) input.spaceId input.actorId manager.actorId start finish
    input.now "managed"
  let db ← db.recordAudit (ids 1) input.spaceId manager.actorId "membership_added" (some m.id)
    input.now (.object [("actorId", .string input.actorId)])
  .ok (db, m)

/-- `periods.some(...)` of `acceptInvitedMembership`. -/
def someEndsAfter (now : Int) : List SpaceMembership → Except String Bool
  | [] => .ok false
  | m :: rest => do
    if ← endsAfter now m then .ok true else someEndsAfter now rest

/-- The audit record of an accepted invitation. -/
def auditAccepted (db : GovernanceDb) (id : String) (space : Space) (invitation : Invitation)
    (issuer : SpaceMembership) (policy : PolicyRow) (input : AcceptInvitedMembershipInput)
    (m : SpaceMembership) (existing : Bool) : Except String GovernanceDb :=
  let (session, reauth) := match input.auth.credential with
    | .humanSession session reauth => (session, reauth)
    | _ => ("", "")
  db.recordAudit id space.id input.auth.actorId "invitation_membership_accepted" (some m.id)
    input.now (.object [("invitationId", .string invitation.id),
      ("issuerActorId", .string issuer.actorId), ("issuerMembershipId", .string issuer.id),
      ("governancePolicyVersion", .string (toString policy.version)),
      ("existingMembership", .bool existing), ("reauthenticatedSessionId", .string session),
      ("reauthenticatedAt", .string reauth)])

/-- The checks of `acceptInvitedMembership` up to the issuer's authority. -/
def checkInvitation (db : GovernanceDb) (input : AcceptInvitedMembershipInput) (now : Int) :
    Except String (Space × Invitation × SpaceMembership × PolicyRow) := do
  let invalid := "Invitation invalid"
  reject (isBlank input.claimId || input.email == "") invalid
  let invitation ← orStop (db.invitations.find? (·.claimId == input.claimId)) invalid
  let spaceId ← orStop invitation.spaceId invalid
  let issuerId ← orStop invitation.issuerMembershipId invalid
  let version ← orStop invitation.governancePolicyVersion invalid
  let expiry ← orStop invitation.expiresAt invalid
  reject (invitation.status != "claimed" || invitation.claimedEmail != some input.email) invalid
  let expiresAt ← orStop (timestampMillis expiry) invalid
  let space ← orStop (db.space spaceId) invalid
  let policy ← orStop (db.getPolicy spaceId) invalid
  reject (expiresAt ≤ now || toString policy.version != version) invalid
  let period ← orStop (db.membershipById issuerId) invalid
  reject (period.spaceId != space.id) invalid
  let issuer ← orStop (db.requireManager space.id period.actorId "membership:manage" input.now
    "invitation.create").toOption invalid
  reject (issuer.id != period.id || !db.activeIdentity input.auth.actorId ||
    (db.getAgent input.auth.actorId).isSome) invalid
  .ok (space, invitation, issuer, policy)

def acceptInvitedMembership (db : GovernanceDb) (ids : Ids) (input : AcceptInvitedMembershipInput) :
    Except String (GovernanceDb × SpaceMembership) := do
  db.controlAuth input.auth input.auth.actorId input.now
  let now ← isoTime input.now
  let (space, invitation, issuer, policy) ← db.checkInvitation input now
  match ← db.currentMembership space.id input.auth.actorId input.now with
  | some current => do
    let db ← db.auditAccepted (ids 0) space invitation issuer policy input current true
    .ok (db, current)
  | none => do
    let later ← someEndsAfter now (db.periods space.id input.auth.actorId)
    reject later "Invitation invalid"
    let (db, m) ← db.createMembership (ids 0) space.id input.auth.actorId issuer.actorId now none
      input.now "managed"
    let db ← db.auditAccepted (ids 1) space invitation issuer policy input m false
    .ok (db, m)

/-- An unrevoked period with an id. -/
def isUnrevoked (spaceId membershipId : String) (m : SpaceMembership) : Bool :=
  m.spaceId == spaceId && m.id == membershipId && m.revokedAt.isNone

/-- `UPDATE space_memberships SET revoked_at=?`. -/
def revokePeriod (db : GovernanceDb) (spaceId membershipId now : String) : GovernanceDb :=
  { db with memberships := db.memberships.map fun m =>
      if isUnrevoked spaceId membershipId m then { m with revokedAt := some now } else m }

def revokeMembership (db : GovernanceDb) (ids : Ids) (input : RevokeMembershipInput) :
    Except String GovernanceDb := do
  let _ ← isoTime input.now
  let target ← orStop (db.membershipById input.membershipId) "Membership unavailable"
  reject (target.spaceId != input.spaceId) "Membership unavailable"
  db.controlAuth input.auth input.auth.actorId input.now
  let manager ← db.requireManager input.spaceId input.auth.actorId "identity:manage" input.now
    "membership:revoke"
  reject (!db.memberships.any (isUnrevoked input.spaceId input.membershipId))
    "Membership already revoked"
  (db.revokePeriod input.spaceId input.membershipId input.now).recordAudit (ids 0) input.spaceId manager.actorId "membership_revoked" (some target.id)
    input.now

/-- `current.assistanceMaximum` as `getPolicy` returns it. -/
def assistanceText (p : GovernancePolicy) : String :=
  match p.assistanceMaximum with
  | none | some .analysisOnly => "analysis_only"
  | some .recommendActions => "recommend_actions"
  | some .createApprovalProposal => "create_approval_proposal"
  | some .executeApprovedActions => "execute_approved_actions"

/-- The policy that `setPolicy` parses: an omitted ceiling stays what it was. -/
def inheritAssistance (current : Option PolicyRow) (raw : Entries) : Entries :=
  match Json.get? raw "assistanceMaximum", current with
  | none, some row => raw ++ [("assistanceMaximum", .string (assistanceText row.policy))]
  | _, _ => raw

/-- `record(input.policy)`. -/
def policyEntries : Json → Except String Entries
  | .object entries => .ok entries
  | _ => .error "Invalid governance policy"

def setPolicy (db : GovernanceDb) (ids : Ids) (input : SetPolicyInput) :
    Except String (GovernanceDb × PolicyRow) := do
  db.controlAuth input.auth input.auth.actorId input.now
  let manager ← db.requireManager input.spaceId input.auth.actorId "policy:manage" input.now
    "policy:update"
  let _ ← isoTime input.now
  let current := db.getPolicy input.spaceId
  reject (current.map (toString ·.version) != input.expectedVersion)
    "Governance policy version conflict"
  let raw ← policyEntries input.policy
  let policy ← parsePolicy (inheritAssistance current raw)
  let version := current.elim 0 (·.version) + 1
  reject (!decide ((version : Int) ≤ maxSafeInteger)) "Governance policy version exhausted"
  let row : PolicyRow := {
    spaceId := input.spaceId, version, policy, actorId := manager.actorId, createdAt := input.now
    isCurrent := true }
  let db ← (db.retirePolicy input.spaceId).insertPolicy row
  let db ← db.recordAudit (ids 0) input.spaceId manager.actorId "policy_changed"
    (some (toString version)) input.now
  .ok (db, row)

end GovernanceDb

end BalanceFrame.Governance
