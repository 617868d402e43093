import BalanceFrame.Governance.Payload

/-!
# Authorization

Model of the reading side of `SpaceGovernance` (`packages/workflow-store/src/governance.ts`):
`credentialLifetimeValid`, `controlAuth`, `currentMembership`, `currentDelegation`,
`resolveCredentialPrincipal`, `currentGrant`, `restrictionsAllow` and `authorizeForPurpose`. A
denial keeps what `denied` is called with; an error thrown inside `authorizeForPurpose` is the
denial its `catch` returns.

The evaluator stops at the first check that fails. `authorizeForPurpose` is cut into its parts, each
a computation that stops with the denial: `checkRequest`, `checkPrincipal`, `checkApproval`,
`checkCoverage`, `resolveMember`, `checkRight` and `checkSubject`.
-/

namespace BalanceFrame.Governance

open Library
open Liquidity (Json)

/-! ## Time -/

def isCurrentAt (validFrom : String) (validUntil : Option String) (now : String) :
    Except String Bool := do
  let instant ← isoTime now
  let start ← isoTime validFrom
  if start ≤ instant then
    match validUntil with
    | none => .ok true
    | some untilText => do
      let finish ← isoTime untilText
      .ok (instant < finish)
  else .ok false

def credentialLifetimeValid (auth : OperationalAuth) (now : String) : Bool :=
  match timestampMillis now with
  | none => false
  | some current =>
    (match auth.credentialExpiresAt with
      | some (some expiresAt) => (timestampMillis expiresAt).any (current < ·)
      | _ => true) &&
    (match auth.isCredentialValid with
      | some check => check now
      | none => true)

def requireText (value label : String) : Except String Unit :=
  reject (isBlank value) s!"Invalid {label}"

/-! ## Lookups -/

namespace GovernanceDb

variable (db : GovernanceDb)

def activeIdentity (actorId : String) : Bool :=
  (db.identities.find? (·.actorId == actorId)).any (·.status == "active")

/-- `space` without deleted ones. -/
def space (spaceId : String) : Option Space :=
  db.spaces.find? fun s => s.id == spaceId && s.deletedAt.isNone

def membershipById (membershipId : String) : Option SpaceMembership :=
  db.memberships.find? (·.id == membershipId)

/-- The unrevoked periods of an actor in a space. -/
def periods (spaceId actorId : String) : List SpaceMembership :=
  db.memberships.filter fun m => m.spaceId == spaceId && m.actorId == actorId && m.revokedAt.isNone

/-- `periods.filter(...)` at a time. -/
def activePeriods (spaceId actorId now : String) : Except String (List SpaceMembership) :=
  (db.periods spaceId actorId).filterM fun m => isCurrentAt m.validFrom m.validUntil now

def currentMembership (spaceId actorId now : String) : Except String (Option SpaceMembership) :=
  if db.activeIdentity actorId && (db.space spaceId).isSome then do
    match ← db.activePeriods spaceId actorId now with
    | [m] => .ok (some m)
    | _ => .ok none
  else .ok none

/-- `getPolicy`: the row marked current. -/
def getPolicy (spaceId : String) : Option PolicyRow :=
  db.policies.find? fun p => p.spaceId == spaceId && p.isCurrent

def getAgent (agentId : String) : Option GovernanceAgent :=
  db.agents.find? (·.agentId == agentId)

def getCredentialBinding (credentialId : String) : Option CredentialBinding :=
  db.credentials.find? (·.credentialId == credentialId)

/-- The unrevoked delegation with an id and a version. -/
def delegation (id version : String) : Option AgentDelegation :=
  db.delegations.find? fun d => d.id == id && d.version == version && d.revokedAt.isNone

/-- `membership?.id === id`. -/
def isMembership (membership : Option SpaceMembership) (id : String) : Bool :=
  membership.any (·.id == id)

def currentDelegation (id version now : String) : Except String (Option AgentDelegation) :=
  match db.delegation id version with
  | none => .ok none
  | some d => do
    if ← isCurrentAt d.validFrom d.validUntil now then
      if (db.getAgent d.agentId).any (·.status = .active) then do
        let issuer ← db.currentMembership d.spaceId d.issuerActorId now
        .ok (if isMembership issuer d.issuerMembershipId then some d else none)
      else .ok none
    else .ok none

structure CredentialPrincipal where
  actorId : String
  credentialId : String
  credentialOwnerId : String
  /-- The delegation of an agent principal. -/
  agent : Option (String × String)
  deriving DecidableEq

/-- The part of `resolveCredentialPrincipal` for a bound credential whose issuer is current. -/
def boundPrincipal (binding : CredentialBinding) (referenceId now : String) :
    Except String (Option CredentialPrincipal) :=
  match binding.principalType with
  | .human =>
    .ok (if binding.principalId == referenceId then
      some ⟨binding.principalId, binding.credentialId, binding.credentialOwnerId, none⟩ else none)
  | .agent =>
    match binding.delegationId, binding.delegationVersion with
    | some id, some version => do
      match ← db.currentDelegation id version now with
      | none => .ok none
      | some d =>
        .ok (if d.spaceId == binding.spaceId && d.agentId == binding.principalId &&
            d.issuerActorId == binding.credentialOwnerId &&
            d.issuerMembershipId == binding.issuerMembershipId then
          some ⟨binding.principalId, binding.credentialId, binding.credentialOwnerId,
            some (d.id, d.version)⟩ else none)
    | _, _ => .ok none

def resolveCredentialPrincipal (credentialId referenceId : String) (spaceId : Option String)
    (now : String) : Except String (Option CredentialPrincipal) := do
  let _ ← isoTime now
  match db.getCredentialBinding credentialId with
  | none =>
    if db.activeIdentity referenceId then do
      let member ← match spaceId with
        | none => .ok true
        | some s => (·.isSome) <$> db.currentMembership s referenceId now
      .ok (if member then some ⟨referenceId, credentialId, referenceId, none⟩ else none)
    else .ok none
  | some binding =>
    if binding.revokedAt.isNone && binding.credentialOwnerId == referenceId &&
        spaceId.all (binding.spaceId == ·) && db.activeIdentity binding.credentialOwnerId &&
        (db.membershipById binding.issuerMembershipId).any fun m =>
          m.spaceId == binding.spaceId && m.actorId == binding.credentialOwnerId then do
      let owner ← db.currentMembership binding.spaceId binding.credentialOwnerId now
      if isMembership owner binding.issuerMembershipId then db.boundPrincipal binding referenceId now
      else .ok none
    else .ok none

def currentGrant (actorId spaceId membershipId : String) (budgetId : Option String)
    (required : ResourceRef) (capability : String) : Option ResourceGrant := do
  let row ← db.grants.find? fun g => g.actorId == actorId && g.spaceId == some spaceId &&
    g.membershipId == some membershipId && g.capability == capability &&
    g.resourceKind == required.resourceKind && g.resourceId == required.resourceId && g.granted &&
    g.revokedAt.isNone
  if required.resourceKind ≠ .space ∧ budgetId ≠ none ∧ row.budgetId ≠ budgetId then none
  else some row

def controlAuth (auth : OperationalAuth) (actorId now : String) : Except String Unit :=
  match auth.credential with
  | .humanSession sessionId reauthenticatedAt => do
    let current ← isoTime now
    let reauth ← isoTime reauthenticatedAt
    reject (!(auth.actorId == actorId && !isBlank sessionId && reauth ≤ current &&
      current - reauth ≤ 300000 && db.activeIdentity actorId && credentialLifetimeValid auth now))
      "Recent reauthenticated human session required"
  | _ => .error "Recent reauthenticated human session required"

end GovernanceDb

/-! ## Restrictions -/

inductive Purpose
  | operation
  | ruleInspection
  deriving DecidableEq

def financialRestrictionsAllow (r : ResourceGrantRestrictions) (operationCount : Nat)
    (gross : List (String × Nat)) : Bool :=
  r.maxOperationCount.all (operationCount ≤ ·) &&
  r.maxGrossOutgoing.all fun limits =>
    limits.all (fun limit => totalOf gross limit.currency ≤ limit.minorUnits) &&
    gross.all fun entry =>
      (limits.find? (·.currency == entry.1)).any fun limit => entry.2 ≤ limit.minorUnits

/-- The part of `restrictionsAllow` under `restrictions.accountIds`. -/
def accountsAllow (allowed : List String) (input : AuthorizationInput) (p : PreparedPayload)
    (purpose : Purpose) : Bool :=
  (purpose != .operation ||
    !(isRuleOperation input.operation && !p.ruleOperationNames.contains input.operation &&
        p.subjectOperation != some input.operation ||
      p.invalidRuleScope || p.subjectOperation.any isRuleOperation) &&
    p.ruleAccountIds.all fun id => id.any allowed.contains) &&
  p.accountIds.all allowed.contains

def restrictionsAllow (r : ResourceGrantRestrictions) (input : AuthorizationInput)
    (p : PreparedPayload) (visibility : Option Visibility) (purpose : Purpose) : Bool :=
  !(r.aggregateOnly = some true && (visibility != some .aggregate || input.phase != .read)) &&
  !(r.proposalOnly = some true && input.phase != .propose) &&
  !(purpose = .operation && input.phase != .read && p.ruleOperationNames.contains "create_rule" &&
    (r.categoryIds.isSome || r.maxOperationCount.isSome || r.maxGrossOutgoing.isSome)) &&
  r.operations.all (fun allowed => p.operationNames.all allowed.contains) &&
  r.accountIds.all (fun allowed => accountsAllow allowed input p purpose) &&
  r.categoryIds.all (fun allowed => p.categoryIds.all allowed.contains) &&
  financialRestrictionsAllow r p.operationCount p.gross

/-- `/manage|approv|settle|confirm|control/i`. -/
def namesHumanAuthority (capability : String) : Bool :=
  let text := capability.toList.map Char.toLower
  ["manage", "approv", "settle", "confirm", "control"].any fun word =>
    text.tails.any fun rest => word.toList.isPrefixOf rest

def controlCapabilities : List String :=
  ["space:manage", "identity:manage", "membership:manage", "connection:manage", "policy:manage",
    "grant:manage", "agent:manage", "delegation:manage", "credential:manage", "audit:read"]

def nonDelegableAgentCapability (capability : String) : Bool :=
  controlCapabilities.contains capability || namesHumanAuthority capability ||
    capability == "initiation-report"

/-! ## The evaluator -/

/-- What `denied` is called with. -/
structure Denial where
  reason : String
  policyVersion : Option String := none
  membershipId : Option String := none
  requiredApprovers : Nat := 0
  deriving DecidableEq

/-- The denial of the `catch`. -/
def malformed : Denial := { reason := "Malformed governance request" }

/-- A computation whose error reaches the `catch`. -/
def attempt {α : Type} : Except String α → Except Denial α
  | .ok a => .ok a
  | .error _ => .error malformed

@[simp] theorem attempt_eq_ok {α : Type} {x : Except String α} {a : α} :
    attempt x = .ok a ↔ x = .ok a := by
  cases x <;> simp [attempt]

/-- The credential of an agent. -/
structure AgentAuth where
  actorId : String
  credentialOwnerId : String
  delegationId : String
  delegationVersion : String
  deriving DecidableEq

def agentAuth (input : AuthorizationInput) : Option AgentAuth := do
  let auth ← input.auth
  match auth.credential with
  | .agentKey _ owner id version => some ⟨auth.actorId, owner, id, version⟩
  | _ => none

/-- The checks on space, policy and the shape of the identity. -/
def checkRequest (db : GovernanceDb) (input : AuthorizationInput) (purpose : Purpose) :
    Except Denial (Space × PolicyRow) := do
  let _ ← attempt (isoTime input.now)
  attempt (requireText input.operation "operation")
  let space ← orStop (db.space input.spaceId) { reason := "Space unavailable" }
  reject (purpose = .ruleInspection && !(space.budgetId.any fun budgetId =>
      budgetId != "" && input.required.any fun r =>
        r.resourceKind = .budget && r.resourceId == budgetId))
    { reason := "Rule inspection budget does not match the selected space" }
  let policy ← orStop (db.getPolicy input.spaceId)
    { reason := "Current governance policy unavailable" }
  let version := some (toString policy.version)
  reject (toString policy.version != input.expectedPolicyVersion)
    { reason := "Governance policy version mismatch", policyVersion := version }
  reject (input.auth.any (·.actorId != input.actorId))
    { reason := "Verified operation identity does not match actor", policyVersion := version }
  reject (input.auth.any fun auth => !credentialLifetimeValid auth input.now)
    { reason := "Verified operation credential is no longer current", policyVersion := version }
  reject (input.agentId.any fun agentId => (agentAuth input).all (·.actorId != agentId))
    { reason := "Agent principal does not match verified credential", policyVersion := version }
  .ok (space, policy)

/-- The check of an API key against its binding. -/
def checkPrincipal (db : GovernanceDb) (input : AuthorizationInput) (version : Option String) :
    Except Denial Unit :=
  match input.auth with
  | none => .ok ()
  | some auth =>
    match auth.credential with
    | .humanKey credentialId owner => do
      let principal ← attempt
        (db.resolveCredentialPrincipal credentialId owner (some input.spaceId) input.now)
      reject (!(principal.any (fun p => p.agent.isNone && p.actorId == input.actorId) &&
          owner == input.actorId))
        { reason := "Human credential binding unavailable", policyVersion := version }
    | .agentKey credentialId owner delegationId delegationVersion => do
      let principal ← attempt
        (db.resolveCredentialPrincipal credentialId owner (some input.spaceId) input.now)
      reject (!(principal.any fun p => p.agent == some (delegationId, delegationVersion) &&
          p.actorId == input.actorId && p.credentialOwnerId == owner))
        { reason := "Agent credential binding unavailable", policyVersion := version }
    | _ => .ok ()

/-- The check of the phase `approve`. -/
def checkApproval (db : GovernanceDb) (input : AuthorizationInput) (version : Option String) :
    Except Denial Unit :=
  if input.phase = .approve then
    match input.auth with
    | some ⟨actorId, .humanSession sessionId reauthenticatedAt, expires, check⟩ => do
      reject (actorId != input.actorId)
        { reason := "Human approval requires a reauthenticated session", policyVersion := version }
      match db.controlAuth ⟨actorId, .humanSession sessionId reauthenticatedAt, expires, check⟩
          input.actorId input.now with
      | .ok () => .ok ()
      | .error _ =>
        .error { reason := "Recent reauthenticated human session required", policyVersion := version }
    | _ =>
      .error
        { reason := "Human approval requires a reauthenticated session", policyVersion := version }
  else .ok ()

def requiredApprovers (policy : GovernancePolicy) (p : PreparedPayload) : Nat :=
  let byAmount := policy.approvalThresholds.foldl (fun n t =>
    if t.amountMinorUnits ≤ totalOf p.gross t.currency then max n t.requiredApprovers else n)
    policy.minimumApprovers
  p.operationNames.foldl (fun n name =>
    max n ((policy.operationApprovers.find? (·.1 == name)).elim 0 Prod.snd)) byAmount

/-- A required budget whose visibility is aggregate. -/
def aggregateGrant (input : AuthorizationInput) : Bool :=
  input.required.any fun r => r.resourceKind = .budget && r.visibility = some .aggregate

def aggregateConclusionRead (input : AuthorizationInput) : Bool :=
  input.phase = .read && input.operation == "conclusion" && input.required.any fun r =>
    r.capability == "conclusion" && r.resourceKind = .budget && r.visibility = some .aggregate

def budgetResourceRead (input : AuthorizationInput) : Bool :=
  input.phase = .read && input.required.any fun r =>
    r.capability == "full-read" && r.resourceKind = .budget && r.visibility = some .resource

/-- The resource is required, or one of the exceptions covers it. -/
def isCovered (input : AuthorizationInput) (resource : ResourceRef) : Bool :=
  input.required.any (·.toResourceRef = resource) ||
  (budgetResourceRead input &&
    [ResourceKind.account, .category, .transaction, .rule].contains resource.resourceKind) ||
  ((resource.resourceKind = .account || resource.resourceKind = .category) &&
    aggregateGrant input) ||
  (aggregateConclusionRead input &&
    [ResourceKind.transaction, .evidence, .reservation, .commitment, .rule].contains
      resource.resourceKind)

/-- The text of a kind. -/
def ResourceKind.text : ResourceKind → String
  | .space => "space"
  | .budget => "budget"
  | .account => "account"
  | .category => "category"
  | .transaction => "transaction"
  | .rule => "rule"
  | .evidence => "evidence"
  | .wallet => "wallet"
  | .receipt => "receipt"
  | .commitment => "commitment"
  | .scenario => "scenario"
  | .reservation => "reservation"
  | .purchase => "purchase"
  | .transfer => "transfer"
  | .ledgerEffect => "ledger_effect"
  | .session => "session"
  | .proposal => "proposal"

/-- The loop body for one resource of the payload: a batch may leave evidence uncovered. -/
def coverResource (input : AuthorizationInput) (batch : Bool) (version : Option String)
    (uncovered : List String) (resource : ResourceRef) : Except Denial (List String) :=
  if isCovered input resource then .ok uncovered
  else if batch && resource.resourceKind = .evidence then
    .ok (if uncovered.contains resource.resourceId then uncovered
      else uncovered ++ [resource.resourceId])
  else
    .error
      { reason := s!"Payload resource omitted from authorization: {resource.resourceKind.text}"
        policyVersion := version }

/-- The loop over the payload's resources: the evidence that a batch leaves uncovered. -/
def checkCoverage (input : AuthorizationInput) (batch : Bool) (version : Option String)
    (resources : List ResourceRef) : Except Denial (List String) :=
  resources.foldlM (coverResource input batch version) []

/-- The acting membership: of the delegation's issuer, or of the human. -/
structure Acting where
  principalActorId : String
  member : SpaceMembership
  delegation : Option AgentDelegation
  deriving DecidableEq

/-- The agent branch: a current delegation of a current issuer. -/
def resolveAgent (db : GovernanceDb) (input : AuthorizationInput) (version : Option String)
    (auth : AgentAuth) : Except Denial Acting := do
  reject (!(input.actorId == auth.actorId && input.delegationId == some auth.delegationId &&
      input.delegationVersion == some auth.delegationVersion && auth.delegationId != "" &&
      auth.delegationVersion != "" && input.phase != .approve &&
      (input.phase != .execute || input.verifiedHumanApproval)))
    { reason := "Agent authority requires a current bounded delegation and exact human approval"
      policyVersion := version }
  let delegation ← attempt (db.currentDelegation auth.delegationId auth.delegationVersion input.now)
  let unavailable : Denial := { reason := "Current delegation unavailable", policyVersion := version }
  let d ← orStop delegation unavailable
  reject (!(d.spaceId == input.spaceId && d.agentId == auth.actorId)) unavailable
  let inactive : Denial :=
    { reason := "Delegation issuer or agent is inactive", policyVersion := version }
  let member ← attempt (db.currentMembership input.spaceId d.issuerActorId input.now)
  reject (!(db.getAgent auth.actorId).any (·.status = .active)) inactive
  let m ← orStop member inactive
  reject (!(m.id == d.issuerMembershipId && input.membershipId.all (· == m.id))) inactive
  let current ← attempt (isCurrentAt d.validFrom d.validUntil input.now)
  reject (!current) { reason := "Delegation expired", policyVersion := version }
  reject (m.id == "") { reason := "Membership unavailable", policyVersion := version }
  .ok { principalActorId := d.issuerActorId, member := m, delegation := some d }

/-- The human branch. -/
def resolveHuman (db : GovernanceDb) (input : AuthorizationInput) (version : Option String) :
    Except Denial Acting := do
  let unavailable : Denial := { reason := "Current membership unavailable", policyVersion := version }
  let member ← attempt (db.currentMembership input.spaceId input.actorId input.now)
  let m ← orStop member unavailable
  reject (!input.membershipId.all (· == m.id)) unavailable
  reject (m.id == "") { reason := "Membership unavailable", policyVersion := version }
  .ok { principalActorId := input.actorId, member := m, delegation := none }

def resolveMember (db : GovernanceDb) (input : AuthorizationInput) (version : Option String) :
    Except Denial Acting :=
  match agentAuth input with
  | some auth => resolveAgent db input version auth
  | none => resolveHuman db input version

/-- The first delegated right for a requirement. -/
def delegatedRight (acting : Acting) (ref : ResourceRef) (capability : String) :
    Option DelegatedRight :=
  acting.delegation.bind fun d => d.rights.find? fun right =>
    right.toResourceRef = ref && right.capability == capability

/-- `GovernanceFinancialDisclosure`. -/
structure FinancialDisclosure where
  operationCount : Nat
  grossOutgoing : List (String × Nat)
  deriving DecidableEq

/-- `GovernanceReadDisclosureLimits`. -/
structure ReadDisclosureLimits where
  collection : FinancialDisclosure
  subject : FinancialDisclosure
  deriving DecidableEq

/-- `disclosure`: the collection's caps for shared kinds, else the subject's. -/
def disclosureOf (limits : Option ReadDisclosureLimits) (kind : ResourceKind) :
    Option FinancialDisclosure :=
  limits.map fun l =>
    if [ResourceKind.budget, .account, .category, .transaction, .rule].contains kind then
      l.collection else l.subject

/-- `required.visibility ?? (input.phase === 'read' ? undefined : 'resource')`. -/
def visibilityOf (input : AuthorizationInput) (required : RequiredRef) : Option Visibility :=
  required.visibility.or (if input.phase = .read then none else some .resource)

/-- `commonRestrictions`: the restrictions met so far, each with its visibility. -/
abbrev CommonRestrictions := List (Option Visibility × ResourceGrantRestrictions)

/-- The loop body for one restriction of a requirement. -/
def checkRestriction (input : AuthorizationInput) (purpose : Purpose) (batch : Bool)
    (p : PreparedPayload) (disclosure : Option FinancialDisclosure) (visibility : Option Visibility)
    (deny : String → Denial) (common : CommonRestrictions) (r : ResourceGrantRestrictions) :
    Except Denial CommonRestrictions := do
  reject (disclosure.any fun d =>
      !financialRestrictionsAllow r d.operationCount d.grossOutgoing)
    (deny "Grant restrictions deny disclosed output")
  if common.contains (visibility, r) then .ok common
  else do
    reject (!batch && !restrictionsAllow r input p visibility purpose)
      (deny "Grant restrictions deny complete payload")
    .ok (common ++ [(visibility, r)])

/-- The loop body for one requirement: its right, its grant and their restrictions. -/
def checkRight (db : GovernanceDb) (input : AuthorizationInput) (purpose : Purpose) (batch : Bool)
    (limits : Option ReadDisclosureLimits) (budgetId : Option String) (p : PreparedPayload)
    (acting : Acting) (deny : String → Denial) (common : CommonRestrictions)
    (required : RequiredRef) : Except Denial CommonRestrictions := do
  let right := delegatedRight acting required.toResourceRef required.capability
  reject (acting.delegation.isSome && right.isNone) (deny "Requested right exceeds delegation")
  let grant ← orStop (db.currentGrant acting.principalActorId input.spaceId acting.member.id
    budgetId required.toResourceRef required.capability) (deny "Current scoped grant unavailable")
  (grant.restrictions :: (right.bind (·.restrictions)).toList).foldlM
    (checkRestriction input purpose batch p (disclosureOf limits required.resourceKind)
      (visibilityOf input required) deny) common

/-- A restriction list of one evidence grant, or `none` where the right is missing. -/
def evidenceRestrictions (db : GovernanceDb) (input : AuthorizationInput)
    (budgetId : Option String) (acting : Acting) (evidenceId capability : String) :
    Option (List ResourceGrantRestrictions) := do
  let right := delegatedRight acting ⟨.evidence, evidenceId⟩ capability
  let grant ← db.currentGrant acting.principalActorId input.spaceId acting.member.id budgetId
    ⟨.evidence, evidenceId⟩ capability
  if acting.delegation.isSome && right.isNone then none
  else some (grant.restrictions :: (right.bind (·.restrictions)).toList)

/-- The batch admits one evidence subject. -/
def checkSubject (db : GovernanceDb) (input : AuthorizationInput) (purpose : Purpose)
    (budgetId : Option String) (p : PreparedPayload) (acting : Acting) (common : CommonRestrictions)
    (uncovered : List String) (evidenceId : String) : Bool :=
  let subject := { p with
    operationCount := p.operationCount + 1, subjectOperation := some input.operation }
  (uncovered.isEmpty || uncovered == [evidenceId]) &&
  common.all (fun c => restrictionsAllow c.2 input subject c.1 purpose) &&
  ["evidence", "normalized-evidence"].all fun capability =>
    (evidenceRestrictions db input budgetId acting evidenceId capability).any fun rs =>
      rs.all fun r => restrictionsAllow r input subject (some .resource) purpose

/-- A result that allows, with the evidence subjects of a batch that it admits. -/
structure Admission where
  member : SpaceMembership
  policyVersion : String
  requiredApprovers : Nat
  admitted : List String
  deriving DecidableEq

/-- `authorizeForPurpose`, up to the result's layout. -/
def evaluate (db : GovernanceDb) (input : AuthorizationInput) (purpose : Purpose)
    (batch : Option (List String)) (limits : Option ReadDisclosureLimits) :
    Except Denial Admission := do
  let (space, policy) ← checkRequest db input purpose
  let version := some (toString policy.version)
  checkPrincipal db input version
  checkApproval db input version
  let incomplete : Denial :=
    { reason := "Malformed or incomplete authorization payload", policyVersion := version }
  let resources ← orStop (payloadResources input.payload) incomplete
  let operations ← orStop (operationList (field input.payload "operations")) incomplete
  reject input.required.isEmpty incomplete
  let totals ← orStop (financialTotals operations)
    { reason := "Malformed or overflowing gross outgoing amount", policyVersion := version }
  let p ← attempt (prepareAuthorizationPayload input.operation operations resources totals)
  let approvers := requiredApprovers policy.policy p
  reject (input.required.any fun r => isBlank r.capability || isBlank r.resourceId)
    { reason := "Malformed required resource", policyVersion := version }
  reject ((agentAuth input).isSome &&
      input.required.any fun r => nonDelegableAgentCapability r.capability)
    { reason := "Control, approval, and settlement authority requires a human principal"
      policyVersion := version }
  let uncovered ← checkCoverage input batch.isSome version resources
  let acting ← resolveMember db input version
  let deny (reason : String) : Denial :=
    { reason, policyVersion := version, membershipId := some acting.member.id
      requiredApprovers := approvers }
  let common ← input.required.foldlM
    (checkRight db input purpose batch.isSome limits space.budgetId p acting deny) []
  .ok { member := acting.member, policyVersion := toString policy.version
        requiredApprovers := approvers
        admitted := (batch.getD []).filter
          (checkSubject db input purpose space.budgetId p acting common uncovered) }

/-- The result of an evaluation: `denied`, or allowed with its disposition. -/
def resultOf (input : AuthorizationInput) : Except Denial Admission → AuthorizationResult
  | .error d =>
    { allowed := false, disposition := .denied d.reason, actorId := input.actorId
      spaceId := input.spaceId, membershipId := d.membershipId, policyVersion := d.policyVersion
      requiredApprovers := d.requiredApprovers, reason := d.reason }
  | .ok a =>
    let needsApproval := (input.phase = .propose || input.phase = .execute) &&
      0 < a.requiredApprovers && !input.verifiedHumanApproval
    { allowed := true
      disposition := if needsApproval then .approvalRequired else .authorizedWithoutApproval
      actorId := input.actorId, spaceId := input.spaceId, membershipId := some a.member.id
      policyVersion := some a.policyVersion, requiredApprovers := a.requiredApprovers
      reason := if needsApproval then "Human approval required" else "Authorized" }

def authorize (db : GovernanceDb) (input : AuthorizationInput) : AuthorizationResult :=
  resultOf input (evaluate db input .operation none none)

/-- The check of `authorizeReadEvidenceSubjects` on one operation. -/
def isNamedOperation : Json → Bool
  | .object entries =>
    match Json.get? entries "operation" with
    | some (.string name) => !isBlank name
    | _ => false
  | _ => false

def authorizeReadEvidenceSubjects (db : GovernanceDb) (input : AuthorizationInput)
    (evidenceKeys : List String) : List String :=
  let named := match field input.payload "operations" with
    | some (.array operations) => operations.all isNamedOperation
    | _ => false
  if input.phase = .read && !evidenceKeys.isEmpty && evidenceKeys.all (!isBlank ·) &&
      decide evidenceKeys.Nodup && named then
    match evaluate db input .operation (some evidenceKeys) none with
    | .ok a => a.admitted
    | .error _ => []
  else []

theorem allowed_iff {db : GovernanceDb} {input : AuthorizationInput} :
    (authorize db input).allowed = true ↔
      ∃ a, evaluate db input .operation none none = .ok a := by
  unfold authorize resultOf
  cases evaluate db input .operation none none with
  | error d => simp
  | ok a => simp

end BalanceFrame.Governance
