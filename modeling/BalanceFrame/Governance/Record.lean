import BalanceFrame.Governance.Clock
import BalanceFrame.Liquidity.Json

/-!
# Spaces, grants and credentials

Model of the records of `packages/workflow-store/src/governance-types.ts` and of the tables that
`migrateGovernance` creates (`packages/workflow-store/src/governance.ts`). A table is the list of
its rows in `rowid` order. A `restrictions`, `rights` or `policy` column holds the value whose JSON
text the source writes; decimal amounts and version numbers are numbers, `BigInt` of their text.
Times stay texts, read by `isoTime` where the source reads them.
-/

namespace BalanceFrame.Governance

open Liquidity (Json)

/-- `GovernanceResourceKind`. -/
inductive ResourceKind
  | space
  | budget
  | account
  | category
  | transaction
  | rule
  | evidence
  | wallet
  | receipt
  | commitment
  | scenario
  | reservation
  | purchase
  | transfer
  | ledgerEffect
  | session
  | proposal
  deriving DecidableEq

/-- `validKinds`. -/
def ResourceKind.ofText : String → Option ResourceKind
  | "space" => some .space
  | "budget" => some .budget
  | "account" => some .account
  | "category" => some .category
  | "transaction" => some .transaction
  | "rule" => some .rule
  | "evidence" => some .evidence
  | "wallet" => some .wallet
  | "receipt" => some .receipt
  | "commitment" => some .commitment
  | "scenario" => some .scenario
  | "reservation" => some .reservation
  | "purchase" => some .purchase
  | "transfer" => some .transfer
  | "ledger_effect" => some .ledgerEffect
  | "session" => some .session
  | "proposal" => some .proposal
  | _ => none

/-- `GovernanceResourceRef`. -/
structure ResourceRef where
  resourceKind : ResourceKind
  resourceId : String
  deriving DecidableEq

inductive Visibility
  | aggregate
  | resource
  deriving DecidableEq

/-- An entry of `required`. -/
structure RequiredRef extends ResourceRef where
  capability : String
  visibility : Option Visibility := none
  deriving DecidableEq

/-- A limit of `maxGrossOutgoing`. -/
structure GrossLimit where
  currency : String
  minorUnits : Nat
  deriving DecidableEq

structure ResourceGrantRestrictions where
  aggregateOnly : Option Bool := none
  accountIds : Option (List String) := none
  categoryIds : Option (List String) := none
  operations : Option (List String) := none
  proposalOnly : Option Bool := none
  maxGrossOutgoing : Option (List GrossLimit) := none
  maxOperationCount : Option Nat := none
  deriving DecidableEq

/-! ## Rows -/

structure Space where
  id : String
  name : String
  kind : String
  budgetId : Option String
  createdBy : String
  createdAt : String
  deletedAt : Option String
  deriving DecidableEq, Inhabited

/-- A row of `space_memberships`: one membership period. -/
structure SpaceMembership where
  id : String
  spaceId : String
  actorId : String
  grantedBy : String
  validFrom : String
  validUntil : Option String
  revokedAt : Option String
  createdAt : String
  origin : String
  deriving DecidableEq

structure ApprovalThreshold where
  currency : String
  amountMinorUnits : Nat
  requiredApprovers : Nat
  deriving DecidableEq

inductive AssistanceMaximum
  | analysisOnly
  | recommendActions
  | createApprovalProposal
  | executeApprovedActions
  deriving DecidableEq

structure GovernancePolicy where
  minimumApprovers : Nat
  approvalThresholds : List ApprovalThreshold
  operationApprovers : List (String × Nat)
  assistanceMaximum : Option AssistanceMaximum
  deriving DecidableEq

/-- A row of `governance_policies`; `version` is the number whose decimal text the column holds. -/
structure PolicyRow where
  spaceId : String
  version : Nat
  policy : GovernancePolicy
  actorId : String
  createdAt : String
  isCurrent : Bool
  deriving DecidableEq

/-- A row of `resource_grants`. -/
structure ResourceGrant extends ResourceRef where
  id : String
  spaceId : Option String
  membershipId : Option String
  actorId : String
  budgetId : Option String
  capability : String
  granted : Bool
  restrictions : ResourceGrantRestrictions
  createdAt : String
  updatedAt : String
  revokedAt : Option String
  deriving DecidableEq

inductive AgentStatus
  | active
  | disconnected
  | revoked
  deriving DecidableEq

structure GovernanceAgent where
  agentId : String
  registeredSpaceId : String
  status : AgentStatus
  deriving DecidableEq

structure DelegatedRight extends ResourceRef where
  capability : String
  restrictions : Option ResourceGrantRestrictions
  deriving DecidableEq

structure AgentDelegation where
  id : String
  version : String
  spaceId : String
  agentId : String
  issuerActorId : String
  issuerMembershipId : String
  rights : List DelegatedRight
  validFrom : String
  validUntil : Option String
  revokedAt : Option String
  deriving DecidableEq

inductive PrincipalType
  | human
  | agent
  deriving DecidableEq

structure CredentialBinding where
  spaceId : String
  credentialId : String
  credentialOwnerId : String
  principalType : PrincipalType
  principalId : String
  delegationId : Option String
  delegationVersion : Option String
  issuerMembershipId : String
  revokedAt : Option String
  deriving DecidableEq

/-- A row of `actor_memberships`: a known identity. -/
structure ActorIdentity where
  actorId : String
  status : String
  scope : String
  deriving DecidableEq

/-- A row of `liquidity_policy_versions`. -/
structure LegacyPolicyRow where
  budgetId : String
  version : String
  approvalPolicy : Json
  actorId : String
  createdAt : String

/-- A row of `invitations`. -/
structure Invitation where
  id : String
  claimId : String
  status : String
  claimedEmail : Option String
  expiresAt : Option String
  spaceId : Option String
  issuerMembershipId : Option String
  governancePolicyVersion : Option String
  deriving DecidableEq

/-- A row of `space_governance_audit`. -/
structure SpaceAudit where
  id : String
  spaceId : String
  actorId : String
  classification : String
  subjectId : Option String
  timestamp : String
  details : Json

/-- The tables the governance functions read and write. -/
structure GovernanceDb where
  spaces : List Space := []
  memberships : List SpaceMembership := []
  policies : List PolicyRow := []
  grants : List ResourceGrant := []
  agents : List GovernanceAgent := []
  delegations : List AgentDelegation := []
  credentials : List CredentialBinding := []
  identities : List ActorIdentity := []
  /-- `registration_state.owner_user_id`. -/
  registeredOwner : Option String := none
  /-- `liquidity_current_policy`: budget and version. -/
  legacyCurrent : List (String × String) := []
  legacyPolicies : List LegacyPolicyRow := []
  invitations : List Invitation := []
  audit : List SpaceAudit := []

/-! ## Requests -/

/-- The variants of `OperationalAuth`. -/
inductive Credential
  | session (sessionId : String)
  | humanSession (sessionId reauthenticatedAt : String)
  | humanKey (credentialId credentialOwnerId : String)
  | agentKey (credentialId credentialOwnerId delegationId delegationVersion : String)
  deriving DecidableEq

/-- `OperationalAuth` with its `CredentialLifetime`: an expiry may be omitted, `null` or a text, and
a revocation check may be omitted. -/
structure OperationalAuth where
  actorId : String
  credential : Credential
  credentialExpiresAt : Option (Option String) := none
  isCredentialValid : Option (String → Bool) := none

inductive Phase
  | read
  | propose
  | approve
  | execute
  deriving DecidableEq

/-- `GovernanceAuthorizationInput`. -/
structure AuthorizationInput where
  actorId : String
  spaceId : String
  membershipId : Option String := none
  expectedPolicyVersion : String
  phase : Phase
  operation : String
  required : List RequiredRef
  payload : Json
  now : String
  agentId : Option String := none
  delegationId : Option String := none
  delegationVersion : Option String := none
  auth : Option OperationalAuth := none
  verifiedHumanApproval : Bool := false

inductive Disposition
  | denied (reason : String)
  | approvalRequired
  | authorizedWithoutApproval
  deriving DecidableEq

/-- `GovernanceAuthorizationResult`. -/
structure AuthorizationResult where
  allowed : Bool
  disposition : Disposition
  actorId : String
  spaceId : String
  membershipId : Option String
  policyVersion : Option String
  requiredApprovers : Nat
  reason : String
  deriving DecidableEq

end BalanceFrame.Governance
