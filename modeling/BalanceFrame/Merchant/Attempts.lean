import BalanceFrame.Archive.Documents
import BalanceFrame.Governance.Clock

/-!
# Merchant research

Model of `reserveAttempt`, `attempt`, `claimAttempt`, `dispatchAttempt`, `abandonAttempt`,
`releaseUnsentAttempt`, `settleAttempt`, `setPolicy`, `purge`, `purgeBudget` and `prune`
(`packages/workflow-store/src/merchant.ts`) on the tables of scopes, policies and attempts. A call
is one transaction: it returns the tables after it, or the error it throws, which leaves them as
they are. Columns that hold texts of `toISOString` are kept as times and compared as texts where the
statements do so; atoms are numbers. The calendar of a policy and the other tables are left out.
-/

namespace BalanceFrame.Merchant

open Library
open Archive (utf16Length)
open Governance (toISOString timestampMillis trim)

/-! ## Data -/

structure MerchantScope where
  spaceId : String
  budgetId : String
  connectionId : String
  deriving DecidableEq

structure Visibility where
  hash : String
  privateActorId : Option String
  deriving DecidableEq

inductive ResourceKind
  | space | budget | account | category | transaction | rule | evidence | wallet | receipt
  | commitment | scenario | reservation | purchase | transfer | ledgerEffect | session | proposal
  deriving DecidableEq

structure RequiredRef where
  resourceKind : ResourceKind
  resourceId : String
  capability : String
  version : Option String
  deriving DecidableEq

structure SourceRefs where
  accountIds : List String
  categoryIds : List String
  ruleIds : List String
  transactionIds : List String
  factsHash : String
  required : List RequiredRef
  deriving DecidableEq

/-- `'0'.repeat(64)`. -/
def zeroHash : String := String.ofList (List.replicate 64 '0')

def emptyRefs : SourceRefs where
  accountIds := []
  categoryIds := []
  ruleIds := []
  transactionIds := []
  factsHash := zeroHash
  required := []

/-- `MerchantCacheKey`. -/
structure CacheKey where
  scope : MerchantScope
  queryFingerprint : String
  locale : Option String
  providerId : String
  providerVersion : String
  parametersHash : String
  normalizationVersion : String
  egressPolicyVersion : String
  visibilityHash : String
  deriving DecidableEq

inductive BucketKind
  | installation | space | budget | credential | delegation
  deriving DecidableEq

/-- `MerchantQuotaBucket`. -/
structure QuotaBucket where
  kind : BucketKind
  id : String
  maxSearchesPerDay : Nat
  maxSpendMinorUnitsPerMonth : Nat
  deriving DecidableEq

/-- `MerchantTariff`. -/
structure Tariff where
  version : String
  billingCurrency : String
  costAtoms : Nat
  deriving DecidableEq

inductive PolicyMode
  | disabled | localOnly | externalAllowed
  deriving DecidableEq

/-- `MerchantPolicyValue`. -/
structure PolicyValue where
  mode : PolicyMode
  allowedProviderIds : List String
  maxSearchesPerDay : Nat
  maxSpendMinorUnitsPerMonth : Nat
  billingCurrency : String
  cacheTtlHours : Nat

/-- `MerchantPolicy`. -/
structure Policy extends PolicyValue where
  scope : MerchantScope
  version : Nat
  generation : Nat
  updatedAt : String

inductive AttemptPhase
  | reserved | dispatched | succeeded | knownFailed | uncertain
  deriving DecidableEq

/-- `MerchantAttemptOutcome`; what is known to have failed was not billed. -/
inductive AttemptOutcome
  | succeeded (costAtoms : Nat)
  | knownFailed
  | uncertain
  deriving DecidableEq

/-- `storedOutcomeSchema`: what a provider reports, or that its worker never invoked it. -/
inductive StoredOutcome
  | provider (outcome : AttemptOutcome)
  | notInvoked
  deriving DecidableEq

/-- A row of `merchant_research_attempts`. -/
structure AttemptRow where
  id : String
  scope : MerchantScope
  idempotencyHash : String
  intentHash : String
  keyHash : String
  generation : Nat
  policyVersion : Nat
  phase : AttemptPhase
  reservedAtoms : Nat
  settledAtoms : Option Nat
  billingCurrency : String
  tariffVersion : String
  createdAt : Int
  leaseExpiresAt : Int
  dispatchedAt : Option Int
  claimToken : Option String
  outcome : Option StoredOutcome
  visibility : Visibility
  sourceRefs : SourceRefs
  buckets : List QuotaBucket
  dayWindow : String
  monthWindow : String
  contentDeleted : Bool
  deriving DecidableEq

/-- A row of `merchant_scope_generations`. -/
structure ScopeRow where
  scope : MerchantScope
  generation : Nat
  restorePending : Bool
  billingHoldUntil : Option Int
  billingUnresolved : Bool

/-- The row of a restored copy, whose `scope_key` is empty. -/
structure RestoredRow where
  restorePending : Bool
  billingHoldUntil : Option Int
  billingUnresolved : Bool

structure MerchantStore where
  restored : Option RestoredRow
  scopes : List ScopeRow
  policies : List Policy
  attempts : List AttemptRow

/-- What `digest` is taken of. -/
inductive Digested
  | key (key : CacheKey)
  | idempotency (idempotencyKey : String)
  | intent (key : CacheKey) (sourceRefs : SourceRefs) (visibility : Visibility)
      (generation policyVersion : Nat) (tariff : Option Tariff) (buckets : List QuotaBucket)

/-- What Node decides. -/
structure MerchantHost where
  /-- `digest`: SHA-256 of the canonical text. -/
  digest : Digested → String
  /-- Buckets in the order of `localeCompare`. -/
  sorted : List QuotaBucket → List QuotaBucket
  /-- What `randomUUID` gives, call after call. -/
  uuid : Nat → String
  uuid_injective : Function.Injective uuid

structure AuthorizationContext where
  scope : MerchantScope
  now : String
  generation : Nat
  visibility : Option Visibility
  sourceRefs : SourceRefs

structure MerchantAccess where
  scope : MerchantScope
  now : String
  expectedGeneration : Nat
  /-- An answer, or what is thrown. -/
  authorize : AuthorizationContext → Except String Bool

/-- `MerchantViewAccess`. -/
structure ViewAccess extends MerchantAccess where
  visibility : Visibility
  actorId : String

/-! ## Schemas -/

/-- `id`. -/
def idSchema (s : String) : Except String Unit :=
  reject (utf16Length s == 0 || decide (512 < utf16Length s) || trim s != s ||
    s.toList.any fun c => decide (c.toNat < 0x20) || c.toNat == 0x7f) "Invalid identity"

/-- `hash`. -/
def hashSchema (s : String) : Except String Unit :=
  reject (s.toList.length != 64 ||
    !s.toList.all fun c => c.isDigit || decide ('a' ≤ c ∧ c ≤ 'f')) "Invalid hash"

/-- `count`. -/
def countSchema (n : Nat) : Except String Unit :=
  reject (decide (9007199254740991 < n)) "Invalid count"

/-- `currency`. -/
def currencySchema (s : String) : Except String Unit :=
  reject (s.toList.length != 3 || !s.toList.all fun c => decide ('A' ≤ c ∧ c ≤ 'Z'))
    "Invalid currency"

/-- `atoms`: at most 128 digits. -/
def atomsSchema (n : Nat) : Except String Unit :=
  reject (decide (10 ^ 128 ≤ n)) "Invalid atoms"

/-- `value.replace('.000Z', 'Z')` of a timestamp. -/
def withoutMillis (s : String) : List Char :=
  if s.toList.drop (s.toList.length - 5) = ['.', '0', '0', '0', 'Z'] then
    s.toList.take (s.toList.length - 5) ++ ['Z']
  else s.toList

/-- A text in a layout: a digit for every `0`, else the same character. -/
def inLayout (layout s : List Char) : Bool :=
  layout.length == s.length &&
    (layout.zip s).all fun (p, c) => if p = '0' then c.isDigit else c == p

/-- `timestamp`: the time of a text that is written back as it is, with or without milliseconds. -/
def timestamp (s : String) : Option Int :=
  if inLayout "0000-00-00T00:00:00Z".toList s.toList ||
      inLayout "0000-00-00T00:00:00.000Z".toList s.toList then
    (timestampMillis s).filter fun t => withoutMillis (toISOString t) == withoutMillis s
  else none

def timestampSchema (s : String) : Except String Int :=
  orStop (timestamp s) "Invalid ISO UTC timestamp"

def MerchantScope.parse (scope : MerchantScope) : Except String Unit :=
  [scope.spaceId, scope.budgetId, scope.connectionId].forM idSchema

def Visibility.parse (v : Visibility) : Except String Unit := do
  hashSchema v.hash
  v.privateActorId.forM idSchema

/-- `ids`. -/
def idsSchema (values : List String) : Except String Unit := do
  reject (decide (250000 < values.length)) "Too big"
  values.forM idSchema
  reject (!decide values.Nodup) "Duplicate source identity"

def RequiredRef.parse (ref : RequiredRef) : Except String Unit := do
  idSchema ref.resourceId
  idSchema ref.capability
  ref.version.forM idSchema

/-- The resources of a kind that are required are those of a list. -/
def SourceRefs.manifest (refs : SourceRefs) (kind : ResourceKind) (values : List String) : Bool :=
  let required := ((refs.required.filter fun r => r.resourceKind == kind).map
    RequiredRef.resourceId).dedup
  required.length == values.length && values.all fun identity => required.contains identity

/-- `refsSchema`. -/
def SourceRefs.parse (refs : SourceRefs) : Except String Unit := do
  [refs.accountIds, refs.categoryIds, refs.ruleIds, refs.transactionIds].forM idsSchema
  hashSchema refs.factsHash
  reject (decide (2000000 < refs.required.length)) "Too big"
  refs.required.forM RequiredRef.parse
  reject (!refs.manifest .account refs.accountIds) "Incomplete account authority manifest"
  reject (!refs.manifest .category refs.categoryIds) "Incomplete category authority manifest"
  reject (!refs.manifest .rule refs.ruleIds) "Incomplete rule authority manifest"
  reject (!refs.manifest .transaction refs.transactionIds)
    "Incomplete transaction authority manifest"
  reject (!decide (refs.required.map fun r => (r.resourceKind, r.resourceId, r.capability)).Nodup)
    "Duplicate required resource capability"

/-- `keySchema`. -/
def CacheKey.parse (key : CacheKey) : Except String Unit := do
  key.scope.parse
  hashSchema key.queryFingerprint
  reject (key.locale.any fun s => utf16Length s == 0 || decide (64 < utf16Length s)) "Invalid locale"
  [key.providerId, key.providerVersion].forM idSchema
  hashSchema key.parametersHash
  [key.normalizationVersion, key.egressPolicyVersion].forM idSchema
  hashSchema key.visibilityHash

/-- `bucketSchema`. -/
def QuotaBucket.parse (b : QuotaBucket) : Except String Unit := do
  idSchema b.id
  countSchema b.maxSearchesPerDay
  countSchema b.maxSpendMinorUnitsPerMonth

/-- `tariffSchema`. -/
def Tariff.parse (t : Tariff) : Except String Unit := do
  idSchema t.version
  currencySchema t.billingCurrency
  atomsSchema t.costAtoms
  reject (t.costAtoms == 0) "Invalid atoms"

/-- `outcomeSchema`. -/
def AttemptOutcome.parse : AttemptOutcome → Except String Unit
  | .succeeded costAtoms => atomsSchema costAtoms
  | .knownFailed | .uncertain => pure ()

/-- `merchantPolicyValueSchema`. -/
def PolicyValue.parse (v : PolicyValue) : Except String Unit := do
  reject (decide (100 < v.allowedProviderIds.length)) "Too big"
  v.allowedProviderIds.forM idSchema
  reject (!decide v.allowedProviderIds.Nodup) "Invalid input"
  countSchema v.maxSearchesPerDay
  countSchema v.maxSpendMinorUnitsPerMonth
  currencySchema v.billingCurrency
  reject (v.cacheTtlHours == 0 || decide (720 < v.cacheTtlHours)) "Invalid input"

/-- `validateAccess`: the time of the access. -/
def MerchantAccess.validate (a : MerchantAccess) : Except String Int := do
  a.scope.parse
  let now ← timestampSchema a.now
  countSchema a.expectedGeneration
  pure now

/-- `validateAccess` of a view. -/
def ViewAccess.validate (a : ViewAccess) : Except String Int := do
  let now ← a.toMerchantAccess.validate
  a.visibility.parse
  idSchema a.actorId
  pure now

/-! ## Scopes and policies -/

namespace MerchantStore

def scope (s : MerchantStore) (scope : MerchantScope) : Option ScopeRow :=
  s.scopes.find? fun r => r.scope == scope

def generation (s : MerchantStore) (scope : MerchantScope) : Nat :=
  ((s.scope scope).map ScopeRow.generation).getD 0

/-- `restore_pending` of a scope, or of the restored copy. -/
def restorePending (s : MerchantStore) (scope : MerchantScope) : Bool :=
  (((s.scope scope).map ScopeRow.restorePending).or
    (s.restored.map RestoredRow.restorePending)).getD false

/-- `billing_unresolved` of a scope, or of the restored copy. -/
def billingUnresolved (s : MerchantStore) (scope : MerchantScope) : Bool :=
  (((s.scope scope).map ScopeRow.billingUnresolved).or
    (s.restored.map RestoredRow.billingUnresolved)).getD false

/-- `billing_hold_until` of a scope, or of the restored copy. -/
def billingHoldUntil (s : MerchantStore) (scope : MerchantScope) : Option Int :=
  ((s.scope scope).bind ScopeRow.billingHoldUntil).or
    (s.restored.bind RestoredRow.billingHoldUntil)

def ensure (s : MerchantStore) (scope : MerchantScope) : MerchantStore :=
  if (s.scope scope).isSome then s
  else
    { s with
      scopes := s.scopes ++ [
        { scope := scope
          generation := 0
          restorePending := (s.restored.map RestoredRow.restorePending).getD false
          billingHoldUntil := s.restored.bind RestoredRow.billingHoldUntil
          billingUnresolved := (s.restored.map RestoredRow.billingUnresolved).getD false }] }

def policyValue (s : MerchantStore) (scope : MerchantScope) : Option Policy :=
  s.policies.find? fun p => p.scope == scope

/-- `external` of a policy version and the provider of a key. -/
def external (s : MerchantStore) (scope : MerchantScope) (policyVersion : Nat)
    (key : Option CacheKey) : Bool :=
  (s.policyValue scope).any fun policy =>
    policy.mode == .externalAllowed && policy.version == policyVersion &&
      key.all fun key => policy.allowedProviderIds.contains key.providerId

def authorize (s : MerchantStore) (a : MerchantAccess) (sourceRefs : SourceRefs)
    (visibility : Option Visibility) : Except String Bool :=
  a.authorize
    { scope := a.scope, now := a.now, generation := s.generation a.scope
      visibility := visibility, sourceRefs := sourceRefs }

/-- The access is of the current generation, and no restore is pending. -/
def isCurrent (s : MerchantStore) (a : MerchantAccess) (allowRestore : Bool) : Bool :=
  a.expectedGeneration == s.generation a.scope && (allowRestore || !s.restorePending a.scope)

/-- `permitted` without a visibility. -/
def permitted (s : MerchantStore) (a : MerchantAccess) (allowRestore : Bool) :
    Except String Bool := do
  let authorized ← s.authorize a emptyRefs none
  pure (authorized && s.isCurrent a allowRestore)

/-- `permitted` of a visibility. -/
def permittedView (s : MerchantStore) (a : ViewAccess) (sourceRefs : SourceRefs)
    (visibility : Visibility) : Except String Bool := do
  let authorized ← s.authorize a.toMerchantAccess sourceRefs (some visibility)
  pure (authorized && a.visibility == visibility &&
    (visibility.privateActorId.all fun owner => owner == a.actorId) &&
    s.isCurrent a.toMerchantAccess false)

/-! ## Rows -/

def attemptRow (s : MerchantStore) (scope : MerchantScope) (identity : String) :
    Option AttemptRow :=
  s.attempts.find? fun r => r.scope == scope && r.id == identity

/-- An update of the attempts that meet a condition. -/
def update (s : MerchantStore) (condition : AttemptRow → Bool) (f : AttemptRow → AttemptRow) :
    MerchantStore :=
  { s with attempts := s.attempts.map fun r => if condition r then f r else r }

def admittedAttempt (s : MerchantStore) (a : ViewAccess) (row : AttemptRow) :
    Except String Bool := do
  let permitted ← s.permittedView a row.sourceRefs row.visibility
  pure (permitted && row.generation == a.expectedGeneration && !row.contentDeleted)

end MerchantStore

/-- `<=` of the texts of two times. -/
def textLE (t u : Int) : Bool := !decide (toISOString u < toISOString t)

def lease (now : Int) : Int := now + 30000

/-- `active` of the lease of a row. -/
def AttemptRow.active (r : AttemptRow) (now : Int) : Bool := decide (now < r.leaseExpiresAt)

/-- Closed as not billed. -/
def AttemptRow.closed (outcome : StoredOutcome) (r : AttemptRow) : AttemptRow :=
  { r with
    phase := .knownFailed
    settledAtoms := some 0
    claimToken := none
    outcome := some outcome }

/-- The row holds a quota of a bucket. -/
def AttemptRow.inBucket (r : AttemptRow) (b : QuotaBucket) : Bool :=
  r.buckets.any fun stored => stored.kind == b.kind && stored.id == b.id

/-- `settled_atoms ?? reserved_atoms`. -/
def AttemptRow.atoms (r : AttemptRow) : Nat := r.settledAtoms.getD r.reservedAtoms

/-- A row is abandoned under its token, or without one when no claim on it is live. -/
def AttemptRow.abandonable (r : AttemptRow) (now : Int) (claimToken : Option String) : Bool :=
  match claimToken with
  | some token => r.claimToken == some token
  | none => r.claimToken.isNone || !r.active now

namespace MerchantStore

/-- The first statement of `reconcile`: unsent work whose lease has expired. -/
def expireUnsent (s : MerchantStore) (now : Int) : MerchantStore :=
  s.update (fun r => r.phase == .reserved && r.dispatchedAt.isNone && textLE r.leaseExpiresAt now)
    (AttemptRow.closed (.provider .knownFailed))

/-- The second statement of `reconcile`. -/
def expireSent (s : MerchantStore) (now : Int) : MerchantStore :=
  s.update (fun r => r.phase == .dispatched && textLE r.leaseExpiresAt now)
    fun r => { r with phase := .uncertain }

def reconcile (s : MerchantStore) (now : Int) : MerchantStore :=
  (s.expireUnsent now).expireSent now

def cancel (s : MerchantStore) (scope : MerchantScope) : MerchantStore :=
  s.update (fun r => r.scope == scope && r.phase == .reserved)
    (AttemptRow.closed (.provider .knownFailed))

/-- The last statement of `erase`. -/
def forget (s : MerchantStore) (scope : MerchantScope) : MerchantStore :=
  s.update (fun r => r.scope == scope) fun r =>
    { r with
      phase := if r.phase = .dispatched then .uncertain else r.phase
      sourceRefs := emptyRefs
      visibility := { hash := zeroHash, privateActorId := none }
      keyHash := zeroHash
      intentHash := zeroHash
      claimToken := if r.phase = .dispatched ∨ r.phase = .uncertain then r.claimToken else none
      contentDeleted := true }

def erase (s : MerchantStore) (scope : MerchantScope) : MerchantStore :=
  (s.cancel scope).forget scope

/-- `generation + 1` for the scopes that meet a condition. -/
def bumpGeneration (s : MerchantStore) (condition : MerchantScope → Bool) : MerchantStore :=
  { s with scopes := s.scopes.map fun r =>
      if condition r.scope then { r with generation := r.generation + 1 } else r }

end MerchantStore

/-! ## Reservations -/

/-- Why `reserveAttempt` refuses. -/
inductive DeniedReason
  | unauthorized | staleGeneration | restorePending | restoreBillingHold | policy | unknownPricing
  | dailyCap | monthlyCap
  deriving DecidableEq

/-- `MerchantAttemptAdmission`, with the row of the attempt. -/
inductive Admission
  | admitted (attempt : AttemptRow)
  | pending (attempt : AttemptRow)
  | denied (reason : DeniedReason)

/-- What `reserveAttempt` is given beside the access. -/
structure ReserveInput where
  idempotencyKey : String
  key : CacheKey
  sourceRefs : SourceRefs
  policyVersion : Nat
  tariff : Option Tariff
  buckets : List QuotaBucket

/-- `now.slice(0, 10)`. -/
def dayOf (now : String) : String := String.ofList (now.toList.take 10)

/-- `now.slice(0, 7)`. -/
def monthOf (now : String) : String := String.ofList (now.toList.take 7)

/-- The buckets of a request are complete and of its scope. -/
def consistentBuckets (scope : MerchantScope) (buckets : List QuotaBucket) : Bool :=
  decide (buckets.map fun b => (b.kind, b.id)).Nodup &&
    ([BucketKind.installation, .space, .budget, .credential].all fun kind =>
      (buckets.filter fun b => b.kind == kind).length == 1) &&
    (buckets.find? fun b => b.kind == .space).map QuotaBucket.id == some scope.spaceId &&
    (buckets.find? fun b => b.kind == .budget).map QuotaBucket.id ==
      some (scope.spaceId ++ "/" ++ scope.budgetId)

/-- What `reserveAttempt` checks before its transaction; the time of the access. -/
def ReserveInput.validate (input : ReserveInput) (a : ViewAccess) : Except String Int := do
  let now ← a.validate
  idSchema input.idempotencyKey
  input.key.parse
  input.sourceRefs.parse
  countSchema input.policyVersion
  input.tariff.forM Tariff.parse
  reject (decide (input.buckets.length < 4) || decide (1000 < input.buckets.length))
    "Invalid buckets"
  input.buckets.forM QuotaBucket.parse
  reject (input.key.scope != a.scope || input.key.visibilityHash != a.visibility.hash)
    "Research cache identity is outside its scope"
  reject (!consistentBuckets a.scope input.buckets)
    "Incomplete or inconsistent research quota buckets"
  pure now

/-- `constrained`: the budget is bound by the policy as well. -/
def QuotaBucket.constrained (policy : Policy) (b : QuotaBucket) : QuotaBucket :=
  if b.kind = .budget then
    { b with
      maxSearchesPerDay := min b.maxSearchesPerDay policy.maxSearchesPerDay
      maxSpendMinorUnitsPerMonth :=
        min b.maxSpendMinorUnitsPerMonth policy.maxSpendMinorUnitsPerMonth }
  else b

/-- The rows that hold quota on a day or in a month. -/
def ledger (rows : List AttemptRow) (day month : String) : List AttemptRow :=
  rows.filter fun r => (r.dayWindow == day || r.monthWindow == month) && r.phase != .knownFailed

/-- One bucket against the ledger. -/
def checkBucket (rows : List AttemptRow) (day month : String) (tariff : Tariff) (b : QuotaBucket) :
    Option DeniedReason :=
  let rows := rows.filter fun r => r.inBucket b
  let monthly := rows.filter fun r => r.monthWindow == month
  if monthly.any fun r => r.billingCurrency != tariff.billingCurrency then some .policy
  else if b.maxSearchesPerDay ≤ (rows.filter fun r => r.dayWindow == day).length then
    some .dailyCap
  else if b.maxSpendMinorUnitsPerMonth * 1000000 <
      (monthly.map AttemptRow.atoms).sum + tariff.costAtoms then some .monthlyCap
  else none

/-- The row that is inserted. -/
def newAttempt (host : MerchantHost) (a : ViewAccess) (input : ReserveInput) (tariff : Tariff)
    (now : Int) (attemptId : String) : AttemptRow where
  id := attemptId
  scope := a.scope
  idempotencyHash := host.digest (.idempotency input.idempotencyKey)
  intentHash := host.digest (.intent input.key input.sourceRefs a.visibility a.expectedGeneration
    input.policyVersion input.tariff (host.sorted input.buckets))
  keyHash := host.digest (.key input.key)
  generation := a.expectedGeneration
  policyVersion := input.policyVersion
  phase := .reserved
  reservedAtoms := tariff.costAtoms
  settledAtoms := none
  billingCurrency := tariff.billingCurrency
  tariffVersion := tariff.version
  createdAt := now
  leaseExpiresAt := lease now
  dispatchedAt := none
  claimToken := none
  outcome := none
  visibility := a.visibility
  sourceRefs := input.sourceRefs
  buckets := input.buckets
  dayWindow := dayOf a.now
  monthWindow := monthOf a.now
  contentDeleted := false

/-- The older of two rows of pending work. -/
def firstPending (rows : List AttemptRow) : Option AttemptRow :=
  rows.foldl (fun first r =>
    match first with
    | none => some r
    | some f => if toISOString r.createdAt < toISOString f.createdAt then some r else some f) none

namespace MerchantStore

/-- The row is inserted; identities and idempotency keys are unique. -/
def insert (s : MerchantStore) (row : AttemptRow) : Except String MerchantStore := do
  reject (s.attempts.any fun r =>
    r.id == row.id || (r.scope == row.scope && r.idempotencyHash == row.idempotencyHash))
    "UNIQUE constraint failed"
  pure { s with attempts := s.attempts ++ [row] }

/-- `reserveAttempt` once the request has no earlier attempt and `reconcile` is done. -/
def reserveNew (s : MerchantStore) (host : MerchantHost) (a : ViewAccess) (input : ReserveInput)
    (policy : Policy) (tariff : Tariff) (now : Int) (uuid : String) :
    Except String (MerchantStore × Admission) :=
  match firstPending (s.attempts.filter fun r =>
      r.scope == a.scope && r.keyHash == host.digest (.key input.key) &&
        r.generation == a.expectedGeneration &&
        (r.phase == .reserved || r.phase == .dispatched) && !textLE r.leaseExpiresAt now) with
  | some pending => do
    let admitted ← s.admittedAttempt a pending
    pure (s, if admitted then .pending pending else .denied .unauthorized)
  | none =>
    match (input.buckets.map (QuotaBucket.constrained policy)).findSome?
        (checkBucket (ledger s.attempts (dayOf a.now) (monthOf a.now)) (dayOf a.now)
          (monthOf a.now) tariff) with
    | some reason => pure (s, .denied reason)
    | none => do
      let row := newAttempt host a input tariff now uuid
      let s' ← (s.ensure a.scope).insert row
      pure (s', .admitted row)

/-- `reserveAttempt` after its checks of scope, policy and tariff. -/
def reserveChecked (s : MerchantStore) (host : MerchantHost) (a : ViewAccess) (input : ReserveInput)
    (policy : Policy) (tariff : Tariff) (now : Int) (uuid : String) :
    Except String (MerchantStore × Admission) :=
  match s.attempts.find? fun r => r.scope == a.scope &&
      r.idempotencyHash == host.digest (.idempotency input.idempotencyKey) with
  | some original =>
    if original.contentDeleted then pure (s, .denied .unauthorized)
    else do
      reject (original.intentHash != host.digest (.intent input.key input.sourceRefs a.visibility
        a.expectedGeneration input.policyVersion input.tariff (host.sorted input.buckets)))
        "Merchant idempotency intent conflict"
      let s := s.reconcile now
      let current ← orStop (s.attemptRow a.scope original.id) "Attempt missing"
      let admitted ← s.admittedAttempt a current
      pure (s, if admitted then .admitted current else .denied .unauthorized)
  | none => (s.reconcile now).reserveNew host a input policy tariff now uuid

/-- Why a request is refused before earlier attempts are read. -/
def refusal (s : MerchantStore) (a : ViewAccess) (input : ReserveInput) (now : Int) :
    Except DeniedReason (Policy × Tariff) := do
  reject (a.expectedGeneration != s.generation a.scope) .staleGeneration
  reject (s.restorePending a.scope) .restorePending
  reject (!s.external a.scope input.policyVersion (some input.key)) .policy
  let policy ← orStop (s.policyValue a.scope) .policy
  reject (s.billingUnresolved a.scope ||
    (s.billingHoldUntil a.scope).any fun hold => decide (now < hold)) .restoreBillingHold
  let tariff ← orStop input.tariff .unknownPricing
  reject (tariff.billingCurrency != policy.billingCurrency) .policy
  pure (policy, tariff)

def reserveAttempt (s : MerchantStore) (host : MerchantHost) (a : ViewAccess) (input : ReserveInput)
    (uuid : String) : Except String (MerchantStore × Admission) := do
  let now ← input.validate a
  let authorized ← s.authorize a.toMerchantAccess input.sourceRefs (some a.visibility)
  if !authorized || a.visibility.privateActorId.any fun owner => owner != a.actorId then
    pure (s, .denied .unauthorized)
  else
    match s.refusal a input now with
    | .error reason => pure (s, .denied reason)
    | .ok (policy, tariff) => s.reserveChecked host a input policy tariff now uuid

/-! ## Attempts -/

def attempt (s : MerchantStore) (a : ViewAccess) (id : String) :
    Except String (MerchantStore × Option AttemptRow) := do
  let now ← a.validate
  idSchema id
  match s.attemptRow a.scope id with
  | none => pure (s, none)
  | some row => do
    let admitted ← s.admittedAttempt a row
    if admitted then pure (s.reconcile now, (s.reconcile now).attemptRow a.scope id)
    else pure (s, none)

def claimAttempt (s : MerchantStore) (a : ViewAccess) (id uuid : String) :
    Except String (MerchantStore × Option AttemptRow) := do
  let now ← a.validate
  idSchema id
  match s.attemptRow a.scope id with
  | none => pure (s, none)
  | some row => do
    let admitted ← s.admittedAttempt a row
    if !admitted then pure (s, none)
    else
      -- the row is the one before `reconcile`
      let s := s.reconcile now
      if row.phase != .reserved || !row.active now || row.claimToken.isSome ||
          !s.external a.scope row.policyVersion none then pure (s, none)
      else
        let s := s.update (fun r => r.id == row.id) fun r =>
          { r with claimToken := some uuid, leaseExpiresAt := lease now }
        pure (s, s.attemptRow a.scope row.id)

/-- At most one other attempt of every controlling bucket is running, and no attempt of the
credential was sent within a second. -/
def mayLaunch (s : MerchantStore) (row : AttemptRow) (now : Int) : Bool :=
  let controlling := row.buckets.filter fun b => b.kind == .installation || b.kind == .credential
  let running := s.attempts.filter fun r => !textLE r.leaseExpiresAt now &&
    (r.phase == .dispatched || (r.phase == .uncertain && r.outcome.isNone))
  let launches := s.attempts.filter fun r =>
    r.dispatchedAt.any fun t => !textLE t (now - 1000)
  (controlling.all fun b => decide ((running.filter fun r => r.inBucket b).length < 2)) &&
    (row.buckets.find? fun b => b.kind == .credential).all fun credential =>
      !launches.any fun r => r.inBucket credential

def dispatchAttempt (s : MerchantStore) (a : ViewAccess) (id claimToken : String) :
    Except String (MerchantStore × Bool) := do
  let now ← a.validate
  idSchema id
  idSchema claimToken
  match s.attemptRow a.scope id with
  | none => pure (s, false)
  | some row => do
    let admitted ← s.admittedAttempt a row
    if !admitted then pure (s, false)
    else
      -- the row is the one before `reconcile`
      let s := s.reconcile now
      if row.phase != .reserved || row.claimToken != some claimToken || !row.active now ||
          !s.external a.scope row.policyVersion none || row.dayWindow != dayOf a.now ||
          row.monthWindow != monthOf a.now || !s.mayLaunch row now then pure (s, false)
      else
        pure (s.update (fun r => r.id == row.id) fun r =>
          { r with phase := .dispatched, dispatchedAt := some now }, true)

def abandonAttempt (s : MerchantStore) (a : ViewAccess) (id : String) (claimToken : Option String) :
    Except String (MerchantStore × Bool) := do
  let now ← a.validate
  idSchema id
  claimToken.forM idSchema
  match s.attemptRow a.scope id with
  | none => pure (s, false)
  | some row => do
    let admitted ← s.admittedAttempt a row
    if !admitted || row.phase != .reserved || row.dispatchedAt.isSome ||
        !row.abandonable now claimToken then pure (s, false)
    else
      pure (s.update (fun r => r.id == row.id) (AttemptRow.closed (.provider .knownFailed)), true)

end MerchantStore

/-- `MerchantAttemptOwner`. -/
structure AttemptOwner where
  scope : MerchantScope
  now : String
  expectedGeneration : Nat
  id : String
  claimToken : String

/-- `attemptOwnerSchema`. -/
def AttemptOwner.parse (o : AttemptOwner) : Except String Int := do
  o.scope.parse
  let now ← timestampSchema o.now
  countSchema o.expectedGeneration
  idSchema o.id
  idSchema o.claimToken
  pure now

/-- `decodeStored(outcomeSchema, …)`: a worker's proof is not of this form. -/
def decodeOutcome : StoredOutcome → Except String AttemptOutcome
  | .provider outcome => pure outcome
  | .notInvoked => throw "Stored merchant state is unavailable"

/-- A row has an outcome that is not uncertain. -/
def AttemptRow.isSettled (r : AttemptRow) : Except String Bool :=
  match r.outcome with
  | none => pure false
  | some outcome => (decodeOutcome outcome).map fun outcome => outcome != .uncertain

/-- The phase that an outcome settles. -/
def AttemptOutcome.phase : AttemptOutcome → AttemptPhase
  | .succeeded _ => .succeeded
  | .knownFailed => .knownFailed
  | .uncertain => .uncertain

/-- The atoms that an outcome settles. -/
def AttemptOutcome.atoms : AttemptOutcome → Option Nat
  | .succeeded costAtoms => some costAtoms
  | .knownFailed => some 0
  | .uncertain => none

/-- Two scopes are of one budget. -/
def sameBudget (a b : MerchantScope) : Bool := a.spaceId == b.spaceId && a.budgetId == b.budgetId

/-- 30 days. -/
def operationalMillis : Int := 30 * 86400000

/-- 90 days. -/
def billingMillis : Int := 90 * 86400000

/-- The row is deleted by `prune`. -/
def pruned (now : Int) (r : AttemptRow) : Bool :=
  textLE r.createdAt (now - billingMillis) && (r.phase == .succeeded || r.phase == .knownFailed)

namespace MerchantStore

def releaseUnsentAttempt (s : MerchantStore) (o : AttemptOwner) :
    Except String (MerchantStore × Bool) := do
  let now ← o.parse
  match s.attemptRow o.scope o.id with
  | none => pure (s, false)
  | some row =>
    if row.generation != o.expectedGeneration || row.claimToken != some o.claimToken ||
        !row.active now || (row.phase != .reserved && row.phase != .dispatched &&
          row.phase != .uncertain) then pure (s, false)
    else do
      let settled ← row.isSettled
      if settled then pure (s, false)
      else pure (s.update (fun r => r.id == row.id) (AttemptRow.closed .notInvoked), true)

def settleAttempt (s : MerchantStore) (a : ViewAccess) (id claimToken : String)
    (outcome : AttemptOutcome) : Except String (MerchantStore × Bool) := do
  let _ ← a.validate
  idSchema id
  idSchema claimToken
  outcome.parse
  match s.attemptRow a.scope id with
  | none => pure (s, false)
  | some row => do
    let admitted ← s.admittedAttempt a row
    if !admitted || row.claimToken != some claimToken || row.dispatchedAt.isNone then
      pure (s, false)
    else do
      reject (match outcome with
        | .succeeded costAtoms => decide (row.reservedAtoms < costAtoms)
        | _ => false) "Settlement exceeds reserved atoms"
      match row.outcome with
      | some stored => do
        let stored ← decodeOutcome stored
        pure (s, stored == outcome)
      | none =>
        if row.phase != .dispatched && row.phase != .uncertain then pure (s, false)
        else
          pure (s.update (fun r => r.id == row.id) fun r =>
            { r with
              phase := outcome.phase
              settledAtoms := outcome.atoms
              outcome := some (.provider outcome) }, true)

/-! ## Policies and deletion -/

def setPolicy (s : MerchantStore) (a : MerchantAccess) (value : PolicyValue)
    (expectedVersion : Nat) : Except String (MerchantStore × Option Policy) := do
  let _ ← a.validate
  value.parse
  countSchema expectedVersion
  let permitted ← s.permitted a false
  if !permitted || ((s.policyValue a.scope).map Policy.version).getD 0 != expectedVersion then
    pure (s, none)
  else
    let policy : Policy :=
      { value with
        scope := a.scope
        version := expectedVersion + 1
        generation := a.expectedGeneration + 1
        updatedAt := a.now }
    let s := ((s.ensure a.scope).bumpGeneration (· == a.scope)).cancel a.scope
    pure ({ s with policies := policy :: s.policies.filter fun p => p.scope != a.scope },
      some policy)

def purge (s : MerchantStore) (a : MerchantAccess) : Except String (MerchantStore × Nat) := do
  let _ ← a.validate
  let permitted ← s.permitted a true
  if !permitted then pure (s, s.generation a.scope)
  else
    pure (((s.ensure a.scope).bumpGeneration (· == a.scope)).erase a.scope,
      a.expectedGeneration + 1)

def purgeBudget (s : MerchantStore) (a : MerchantAccess) :
    Except String (MerchantStore × Nat) := do
  let _ ← a.validate
  let permitted ← s.permitted a true
  if !permitted then pure (s, s.generation a.scope)
  else
    let s := s.ensure a.scope
    let connections := (s.scopes.map ScopeRow.scope).filter (sameBudget a.scope)
    pure (connections.foldl erase (s.bumpGeneration (sameBudget a.scope)),
      a.expectedGeneration + 1)

/-- The contents of old attempts are deleted. -/
def pruneContent (s : MerchantStore) (now : Int) : MerchantStore :=
  s.update (fun r => textLE r.createdAt (now - operationalMillis)) fun r =>
    { r with
      visibility := { hash := zeroHash, privateActorId := none }
      keyHash := zeroHash
      intentHash := zeroHash
      sourceRefs := emptyRefs
      contentDeleted := true }

def prune (s : MerchantStore) (now : String) : Except String MerchantStore := do
  let now ← timestampSchema now
  let s := (s.reconcile now).pruneContent now
  pure { s with attempts := s.attempts.filter fun r => !pruned now r }

end MerchantStore

end BalanceFrame.Merchant
