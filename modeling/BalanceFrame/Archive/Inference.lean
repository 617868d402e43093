import BalanceFrame.Archive.ReceiptVersions

/-!
# Consent to receipt inference

Model of `updatePolicy`, `createPreview`, `consumePreview`, `finishDispatch`, `failDispatch`,
`withdraw` and `lookup` of `ReceiptInferenceWorkflow`
(`packages/workflow-store/src/receipt-inference.ts`). The table of decisions is one journal, in the
order of `sequence`, with the previews of the actors, the policies and the reservations of quota; a
row that is read back is what was appended. A call that throws is rolled back.
-/

namespace BalanceFrame.Archive

open Library
open Governance (toISOString)

/-! ## Data -/

structure Channel where
  enabled : Bool
  providerIds : List String

/-- `ReceiptInferencePolicy`. -/
structure InferencePolicy where
  local_ : Channel
  external : Channel
  maxCallsPerDay : Nat
  cacheTtlSeconds : Nat

def InferencePolicy.channel (p : InferencePolicy) : Locality → Channel
  | .local => p.local_
  | .external => p.external

/-- `ReceiptInferenceInstallation`. -/
structure Installation where
  installationId : String
  revision : String
  policy : InferencePolicy

structure Provider where
  id : String
  version : String
  model : String
  locality : Locality
  configRevision : String

/-- `ReceiptInferenceSubject`. -/
structure InferenceSubject where
  accountId : String
  documentId : String
  contentHash : String
  parserVersion : String
  receiptId : String
  lineId : String

structure InferenceResult where
  categoryAlias : Option String
  confidence : Option Number

/-- `ReceiptInferenceBinding`. -/
structure InferenceBinding where
  subject : InferenceSubject
  subjectHash : String
  bindingHash : String
  payloadHash : String
  nonce : String
  aliasMapping : List (String × String)
  provider : Provider

inductive PreviewStatus
  | preview | dispatched | completed | failed | rejected | revoked
  deriving DecidableEq

structure PolicyRevisions where
  space : String
  budget : String
  installation : String
  deriving DecidableEq

inductive FailureCode
  | failed | timeout | invalidResponse | dispatchGuardMissing | invalidRequest | unavailable

/-- `ReceiptInferencePreview`. -/
structure Preview extends InferenceBinding where
  id : String
  actorId : String
  scope : EvidenceScope
  status : PreviewStatus
  createdAt : String
  expiresAt : String
  at_ : String
  policyRevisions : PolicyRevisions
  installationId : String
  result : Option InferenceResult
  cacheUntil : Option String
  failureCode : Option FailureCode

/-- What the platform decides. -/
structure InferenceHost extends Host where
  /-- `\p{C}`. -/
  other : Char → Bool
  schemas : Schemas
  /-- What `randomUUID` gives, call after call. -/
  uuid : Nat → String
  uuid_injective : Function.Injective uuid

/-- The archive as the constructor of the workflow is given it, and whether the content of a document
is there. -/
structure InferenceReader extends Reader where
  ciphertext : EvidenceScope → String → Bool

/-! ## Values -/

def Locality.text : Locality → String
  | .local => "local"
  | .external => "external"

def PreviewStatus.text : PreviewStatus → String
  | .preview => "preview"
  | .dispatched => "dispatched"
  | .completed => "completed"
  | .failed => "failed"
  | .rejected => "rejected"
  | .revoked => "revoked"

def FailureCode.text : FailureCode → String
  | .failed => "failed"
  | .timeout => "timeout"
  | .invalidResponse => "invalid_response"
  | .dispatchGuardMissing => "dispatch_guard_missing"
  | .invalidRequest => "invalid_request"
  | .unavailable => "unavailable"

def natural (n : Nat) : Value := .number (.finite n)

def Channel.value (c : Channel) : Value :=
  .object [("enabled", .bool c.enabled), ("providerIds", .array (c.providerIds.map .string))]

def InferencePolicy.value (p : InferencePolicy) : Value :=
  .object [("local", p.local_.value), ("external", p.external.value),
    ("maxCallsPerDay", natural p.maxCallsPerDay), ("cacheTtlSeconds", natural p.cacheTtlSeconds)]

def Installation.value (i : Installation) : Value :=
  .object [("installationId", .string i.installationId), ("revision", .string i.revision),
    ("policy", i.policy.value)]

def Provider.value (p : Provider) : Value :=
  .object [("id", .string p.id), ("version", .string p.version), ("model", .string p.model),
    ("locality", .string p.locality.text), ("configRevision", .string p.configRevision)]

def InferenceSubject.value (s : InferenceSubject) : Value :=
  .object [("kind", .string "receipt-item"), ("accountId", .string s.accountId),
    ("documentId", .string s.documentId), ("contentHash", .string s.contentHash),
    ("parserVersion", .string s.parserVersion), ("receiptId", .string s.receiptId),
    ("lineId", .string s.lineId)]

def InferenceResult.value (r : InferenceResult) : Value :=
  .object (("categoryAlias", nullable r.categoryAlias) ::
    (r.confidence.map fun c => ("confidence", Value.number c)).toList)

def Preview.value (p : Preview) : Value :=
  .object
    [("subject", p.subject.value), ("subjectHash", .string p.subjectHash),
      ("bindingHash", .string p.bindingHash), ("payloadHash", .string p.payloadHash),
      ("nonce", .string p.nonce),
      ("aliasMapping", .object (p.aliasMapping.map fun e => (e.1, .string e.2))),
      ("provider", p.provider.value), ("purpose", .string "receipt-item-inference"),
      ("schemaVersion", natural 1), ("id", .string p.id), ("actorId", .string p.actorId),
      ("scope", .object [("spaceId", .string p.scope.spaceId),
        ("budgetId", .string p.scope.budgetId), ("connectionId", .string p.scope.connectionId)]),
      ("status", .string p.status.text), ("createdAt", .string p.createdAt),
      ("expiresAt", .string p.expiresAt), ("at", .string p.at_),
      ("policyRevisions", .object [("space", .string p.policyRevisions.space),
        ("budget", .string p.policyRevisions.budget),
        ("installation", .string p.policyRevisions.installation)]),
      ("installationId", .string p.installationId),
      ("result", (p.result.map InferenceResult.value).getD .null),
      ("cacheUntil", nullable p.cacheUntil),
      ("failureCode", nullable (p.failureCode.map FailureCode.text))]

/-- `digest`; `canonicalProposalJson` sorts the keys by their characters. -/
def proposalDigest (host : Host) (v : Value) : String :=
  sha256Hex (String.ofList (canonical
    { host with collationKey := fun s => s.toList.map Char.toNat } v)).toUTF8.toList

/-! ## Schemas -/

section Parsing

variable (host : InferenceHost)

/-- `id` of `receipt-inference.ts`. -/
def inferenceIdSchema (s : String) : Except String Unit :=
  reject (utf16Length s == 0 || decide (256 < utf16Length s) || s.toList.any host.other)
    "Invalid identity"

def isLowerHex (c : Char) : Bool := c.isDigit || decide ('a' ≤ c ∧ c ≤ 'f')

/-- The nonce of a binding. -/
def nonceSchema (s : String) : Except String Unit :=
  reject (s.toList.length != 32 || !s.toList.all isLowerHex) "Invalid nonce"

/-- `alias`. -/
def isAlias (s : String) : Bool :=
  match s.toList with
  | 'c' :: digits => digits.length == 16 && digits.all isLowerHex
  | _ => false

def Channel.parse (c : Channel) : Except String Unit := do
  c.providerIds.forM (inferenceIdSchema host)
  reject (decide (100 < c.providerIds.length) || !decide c.providerIds.Nodup) "Invalid providers"

/-- `receiptInferencePolicySchema`. -/
def InferencePolicy.parse (p : InferencePolicy) : Except String Unit := do
  p.local_.parse host
  p.external.parse host
  reject (decide (100000 < p.maxCallsPerDay) || decide (86400 < p.cacheTtlSeconds))
    "Invalid receipt inference policy"

/-- `installationSchema`. -/
def Installation.parse : Option Installation → Except String Installation
  | none => .error "Invalid installation"
  | some i => do
    inferenceIdSchema host i.installationId
    inferenceIdSchema host i.revision
    i.policy.parse host
    pure i

/-- `providerSchema`. -/
def Provider.parse (p : Provider) : Except String Unit :=
  [p.id, p.version, p.model, p.configRevision].forM (inferenceIdSchema host)

/-- `receiptInferenceSubjectSchema`. -/
def InferenceSubject.parse (s : InferenceSubject) : Except String Unit := do
  [s.accountId, s.documentId, s.parserVersion, s.receiptId, s.lineId].forM (inferenceIdSchema host)
  hashSchema s.contentHash

/-- `bindingSchema`. -/
def InferenceBinding.parse (b : InferenceBinding) : Except String Unit := do
  b.subject.parse host
  [b.subjectHash, b.bindingHash, b.payloadHash].forM hashSchema
  nonceSchema b.nonce
  (b.aliasMapping.map Prod.snd).forM (inferenceIdSchema host)
  reject (!(b.aliasMapping.map Prod.fst).all isAlias || b.aliasMapping.isEmpty ||
    decide (100 < b.aliasMapping.length) || !decide (b.aliasMapping.map Prod.snd).Nodup)
    "Invalid aliases"
  b.provider.parse host

/-- `resultSchema`. -/
def InferenceResult.parse (r : InferenceResult) : Except String Unit :=
  reject ((r.categoryAlias.any fun a => !isAlias a) || r.confidence.any fun c =>
    match c with
    | .negativeZero => false
    | .finite x => decide (x < 0) || decide (1 < x)) "Invalid result"

/-- `previewSchema`. -/
def Preview.parse (p : Preview) : Except String Unit := do
  p.toInferenceBinding.parse host
  [p.id, p.actorId, p.scope.spaceId, p.scope.budgetId, p.scope.connectionId, p.policyRevisions.space,
    p.policyRevisions.budget, p.installationId].forM (inferenceIdSchema host)
  reject (!([p.createdAt, p.expiresAt, p.at_].all fun t => (host.datetime t).isSome))
    "Invalid datetime"
  hashSchema p.policyRevisions.installation
  p.result.forM InferenceResult.parse
  reject (p.cacheUntil.any fun t => (host.datetime t).isNone) "Invalid datetime"

/-- `refSchema`. -/
structure PreviewRef where
  previewId : String
  payloadHash : String
  bindingHash : String
  nonce : String

def PreviewRef.parse (ref : PreviewRef) : Except String Unit := do
  inferenceIdSchema host ref.previewId
  hashSchema ref.payloadHash
  hashSchema ref.bindingHash
  nonceSchema ref.nonce

end Parsing

/-! ## The journal -/

inductive PolicyLayer
  | space
  | budget
  deriving DecidableEq

/-- A policy event, of what is read. -/
structure PolicyEvent where
  layer : PolicyLayer
  policy : Option InferencePolicy
  actorId : String
  membershipId : String
  policyVersion : String
  at_ : String

/-- `receipt-item-inference-quota`. -/
structure Reservation where
  spaceId : String
  budgetId : String
  at_ : String

/-- `transaction_evidence_decisions`: the previews of a scope and an actor, the policies of a space or
a budget, the reservations of an installation on a day, and the rows of other journals. -/
inductive InferenceRow
  | preview (scope : EvidenceScope) (actorId : String) (value : Preview)
  | policy (spaceId : String) (budgetId : Option String) (event : PolicyEvent)
  | quota (installationId date : String) (reservation : Reservation)
  | other

/-- `policyNs`. -/
def policyKey (access : EvidenceAccess) : PolicyLayer → String × Option String
  | .space => (access.scope.spaceId, none)
  | .budget => (access.scope.spaceId, some access.scope.budgetId)

def InferenceRow.policyOf (key : String × Option String) : InferenceRow → Option PolicyEvent
  | .policy spaceId budgetId event => if (spaceId, budgetId) = key then some event else none
  | _ => none

def InferenceRow.previewOf (scope : EvidenceScope) (actorId : String) :
    InferenceRow → Option Preview
  | .preview s a value => if s = scope ∧ a = actorId then some value else none
  | _ => none

def InferenceRow.reservationOf (installationId date : String) : InferenceRow → Option Reservation
  | .quota i d reservation => if i = installationId ∧ d = date then some reservation else none
  | _ => none

/-- The previews of a scope and an actor, as they were appended. -/
def previewsOf (journal : List InferenceRow) (scope : EvidenceScope) (actorId : String) :
    List Preview :=
  journal.filterMap (InferenceRow.previewOf scope actorId)

/-- The reservations of an installation on a day. -/
def reservationsOf (journal : List InferenceRow) (installationId date : String) :
    List Reservation :=
  journal.filterMap (InferenceRow.reservationOf installationId date)

/-- `findEvent`: the last event that a filter admits. -/
def findEvent (journal : List InferenceRow) (access : EvidenceAccess) (filter : Preview → Bool) :
    Option Preview :=
  (previewsOf journal access.scope access.actorId).reverse.find? filter

/-- `findEvent`, folded: of the last events of the previews, the last that a filter admits. -/
def findFolded (journal : List InferenceRow) (access : EvidenceAccess) (filter : Preview → Bool) :
    Option Preview :=
  (firsts Preview.id (previewsOf journal access.scope access.actorId).reverse).find? filter

/-- `ReceiptInferencePolicyState`. -/
structure PolicyState where
  revision : String
  policy : Option InferencePolicy

/-! ## Calls -/

section Calls

variable (host : InferenceHost)

/-- `validate`. -/
def validateInference (access : EvidenceAccess) : Except String Int := do
  [access.scope.spaceId, access.scope.budgetId, access.scope.connectionId, access.actorId].forM
    (inferenceIdSchema host)
  timestampSchema host.toHost access.now

/-- `authorize`. -/
def authorizeInference (access : EvidenceAccess) (capability : Capability)
    (document : Option EvidenceDocument) : Except String Unit := do
  let _ ← validateInference host access
  reject (!access.authorize capability document) "Receipt inference is not authorized"

def policyState (journal : List InferenceRow) (access : EvidenceAccess) (layer : PolicyLayer) :
    Except String PolicyState := do
  let _ ← validateInference host access
  let rows := journal.zipIdx.filterMap fun r =>
    (r.1.policyOf (policyKey access layer)).map fun event => (r.2 + 1, event)
  match rows.getLast? with
  | none => pure { revision := "0", policy := none }
  | some (sequence, event) =>
    pure { revision := toString sequence, policy := if event.layer = layer then event.policy else none }

/-- What `updatePolicy` is given. -/
structure PolicyUpdate where
  layer : PolicyLayer
  expectedRevision : String
  policy : Option InferencePolicy
  review : Review

def updatePolicy (journal : List InferenceRow) (access : EvidenceAccess) (input : PolicyUpdate) :
    Except String (List InferenceRow) := do
  inferenceIdSchema host input.expectedRevision
  input.policy.forM (InferencePolicy.parse host)
  inferenceIdSchema host input.review.membershipId
  inferenceIdSchema host input.review.policyVersion
  authorizeInference host access .managePolicy none
  let state ← policyState host journal access input.layer
  reject (state.revision != input.expectedRevision) "Receipt inference policy changed"
  let key := policyKey access input.layer
  pure (journal ++ [.policy key.1 key.2
    { layer := input.layer, policy := input.policy, actorId := access.actorId
      membershipId := input.review.membershipId, policyVersion := input.review.policyVersion
      at_ := access.now }])

/-- The limits of the installation, the space and the budget. -/
structure Limits where
  installation : Nat
  space : Nat
  budget : Nat

/-- What `policies` gives. -/
structure InForce where
  installationId : String
  revisions : PolicyRevisions
  limits : Limits
  ttl : Nat

/-- The layer is there, enabled and lists the provider. -/
def InferencePolicy.allows (p : InferencePolicy) (provider : Provider) : Bool :=
  (p.channel provider.locality).enabled && (p.channel provider.locality).providerIds.contains provider.id

/-- `policies`. -/
def policiesInForce (journal : List InferenceRow) (access : EvidenceAccess) (provider : Provider)
    (installation : Option Installation) : Except String InForce := do
  let installed ← Installation.parse host installation
  let space ← policyState host journal access .space
  let budget ← policyState host journal access .budget
  let spacePolicy ← orStop space.policy "Receipt inference policy disabled"
  let budgetPolicy ← orStop budget.policy "Receipt inference policy disabled"
  reject (!([installed.policy, spacePolicy, budgetPolicy].all fun p => p.allows provider))
    "Receipt inference policy disabled"
  pure
    { installationId := installed.installationId
      revisions :=
        { space := space.revision, budget := budget.revision
          installation := proposalDigest host.toHost installed.value }
      limits :=
        { installation := installed.policy.maxCallsPerDay, space := spacePolicy.maxCallsPerDay
          budget := budgetPolicy.maxCallsPerDay }
      ttl := min installed.policy.cacheTtlSeconds
        (min spacePolicy.cacheTtlSeconds budgetPolicy.cacheTtlSeconds) }

variable (reader : InferenceReader)

/-- The identity of the receipt of a subject. -/
def InferenceSubject.source (s : InferenceSubject) : ReceiptVersionSource where
  documentId := s.documentId
  contentHash := s.contentHash
  parserVersion := s.parserVersion
  receiptId := s.receiptId

/-- `source`. -/
def inferenceSource (access : EvidenceAccess) (p : InferenceBinding) : Except String Unit := do
  let document? ← reader.get access p.subject.documentId
  let document ← orStop document? "Receipt inference source unavailable"
  let current ← reader.current access document.id
  let now ← timestampSchema host.toHost access.now
  reject (!current ||
    (document.privateActorId.any fun owner => owner != "" && owner != access.actorId) ||
    !retained host.toHost document now) "Receipt inference source unavailable"
  reject (!reader.ciphertext access.scope document.id) "Receipt inference source deleted"
  let (receipt, _) ← receiptVersionFacts host.schemas document p.subject.source
  reject (!receipt.lines.contains p.subject.lineId) "Receipt inference line unavailable"
  authorizeInference host access (.inference p.provider.locality) (some document)

/-- `append`. -/
def appendPreview (journal : List InferenceRow) (access : EvidenceAccess) (p : Preview) :
    Except String (List InferenceRow) := do
  p.parse host
  reject (p.actorId != access.actorId || p.scope != access.scope)
    "Receipt inference scope mismatch"
  pure (journal ++ [.preview access.scope access.actorId p])

/-- `live`. -/
def livePolicies (journal : List InferenceRow) (access : EvidenceAccess) (p : Preview)
    (installation : Option Installation) : Except String InForce := do
  inferenceSource host reader access p.toInferenceBinding
  let policy ← policiesInForce host journal access p.provider installation
  reject (policy.revisions != p.policyRevisions || policy.installationId != p.installationId)
    "Receipt inference policy changed"
  let now ← timestampSchema host.toHost access.now
  reject ((host.datetime p.createdAt).any fun t => decide (now < t))
    "Receipt inference timestamp invalid"
  pure policy

def createPreview (journal : List InferenceRow) (access : EvidenceAccess) (input : InferenceBinding)
    (installation : Option Installation) (uuid : String) :
    Except String (List InferenceRow × Preview) := do
  input.parse host
  inferenceSource host reader access input
  let policy ← policiesInForce host journal access input.provider installation
  let now ← timestampSchema host.toHost access.now
  let p : Preview :=
    { input with
      id := uuid
      actorId := access.actorId
      scope := access.scope
      status := .preview
      createdAt := access.now
      expiresAt := toISOString (now + 300000)
      at_ := access.now
      policyRevisions := policy.revisions
      installationId := policy.installationId
      result := none
      cacheUntil := none
      failureCode := none }
  let journal ← appendPreview host journal access p
  pure (journal, p)

def getPreview (journal : List InferenceRow) (access : EvidenceAccess)
    (previewId payloadHash : String) : Except String (Option Preview) := do
  inferenceIdSchema host previewId
  hashSchema payloadHash
  let _ ← validateInference host access
  pure ((findEvent journal access fun p => p.id == previewId).filter fun p =>
    p.payloadHash == payloadHash)

/-- The time of the access is before a time; a comparison with `NaN` is not `>=`. -/
def before (access : EvidenceAccess) (time : String) : Bool :=
  !(host.datetime access.now).any fun now => (host.datetime time).any fun t => decide (t ≤ now)

def readLivePreview (journal : List InferenceRow) (access : EvidenceAccess) (ref : PreviewRef)
    (installation : Option Installation) : Except String (Option Preview) := do
  inferenceIdSchema host ref.previewId
  hashSchema ref.payloadHash
  hashSchema ref.bindingHash
  let p? ← getPreview host journal access ref.previewId ref.payloadHash
  pure (p?.filter fun p => p.bindingHash == ref.bindingHash && p.status == .preview &&
    before host access p.expiresAt && isOk (livePolicies host reader journal access p installation))

/-- `a.now.slice(0, 10)`. -/
def dayOf (access : EvidenceAccess) : String := String.ofList (access.now.toList.take 10)

/-- The quota is not used up. -/
def withinQuota (access : EvidenceAccess) (reservations : List Reservation) (limits : Limits) :
    Bool :=
  decide (reservations.length < limits.installation) &&
    decide ((reservations.filter fun r => r.spaceId == access.scope.spaceId).length < limits.space) &&
    decide ((reservations.filter fun r => r.spaceId == access.scope.spaceId &&
      r.budgetId == access.scope.budgetId).length < limits.budget)

def consumePreview (journal : List InferenceRow) (access : EvidenceAccess) (ref : PreviewRef)
    (installation : Option Installation) : Except String (List InferenceRow × Preview) := do
  ref.parse host
  let p? ← readLivePreview host reader journal access ref installation
  let p ← orStop (p?.filter fun p => p.nonce == ref.nonce)
    "Receipt inference preview expired or consumed"
  let policy ← livePolicies host reader journal access p installation
  reject (!withinQuota access (reservationsOf journal p.installationId (dayOf access)) policy.limits)
    "Receipt inference daily quota exhausted"
  let reserved := journal ++ [.quota p.installationId (dayOf access)
    { spaceId := access.scope.spaceId, budgetId := access.scope.budgetId, at_ := access.now }]
  let dispatched : Preview := { p with status := .dispatched, at_ := access.now }
  let journal ← appendPreview host reserved access dispatched
  pure (journal, dispatched)

def finishDispatch (journal : List InferenceRow) (access : EvidenceAccess) (ref : PreviewRef)
    (result : InferenceResult) (installation : Option Installation) :
    Except String (List InferenceRow × Preview) := do
  ref.parse host
  result.parse
  let now ← validateInference host access
  let p ← orStop ((findEvent journal access fun p => p.id == ref.previewId).filter fun p =>
      p.status == .dispatched && p.payloadHash == ref.payloadHash &&
        p.bindingHash == ref.bindingHash && p.nonce == ref.nonce && before host access p.expiresAt)
    "Receipt inference live dispatch required"
  let original ← orStop (findEvent journal access fun o => o.id == p.id && o.status == .preview)
    "Receipt inference original dispatch unavailable"
  reject (proposalDigest host.toHost
      ({ original with status := .dispatched, at_ := p.at_ } : Preview).value !=
    proposalDigest host.toHost p.value) "Receipt inference original dispatch unavailable"
  let policy ← livePolicies host reader journal access p installation
  reject (result.categoryAlias.any fun a => !(p.aliasMapping.map Prod.fst).contains a)
    "Receipt inference category alias unavailable"
  let completed : Preview :=
    { p with
      status := .completed
      at_ := access.now
      result := some result
      cacheUntil := some (toISOString (now + policy.ttl * 1000)) }
  let journal ← appendPreview host journal access completed
  pure (journal, completed)

def failDispatch (journal : List InferenceRow) (access : EvidenceAccess)
    (previewId payloadHash : String) (code : FailureCode) :
    Except String (List InferenceRow × Preview) := do
  let p? ← getPreview host journal access previewId payloadHash
  let p ← orStop (p?.filter fun p => p.status == .dispatched)
    "Receipt inference live dispatch required"
  authorizeInference host access (.inference p.provider.locality) none
  let failed : Preview :=
    { p with
      status := .failed
      at_ := access.now
      result := none
      cacheUntil := none
      failureCode := some code }
  let journal ← appendPreview host journal access failed
  pure (journal, failed)

/-- How a consent is withdrawn. -/
inductive Withdrawal
  | rejected
  | revoked

def Withdrawal.status : Withdrawal → PreviewStatus
  | .rejected => .rejected
  | .revoked => .revoked

def PreviewStatus.withdrawn (status : PreviewStatus) : Bool :=
  status == .rejected || status == .revoked

/-- `withdraw`. -/
def withdrawPreview (journal : List InferenceRow) (access : EvidenceAccess)
    (previewId payloadHash : String) (withdrawal : Withdrawal) :
    Except String (List InferenceRow × Preview) := do
  let p? ← getPreview host journal access previewId payloadHash
  let p ← orStop (p?.filter fun p => !p.status.withdrawn) "Receipt inference record unavailable"
  authorizeInference host access (.inference p.provider.locality) none
  let withdrawn : Preview :=
    { p with
      status := withdrawal.status
      at_ := access.now
      result := none
      cacheUntil := none }
  let journal ← appendPreview host journal access withdrawn
  pure (journal, withdrawn)

/-- `lookup`. -/
def lookupResult (journal : List InferenceRow) (access : EvidenceAccess) (bindingHash : String)
    (payloadHash : Option String) (installation : Option Installation) :
    Except String (Option Preview) := do
  hashSchema bindingHash
  payloadHash.forM hashSchema
  let _ ← validateInference host access
  pure ((findFolded journal access fun p =>
      p.bindingHash == bindingHash && payloadHash.all fun h => p.payloadHash == h).filter fun p =>
    p.status == .completed && (p.cacheUntil.any fun t => t != "" && before host access t) &&
      isOk (livePolicies host reader journal access p installation))

end Calls

end BalanceFrame.Archive
