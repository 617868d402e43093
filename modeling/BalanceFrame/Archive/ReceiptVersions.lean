import BalanceFrame.Archive.VersionGraph
import BalanceFrame.Library.Lists

/-!
# Reviews of receipt versions

Model of `ReceiptVersionWorkflow` (`packages/workflow-store/src/receipt-version.ts`). The reviews are
rows of a journal, in the order of `sequence`; a row that is read back is the event that was
appended. Every call reads the archive through functions of its own, so the documents may change in
any way between two calls. The schemas of receipts and observations are parameters, of which the
fields that are read are kept.
-/

namespace BalanceFrame.Archive

open Library
open Governance (trim)
open Liquidity (Json)
open Liquidity.Json (quote enclose render)

/-! ## Schemas -/

/-- `\p{Cc}`. -/
def isControl (c : Char) : Bool := decide (c.toNat < 32) || decide (127 ≤ c.toNat ∧ c.toNat < 160)

/-- `id` of `receipt-version.ts`. -/
def reviewIdSchema (s : String) : Except String Unit :=
  reject (utf16Length s == 0 || decide (256 < utf16Length s) || s.toList.any isControl)
    "Invalid identity"

/-- `hash`. -/
def hashSchema (s : String) : Except String Unit :=
  reject (s.toList.length != 64 || !s.toList.all fun c => c.isDigit || decide ('a' ≤ c ∧ c ≤ 'f'))
    "Invalid hash"

/-- `version`. -/
def versionSchema (n : Nat) : Except String Unit :=
  reject (n == 0 || decide (4294967295 < n)) "Invalid version"

/-- `receiptVersionSourceSchema`. -/
def ReceiptVersionSource.parse (ref : ReceiptVersionSource) : Except String Unit := do
  reviewIdSchema ref.documentId
  hashSchema ref.contentHash
  reviewIdSchema ref.parserVersion
  reviewIdSchema ref.receiptId

/-- `receiptVersionLinkSchema`. -/
def ReceiptVersionLink.parse (host : Host) (link : ReceiptVersionLink) : Except String Unit := do
  link.child.parse
  link.predecessor.parse
  versionSchema link.predecessorVersion
  versionSchema link.version
  hashSchema link.predecessorLineageHash
  reviewIdSchema link.actorId
  reviewIdSchema link.membershipId
  reviewIdSchema link.policyVersion
  let _ ← timestampSchema host link.reviewedAt
  reject (!(decide (link.predecessorVersion < 4294967295) &&
    link.version == link.predecessorVersion + 1)) "Invalid version"

structure Review where
  membershipId : String
  policyVersion : String

def Review.parse (r : Review) : Except String Unit := do
  reviewIdSchema r.membershipId
  reviewIdSchema r.policyVersion

/-! ## Receipts -/

inductive ObservationKind
  | ledgerTransaction | walletPayment | walletTransfer | walletFee | walletRefund | walletRequest
  | receipt | order | spendSessionItem | userCorrection
  deriving DecidableEq

inductive ObservationStatus
  | pending | completed | reversed | superseded
  deriving DecidableEq

inductive Direction
  | inflow | outflow
  deriving DecidableEq

/-- `ReceiptEvidence`, with the currency of its total and the identities of its lines. -/
structure ReceiptEvidence where
  id : String
  observationId : String
  currency : String
  lines : List String

/-- `EvidenceObservation`, with the currency of its amount. -/
structure EvidenceObservation where
  id : String
  kind : ObservationKind
  externalEventId : Option String
  currency : String
  direction : Direction
  status : ObservationStatus
  counterparty : Option String

/-- The schemas of arrays of receipts and of observations without provenance. -/
structure Schemas where
  receipts : Value → Except String (List ReceiptEvidence)
  observations : Value → Except String (List EvidenceObservation)

/-- An entry of an extraction. -/
def EvidenceDocument.extracted (d : EvidenceDocument) (name : String) : Option Value :=
  (d.extraction.find? fun e => e.1 == name).map Prod.snd

/-- An entry of an extraction, `?? []`. -/
def EvidenceDocument.extractedArray (d : EvidenceDocument) (name : String) : Value :=
  match d.extracted name with
  | none | some .null => .array []
  | some v => v

def receiptVersionFacts (schemas : Schemas) (document : EvidenceDocument)
    (reference : ReceiptVersionSource) : Except String (ReceiptEvidence × EvidenceObservation) := do
  reject (document.id != reference.documentId || document.contentHash != reference.contentHash ||
    document.parserVersion != reference.parserVersion || document.parseStatus != .parsed)
    "Receipt version source changed"
  let receipts ← schemas.receipts (document.extractedArray "receipts")
  let receipt? := receipts.find? fun r => r.id == reference.receiptId
  let observations ← schemas.observations (document.extractedArray "observations")
  let observation? := observations.find? fun o => receipt?.any fun r => o.id == r.observationId
  let receipt ← orStop receipt? "Current receipt version source required"
  let observation ← orStop observation? "Current receipt version source required"
  reject (observation.kind != .receipt || observation.status != .completed ||
    observation.currency != receipt.currency) "Current receipt version source required"
  pure (receipt, observation)

/-- `===`; two objects that were parsed apart are never the same. -/
def sameValue : Option Value → Option Value → Bool
  | none, none => true
  | some .null, some .null => true
  | some (.bool a), some (.bool b) => a == b
  | some (.number a), some (.number b) => a == b
  | some (.string a), some (.string b) => a == b
  | _, _ => false

def receiptVersionFamily (schemas : Schemas) (child parent : EvidenceDocument)
    (childRef parentRef : ReceiptVersionSource) : Except String IdentityBasis := do
  let (receipt, c) ← receiptVersionFacts schemas child childRef
  let (receipt', p) ← receiptVersionFacts schemas parent parentRef
  reject (child.id == parent.id || child.connectorId != parent.connectorId ||
    child.privateActorId != parent.privateActorId || child.scope != parent.scope ||
    !sameValue (child.extracted "templateVersion") (parent.extracted "templateVersion") ||
    !(c.counterparty.any fun s => trim s != "") || c.counterparty != p.counterparty ||
    c.direction != p.direction || receipt.currency != receipt'.currency)
    "Receipt version source family mismatch"
  if c.externalEventId.isSome || p.externalEventId.isSome then do
    reject (c.externalEventId.isNone || c.externalEventId != p.externalEventId)
      "Receipt version logical identity mismatch"
    pure .matchingExternalId
  else pure .humanAttestedSameReceipt

/-! ## The journal -/

/-- `receipt_version_revoke`. -/
structure Revocation where
  childDocumentId : String
  childReceiptId : String
  actorId : String
  membershipId : String
  policyVersion : String
  reviewedAt : String

/-- `Event`. -/
inductive ReviewEvent
  | link (link : ReceiptVersionLink)
  | revoke (revocation : Revocation)

def ReviewEvent.key : ReviewEvent → VersionKey
  | .link l => l.child.key
  | .revoke revocation => (revocation.childDocumentId, revocation.childReceiptId)

def ReceiptVersionSource.json (ref : ReceiptVersionSource) : Json :=
  .object [("documentId", .string ref.documentId), ("contentHash", .string ref.contentHash),
    ("parserVersion", .string ref.parserVersion), ("receiptId", .string ref.receiptId)]

def IdentityBasis.text : IdentityBasis → String
  | .matchingExternalId => "matching_external_id"
  | .humanAttestedSameReceipt => "human_attested_same_receipt"

def ReviewEvent.json : ReviewEvent → Json
  | .link l =>
    .object [("kind", .string "receipt_version_link"),
      ("link", .object
        [("child", l.child.json), ("predecessor", l.predecessor.json),
          ("predecessorVersion", .number l.predecessorVersion),
          ("version", .number l.version),
          ("predecessorLineageHash", .string l.predecessorLineageHash),
          ("identityBasis", .string l.identityBasis.text), ("actorId", .string l.actorId),
          ("membershipId", .string l.membershipId),
          ("policyVersion", .string l.policyVersion),
          ("reviewedAt", .string l.reviewedAt)])]
  | .revoke r =>
    .object [("kind", .string "receipt_version_revoke"),
      ("childDocumentId", .string r.childDocumentId), ("childReceiptId", .string r.childReceiptId),
      ("actorId", .string r.actorId), ("membershipId", .string r.membershipId),
      ("policyVersion", .string r.policyVersion), ("reviewedAt", .string r.reviewedAt)]

/-- `digest` of events; `render` writes what `canonicalProposalJson` does. -/
def foldDigest (events : List ReviewEvent) : String :=
  sha256Hex (String.ofList (render (.array (events.map ReviewEvent.json)))).toUTF8.toList

/-- A row of `transaction_evidence_decisions` with `source_hash` `receipt-version:1`. -/
structure ReviewRow where
  scope : EvidenceScope
  actorId : String
  event : ReviewEvent

/-- The reviews of a scope and an actor, newest first. -/
def reviewsOf (journal : List ReviewRow) (scope : EvidenceScope) (actorId : String) :
    List ReviewEvent :=
  ((journal.filter fun r => r.scope == scope && r.actorId == actorId).map (·.event)).reverse

/-- The last review of every child. -/
def latestOf (journal : List ReviewRow) (scope : EvidenceScope) (actorId : String) :
    List ReviewEvent :=
  firsts ReviewEvent.key (reviewsOf journal scope actorId)

/-- `events`. -/
def reviewEvents (host : Host) (journal : List ReviewRow) (access : EvidenceAccess) :
    Except String (List ReviewEvent) := do
  reviewIdSchema access.scope.spaceId
  reviewIdSchema access.scope.budgetId
  reviewIdSchema access.scope.connectionId
  reviewIdSchema access.actorId
  let _ ← timestampSchema host access.now
  let rows := reviewsOf journal access.scope access.actorId
  reject (decide (10000 < rows.length)) "Receipt version event limit exceeded"
  pure rows

/-- The text of a key. -/
def VersionKey.text (key : VersionKey) : String :=
  String.ofList (enclose '[' ']' [quote key.1, quote key.2])

/-- `folded`. -/
def foldedEvents (host : Host) (journal : List ReviewRow) (access : EvidenceAccess) :
    Except String (List ReviewEvent) := do
  let events ← reviewEvents host journal access
  pure (sortOn (fun e => host.collationKey (VersionKey.text e.key)) (firsts ReviewEvent.key events))

def EvidenceAccess.permitted (access : EvidenceAccess) (document : Option EvidenceDocument) : Bool :=
  access.authorize .resolve document

/-- The archive as the constructor of the workflow is given it. -/
structure Reader where
  get : EvidenceAccess → String → Except String (Option EvidenceDocument)
  current : EvidenceAccess → String → Except String Bool

def EvidenceStore.reader (a : EvidenceStore) (host : Host) : Reader where
  get access id := (a.get host access id).map Prod.snd
  current access id := (a.isCurrent host access id).map Prod.snd

/-! ## The reviews in force -/

/-- What `state` returns; every blocked child has the one reason
`reviewed_receipt_history_unavailable`. -/
structure ReviewState where
  foldHash : String
  links : List ReceiptVersionLink
  blockedChildren : List ReceiptVersionSource

/-- The link of an event, if it is one of an actor, a membership and a policy. -/
def ReviewEvent.approved (actorId : String) (review : Review) :
    ReviewEvent → Option ReceiptVersionLink
  | .link l =>
    if l.actorId = actorId ∧ l.membershipId = review.membershipId ∧
      l.policyVersion = review.policyVersion then some l else none
  | .revoke _ => none

section

variable (host : Host) (schemas : Schemas) (reader : Reader)

/-- The parent of a link is there and of its family. -/
def parentHolds (access : EvidenceAccess) (child : EvidenceDocument)
    (parent : Option EvidenceDocument) (link : ReceiptVersionLink) : Bool :=
  parent.any fun parent => access.permitted (some parent) &&
    match receiptVersionFamily schemas child parent link.child link.predecessor with
    | .ok basis => basis == link.identityBasis
    | .error _ => false

/-- One event of `state`. -/
def visitEvent (access : EvidenceAccess) (review : Review)
    (s : List ReceiptVersionLink × List ReceiptVersionSource) (event : ReviewEvent) :
    Except String (List ReceiptVersionLink × List ReceiptVersionSource) :=
  match event.approved access.actorId review with
  | none => pure s
  | some link => do
    match ← reader.get access link.child.documentId with
    | none => pure s
    | some child =>
      if !isOk (receiptVersionFacts schemas child link.child) then pure s
      else if !access.permitted (some child) then pure s
      else do
        let parent ← reader.get access link.predecessor.documentId
        if parentHolds schemas access child parent link then pure (s.1 ++ [link], s.2)
        else pure (s.1, s.2 ++ [link.child])

/-- The loop of `state`: the links in force and the blocked children. -/
def visitEvents (access : EvidenceAccess) (review : Review) (events : List ReviewEvent) :
    Except String (List ReceiptVersionLink × List ReceiptVersionSource) :=
  if access.permitted none then
    events.foldlM (visitEvent schemas reader access review) ([], [])
  else pure ([], [])

/-- `state`. -/
def reviewState (journal : List ReviewRow) (access : EvidenceAccess) (review : Review) :
    Except String ReviewState := do
  review.parse
  let events ← foldedEvents host journal access
  let (links, blockedChildren) ← visitEvents schemas reader access review events
  pure { foldHash := foldDigest events, links, blockedChildren }

def fence (journal : List ReviewRow) (access : EvidenceAccess) (expected : String) :
    Except String Unit := do
  hashSchema expected
  reject (!access.permitted none) "Receipt version review is not authorized"
  let events ← foldedEvents host journal access
  reject (foldDigest events != expected) "Receipt version reviews changed"

/-- The review is of the actor and no older than five minutes. -/
def freshReview (access : EvidenceAccess) (link : ReceiptVersionLink) : Except String Unit := do
  let now ← timestampSchema host access.now
  let reviewed ← timestampSchema host link.reviewedAt
  reject (link.actorId != access.actorId || decide (now < reviewed) ||
    decide (300000 < now - reviewed)) "Fresh receipt version human provenance required"

/-- Both documents are there, the child is current, and the access may resolve them. -/
def admitSources (access : EvidenceAccess) (link : ReceiptVersionLink) : Except String Unit := do
  let child? ← reader.get access link.child.documentId
  let parent? ← reader.get access link.predecessor.documentId
  let child ← orStop child? "Current authorized receipt version source required"
  let parent ← orStop parent? "Current authorized receipt version source required"
  let current ← reader.current access child.id
  reject (!current || !access.permitted (some child) || !access.permitted (some parent))
    "Current authorized receipt version source required"
  let basis ← receiptVersionFamily schemas child parent link.child link.predecessor
  reject (basis != link.identityBasis) "Receipt version identity changed"

/-- The other links of the actor, the membership and the policy of a link. -/
def otherLinks (access : EvidenceAccess) (link : ReceiptVersionLink) (events : List ReviewEvent) :
    List ReceiptVersionLink :=
  (events.filterMap (·.approved access.actorId ⟨link.membershipId, link.policyVersion⟩)).filter
    fun other => other.child.key != link.child.key

/-- `link`. -/
def linkReceipt (journal : List ReviewRow) (access : EvidenceAccess) (link : ReceiptVersionLink)
    (expectedFoldHash : String) : Except String (List ReviewRow) := do
  link.parse host
  hashSchema expectedFoldHash
  fence host journal access expectedFoldHash
  freshReview host access link
  admitSources schemas reader access link
  let events ← foldedEvents host journal access
  let valid ← orStop (validateReceiptVersionGraph (otherLinks access link events ++ [link]))
    "Receipt version graph"
  valid
  pure (journal ++ [{ scope := access.scope, actorId := access.actorId, event := .link link }])

/-- What `revoke` is given. -/
structure RevokeInput where
  childDocumentId : String
  childReceiptId : String
  expectedFoldHash : String
  membershipId : String
  policyVersion : String

def RevokeInput.key (input : RevokeInput) : VersionKey := (input.childDocumentId, input.childReceiptId)

/-- `revoke`. -/
def revokeReceipt (journal : List ReviewRow) (access : EvidenceAccess) (input : RevokeInput) :
    Except String (List ReviewRow) := do
  reviewIdSchema input.membershipId
  reviewIdSchema input.policyVersion
  reviewIdSchema input.childDocumentId
  reviewIdSchema input.childReceiptId
  hashSchema input.expectedFoldHash
  fence host journal access input.expectedFoldHash
  let events ← reviewEvents host journal access
  reject (!events.any fun event => match event with
    | .link link => link.child.key == input.key && link.actorId == access.actorId
    | .revoke _ => false) "Known receipt version review required"
  pure (journal ++ [{
    scope := access.scope
    actorId := access.actorId
    event := .revoke
      { childDocumentId := input.childDocumentId, childReceiptId := input.childReceiptId
        actorId := access.actorId, membershipId := input.membershipId
        policyVersion := input.policyVersion, reviewedAt := access.now } }])

end

end BalanceFrame.Archive
