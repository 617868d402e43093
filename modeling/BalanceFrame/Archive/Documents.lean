import BalanceFrame.Governance.Spaces
import BalanceFrame.Library.Checked
import BalanceFrame.Library.Sha256
import BalanceFrame.Library.Sorting
import BalanceFrame.Liquidity.Json

/-!
# The evidence archive

Model of `canonical`, `ingest`, `get`, `isCurrent`, `list`, `readRaw`, `erase`, `deleteRaw`,
`expireRaw` and `quarantineRestore` (`packages/workflow-store/src/transaction-evidence.ts`). A call
takes the archive and what Node gives it (identities, nonces), and returns the archive after it, or
the error it throws; a call that throws leaves the archive as it is. The rows are in `rowid` order.
The schemas and dates of the platform, the order of its `localeCompare` and AES-256-GCM are
parameters. A stored document is what `JSON.parse` reads back of it.
-/

namespace BalanceFrame.Archive

open Library
open Governance (trim)
open Liquidity.Json (quote enclose)

/-! ## The platform -/

/-- `s.length`. -/
def utf16Length (s : String) : Nat :=
  (s.toList.map fun c => if c.toNat < 0x10000 then 1 else 2).sum

/-- What the platform decides. -/
structure Host where
  /-- The time of a text that `z.string().datetime()` admits. -/
  datetime : String → Option Int
  /-- SQLite's `julianday`; `none` is `NULL`. -/
  julianday : String → Option Int
  /-- Texts in the order of `localeCompare`. -/
  collationKey : String → List Nat
  /-- `JSON.stringify` of a finite number. -/
  numberText : Rat → String

/-- AES-256-GCM, assumed correct. A call takes a key, a nonce and the associated data; `encrypt` gives
the ciphertext and the tag. -/
structure Gcm where
  encrypt : List UInt8 → List UInt8 → String → List UInt8 → List UInt8 × List UInt8
  decrypt : List UInt8 → List UInt8 → String → List UInt8 × List UInt8 → Option (List UInt8)
  decrypt_encrypt : ∀ key iv data content,
    decrypt key iv data (encrypt key iv data content) = some content
  /-- Whatever is decrypted is what was encrypted. -/
  authentic : ∀ {key iv data content key' iv' data' content'},
    decrypt key' iv' data' (encrypt key iv data content) = some content' → content' = content

/-- A finite number; JSON has no negative zero. -/
inductive Number
  | negativeZero
  | finite (x : Rat)
  deriving DecidableEq

/-- A value of JavaScript that the schema `json` admits; an object's entries are in the order in
which they are enumerated. -/
inductive Value
  | null
  | bool (b : Bool)
  | number (x : Number)
  | string (s : String)
  | array (values : List Value)
  | object (entries : List (String × Value))

def Number.text (host : Host) : Number → List Char
  | .negativeZero => (host.numberText 0).toList
  | .finite x => (host.numberText x).toList

mutual

/-- `canonical`, as characters. -/
def canonical (host : Host) : Value → List Char
  | .null => "null".toList
  | .bool b => (if b then "true" else "false").toList
  | .number x => x.text host
  | .string s => quote s
  | .array values => enclose '[' ']' (canonicalValues host values)
  | .object entries => enclose '\x7b' '\x7d'
      ((sortOn (fun e => host.collationKey e.1) (canonicalEntries host entries)).map Prod.snd)

def canonicalValues (host : Host) : List Value → List (List Char)
  | [] => []
  | v :: rest => canonical host v :: canonicalValues host rest

def canonicalEntries (host : Host) : List (String × Value) → List (String × List Char)
  | [] => []
  | (key, v) :: rest => (key, quote key ++ ':' :: canonical host v) :: canonicalEntries host rest

end

mutual

/-- `JSON.parse(JSON.stringify(v))`. -/
def reread : Value → Value
  | .null => .null
  | .bool b => .bool b
  | .number .negativeZero => .number (.finite 0)
  | .number (.finite x) => .number (.finite x)
  | .string s => .string s
  | .array values => .array (rereadValues values)
  | .object entries => .object (rereadEntries entries)

def rereadValues : List Value → List Value
  | [] => []
  | v :: rest => reread v :: rereadValues rest

def rereadEntries : List (String × Value) → List (String × Value)
  | [] => []
  | (key, v) :: rest => (key, reread v) :: rereadEntries rest

end

mutual

theorem canonical_reread (host : Host) : ∀ v, canonical host (reread v) = canonical host v
  | .null | .bool _ | .string _ | .number .negativeZero | .number (.finite _) => rfl
  | .array values => by
    rw [reread, canonical, canonical, canonicalValues_reread host values]
  | .object entries => by
    rw [reread, canonical, canonical, canonicalEntries_reread host entries]

theorem canonicalValues_reread (host : Host) :
    ∀ values, canonicalValues host (rereadValues values) = canonicalValues host values
  | [] => rfl
  | v :: rest => by
    rw [rereadValues, canonicalValues, canonicalValues, canonical_reread host v,
      canonicalValues_reread host rest]

theorem canonicalEntries_reread (host : Host) :
    ∀ entries, canonicalEntries host (rereadEntries entries) = canonicalEntries host entries
  | [] => rfl
  | (key, v) :: rest => by
    rw [rereadEntries, canonicalEntries, canonicalEntries, canonical_reread host v,
      canonicalEntries_reread host rest]

end

mutual

/-- The schema `json`. -/
def admitted : Value → Bool
  | .string s => utf16Length s ≤ 100000
  | .array values => values.length ≤ 100000 && admittedValues values
  | .object entries => admittedEntries entries
  | _ => true

def admittedValues : List Value → Bool
  | [] => true
  | v :: rest => admitted v && admittedValues rest

def admittedEntries : List (String × Value) → Bool
  | [] => true
  | (_, v) :: rest => admitted v && admittedEntries rest

end

/-! ## Documents -/

/-- `scopeSchema`. -/
structure EvidenceScope where
  spaceId : String
  budgetId : String
  connectionId : String
  deriving DecidableEq

inductive ParseStatus
  | parsed
  | malformed
  | unsupportedTemplate
  | sourceConflict
  deriving DecidableEq

def ParseStatus.text : ParseStatus → String
  | .parsed => "parsed"
  | .malformed => "malformed"
  | .unsupportedTemplate => "unsupported_template"
  | .sourceConflict => "source_conflict"

structure EvidenceDocument where
  connectorId : String
  sourceId : String
  sourceTimestamp : String
  mediaType : String
  parserVersion : String
  privateActorId : Option String
  retentionUntil : String
  parseStatus : ParseStatus
  quality : List String
  extraction : List (String × Value)
  id : String
  scope : EvidenceScope
  receivedAt : String
  contentHash : String
  supersedesId : Option String

def nullable : Option String → Value
  | none => .null
  | some s => .string s

/-- A document as a value, with its entries in the order in which `ingest` makes them. -/
def EvidenceDocument.value (d : EvidenceDocument) : Value :=
  .object
    [("connectorId", .string d.connectorId), ("sourceId", .string d.sourceId),
      ("sourceTimestamp", .string d.sourceTimestamp), ("mediaType", .string d.mediaType),
      ("parserVersion", .string d.parserVersion), ("privateActorId", nullable d.privateActorId),
      ("retentionUntil", .string d.retentionUntil), ("parseStatus", .string d.parseStatus.text),
      ("quality", .array (d.quality.map .string)), ("extraction", .object d.extraction),
      ("id", .string d.id),
      ("scope", .object [("spaceId", .string d.scope.spaceId),
        ("budgetId", .string d.scope.budgetId), ("connectionId", .string d.scope.connectionId)]),
      ("receivedAt", .string d.receivedAt), ("contentHash", .string d.contentHash),
      ("supersedesId", nullable d.supersedesId)]

/-- The associated data of a document's encryption. -/
def EvidenceDocument.associatedData (host : Host) (d : EvidenceDocument) : String :=
  String.ofList (canonical host d.value)

/-- A document as it is read back from its row. -/
def EvidenceDocument.stored (d : EvidenceDocument) : EvidenceDocument :=
  { d with extraction := rereadEntries d.extraction }

theorem canonical_stored (host : Host) (d : EvidenceDocument) :
    d.stored.associatedData host = d.associatedData host := by
  have hextraction : canonical host (.object (rereadEntries d.extraction)) =
      canonical host (.object d.extraction) := canonical_reread host (.object d.extraction)
  unfold EvidenceDocument.associatedData EvidenceDocument.value EvidenceDocument.stored
  simp only [canonical, canonicalEntries] at hextraction ⊢
  rw [hextraction]

/-! ## Access -/

inductive Locality
  | local
  | external
  deriving DecidableEq

/-- The capabilities that the modelled calls ask for. -/
inductive Capability
  | ingest
  | normalizedEvidence
  | rawDocument
  | delete
  | resolve
  | inference (locality : Locality)
  | managePolicy
  deriving DecidableEq

/-- `EvidenceAccess`; the scope that `authorize` is given is the one of the access. -/
structure EvidenceAccess where
  scope : EvidenceScope
  actorId : String
  now : String
  authorize : Capability → Option EvidenceDocument → Bool

/-- `id`. -/
def idSchema (s : String) : Except String String := do
  let s := trim s
  reject (utf16Length s == 0 || decide (512 < utf16Length s)) "Invalid identity"
  pure s

/-- `timestamp`. -/
def timestampSchema (host : Host) (s : String) : Except String Int :=
  orStop (host.datetime s) "Invalid datetime"

def EvidenceAccess.validate (host : Host) (access : EvidenceAccess) : Except String Int := do
  let _ ← idSchema access.scope.spaceId
  let _ ← idSchema access.scope.budgetId
  let _ ← idSchema access.scope.connectionId
  let _ ← idSchema access.actorId
  timestampSchema host access.now

def EvidenceAccess.allowed (access : EvidenceAccess) (capability : Capability)
    (document : Option EvidenceDocument) : Bool :=
  if (document.bind (·.privateActorId)).any fun owner => owner != "" && owner != access.actorId then
    false
  else access.authorize capability document

/-! ## The archive -/

/-- What a row keeps of the raw content. -/
structure SealedContent where
  ciphertext : List UInt8
  iv : List UInt8
  tag : List UInt8

/-- `transaction_evidence_documents`; `value` is read back. -/
structure Row where
  scope : EvidenceScope
  id : String
  connectorId : String
  sourceId : String
  contentHash : String
  parserVersion : String
  value : EvidenceDocument
  raw : Option SealedContent

inductive AuditAction
  | ingested
  | duplicateReceived
  | rawDeleted
  | rawExpired
  deriving DecidableEq

/-- `transaction_evidence_audit`. -/
structure AuditRow where
  scope : EvidenceScope
  documentId : String
  action : AuditAction
  at_ : String
  actorId : String
  contentHash : String

/-- The tables of documents and of their audit. -/
structure EvidenceStore where
  rows : List Row
  audit : List AuditRow

def EvidenceStore.append (a : EvidenceStore) (access : EvidenceAccess) (document : EvidenceDocument)
    (action : AuditAction) : EvidenceStore :=
  { a with audit := a.audit ++ [
      { scope := access.scope, documentId := document.id, action := action, at_ := access.now
        actorId := access.actorId, contentHash := document.contentHash }] }

/-- The row of a scope with an identity. -/
def EvidenceStore.find? (a : EvidenceStore) (scope : EvidenceScope) (id : String) : Option Row :=
  a.rows.find? fun r => r.scope == scope && r.id == id

def EvidenceStore.row (a : EvidenceStore) (access : EvidenceAccess) (identity : String) :
    Except String (Option Row) := do
  let id ← idSchema identity
  pure (a.find? access.scope id)

/-- The row is one of a scope, a connector, a source and an owner. -/
def Row.of (r : Row) (scope : EvidenceScope) (connectorId sourceId : String)
    (privateActorId : Option String) : Bool :=
  r.scope == scope && r.connectorId == connectorId && r.sourceId == sourceId &&
    r.value.privateActorId == privateActorId

/-- The last row of a scope, a connector, a source and an owner. -/
def EvidenceStore.newest (a : EvidenceStore) (scope : EvidenceScope) (connectorId sourceId : String)
    (privateActorId : Option String) : Option Row :=
  (a.rows.filter fun r => r.of scope connectorId sourceId privateActorId).getLast?

/-! ## Ingesting -/

structure EvidenceIngestInput where
  connectorId : String
  sourceId : String
  sourceTimestamp : String
  mediaType : String
  parserVersion : String
  privateActorId : Option String
  retentionUntil : String
  parseStatus : ParseStatus
  quality : List String
  extraction : List (String × Value)
  content : List UInt8

/-- `inputSchema`. -/
def EvidenceIngestInput.parse (host : Host) (input : EvidenceIngestInput) :
    Except String EvidenceIngestInput := do
  let connectorId ← idSchema input.connectorId
  let sourceId ← idSchema input.sourceId
  let _ ← timestampSchema host input.sourceTimestamp
  let mediaType ← idSchema input.mediaType
  let parserVersion ← idSchema input.parserVersion
  let privateActorId ← input.privateActorId.mapM idSchema
  let _ ← timestampSchema host input.retentionUntil
  reject (decide (100 < input.quality.length)) "Too many qualities"
  let quality ← input.quality.mapM idSchema
  reject (!admittedEntries input.extraction) "Invalid extraction"
  reject (input.content.isEmpty || decide (10 * 1024 * 1024 < input.content.length))
    "Invalid content"
  pure
    { input with
      connectorId, sourceId, mediaType, parserVersion, privateActorId, quality }

/-- What `randomUUID` and `randomBytes` give a call. -/
structure Random where
  uuid : String
  iv : List UInt8
  /-- An identity that `randomUUID` makes reads back as it is. -/
  uuid_ok : idSchema uuid = .ok uuid

structure Ingested where
  document : EvidenceDocument
  duplicate : Bool

/-- The input says of the document something else than the document does. -/
def EvidenceDocument.differs (host : Host) (d : EvidenceDocument) (input : EvidenceIngestInput) :
    Bool :=
  canonical host (.object d.extraction) != canonical host (.object input.extraction) ||
    canonical host (.array (d.quality.map .string)) !=
      canonical host (.array (input.quality.map .string)) ||
    d.parseStatus != input.parseStatus || d.privateActorId != input.privateActorId ||
    d.sourceTimestamp != input.sourceTimestamp || d.mediaType != input.mediaType

/-- The row of exactly this delivery. -/
def EvidenceStore.existing (a : EvidenceStore) (scope : EvidenceScope) (input : EvidenceIngestInput)
    (contentHash : String) : Option Row :=
  a.rows.find? fun r =>
    r.of scope input.connectorId input.sourceId input.privateActorId &&
      r.contentHash == contentHash && r.parserVersion == input.parserVersion

/-- The document a delivery makes. It supersedes the newest one of its source, if the access may
read that. -/
def newDocument (a : EvidenceStore) (access : EvidenceAccess) (input : EvidenceIngestInput)
    (contentHash uuid : String) : EvidenceDocument where
  connectorId := input.connectorId
  sourceId := input.sourceId
  sourceTimestamp := input.sourceTimestamp
  mediaType := input.mediaType
  parserVersion := input.parserVersion
  privateActorId := input.privateActorId
  retentionUntil := input.retentionUntil
  parseStatus := input.parseStatus
  quality := input.quality
  extraction := input.extraction
  id := uuid
  scope := access.scope
  receivedAt := access.now
  contentHash := contentHash
  supersedesId :=
    ((a.newest access.scope input.connectorId input.sourceId input.privateActorId).filter
      fun prior => access.allowed .normalizedEvidence (some prior.value)).map (·.id)

/-- The row of a new document. -/
def newRow (host : Host) (gcm : Gcm) (key : List UInt8) (random : Random) (content : List UInt8)
    (document : EvidenceDocument) : Row :=
  let encrypted := gcm.encrypt key random.iv (document.associatedData host) content
  { scope := document.scope, id := document.id, connectorId := document.connectorId
    sourceId := document.sourceId, contentHash := document.contentHash
    parserVersion := document.parserVersion, value := document.stored
    raw := some { ciphertext := encrypted.1, iv := random.iv, tag := encrypted.2 } }

/-- A delivery that is known. -/
def EvidenceStore.redeliver (a : EvidenceStore) (host : Host) (access : EvidenceAccess)
    (input : EvidenceIngestInput) (row : Row) : Except String (EvidenceStore × Ingested) := do
  reject (!access.allowed .normalizedEvidence (some row.value))
    "Evidence operation is not authorized"
  reject (row.value.differs host input) "Evidence normalization is immutable"
  pure (a.append access row.value .duplicateReceived, { document := row.value, duplicate := true })

/-- A delivery that is new. -/
def EvidenceStore.insert (a : EvidenceStore) (host : Host) (gcm : Gcm) (access : EvidenceAccess)
    (input : EvidenceIngestInput) (key : List UInt8) (random : Random) :
    Except String (EvidenceStore × Ingested) := do
  let document := newDocument a access input (sha256Hex input.content) random.uuid
  reject (a.find? access.scope random.uuid).isSome "UNIQUE constraint failed"
  let stored : EvidenceStore :=
    { a with rows := a.rows ++ [newRow host gcm key random input.content document] }
  pure (stored.append access document .ingested, { document, duplicate := false })

/-- The checks of `ingest` before its transaction; they give the input as its schema reads it. -/
def admitDelivery (host : Host) (access : EvidenceAccess) (untrusted : EvidenceIngestInput)
    (key : List UInt8) : Except String EvidenceIngestInput := do
  let now ← access.validate host
  let input ← untrusted.parse host
  let retention ← timestampSchema host input.retentionUntil
  reject (key.length != 32 || decide (retention ≤ now) || decide (30 * 86400000 < retention - now))
    "Invalid evidence retention or encryption key"
  reject (input.privateActorId.any (· != access.actorId)) "Evidence operation is not authorized"
  reject (!access.allowed .ingest none) "Evidence operation is not authorized"
  pure input

def EvidenceStore.ingest (a : EvidenceStore) (host : Host) (gcm : Gcm) (access : EvidenceAccess)
    (untrusted : EvidenceIngestInput) (key : List UInt8) (random : Random) :
    Except String (EvidenceStore × Ingested) := do
  let input ← admitDelivery host access untrusted key
  match a.existing access.scope input (sha256Hex input.content) with
  | some row => a.redeliver host access input row
  | none => a.insert host gcm access input key random

/-! ## Erasing -/

/-- `erase`; the call says whether anything changed. -/
def EvidenceStore.erase (a : EvidenceStore) (access : EvidenceAccess) (document : EvidenceDocument)
    (action : AuditAction) : EvidenceStore × Bool :=
  let hits (r : Row) : Bool := r.scope == access.scope && r.id == document.id && r.raw.isSome
  let rows := a.rows.map fun r => if hits r then { r with raw := none } else r
  if a.rows.any hits then ({ a with rows := rows }.append access document action, true)
  else (a, false)

/-- `Date.parse(document.retentionUntil) <= Date.parse(access.now)`; a comparison with `NaN` is
false. -/
def retained (host : Host) (document : EvidenceDocument) (now : Int) : Bool :=
  !(host.datetime document.retentionUntil).any fun until_ => decide (until_ ≤ now)

def EvidenceStore.deleteRaw (a : EvidenceStore) (host : Host) (access : EvidenceAccess)
    (identity : String) : Except String (EvidenceStore × Bool) := do
  let _ ← access.validate host
  match ← a.row access identity with
  | none => pure (a, false)
  | some row => do
    reject (!access.allowed .delete (some row.value)) "Evidence operation is not authorized"
    pure (a.erase access row.value .rawDeleted)

/-- The access with which the archive erases by itself. -/
def systemAccess (document : EvidenceDocument) (actorId now : String) (granted : Bool) :
    EvidenceAccess where
  scope := document.scope
  actorId := actorId
  now := now
  authorize _ _ := granted

/-- The row keeps raw content past its retention. -/
def Row.due (r : Row) (host : Host) (now : String) : Bool :=
  r.raw.isSome && (host.julianday r.value.retentionUntil).any fun until_ =>
    (host.julianday now).any fun now => decide (until_ ≤ now)

/-- Erase one row more. -/
def EvidenceStore.expireNext (now : String) (s : EvidenceStore × Nat) (r : Row) :
    EvidenceStore × Nat :=
  let erased := s.1.erase (systemAccess r.value "system:retention" now false) r.value .rawExpired
  (erased.1, if erased.2 then s.2 + 1 else s.2)

/-- `expireRaw`: how many rows it erases. -/
def EvidenceStore.expireRaw (a : EvidenceStore) (host : Host) (now : String) :
    Except String (EvidenceStore × Nat) := do
  let _ ← timestampSchema host now
  pure ((a.rows.filter fun r => r.due host now).foldl (EvidenceStore.expireNext now) (a, 0))

/-- `quarantineRestore`, of the documents. -/
def EvidenceStore.quarantineRestore (a : EvidenceStore) (host : Host) (now : String) :
    Except String EvidenceStore := do
  let _ ← timestampSchema host now
  pure ((a.rows.filter fun r => r.raw.isSome).foldl (fun a r =>
    (a.erase (systemAccess r.value "system:restore" now true) r.value .rawDeleted).1) a)

/-! ## Reading -/

/-- A document that is read after its retention is erased. -/
def EvidenceStore.expired (a : EvidenceStore) (host : Host) (access : EvidenceAccess) (now : Int)
    (document : EvidenceDocument) : EvidenceStore :=
  if retained host document now then a else (a.erase access document .rawExpired).1

def EvidenceStore.get (a : EvidenceStore) (host : Host) (access : EvidenceAccess)
    (identity : String) : Except String (EvidenceStore × Option EvidenceDocument) := do
  let now ← access.validate host
  match ← a.row access identity with
  | none => pure (a, none)
  | some row =>
    if access.allowed .normalizedEvidence (some row.value) then
      pure (a.expired host access now row.value, some row.value)
    else pure (a, none)

def EvidenceStore.isCurrent (a : EvidenceStore) (host : Host) (access : EvidenceAccess)
    (identity : String) : Except String (EvidenceStore × Bool) := do
  let (a, document) ← a.get host access identity
  match document with
  | none => pure (a, false)
  | some document =>
    let row := a.newest access.scope document.connectorId document.sourceId document.privateActorId
    pure (a, row.map (·.id) == some identity)

def EvidenceStore.list (a : EvidenceStore) (host : Host) (access : EvidenceAccess) :
    Except String (EvidenceStore × List EvidenceDocument) := do
  let now ← access.validate host
  let documents := ((a.rows.filter (·.scope == access.scope)).map (·.value)).filter fun document =>
    access.allowed .normalizedEvidence (some document)
  pure (documents.foldl (fun a document => a.expired host access now document) a, documents)

/-- Decrypt what a row keeps. -/
def Row.readContent (r : Row) (host : Host) (gcm : Gcm) (key : List UInt8) :
    Except String (Option (List UInt8)) :=
  match r.raw with
  | none => pure none
  | some raw => do
    reject (key.length != 32) "Invalid key length"
    let content ← orStop
      (gcm.decrypt key raw.iv (r.value.associatedData host) (raw.ciphertext, raw.tag))
      "Unsupported state or unable to authenticate data"
    pure (some content)

def EvidenceStore.readRaw (a : EvidenceStore) (host : Host) (gcm : Gcm) (access : EvidenceAccess)
    (identity : String) (key : List UInt8) :
    Except String (EvidenceStore × Option (List UInt8)) := do
  let now ← access.validate host
  match ← a.row access identity with
  | none => pure (a, none)
  | some row => do
    reject (!access.allowed .rawDocument (some row.value)) "Evidence operation is not authorized"
    if retained host row.value now then do
      let content ← row.readContent host gcm key
      pure (a, content)
    else pure (a.expired host access now row.value, none)

end BalanceFrame.Archive
