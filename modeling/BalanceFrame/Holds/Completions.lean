import BalanceFrame.Holds.Sessions

/-!
# Session completions

Model of `admitSessionCompletion`, `approveSessionCompletion`, `beginSessionCompletionWrite`,
`validateSessionCompletionWrite`, `finishSessionCompletionWrite` and `reconcileSessionCompletion` of
`LiquidityWorkflow`, with `validateCompletionPayload`, `validateCompletionClaim`,
`completionSession` and `completionCommand`. `randomUUID` is an input of the call that draws one.

Approving and beginning catch what validation throws: the completion is closed, that is committed,
and only then the call throws (`Answer.stale`).
-/

namespace BalanceFrame.Holds

open Library
open Liquidity (Money LiquidityClaimBundle LiquidityClaimEffect LiquidityClaimState
  ClaimEffectKind)
open Workflow (Refusal Guarded)
open Governance (isBlank)

/-- What a call returns, as far as the results below speak about it. -/
inductive Answer
  | done
  | claimSet (set : ClaimSet)
  | write (acquired : Bool)
  | stale (message : String)
  deriving DecidableEq

structure AdmitCompletionInput where
  sessionId : String
  payload : CompletionPayload
  payloadHash : String
  claim : LiquidityClaimBundle
  expectedSessionVersion : Nat
  expectedClaimSetRevision : String
  proposalId : String
  outcome : Option Validation

structure CompletionCommand where
  proposalId : String
  payloadHash : String
  expectedVersion : Nat
  expectedClaimSetRevision : String
  outcome : Option Validation

/-- The result of the manual write that is reported back. -/
structure WriteResult where
  parentId : String
  success : Bool
  verified : Bool
  reviewRequired : Bool
  code : Option String
  transactionId : Option String
  evidenceId : Option String

structure FinishInput where
  proposalId : String
  payloadHash : String
  expectedVersion : Nat
  intentId : String
  expectedClaimSetRevision : Option String
  result : WriteResult

/-- `SessionCompletionReconciliation`. -/
structure Reconciliation where
  evidenceId : String
  kind : EvidenceKind
  parentId : String
  accountId : String
  transactionId : Option String
  verified : Bool

structure ReconcileInput where
  proposalId : String
  payloadHash : String
  expectedVersion : Nat
  evidence : Reconciliation

def validateCompletionPayload (host : Host) (payload : CompletionPayload) (now : String) :
    Guarded Unit := do
  reject (payload.sessionId == "") (refusal "Invalid session completion payload")
  reject (payload.sessionVersion == 0) (refusal "Invalid session completion session version")
  reject (payload.parentId == "" || payload.accountId == "" || decide (0 ≤ payload.amount))
    (refusal "Invalid session completion manual input")
  reject payload.categoryCharges.isEmpty (refusal "Missing session completion category charges")
  reject (payload.categoryCharges.any (·.1 == "") ||
    decide (¬ (payload.categoryCharges.map (·.1)).Nodup))
    (refusal "Invalid session completion category charges")
  payload.categoryCharges.forM fun charge => positiveMoney charge.2
  host.time now

/-- The account debit a completion's claim must hold. -/
def isAccountDebit (sessionId : String) (payload : CompletionPayload) (e : LiquidityClaimEffect) :
    Bool :=
  e.resourceId == payload.accountId && e.categoryId.isNone &&
    decide ((e.amount.minorUnits : Int) = -payload.amount) &&
    e.economicObligationId == "completion:" ++ sessionId ++ ":account:" ++ payload.accountId

/-- The charge a completion's claim must hold. -/
def isCharge (sessionId : String) (charge : String × Money) (e : LiquidityClaimEffect) : Bool :=
  e.amount == charge.2 && e.categoryId == some charge.1 &&
    e.economicObligationId == "completion:" ++ sessionId ++ ":category:" ++ charge.1

def validateCompletionClaim (host : Host) (payload : CompletionPayload)
    (claim : LiquidityClaimBundle) (policy : PolicyRow) (session : SessionRow) (now : String) :
    Guarded Unit := do
  reject (claim.id == "" || claim.state != .active || claim.initiated ||
      claim.creationPolicyVersion != policy.version ||
      claim.effects.length != payload.categoryCharges.length + 1)
    (refusal "Invalid session completion claim")
  host.future claim.expiresAt now
  reject (host.before session.expiresAt claim.expiresAt)
    (refusal "Completion claim exceeds session expiry")
  let debits := claim.effects.filter (·.kind == .accountDebit)
  reject (debits.length != 1 || !debits.all (isAccountDebit session.id payload))
    (refusal "Completion account claim mismatch")
  payload.categoryCharges.forM fun charge => do
    let effects := claim.effects.filter fun e => e.kind == .category && e.resourceId == charge.1
    reject (effects.length != 1 || !effects.all (isCharge session.id charge))
      (refusal "Completion category claim mismatch")
  reject (claim.effects.any fun e => e.kind != .accountDebit && e.kind != .category)
    (refusal "Unsupported completion claim effect")

/-- The earlier of two times; the first one where they are equal. -/
def earlier (host : Host) (a b : String) : String := if host.before b a then b else a

namespace Store

variable (s : Store) (host : Host)

def completionSession (call : Call) (payload : CompletionPayload)
    (allowExpired requireOwner allowChanged : Bool) : Guarded SessionRow := do
  let session ← orStop (s.sessionAt call.budgetId payload.sessionId)
    (refusal "Session unavailable")
  reject (requireOwner && session.actorId != call.actorId) (refusal "Session authorization denied")
  reject (!allowChanged && session.version != payload.sessionVersion) (refusal "Session changed")
  if allowExpired then .ok session
  else do
    host.future session.expiresAt call.now
    .ok session

/-- The completion of a command: of the call's budget, with the given payload. -/
def commanded (call : Call) (proposalId payloadHash : String) : Guarded Completion := do
  let p ← s.loadCompletion proposalId
  reject (p.budgetId != call.budgetId) (refusal "Resource authorization denied")
  reject (p.payloadHash != payloadHash) (refusal "Payload hash mismatch")
  validateCompletionPayload host p.payload call.now
  call.checks.pass
  .ok p

def completionCommand (call : Call) (proposalId payloadHash : String) : Guarded Completion := do
  let p ← s.commanded host call proposalId payloadHash
  let _ ← s.completionSession host call p.payload false false false
  .ok p

/-- The store after a validation that threw: the claim set was read, unless reading it threw. -/
def afterClaimSet (budgetId now : String) : Store :=
  match s.claimSet host budgetId now with
  | .ok (_, s) => s
  | .error _ => s

/-- A completion that validation rejects is closed. -/
def closeStale (call : Call) (p : Completion) (message : String) : Guarded (Answer × Store) := do
  let s ← (s.afterClaimSet host call.budgetId call.now).closeCompletion p "superseded" call.now
  .ok (.stale message, s)

/-! ## Admission -/

/-- `admitSessionCompletion` after its replay check. -/
def admitNew (call : Call) (input : AdmitCompletionInput) : Guarded Store := do
  let policy ← s.currentPolicy call.budgetId
  host.future policy.expiresAt call.now
  let session ← s.completionSession host call input.payload false true false
  reject (session.version != input.expectedSessionVersion) (refusal "Session version conflict")
  reject (input.payload.sessionVersion != input.expectedSessionVersion)
    (refusal "Session version conflict")
  validateCompletionClaim host input.payload input.claim policy session call.now
  reject (s.completions.any fun p => p.budgetId == call.budgetId &&
      p.payload.sessionId == input.sessionId && p.phase != .closed)
    (refusal "Active session completion already exists")
  reject (s.claimAt call.budgetId input.claim.id).isSome (refusal "Claim ID already exists")
  input.claim.effects.forM fun effect => s.assertNoDuplicateEffect call.budgetId effect none
  let p : Completion :=
    { id := input.proposalId
      budgetId := call.budgetId
      actorId := call.actorId
      payloadHash := input.payloadHash
      policyVersion := policy.version
      expiresAt := earlier host (earlier host policy.expiresAt session.expiresAt)
        input.claim.expiresAt
      version := 1
      phase := .proposed
      outcome := none
      supersededAt := none
      payload := input.payload }
  reject (s.completionClashes p) (refusal "UNIQUE constraint failed")
  let inserted : Store := { s with completions := s.completions ++ [p] }
  let (_, s) ← inserted.validate host call.budgetId input.expectedClaimSetRevision call.now none
    input.outcome true
  let s ← s.persistClaim call.budgetId .sessionCompletion p.id input.claim
  s.record call.idempotencyKey "session_completion:admit" call.requestIdentity

def admitSessionCompletion (call : Call) (input : AdmitCompletionInput) : Guarded Store := do
  validateCompletionPayload host input.payload call.now
  call.checks.pass
  if ← s.replay call.idempotencyKey "session_completion:admit" call.requestIdentity then .ok s
  else s.admitNew host call input

/-! ## Approval -/

/-- The completion after an approval: approved when enough current approvals are there. -/
def recordApproval (call : Call) (p : Completion) (approvalId : String) : Guarded Store := do
  let s ← s.insertApproval
    { id := approvalId
      proposalId := p.id
      payloadHash := p.payloadHash
      actorId := call.actorId
      status := .active
      expiresAt := p.expiresAt
      createdAt := call.now }
  let approvals := s.currentApprovals p.id p.payloadHash p.actorId call.now call.checks false
  let phase := if call.checks.required ≤ approvals.length then .approved else .proposed
  let s ← s.updateCompletion p phase none call.now
  s.record call.idempotencyKey "session_completion:approve" call.requestIdentity

/-- `approveSessionCompletion` after its replay check. -/
def approveNew (call : Call) (input : CompletionCommand) (approvalId : String) (p : Completion) :
    Guarded (Answer × Store) := do
  reject (p.version != input.expectedVersion) (refusal "Proposal version conflict")
  host.future p.expiresAt call.now
  reject (p.phase != .proposed && p.phase != .approved) (refusal "Invalid approval phase")
  let policy ← s.currentPolicy call.budgetId
  reject (p.policyVersion != policy.version) (refusal "Policy changed")
  let _ ← s.completionClaim p
  match s.validate host call.budgetId input.expectedClaimSetRevision call.now none input.outcome
      true with
  | .error e => s.closeStale host call p e.message
  | .ok (_, s) => do
    let s ← s.recordApproval call p approvalId
    .ok (.done, s)

def approveSessionCompletion (call : Call) (input : CompletionCommand) (approvalId : String) :
    Guarded (Answer × Store) := do
  let p ← s.completionCommand host call input.proposalId input.payloadHash
  if ← s.replay call.idempotencyKey "session_completion:approve" call.requestIdentity then
    .ok (.done, s)
  else s.approveNew host call input approvalId p

/-! ## The write -/

/-- The write intent is stored, the approvals are consumed and the claim is initiated. -/
def acquireWrite (call : Call) (intentId : String) (p : Completion)
    (approvals : List ApprovalRow) : Guarded Store := do
  reject (s.writes.any fun w => w.budgetId == call.budgetId && w.proposalId == p.id)
    (refusal "UNIQUE constraint failed")
  let s := s.consumeApprovals (approvals.map (·.id))
  let s ← s.changeCompletionClaim p .initiated
  let (set, s) ← s.claimSet host call.budgetId call.now
  let written : Store := { s with writes := s.writes ++
    [{ budgetId := call.budgetId
       proposalId := p.id
       intentId
       payloadHash := p.payloadHash
       parentId := p.payload.parentId
       claimSetRevision := toString set.revision
       status := .writeIntent }] }
  let s ← written.updateCompletion p .writeIntent none call.now
  s.record call.idempotencyKey "session_completion:begin_write" call.requestIdentity

/-- `beginSessionCompletionWrite` of an approved completion. -/
def beginNew (call : Call) (input : CompletionCommand) (intentId : String) (p : Completion) :
    Guarded (Answer × Store) := do
  reject (p.version != input.expectedVersion) (refusal "Proposal version conflict")
  reject (p.phase != .approved) (refusal "Current approval required")
  host.future p.expiresAt call.now
  let policy ← s.currentPolicy call.budgetId
  reject (p.policyVersion != policy.version) (refusal "Policy changed")
  let approvals := s.currentApprovals p.id p.payloadHash p.actorId call.now call.checks false
  reject (decide (approvals.length < call.checks.required))
    (refusal "Current authorized approvals required")
  let _ ← s.completionClaim p
  match s.validate host call.budgetId input.expectedClaimSetRevision call.now none input.outcome
      true with
  | .error e => s.closeStale host call p e.message
  | .ok (_, s) => do
    let s ← s.acquireWrite host call intentId p approvals
    .ok (.write true, s)

def beginSessionCompletionWrite (call : Call) (input : CompletionCommand) (intentId : String) :
    Guarded (Answer × Store) := do
  let candidate ← s.loadCompletion input.proposalId
  reject (candidate.budgetId != call.budgetId) (refusal "Resource authorization denied")
  reject (candidate.phase == .proposed || candidate.phase == .closed)
    (refusal "Current approval required")
  reject (decide ((s.currentApprovals candidate.id candidate.payloadHash candidate.actorId call.now
    call.checks true).length < call.checks.required))
    (refusal "Current authorized approvals required")
  let p ← s.completionCommand host call input.proposalId input.payloadHash
  let replayed ← s.replay call.idempotencyKey "session_completion:begin_write" call.requestIdentity
  if replayed || p.phase == .writeIntent || p.phase == .verified || p.phase == .reviewRequired then
    .ok (.write false, s)
  else s.beginNew host call input intentId p

/-- The write row of a completion. -/
def writeOf (p : Completion) : Option WriteRow :=
  s.writes.find? fun w => w.budgetId == p.budgetId && w.proposalId == p.id

def validateSessionCompletionWrite (call : Call) (input : CompletionCommand) (intentId : String) :
    Guarded Store := do
  let p ← s.completionCommand host call input.proposalId input.payloadHash
  reject (p.phase != .writeIntent || p.version != input.expectedVersion)
    (refusal "Session completion write intent is no longer current")
  let w ← orStop (s.writeOf p) (refusal "Session completion write fence changed")
  let (set, s) ← s.claimSet host call.budgetId call.now
  reject (w.status != .writeIntent || w.intentId != intentId || w.payloadHash != p.payloadHash ||
      w.parentId != p.payload.parentId || w.claimSetRevision != input.expectedClaimSetRevision ||
      toString set.revision != w.claimSetRevision)
    (refusal "Session completion write fence changed")
  reject (decide ((s.currentApprovals p.id p.payloadHash p.actorId call.now call.checks true).length <
    call.checks.required)) (refusal "Session completion approval authority changed")
  let policy ← s.currentPolicy call.budgetId
  reject (policy.version != p.policyVersion)
    (refusal "Session completion financial policy changed")
  .ok s

/-- The status of a completion's write. -/
def setWrite (p : Completion) (status : WriteStatus) : Store :=
  { s with writes := s.writes.map fun w =>
    if w.budgetId = p.budgetId ∧ w.proposalId = p.id then { w with status } else w }

/-- The insert of a piece of evidence. -/
def insertEvidence (row : CompletionEvidenceRow) : Guarded Store := do
  reject (s.completionEvidence.any fun e => e.budgetId == row.budgetId &&
    e.evidenceId == row.evidenceId) (refusal "UNIQUE constraint failed")
  .ok { s with completionEvidence := s.completionEvidence ++ [row] }

/-- The evidence id of a verified manual parent. -/
def manualEvidence (accountId parentId : String) : String := "manual:" ++ accountId ++ ":" ++ parentId

/-- A completion whose manual parent is verified: its claim is settled and the prospective claims it
covers are consumed. -/
def verifyCompletion (p : Completion) (evidenceId now : String) : Guarded Store := do
  let s ← s.insertEvidence
    { budgetId := p.budgetId
      evidenceId
      proposalId := p.id
      kind := .manualParent
      parentId := p.payload.parentId
      accountId := p.payload.accountId }
  let s ← s.changeCompletionClaim p .settled
  let s ← s.consumeClaims p evidenceId now
  (s.setWrite p .verified).updateCompletion p .verified none now

/-- A write that was never attempted: the claim is released. -/
def releaseWrite (p : Completion) (now : String) : Guarded Store := do
  let b ← s.completionClaim p
  let s ← s.persistClaim p.budgetId .sessionCompletion p.id
    { b with state := .cancelled, initiated := false }
  ((s.supersedeApprovals p.id).setWrite p .reviewRequired).updateCompletion p .closed
    (some "reconciliation_required") now

/-- The part of `finishSessionCompletionWrite` that the result decides. -/
def finishWith (p : Completion) (result : WriteResult) (now : String) : Guarded Store :=
  if result.success && result.verified then do
    let evidenceId := manualEvidence p.payload.accountId result.parentId
    reject (result.evidenceId.any (· != evidenceId))
      (refusal "Invalid completion evidence identity")
    s.verifyCompletion p evidenceId now
  else if !result.success && result.reviewRequired &&
      (result.code == some "IMPORTED_CANDIDATE_REVIEW" ||
        result.code == some "AMBIGUOUS_IMPORTED_CANDIDATE") then
    s.releaseWrite p now
  else
    (s.setWrite p .reviewRequired).updateCompletion p .reviewRequired
      (some "reconciliation_required") now

/-- `finishSessionCompletionWrite` after its replay check. -/
def finishNew (call : Call) (input : FinishInput) (p : Completion) : Guarded Store := do
  reject (p.version != input.expectedVersion) (refusal "Proposal version conflict")
  reject (p.phase != .writeIntent) (refusal "Write intent unavailable")
  let w ← orStop (s.writeOf p) (refusal "Write intent unavailable")
  reject (w.payloadHash != p.payloadHash || w.status != .writeIntent || isBlank w.intentId ||
      w.intentId != input.intentId || w.parentId != p.payload.parentId ||
      input.expectedClaimSetRevision.any (· != w.claimSetRevision))
    (refusal "Write intent unavailable")
  let result := input.result
  reject (result.parentId != p.payload.parentId ||
      (result.success && (!result.verified || result.transactionId != some result.parentId)) ||
      (result.verified && !result.success))
    (refusal "Invalid completion parent transaction identity")
  let s ← s.finishWith p result call.now
  s.record call.idempotencyKey "session_completion:finish_write" call.requestIdentity

def finishSessionCompletionWrite (call : Call) (input : FinishInput) : Guarded Store := do
  let p ← s.commanded host call input.proposalId input.payloadHash
  let _ ← s.completionSession host call p.payload true false true
  if ← s.replay call.idempotencyKey "session_completion:finish_write" call.requestIdentity then
    .ok s
  else s.finishNew call input p

/-! ## Reconciliation -/

/-- The checks of a reconciliation's evidence; `later` says that an import follows a verified manual
parent. -/
def checkEvidence (p : Completion) (evidence : Reconciliation) (later : Bool) : Guarded Unit := do
  reject (evidence.parentId != p.payload.parentId) (refusal "Reconciliation parent mismatch")
  reject (evidence.accountId != p.payload.accountId) (refusal "Reconciliation account mismatch")
  reject (isBlank evidence.evidenceId) (refusal "Reconciliation evidence required")
  let manual := manualEvidence evidence.accountId evidence.parentId
  let lead := "import:" ++ evidence.accountId ++ ":"
  let own (kind : EvidenceKind) := s.completionEvidence.any fun e => e.budgetId == p.budgetId &&
    e.proposalId == p.id && e.kind == kind &&
      (kind == .importedLink || (e.parentId == evidence.parentId && e.accountId == evidence.accountId))
  match evidence.kind with
  | .importedLink =>
    reject (!later || !evidence.verified || evidence.transactionId != some evidence.parentId ||
        !lead.toList.isPrefixOf evidence.evidenceId.toList || evidence.evidenceId == lead ||
        !own .manualParent || own .importedLink)
      (refusal "Imported reconciliation link requires verified manual parent evidence")
  | .manualParent =>
    reject (!evidence.verified || evidence.transactionId != some evidence.parentId ||
        evidence.evidenceId != manual)
      (refusal "Verified exact manual parent evidence required")
  | .ambiguous =>
    reject evidence.verified (refusal "Ambiguous reconciliation evidence cannot be verified")

/-- The evidence row of a reconciliation. -/
def evidenceRow (p : Completion) (evidence : Reconciliation) : CompletionEvidenceRow :=
  { budgetId := p.budgetId
    evidenceId := evidence.evidenceId
    proposalId := p.id
    kind := evidence.kind
    parentId := evidence.parentId
    accountId := evidence.accountId }

/-- The part of `reconcileSessionCompletion` that the kind of evidence decides. -/
def reconcileWith (p : Completion) (evidence : Reconciliation) (now : String) : Guarded Store :=
  match evidence.kind with
  | .manualParent => s.verifyCompletion p evidence.evidenceId now
  | .importedLink => do
    let s ← s.insertEvidence (evidenceRow p evidence)
    s.updateCompletion p .verified none now
  | .ambiguous => do
    let s ← s.insertEvidence (evidenceRow p evidence)
    s.updateCompletion p .reviewRequired (some "ambiguous") now

/-- While evidence is awaited the claim is initiated. -/
def checkHold (p : Completion) (awaiting : Bool) : Guarded Unit :=
  if awaiting then do
    let b ← s.completionClaim p
    reject (b.state != .initiated || !b.initiated)
      (refusal "Initiated completion hold unavailable")
  else .ok ()

/-- `reconcileSessionCompletion` after its replay check. -/
def reconcileNew (call : Call) (input : ReconcileInput) (p : Completion) (w : WriteRow) :
    Guarded Store := do
  reject (p.version != input.expectedVersion) (refusal "Proposal version conflict")
  let later := p.phase == .verified && input.evidence.kind == .importedLink
  let awaiting := p.phase == .writeIntent || p.phase == .reviewRequired
  reject (!later && !awaiting) (refusal "Completion does not require reconciliation")
  reject ((p.phase == .writeIntent && w.status != .writeIntent) ||
      (p.phase == .reviewRequired && w.status == .verified) || (later && w.status != .verified))
    (refusal "Completion write intent unavailable")
  s.checkHold p awaiting
  s.checkEvidence p input.evidence later
  reject (s.completionEvidence.any fun e => e.budgetId == p.budgetId &&
    e.evidenceId == input.evidence.evidenceId) (refusal "Reconciliation evidence already used")
  let s ← s.reconcileWith p input.evidence call.now
  s.record call.idempotencyKey "session_completion:reconcile" call.requestIdentity

def reconcileSessionCompletion (call : Call) (input : ReconcileInput) : Guarded Store := do
  let p ← s.commanded host call input.proposalId input.payloadHash
  let _ ← s.completionSession host call p.payload true false true
  let w ← orStop (s.writeOf p) (refusal "Completion write intent unavailable")
  reject (isBlank w.intentId || w.payloadHash != p.payloadHash || w.parentId != p.payload.parentId)
    (refusal "Completion write intent unavailable")
  if ← s.replay call.idempotencyKey "session_completion:reconcile" call.requestIdentity then .ok s
  else s.reconcileNew call input p w

end Store

end BalanceFrame.Holds
