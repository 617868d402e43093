import BalanceFrame.Holds.Completions

/-!
# Transfers

Model of `admitTransferProposal`, `approveTransfer`, `revalidateTransfer`,
`getTransferInstructions`, `reportTransferInitiated`, `verifyTransferSettlement`, `cancelTransfer`
and `expire` of `LiquidityWorkflow`, with `command`, `cas` and `linkedSession`. A plan is its id,
hashes, expiry and reservations; the trusted verifier's result is an input of the call.
-/

namespace BalanceFrame.Holds

open Library
open Liquidity (Money LiquidityClaimBundle LiquidityClaimEffect LiquidityClaimState
  ClaimEffectKind)
open Workflow (Refusal Guarded)

/-- The parts of a `TransferPlan` that the store reads. -/
structure TransferPlan where
  payloadHash : String
  policyHash : String
  policyVersion : String
  snapshotId : String
  expiresAt : String
  reservations : List LiquidityClaimEffect

structure AdmitTransferInput where
  plan : TransferPlan
  sessionId : Option String
  expectedClaimSetRevision : String
  proposalId : String
  outcome : Option Validation

structure TransferCommand where
  proposalId : String
  payloadHash : String
  expectedVersion : Nat

structure RecheckCommand extends TransferCommand where
  expectedClaimSetRevision : String
  outcome : Option Validation

/-- What the trusted settlement verifier returns. -/
structure Settlement where
  confirmed : Bool
  sourceObserved : Bool
  destinationObserved : Bool
  reconciled : Bool
  claimEffects : Option (List LiquidityClaimEffect)
  evidenceIds : List String
  reasons : List String

/-- The outcome of a recheck or settlement: the first of the given ones that is reported. -/
def outcomeOf (reported : String → Bool) (known : List String) : String :=
  (known.find? reported).getD "reconciliation_required"

/-- `reason?.includes(text)`. -/
def includes (reason : Option String) (text : String) : Bool :=
  reason.any fun r => r.toList.tails.any text.toList.isPrefixOf

/-- A settlement the store accepts. -/
def Settlement.wellFormed (r : Settlement) : Bool :=
  !((r.confirmed && (!(r.sourceObserved && r.destinationObserved && r.reconciled) ||
      r.claimEffects != some [])) ||
    (!r.confirmed && r.claimEffects == some []) ||
    ((r.sourceObserved || r.destinationObserved) && r.evidenceIds.isEmpty))

def cas (host : Host) (call : Call) (p : Transfer) (expectedVersion : Nat) (allowExpired : Bool) :
    Guarded Unit := do
  reject (p.version != expectedVersion) (refusal "Proposal version conflict")
  if allowExpired then .ok ()
  else do
    host.future p.expiresAt call.now
    reject (p.supersededAt.isSome || p.phase == .closed) (refusal "Proposal superseded or closed")

namespace Store

variable (s : Store) (host : Host)

/-! ## Admission -/

/-- The session a transfer is linked to when it is admitted. -/
def transferSession (call : Call) (plan : TransferPlan) :
    Option String → Guarded (Option SessionRow)
  | none => .ok none
  | some id => do
    let session ← orStop (s.sessionAt call.budgetId id) (refusal "Session unavailable")
    reject (session.actorId != call.actorId || host.atMost session.expiresAt call.now)
      (refusal "Session unavailable")
    reject (host.before session.expiresAt plan.expiresAt) (refusal "Plan exceeds session expiry")
    .ok (some session)

/-- `admitTransferProposal` after its replay check. -/
def admitTransferNew (call : Call) (input : AdmitTransferInput) : Guarded Store := do
  let plan := input.plan
  host.future plan.expiresAt call.now
  let session ← s.transferSession host call plan input.sessionId
  let (_, s) ← s.validate host call.budgetId input.expectedClaimSetRevision call.now
    (some (plan.policyHash, plan.policyVersion)) input.outcome true
  let p : Transfer :=
    { id := input.proposalId
      budgetId := call.budgetId
      actorId := call.actorId
      payloadHash := plan.payloadHash
      policyVersion := plan.policyVersion
      policyHash := plan.policyHash
      expiresAt := plan.expiresAt
      version := 1
      phase := .proposed
      outcome := none
      supersededAt := none
      sessionId := session.map (·.id)
      sessionVersion := session.map (·.version) }
  reject (s.transferClashes p) (refusal "UNIQUE constraint failed")
  let inserted : Store := { s with transfers := s.transfers ++ [p] }
  let s ← inserted.persistClaim call.budgetId .proposal p.id
    { id := p.id
      creationSnapshotId := plan.snapshotId
      creationPolicyVersion := plan.policyVersion
      state := .active
      expiresAt := plan.expiresAt
      initiated := false
      effects := plan.reservations }
  s.record call.idempotencyKey "transfer:admit" call.requestIdentity

def admitTransferProposal (call : Call) (input : AdmitTransferInput) : Guarded Store := do
  call.checks.pass
  if ← s.replay call.idempotencyKey "transfer:admit" call.requestIdentity then .ok s
  else s.admitTransferNew host call input

/-! ## Commands -/

def command (call : Call) (input : TransferCommand) : Guarded Transfer := do
  let p ← s.loadTransfer input.proposalId
  reject (p.budgetId != call.budgetId) (refusal "Resource authorization denied")
  call.checks.pass
  reject (p.payloadHash != input.payloadHash) (refusal "Payload hash mismatch")
  .ok p

def linkedSession (p : Transfer) (now : String) : Guarded Unit :=
  match p.sessionId with
  | none => .ok ()
  | some id => do
    let session ← orStop (s.sessionAt p.budgetId id) (refusal "Session unavailable")
    host.future session.expiresAt now
    reject (some session.version != p.sessionVersion) (refusal "Session changed")

/-- The recheck of a transfer's plan against the present claim set. -/
def recheck (call : Call) (p : Transfer) (input : RecheckCommand) (rejectInvalid : Bool) :
    Guarded (Validation × Store) := do
  s.linkedSession host p call.now
  s.validate host call.budgetId input.expectedClaimSetRevision call.now
    (some (p.policyHash, p.policyVersion)) input.outcome rejectInvalid

/-- The current approvals of a transfer. -/
def transferApprovals (call : Call) (p : Transfer) (includeConsumed : Bool) : List ApprovalRow :=
  s.currentApprovals p.id p.payloadHash p.actorId call.now call.checks includeConsumed

/-! ## Approval and recheck -/

/-- `approveTransfer` after its replay check. -/
def approveTransferNew (call : Call) (input : RecheckCommand) (approvalId : String)
    (p : Transfer) : Guarded Store := do
  cas host call p input.expectedVersion false
  reject (p.phase != .proposed && p.phase != .awaitingApproval && p.phase != .approved)
    (refusal "Invalid approval phase")
  let (_, s) ← s.recheck host call p input true
  let s ← s.insertApproval
    { id := approvalId
      proposalId := p.id
      payloadHash := p.payloadHash
      actorId := call.actorId
      status := .active
      expiresAt := p.expiresAt
      createdAt := call.now }
  let phase := if call.checks.required ≤ (s.transferApprovals call p false).length then .approved
    else .awaitingApproval
  let s ← s.updateTransfer p phase p.outcome call.now
  s.record call.idempotencyKey "transfer:approve" call.requestIdentity

def approveTransfer (call : Call) (input : RecheckCommand) (approvalId : String) :
    Guarded Store := do
  let p ← s.command call input.toTransferCommand
  if ← s.replay call.idempotencyKey "transfer:approve" call.requestIdentity then do
    host.future p.expiresAt call.now
    .ok s
  else s.approveTransferNew host call input approvalId p

/-- `revalidateTransfer` after its replay check. -/
def revalidateNew (call : Call) (input : RecheckCommand) (p : Transfer) : Guarded Store := do
  cas host call p input.expectedVersion false
  reject (p.phase == .confirmed) (refusal "Transfer already confirmed")
  let (checked, s) ← s.recheck host call p input false
  let s := if checked.valid then s else s.supersedeApprovals p.id
  let outcome := if checked.valid then none
    else some (outcomeOf (includes checked.reason) ["source_insufficient", "delayed"])
  let phase := if checked.valid || p.phase == .initiated then p.phase else .proposed
  let s ← s.updateTransfer p phase outcome call.now
  s.record call.idempotencyKey "transfer:recheck" call.requestIdentity

def revalidateTransfer (call : Call) (input : RecheckCommand) : Guarded Store := do
  let p ← s.command call input.toTransferCommand
  if ← s.replay call.idempotencyKey "transfer:recheck" call.requestIdentity then .ok s
  else s.revalidateNew host call input p

def getTransferInstructions (call : Call) (input : RecheckCommand) : Guarded Store := do
  let p ← s.command call input.toTransferCommand
  cas host call p input.expectedVersion false
  let (_, s) ← s.recheck host call p input true
  reject (p.phase != .approved ||
      decide ((s.transferApprovals call p false).length < call.checks.required))
    (refusal "Current authorized approvals required")
  .ok s

/-! ## Initiation and settlement -/

/-- `reportTransferInitiated` after its replay check. -/
def initiateNew (call : Call) (input : RecheckCommand) (p : Transfer) : Guarded Store := do
  cas host call p input.expectedVersion false
  let approvals := s.transferApprovals call p false
  reject (p.phase != .approved || decide (approvals.length < call.checks.required))
    (refusal "Current authorized approvals required")
  let (diagnostic, s) ← s.recheck host call p input false
  let outcome := if diagnostic.valid then p.outcome
    else some (outcomeOf (includes diagnostic.reason) ["delayed"])
  let s ← (s.consumeApprovals (approvals.map (·.id))).changeClaim p .initiated
  let s ← s.updateTransfer p .initiated outcome call.now
  s.record call.idempotencyKey "transfer:initiate" call.requestIdentity

def reportTransferInitiated (call : Call) (input : RecheckCommand) : Guarded Store := do
  let p ← s.command call input.toTransferCommand
  if ← s.replay call.idempotencyKey "transfer:initiate" call.requestIdentity then .ok s
  else s.initiateNew host call input p

/-- `INSERT OR IGNORE INTO transfer_evidence` for one piece of evidence. -/
def addEvidence (p : Transfer) (existing : List EvidenceRow) (s : Store) (evidenceId : String) :
    Guarded Store := do
  reject (existing.any fun r => r.evidenceId == evidenceId && r.proposalId != p.id)
    (refusal "Settlement evidence already consumed")
  .ok (if s.transferEvidence.any fun r => r.budgetId == p.budgetId && r.evidenceId == evidenceId
    then s
    else { s with transferEvidence := s.transferEvidence ++
      [{ budgetId := p.budgetId, evidenceId, proposalId := p.id }] })

/-- The claim of a settlement: settled when it is confirmed, else with the effects that remain. -/
def settleClaim (p : Transfer) (r : Settlement) : Guarded Store :=
  if r.confirmed then s.changeClaim p .settled
  else
    match r.claimEffects with
    | some effects => do
      let b ← s.transferClaim p
      s.persistClaim p.budgetId .proposal p.id { b with effects }
    | none => .ok s

/-- `verifyTransferSettlement` after its replay check. -/
def settleNew (call : Call) (input : TransferCommand) (settlement : Option Settlement)
    (p : Transfer) : Guarded Store := do
  cas host call p input.expectedVersion true
  reject (p.phase != .initiated) (refusal "Transfer not initiated")
  let existing := s.transferEvidence.filter (·.budgetId == call.budgetId)
  let r ← orStop settlement (refusal "Invalid native settlement result")
  reject (!r.wellFormed) (refusal "Invalid native settlement result")
  let s ← r.evidenceIds.dedup.foldlM (addEvidence p existing) s
  let outcome := if r.confirmed then none
    else some (outcomeOf (r.reasons.contains ·) ["amount_mismatch", "duplicate_candidate", "delayed"])
  let s ← s.updateTransfer p (if r.confirmed then .confirmed else .initiated) outcome call.now
  let s ← s.settleClaim p r
  s.record call.idempotencyKey "transfer:settlement" call.requestIdentity

def verifyTransferSettlement (call : Call) (input : TransferCommand)
    (settlement : Option Settlement) : Guarded Store := do
  let p ← s.command call input
  if ← s.replay call.idempotencyKey "transfer:settlement" call.requestIdentity then .ok s
  else s.settleNew host call input settlement p

/-! ## Closing -/

/-- `cancelTransfer` after its replay check. -/
def cancelNew (call : Call) (input : TransferCommand) (p : Transfer) : Guarded Store := do
  cas host call p input.expectedVersion true
  reject (p.phase == .confirmed) (refusal "Transfer already confirmed")
  let s ← s.closeTransfer p "cancelled" call.now
  s.record call.idempotencyKey "transfer:cancel" call.requestIdentity

def cancelTransfer (call : Call) (input : TransferCommand) : Guarded Store := do
  let p ← s.command call input
  if ← s.replay call.idempotencyKey "transfer:cancel" call.requestIdentity then .ok s
  else s.cancelNew host call input p

/-- `expire`: the transfers the caller may see that have expired are closed, and the proposals of
expired sessions with them. -/
def expire (call : Call) (listed : Transfer → Bool) : Guarded Store := do
  call.checks.pass
  host.time call.now
  let s ← (s.transfers.filter fun p => p.budgetId == call.budgetId && listed p &&
      host.atMost p.expiresAt call.now && !(p.phase == .confirmed || p.phase == .closed) &&
        p.outcome != some "expired").foldlM
    (fun s p => s.closeTransfer p "expired" call.now) s
  (s.sessions.filter fun t => t.budgetId == call.budgetId && host.atMost t.expiresAt call.now).foldlM
    (fun s t => s.invalidateProposals call.budgetId call.now (some t.id)) s

end Store

end BalanceFrame.Holds
