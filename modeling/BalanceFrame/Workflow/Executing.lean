import BalanceFrame.Workflow.Acquiring

/-!
# Executing an acquired action

Model of `requireConsequentialActionExecution`, `recordConsequentialActionEffect` and
`finalizeConsequentialActionExecution` with the recovery of missing effects from the ledger, and of
`createIdempotencyRecord`, `completeIdempotencyRecord`, `reconcileStrandedIdempotencyRecords` and
`appendAuditRecord` (`packages/workflow-store/src/store.ts`).

A verification or invalidation token stands for the proof that was issued with it
(`packages/workflow-store/src/internal.ts`), an unknown token for none.
-/

namespace BalanceFrame.Workflow

open Library
open Governance
open Liquidity (Json Money I64)

/-! ## The execution of an action -/

/-- `ConsequentialActionExecutionIdentity`. -/
structure ExecutionIdentity where
  proposalId : String
  payloadHash : String
  actorId : String
  idempotencyKey : String
  acquisitionAuditId : String
  deriving DecidableEq

/-- What `requireConsequentialActionExecution` returns. -/
structure Frame where
  proposal : ProposalRow
  state : ActionState
  plan : Plan

/-- The acquisition recorded in the state is the one named. -/
def ExecutionIdentity.acquired (input : ExecutionIdentity) (a : ActionAcquisition) : Bool :=
  a.actorId == input.actorId && a.payloadHash == input.payloadHash &&
    a.idempotencyKey == input.idempotencyKey && a.acquisitionAuditId == input.acquisitionAuditId

/-- The audit record of the acquisition is unchanged. -/
def ExecutionIdentity.auditMatches (input : ExecutionIdentity) (proposal : ProposalRow)
    (acquiredAt : String) (audit : AuditRow) : Bool :=
  audit.classification == "execution_started" && !audit.isError &&
    audit.actorId == input.actorId && audit.proposalId == some proposal.id &&
    audit.idempotencyKey == some input.idempotencyKey &&
    audit.operation == some proposal.operation.text &&
    audit.payloadHash == some input.payloadHash && audit.budgetId == some proposal.budgetId &&
    audit.policyVersion == some proposal.policyVersion && audit.timestamp == acquiredAt

namespace WorkflowStore

variable (s : WorkflowStore) (host : Host)

/-- The proposal and the plan of an execution. -/
def executionPlan (input : ExecutionIdentity) : Guarded (ProposalRow × Plan) := do
  reject ([input.proposalId, input.payloadHash, input.actorId, input.idempotencyKey,
      input.acquisitionAuditId].any isBlank)
    (authorizationDenied "Exact consequential-action identity is required")
  let proposal ← orStop (s.selectProposal input.proposalId)
    (payloadHashMismatch "Consequential-action proposal identity changed")
  reject (proposal.operation != .consequentialAction ||
      proposal.payloadHash != input.payloadHash || !host.proposalHashMatches proposal)
    (payloadHashMismatch "Consequential-action proposal identity changed")
  let plan ← orStop proposal.payload.plan?
    (payloadHashMismatch "Consequential-action envelope is invalid")
  reject (!preconditionsMatch plan proposal.preconditions)
    (payloadHashMismatch "Consequential-action envelope is invalid")
  reject (plan.idempotencyKey != input.idempotencyKey || plan.expiresAt != proposal.expiresAt)
    (idempotencyReplayMismatch "Consequential-action plan identity changed")
  .ok (proposal, plan)

/-- The acquisition, the claim and the audit record of an execution agree. -/
def checkExecutionRecords (input : ExecutionIdentity) (proposal : ProposalRow)
    (acquiredAt : String) : Guarded AuditRow := do
  let invalid := authorizationDenied "Exact acquired action record is invalid"
  let acquired ← orStop (s.selectProposalExecutionAcquisition proposal.id) invalid
  reject (acquired.idempotencyKey != input.idempotencyKey || acquired.actorId != input.actorId ||
      acquired.acquiredAt != acquiredAt) invalid
  let record ← orStop (s.selectIdempotency input.idempotencyKey) invalid
  reject (record.proposalId != proposal.id || record.operation != proposal.operation.text ||
      record.executedAt != acquiredAt ||
      record.serialisedEffect !=
        host.serialise proposal.operation proposal.payload proposal.preconditions ||
      record.completed || record.status != .inProgress) invalid
  orStop ((s.selectAuditById input.acquisitionAuditId).filter
    (input.auditMatches proposal acquiredAt)) invalid

/-- The approvals of an execution are still consumed by it. -/
def checkExecutionApprovals (input : ExecutionIdentity) (proposal : ProposalRow)
    (acquiredAt : String) (audit : AuditRow) : Guarded Unit := do
  let acquired ← orStop (audit.result.filter fun r => r.proposalId == proposal.id &&
      r.approvalIds.all (!isBlank ·) && decide r.approvalIds.Nodup && !r.approvalIds.isEmpty)
    (authorizationDenied "Acquired action approval set is invalid")
  acquired.approvalIds.forM fun id =>
    reject (!(s.selectApproval id).any fun a => a.proposalId == proposal.id &&
        a.payloadHash == input.payloadHash && a.status == .consumed &&
        a.consumedAt == some acquiredAt)
      (authorizationDenied "Acquired action approval changed")

/-- `requireConsequentialActionExecution`. -/
def requireExecution (input : ExecutionIdentity) (phases : List ActionPhase) :
    Guarded Frame := do
  let (proposal, plan) ← s.executionPlan host input
  let state ← actionStateOf proposal
  let inactive := authorizationDenied "Consequential-action acquisition is no longer active"
  reject (!phases.contains state.phase) inactive
  let acquisition ← orStop (state.acquisition.filter input.acquired) inactive
  let audit ← s.checkExecutionRecords host input proposal acquisition.acquiredAt
  s.checkExecutionApprovals input proposal acquisition.acquiredAt audit
  reject (!effectsMatch state plan)
    (payloadHashMismatch "Stored consequential-action effects are invalid")
  .ok ⟨proposal, state, plan⟩

end WorkflowStore

/-! ## Recording an effect -/

/-- `RecordConsequentialActionEffectInput`; a result without canonical JSON is `none`. -/
structure RecordEffectInput extends ExecutionIdentity where
  effectIndex : Int
  atomIndex : Int
  dispatchIndex : Int
  result : Option Json
  now : String

/-- `Number.isSafeInteger` and not negative. -/
def isSafeIndex (n : Int) : Bool := decide (0 ≤ n ∧ n ≤ maxSafeInteger)

/-- The same effect again: what a crashed dispatcher replays. -/
def sameEffect (prior : ActionEffect) (input : RecordEffectInput) (atom : Atom) (result : Json) :
    Bool :=
  (prior.atomIndex : Int) == input.atomIndex && (prior.effectIndex : Int) == input.effectIndex &&
    (prior.dispatchIndex : Int) == input.dispatchIndex && prior.actionKind == atom.kind &&
    prior.stableIdentity == atom.stableIdentity && prior.result.toText == result.toText

/-- The effect of an atom. -/
def effectOf (index : Nat) (atom : Atom) (result : Json) (now : String) : ActionEffect where
  effectIndex := index
  atomIndex := index
  dispatchIndex := 0
  actionKind := atom.kind
  stableIdentity := atom.stableIdentity
  result := result
  recordedAt := now

namespace WorkflowStore

variable (s : WorkflowStore) (host : Host)

/-- The new effect of a recording, `none` for a replay. -/
def nextEffect (frame : Frame) (input : RecordEffectInput) : Guarded (Option ActionEffect) := do
  reject (!isSafeIndex input.effectIndex || !isSafeIndex input.atomIndex ||
      input.dispatchIndex != 0)
    (authorizationDenied "Consequential-action effect index is invalid")
  let atom ← orStop frame.plan.atoms[input.atomIndex.toNat]?
    (authorizationDenied "Consequential-action effect index is invalid")
  let result ← orStop input.result { message := "Proposal envelope is not JSON-safe" }
  match frame.state.effects[input.effectIndex.toNat]? with
  | some prior =>
    if sameEffect prior input atom result then .ok none
    else .error (authorizationDenied "Consequential-action effect replay differs")
  | none => do
    reject (input.effectIndex != frame.state.effects.length ||
        input.effectIndex != input.atomIndex)
      (authorizationDenied "Consequential-action atom results must be recorded in order")
    .ok (some (effectOf input.atomIndex.toNat atom result input.now))

/-- The store with a new effect. -/
def storeEffect (frame : Frame) : Option ActionEffect → Guarded WorkflowStore
  | none => .ok s
  | some effect => s.updateActionState frame.proposal
      { frame.state with effects := frame.state.effects ++ [effect] }

/-- `recordConsequentialActionEffect`. -/
def recordEffect (input : RecordEffectInput) : Guarded WorkflowStore := do
  let frame ← s.requireExecution host input.toExecutionIdentity [.writeIntent]
  let effect ← nextEffect frame input
  s.storeEffect frame effect

end WorkflowStore

/-! ## Recovering effects from the ledger -/

def invalidRecovery : Refusal :=
  authorizationDenied "Native readback cannot recover the missing atom result"

def safeNumber (n : I64) : Guarded Json :=
  if -maxSafeInteger ≤ (n : Int) ∧ (n : Int) ≤ maxSafeInteger then .ok (.number n)
  else .error (authorizationDenied "Recovered adapter amount is not safely representable")

def actionTargets (assignments : List ReallocationAssignment) : List (String × String) :=
  (assignments.flatMap fun a => [(a.sourceCategoryId, a.sourceAsOfMonth),
    (a.destinationCategoryId, a.destinationAsOfMonth)]).dedup

/-- The amount the plan expects in a category month. -/
def expectedAssignment (plan : Plan) (categoryId asOfMonth : String) : Option Money :=
  match plan.expectedPostconditions.filter (fun condition =>
      match condition with
      | .assignment c m _ => c == categoryId && m == asOfMonth
      | _ => false) with
  | [.assignment _ _ amount] => some amount
  | _ => none

/-- The result of one assignment of a reallocation. -/
def recoverAssignment (plan : Plan) (ledger : ActionLedger) (a : DispatchAssignment) :
    Guarded Json := do
  let expected ← orStop (expectedAssignment plan a.categoryId a.asOfMonth) invalidRecovery
  let observed ← orStop (match ledger.assignments.filter fun entry =>
      entry.categoryId == a.categoryId && entry.asOfMonth == a.asOfMonth with
    | [entry] => some entry
    | _ => none) invalidRecovery
  reject (expected != observed.amount || expected.currency != a.postAmount.currency ||
      a.amount.currency != a.postAmount.currency) invalidRecovery
  let amount ← safeNumber a.postAmount.minorUnits
  let expectedAmount ← safeNumber a.amount.minorUnits
  .ok (.object [("categoryId", .string a.categoryId), ("month", .string a.asOfMonth),
    ("amount", amount), ("expectedAmount", expectedAmount),
    ("currency", .string a.postAmount.currency),
    ("result", .object [("success", .bool true), ("id", .string a.categoryId),
      ("verified", .bool true)])])

/-- A missing reallocation. -/
def recoverReallocation (plan : Plan) (ledger : ActionLedger) (index : Nat)
    (assignments : List ReallocationAssignment) : Guarded Json := do
  let dispatch ← orStop (plan.dispatchPreconditions.find? (·.atomIndex == index)) invalidRecovery
  let targets := dispatch.assignments.map fun a => (a.categoryId, a.asOfMonth)
  reject (!dispatch.accountBalances.isEmpty ||
      targets.length != (actionTargets assignments).length ||
      !(targets.all fun t => (actionTargets assignments).contains t) || !decide targets.Nodup)
    invalidRecovery
  let results ← dispatch.assignments.mapM (recoverAssignment plan ledger)
  .ok (.object [("status", .string "complete"), ("results", .array results)])

/-- A missing transaction. -/
def recoverTransaction (ledger : ActionLedger) (t : ManualTransaction) : Guarded Json := do
  let observed ← orStop (match ledger.transactions.filter (·.parentId == t.parentId) with
    | [entry] => some entry
    | _ => none) invalidRecovery
  reject (observed != { parentId := t.parentId, accountId := t.accountId, amount := t.amount
                        date := t.date, categoryId := t.categoryId, payeeName := t.payeeName
                        notes := t.notes, splits := t.splits, transferAccountId := none })
    invalidRecovery
  .ok (.object [("success", .bool true), ("parentId", .string t.parentId),
    ("transactionId", .string observed.parentId), ("correlationId", .string t.correlationId),
    ("verified", .bool true)])

/-- The name and opening currency the plan expects of a wallet. -/
def expectedWallet (plan : Plan) (walletId : String) : Option (String × Money) :=
  match plan.expectedPostconditions.filter (fun condition =>
      match condition with
      | .walletMapping w _ _ => w == walletId
      | _ => false) with
  | [.walletMapping _ accountName openingBalance] => some (accountName, openingBalance)
  | _ => none

/-- A missing wallet. -/
def recoverWallet (plan : Plan) (ledger : ActionLedger) (walletId accountName currency : String) :
    Guarded Json := do
  let mapping ← orStop (match ledger.wallets.filter (·.walletId == walletId) with
    | [mapping] => some mapping
    | _ => none) invalidRecovery
  let expected ← orStop (expectedWallet plan walletId) invalidRecovery
  let account ← orStop (match ledger.accounts.filter (·.accountId == mapping.accountId) with
    | [account] => some account
    | _ => none) invalidRecovery
  reject (account.name != accountName || !account.onBudget || account.closed ||
      account.currency != currency || expected.1 != accountName ||
      expected.2.currency != currency) invalidRecovery
  .ok (.object [("success", .bool true), ("walletId", .string walletId),
    ("accountId", .string mapping.accountId), ("verified", .bool true)])

/-- One side of a transfer. -/
def transferRow (ledger : ActionLedger) (transactionId accountId transferAccountId date : String)
    (minorUnits : Int) (currency marker : String) : Guarded Unit := do
  let row ← orStop (match ledger.transactions.filter (·.parentId == transactionId) with
    | [row] => some row
    | _ => none) invalidRecovery
  reject (row.accountId != accountId || row.transferAccountId != some transferAccountId ||
      row.date != date || (row.amount.minorUnits : Int) != minorUnits ||
      row.amount.currency != currency || row.notes != some marker) invalidRecovery

/-- A missing transfer. -/
def recoverTransfer (ledger : ActionLedger) (t : TransferIntent) : Guarded Json := do
  let marker := s!"balanceframe:transfer:{t.transferId}:{t.correlationId}"
  let mapping ← orStop (match ledger.transfers.filter (·.transferId == t.transferId) with
    | [mapping] => some mapping
    | _ => none) invalidRecovery
  reject (mapping.sourceTransactionId == mapping.destinationTransactionId ||
      mapping.correlationId != t.correlationId || mapping.marker != marker ||
      mapping.sourceAccountId != t.sourceAccountId ||
      mapping.destinationAccountId != t.destinationAccountId || mapping.amount != t.amount ||
      mapping.date != t.date) invalidRecovery
  transferRow ledger mapping.sourceTransactionId t.sourceAccountId t.destinationAccountId t.date
    (-(t.amount.minorUnits : Int)) t.amount.currency marker
  transferRow ledger mapping.destinationTransactionId t.destinationAccountId t.sourceAccountId
    t.date (t.amount.minorUnits : Int) t.amount.currency marker
  .ok (.object [("success", .bool true), ("transferId", .string t.transferId),
    ("sourceTransactionId", .string mapping.sourceTransactionId),
    ("destinationTransactionId", .string mapping.destinationTransactionId),
    ("verified", .bool true)])

/-- `atomResult`. -/
def recoverAtom (plan : Plan) (ledger : ActionLedger) (index : Nat) : Atom → Guarded Json
  | .reallocation assignments => recoverReallocation plan ledger index assignments
  | .manualTransaction t | .evidence _ t .. => recoverTransaction ledger t
  | .walletMaterialization walletId accountName currency _ =>
    recoverWallet plan ledger walletId accountName currency
  | .transfer t => recoverTransfer ledger t

/-- A missing effect. -/
def recoverEffect (plan : Plan) (ledger : ActionLedger) (now : String) (index : Nat)
    (atom : Atom) : Guarded ActionEffect := do
  let result ← recoverAtom plan ledger index atom
  .ok (effectOf index atom (.object [("kind", .string atom.kind.text),
    ("atomIndex", .number index), ("dispatchIndex", .number 0), ("result", result)]) now)

/-- One pass of the recovery: the effect of the next atom. -/
def recoverNext (plan : Plan) (ledger : ActionLedger) (now : String) (effects : List ActionEffect)
    (atom : Atom) : Guarded (List ActionEffect) := do
  let effect ← recoverEffect plan ledger now effects.length atom
  .ok (effects ++ [effect])

/-- `recoveredEffects`. -/
def recoverEffects (plan : Plan) (ledger : ActionLedger) (now : String)
    (effects : List ActionEffect) : Guarded (List ActionEffect) :=
  (plan.atoms.drop effects.length).foldlM (recoverNext plan ledger now) effects

/-! ## Finishing an execution -/

/-- `ConsequentialActionVerificationProof`; an observed state that is no ledger differs from every
ledger. -/
structure VerificationProof extends ExecutionIdentity where
  postconditions : Bool
  plan : Plan
  financialPolicyVersion : String
  currentLedger : ActionLedger
  observedState : Option ActionLedger
  valid : Bool
  reason : Option String
  actionHash : String
  deriving DecidableEq

/-- `FinalizeConsequentialActionExecutionInput['outcome']`. -/
inductive FinalOutcome
  | verified (proof : Option VerificationProof)
  | reviewRequired (reason : String) (observedState : Option Json)
  | invalidatedNoDispatch (proof : Option ExecutionIdentity)

structure FinalizeInput extends ExecutionIdentity where
  outcome : FinalOutcome
  now : String
  auditId : String

/-- The phases an outcome is accepted in. -/
def FinalOutcome.phases : FinalOutcome → List ActionPhase
  | .invalidatedNoDispatch _ => [.writeIntent]
  | _ => [.writeIntent, .reviewRequired]

/-- The status an outcome gives the claim; a review keeps it open. -/
def FinalOutcome.status : FinalOutcome → Option IdempotencyStatus
  | .verified _ => some .succeeded
  | .reviewRequired .. => none
  | .invalidatedNoDispatch _ => some .terminalFailed

namespace WorkflowStore

variable (s : WorkflowStore) (host : Host)

/-- The checks of a verification proof. -/
def proofAccepted (input : FinalizeInput) (frame : Frame) (proof : VerificationProof) : Bool :=
  proof.toExecutionIdentity == input.toExecutionIdentity && proof.postconditions &&
    proof.plan == frame.plan && decide (frame.state.effects.length ≤ frame.plan.atoms.length) &&
    proof.financialPolicyVersion == frame.plan.source.financialPolicyVersion &&
    proof.observedState == some proof.currentLedger &&
    (s.currentActionApprovalPolicy frame.proposal.budgetId frame.proposal.payload
      frame.proposal.preconditions
      ((truthy frame.proposal.spaceId).bind s.governance.getPolicy)).isSome &&
    proof.valid && proof.reason.isNone && proof.actionHash == frame.plan.actionHash

/-- The state of an action that is left for review. -/
def reviewState (state : ActionState) (reason : String) (observedState : Option Json) :
    ActionState :=
  { state with
    phase := .reviewRequired
    outcome := some reason
    observedState := (observedState.map ObservedState.reported) <|> state.observedState }

/-- The state of an action that was never dispatched. -/
def invalidatedState (state : ActionState) : ActionState :=
  { state with
    phase := .invalidatedNoDispatch
    outcome := some "invalidated_no_dispatch"
    result := some .notDispatched }

/-- The state of a verified action. -/
def verifiedState (state : ActionState) (proof : VerificationProof) : ActionState :=
  { state with
    phase := .verified
    outcome := some "verified"
    result := some (.verification proof.actionHash proof.financialPolicyVersion
      proof.currentLedger)
    observedState := some (.ledger proof.currentLedger) }

/-- The recovery of missing effects: the frame and the store after it. -/
def recoverFrame (input : FinalizeInput) (frame : Frame) (proof : VerificationProof) :
    Guarded (Frame × WorkflowStore) :=
  if frame.state.effects.length < frame.plan.atoms.length then do
    let effects ← recoverEffects frame.plan proof.currentLedger input.now frame.state.effects
    let s' ← s.updateActionState frame.proposal { frame.state with effects }
    let proposal ← orStop (s'.selectProposal frame.proposal.id)
      { message := "Cannot read properties of undefined" }
    let state ← actionStateOf proposal
    .ok (⟨proposal, state, frame.plan⟩, s')
  else .ok (frame, s)

/-- The frame, the store and the next state of an outcome. -/
def concludeExecution (input : FinalizeInput) (frame : Frame) :
    Guarded (Frame × ActionState × WorkflowStore) :=
  match input.outcome with
  | .reviewRequired reason observedState => do
    reject (isBlank reason) (authorizationDenied "Review outcome requires a reason")
    .ok (frame, reviewState frame.state reason observedState, s)
  | .invalidatedNoDispatch proof => do
    reject (proof != some input.toExecutionIdentity || !frame.state.effects.isEmpty)
      (authorizationDenied "Exact fenced no-dispatch proof is required")
    .ok (frame, invalidatedState frame.state, s)
  | .verified proof => do
    let proof ← orStop (proof.filter (s.proofAccepted input frame))
      (authorizationDenied "Native postcondition verification proof is invalid")
    let (frame, s') ← s.recoverFrame input frame proof
    .ok (frame, verifiedState frame.state proof, s')

/-- The row of an open claim of an action. -/
def isOpenClaim (key proposalId : String) (i : IdempotencyRow) : Bool :=
  i.idempotencyKey == key && i.proposalId == proposalId &&
    i.operation == ProposalOperation.consequentialAction.text && !i.completed &&
    i.status == .inProgress

/-- The claim gets the status of the outcome. -/
def closeClaim (key proposalId : String) (status : Option IdempotencyStatus) :
    Guarded WorkflowStore :=
  match status with
  | none => .ok s
  | some status => do
    reject (!s.idempotency.any (isOpenClaim key proposalId))
      (idempotencyInProgress "Consequential-action idempotency claim changed")
    .ok { s with idempotency := s.idempotency.map fun i =>
      if isOpenClaim key proposalId i then
        { i with completed := true, status := status, leaseExpiresAt := none } else i }

/-- The audit record of a finished execution. -/
def finalAudit (input : FinalizeInput) (proposal : ProposalRow) (state : ActionState) :
    AuditRow where
  id := input.auditId
  classification := if state.phase = .verified then "execution_completed" else "execution_failed"
  timestamp := input.now
  actorId := input.actorId
  operation := some ProposalOperation.consequentialAction.text
  proposalId := some input.proposalId
  payloadHash := some input.payloadHash
  budgetId := some proposal.budgetId
  policyVersion := some proposal.policyVersion
  idempotencyKey := some input.idempotencyKey
  observedResultState := some ⟨none, none, none⟩
  result := none
  isError := decide (state.phase ≠ .verified)

/-- `finalizeConsequentialActionExecution`. -/
def finalizeExecution (input : FinalizeInput) : Guarded WorkflowStore := do
  let frame ← s.requireExecution host input.toExecutionIdentity input.outcome.phases
  let (frame, next, recovered) ← s.concludeExecution input frame
  let updated ← recovered.updateActionState frame.proposal next
  let closed ← updated.closeClaim input.idempotencyKey frame.proposal.id input.outcome.status
  closed.insertAudit (finalAudit input frame.proposal next)

/-! ## Idempotency records -/

/-- `CreateIdempotencyInput`, with the end of its lease. -/
structure CreateIdempotencyInput where
  idempotencyKey : String
  proposalId : String
  operation : String
  serialisedEffect : String
  leaseExpiresAt : String
  now : String

def createIdempotencyRecord (input : CreateIdempotencyInput) : Guarded (Bool × WorkflowStore) :=
  match s.selectIdempotency input.idempotencyKey with
  | none => .ok (true, { s with idempotency := s.idempotency ++
      [{ idempotencyKey := input.idempotencyKey, proposalId := input.proposalId
         operation := input.operation, executedAt := input.now, completed := false
         status := .inProgress, leaseExpiresAt := some input.leaseExpiresAt
         serialisedEffect := input.serialisedEffect }] })
  | some existing => do
    reject (existing.proposalId != input.proposalId || existing.operation != input.operation)
      { message := s!"Idempotency key {input.idempotencyKey} replay mismatch: " ++
          s!"already recorded for proposal {existing.proposalId} (op: {existing.operation}), " ++
          s!"cannot reuse with proposal {input.proposalId} (op: {input.operation})" }
    reject (existing.serialisedEffect != input.serialisedEffect)
      { message := s!"Idempotency key {input.idempotencyKey} replay mismatch: " ++
          "serialised effect differs from original" }
    .ok (false, s)

/-- The status `completeIdempotencyRecord` gives; an empty message is no error. -/
def completionStatus (errorMessage : Option String) (isRetryable : Bool) : IdempotencyStatus :=
  if (truthy errorMessage).isSome then
    if isRetryable then .retryableFailed else .terminalFailed
  else .succeeded

/-- The row `completeIdempotencyStmt` updates. -/
def isCompletable (key : String) (i : IdempotencyRow) : Bool :=
  i.idempotencyKey == key && (i.status == .inProgress || i.status == .retryableFailed)

def completeIdempotencyRecord (key : String) (errorMessage : Option String)
    (isRetryable : Bool) : Guarded WorkflowStore := do
  let _ ← orStop (s.selectIdempotency key) { message := "Cannot read properties of undefined" }
  .ok { s with idempotency := s.idempotency.map fun i =>
    if isCompletable key i then
      { i with completed := true, status := completionStatus errorMessage isRetryable } else i }

/-- The row `updateStrandedIdempotencyStmt` updates: its lease is over, and it is not the claim of
an acquired action. -/
def isStranded (now : String) (i : IdempotencyRow) : Bool :=
  i.status == .inProgress && i.leaseExpiresAt.any (· ≤ now) &&
    !s.proposals.any fun p => p.id == i.proposalId && p.operation == .consequentialAction &&
      match p.state with
      | .action state => state.phase.acquired
      | .completion phase _ => phase == .writeIntent || phase == .reviewRequired
      | .other => false

/-- `reconcileStrandedIdempotencyRecords`. -/
def reconcileStranded (now : String) : WorkflowStore :=
  { s with idempotency := s.idempotency.map fun i =>
      if s.isStranded now i then { i with status := .retryableFailed } else i }

end WorkflowStore

end BalanceFrame.Workflow
