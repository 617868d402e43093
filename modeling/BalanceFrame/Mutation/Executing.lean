import BalanceFrame.Library.Calls
import BalanceFrame.Mutation.Plans

/-!
# Executing a categorization

Model of `CategorizationMutationService.execute` (`packages/application/src/mutation.ts`) through
`ActualConnector.setTransactionCategory` (`packages/actual-adapter/src/connector.ts`), as a program
over the calls both make: of the workflow store, the ledger, the native module, the clock and the
Actual client. A call answers whatever it may, so a change that another client makes between two
calls shows in the answers. `assertExecutionCurrent` sets `dispatchStarted`, which therefore comes
back with the outcome of the write.
-/

namespace BalanceFrame.Mutation

open Library
open Library.Prog
open Liquidity (Json)

/-! ## Records -/

/-- What is thrown: an error, one of `acquireProposalExecution`, or another value. -/
inductive Thrown
  | error (message : String)
  | acquisition (reasonCode message : String)
  | value (text : String)

/-- `err instanceof Error ? err.message : other`. -/
def Thrown.messageOr (other : String) : Thrown → String
  | error message => message
  | acquisition _ message => message
  | value _ => other

/-- `err instanceof Error ? err.message : String(err)`. -/
def Thrown.text : Thrown → String
  | error message => message
  | acquisition _ message => message
  | value text => text

structure ExecuteCategorizationInput where
  requestId : String
  actorId : String
  proposalId : String
  approvalId : Option String
  auth : Json
  idempotencyKey : String
  correlationId : Option String

structure ExecuteCategorizationResult where
  success : Bool := false
  transactionId : Option String := none
  previousCategoryId : Option String := none
  newCategoryId : Option String := none
  verified : Bool := false
  planId : Option String := none
  idempotencyKey : String
  approvalId : Option String := none
  auditRecordId : Option String := none
  reasonCodes : List String := []
  message : Option String := none

/-- `serialisedEffect`, as the value it is the text of. -/
structure Effect where
  operation : String
  payload : SetCategoryPayload
  preconditions : Json

/-- `verifiedCategorizationResultSchema`. -/
structure VerifiedResult where
  transactionId : String
  previousCategoryId : Option String
  newCategoryId : String
  planId : String
  deriving DecidableEq

inductive IdempotencyStatus
  | inProgress
  | succeeded
  | retryableFailed
  | terminalFailed
  deriving DecidableEq

/-- `IdempotencyRecord`; the stored texts as the schemas read them. -/
structure IdempotencyRecord where
  status : IdempotencyStatus
  errorMessage : Option String
  serialisedEffect : Option Effect
  serialisedResult : Option (Option VerifiedResult)

inductive AuthorizationDisposition
  | authorizedWithoutApproval
  | approvalRequired
  | denied (reason : String)

/-- `AppendAuditInput`. -/
structure AuditEntry where
  classification : String
  actorId : String
  operation : String
  proposalId : String
  payloadHash : Option String
  budgetId : Option String
  policyVersion : Option String
  authorizationDisposition : Option AuthorizationDisposition := none
  idempotencyKey : String
  expectedPriorState : Option Json := none
  observedResultState : Option Json := none
  providerModel : Option String := none
  correlationId : Option String
  requestId : String
  result : String
  isError : Bool

/-- What is read of an `AuditRecord`. -/
structure AuditRecord where
  id : String
  timestamp : Option Int
  budgetId : Option String
  authorizationDisposition : Option AuthorizationDisposition
  result : String

/-- What `acquireProposalExecution` is given. -/
structure ExecutionInput where
  actorId : String
  proposalId : String
  payloadHash : String
  governancePolicyVersion : String
  idempotencyKey : String
  serialisedEffect : Effect
  approvalId : Option String
  auth : Json
  requestId : String
  correlationId : Option String

/-- `ProposalExecutionAcquisition`. -/
structure Acquisition where
  isOwner : Bool
  record : IdempotencyRecord
  approvals : List String
  auditRecord : Option AuditRecord

structure VerificationResult where
  verified : Bool
  reasonCodes : List String
  message : Option String

/-- What is read of an `APIAccountEntity`. -/
structure Account where
  id : String
  closed : Bool

/-- What is read of a `TransactionEntity`; a category that is absent is `null`. -/
structure TransactionEntity where
  id : String
  account : String
  category : Option String

/-- What is read of an `APICategoryEntity`. -/
structure APICategory where
  id : String
  tombstone : Bool

inductive SetCategoryResult
  | success (transactionId : String) (previousCategoryId : Option String) (newCategoryId : String)
      (idempotencyKey : String)
  | failure (error : String) (code : String) (transactionId : Option String)
      (previousCategoryId : Option (Option String)) (newCategoryId : Option String)
      (idempotencyKey : Option String)

/-! ## Calls -/

/-- The calls, of the store, the ledger, the native module and the client. -/
inductive Call
  | getProposal (proposalId : String)
  | getIdempotencyRecord (key : String)
  | appendAuditRecord (entry : AuditEntry)
  | queryAuditRecords (classification : String) (limit : Nat)
  | isProposalReviewProvenanceCurrent (proposalId : String)
  | acquireProposalExecution (input : ExecutionInput)
  | validateAcquiredProposalExecution (input : ExecutionInput) (acquisitionAuditId : String)
  | completeIdempotencyRecord (key : String) (errorMessage : Option String)
      (isRetryable : Option Bool) (serialisedResult : Option VerifiedResult)
  | completeVerifiedCategorizationReview (key : String)
  | now
  | synchronize
  | planSetCategory (transaction : Transaction) (category : Category)
  | verifyMutation (plan : MutationPlan) (snapshot : ProtocolSnapshot)
  | assertMutationAllowed (method : String)
  | selectedBudget
  | lockCache (budgetId : String)
  | unlockCache (budgetId : String)
  | getAccounts
  | getTransactions (accountId startDate endDate : String)
  | getCategories
  | randomUUID
  | updateTransaction (transactionId category : String)
  | sync

/-- What a call answers. -/
def Answer : Call → Type
  | .getProposal _ => Option ActionProposal
  | .getIdempotencyRecord _ => Option IdempotencyRecord
  | .appendAuditRecord _ => AuditRecord
  | .queryAuditRecords _ _ => List AuditRecord
  | .isProposalReviewProvenanceCurrent _ => Bool
  | .acquireProposalExecution _ => Acquisition
  | .validateAcquiredProposalExecution _ _ => Unit
  | .completeIdempotencyRecord _ _ _ _ => IdempotencyRecord
  | .completeVerifiedCategorizationReview _ => Bool
  | .now => Int
  | .synchronize => ProtocolSnapshot
  | .planSetCategory _ _ => MutationPlan
  | .verifyMutation _ _ => VerificationResult
  | .assertMutationAllowed _ => Unit
  | .selectedBudget => Option String
  | .lockCache _ => Unit
  | .unlockCache _ => Unit
  | .getAccounts => List Account
  | .getTransactions _ _ _ => List TransactionEntity
  | .getCategories => List APICategory
  | .randomUUID => String
  | .updateTransaction _ _ => Unit
  | .sync => Unit

abbrev Program (α : Type) := Prog Call Answer Thrown α

abbrev request (c : Call) : Program (Answer c) := ask c

/-! ## The adapter -/

/-- The transaction, in the first active account that has it. -/
def findTransaction (transactionId : String) : List Account → Program (Option TransactionEntity)
  | [] => pure none
  | account :: rest => do
    let txns ← request (.getTransactions account.id "1970-01-01" "2099-12-31")
    match txns.find? (·.id == transactionId) with
    | some tx => pure (some tx)
    | none => findTransaction transactionId rest

/-- What stands before the write: the transaction's account, its category, and a key. -/
structure Ready where
  account : String
  actualCategory : Option String
  idempotencyKey : String

/-- `setTransactionCategory` under the lock, up to `assertExecutionCurrent`. -/
def prepareCategory (budgetId transactionId proposedCategoryId : String)
    (currentCategoryId : Option String) : Program (Except SetCategoryResult Ready) := do
  let allAccounts ← request .getAccounts
  let found ← findTransaction transactionId (allAccounts.filter fun a => !a.closed)
  match found with
  | none =>
    return .error (.failure ("Transaction " ++ transactionId ++ " not found") "TRANSACTION_NOT_FOUND"
      none none none none)
  | some tx =>
    -- an expected `null` accepts whatever category the transaction has
    if currentCategoryId.isSome && tx.category != currentCategoryId then
      return .error (.failure ("Category precondition mismatch for transaction " ++ transactionId)
        "PRECONDITION_MISMATCH" (some transactionId) (some tx.category) none none)
    else
      let allCats ← request .getCategories
      match allCats.find? (·.id == proposedCategoryId) with
      | none =>
        return .error (.failure ("Proposed category " ++ proposedCategoryId ++
          " does not exist in this budget") "CATEGORY_NOT_FOUND" (some transactionId)
          (some tx.category) (some proposedCategoryId) none)
      | some proposedCat =>
        if proposedCat.tombstone then
          return .error (.failure ("Proposed category " ++ proposedCategoryId ++
            " is deleted (tombstone) and cannot be assigned") "CATEGORY_DELETED" (some transactionId)
            (some tx.category) (some proposedCategoryId) none)
        else
          let millis : Int ← request .now
          let uuid : String ← request .randomUUID
          request (.assertMutationAllowed "setTransactionCategory")
          let selected : Option String ← request .selectedBudget
          if selected != some budgetId then
            stop (.error "Selected Actual budget changed before categorization")
          else
            return .ok { account := tx.account, actualCategory := tx.category,
                         idempotencyKey := transactionId ++ "_" ++ proposedCategoryId ++ "_" ++
                           toString millis ++ "_" ++ uuid }

/-- The rest of `setTransactionCategory` under the lock: the write, and what is read back. -/
def writeCategory (transactionId proposedCategoryId : String) (ready : Ready) :
    Program SetCategoryResult := do
  request (.updateTransaction transactionId proposedCategoryId)
  match ← attempt (request .sync) with
  | .error _ =>
    return .failure ("Sync failed after updating transaction " ++ transactionId ++
      ": the mutation may not have been persisted") "SYNC_FAILED" (some transactionId)
      (some ready.actualCategory) (some proposedCategoryId) (some ready.idempotencyKey)
  | .ok _ =>
    let reReads ← request (.getTransactions ready.account "1970-01-01" "2099-12-31")
    let reReadCategory := (reReads.find? (·.id == transactionId)).bind TransactionEntity.category
    if reReadCategory == some proposedCategoryId then
      return .success transactionId ready.actualCategory proposedCategoryId ready.idempotencyKey
    else
      return .failure ("Post-write verification failed for transaction " ++ transactionId)
        "VERIFICATION_FAILED" (some transactionId) (some ready.actualCategory)
        (some proposedCategoryId) (some ready.idempotencyKey)

/-- `setTransactionCategory`: the outcome, and whether `assertExecutionCurrent` let it through. -/
def setTransactionCategory (transactionId proposedCategoryId : String)
    (currentCategoryId : Option String) (assertExecutionCurrent : Program Unit) :
    Program (Except Thrown SetCategoryResult × Bool) := do
  match ← attempt (request (.assertMutationAllowed "setTransactionCategory")) with
  | .error err => return (.error err, false)
  | .ok _ =>
    match ← request .selectedBudget with
    | none =>
      return (.ok (.failure "No budget selected. Call selectBudget() before mutating transactions."
        "BUDGET_NOT_SELECTED" none none none none), false)
    | some budgetId =>
      request (.lockCache budgetId)
      let prepared ← attempt (prepareCategory budgetId transactionId proposedCategoryId
        currentCategoryId)
      let outcome ← match prepared with
        | .error err => pure (.error err, false)
        | .ok (.error refused) => pure (.ok refused, false)
        | .ok (.ok ready) => do
          match ← attempt assertExecutionCurrent with
          | .error err => pure (.error err, false)
          | .ok _ =>
            let written ← attempt (writeCategory transactionId proposedCategoryId ready)
            pure (written, true)
      request (.unlockCache budgetId)
      return outcome

/-! ## The service -/

def staleSnapshotMs : Int := 3600000

def backupVerificationFreshnessMs : Int := 86400000

def genericMutationPolicyVersion : String := "1.0"

/-- The service: `requireBackupVerification`, and whether it has a ledger and a native module. -/
structure Service where
  requireBackupVerification : Bool
  hasDependencies : Bool

def baseResult (input : ExecuteCategorizationInput) : ExecuteCategorizationResult :=
  { idempotencyKey := input.idempotencyKey }

def fail (input : ExecuteCategorizationInput) (code message : String) :
    ExecuteCategorizationResult :=
  { baseResult input with reasonCodes := [code], message := some message }

structure DispatchState where
  acquisitionAuditId : String
  dispatchStarted : Bool

def DispatchState.json (d : DispatchState) : Json :=
  .object [("kind", .string "categorization_dispatch"),
    ("acquisitionAuditId", .string d.acquisitionAuditId), ("dispatchStarted", .bool d.dispatchStarted)]

def recordFailure (input : ExecuteCategorizationInput) (err : Thrown) : Program Unit := do
  let _ ← attempt (request (.completeIdempotencyRecord input.idempotencyKey (some err.text)
    (some false) none))

/-- `auditFailure` and, of a proposal that is known, `appendFailureAudit`. -/
def appendFailureAudit (input : ExecuteCategorizationInput) (proposal : ActionProposal)
    (disposition : Option AuthorizationDisposition) (result : String)
    (dispatchState : Option DispatchState) : Program Unit := do
  let _ ← attempt (request (.appendAuditRecord
    { classification := "execution_failed", actorId := input.actorId, operation := proposal.operation,
      proposalId := input.proposalId, payloadHash := some proposal.payloadHash,
      budgetId := some proposal.budgetId, policyVersion := some proposal.policyVersion,
      authorizationDisposition := disposition, idempotencyKey := input.idempotencyKey,
      observedResultState := dispatchState.map DispatchState.json,
      correlationId := input.correlationId, requestId := input.requestId, result := result,
      isError := true }))

/-- The records of `checkBackupVerified`, each read against the clock. -/
def anyBackupVerified (budgetId : String) : List AuditRecord → Program Bool
  | [] => pure false
  | record :: rest =>
    if (record.result != "verified" && record.result != "completed") ||
        record.budgetId != some budgetId then anyBackupVerified budgetId rest
    else do
      let now : Int ← request .now
      if record.timestamp.any fun time => backupVerificationFreshnessMs < now - time then
        anyBackupVerified budgetId rest
      else pure true

def checkBackupVerified (budgetId : String) : Program Bool := do
  let records ← request (.queryAuditRecords "backup_verification" 10)
  anyBackupVerified budgetId records

/-- The plan of a stored effect, as the result that it stands for. -/
def readReplayedPlan : Option Json → Option VerifiedResult
  | some (.object plan) => do
    let planId ← required readText plan "planId"
    let transactionId ← required readText plan "transactionId"
    let previousCategoryId ← (required readNullable plan "currentCategoryId").filter (· != some "")
    let newCategoryId ← required readText plan "proposedCategoryId"
    some { transactionId, previousCategoryId, newCategoryId, planId }
  | _ => none

def replayResult (idem : IdempotencyRecord) (input : ExecuteCategorizationInput) :
    ExecuteCategorizationResult :=
  if idem.status != .succeeded then
    fail input "idempotency_replay"
      (idem.errorMessage.getD "The previous execution did not succeed")
  else
    match idem.serialisedResult, idem.serialisedEffect with
    | none, _ => fail input "idempotency_result_unavailable"
        "The previous execution has no stored verified result"
    | some none, _ | _, none => fail input "idempotency_result_invalid"
        "Stored execution result is malformed"
    | some (some result), some effect =>
      match readPreconditions effect.preconditions with
      | none => fail input "idempotency_result_invalid" "Stored execution result is malformed"
      | some expected =>
        match readReplayedPlan expected.nativePlan with
        | none => fail input "idempotency_result_invalid" "Stored execution plan is malformed"
        | some plan =>
          if result.transactionId != effect.payload.transactionId ||
              result.newCategoryId != effect.payload.categoryId || result != plan then
            fail input "idempotency_result_mismatch"
              "Stored verified result does not match its acquired proposal"
          else
            { baseResult input with
              success := true, transactionId := some result.transactionId,
              previousCategoryId := result.previousCategoryId,
              newCategoryId := some result.newCategoryId, verified := true,
              planId := some result.planId, reasonCodes := ["idempotency_replay"] }

/-- Whether a composite is more than the one category. -/
def unsupportedComposite (payload : SetCategoryPayload) : Bool :=
  payload.composite.any fun composite =>
    (decide (0 < composite.operations.length) &&
      composite.operations != [("set_category", payload.transactionId, payload.categoryId)]) ||
      decide (0 < composite.reallocations) || decide (0 < composite.transferRecommendations) ||
        decide (0 < composite.ledgerProjections)

/-- What an execution has acquired. -/
structure Acquired where
  proposal : ActionProposal
  executionInput : ExecutionInput
  auditStarted : AuditRecord
  disposition : AuthorizationDisposition
  reviewId : Option String
  approvalId : Option String

/-- Section 12 of `execute`: `verifyMutation`, and the result of the write against the plan. -/
def verifyFresh (a : Acquired) (plan : MutationPlan) (result : VerifiedResult)
    (rereadSnapshot : ProtocolSnapshot) : Program VerificationResult := do
  match ← attempt (request (.verifyMutation plan rereadSnapshot)) with
  | .error err => return ⟨false, ["verify_failed"], some (err.messageOr "Verification threw")⟩
  | .ok checked =>
    if checked.verified && (result.transactionId != plan.transactionId ||
        result.transactionId != a.proposal.payload.transactionId ||
        result.previousCategoryId != plan.currentCategoryId ||
        result.newCategoryId != plan.proposedCategoryId ||
        result.newCategoryId != a.proposal.payload.categoryId) then
      return ⟨false, checked.reasonCodes ++ ["write_result_mismatch"],
        some "Verified mutation result does not match the approved plan"⟩
    else return checked

/-- The outcome is stored: whether it is, and the reasons. -/
def storeVerified (input : ExecuteCategorizationInput) (a : Acquired) (result : VerifiedResult)
    (checked : VerificationResult) : Program (Bool × VerificationResult) := do
  let unavailable : VerificationResult := { checked with
    reasonCodes := checked.reasonCodes ++ ["idempotency_result_unavailable"]
    message := some "Verified result could not be durably stored" }
  if !checked.verified then
    let _ ← attempt (request (.completeIdempotencyRecord input.idempotencyKey
      (some (checked.message.getD "Postcondition verification failed")) (some false) none))
    return (false, checked)
  else
    match ← attempt (request (.completeIdempotencyRecord input.idempotencyKey none none
        (some result))) with
    | .error _ => return (false, unavailable)
    | .ok record =>
      if record.status != .succeeded ||
          (a.reviewId.isNone && record.serialisedResult != some (some result)) then
        return (false, unavailable)
      else return (true, checked)

/-- A linked review is completed with what was stored. -/
def completeReview (input : ExecuteCategorizationInput) (a : Acquired)
    (stored : Bool × VerificationResult) : Program (Bool × VerificationResult) := do
  if stored.1 && a.reviewId.isSome then
    match ← attempt (request (.completeVerifiedCategorizationReview input.idempotencyKey)) with
    | .ok true => return stored
    | _ =>
      return (false, { stored.2 with
        reasonCodes := stored.2.reasonCodes ++ ["review_completion_failed"]
        message := some "Verified execution could not complete its linked review" })
  else return stored

/-- The final audit record. -/
def completionAudit (input : ExecuteCategorizationInput) (a : Acquired) (result : VerifiedResult)
    (verified completed : Bool) : AuditEntry where
  classification := if completed then "execution_completed" else "execution_failed"
  actorId := input.actorId
  operation := a.proposal.operation
  proposalId := input.proposalId
  payloadHash := some a.proposal.payloadHash
  budgetId := some a.proposal.budgetId
  policyVersion := some a.proposal.policyVersion
  authorizationDisposition := some a.disposition
  idempotencyKey := input.idempotencyKey
  expectedPriorState := a.proposal.preconditions
  observedResultState := some (.object [("kind", .string "categorization_dispatch"),
    ("acquisitionAuditId", .string a.auditStarted.id), ("dispatchStarted", .bool true),
    ("transactionId", .string result.transactionId),
    ("previousCategoryId", Json.option .string result.previousCategoryId),
    ("newCategoryId", .string result.newCategoryId), ("verified", .bool verified),
    ("workflowCompleted", .bool completed)])
  providerModel := a.proposal.providerModel
  correlationId := input.correlationId
  requestId := input.requestId
  result := if completed then "completed" else if verified then "bookkeeping_failed"
    else "verification_failed"
  isError := !completed

/-- Sections 12 to 15 of `execute`: reread, verify, and record. -/
def verifyWritten (input : ExecuteCategorizationInput) (a : Acquired) (plan : MutationPlan)
    (result : VerifiedResult) : Program ExecuteCategorizationResult := do
  match ← attempt (request .synchronize) with
  | .error err =>
    recordFailure input err
    appendFailureAudit input a.proposal (some a.disposition) "reread_failed"
      (some ⟨a.auditStarted.id, true⟩)
    return fail input "reread_failed" (err.messageOr "Post-write reread failed")
  | .ok rereadSnapshot =>
    let checked ← verifyFresh a plan result rereadSnapshot
    let stored ← storeVerified input a result checked
    let completed ← completeReview input a stored
    let audited ← attempt (request (.appendAuditRecord
      (completionAudit input a result checked.verified completed.1)))
    return { success := completed.1, transactionId := some result.transactionId,
             previousCategoryId := result.previousCategoryId,
             newCategoryId := some result.newCategoryId, verified := checked.verified,
             planId := some plan.planId, idempotencyKey := input.idempotencyKey,
             approvalId := a.approvalId,
             auditRecordId := some (match audited with
               | .ok record => AuditRecord.id record
               | .error _ => a.auditStarted.id),
             reasonCodes := completed.2.reasonCodes,
             message := if completed.1 then none
               else some (completed.2.message.getD "Postcondition verification failed") }

/-- A failure before the write is recorded and audited. -/
def refuseAcquired (input : ExecuteCategorizationInput) (a : Acquired) (dispatchStarted : Bool)
    (err : Thrown) (result code message : String) : Program ExecuteCategorizationResult := do
  recordFailure input err
  appendFailureAudit input a.proposal (some a.disposition) result
    (some ⟨a.auditStarted.id, dispatchStarted⟩)
  return fail input code message

/-- Section 11 of `execute`: the write, and what follows it. -/
def writePlanned (input : ExecuteCategorizationInput) (a : Acquired) (plan : MutationPlan) :
    Program ExecuteCategorizationResult := do
  let written ← setTransactionCategory a.proposal.payload.transactionId a.proposal.payload.categoryId
    plan.currentCategoryId
    (request (.validateAcquiredProposalExecution a.executionInput a.auditStarted.id))
  match written.1 with
  | .error err =>
    refuseAcquired input a written.2 err err.text "write_failed"
      (err.messageOr "Write operation failed")
  | .ok (.failure error _ _ _ _ _) =>
    refuseAcquired input a written.2 (.error error) error "write_failed" error
  | .ok (.success transactionId previousCategoryId newCategoryId _) =>
    verifyWritten input a plan
      { transactionId, previousCategoryId, newCategoryId, planId := plan.planId }

/-- Sections 9 and 10 of `execute`: a plan, against what was approved. -/
def planAndWrite (input : ExecuteCategorizationInput) (a : Acquired) (snapshot : ProtocolSnapshot)
    (tx : Transaction) (cat : Category) : Program ExecuteCategorizationResult := do
  match ← attempt (request (.planSetCategory tx cat)) with
  | .error err =>
    refuseAcquired input a false err (err.messageOr "plan_failed") "plan_failed"
      (err.messageOr "Mutation planning failed")
  | .ok plan =>
    match checkPreconditions a.proposal plan tx snapshot with
    | .error reason =>
      refuseAcquired input a false (.error reason) "precondition_mismatch" "precondition_mismatch"
        reason
    | .ok () => writePlanned input a plan

/-- Section 8 of `execute`: a fresh snapshot, with the transaction and the category. -/
def applyAcquired (input : ExecuteCategorizationInput) (a : Acquired) :
    Program ExecuteCategorizationResult := do
  match ← attempt (request .synchronize) with
  | .error err =>
    refuseAcquired input a false err (err.messageOr "sync_failed") "sync_failed"
      (err.messageOr "Synchronization failed")
  | .ok snapshot =>
    let now : Int ← request .now
    if snapshot.snapshotDate.any fun date => staleSnapshotMs < now - date then
      refuseAcquired input a false (.error "Snapshot data is stale") "stale_snapshot"
        "stale_snapshot" "Snapshot data is stale"
    else
      match indexCanonicalTransactions snapshot.transactions with
      | none =>
        refuseAcquired input a false (.error "Canonical transaction identity conflict")
          "transaction_identity_conflict" "transaction_identity_conflict"
          "Canonical transaction identity conflict"
      | some transactions =>
        match transactions.find? (·.id == a.proposal.payload.transactionId) with
        | none =>
          refuseAcquired input a false (.error "Transaction not found in latest snapshot")
            "transaction_not_found" "transaction_not_found"
            "Transaction not found in latest snapshot"
        | some tx =>
          match snapshot.categories.find? (·.id == a.proposal.payload.categoryId) with
          | some ⟨id, false⟩ => planAndWrite input a snapshot tx ⟨id, false⟩
          | _ =>
            refuseAcquired input a false (.error "Category not found in latest snapshot")
              "category_not_found" "category_not_found" "Category not found in latest snapshot"

/-- The last checks of what was acquired, before anything is read. -/
def beginAcquired (service : Service) (input : ExecuteCategorizationInput)
    (proposal : ActionProposal) (executionInput : ExecutionInput) (reviewId : Option String)
    (acquisition : Acquisition) : Program ExecuteCategorizationResult := do
  match acquisition.auditRecord with
  | none =>
    let _ ← request (.completeIdempotencyRecord input.idempotencyKey
      (some "Acquisition did not return its durable audit record") (some false) none)
    return fail input "execution_audit_missing" "Execution audit record is unavailable"
  | some auditStarted =>
    match auditStarted.authorizationDisposition with
    | none =>
      let _ ← request (.completeIdempotencyRecord input.idempotencyKey
        (some "Acquisition audit record omitted authorization disposition") (some false) none)
      appendFailureAudit input proposal none "execution_audit_invalid" (some ⟨auditStarted.id, false⟩)
      return fail input "execution_audit_invalid" "Execution audit record is invalid"
    | some disposition =>
      if !service.hasDependencies then
        recordFailure input (.error "Native or ledger execution dependencies unavailable")
        appendFailureAudit input proposal (some disposition) "dependencies_unavailable"
          (some ⟨auditStarted.id, false⟩)
        return fail input "dependencies_unavailable"
          "Fresh execution requires ledger and Native verification dependencies"
      else
        applyAcquired input
          { proposal, executionInput, auditStarted, disposition, reviewId,
            approvalId := input.approvalId.or acquisition.approvals.head? }

/-- A claim that another execution holds: its outcome again, when it has one. -/
def replayAcquired (input : ExecuteCategorizationInput) (hasReviewReference : Bool)
    (record : IdempotencyRecord) : Program ExecuteCategorizationResult := do
  if record.status == .inProgress then
    return fail input "idempotency_in_progress"
      "Execution with this idempotency key is already in progress"
  else
    let replay := replayResult record input
    if !replay.success || !hasReviewReference then return replay
    else
      match ← attempt (request (.completeVerifiedCategorizationReview input.idempotencyKey)) with
      | .ok true => return replay
      | _ =>
        return fail input "review_completion_failed"
          "Verified execution could not complete its linked review"

/-- Whether the review that a proposal refers to still stands. -/
def checkReview (input : ExecuteCategorizationInput) (fresh : Bool) (parsed : CategoryPreconditions) :
    Program (Option ExecuteCategorizationResult) := do
  if fresh && (parsed.reviewId.isSome || parsed.reviewProvenance.isSome) then
    match ← attempt (request (.isProposalReviewProvenanceCurrent input.proposalId)) with
    | .error _ =>
      return some (fail input "review_reference_unavailable" "Review provenance is unavailable")
    | .ok false =>
      return some (fail input "review_reference_mismatch" "Review provenance no longer matches")
    | .ok true => return none
  else return none

/-- From the parsed preconditions to the acquisition. -/
def acquireExecution (service : Service) (input : ExecuteCategorizationInput)
    (proposal : ActionProposal) (fresh : Bool) (preconditions : Json)
    (parsed : CategoryPreconditions) : Program ExecuteCategorizationResult := do
  match ← checkReview input fresh parsed with
  | some refused => return refused
  | none =>
    match proposal.governancePolicyVersion with
    | none =>
      return fail input "authorization_denied" "Governed proposal provenance unavailable"
    | some governancePolicyVersion =>
      let executionInput : ExecutionInput :=
        { actorId := input.actorId, proposalId := input.proposalId,
          payloadHash := proposal.payloadHash, governancePolicyVersion,
          idempotencyKey := input.idempotencyKey,
          serialisedEffect := ⟨proposal.operation, proposal.payload, preconditions⟩,
          approvalId := input.approvalId, auth := input.auth, requestId := input.requestId,
          correlationId := input.correlationId }
      match ← attempt (request (.acquireProposalExecution executionInput)) with
      | .error (.acquisition reasonCode message) => return fail input reasonCode message
      | .error _ =>
        return fail input "execution_acquisition_failed"
          "Execution authorization could not be acquired"
      | .ok acquisition =>
        if acquisition.isOwner then
          beginAcquired service input proposal executionInput parsed.reviewId acquisition
        else
          replayAcquired input (parsed.reviewId.isSome || parsed.reviewProvenance.isSome)
            acquisition.record

/-- A refusal of the proposal, audited. -/
def refuseProposal (input : ExecuteCategorizationInput) (proposal : ActionProposal)
    (code message : String) : Program (Option ExecuteCategorizationResult) := do
  appendFailureAudit input proposal none code none
  return some (fail input code message)

/-- The clock and the backup, against a proposal. -/
def checkCurrent (service : Service) (input : ExecuteCategorizationInput)
    (proposal : ActionProposal) : Program (Option ExecuteCategorizationResult) := do
  let now : Int ← request .now
  if proposal.expiresAt.any (· ≤ now) then
    refuseProposal input proposal "proposal_expired" "Proposal has expired"
  else if service.requireBackupVerification then
    match ← checkBackupVerified proposal.budgetId with
    | true => return none
    | false =>
      refuseProposal input proposal "backup_not_verified"
        "Backup must be verified before the first mutation. Run a backup verification command first."
  else return none

/-- What is asked of a proposal, unless a finished execution is replayed. -/
def checkFresh (service : Service) (input : ExecuteCategorizationInput) (fresh : Bool)
    (proposal : ActionProposal) : Program (Option ExecuteCategorizationResult) := do
  if !fresh then return none
  else if !service.hasDependencies then
    return some (fail input "dependencies_unavailable"
      "Fresh execution requires ledger and Native verification dependencies")
  else if proposal.policyVersion != genericMutationPolicyVersion then
    refuseProposal input proposal "policy_version_mismatch"
      "The approved mutation algorithm is no longer current"
  else if proposal.supersededAt.any (· != "") then
    refuseProposal input proposal "proposal_superseded" "Proposal has been superseded"
  else
    match ← checkCurrent service input proposal with
    | some refused => return some refused
    | none =>
      if unsupportedComposite proposal.payload then
        return some (fail input "unsupported_composite"
          "Mutation cannot apply composite proposal operations")
      else return none

/-- `execute`, of a proposal of its operation. -/
def executeProposal (service : Service) (input : ExecuteCategorizationInput)
    (proposal : ActionProposal) : Program ExecuteCategorizationResult := do
  match ← attempt (request (.getIdempotencyRecord input.idempotencyKey)) with
  | .error _ =>
    return fail input "idempotency_record_unavailable" "Execution record is unavailable"
  | .ok prior =>
    -- a finished execution is replayed without the checks of a fresh one
    let fresh := !prior.any fun record : IdempotencyRecord =>
      record.status == .succeeded || record.status == .terminalFailed
    match ← checkFresh service input fresh proposal with
    | some refused => return refused
    | none =>
      match proposal.preconditions with
      | none => return fail input "payload_hash_mismatch" "Proposal envelope is invalid"
      | some preconditions =>
        match readPreconditions preconditions with
        | none => return fail input "payload_hash_mismatch" "Proposal preconditions are invalid"
        | some parsed => acquireExecution service input proposal fresh preconditions parsed

def execute (service : Service) (input : ExecuteCategorizationInput) :
    Program ExecuteCategorizationResult := do
  match ← request (.getProposal input.proposalId) with
  | none =>
    let _ ← attempt (request (.appendAuditRecord
      { classification := "execution_failed", actorId := input.actorId, operation := "set_category",
        proposalId := input.proposalId, payloadHash := none, budgetId := none, policyVersion := none,
        idempotencyKey := input.idempotencyKey, correlationId := input.correlationId,
        requestId := input.requestId, result := "proposal_not_found", isError := true }))
    return fail input "proposal_not_found" "Proposal not found"
  | some proposal =>
    if proposal.operation != "set_category" then
      return fail input "unsupported_operation" "Unsupported proposal operation"
    else executeProposal service input proposal

end BalanceFrame.Mutation
