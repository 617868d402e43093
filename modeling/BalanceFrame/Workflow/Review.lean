import BalanceFrame.Governance.Authorize

/-!
# Review items

Model of the review part of `SqliteWorkflowStore` (`packages/workflow-store/src/store.ts`):
`REVIEW_TRANSITIONS`, `transitionReviewItemInTransaction` with its two statements
`transitionReviewItemUpdate` and `updateApprovedBy`, `transitionReviewItem`,
`undoReviewTransition`, `undoInternalReviewTransition` and `updateReviewItemCategory`; of the other
writers of an item, their statements.

An operation runs on the row that its id selects and returns the row it leaves, with the rows that
it appends to `review_actions` and `review_corrections`; a row that is not found, and an error
thrown inside the transaction, leave every table as it was.
-/

namespace BalanceFrame.Workflow

open Library
open Governance
open Liquidity (Json)

inductive ReviewStatus
  | discovered
  | suggestionGenerated
  | pendingReview
  | approved
  | applying
  | correcting
  | applied
  | applyFailed
  | rejected
  | skipped
  | superseded
  deriving DecidableEq

/-- The text of a status. -/
def ReviewStatus.text : ReviewStatus → String
  | .discovered => "discovered"
  | .suggestionGenerated => "suggestion_generated"
  | .pendingReview => "pending_review"
  | .approved => "approved"
  | .applying => "applying"
  | .correcting => "correcting"
  | .applied => "applied"
  | .applyFailed => "apply_failed"
  | .rejected => "rejected"
  | .skipped => "skipped"
  | .superseded => "superseded"

def reviewTransitions : ReviewStatus → List ReviewStatus
  | .discovered => [.suggestionGenerated, .pendingReview, .superseded]
  | .suggestionGenerated => [.pendingReview, .skipped, .superseded]
  | .pendingReview => [.approved, .correcting, .rejected, .skipped, .superseded]
  | .approved => [.correcting, .applying, .pendingReview, .superseded]
  | .applying => [.applied, .applyFailed, .superseded]
  | .correcting => [.applying, .pendingReview, .superseded, .rejected, .skipped, .approved]
  | .applied => [.superseded]
  | .applyFailed => [.correcting, .pendingReview, .superseded]
  | .rejected => [.superseded, .pendingReview]
  | .skipped => [.superseded, .pendingReview]
  | .superseded => []

def undoSources : List ReviewStatus := [.approved, .correcting, .rejected, .skipped]

/-- The columns of `review_items` that the modelled functions read or write. -/
structure ReviewItem where
  id : String
  budgetId : String
  transactionId : String
  transactionVersion : Int
  categoryId : String
  status : ReviewStatus
  /-- The JSON array of `approved_by`. -/
  approvedBy : List String
  reviewersRequired : Int
  evidence : Json
  supersededBy : Option String
  supersededReason : Option String
  version : Int
  updatedAt : String

/-- `ReviewActionAuthorization.transaction`. -/
structure ReviewTransaction where
  id : String
  accountId : String
  categoryId : Option String
  direction : String
  minorUnits : String
  currency : String
  deriving DecidableEq

structure ReviewActionAuthorization where
  spaceId : String
  policyVersion : String
  auth : OperationalAuth
  transaction : ReviewTransaction

/-- The correction evidence of a `TransitionReviewInput`. -/
structure CorrectionFacts where
  merchant : Option String := none
  importedPayee : Option String := none
  accountId : Option String := none
  direction : Option String := none
  amount : Option Int := none
  date : Option String := none
  categoryName : Option String := none
  deriving DecidableEq

structure TransitionReviewInput where
  toStatus : ReviewStatus
  actor : String
  reason : Option String := none
  metadata : Json := .object []
  expectedVersion : Int
  supersededBy : Option String := none
  authorization : Option ReviewActionAuthorization := none
  facts : CorrectionFacts := {}

/-- A row of `review_actions`. -/
structure ReviewAction where
  reviewItemId : String
  fromStatus : ReviewStatus
  toStatus : ReviewStatus
  actor : String
  reason : Option String
  metadata : Json
  createdAt : String

/-- A row of `review_corrections` that a transition writes. -/
structure CorrectionRow extends CorrectionFacts where
  reviewItemId : String
  transactionId : String
  transactionVersion : Int
  categoryId : String
  actor : String
  fromStatus : ReviewStatus
  toStatus : ReviewStatus
  createdAt : String

/-- What an operation leaves: the row, and what it appends. -/
structure ReviewOutcome where
  item : ReviewItem
  actions : List ReviewAction := []
  corrections : List CorrectionRow := []

/-! ## Authorization of a public action -/

def getSpaceForBudget (db : GovernanceDb) (budgetId : String) : Option Space :=
  db.spaces.find? fun s => s.budgetId == some budgetId && s.deletedAt.isNone

/-- The operation of an authorized transition. -/
def reviewOperation (fromStatus toStatus : ReviewStatus) : Option String :=
  match toStatus with
  | .rejected => some "reject_review"
  | .skipped => some "skip_review"
  | .pendingReview => if undoSources.contains fromStatus then some "undo_review" else none
  | _ => none

/-- A session, or the API key of a human. -/
def isHuman (auth : OperationalAuth) : Bool :=
  match auth.credential with
  | .agentKey .. => false
  | _ => true

/-- The resources an action needs: budget, transaction, account and the categories it names. -/
def reviewRefs (item : ReviewItem) (t : ReviewTransaction) : List ResourceRef :=
  [⟨.budget, item.budgetId⟩, ⟨.transaction, item.transactionId⟩, ⟨.account, t.accountId⟩] ++
    (if item.categoryId != "" then [⟨.category, item.categoryId⟩] else []) ++
    ((t.categoryId.filter fun c => c != "" && c != item.categoryId).map
      (ResourceRef.mk .category)).toList

/-- The payload of the authorization. -/
def reviewPayload (operation : String) (item : ReviewItem) (t : ReviewTransaction) : Json :=
  .object [
    ("operations", .array [.object (
      [("operation", .string operation), ("transactionId", .string item.transactionId),
        ("accountId", .string t.accountId), ("direction", .string t.direction),
        ("amount", .object [("minorUnits", .string t.minorUnits),
          ("currency", .string t.currency)])] ++
      (if item.categoryId != "" then [("categoryId", .string item.categoryId)] else []))]),
    ("currentTransaction", .object [("categoryId", t.categoryId.elim .null .string)])]

/-- The check under `input.authorization`. -/
def authorizeReview (gov : GovernanceDb) (now : String) (item : ReviewItem)
    (input : TransitionReviewInput) (context : ReviewActionAuthorization) : Except String Unit := do
  let unavailable := "Review action authorization unavailable"
  let operation ← orStop (reviewOperation item.status input.toStatus) unavailable
  reject (!isHuman context.auth || context.auth.actorId != input.actor ||
      (getSpaceForBudget gov item.budgetId).all (·.id != context.spaceId) ||
      context.transaction.id != item.transactionId) unavailable
  let result := authorize gov {
    actorId := input.actor
    auth := some context.auth
    spaceId := context.spaceId
    expectedPolicyVersion := context.policyVersion
    phase := .read
    operation
    required := (reviewRefs item context.transaction).map fun ref =>
      { toResourceRef := ref, capability := "categorization:execute", visibility := some .resource }
    payload := reviewPayload operation item context.transaction
    now }
  reject (!result.allowed) unavailable

/-! ## Transitions -/

/-- `evidence.ruleSetRef.kind` is `historical-unattributed`. -/
def isHistorical (evidence : Json) : Bool :=
  match field evidence "ruleSetRef" with
  | some (.object entries) =>
    match Json.get? entries "kind" with
    | some (.string kind) => kind == "historical-unattributed"
    | _ => false
  | _ => false

/-- The error of a statement that changed no row. -/
def versionConflict (item : ReviewItem) (expectedVersion : Int) : String :=
  s!"Version conflict on review item {item.id}: expected {expectedVersion}"

/-- The branch that records an approval below the number required (`updateApprovedBy`). -/
def recordApproval (now : String) (item : ReviewItem) (input : TransitionReviewInput)
    (approvedBy : List String) : Except String ReviewOutcome := do
  reject (item.version != input.expectedVersion) (versionConflict item input.expectedVersion)
  .ok {
    item := { item with approvedBy, updatedAt := now, version := item.version + 1 }
    actions := [{
      reviewItemId := item.id, fromStatus := item.status, toStatus := item.status
      actor := input.actor
      reason := some (input.reason.getD
        s!"Approved by {input.actor} ({approvedBy.length}/{item.reviewersRequired} reviewers)")
      metadata := input.metadata, createdAt := now }] }

/-- The full transition (`transitionReviewItemUpdate`), with the new approvers of an approval. -/
def changeStatus (now : String) (item : ReviewItem) (input : TransitionReviewInput)
    (approvedBy : List String) : Except String ReviewOutcome := do
  reject (item.version != input.expectedVersion)
    (versionConflict item input.expectedVersion ++ ", current version may have changed")
  .ok {
    item := { item with
      status := input.toStatus
      supersededReason := if input.toStatus = .superseded then input.reason else none
      supersededBy := if input.toStatus = .superseded then input.supersededBy else item.supersededBy
      approvedBy := if input.toStatus = .approved then approvedBy else item.approvedBy
      updatedAt := now, version := item.version + 1 }
    actions := [{
      reviewItemId := item.id, fromStatus := item.status, toStatus := input.toStatus
      actor := input.actor, reason := input.reason, metadata := input.metadata, createdAt := now }]
    corrections :=
      if input.toStatus = .approved ∨ input.toStatus = .correcting then
        [{ toCorrectionFacts := input.facts, reviewItemId := item.id
           transactionId := item.transactionId, transactionVersion := item.transactionVersion
           categoryId := item.categoryId, actor := input.actor, fromStatus := item.status
           toStatus := input.toStatus, createdAt := now }]
      else [] }

/-- The part of `transitionReviewItemInTransaction` after the checks on the status. -/
def requestStatus (now : String) (item : ReviewItem) (input : TransitionReviewInput) :
    Except String ReviewOutcome :=
  if input.toStatus = .approved then
    -- the same actor again: the current item
    if item.approvedBy.contains input.actor then .ok { item }
    else
      let approvedBy := item.approvedBy ++ [input.actor]
      if (approvedBy.length : Int) < item.reviewersRequired then
        recordApproval now item input approvedBy
      else changeStatus now item input approvedBy
  else changeStatus now item input []

def transitionReviewItemInTransaction (gov : GovernanceDb) (now : String) (item : ReviewItem)
    (input : TransitionReviewInput) : Except String ReviewOutcome := do
  reject (isHistorical item.evidence && input.toStatus != .superseded)
    "Historical native Review requires current source synchronization"
  input.authorization.elim (.ok ()) (authorizeReview gov now item input)
  if item.status = input.toStatus then .ok { item }
  else do
    reject (item.status = .superseded) "Cannot transition from superseded status"
    reject (!((reviewTransitions item.status).contains input.toStatus))
      s!"Cannot transition review item {item.id} from '{item.status.text}' to '{input.toStatus.text}'"
    requestStatus now item input

/-- `transitionReviewItem`: the public transitions, each under an authorization. -/
def transitionReviewItem (gov : GovernanceDb) (now : String) (item : ReviewItem)
    (input : TransitionReviewInput) : Except String ReviewOutcome := do
  reject (input.authorization.isNone || !([ReviewStatus.rejected, .skipped, .pendingReview].contains
    input.toStatus)) "Review action authorization unavailable"
  transitionReviewItemInTransaction gov now item input

def undoInternalReviewTransition (gov : GovernanceDb) (now : String) (item : ReviewItem)
    (actor : String) (reason : Option String) (expectedVersion : Option Int)
    (authorization : Option ReviewActionAuthorization) : Except String ReviewOutcome := do
  reject (!(undoSources.contains item.status))
    s!"Cannot undo from '{item.status.text}': only approved, correcting, rejected, skipped support undo"
  transitionReviewItemInTransaction gov now item {
    toStatus := .pendingReview
    actor
    reason := some (reason.getD s!"Undo from '{item.status.text}'")
    metadata := .object [("undo", .bool true), ("previousStatus", .string item.status.text)]
    expectedVersion := expectedVersion.getD item.version
    authorization }

def undoReviewTransition (gov : GovernanceDb) (now : String) (item : ReviewItem) (actor : String)
    (reason : Option String) (expectedVersion : Option Int)
    (authorization : Option ReviewActionAuthorization) : Except String ReviewOutcome := do
  reject authorization.isNone "Review action authorization unavailable"
  undoInternalReviewTransition gov now item actor reason expectedVersion authorization

def updateReviewItemCategory (now : String) (item : ReviewItem) (categoryId : String)
    (expectedVersion : Int) : Except String ReviewOutcome := do
  reject (item.version != expectedVersion) (versionConflict item expectedVersion)
  .ok { item := { item with categoryId, updatedAt := now, version := item.version + 1 } }

/-- The statement `supersedeReviewItem`, run by `createReviewItem` on the item it replaces. -/
def supersedeReviewItem (now : String) (item : ReviewItem) (supersededBy reason : String) :
    ReviewItem :=
  { item with
    status := .superseded, supersededBy := some supersededBy, supersededReason := some reason
    updatedAt := now, version := item.version + 1 }

/-- The statement `completeReviewCategorization` on an unsuperseded item, run by the completion of a
verified categorization with the status and version that it has just read. -/
def completeReviewCategorization (now : String) (item : ReviewItem) (categoryId : String) :
    ReviewItem :=
  { item with categoryId, status := .applied, updatedAt := now, version := item.version + 1 }

/-- The row of a new item, as `createReviewItem` inserts it. -/
def newReviewItem (id budgetId transactionId : String) (transactionVersion : Int)
    (categoryId : String) (reviewersRequired : Option Int) (evidence : Json) (now : String) :
    ReviewItem where
  id := id
  budgetId := budgetId
  transactionId := transactionId
  transactionVersion := transactionVersion
  categoryId := categoryId
  status := .discovered
  approvedBy := []
  reviewersRequired := reviewersRequired.getD 1
  evidence := evidence
  supersededBy := none
  supersededReason := none
  version := 1
  updatedAt := now

end BalanceFrame.Workflow
