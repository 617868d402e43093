import BalanceFrame.Holds.Store

/-!
# Proposals and their claims

Model of the functions of `LiquidityWorkflow` that move a proposal and its claim together:
`updateCompletion`, `changeCompletionClaim`, `closeCompletion`, `consumeCompletionProspectiveClaims`,
`completionApprovals` for session completions, `update`, `changeClaim`, `closeProposal` and
`approvals` for transfers, and `invalidateProposals`.
-/

namespace BalanceFrame.Holds

open Library
open Liquidity (Money LiquidityClaimBundle LiquidityClaimEffect LiquidityClaimState
  ClaimEffectKind)
open Workflow (Refusal Guarded)

/-- A changed bundle: what was initiated stays so. -/
def inState (b : LiquidityClaimBundle) (state : LiquidityClaimState) : LiquidityClaimBundle :=
  { b with state, initiated := state == .initiated || b.initiated }

/-- The claim state of a proposal that is closed with an outcome. -/
def closedState (outcome : String) : LiquidityClaimState :=
  if outcome = "expired" then .expired else .cancelled

/-- `superseded_at` after an update with an outcome. -/
def supersededBy (outcome : Option String) (now : String) (before : Option String) :
    Option String :=
  if outcome = some "superseded" then some now else before

namespace Store

variable (s : Store)

/-! ## Approvals -/

/-- The active approvals of a proposal are superseded. -/
def supersedeApprovals (proposalId : String) : Store :=
  { s with approvals := s.approvals.map fun a =>
      if a.proposalId = proposalId ∧ a.status = .active then { a with status := .superseded }
      else a }

/-- Approvals are consumed by their ids. -/
def consumeApprovals (ids : List String) : Store :=
  { s with approvals := s.approvals.map fun a =>
      if ids.contains a.id ∧ a.status = .active then { a with status := .consumed } else a }

/-- The insert of an approval. -/
def insertApproval (row : ApprovalRow) : Guarded Store := do
  reject (s.approvals.any (·.id == row.id)) (refusal "UNIQUE constraint failed")
  .ok { s with approvals := s.approvals ++ [row] }

/-- The loop of `completionApprovals` and of `approvals`: the first current approval of every actor
other than the requester. -/
def addApproval (requester : String) (checks : Checks) (accepted : List ApprovalRow)
    (row : ApprovalRow) : List ApprovalRow :=
  if row.actorId == requester || (accepted.map (·.actorId)).contains row.actorId ||
      !checks.current row then accepted
  else accepted ++ [row]

/-- `completionApprovals` and `approvals`. -/
def currentApprovals (proposalId payloadHash requester now : String) (checks : Checks)
    (includeConsumed : Bool) : List ApprovalRow :=
  (sortOn (fun a => (OrderDual.toDual a.createdAt)) (sortOn (·.id) (s.approvals.filter fun a =>
      a.proposalId == proposalId && a.payloadHash == payloadHash &&
        ((a.status == .active && decide (now < a.expiresAt)) ||
          (includeConsumed && a.status == .consumed))))).foldl
    (addApproval requester checks) []

/-! ## Session completions -/

def loadCompletion (id : String) : Guarded Completion :=
  orStop (s.completions.find? (·.id == id)) (refusal "Proposal unavailable")

/-- The row of a completion gets its next value. -/
def setCompletion (id : String) (f : Completion → Completion) : Store :=
  { s with completions := s.completions.map fun p => if p.id = id then f p else p }

def updateCompletion (p : Completion) (phase : CompletionPhase) (outcome : Option String)
    (now : String) : Guarded Store := do
  reject (!s.completions.any fun q => q.id == p.id && q.version == p.version)
    (refusal "Proposal version conflict")
  .ok (s.setCompletion p.id fun q =>
    { q with
      phase := phase
      outcome := outcome
      version := q.version + 1
      supersededAt := supersededBy outcome now q.supersededAt })

def completionClaim (p : Completion) : Guarded LiquidityClaimBundle :=
  orStop ((s.ownedClaim p.budgetId .sessionCompletion p.id).map (·.bundle))
    (refusal "Completion claim missing")

def changeCompletionClaim (p : Completion) (state : LiquidityClaimState) : Guarded Store := do
  let bundle ← s.completionClaim p
  if bundle.state = state then .ok s
  else s.persistClaim p.budgetId .sessionCompletion p.id (inState bundle state)

def closeCompletion (p : Completion) (outcome now : String) : Guarded Store :=
  let s := s.supersedeApprovals p.id
  if p.phase = .writeIntent then s.updateCompletion p p.phase (some outcome) now
  else do
    let s ← s.changeCompletionClaim p (closedState outcome)
    s.updateCompletion p .closed (some outcome) now

/-- `invalidateCompletionProposals`. -/
def invalidateCompletions (budgetId now : String) (sessionId : Option String) : Guarded Store :=
  (s.completions.filter fun p => p.budgetId == budgetId &&
      (p.phase == .proposed || p.phase == .approved) &&
        sessionId.all (p.payload.sessionId == ·)).foldlM
    (fun s p => s.closeCompletion p "superseded" now) s

/-- A prospective claim equals a charge of a completion or its account debit. -/
def matchesCompletion (payload : CompletionPayload) (claim : ProspectiveClaim) : Bool :=
  match claim.scope with
  | .category id => payload.categoryCharges.any fun (categoryId, amount) =>
      categoryId == id && amount == claim.amount
  | .account id => id == payload.accountId &&
      decide ((claim.amount.minorUnits : Int) = -payload.amount) &&
        (payload.categoryCharges.head?.map (·.2.currency)) == some claim.amount.currency
  | .other => false

/-- The prospective claims of a completion's actor and session version, with their rows. -/
def sessionClaims (p : Completion) : List (MetadataRow × ClaimRow) :=
  s.metadata.filterMap fun m =>
    if m.budgetId = p.budgetId ∧ m.actorId = p.actorId ∧ m.lifecycleState = .active ∧
        m.sourceId = sessionSource p.payload.sessionId p.payload.sessionVersion then
      (s.claimAt m.budgetId m.claimId).map (m, ·)
    else none

/-- The evidence id of a consumed claim. -/
def claimEvidence (parentEvidenceId claimId : String) : String :=
  parentEvidenceId ++ ":claim:" ++ claimId

/-- One pass of the loop of `consumeCompletionProspectiveClaims`. -/
def consumeClaim (p : Completion) (parentEvidenceId now : String) (s : Store)
    (row : MetadataRow × ClaimRow) : Guarded Store :=
  let (m, c) := row
  if c.bundle.state = .active ∧ c.bundle.initiated = false ∧
      matchesCompletion p.payload m.claim = true then do
    let s ← s.persistClaim p.budgetId .prospective m.claimId { c.bundle with state := .settled }
    let evidenceId := claimEvidence parentEvidenceId m.claimId
    reject (s.metadata.any fun n => n.budgetId == p.budgetId &&
        n.consumptionEvidenceId == some evidenceId) (refusal "UNIQUE constraint failed")
    .ok { s with metadata := s.metadata.map fun n =>
      if n.budgetId = p.budgetId ∧ n.claimId = m.claimId ∧ n.lifecycleState = .active then
        { n with
          lifecycleState := .consumed
          updatedAt := now
          consumptionEvidenceId := some evidenceId }
      else n }
  else .ok s

/-- `consumeCompletionProspectiveClaims`. -/
def consumeClaims (p : Completion) (parentEvidenceId now : String) : Guarded Store :=
  (s.sessionClaims p).foldlM (consumeClaim p parentEvidenceId now) s

/-! ## Transfers -/

/-- `load`. -/
def loadTransfer (id : String) : Guarded Transfer :=
  orStop (s.transfers.find? (·.id == id)) (refusal "Proposal unavailable")

/-- `update`. -/
def updateTransfer (p : Transfer) (phase : TransferPhase) (outcome : Option String)
    (now : String) : Guarded Store := do
  reject (!s.transfers.any fun q => q.id == p.id && q.version == p.version)
    (refusal "Proposal version conflict")
  .ok { s with transfers := s.transfers.map fun q =>
    if q.id = p.id then
      { q with
        phase := phase
        outcome := outcome
        version := q.version + 1
        supersededAt := supersededBy outcome now q.supersededAt }
    else q }

/-- The claim of a transfer. -/
def transferClaim (p : Transfer) : Guarded LiquidityClaimBundle :=
  orStop ((s.ownedClaim p.budgetId .proposal p.id).map (·.bundle)) (refusal "Claim missing")

def changeClaim (p : Transfer) (state : LiquidityClaimState) : Guarded Store := do
  let bundle ← s.transferClaim p
  if bundle.state = state then .ok s
  else s.persistClaim p.budgetId .proposal p.id (inState bundle state)

/-- `closeProposal`. -/
def closeTransfer (p : Transfer) (outcome now : String) : Guarded Store :=
  let s := s.supersedeApprovals p.id
  if p.phase = .initiated then s.updateTransfer p .initiated (some outcome) now
  else do
    let s ← s.changeClaim p (closedState outcome)
    s.updateTransfer p .closed (some outcome) now

def invalidateProposals (budgetId now : String) (sessionId : Option String) : Guarded Store := do
  let s ← (s.transfers.filter fun p => p.budgetId == budgetId &&
      !(p.phase == .confirmed || p.phase == .closed) &&
        sessionId.all (p.sessionId == some ·)).foldlM
    (fun s p => s.closeTransfer p "superseded" now) s
  s.invalidateCompletions budgetId now sessionId

/-- A new proposal clashes with a stored one: the same id, or the same payload that is not
superseded. -/
def completionClashes (p : Completion) : Bool :=
  s.transfers.any (·.id == p.id) || s.completions.any fun q =>
    q.id == p.id || (q.budgetId == p.budgetId && q.payloadHash == p.payloadHash &&
      q.supersededAt.isNone)

def transferClashes (p : Transfer) : Bool :=
  s.completions.any (·.id == p.id) || s.transfers.any fun q =>
    q.id == p.id || (q.budgetId == p.budgetId && q.payloadHash == p.payloadHash &&
      q.supersededAt.isNone)

end Store

end BalanceFrame.Holds
