import BalanceFrame.Holds.Transfers

/-!
# Runs of the claim tables

`Op` lists the operations that read or write the claim tables, `apply` runs one, and a run applies a
list of them: one that stops leaves the tables as they were.
-/

namespace BalanceFrame.Holds

open Library
open Workflow (Refusal Guarded)

/-- The operations. -/
inductive Op
  | savePolicy (policy : PolicyRow) (expectedVersion : Option String)
  | factsChanged
  | getClaimSet
  | listProspectiveClaims
  | saveSpendSession (input : SaveSessionInput)
  | cancelSpendSession (id : String) (expectedVersion : Nat)
  | saveProspectiveClaim (input : SaveClaimInput)
  | transitionProspectiveClaim (input : TransitionInput)
  | admitSessionCompletion (input : AdmitCompletionInput)
  | approveSessionCompletion (input : CompletionCommand) (approvalId : String)
  | beginSessionCompletionWrite (input : CompletionCommand) (intentId : String)
  | validateSessionCompletionWrite (input : CompletionCommand) (intentId : String)
  | finishSessionCompletionWrite (input : FinishInput)
  | reconcileSessionCompletion (input : ReconcileInput)
  | admitTransferProposal (input : AdmitTransferInput)
  | approveTransfer (input : RecheckCommand) (approvalId : String)
  | revalidateTransfer (input : RecheckCommand)
  | getTransferInstructions (input : RecheckCommand)
  | reportTransferInitiated (input : RecheckCommand)
  | verifyTransferSettlement (input : TransferCommand) (settlement : Option Settlement)
  | cancelTransfer (input : TransferCommand)
  | expire (listed : Transfer → Bool)

/-- A call of an operation. -/
structure Step where
  call : Call
  op : Op

variable (host : Host)

/-- An operation that returns nothing the results speak about. -/
def quietly (x : Guarded Store) : Guarded (Answer × Store) := (Answer.done, ·) <$> x

/-- One call. -/
def apply (s : Store) (step : Step) : Guarded (Answer × Store) :=
  let call := step.call
  match step.op with
  | .savePolicy policy expectedVersion => quietly (s.savePolicy host call policy expectedVersion)
  | .factsChanged => quietly (s.factsChanged call)
  | .getClaimSet => (fun (set, s) => (.claimSet set, s)) <$> s.getClaimSet host call
  | .listProspectiveClaims => quietly (s.listProspectiveClaims host call)
  | .saveSpendSession input => quietly (s.saveSpendSession host call input)
  | .cancelSpendSession id expectedVersion =>
    quietly (s.cancelSpendSession host call id expectedVersion)
  | .saveProspectiveClaim input => quietly (s.saveProspectiveClaim host call input)
  | .transitionProspectiveClaim input => quietly (s.transitionProspectiveClaim host call input)
  | .admitSessionCompletion input => quietly (s.admitSessionCompletion host call input)
  | .approveSessionCompletion input approvalId =>
    s.approveSessionCompletion host call input approvalId
  | .beginSessionCompletionWrite input intentId =>
    s.beginSessionCompletionWrite host call input intentId
  | .validateSessionCompletionWrite input intentId =>
    quietly (s.validateSessionCompletionWrite host call input intentId)
  | .finishSessionCompletionWrite input => quietly (s.finishSessionCompletionWrite host call input)
  | .reconcileSessionCompletion input => quietly (s.reconcileSessionCompletion host call input)
  | .admitTransferProposal input => quietly (s.admitTransferProposal host call input)
  | .approveTransfer input approvalId => quietly (s.approveTransfer host call input approvalId)
  | .revalidateTransfer input => quietly (s.revalidateTransfer host call input)
  | .getTransferInstructions input => quietly (s.getTransferInstructions host call input)
  | .reportTransferInitiated input => quietly (s.reportTransferInitiated host call input)
  | .verifyTransferSettlement input settlement =>
    quietly (s.verifyTransferSettlement host call input settlement)
  | .cancelTransfer input => quietly (s.cancelTransfer host call input)
  | .expire listed => quietly (s.expire host call listed)

/-- The tables after a call; one that stops rolls back. -/
def next (s : Store) (step : Step) : Store :=
  match apply host s step with
  | .ok (_, s') => s'
  | .error _ => s

/-- The tables after a run. -/
def run (s : Store) (steps : List Step) : Store := steps.foldl (next host) s

@[simp] theorem run_nil (s : Store) : run host s [] = s := rfl

@[simp] theorem run_cons (s : Store) (step : Step) (steps : List Step) :
    run host s (step :: steps) = run host (next host s step) steps := rfl

theorem run_append (s : Store) (steps steps' : List Step) :
    run host s (steps ++ steps') = run host (run host s steps) steps' :=
  List.foldl_append

variable {s : Store}

theorem next_of_ok {s' : Store} {step : Step} {answer : Answer}
    (h : apply host s step = .ok (answer, s')) : next host s step = s' := by
  simp [next, h]

theorem next_cases {P : Store → Prop} {step : Step} (hstop : P s)
    (hok : ∀ answer s', apply host s step = .ok (answer, s') → P s') : P (next host s step) := by
  unfold next
  split
  · exact hok _ _ ‹_›
  · exact hstop

/-- A condition on every step of a run, in the state where the step is taken. -/
def Throughout (C : Store → Step → Prop) : Store → List Step → Prop
  | _, [] => True
  | s, step :: steps => C s step ∧ Throughout C (next host s step) steps

theorem throughout_append {C : Store → Step → Prop} {steps steps' : List Step} :
    Throughout host C s (steps ++ steps') ↔
      Throughout host C s steps ∧ Throughout host C (run host s steps) steps' := by
  induction steps generalizing s with
  | nil => simp [Throughout]
  | cons step steps ih => simp [Throughout, ih, and_assoc]

theorem run_inv {P : Store → Prop} {C : Store → Step → Prop} {steps : List Step} (hs : P s)
    (hC : Throughout host C s steps)
    (hstep : ∀ s step answer s', P s → C s step → apply host s step = .ok (answer, s') → P s') :
    P (run host s steps) := by
  induction steps generalizing s with
  | nil => exact hs
  | cons step steps ih =>
    refine ih (next_cases host hs fun answer s' h => ?_) hC.2
    exact hstep s step answer s' hs hC.1 h

/-! ## A household with one policy -/

def sampleTimes : List (String × Int) :=
  [("2026-01-01T00:00:00.000Z", 1767225600000), ("2026-01-02T00:00:00.000Z", 1767312000000),
    ("2026-06-01T00:00:00.000Z", 1780272000000), ("2027-01-01T00:00:00.000Z", 1798761600000)]

def sampleHost : Host := ⟨fun value => (sampleTimes.find? (·.1 == value)).map (·.2)⟩

def sampleNow : String := "2026-01-01T00:00:00.000Z"

def sampleCall (actorId key : String) : Call where
  actorId := actorId
  budgetId := "budget"
  idempotencyKey := key
  requestIdentity := key
  now := sampleNow

def samplePolicy (version : String) (mode : ClaimMode) : PolicyRow where
  budgetId := "budget"
  version := version
  policyHash := "policy"
  reservationMode := mode
  expiresAt := "2027-01-01T00:00:00.000Z"

def sampleMoney : Liquidity.Money := ⟨Liquidity.I64.ofInt 500, "USD"⟩

def sampleClaim (id category : String) : Liquidity.LiquidityClaimBundle where
  id := id
  creationSnapshotId := "snapshot"
  creationPolicyVersion := "1"
  state := .active
  expiresAt := "2026-06-01T00:00:00.000Z"
  initiated := false
  effects := [{
    kind := .category, resourceId := category, amount := sampleMoney
    economicObligationId := "plan:" ++ category, sourceEconomicObligationId := none
    categoryId := some category, includedInBalance := false, matchedTransactionIds := [] }]

def firstPolicy : Step :=
  ⟨sampleCall "ada" "policy", .savePolicy (samplePolicy "1" .block) none⟩

def saveSession (id : String) (expectedVersion : Nat) (revision : String)
    (claim : Liquidity.LiquidityClaimBundle) : Step :=
  ⟨sampleCall "ada" ("session:" ++ id ++ ":" ++ toString expectedVersion), .saveSpendSession {
    id, expectedVersion, expectedClaimSetRevision := some revision
    expiresAt := "2026-06-01T00:00:00.000Z", claim := some claim, outcome := some ⟨true, none⟩ }⟩

def sampleSet (s : Store) : Option ClaimSet :=
  match s.claimSet sampleHost "budget" sampleNow with
  | .ok (set, _) => some set
  | .error _ => none

theorem claimSet_of_sampleSet {set : ClaimSet} (h : sampleSet s = some set) :
    ∃ t, s.claimSet sampleHost "budget" sampleNow = .ok (set, t) := by
  unfold sampleSet at h
  split at h
  · next found t hfound =>
    obtain rfl := Option.some.inj h
    exact ⟨t, hfound⟩
  · cases h

end BalanceFrame.Holds
