import BalanceFrame.Mutation.Executing

/-!
# The category that a categorization overwrites

What is known of a transaction's category where `execute` issues the update, whatever was done
elsewhere in the meantime.
-/

namespace BalanceFrame.Mutation

open Library Option
open Library.Prog
open Liquidity (Json)

variable {proposal : ActionProposal} {c : Call} {current : Option String} {a : Acquired}
  {service : Service}

/-- The calls so far, and their answers. -/
abbrev History := List (Event Call Answer Thrown)

/-! ## What is known -/

/-- The `currentCategoryId` of the approved plan. -/
def approvedCurrent (proposal : ActionProposal) : Option (Option String) :=
  ((proposal.preconditions.bind readPreconditions).bind CategoryPreconditions.nativePlan).bind
    approvedCategory

/-- The category of a transaction in a snapshot. -/
def freshCategory (snapshot : ProtocolSnapshot) (transactionId : String) : Option (Option String) :=
  ((indexCanonicalTransactions snapshot.transactions).bind
    (·.find? (·.id == transactionId))).map Transaction.categoryId

/-- One more call: a read of the transaction counts, until the lock changes hands. -/
def readStep (transactionId : String) (seen : Option (Option String)) :
    Event Call Answer Thrown → Option (Option String)
  | ⟨.lockCache _, _⟩ => none
  | ⟨.unlockCache _, _⟩ => none
  | ⟨.getTransactions _ _ _, .ok txns⟩ =>
    match List.find? (fun tx : TransactionEntity => tx.id == transactionId) txns with
    | some tx => some tx.category
    | none => seen
  | _ => seen

/-- The category that was last read under the lock. -/
def categoryUnderLock (transactionId : String) (h : History) : Option (Option String) :=
  h.foldl (readStep transactionId) none

@[simp] theorem categoryUnderLock_snoc (transactionId : String) (h : History)
    (e : Event Call Answer Thrown) : categoryUnderLock transactionId (h ++ [e]) =
      readStep transactionId (categoryUnderLock transactionId h) e := by
  rw [categoryUnderLock, List.foldl_append]
  rfl

/-- What is known where a transaction is updated. -/
def Known (input : ExecuteCategorizationInput) (h : History) (transactionId category : String) :
    Prop :=
  ∃ proposal snapshot current actual,
    ⟨.getProposal input.proposalId, .ok (some proposal)⟩ ∈ h ∧
    proposal.payload.transactionId = transactionId ∧ proposal.payload.categoryId = category ∧
    approvedCurrent proposal = some current ∧
    ⟨.synchronize, .ok snapshot⟩ ∈ h ∧ freshCategory snapshot transactionId = some current ∧
    categoryUnderLock transactionId h = some actual ∧ (current = none ∨ actual = current)

/-- Every update is known. -/
def Guarded (input : ExecuteCategorizationInput) (h : History) (c : Call) : Prop :=
  ∀ transactionId category, c = .updateTransaction transactionId category →
    Known input h transactionId category

abbrev Safe {α : Type} (input : ExecuteCategorizationInput) (h : History) (p : Program α) : Prop :=
  Prog.Safe (Guarded input) h p

section Rules

variable {α β : Type} {input : ExecuteCategorizationInput} {h : History}

theorem guarded_of_ne (hc : ∀ t k, c ≠ .updateTransaction t k) : Guarded input h c :=
  fun t k heq => absurd heq (hc t k)

theorem safe_attempt_request {f : Except Thrown (Answer c) → Program β}
    (hc : ∀ t k, c ≠ .updateTransaction t k)
    (hf : ∀ r, Safe input (h ++ [⟨c, r⟩]) (f r)) : Safe input h (attempt (request c) >>= f) :=
  safe_attempt_bind (guarded_of_ne hc) hf

theorem safe_request_bind {f : Answer c → Program β} (hc : ∀ t k, c ≠ .updateTransaction t k)
    (hf : ∀ a, Safe input (h ++ [⟨c, .ok a⟩]) (f a)) : Safe input h (request c >>= f) :=
  safe_ask_bind (guarded_of_ne hc) hf

theorem ensures_request_bind {Q : History → Except Thrown β → Prop}
    {f : Answer c → Program β} (hc : ∀ t k, c ≠ .updateTransaction t k)
    (herror : ∀ e, Q (h ++ [⟨c, .error e⟩]) (.error e))
    (hok : ∀ a, Ensures (Guarded input) Q (h ++ [⟨c, .ok a⟩]) (f a)) :
    Ensures (Guarded input) Q h (request c >>= f) := by
  refine ensures_bind.mpr (ensures_ask.mpr ⟨guarded_of_ne hc, fun r => ?_⟩)
  cases r with
  | ok a => exact hok a
  | error e => exact herror e

theorem safe_recordFailure (err : Thrown) : Safe input h (recordFailure input err) :=
  safe_attempt_request nofun fun _ => trivial

theorem safe_appendFailureAudit (proposal : ActionProposal)
    (disposition : Option AuthorizationDisposition) (result : String)
    (dispatchState : Option DispatchState) :
    Safe input h (appendFailureAudit input proposal disposition result dispatchState) :=
  safe_attempt_request nofun fun _ => trivial

end Rules

/-! ## The adapter -/

section Adapter

variable {input : ExecuteCategorizationInput}

theorem findTransaction_seen (transactionId : String) : ∀ (accounts : List Account) (h : History),
    Ensures (Guarded input) (fun h' r => ∀ tx, r = .ok (some tx) →
      categoryUnderLock transactionId h' = some tx.category) h (findTransaction transactionId accounts)
  | [], h => by
    intro tx htx
    cases htx
  | account :: rest, h => by
    refine ensures_bind.mpr (ensures_ask.mpr ⟨guarded_of_ne nofun, fun r => ?_⟩)
    cases r with
    | error e =>
      intro tx htx
      cases htx
    | ok txns =>
      have hread := categoryUnderLock_snoc transactionId h
        ⟨.getTransactions account.id "1970-01-01" "2099-12-31", .ok txns⟩
      dsimp only
      split
      · rename_i tx hfound
        intro tx' htx'
        cases htx'
        rw [hread, readStep, hfound]
      · exact findTransaction_seen transactionId rest _

/-- What stands before the write: the category that was read, as expected or with nothing expected. -/
def ReadyAt (transactionId : String) (current : Option String) (h : History) : Prop :=
  ∃ actual, categoryUnderLock transactionId h = some actual ∧ (current = none ∨ actual = current)

theorem prepareCategory_ready (budgetId transactionId category : String) (current : Option String)
    (h : History) : Ensures (Guarded input) (fun h' r => ∀ ready, r = .ok (.ok ready) →
      ReadyAt transactionId current h') h
        (prepareCategory budgetId transactionId category current) := by
  have hstop : ∀ {h' : History} {x : Except Thrown (Except SetCategoryResult Ready)},
      (∀ ready, x ≠ .ok (.ok ready)) → ∀ ready, x = .ok (.ok ready) →
        ReadyAt transactionId current h' := fun hx ready heq => absurd heq (hx ready)
  refine ensures_request_bind nofun (fun _ => hstop nofun) fun allAccounts => ?_
  refine (findTransaction_seen transactionId _ _).bind (fun _ _ _ _ => hstop nofun)
    fun h₁ found _ hfound => ?_
  cases found with
  | none => exact hstop nofun
  | some tx =>
    have hseen := hfound tx rfl
    dsimp only
    split
    · exact hstop nofun
    · rename_i hcurrent
      have hready : current = none ∨ tx.category = current := by
        cases current with
        | none => exact .inl rfl
        | some c => exact .inr (by simpa using hcurrent)
      refine ensures_request_bind nofun (fun _ => hstop nofun) fun allCats => ?_
      split
      · exact hstop nofun
      · split
        · exact hstop nofun
        · refine ensures_request_bind nofun (fun _ => hstop nofun) fun millis => ?_
          refine ensures_request_bind nofun (fun _ => hstop nofun) fun uuid => ?_
          refine ensures_request_bind nofun (fun _ => hstop nofun) fun _ => ?_
          refine ensures_request_bind nofun (fun _ => hstop nofun) fun selected => ?_
          split
          · exact hstop nofun
          · intro ready _
            refine ⟨tx.category, ?_, hready⟩
            simp only [categoryUnderLock_snoc, readStep, hseen]

/-- What is known before the adapter is called. -/
structure Planned (input : ExecuteCategorizationInput) (proposal : ActionProposal)
    (current : Option String) (h : History) : Prop where
  read : ⟨.getProposal input.proposalId, .ok (some proposal)⟩ ∈ h
  approved : approvedCurrent proposal = some current
  fresh : ∃ snapshot, ⟨.synchronize, .ok snapshot⟩ ∈ h ∧
    freshCategory snapshot proposal.payload.transactionId = some current

theorem Planned.mono {h h' : History}
    (hp : Planned input proposal current h) (hle : h <+: h') : Planned input proposal current h' := by
  obtain ⟨snapshot, hsnapshot, hcategory⟩ := hp.fresh
  exact ⟨hle.subset hp.read, hp.approved, snapshot, hle.subset hsnapshot, hcategory⟩

theorem Planned.known {h : History} (hp : Planned input proposal current h)
    (hready : ReadyAt proposal.payload.transactionId current h) :
    Known input h proposal.payload.transactionId proposal.payload.categoryId := by
  obtain ⟨snapshot, hsnapshot, hcategory⟩ := hp.fresh
  obtain ⟨actual, hactual, hcurrent⟩ := hready
  exact ⟨proposal, snapshot, current, actual, hp.read, rfl, rfl, hp.approved, hsnapshot, hcategory,
    hactual, hcurrent⟩

theorem safe_writeCategory {h : History} {transactionId category : String} {ready : Ready}
    (hknown : Known input h transactionId category) :
    Safe input h (writeCategory transactionId category ready) := by
  refine ensures_bind.mpr (ensures_ask.mpr ⟨fun t k heq => ?_, fun r => ?_⟩)
  · cases heq
    exact hknown
  · cases r with
    | error e => trivial
    | ok _ =>
      refine safe_attempt_request nofun fun r => ?_
      cases r with
      | error e => trivial
      | ok _ =>
        refine safe_request_bind nofun fun reReads => ?_
        dsimp only
        split <;> trivial

theorem safe_setTransactionCategory
    {h : History} (hplanned : Planned input proposal current h) (executionInput : ExecutionInput)
    (auditId : String) : Safe input h (setTransactionCategory proposal.payload.transactionId
      proposal.payload.categoryId current
      (request (.validateAcquiredProposalExecution executionInput auditId))) := by
  refine safe_attempt_request nofun fun r => ?_
  cases r with
  | error e => trivial
  | ok _ =>
    refine safe_request_bind nofun fun selected => ?_
    cases selected with
    | none => trivial
    | some budgetId =>
      refine safe_request_bind nofun fun _ => ?_
      refine ensures_bind.mpr (ensures_attempt.mpr ?_)
      refine (prepareCategory_ready budgetId _ _ current _).mono fun h₁ prepared hle hprepared => ?_
      have hplanned₁ := hplanned.mono (((List.prefix_append _ _).trans (List.prefix_append _ _)).trans
        ((List.prefix_append _ _).trans hle))
      dsimp only
      match prepared, hprepared with
      | .error _, _ => exact safe_request_bind nofun fun _ => trivial
      | .ok (.error _), _ => exact safe_request_bind nofun fun _ => trivial
      | .ok (.ok ready), hprepared =>
        have hready := hprepared ready rfl
        refine safe_attempt_request nofun fun r => ?_
        cases r with
        | error e => exact safe_request_bind nofun fun _ => trivial
        | ok _ =>
          refine safe_bind (safe_attempt (safe_writeCategory ?_)) fun h₂ written _ => ?_
          · refine (hplanned₁.mono (List.prefix_append _ _)).known ?_
            obtain ⟨actual, hactual, hcurrent⟩ := hready
            exact ⟨actual, by rw [categoryUnderLock_snoc, hactual]; rfl, hcurrent⟩
          · exact safe_request_bind nofun fun _ => trivial

end Adapter

/-! ## The service -/

section Service

variable {input : ExecuteCategorizationInput} {h : History}

theorem safe_refuseAcquired (a : Acquired) (dispatchStarted : Bool) (err : Thrown)
    (result code message : String) :
    Safe input h (refuseAcquired input a dispatchStarted err result code message) :=
  safe_bind (safe_recordFailure err) fun _ _ _ =>
    safe_bind (safe_appendFailureAudit _ _ _ _) fun _ _ _ => trivial

theorem safe_verifyFresh (a : Acquired) (plan : MutationPlan) (result : VerifiedResult)
    (snapshot : ProtocolSnapshot) : Safe input h (verifyFresh a plan result snapshot) := by
  refine safe_attempt_request nofun fun r => ?_
  cases r with
  | error err => trivial
  | ok checked => exact safe_ite trivial trivial

theorem safe_storeVerified (a : Acquired) (result : VerifiedResult) (checked : VerificationResult) :
    Safe input h (storeVerified input a result checked) := by
  unfold storeVerified
  dsimp only
  split
  · exact safe_attempt_request nofun fun _ => trivial
  · refine safe_attempt_request nofun fun r => ?_
    cases r with
    | error err => trivial
    | ok record => exact safe_ite trivial trivial

theorem safe_completeReview (a : Acquired) (stored : Bool × VerificationResult) :
    Safe input h (completeReview input a stored) := by
  unfold completeReview
  split
  · refine safe_attempt_request nofun fun r => ?_
    split <;> trivial
  · trivial

theorem safe_verifyWritten (a : Acquired) (plan : MutationPlan) (result : VerifiedResult) :
    Safe input h (verifyWritten input a plan result) := by
  refine safe_attempt_request nofun fun r => ?_
  cases r with
  | error err =>
    refine safe_bind (safe_recordFailure err) fun _ _ _ => ?_
    exact safe_bind (safe_appendFailureAudit _ _ _ _) fun _ _ _ => trivial
  | ok rereadSnapshot =>
    refine safe_bind (safe_verifyFresh a plan result rereadSnapshot) fun _ checked _ => ?_
    refine safe_bind (safe_storeVerified a result checked) fun _ stored _ => ?_
    refine safe_bind (safe_completeReview a stored) fun _ completed _ => ?_
    exact safe_attempt_request nofun fun _ => trivial

theorem safe_writePlanned {plan : MutationPlan}
    (hplanned : Planned input a.proposal plan.currentCategoryId h) :
    Safe input h (writePlanned input a plan) := by
  refine safe_bind (safe_setTransactionCategory hplanned _ _) fun _ written _ => ?_
  obtain ⟨written, started⟩ := written
  dsimp only
  split
  · exact safe_refuseAcquired ..
  · exact safe_refuseAcquired ..
  · exact safe_verifyWritten ..

theorem safe_planAndWrite {snapshot : ProtocolSnapshot} {tx : Transaction}
    {transactions : List Transaction} (cat : Category)
    (hread : ⟨.getProposal input.proposalId, .ok (some a.proposal)⟩ ∈ h)
    (hsnapshot : ⟨.synchronize, .ok snapshot⟩ ∈ h)
    (hindex : indexCanonicalTransactions snapshot.transactions = some transactions)
    (htx : transactions.find? (·.id == a.proposal.payload.transactionId) = some tx) :
    Safe input h (planAndWrite input a snapshot tx cat) := by
  refine safe_attempt_request nofun fun r => ?_
  cases r with
  | error err => exact safe_refuseAcquired ..
  | ok plan =>
    have hlater : h <+: h ++ [⟨.planSetCategory tx cat, .ok plan⟩] := List.prefix_append _ _
    dsimp only
    split
    · exact safe_refuseAcquired ..
    · rename_i hchecked
      obtain ⟨expected, approved, hexpected, happroved, hcurrent, hcategory⟩ :=
        checkPreconditions_ok hchecked
      refine safe_writePlanned ⟨hlater.subset hread, ?_, snapshot, hlater.subset hsnapshot, ?_⟩
      · rw [approvedCurrent, hexpected, bind_some, happroved, bind_some, hcurrent]
      · rw [freshCategory, hindex, bind_some, htx, map_some, hcategory]

theorem safe_applyAcquired (hread : ⟨.getProposal input.proposalId, .ok (some a.proposal)⟩ ∈ h) :
    Safe input h (applyAcquired input a) := by
  refine safe_attempt_request nofun fun r => ?_
  cases r with
  | error err => exact safe_refuseAcquired ..
  | ok snapshot =>
    refine safe_request_bind nofun fun now => ?_
    split
    · exact safe_refuseAcquired ..
    · split
      · exact safe_refuseAcquired ..
      · rename_i transactions hindex
        split
        · exact safe_refuseAcquired ..
        · rename_i tx htx
          split
          · refine safe_planAndWrite _ ?_ ?_ hindex htx
            · simp [hread]
            · simp
          · exact safe_refuseAcquired ..

theorem safe_beginAcquired (hread : ⟨.getProposal input.proposalId, .ok (some proposal)⟩ ∈ h)
    (executionInput : ExecutionInput) (reviewId : Option String) (acquisition : Acquisition) :
    Safe input h (beginAcquired service input proposal executionInput reviewId acquisition) := by
  unfold beginAcquired
  split
  · exact safe_request_bind nofun fun _ => trivial
  · split
    · refine safe_request_bind nofun fun _ => ?_
      exact safe_bind (safe_appendFailureAudit _ _ _ _) fun _ _ _ => trivial
    · split
      · refine safe_bind (safe_recordFailure _) fun _ _ _ => ?_
        exact safe_bind (safe_appendFailureAudit _ _ _ _) fun _ _ _ => trivial
      · exact safe_applyAcquired hread

theorem safe_replayAcquired (hasReviewReference : Bool) (record : IdempotencyRecord) :
    Safe input h (replayAcquired input hasReviewReference record) := by
  unfold replayAcquired
  split
  · trivial
  · dsimp only
    split
    · trivial
    · refine safe_attempt_request nofun fun r => ?_
      split <;> trivial

theorem safe_checkReview (fresh : Bool) (parsed : CategoryPreconditions) :
    Safe input h (checkReview input fresh parsed) := by
  unfold checkReview
  split
  · refine safe_attempt_request nofun fun r => ?_
    split <;> trivial
  · trivial

theorem safe_acquireExecution
    (hread : ⟨.getProposal input.proposalId, .ok (some proposal)⟩ ∈ h) (fresh : Bool)
    (preconditions : Json) (parsed : CategoryPreconditions) :
    Safe input h (acquireExecution service input proposal fresh preconditions parsed) := by
  refine safe_bind (safe_checkReview fresh parsed) fun h₁ refused hle => ?_
  cases refused with
  | some refused => trivial
  | none =>
    dsimp only
    split
    · trivial
    · refine safe_attempt_request nofun fun r => ?_
      split
      · trivial
      · trivial
      · split
        · exact safe_beginAcquired (List.mem_append_left _ (hle.subset hread)) _ _ _
        · exact safe_replayAcquired ..

theorem safe_refuseProposal (proposal : ActionProposal) (code message : String) :
    Safe input h (refuseProposal input proposal code message) :=
  safe_bind (safe_appendFailureAudit _ _ _ _) fun _ _ _ => trivial

theorem safe_anyBackupVerified (budgetId : String) : ∀ (records : List AuditRecord) (h : History),
    Safe input h (anyBackupVerified budgetId records)
  | [], _ => trivial
  | record :: rest, h => by
    unfold anyBackupVerified
    split
    · exact safe_anyBackupVerified budgetId rest h
    · refine safe_request_bind nofun fun now => ?_
      split
      · exact safe_anyBackupVerified budgetId rest _
      · trivial

theorem safe_checkCurrent (service : Service) (proposal : ActionProposal) :
    Safe input h (checkCurrent service input proposal) := by
  refine safe_request_bind nofun fun now => ?_
  split
  · exact safe_refuseProposal ..
  · split
    · refine safe_bind (safe_request_bind nofun fun records => safe_anyBackupVerified _ records _)
        fun _ ok _ => ?_
      cases ok with
      | true => trivial
      | false => exact safe_refuseProposal ..
    · trivial

theorem safe_checkFresh (service : Service) (fresh : Bool) (proposal : ActionProposal) :
    Safe input h (checkFresh service input fresh proposal) := by
  unfold checkFresh
  split
  · trivial
  · split
    · trivial
    · split
      · exact safe_refuseProposal ..
      · split
        · exact safe_refuseProposal ..
        · refine safe_bind (safe_checkCurrent service proposal) fun _ refused _ => ?_
          cases refused with
          | some refused => trivial
          | none =>
            dsimp only
            split <;> trivial

theorem safe_executeProposal (hread : ⟨.getProposal input.proposalId, .ok (some proposal)⟩ ∈ h) :
    Safe input h (executeProposal service input proposal) := by
  refine safe_attempt_request nofun fun r => ?_
  cases r with
  | error err => trivial
  | ok prior =>
    refine safe_bind (safe_checkFresh service _ proposal) fun h₁ refused hle => ?_
    cases refused with
    | some refused => trivial
    | none =>
      dsimp only
      split
      · trivial
      · split
        · trivial
        · exact safe_acquireExecution (hle.subset (List.mem_append_left _ hread)) _ _ _

theorem safe_execute (service : Service) (input : ExecuteCategorizationInput) :
    Safe input [] (execute service input) := by
  refine safe_request_bind nofun fun proposal => ?_
  cases proposal with
  | none => exact safe_attempt_request nofun fun _ => trivial
  | some proposal =>
    dsimp only
    split
    · trivial
    · exact safe_executeProposal (List.mem_singleton.mpr rfl)

end Service

/-! ## Every run -/

/-- **What is known where an update is issued**: the plan is approved, its category is the one of the
fresh snapshot, and it is the one read under the lock unless the plan has none. -/
theorem update_seen (service : Service) (input : ExecuteCategorizationInput) (h : History)
    (transactionId category : String)
    (hissued : Issued (execute service input) h (.updateTransaction transactionId category)) :
    ∃ proposal snapshot current actual,
      ⟨.getProposal input.proposalId, .ok (some proposal)⟩ ∈ h ∧
      proposal.payload.transactionId = transactionId ∧ proposal.payload.categoryId = category ∧
      approvedCurrent proposal = some current ∧
      ⟨.synchronize, .ok snapshot⟩ ∈ h ∧ freshCategory snapshot transactionId = some current ∧
      categoryUnderLock transactionId h = some actual ∧ (current = none ∨ actual = current) :=
  (safe_execute service input).issued hissued transactionId category rfl

def householdRequest : ExecuteCategorizationInput where
  requestId := "request"
  actorId := "robin"
  proposalId := "proposal"
  approvalId := none
  auth := .null
  idempotencyKey := "key"
  correlationId := none

def householdAnswers (current actual : Option String) : (c : Call) → Except Thrown (Answer c)
  | .getProposal _ => .ok (some proposal)
  | .getIdempotencyRecord _ => .ok none
  | .appendAuditRecord _ => .ok audit
  | .queryAuditRecords _ _ => .ok []
  | .isProposalReviewProvenanceCurrent _ => .ok true
  | .acquireProposalExecution _ => .ok ⟨true, idempotency, [], some audit⟩
  | .validateAcquiredProposalExecution _ _ => .ok ()
  | .completeIdempotencyRecord _ _ _ _ => .ok idempotency
  | .completeVerifiedCategorizationReview _ => .ok true
  | .now => .ok (0 : Int)
  | .synchronize => .ok snapshot
  | .planSetCategory _ _ => .ok plan
  | .verifyMutation _ _ => .ok ⟨true, [], none⟩
  | .assertMutationAllowed _ => .ok ()
  | .selectedBudget => .ok (some "budget")
  | .lockCache _ => .ok ()
  | .unlockCache _ => .ok ()
  | .getAccounts => .ok [⟨"checking", false⟩]
  | .getTransactions _ _ _ => .ok [⟨"t1", "checking", actual⟩]
  | .getCategories => .ok [⟨"c-food", false⟩, ⟨"c-rent", false⟩]
  | .randomUUID => .ok ("uuid" : String)
  | .updateTransaction _ _ => .ok ()
  | .sync => .ok ()
where
  plan : MutationPlan := ⟨"plan", "t1", current, "c-rent", "hash", [⟨"CategoryExists", "c-rent"⟩]⟩
  proposal : ActionProposal :=
    { operation := "set_category", budgetId := "budget",
      payload := ⟨"t1", "c-rent", some ⟨[], 0, 0, 0, some "hash"⟩⟩, payloadHash := "payload",
      preconditions := some (.object [("currentCategoryId", Json.option .string current),
        ("actualVersion", .string "26.1"), ("snapshotSchemaVersion", .string "1"),
        ("nativePlan", plan.json)]),
      policyVersion := "1.0", governancePolicyVersion := some "1", supersededAt := none,
      expiresAt := some 1, providerModel := none }
  audit : AuditRecord := ⟨"audit", some 0, some "budget", some .approvalRequired, "started"⟩
  idempotency : IdempotencyRecord := ⟨.inProgress, none, none, none⟩
  snapshot : ProtocolSnapshot :=
    { schemaVersion := "1", actualVersion := "26.1", snapshotDate := some 0,
      transactions := [.mk "t1" "checking" current ⟨⟨-500, by decide⟩, "EUR"⟩ []],
      categories := [⟨"c-food", false⟩, ⟨"c-rent", false⟩] }

def isUpdate : Event Call Answer Thrown → Bool
  | ⟨.updateTransaction _ _, _⟩ => true
  | _ => false

def householdHistory (current actual : Option String) : History :=
  ((execute ⟨false, true⟩ householdRequest).run (householdAnswers current actual)).takeWhile
    (!isUpdate ·)

theorem update_seen_household :
    categoryUnderLock "t1" (householdHistory (some "c-food") (some "c-food")) =
      some (some "c-food") ∧
      ∃ proposal snapshot current actual,
        ⟨.getProposal "proposal", .ok (some proposal)⟩ ∈
          householdHistory (some "c-food") (some "c-food") ∧
        proposal.payload.transactionId = "t1" ∧ proposal.payload.categoryId = "c-rent" ∧
        approvedCurrent proposal = some current ∧
        ⟨.synchronize, .ok snapshot⟩ ∈ householdHistory (some "c-food") (some "c-food") ∧
        freshCategory snapshot "t1" = some current ∧
        categoryUnderLock "t1" (householdHistory (some "c-food") (some "c-food")) = some actual ∧
        (current = none ∨ actual = current) := by
  have hissued : Issued (execute ⟨false, true⟩ householdRequest)
      (householdHistory (some "c-food") (some "c-food")) (.updateTransaction "t1" "c-rent") :=
    issued_of_find? (e := ⟨Call.updateTransaction "t1" "c-rent", .ok ()⟩) rfl
  exact ⟨by decide, update_seen _ householdRequest _ _ _ hissued⟩

/-- **A plan without a category overwrites one that was set in between**: the category under the lock
need not be the approved one. -/
theorem update_unseen :
    ¬∀ (service : Service) (input : ExecuteCategorizationInput) (h : History)
      (transactionId category : String),
      Issued (execute service input) h (.updateTransaction transactionId category) →
      ∀ proposal current actual, ⟨.getProposal input.proposalId, .ok (some proposal)⟩ ∈ h →
        approvedCurrent proposal = some current → categoryUnderLock transactionId h = some actual →
          actual = current := by
  intro hclaim
  have hissued : Issued (execute ⟨false, true⟩ householdRequest)
      (householdHistory none (some "c-food")) (.updateTransaction "t1" "c-rent") :=
    issued_of_find? (e := ⟨Call.updateTransaction "t1" "c-rent", .ok ()⟩) rfl
  have hread : ⟨.getProposal "proposal", .ok (some (householdAnswers.proposal none))⟩ ∈
      householdHistory none (some "c-food") := List.mem_cons_self
  have happroved : approvedCurrent (householdAnswers.proposal none) = some none := by decide
  have hactual : categoryUnderLock "t1" (householdHistory none (some "c-food")) =
      some (some "c-food") := by decide
  exact absurd (hclaim _ householdRequest _ _ _ hissued _ none (some "c-food") hread happroved hactual)
    (by decide)

end BalanceFrame.Mutation
