import BalanceFrame.Workflow.Tables

/-!
# One writer of a budget

Who owns the writes of a budget is a query over four tables. `Writer` states it by kind: an acquired
action, a session completion with an open write row, or an acquired category or rule proposal whose
record is in progress, or failed without the recorded proof that its dispatch never started.
`Released` are the ways out: verification, success, or such a proof; for an action it is the fenced
state `invalidated_no_dispatch`, for a completion the connector's report that no manual write was
attempted.

Each kind has its own lemmas on one write: a writer was one before or nobody owned the budget's
writes, a writer that stops is released, and what is released stays released (`Passes`).
`run_one_writer` follows the writes of whole runs. Records of `execution_started` come from
acquisitions only: a caller that appends one by hand can put a released record among the owners
again (`QuietRun`).
-/

namespace BalanceFrame.Workflow

open Library List
open Governance
open WorkflowStore

/-! ## Writers -/

/-- A category or rule proposal. -/
def IsRecorded (p : ProposalRow) : Prop :=
  p.operation.isGeneric = true ∧ p.operation ≠ .consequentialAction

/-- The record under the key a proposal was acquired with. -/
def AcquiredRecord (s : WorkflowStore) (p : ProposalRow) (i : IdempotencyRow) : Prop :=
  i ∈ s.idempotency ∧ i.proposalId = p.id ∧
    ∃ a ∈ s.acquisitions, a.proposalId = p.id ∧ a.idempotencyKey = i.idempotencyKey

/-- The proof that the dispatch of a category proposal never started is recorded. -/
def DispatchDenied (s : WorkflowStore) (p : ProposalRow) (key : String) : Prop :=
  p.operation = .setCategory ∧ s.dispatchDenied p key = true

/-- A failed record. -/
def IdempotencyStatus.Failed (status : IdempotencyStatus) : Prop :=
  status = .retryableFailed ∨ status = .terminalFailed

/-- A record is open: in progress, or failed without a proof that nothing was dispatched. -/
def OpenRecord (s : WorkflowStore) (p : ProposalRow) (i : IdempotencyRow) : Prop :=
  i.status = .inProgress ∨ i.status.Failed ∧ ¬ DispatchDenied s p i.idempotencyKey

/-- A record is closed: succeeded, or failed with that proof. -/
def ClosedRecord (s : WorkflowStore) (p : ProposalRow) (i : IdempotencyRow) : Prop :=
  i.status = .succeeded ∨ i.status.Failed ∧ DispatchDenied s p i.idempotencyKey

/-- An unreleased writer of its budget. -/
inductive Writer (s : WorkflowStore) (p : ProposalRow) : Prop
  | action {state} (hop : p.operation = .consequentialAction) (hstate : p.state = .action state)
      (hphase : state.phase = .writeIntent ∨ state.phase = .reviewRequired)
  | completion {phase outcome status} (hop : p.operation = .sessionCompletion)
      (hstate : p.state = .completion phase outcome)
      (hphase : phase = .writeIntent ∨ phase = .reviewRequired) (hwrite : s.HasWrite p status)
      (hstatus : status = .writeIntent ∨ status = .reviewRequired)
  | record {i} (hop : IsRecorded p) (hi : AcquiredRecord s p i) (hopen : OpenRecord s p i)

/-- A former writer, and why it is none. -/
inductive Released (s : WorkflowStore) (p : ProposalRow) : Prop
  | action {state} (hop : p.operation = .consequentialAction) (hstate : p.state = .action state)
      (hphase : state.phase = .verified ∨ state.phase = .invalidatedNoDispatch)
  | completion {phase outcome} (hop : p.operation = .sessionCompletion)
      (hstate : p.state = .completion phase outcome)
      (hphase : phase = .verified ∨ phase = .closed ∧ outcome = some "reconciliation_required")
  | record {i} (hop : IsRecorded p) (hi : AcquiredRecord s p i) (hclosed : ClosedRecord s p i)

/-- The proposals with a new acquisition or a new write row. -/
def begun (s s' : WorkflowStore) : List String :=
  (s'.acquisitions.drop s.acquisitions.length).map (·.proposalId) ++
    (s'.completionWrites.drop s.completionWrites.length).map (·.proposalId)

/-- A write begins the writing of one proposal, and nobody else owns the writes of its budget. -/
def Begins (s s' : WorkflowStore) (p : ProposalRow) : Prop :=
  s.hasConflictingOwner p.budgetId p.id = false ∧ begun s s' = [p.id]

/-- What one write does to a proposal as a writer. -/
structure Passes (s s' : WorkflowStore) (p q : ProposalRow) : Prop where
  before : Writer s' q → Writer s p ∨ Begins s s' p
  after : Writer s p → Writer s' q ∨ Released s' q
  released : Released s p → Released s' q

theorem Writer.owns {s : WorkflowStore} {p : ProposalRow} (h : Writer s p) :
    s.ownsWrites p = true := by
  simp only [ownsWrites, Bool.or_eq_true]
  cases h with
  | action hop hstate hphase =>
    left
    simp only [ownsByPhase, hop, hstate]
    rcases hphase with h | h <;> rw [h] <;> rfl
  | completion hop hstate hphase hwrite hstatus =>
    left
    obtain ⟨w, hw, hbudget, hid, rfl⟩ := hwrite
    simp only [ownsByPhase, hop, hstate, Bool.and_eq_true, Bool.or_eq_true, beq_iff_eq,
      any_eq_true]
    exact ⟨hphase, w, hw, ⟨hbudget, hid⟩, hstatus⟩
  | @record i hop hi hopen =>
    right
    refine any_eq_true.mpr ⟨i, hi.1, ?_⟩
    have hunfinished : finishedState p = false := by
      obtain ⟨hgeneric, hnot⟩ := hop
      unfold finishedState
      revert hgeneric hnot
      cases p.operation <;> simp [ProposalOperation.isGeneric]
    simp only [ownsByRecord, hunfinished, hi.2.1, beq_self_eq_true, Bool.true_and, Bool.false_or,
      Bool.or_eq_true, Bool.and_eq_true, beq_iff_eq, Bool.not_eq_true', Bool.and_eq_false_iff,
      beq_eq_false_iff_ne]
    rcases hopen with hopen | ⟨hfailed, hundenied⟩
    · exact .inl hopen
    · refine .inr ⟨hfailed, ?_⟩
      by_cases hcategory : p.operation = .setCategory
      · right
        simpa [DispatchDenied, hcategory] using hundenied
      · exact .inl (.inl hcategory)

/-! ## The proof that nothing was dispatched -/

variable {host : Host} {time : Option String} {s s' : WorkflowStore} {p q : ProposalRow}

theorem SameRow.dispatchDenied (h : SameRow p q) (key : String) :
    s.dispatchDenied q key = s.dispatchDenied p key := by
  have hstart : startsExecution q key = startsExecution p key := by
    funext a
    simp [startsExecution, h.operation, h.id, h.hash, h.budget]
  have hdeny : deniesDispatch q key = deniesDispatch p key := by
    funext a acquisitionId
    simp [deniesDispatch, h.operation, h.id, h.hash, h.budget]
  simp only [WorkflowStore.dispatchDenied, hstart, hdeny]

variable {key : String} {i : IdempotencyRow} {r : ProposalRow} {outcome : Option String}
  {status : WriteStatus} {op : Op}

/-- **A proof stays a proof** while no execution of the proposal starts. -/
theorem dispatchDenied_append {new : List AuditRow}
    (haudits : s'.audits = s.audits ++ new) (hnew : ∀ a ∈ new, startsExecution p key a = false)
    (h : s.dispatchDenied p key = true) : s'.dispatchDenied p key = true := by
  unfold WorkflowStore.dispatchDenied at h ⊢
  have hnone : new.reverse.find? (startsExecution p key) = none := by
    rw [find?_eq_none]
    intro a ha
    simp [hnew a (mem_reverse.mp ha)]
  rw [haudits, reverse_append, find?_append, hnone, Option.none_or]
  split at h
  · cases h
  · next acquisition _ =>
    -- the failure that denies the dispatch lies in the old records
    obtain ⟨failure, hfailure, hdenies⟩ := any_eq_true.mp h
    have hstart : s.audits.dropWhile (·.id != acquisition.id) ≠ [] := fun hnil => by
      rw [hnil] at hfailure
      cases hfailure
    refine any_eq_true.mpr ⟨failure, ?_, hdenies⟩
    rw [dropWhile_append, if_neg (by simpa using hstart),
      drop_append_of_le_length (length_pos_iff.mpr hstart)]
    exact mem_append_left _ hfailure

/-! ## Category and rule proposals -/

/-- A status stays, or a record that is not finished gets another one. -/
def StatusStep (before after : IdempotencyStatus) : Prop :=
  after = before ∨ (before = .inProgress ∨ before = .retryableFailed) ∧ after ≠ .inProgress

/-- A write keeps the records of a proposal, up to their status, and the proofs about it. -/
def KeepsRecords (s s' : WorkflowStore) (p : ProposalRow) : Prop :=
  ∃ f : IdempotencyRow → IdempotencyRow,
    (∀ i, AcquiredRecord s p i → AcquiredRecord s' p (f i) ∧
      (f i).idempotencyKey = i.idempotencyKey ∧ StatusStep i.status (f i).status) ∧
    (∀ i', AcquiredRecord s' p i' → ∃ i, AcquiredRecord s p i ∧ i' = f i) ∧
    ∀ key, DispatchDenied s p key → DispatchDenied s' p key

theorem OpenRecord.of_step {i' : IdempotencyRow}
    (hdenied : ∀ key, DispatchDenied s p key → DispatchDenied s' p key)
    (hkey : i'.idempotencyKey = i.idempotencyKey) (hstatus : StatusStep i.status i'.status)
    (h : OpenRecord s' p i') : OpenRecord s p i := by
  have hundenied : ¬ DispatchDenied s' p i'.idempotencyKey →
      ¬ DispatchDenied s p i.idempotencyKey := fun hnot hd => hnot (hkey ▸ hdenied _ hd)
  rcases hstatus with hsame | ⟨hbefore, hafter⟩
  · unfold OpenRecord at h ⊢
    rw [← hsame]
    exact h.imp_right fun h => ⟨h.1, hundenied h.2⟩
  · rcases h with h | ⟨_, hnot⟩
    · exact absurd h hafter
    · exact hbefore.imp_right fun h => ⟨.inl h, hundenied hnot⟩

theorem ClosedRecord.step {i' : IdempotencyRow}
    (hdenied : ∀ key, DispatchDenied s p key → DispatchDenied s' p key)
    (hkey : i'.idempotencyKey = i.idempotencyKey) (hstatus : StatusStep i.status i'.status)
    (h : ClosedRecord s p i) : ClosedRecord s' p i' := by
  unfold ClosedRecord at h ⊢
  rw [hkey]
  rcases hstatus with hsame | ⟨hbefore, hafter⟩
  · rw [hsame]
    exact h.imp_right fun h => ⟨h.1, hdenied _ h.2⟩
  · rcases h with h | ⟨_, hd⟩
    · rcases hbefore with hb | hb <;> rw [h] at hb <;> cases hb
    · unfold IdempotencyStatus.Failed
      cases hcase : i'.status
      · exact absurd hcase hafter
      · exact .inl rfl
      · exact .inr ⟨.inl rfl, hdenied _ hd⟩
      · exact .inr ⟨.inr rfl, hdenied _ hd⟩

theorem open_or_closed (i : IdempotencyRow) : OpenRecord s p i ∨ ClosedRecord s p i := by
  unfold OpenRecord ClosedRecord IdempotencyStatus.Failed
  by_cases hd : DispatchDenied s p i.idempotencyKey <;> cases i.status <;> simp [hd]

theorem OpenRecord.not_closed (h : OpenRecord s p i) : ¬ ClosedRecord s p i := by
  unfold OpenRecord IdempotencyStatus.Failed at h
  unfold ClosedRecord IdempotencyStatus.Failed
  cases hstatus : i.status <;> simp_all

theorem SameRow.acquiredRecord (h : SameRow p q) : AcquiredRecord s q i ↔ AcquiredRecord s p i := by
  simp [AcquiredRecord, h.id]

theorem SameRow.denied (h : SameRow p q) : DispatchDenied s q key ↔ DispatchDenied s p key := by
  simp [DispatchDenied, h.operation, h.dispatchDenied]

theorem SameRow.recorded (h : SameRow p q) : IsRecorded q ↔ IsRecorded p := by
  simp [IsRecorded, h.operation]

theorem writer_record_iff (hop : IsRecorded p) :
    Writer s p ↔ ∃ i, AcquiredRecord s p i ∧ OpenRecord s p i := by
  constructor
  · intro h
    cases h with
    | action hop' => exact absurd hop' hop.2
    | completion hop' => exact absurd hop.1 (by rw [hop']; decide)
    | record _ hi hopen => exact ⟨_, hi, hopen⟩
  · rintro ⟨i, hi, hopen⟩
    exact .record hop hi hopen

theorem released_record_iff (hop : IsRecorded p) :
    Released s p ↔ ∃ i, AcquiredRecord s p i ∧ ClosedRecord s p i := by
  constructor
  · intro h
    cases h with
    | action hop' => exact absurd hop' hop.2
    | completion hop' => exact absurd hop.1 (by rw [hop']; decide)
    | record _ hi hclosed => exact ⟨_, hi, hclosed⟩
  · rintro ⟨i, hi, hclosed⟩
    exact .record hop hi hclosed

theorem KeepsRecords.passes (h : KeepsRecords s s' p) (hop : IsRecorded p) (hsame : SameRow p q) :
    Passes s s' p q := by
  obtain ⟨f, hforward, hback, hdenied⟩ := h
  have hop' := hsame.recorded.mpr hop
  constructor
  · rw [writer_record_iff hop', writer_record_iff hop]
    rintro ⟨i', hi', hopen⟩
    obtain ⟨i, hi, rfl⟩ := hback i' (hsame.acquiredRecord.mp hi')
    obtain ⟨_, hkey, hstatus⟩ := hforward i hi
    have hopen' : OpenRecord s' p (f i) := by simpa [OpenRecord, hsame.denied] using hopen
    exact .inl ⟨i, hi, hopen'.of_step hdenied hkey hstatus⟩
  · rw [writer_record_iff hop', writer_record_iff hop, released_record_iff hop']
    rintro ⟨i, hi, -⟩
    obtain ⟨hi', -⟩ := hforward i hi
    have hi' := hsame.acquiredRecord.mpr hi'
    exact (open_or_closed (f i)).imp (fun h => ⟨_, hi', h⟩) fun h => ⟨_, hi', h⟩
  · rw [released_record_iff hop', released_record_iff hop]
    rintro ⟨i, hi, hclosed⟩
    obtain ⟨hi', hkey, hstatus⟩ := hforward i hi
    refine ⟨f i, hsame.acquiredRecord.mpr hi', ?_⟩
    have hclosed' := hclosed.step hdenied hkey hstatus
    simpa [ClosedRecord, hsame.denied] using hclosed'

theorem keepsRecords_of (f : IdempotencyRow → IdempotencyRow) (rows : List IdempotencyRow)
    (acquisitions : List AcquisitionRow) (audits : List AuditRow)
    (hidempotency : s'.idempotency = s.idempotency.map f ++ rows)
    (hacquisitions : s'.acquisitions = s.acquisitions ++ acquisitions)
    (haudits : s'.audits = s.audits ++ audits)
    (hf : ∀ i, (f i).idempotencyKey = i.idempotencyKey ∧ (f i).proposalId = i.proposalId)
    (hstatus : ∀ i, i.proposalId = p.id → StatusStep i.status (f i).status)
    (hrows : ∀ i ∈ rows, i.proposalId = p.id → ∀ a ∈ s.acquisitions,
      a.idempotencyKey ≠ i.idempotencyKey)
    (hnew : ∀ a ∈ acquisitions, a.proposalId ≠ p.id)
    (hquiet : ∀ a ∈ audits, ∀ key, startsExecution p key a = false) : KeepsRecords s s' p := by
  refine ⟨f, ?_, ?_, fun key hd => ⟨hd.1, dispatchDenied_append haudits (hquiet · · key) hd.2⟩⟩
  · rintro i ⟨hi, hid, a, ha, haid, hkey⟩
    refine ⟨⟨?_, (hf i).2.trans hid, a, ?_, haid, hkey.trans (hf i).1.symm⟩, (hf i).1,
      hstatus i hid⟩
    · rw [hidempotency]
      exact mem_append_left _ (mem_map_of_mem hi)
    · rw [hacquisitions]
      exact mem_append_left _ ha
  · rintro i' ⟨hi', hid, a, ha, haid, hkey⟩
    rw [hacquisitions] at ha
    rw [hidempotency] at hi'
    have ha : a ∈ s.acquisitions := by
      rcases mem_append.mp ha with ha | ha
      · exact ha
      · exact absurd haid (hnew a ha)
    rcases mem_append.mp hi' with hi' | hi'
    · obtain ⟨i, hi, rfl⟩ := mem_map.mp hi'
      exact ⟨i, ⟨hi, (hf i).2.symm.trans hid, a, ha, haid, hkey.trans (hf i).1⟩, rfl⟩
    · exact absurd hkey (hrows i' hi' hid a ha)

theorem StatusStep.refl (status : IdempotencyStatus) : StatusStep status status := .inl rfl

/-- Acquisitions belong to stored proposals and to recorded keys. -/
structure AcquisitionsLinked (s : WorkflowStore) : Prop where
  proposal : ∀ a ∈ s.acquisitions, ∃ p ∈ s.proposals, p.id = a.proposalId
  record : ∀ a ∈ s.acquisitions, ∃ i ∈ s.idempotency, i.idempotencyKey = a.idempotencyKey

theorem AcquisitionsLinked.unacquired (h : AcquisitionsLinked s)
    (hnew : ∀ i ∈ s.idempotency, i.idempotencyKey ≠ key) :
    ∀ a ∈ s.acquisitions, a.idempotencyKey ≠ key := by
  intro a ha heq
  obtain ⟨i, hi, hkey⟩ := h.record a ha
  exact hnew i hi (hkey.trans heq)

/-- A write keeps the records of a category or rule proposal, unless it acquires it. -/
theorem Change.keepsRecords (hids : DistinctIds s) (hlinked : AcquisitionsLinked s)
    (h : Change time s s') (hp : p ∈ s.proposals) (hop : IsRecorded p) :
    KeepsRecords s s' p ∨ Begins s s' p ∧ ∀ a ∈ s.acquisitions, a.proposalId ≠ p.id := by
  -- the tables of records stay as they are
  have hstay {s' : WorkflowStore} (h₁ : s'.idempotency = s.idempotency)
      (h₂ : s'.acquisitions = s.acquisitions) (h₃ : s'.audits = s.audits) : KeepsRecords s s' p :=
    keepsRecords_of id [] [] [] (by simp [h₁]) (by simp [h₂]) (by simp [h₃]) (fun _ => ⟨rfl, rfl⟩)
      (fun _ _ => .refl _) (by simp) (by simp) (by simp)
  -- another proposal is acquired
  have hclaimed {input : AcquireInput} {r : ProposalRow} (approvals : List ApprovalRow)
      {s' : WorkflowStore} (hacquires : Acquires time s input r)
      (hrows : s'.idempotency = (s.claimed input r approvals).idempotency ∧
        s'.acquisitions = (s.claimed input r approvals).acquisitions ∧
        s'.audits = (s.claimed input r approvals).audits) (hne : p.id ≠ r.id) :
      KeepsRecords s s' p := by
    have hid : input.proposalId ≠ p.id := hacquires.id ▸ hne.symm
    refine keepsRecords_of id [claimRow input r] [acquisitionRow input]
      [startedAudit input r approvals] (by simp [hrows.1, claimed]) hrows.2.1 hrows.2.2
      (fun _ => ⟨rfl, rfl⟩) (fun _ _ => .refl _) ?_ ?_ ?_
    · intro i hi hproposal
      rw [mem_singleton.mp hi] at hproposal
      exact absurd hproposal hid
    · intro a ha
      rwa [mem_singleton.mp ha]
    · intro a ha key
      rw [mem_singleton.mp ha]
      simp [startsExecution, startedAudit, hid]
  cases h with
  | aside _ hadded =>
    obtain ⟨new, haudits, -, -, hquiet⟩ := hadded
    refine .inl (keepsRecords_of id [] [] new (by simp) (by simp) haudits (fun _ => ⟨rfl, rfl⟩)
      (fun _ _ => .refl _) (by simp) (by simp) fun a ha key => ?_)
    simp [startsExecution, hquiet a ha]
  | insert | withdraw | transfer | pending | fence | finish | reconcile | toggle | act =>
    exact .inl (hstay rfl rfl rfl)
  | @close r plan _ _ status hr hop' =>
    have hne : r.id ≠ p.id := fun hid => hop.2 (by rw [← hids.eq_of_id hr hp hid]; exact hop')
    refine .inl (keepsRecords_of (fun i => if isOpenClaim plan.idempotencyKey r.id i then
        { i with completed := true, status := status, leaseExpiresAt := none } else i) [] [] []
      (by simp [closedClaims]) (by simp [setProposal]) (by simp [setProposal])
      (fun i => by split <;> simp) (fun i hid => ?_) (by simp) (by simp) (by simp))
    split
    · next hopen =>
      simp only [isOpenClaim, Bool.and_eq_true, beq_iff_eq] at hopen
      exact absurd (hopen.1.1.1.2.symm.trans hid) hne
    · exact .refl _
  | @acquire input r approvals hacquires =>
    by_cases hid : p.id = r.id
    · obtain rfl := hids.eq_of_id hp hacquires.mem hid
      refine .inr ⟨⟨hacquires.ownerFree, ?_⟩, fun a ha => ?_⟩
      swap
      · exact hacquires.id ▸ (hacquires.unacquired a ha).1
      simp [begun, claimed, acquisitionRow, hacquires.id]
    · exact .inl (hclaimed approvals hacquires ⟨rfl, rfl, rfl⟩ hid)
  | @acquireAction input r approvals plan state hacquires hop' =>
    refine .inl (hclaimed approvals hacquires ⟨rfl, rfl, rfl⟩ fun hid => ?_)
    exact hop.2 (by rw [hids.eq_of_id hp hacquires.mem hid]; exact hop')
  | @command row hkey =>
    refine .inl (keepsRecords_of id [row] [] [] (by simp) (by simp) (by simp) (fun _ => ⟨rfl, rfl⟩)
      (fun _ _ => .refl _) (fun i hi _ => ?_) (by simp) (by simp))
    rw [mem_singleton.mp hi]
    exact hlinked.unacquired hkey
  | strand now =>
    refine .inl (keepsRecords_of (fun i =>
        if s.isStranded now i then { i with status := .retryableFailed } else i) [] [] []
      (by simp [reconcileStranded]) (by simp [reconcileStranded]) (by simp [reconcileStranded])
      (fun i => by split <;> simp) (fun i _ => ?_) (by simp) (by simp) (by simp))
    split
    · next hstranded =>
      simp only [isStranded, Bool.and_eq_true, beq_iff_eq] at hstranded
      exact .inr ⟨.inl hstranded.1.1, by simp⟩
    · exact .refl _

/-! ## Actions and completions -/

theorem writer_action_iff (hop : p.operation = .consequentialAction) :
    Writer s p ↔ ∃ state, p.state = .action state ∧ state.phase.acquired = true := by
  constructor
  · intro h
    cases h with
    | action _ hstate hphase =>
      refine ⟨_, hstate, ?_⟩
      rcases hphase with h | h <;> rw [h] <;> rfl
    | completion hop' => rw [hop] at hop'; cases hop'
    | record hop' => exact absurd hop hop'.2
  · rintro ⟨state, hstate, hphase⟩
    refine .action hop hstate ?_
    cases hcase : state.phase <;> simp [hcase, ActionPhase.acquired] at hphase ⊢

theorem released_action_iff (hop : p.operation = .consequentialAction) :
    Released s p ↔ ∃ state, p.state = .action state ∧
      (state.phase = .verified ∨ state.phase = .invalidatedNoDispatch) := by
  constructor
  · intro h
    cases h with
    | action _ hstate hphase => exact ⟨_, hstate, hphase⟩
    | completion hop' => rw [hop] at hop'; cases hop'
    | record hop' => exact absurd hop hop'.2
  · rintro ⟨state, hstate, hphase⟩
    exact .action hop hstate hphase

theorem writer_completion_iff (hop : p.operation = .sessionCompletion) :
    Writer s p ↔ ∃ phase outcome status, p.state = .completion phase outcome ∧
      (phase = .writeIntent ∨ phase = .reviewRequired) ∧ s.HasWrite p status ∧
        (status = .writeIntent ∨ status = .reviewRequired) := by
  constructor
  · intro h
    cases h with
    | action hop' => rw [hop] at hop'; cases hop'
    | completion _ hstate hphase hwrite hstatus => exact ⟨_, _, _, hstate, hphase, hwrite, hstatus⟩
    | record hop' => exact absurd hop'.1 (by rw [hop]; decide)
  · rintro ⟨phase, outcome, status, hstate, hphase, hwrite, hstatus⟩
    exact .completion hop hstate hphase hwrite hstatus

theorem released_completion_iff (hop : p.operation = .sessionCompletion) :
    Released s p ↔ ∃ phase outcome, p.state = .completion phase outcome ∧
      (phase = .verified ∨ phase = .closed ∧ outcome = some "reconciliation_required") := by
  constructor
  · intro h
    cases h with
    | action hop' => rw [hop] at hop'; cases hop'
    | completion _ hstate hphase => exact ⟨_, _, hstate, hphase⟩
    | record hop' => exact absurd hop'.1 (by rw [hop]; decide)
  · rintro ⟨phase, outcome, hstate, hphase⟩
    exact .completion hop hstate hphase

theorem set_image (hids : DistinctIds s) {g : ProposalRow → ProposalRow}
    (hp : p ∈ s.proposals) (hr : r ∈ s.proposals) (hq : q ∈ (s.setProposal r.id g).proposals)
    (hid : q.id = p.id) (hg : ∀ x, (g x).id = x.id) :
    p = r ∧ q = g r ∨ p.id ≠ r.id ∧ q = p := by
  obtain ⟨x, hx, rfl⟩ := mem_map.mp hq
  split at hid
  · next hxr =>
    obtain rfl := hids.eq_of_id hx hr hxr
    rw [hg] at hid
    exact .inl ⟨hids.eq_of_id hp hx hid.symm, if_pos rfl⟩
  · next hxr =>
    obtain rfl := hids.eq_of_id hx hp hid
    exact .inr ⟨hxr, if_neg hxr⟩

theorem insert_image (hids : DistinctIds s) {row : ProposalRow} (hp : p ∈ s.proposals)
    (hnew : ∀ r ∈ s.proposals, r.id ≠ row.id) (hq : q ∈ s.proposals ++ [row])
    (hid : q.id = p.id) : q = p := by
  rcases mem_append.mp hq with hq | hq
  · exact hids.eq_of_id hq hp hid
  · rw [mem_singleton.mp hq] at hid
    exact absurd hid.symm (hnew p hp)

theorem passes_action (hop : p.operation = .consequentialAction)
    (hop' : q.operation = .consequentialAction) (hstate : q.state = p.state) : Passes s s' p q := by
  constructor
  · rw [writer_action_iff hop, writer_action_iff hop', hstate]
    exact .inl
  · rw [writer_action_iff hop, writer_action_iff hop', hstate]
    exact .inl
  · rw [released_action_iff hop, released_action_iff hop', hstate]
    exact id

theorem passes_acquired (hop : p.operation = .consequentialAction) {state state' : ActionState}
    (hstate : p.state = .action state) (hphase : state.phase.acquired = true)
    (hstate' : state'.phase.acquired = true ∨
      state'.phase = .verified ∨ state'.phase = .invalidatedNoDispatch) :
    Passes s s' p (p.moved state') := by
  have hwriter : Writer s p := (writer_action_iff hop).mpr ⟨state, hstate, hphase⟩
  refine ⟨fun _ => .inl hwriter, fun _ => ?_, fun hreleased => ?_⟩
  · refine hstate'.imp (fun h => ?_) fun h => .action hop rfl h
    exact (writer_action_iff (p := p.moved state') hop).mpr ⟨state', rfl, h⟩
  · obtain ⟨state'', hsame, hdone⟩ := (released_action_iff hop).mp hreleased
    obtain rfl : state = state'' := by simpa [hstate] using hsame
    rcases hdone with h | h <;> rw [h] at hphase <;> cases hphase

theorem idle_action (hop : p.operation = .consequentialAction) {state : ActionState}
    (hstate : p.state = .action state)
    (hphase : state.phase = .proposed ∨ state.phase = .approved) : ¬ Writer s p ∧ ¬ Released s p := by
  constructor
  · rw [writer_action_iff hop]
    rintro ⟨state', hsame, hacquired⟩
    obtain rfl : state = state' := by simpa [hstate] using hsame
    rcases hphase with h | h <;> rw [h] at hacquired <;> cases hacquired
  · rw [released_action_iff hop]
    rintro ⟨state', hsame, hdone⟩
    obtain rfl : state = state' := by simpa [hstate] using hsame
    rcases hphase with h | h <;> simp [h] at hdone

theorem Change.passes_action (hids : DistinctIds s) (h : Change time s s')
    (hp : p ∈ s.proposals) (hq : q ∈ s'.proposals) (hid : q.id = p.id)
    (hop : p.operation = .consequentialAction) : Passes s s' p q := by
  have hkeep : q = p → Passes s s' p q := fun heq => by
    subst heq
    exact Workflow.passes_action hop hop rfl
  cases h with
  | aside | acquire | command | strand => exact hkeep (hids.eq_of_id hq hp hid)
  | insert _ _ hnew => exact hkeep (insert_image hids hp hnew hq hid)
  | withdraw hr =>
    rcases set_image hids hp hr hq hid (fun _ => rfl) with ⟨rfl, rfl⟩ | ⟨-, heq⟩
    · exact Workflow.passes_action hop hop rfl
    · exact hkeep heq
  | transfer hr hop' =>
    rcases set_image hids hp hr hq hid (fun _ => rfl) with ⟨rfl, rfl⟩ | ⟨-, heq⟩
    · rw [hop] at hop'
      cases hop'
    · exact hkeep heq
  | pending hr hop' | fence hr hop' | finish _ hr hop' | reconcile _ hr hop' =>
    rcases set_image hids hp hr hq hid (fun _ => rfl) with ⟨rfl, rfl⟩ | ⟨-, heq⟩
    · rw [hop] at hop'
      cases hop'
    · exact hkeep heq
  | @toggle _ state phase hr _ hstate hfrom hto =>
    rcases set_image hids hp hr hq hid (fun _ => rfl) with ⟨rfl, rfl⟩ | ⟨-, heq⟩
    · obtain ⟨hwriter, hreleased⟩ := idle_action (s := s) hop hstate hfrom
      have hidle := idle_action (s := s.setProposal p.id (·.moved { state with phase }))
        (p := p.moved { state with phase }) hop rfl hto
      exact ⟨fun h => absurd h hidle.1, fun h => absurd h hwriter, fun h => absurd h hreleased⟩
    · exact hkeep heq
  | act hr _ hstate _ hmove =>
    rcases set_image hids hp hr hq hid (fun _ => rfl) with ⟨rfl, rfl⟩ | ⟨-, heq⟩
    · cases hmove with
      | effects hphase => exact passes_acquired hop hstate hphase (.inl hphase)
      | review hphase => exact passes_acquired hop hstate hphase (.inl rfl)
    · exact hkeep heq
  | close hr _ hstate _ hfinish =>
    rcases set_image hids hp hr hq hid (fun _ => rfl) with ⟨rfl, rfl⟩ | ⟨-, heq⟩
    · cases hfinish with
      | verified hphase => exact passes_acquired hop hstate hphase (.inr (.inl rfl))
      | invalidated hphase =>
        exact passes_acquired hop hstate (by rw [hphase]; rfl) (.inr (.inr rfl))
    · exact hkeep heq
  | acquireAction hacquires _ _ _ hstate hphase =>
    rcases set_image hids hp hacquires.mem hq hid (fun _ => rfl) with ⟨rfl, rfl⟩ | ⟨-, heq⟩
    · obtain ⟨hwriter, hreleased⟩ := idle_action (s := s) hop hstate hphase
      refine ⟨fun _ => .inr ⟨hacquires.ownerFree, ?_⟩, fun h => absurd h hwriter,
        fun h => absurd h hreleased⟩
      simp [begun, claimed, setProposal, acquisitionRow, hacquires.id]
    · exact hkeep heq

theorem passes_completion (hop : p.operation = .sessionCompletion)
    (hwrites : ∀ status, s'.HasWrite p status ↔ s.HasWrite p status) : Passes s s' p p := by
  constructor
  · simp only [writer_completion_iff hop, hwrites]
    exact .inl
  · simp only [writer_completion_iff hop, hwrites]
    exact .inl
  · rw [released_completion_iff hop, released_completion_iff hop]
    exact id

theorem idle_completion (hop : p.operation = .sessionCompletion) {phase : CompletionPhase}
    (hstate : p.state = .completion phase outcome)
    (hphase : phase = .proposed ∨ phase = .approved) : ¬ Writer s p ∧ ¬ Released s p := by
  constructor
  · rw [writer_completion_iff hop]
    rintro ⟨phase', outcome', status, hsame, hwriting, -⟩
    rw [hstate] at hsame
    cases hsame
    rcases hphase with h | h <;> simp [h] at hwriting
  · rw [released_completion_iff hop]
    rintro ⟨phase', outcome', hsame, hdone⟩
    rw [hstate] at hsame
    cases hsame
    rcases hphase with h | h <;> simp [h] at hdone

theorem passes_writing (hop : p.operation = .sessionCompletion) {phase phase' : CompletionPhase}
    {before : Option String} {now : String}
    (hstate : p.state = .completion phase before)
    (hphase : phase = .writeIntent ∨ phase = .reviewRequired) (hwrite : s.HasWrite p status)
    (hstatus : status = .writeIntent ∨ status = .reviewRequired)
    (hnext : (phase' = .verified ∨ phase' = .closed ∧ outcome = some "reconciliation_required") ∨
      phase' = .reviewRequired ∧
        (s'.HasWrite p .writeIntent ∨ s'.HasWrite p .reviewRequired)) :
    Passes s s' p (p.completed phase' outcome now) := by
  have hwriter : Writer s p := .completion hop hstate hphase hwrite hstatus
  refine ⟨fun _ => .inl hwriter, fun _ => ?_, fun hreleased => ?_⟩
  · rcases hnext with hdone | ⟨rfl, hopen | hopen⟩
    · exact .inr (.completion hop rfl hdone)
    · exact .inl (.completion hop rfl (.inr rfl) hopen (.inl rfl))
    · exact .inl (.completion hop rfl (.inr rfl) hopen (.inr rfl))
  · obtain ⟨phase'', outcome', hsame, hdone⟩ := (released_completion_iff hop).mp hreleased
    rw [hstate] at hsame
    cases hsame
    rcases hphase with h | h <;> simp [h] at hdone

theorem hasWrite_setWrite_other {status' : WriteStatus}
    (hne : p.id ≠ r.id) (hwrites : s'.completionWrites =
      (s.setWrite r.budgetId r.id status).completionWrites) :
    s'.HasWrite p status' ↔ s.HasWrite p status' := by
  unfold HasWrite
  rw [hwrites]
  constructor
  · rintro ⟨w', hw', hbudget, hid, hstatus⟩
    obtain ⟨w, hw, rfl⟩ := mem_map.mp hw'
    split at hid
    · next hsame => exact absurd (hid.symm.trans hsame.2) hne
    · next hother =>
      rw [if_neg hother] at hbudget hstatus
      exact ⟨w, hw, hbudget, hid, hstatus⟩
  · rintro ⟨w, hw, hbudget, hid, hstatus⟩
    refine ⟨_, mem_map_of_mem hw, ?_⟩
    rw [if_neg fun hsame => hne (hid.symm.trans hsame.2)]
    exact ⟨hbudget, hid, hstatus⟩

theorem hasWrite_setWrite_self {status' : WriteStatus} (h : s.HasWrite p status')
    (hwrites : s'.completionWrites = (s.setWrite p.budgetId p.id status).completionWrites) :
    s'.HasWrite p status := by
  obtain ⟨w, hw, hbudget, hid, -⟩ := h
  refine ⟨{ w with status }, ?_, hbudget, hid, rfl⟩
  rw [hwrites]
  exact mem_map.mpr ⟨w, hw, if_pos ⟨hbudget, hid⟩⟩

theorem passes_reconciled (hop : p.operation = .sessionCompletion) {old : CompletionPhase}
    {before : Option String} {now : String}
    {evidence : CompletionEvidence} (hstate : p.state = .completion old before)
    (hwrite : s.HasWrite p status) (hfits : reconcilable old status evidence = true)
    (hwrites : s'.completionWrites = if evidence = .manualParent then
      (s.setWrite p.budgetId p.id .verified).completionWrites else s.completionWrites) :
    Passes s s' p (p.completed (if evidence = .ambiguous then .reviewRequired else .verified)
      outcome now) := by
  by_cases hverified : old = .verified
  · -- the imported link of a verified write
    subst hverified
    obtain rfl : evidence = .importedLink := by
      simp only [reconcilable, Bool.and_eq_true, beq_iff_eq] at hfits
      exact hfits.2
    have hwriter : ¬ Writer s p := by
      rw [writer_completion_iff hop]
      rintro ⟨phase, outcome', status', hsame, hphase, -⟩
      rw [hstate] at hsame
      cases hsame
      simp at hphase
    refine ⟨fun h => ?_, fun h => absurd h hwriter, fun _ => .completion hop rfl (.inl rfl)⟩
    obtain ⟨phase, _, _, hsame, hphase, -⟩ :=
      (writer_completion_iff (p := p.completed .verified outcome now) hop).mp h
    cases hsame
    simp at hphase
  · have hopen : (old = .writeIntent ∨ old = .reviewRequired) ∧
        (status = .writeIntent ∨ status = .reviewRequired) ∧ evidence ≠ .importedLink := by
      cases old <;> simp_all [reconcilable]
    obtain ⟨hphase, hstatus, hmanual⟩ := hopen
    refine passes_writing hop hstate hphase hwrite hstatus ?_
    cases evidence with
    | manualParent => exact .inl (.inl rfl)
    | importedLink => exact absurd rfl hmanual
    | ambiguous =>
      have hkeep : s'.HasWrite p status := by
        simpa [HasWrite, hwrites] using hwrite
      refine .inr ⟨rfl, ?_⟩
      rcases hstatus with rfl | rfl
      · exact .inl hkeep
      · exact .inr hkeep

theorem Change.passes_completion (hids : DistinctIds s) (h : Change time s s')
    (hp : p ∈ s.proposals) (hq : q ∈ s'.proposals) (hid : q.id = p.id)
    (hop : p.operation = .sessionCompletion) : Passes s s' p q := by
  have hkeep (hwrites : s'.completionWrites = s.completionWrites) (heq : q = p) :
      Passes s s' p q := by
    subst heq
    exact Workflow.passes_completion hop fun status => by simp [HasWrite, hwrites]
  cases h with
  | aside | acquire | command | strand => exact hkeep rfl (hids.eq_of_id hq hp hid)
  | insert _ _ hnew => exact hkeep rfl (insert_image hids hp hnew hq hid)
  | withdraw hr hgeneric =>
    rcases set_image hids hp hr hq hid (fun _ => rfl) with ⟨rfl, rfl⟩ | ⟨-, heq⟩
    · rw [hop] at hgeneric
      cases hgeneric
    · exact hkeep rfl heq
  | transfer hr hop' | toggle hr hop' | act hr hop' | close hr hop' =>
    rcases set_image hids hp hr hq hid (fun _ => rfl) with ⟨rfl, rfl⟩ | ⟨-, heq⟩
    · rw [hop] at hop'
      cases hop'
    · exact hkeep rfl heq
  | acquireAction hacquires hop' =>
    rcases set_image hids hp hacquires.mem hq hid (fun _ => rfl) with ⟨rfl, rfl⟩ | ⟨-, heq⟩
    · rw [hop] at hop'
      cases hop'
    · exact hkeep rfl heq
  | @pending r old before phase outcome now hr _ hstate hold hphase =>
    rcases set_image hids hp hr hq hid (fun _ => rfl) with ⟨rfl, rfl⟩ | ⟨-, heq⟩
    · obtain ⟨hwriter, hreleased⟩ := idle_completion (s := s) hop hstate hold
      refine ⟨fun h => ?_, fun h => absurd h hwriter, fun h => absurd h hreleased⟩
      obtain ⟨phase', _, _, hsame, hwriting, -⟩ :=
        (writer_completion_iff (p := p.completed phase outcome now) hop).mp h
      cases hsame
      rcases hphase with rfl | rfl | rfl <;> simp at hwriting
    · exact hkeep rfl heq
  | @fence r before now w hr _ hstate howner _ hproposal =>
    rcases set_image hids hp hr hq hid (fun _ => rfl) with ⟨rfl, rfl⟩ | ⟨hne, rfl⟩
    · obtain ⟨hwriter, hreleased⟩ := idle_completion (s := s) hop hstate (.inr rfl)
      refine ⟨fun _ => .inr ⟨howner, ?_⟩, fun h => absurd h hwriter, fun h => absurd h hreleased⟩
      simp [begun, setProposal, hproposal]
    · refine Workflow.passes_completion hop fun status => ?_
      simp [HasWrite, or_and_right, exists_or, hproposal, Ne.symm hne]
  | finish result hr _ hstate hwrite =>
    rcases set_image hids hp hr hq hid (fun _ => rfl) with ⟨rfl, rfl⟩ | ⟨hne, rfl⟩
    · refine passes_writing hop hstate (.inl rfl) hwrite (.inl rfl) ?_
      cases result with
      | verified => exact .inl (.inl rfl)
      | importedCandidate => exact .inl (.inr ⟨rfl, rfl⟩)
      | uncertain => exact .inr ⟨rfl, .inr (hasWrite_setWrite_self hwrite rfl)⟩
    · exact Workflow.passes_completion hop fun status => hasWrite_setWrite_other hne rfl
  | @reconcile r old before outcome now status evidence hr _ hstate hwrite hfits =>
    rcases set_image hids hp hr hq hid (fun _ => rfl) with ⟨rfl, rfl⟩ | ⟨hne, rfl⟩
    · exact passes_reconciled hop hstate hwrite hfits rfl
    · refine Workflow.passes_completion hop fun status => ?_
      by_cases hmanual : evidence = .manualParent
      · exact hasWrite_setWrite_other hne (if_pos hmanual)
      · simp [HasWrite, hmanual]

/-! ## One write -/

theorem idle_transfer (hop : p.operation = .transfer) : ¬ Writer s p ∧ ¬ Released s p := by
  constructor <;> intro h
  · cases h with
    | action hop' | completion hop' => rw [hop] at hop'; cases hop'
    | record hop' => exact absurd hop'.1 (by rw [hop]; decide)
  · cases h with
    | action hop' | completion hop' => rw [hop] at hop'; cases hop'
    | record hop' => exact absurd hop'.1 (by rw [hop]; decide)

theorem Change.passes (hids : DistinctIds s) (hlinked : AcquisitionsLinked s)
    (h : Change time s s') (hp : p ∈ s.proposals) (hq : q ∈ s'.proposals) (hsame : SameRow p q) :
    Passes s s' p q := by
  cases hop : p.operation
  case consequentialAction => exact h.passes_action hids hp hq hsame.id hop
  case sessionCompletion => exact h.passes_completion hids hp hq hsame.id hop
  case transfer =>
    obtain ⟨hwriter, hreleased⟩ := idle_transfer (s := s) hop
    have hidle := idle_transfer (s := s') (hsame.operation.trans hop)
    exact ⟨fun h => absurd h hidle.1, fun h => absurd h hwriter, fun h => absurd h hreleased⟩
  all_goals
    have hrecorded : IsRecorded p := by simp [IsRecorded, hop, ProposalOperation.isGeneric]
    rcases h.keepsRecords hids hlinked hp hrecorded with hkeeps | ⟨hbegins, hnone⟩
    · exact hkeeps.passes hrecorded hsame
    · refine ⟨fun _ => .inr hbegins, fun hwriter => ?_, fun hreleased => ?_⟩
      · obtain ⟨i, ⟨_, _, a, ha, hid, _⟩, _⟩ := (writer_record_iff hrecorded).mp hwriter
        exact absurd hid (hnone a ha)
      · obtain ⟨i, ⟨_, _, a, ha, hid, _⟩, _⟩ := (released_record_iff hrecorded).mp hreleased
        exact absurd hid (hnone a ha)

theorem passes_stay (hwrites : s'.completionWrites = s.completionWrites)
    (hkeeps : IsRecorded p → KeepsRecords s s' p) : Passes s s' p p := by
  cases hop : p.operation
  case consequentialAction => exact Workflow.passes_action hop hop rfl
  case sessionCompletion =>
    exact Workflow.passes_completion hop fun status => by simp [HasWrite, hwrites]
  case transfer =>
    obtain ⟨hwriter, hreleased⟩ := idle_transfer (s := s) hop
    have hidle := idle_transfer (s := s') hop
    exact ⟨fun h => absurd h hidle.1, fun h => absurd h hwriter, fun h => absurd h hreleased⟩
  all_goals
    have hrecorded : IsRecorded p := by simp [IsRecorded, hop, ProposalOperation.isGeneric]
    exact (hkeeps hrecorded).passes hrecorded (.refl p)

theorem Change.new_row (h : Change time s s') (hq : q ∈ s'.proposals)
    (hnew : ∀ p ∈ s.proposals, p.id ≠ q.id) : ¬ Writer s' q := by
  have hold (hq : q ∈ s.proposals) : ¬ Writer s' q := absurd rfl (hnew q hq)
  have hset {id : String} {g : ProposalRow → ProposalRow}
      (hq : q ∈ (s.setProposal id g).proposals) (hg : ∀ x, (g x).id = x.id) : ¬ Writer s' q := by
    obtain ⟨x, hx, rfl⟩ := mem_map.mp hq
    refine absurd ?_ (hnew x hx)
    split
    · exact (hg x).symm
    · rfl
  cases h with
  | aside | acquire | command | strand => exact hold hq
  | @insert row hop hstate _ =>
    rcases mem_append.mp hq with hq | hq
    · exact hold hq
    · obtain rfl := mem_singleton.mp hq
      rcases hop with hop | hop
      · rw [writer_completion_iff hop]
        rintro ⟨phase, outcome, status, hsame, hphase, -⟩
        rcases hstate with hstate | hstate <;> rw [hstate] at hsame <;> cases hsame
        simp at hphase
      · exact (idle_transfer hop).1
  | withdraw | transfer | toggle | act | pending | fence | finish | reconcile | close
  | acquireAction => exact hset hq fun _ => rfl

theorem Change.origin (hids : DistinctIds s) (h : Change time s s') (hq : q ∈ s'.proposals) :
    (∃ p ∈ s.proposals, SameRow p q) ∨ ¬ Writer s' q := by
  by_cases hold : ∃ p ∈ s.proposals, p.id = q.id
  · obtain ⟨p, hp, hid⟩ := hold
    obtain ⟨f, new, hrows, hstep, -, hnew⟩ := h.rows hids
    rw [hrows] at hq
    rcases mem_append.mp hq with hq | hq
    · obtain ⟨r, hr, rfl⟩ := mem_map.mp hq
      exact .inl ⟨r, hr, (hstep r hr).sameRow⟩
    · rcases hnew with rfl | ⟨row, rfl, hfresh⟩
      · cases hq
      · rw [mem_singleton.mp hq] at hid
        exact absurd hid (hfresh p hp)
  · exact .inr (h.new_row hq fun p hp hid => hold ⟨p, hp, hid⟩)

theorem Change.stored (hids : DistinctIds s) (h : Change time s s') (hp : p ∈ s.proposals) :
    ∃ q ∈ s'.proposals, SameRow p q := by
  obtain ⟨f, new, hrows, hstep, -, -⟩ := h.rows hids
  exact ⟨f p, hrows ▸ mem_append_left _ (mem_map_of_mem hp), (hstep p hp).sameRow⟩

/-! ## Links -/

theorem AcquisitionsLinked.step (h : AcquisitionsLinked s)
    (hproposals : ∀ p ∈ s.proposals, ∃ q ∈ s'.proposals, q.id = p.id)
    (hkeys : ∀ i ∈ s.idempotency, ∃ i' ∈ s'.idempotency, i'.idempotencyKey = i.idempotencyKey)
    (hnew : ∀ a ∈ s'.acquisitions, a ∈ s.acquisitions ∨
      (∃ q ∈ s'.proposals, q.id = a.proposalId) ∧
        ∃ i' ∈ s'.idempotency, i'.idempotencyKey = a.idempotencyKey) : AcquisitionsLinked s' := by
  constructor
  · intro a ha
    rcases hnew a ha with hold | hlinked
    · obtain ⟨p, hp, hid⟩ := h.proposal a hold
      obtain ⟨q, hq, hid'⟩ := hproposals p hp
      exact ⟨q, hq, hid'.trans hid⟩
    · exact hlinked.1
  · intro a ha
    rcases hnew a ha with hold | hlinked
    · obtain ⟨i, hi, hkey⟩ := h.record a hold
      obtain ⟨i', hi', hkey'⟩ := hkeys i hi
      exact ⟨i', hi', hkey'.trans hkey⟩
    · exact hlinked.2

theorem Change.linked (hids : DistinctIds s) (hlinked : AcquisitionsLinked s)
    (h : Change time s s') : AcquisitionsLinked s' := by
  have hproposals : ∀ p ∈ s.proposals, ∃ q ∈ s'.proposals, q.id = p.id := fun p hp => by
    obtain ⟨q, hq, hsame⟩ := h.stored hids hp
    exact ⟨q, hq, hsame.id⟩
  have hclaimed {input : AcquireInput} {r : ProposalRow} (approvals : List ApprovalRow)
      (hacquires : Acquires time s input r) : ∀ a ∈ (s.claimed input r approvals).acquisitions,
        a ∈ s.acquisitions ∨ (∃ q ∈ s'.proposals, q.id = a.proposalId) ∧
          ∃ i ∈ (s.claimed input r approvals).idempotency, i.idempotencyKey = a.idempotencyKey := by
    intro a ha
    refine (mem_append.mp ha).imp_right fun ha => ?_
    rw [mem_singleton.mp ha]
    refine ⟨?_, claimRow input r, by simp [claimed], rfl⟩
    obtain ⟨q, hq, hid⟩ := hproposals r hacquires.mem
    exact ⟨q, hq, hid.trans hacquires.id⟩
  cases h with
  | aside | insert | withdraw | transfer | pending | fence | finish | reconcile | toggle | act =>
    exact hlinked.step hproposals (fun i hi => ⟨i, hi, rfl⟩) fun a ha => .inl ha
  | close | strand =>
    refine hlinked.step hproposals (fun i hi => ⟨_, mem_map_of_mem hi, ?_⟩) fun a ha => .inl ha
    split <;> rfl
  | @acquire _ _ approvals hacquires | @acquireAction _ _ approvals _ _ hacquires =>
    exact hlinked.step hproposals (fun i hi => ⟨i, mem_append_left _ hi, rfl⟩)
      (hclaimed approvals hacquires)
  | command =>
    exact hlinked.step hproposals (fun i hi => ⟨i, mem_append_left _ hi, rfl⟩)
      fun a ha => .inl ha

theorem Direct.linked (hlinked : AcquisitionsLinked s) (h : Direct s op s') :
    AcquisitionsLinked s' := by
  cases h with
  | create =>
    exact hlinked.step (fun p hp => ⟨p, mem_append_left _ hp, rfl⟩) (fun i hi => ⟨i, hi, rfl⟩)
      fun a ha => .inl ha
  | claim =>
    exact hlinked.step (fun p hp => ⟨p, hp, rfl⟩)
      (fun i hi => ⟨i, mem_append_left _ hi, rfl⟩) fun a ha => .inl ha
  | complete =>
    refine hlinked.step (fun p hp => ⟨p, hp, rfl⟩) (fun i hi => ⟨_, mem_map_of_mem hi, ?_⟩)
      fun a ha => .inl ha
    split <;> rfl
  | audit =>
    exact hlinked.step (fun p hp => ⟨p, hp, rfl⟩) (fun i hi => ⟨i, hi, rfl⟩) fun a ha => .inl ha

/-! ## The writes that a caller chose -/

/-- The caller records no start of an execution; `acquireProposalExecution` does. -/
def Op.quiet : Op → Prop
  | .appendAudit row => row.classification ≠ "execution_started"
  | _ => True

theorem Direct.passes (hlinked : AcquisitionsLinked s) (hquiet : op.quiet)
    (h : Direct s op s') : Passes s s' p p := by
  cases h with
  | create =>
    exact passes_stay rfl fun _ => keepsRecords_of id [] [] [] (by simp) (by simp) (by simp)
      (fun _ => ⟨rfl, rfl⟩) (fun _ _ => .refl _) (by simp) (by simp) (by simp)
  | @claim input row hkey _ _ _ hnew =>
    refine passes_stay rfl fun _ => keepsRecords_of id [row] [] [] (by simp) (by simp) (by simp)
      (fun _ => ⟨rfl, rfl⟩) (fun _ _ => .refl _) (fun i hi _ => ?_) (by simp) (by simp)
    rw [mem_singleton.mp hi, hkey]
    exact hlinked.unacquired hnew
  | @complete key errorMessage isRetryable =>
    refine passes_stay rfl fun _ => keepsRecords_of (fun i => if isCompletable key i then
        { i with completed := true, status := completionStatus errorMessage isRetryable } else i)
      [] [] [] (by simp) (by simp) (by simp) (fun i => by split <;> simp) (fun i _ => ?_) (by simp)
      (by simp) (by simp)
    split
    · next hcompletable =>
      simp only [isCompletable, Bool.and_eq_true, Bool.or_eq_true, beq_iff_eq] at hcompletable
      refine .inr ⟨hcompletable.2, ?_⟩
      unfold completionStatus
      repeat' split
      all_goals simp
    · exact .refl _
  | @audit row =>
    refine passes_stay rfl fun _ => keepsRecords_of id [] [] [row] (by simp) (by simp) (by simp)
      (fun _ => ⟨rfl, rfl⟩) (fun _ _ => .refl _) (by simp) (by simp) fun a ha key => ?_
    rw [mem_singleton.mp ha]
    simp [startsExecution, show row.classification ≠ "execution_started" from hquiet]

theorem Direct.origin (hlinked : AcquisitionsLinked s) (h : Direct s op s')
    (hq : q ∈ s'.proposals) : q ∈ s.proposals ∨ ¬ Writer s' q := by
  cases h with
  | @create input row hadmitted hnew =>
    refine (mem_append.mp hq).imp_right fun hrow => ?_
    obtain rfl := mem_singleton.mp hrow
    intro hwriter
    cases hwriter with
    | action hop hstate hphase =>
      rw [hadmitted.state, ← hadmitted.operation, hop] at hstate
      cases hstate
      simp at hphase
    | completion hop hstate =>
      rw [hadmitted.state, ← hadmitted.operation, hop] at hstate
      cases hstate
    | record _ hi =>
      obtain ⟨-, -, a, ha, hid, -⟩ := hi
      obtain ⟨p, hp, hid'⟩ := hlinked.proposal a ha
      have hclash := hnew p hp
      simp only [proposalClashes, Bool.or_eq_false_iff, beq_eq_false_iff_ne] at hclash
      exact hclash.1 (hid'.trans hid)
  | claim | complete | audit => exact .inl hq

/-! ## Runs -/

/-- What is released is no writer: the rows of a proposal and its acquired record are unique. -/
theorem Released.not_writer (hk : Keyed s) (h : Released s p) : ¬ Writer s p := by
  intro hwriter
  cases h with
  | action hop hstate hdone =>
    obtain ⟨state, hsame, hacquired⟩ := (writer_action_iff hop).mp hwriter
    rw [hstate] at hsame
    cases hsame
    rcases hdone with h | h <;> rw [h] at hacquired <;> cases hacquired
  | completion hop hstate hdone =>
    obtain ⟨phase, outcome, status, hsame, hphase, -⟩ := (writer_completion_iff hop).mp hwriter
    rw [hstate] at hsame
    cases hsame
    rcases hdone with rfl | ⟨rfl, -⟩ <;> simp at hphase
  | @record i hop hi hclosed =>
    obtain ⟨j, ⟨hj, -, b, hb, hid', hkey'⟩, hopen⟩ := (writer_record_iff hop).mp hwriter
    obtain ⟨hi, -, a, ha, hid, hkey⟩ := hi
    obtain rfl : a = b := inj_on_of_nodup_map hk.acquisitions ha hb (hid.trans hid'.symm)
    obtain rfl : i = j := inj_on_of_nodup_map hk.idempotency hi hj (hkey.symm.trans hkey')
    exact hopen.not_closed hclosed

/-- No budget has two writers. -/
def OneWriter (s : WorkflowStore) : Prop :=
  ∀ p ∈ s.proposals, ∀ q ∈ s.proposals, p.budgetId = q.budgetId → Writer s p → Writer s q → p = q

/-- The invariant of a run that records no start of an execution by hand. -/
structure WritersInv (s : WorkflowStore) : Prop where
  one : OneWriter s
  linked : AcquisitionsLinked s

theorem Begins.excludes (h : Begins s s' p) (hq : q ∈ s.proposals)
    (hbudget : q.budgetId = p.budgetId) (hwriter : Writer s q) : q.id = p.id := by
  by_contra hne
  have howner := any_eq_false.mp h.1 q hq
  simp [hbudget, hne, hwriter.owns] at howner

theorem OneWriter.step (hids : DistinctIds s') (hone : OneWriter s)
    (horigin : ∀ q ∈ s'.proposals, Writer s' q → ∃ p ∈ s.proposals, SameRow p q ∧
      (Writer s p ∨ Begins s s' p)) : OneWriter s' := by
  intro p' hp' q' hq' hbudget hwriter hwriter'
  obtain ⟨p, hp, hsame, hbefore⟩ := horigin p' hp' hwriter
  obtain ⟨q, hq, hsame', hbefore'⟩ := horigin q' hq' hwriter'
  have hbudget : p.budgetId = q.budgetId := by rw [← hsame.budget, ← hsame'.budget, hbudget]
  have hid : p.id = q.id := by
    rcases hbefore with hwriter | hbegins <;> rcases hbefore' with hwriter' | hbegins'
    · rw [hone p hp q hq hbudget hwriter hwriter']
    · exact hbegins'.excludes hp hbudget hwriter
    · exact (hbegins.excludes hq hbudget.symm hwriter').symm
    · simpa using hbegins.2.symm.trans hbegins'.2
  exact hids.eq_of_id hp' hq' (by rw [hsame.id, hsame'.id, hid])

/-- Proposals stay, a writer stays one or is released, and what is released stays released. -/
def Passed (s s' : WorkflowStore) : Prop :=
  ∀ p ∈ s.proposals, ∃ q ∈ s'.proposals, SameRow p q ∧
    (Writer s p → Writer s' q ∨ Released s' q) ∧ (Released s p → Released s' q)

theorem Passed.refl (s : WorkflowStore) : Passed s s := fun p hp => ⟨p, hp, .refl p, .inl, id⟩

theorem SameRow.trans (h₁ : SameRow p q) (h₂ : SameRow q r) : SameRow p r :=
  ⟨h₂.id.trans h₁.id, h₂.operation.trans h₁.operation, h₂.budget.trans h₁.budget,
    h₂.payload.trans h₁.payload, h₂.hash.trans h₁.hash, h₂.expires.trans h₁.expires⟩

theorem Passed.trans {s'' : WorkflowStore} (h₁ : Passed s s') (h₂ : Passed s' s'') :
    Passed s s'' := by
  intro p hp
  obtain ⟨q, hq, hsame, hwriter, hreleased⟩ := h₁ p hp
  obtain ⟨r, hr, hsame', hwriter', hreleased'⟩ := h₂ q hq
  refine ⟨r, hr, hsame.trans hsame', fun h => ?_, fun h => hreleased' (hreleased h)⟩
  exact (hwriter h).elim hwriter' fun h => .inr (hreleased' h)

theorem Change.writers (hk : Keyed s) (hs : WritersInv s) (h : Change time s s') :
    WritersInv s' ∧ Passed s s' := by
  refine ⟨⟨?_, h.linked hk.proposals hs.linked⟩, fun p hp => ?_⟩
  · refine hs.one.step (h.keyed hk).proposals fun q hq hwriter => ?_
    rcases h.origin hk.proposals hq with ⟨p, hp, hsame⟩ | hnot
    · exact ⟨p, hp, hsame, (h.passes hk.proposals hs.linked hp hq hsame).before hwriter⟩
    · exact absurd hwriter hnot
  · obtain ⟨q, hq, hsame⟩ := h.stored hk.proposals hp
    have hpasses := h.passes hk.proposals hs.linked hp hq hsame
    exact ⟨q, hq, hsame, hpasses.after, hpasses.released⟩

theorem Direct.writers (hk : Keyed s) (hs : WritersInv s) (hquiet : op.quiet)
    (h : Direct s op s') : WritersInv s' ∧ Passed s s' := by
  refine ⟨⟨?_, h.linked hs.linked⟩, fun p hp => ?_⟩
  · refine hs.one.step (h.keyed hk).proposals fun q hq hwriter => ?_
    rcases h.origin hs.linked hq with hq | hnot
    · exact ⟨q, hq, .refl q, (h.passes hs.linked hquiet).before hwriter⟩
    · exact absurd hwriter hnot
  · have hpasses : Passes s s' p p := h.passes hs.linked hquiet
    refine ⟨p, ?_, .refl p, hpasses.after, hpasses.released⟩
    cases h with
    | create => exact mem_append_left _ hp
    | claim | complete | audit => exact hp

theorem run_writers {ops : List Op} (hk : Keyed s) (hs : WritersInv s)
    (hquiet : ∀ op ∈ ops, op.quiet) :
    Keyed (run host s ops) ∧ WritersInv (run host s ops) ∧ Passed s (run host s ops) := by
  refine run_writes (P := fun t => WritersInv t ∧ Passed s t) hk ⟨hs, .refl s⟩ ?_ ?_
  · intro time t t' hk hP hwrite
    obtain ⟨hinv, hpassed⟩ := hwrite.writers hk hP.1
    exact ⟨hinv, hP.2.trans hpassed⟩
  · intro op hop t t' hk hP hwrite
    obtain ⟨hinv, hpassed⟩ := hwrite.writers hk hP.1 (hquiet op hop)
    exact ⟨hinv, hP.2.trans hpassed⟩

theorem emptyStore_writers (governance : GovernanceDb)
    (policyHashes : List (String × String × String)) :
    WritersInv (emptyStore governance policyHashes) :=
  ⟨fun _ hp => absurd hp not_mem_nil, fun _ ha => absurd ha not_mem_nil,
    fun _ ha => absurd ha not_mem_nil⟩

end BalanceFrame.Workflow
