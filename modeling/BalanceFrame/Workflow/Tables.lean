import BalanceFrame.Workflow.OpChanges

/-!
# Rows and keys over a run

`RowStep` is what one write does to the row of a proposal, and `Change.rows` that a write steps
every stored row and adds none but those of session completions and transfers. The keys of the
tables stay distinct (`Keyed`), and `run_writes` reduces an invariant of runs to the single writes.
-/

namespace BalanceFrame.Workflow

open Library
open Governance
open Relation (ReflTransGen)
open WorkflowStore

variable {host : Host} {time : Option String} {s s' : WorkflowStore}

/-! ## Rows -/

/-- The columns no operation changes. -/
structure SameRow (p q : ProposalRow) : Prop where
  id : q.id = p.id
  operation : q.operation = p.operation
  budget : q.budgetId = p.budgetId
  payload : q.payload = p.payload
  hash : q.payloadHash = p.payloadHash
  expires : q.expiresAt = p.expiresAt

theorem SameRow.refl (p : ProposalRow) : SameRow p p := ⟨rfl, rfl, rfl, rfl, rfl, rfl⟩

/-- What one write does to the row of a proposal. -/
inductive RowStep (time : Option String) (p : ProposalRow) : ProposalRow → Prop
  | same : RowStep time p p
  | other {q} (hop : p.operation ≠ .consequentialAction) (hsame : SameRow p q) : RowStep time p q
  | withdraw {now} (hopen : truthy p.supersededAt = none) :
      RowStep time p { p with supersededAt := some now }
  | toggle {state phase} (hstate : p.state = .action state)
      (hfrom : state.phase = .proposed ∨ state.phase = .approved)
      (hto : phase = .proposed ∨ phase = .approved) :
      RowStep time p (p.moved { state with phase })
  | act {plan state state'} (hstate : p.state = .action state)
      (hplan : p.payload.plan? = some plan) (hmove : Moves plan state state') :
      RowStep time p (p.moved state')
  | finish {plan state state' status} (hstate : p.state = .action state)
      (hplan : p.payload.plan? = some plan) (hfinish : Finishes plan state state' status) :
      RowStep time p (p.moved state')
  | acquire {state acquisition now instant expiry} (hstate : p.state = .action state)
      (hphase : state.phase = .proposed ∨ state.phase = .approved)
      (hnow : time = some now) (hinstant : timestampMillis now = some instant)
      (hexpiry : timestampMillis p.expiresAt = some expiry) (hopen : instant < expiry)
      (hunsuperseded : truthy p.supersededAt = none) :
      RowStep time p (p.moved { state with phase := .writeIntent, acquisition := some acquisition })

theorem RowStep.sameRow {p q : ProposalRow} (h : RowStep time p q) : SameRow p q := by
  cases h with
  | other _ hsame => exact hsame
  | _ => exact ⟨rfl, rfl, rfl, rfl, rfl, rfl⟩

theorem rows_setProposal (hids : DistinctIds s) {p : ProposalRow} {f : ProposalRow → ProposalRow}
    (hp : p ∈ s.proposals) (hstep : RowStep time p (f p)) :
    ∀ q ∈ s.proposals, RowStep time q (if q.id = p.id then f q else q) := by
  intro q hq
  split
  · next hid =>
    obtain rfl := hids.eq_of_id hq hp hid
    exact hstep
  · exact .same

/-- Every row is stepped, and new rows are of other workflows. -/
def RowsStepped (time : Option String) (before after : List ProposalRow) : Prop :=
  ∃ f new, after = before.map f ++ new ∧ (∀ p ∈ before, RowStep time p (f p)) ∧
    (∀ row ∈ new, row.operation ≠ .consequentialAction) ∧
    (new = [] ∨ ∃ row, new = [row] ∧ ∀ p ∈ before, p.id ≠ row.id)

theorem RowsStepped.refl (l : List ProposalRow) : RowsStepped time l l :=
  ⟨id, [], by simp, fun _ _ => .same, by simp, .inl rfl⟩

theorem Change.rows (hids : DistinctIds s) (h : Change time s s') :
    RowsStepped time s.proposals s'.proposals := by
  have hset {p : ProposalRow} {g : ProposalRow → ProposalRow} (hp : p ∈ s.proposals)
      (hstep : RowStep time p (g p)) :
      RowsStepped time s.proposals (s.proposals.map fun q => if q.id = p.id then g q else q) :=
    ⟨_, [], by simp, rows_setProposal hids hp hstep, by simp, .inl rfl⟩
  have hother {p : ProposalRow} {g : ProposalRow → ProposalRow} (hp : p ∈ s.proposals)
      (hop : p.operation ≠ .consequentialAction) (hsame : SameRow p (g p)) :
      RowsStepped time s.proposals (s.proposals.map fun q => if q.id = p.id then g q else q) :=
    hset hp (.other hop hsame)
  cases h with
  | aside | acquire | command | strand => exact .refl _
  | insert hop _ hid =>
    exact ⟨id, [_], by simp, fun _ _ => .same, by rcases hop with h | h <;> simp [h],
      .inr ⟨_, rfl, hid⟩⟩
  | withdraw hp _ hopen => exact hset hp (.withdraw hopen)
  | transfer hp hop => exact hother hp (by simp [hop]) ⟨rfl, rfl, rfl, rfl, rfl, rfl⟩
  | pending hp hop | fence hp hop | finish _ hp hop | reconcile _ hp hop =>
    exact hother hp (by simp [hop]) ⟨rfl, rfl, rfl, rfl, rfl, rfl⟩
  | toggle hp _ hstate hfrom hto => exact hset hp (.toggle hstate hfrom hto)
  | act hp _ hstate hplan hmove => exact hset hp (.act hstate hplan hmove)
  | close hp _ hstate hplan hfinish => exact hset hp (.finish hstate hplan hfinish)
  | acquireAction hacquires _ _ _ hstate hphase =>
    obtain ⟨instant, expiry, hinstant, hexpiry, hopen⟩ := hacquires.unexpired
    exact hset hacquires.mem (.acquire hstate hphase hacquires.now hinstant hexpiry hopen
      hacquires.unsuperseded)

theorem RowsStepped.distinct {before after : List ProposalRow}
    (h : RowsStepped time before after) (hids : (before.map (·.id)).Nodup) :
    (after.map (·.id)).Nodup := by
  obtain ⟨f, new, rfl, hstep, -, hnew⟩ := h
  have hkeep : (before.map f).map (·.id) = before.map (·.id) := by
    rw [List.map_map]
    exact List.map_congr_left fun p hp => (hstep p hp).sameRow.id
  rw [List.map_append, hkeep]
  rcases hnew with rfl | ⟨row, rfl, hfresh⟩
  · simpa using hids
  · exact List.nodup_append.mpr ⟨hids, by simp, by simpa using hfresh⟩

/-! ## Keys -/

/-- The keys of the tables are distinct. -/
structure Keyed (s : WorkflowStore) : Prop where
  proposals : DistinctIds s
  approvals : (s.approvals.map (·.id)).Nodup
  idempotency : (s.idempotency.map (·.idempotencyKey)).Nodup
  acquisitions : (s.acquisitions.map (·.proposalId)).Nodup
  audits : (s.audits.map (·.id)).Nodup

theorem nodup_snoc {α κ : Type} {key : α → κ} {l : List α} {row : α} (h : (l.map key).Nodup)
    (hnew : ∀ a ∈ l, key a ≠ key row) : ((l ++ [row]).map key).Nodup := by
  rw [List.map_append]
  exact List.nodup_append.mpr ⟨h, by simp, by simpa using hnew⟩

theorem nodup_update {α κ : Type} {key : α → κ} {l : List α} {f : α → α}
    (h : (l.map key).Nodup) (hf : ∀ a, key (f a) = key a) : ((l.map f).map key).Nodup := by
  have hkeep : key ∘ f = key := funext hf
  rwa [List.map_map, hkeep]

theorem ApprovalsKept.nodup {before after : List ApprovalRow} (h : ApprovalsKept before after)
    (hids : (before.map (·.id)).Nodup) : (after.map (·.id)).Nodup := by
  obtain ⟨f, new, rfl, hf, hnew, hfresh⟩ := h
  have hkeep : (before.map f).map (·.id) = before.map (·.id) := by
    rw [List.map_map]
    exact List.map_congr_left fun a ha => (hf a ha).1
  rw [List.map_append, hkeep]
  refine List.nodup_append.mpr ⟨hids, hnew, fun x hx y hy => ?_⟩
  obtain ⟨a, ha, rfl⟩ := List.mem_map.mp hx
  obtain ⟨b, hb, rfl⟩ := List.mem_map.mp hy
  exact (hfresh a ha b hb).symm

theorem AuditsAdded.nodup {before after : List AuditRow} (h : AuditsAdded before after)
    (hids : (before.map (·.id)).Nodup) : (after.map (·.id)).Nodup := by
  obtain ⟨new, rfl, hnew, hfresh, -⟩ := h
  rw [List.map_append]
  refine List.nodup_append.mpr ⟨hids, hnew, fun x hx y hy => ?_⟩
  obtain ⟨a, ha, rfl⟩ := List.mem_map.mp hx
  obtain ⟨b, hb, rfl⟩ := List.mem_map.mp hy
  exact (hfresh a ha b hb).symm

theorem Change.keyed (hk : Keyed s) (h : Change time s s') : Keyed s' := by
  have hids : DistinctIds s' := (h.rows hk.proposals).distinct hk.proposals
  obtain ⟨-, happrovals, hidempotency, hacquisitions, haudits⟩ := hk
  cases h with
  | aside hkept hadded =>
    exact ⟨hids, hkept.nodup happrovals, hidempotency, hacquisitions, hadded.nodup haudits⟩
  | close =>
    refine ⟨hids, happrovals, nodup_update hidempotency fun i => ?_, hacquisitions, haudits⟩
    split <;> rfl
  | strand now =>
    refine ⟨hids, happrovals, nodup_update hidempotency fun i => ?_, hacquisitions, haudits⟩
    split <;> rfl
  | command hkey => exact ⟨hids, happrovals, nodup_snoc hidempotency hkey, hacquisitions, haudits⟩
  | acquire hacquires | acquireAction hacquires =>
    exact ⟨hids, happrovals, nodup_snoc hidempotency hacquires.keyFree,
      nodup_snoc hacquisitions fun a ha => (hacquires.unacquired a ha).1,
      nodup_snoc haudits hacquires.auditFree⟩
  | _ => exact ⟨hids, happrovals, hidempotency, hacquisitions, haudits⟩

theorem Direct.keyed {op : Op} (hk : Keyed s) (h : Direct s op s') : Keyed s' := by
  obtain ⟨hids, happrovals, hidempotency, hacquisitions, haudits⟩ := hk
  cases h with
  | create hadmitted hnew =>
    refine ⟨nodup_snoc hids fun p hp => ?_, happrovals, hidempotency, hacquisitions, haudits⟩
    have hclash := hnew p hp
    simp only [proposalClashes, Bool.or_eq_false_iff, beq_eq_false_iff_ne] at hclash
    exact hclash.1
  | claim hkey _ _ _ hnew =>
    exact ⟨hids, happrovals, nodup_snoc hidempotency (by rwa [hkey]), hacquisitions, haudits⟩
  | complete =>
    refine ⟨hids, happrovals, nodup_update hidempotency fun i => ?_, hacquisitions, haudits⟩
    split <;> rfl
  | audit hnew =>
    exact ⟨hids, happrovals, hidempotency, hacquisitions, nodup_snoc haudits hnew⟩

/-! ## Runs -/

theorem apply_writes {P : WorkflowStore → Prop} {op : Op} (hk : Keyed s) (hP : P s)
    (hchange : ∀ s s', Keyed s → P s → Change op.now s s' → P s')
    (hdirect : ∀ s', Direct s op s' → P s') (h : apply host s op = .ok s') : Keyed s' ∧ P s' := by
  rcases apply_changes hk.proposals h with hwrites | hwrite
  · clear h hdirect
    induction hwrites with
    | refl => exact ⟨hk, hP⟩
    | tail _ hwrite ih => exact ⟨hwrite.keyed ih.1, hchange _ _ ih.1 ih.2 hwrite⟩
  · exact ⟨hwrite.keyed hk, hdirect _ hwrite⟩

theorem run_writes {P : WorkflowStore → Prop} {ops : List Op} (hk : Keyed s) (hP : P s)
    (hchange : ∀ time s s', Keyed s → P s → Change time s s' → P s')
    (hdirect : ∀ op ∈ ops, ∀ s s', Keyed s → P s → Direct s op s' → P s') :
    Keyed (run host s ops) ∧ P (run host s ops) := by
  refine run_inv host (P := fun s => Keyed s ∧ P s) ⟨hk, hP⟩ fun s op s' hop hs h => ?_
  exact apply_writes hs.1 hs.2 (hchange op.now) (fun s' => hdirect op hop s s' hs.1 hs.2) h

/-- The store before the first operation: nothing but the governance tables. -/
def emptyStore (governance : GovernanceDb) (policyHashes : List (String × String × String)) :
    WorkflowStore :=
  { governance, policyHashes }

theorem emptyStore_keyed (governance : GovernanceDb)
    (policyHashes : List (String × String × String)) : Keyed (emptyStore governance policyHashes) :=
  ⟨.nil, .nil, .nil, .nil, .nil⟩

end BalanceFrame.Workflow
