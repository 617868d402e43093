import BalanceFrame.Workflow.Tables

/-!
# The life of a consequential action

What holds of a stored action in every state of a run: its effects are a prefix of its plan's atoms
in order, an action that is proposed or approved has neither acquisition nor effects, a verified one
has one effect for each atom, an invalidated one has none, and its claim is in progress exactly
while the action is acquired and succeeded exactly when it is verified (`ActionOk`). What a later
state keeps of it is `Keeps`.

`completeIdempotencyRecord` takes any key, also that of an acquired action, and
`createIdempotencyRecord` takes any proposal; the runs that use neither on an action are
`OrderlyRun`. Both statements that handle stranded claims leave out the claims of acquired actions,
the one that completes a claim does not.

The effects are a matter of single rows (`RowStep.effectsOk`), the claims one of three tables that
change together (`Change.synced`).
-/

namespace BalanceFrame.Workflow

open Library List Bool
open Governance
open Relation (ReflTransGen)
open WorkflowStore

variable {key id : String} {phase : ActionPhase} {p q : ProposalRow} {rows : List IdempotencyRow}
  {status : IdempotencyStatus} {acquisitions : List AcquisitionRow} {op : Op}

/-! ## Effects -/

/-- What an effect names: its index, the index of its atom and of the dispatch, kind and identity. -/
def ActionEffect.identity (e : ActionEffect) : Nat × Nat × Nat × ActionKind × StableIdentity :=
  (e.effectIndex, e.atomIndex, e.dispatchIndex, e.actionKind, e.stableIdentity)

/-- What the effects of a plan have to name. -/
def Plan.identities (plan : Plan) : List (Nat × Nat × Nat × ActionKind × StableIdentity) :=
  plan.atoms.zipIdx.map fun (atom, k) => (k, k, 0, atom.kind, atom.stableIdentity)

/-- The effects of an action fit its plan and its phase. -/
structure EffectsOk (plan : Plan) (state : ActionState) : Prop where
  isPrefix : state.effects.map (·.identity) <+: plan.identities
  unacquired : state.phase = .proposed ∨ state.phase = .approved →
    state.acquisition = none ∧ state.effects = []
  invalidated : state.phase = .invalidatedNoDispatch → state.effects = []
  verified : state.phase = .verified → state.effects.length = plan.atoms.length

theorem identities_append {plan : Plan} {effects new : List ActionEffect}
    (h : effects.map (·.identity) <+: plan.identities)
    (hnew : EffectsFrom plan.atoms effects.length new) :
    (effects ++ new).map (·.identity) <+: plan.identities := by
  rw [prefix_iff_getElem?] at h ⊢
  intro i hi
  rw [length_map, length_append] at hi
  by_cases hlt : i < effects.length
  · rw [h i (by simpa using hlt)]
    simp only [getElem_map, getElem_append_left hlt]
  · obtain ⟨k, rfl⟩ := Nat.exists_eq_add_of_le (Nat.le_of_not_lt hlt)
    obtain ⟨atom, hatom, result, now, heq⟩ := hnew k (by omega)
    rw [get_eq_getElem] at heq
    simp [Plan.identities, hatom, getElem_append_right, heq, effectOf, ActionEffect.identity]

variable {host : Host} {time : Option String} {s s' : WorkflowStore}

theorem acquired_iff : phase.acquired = true ↔ phase = .writeIntent ∨ phase = .reviewRequired := by
  cases phase <;> simp [ActionPhase.acquired]

theorem RowStep.effectsOk {plan : Plan} {state : ActionState}
    (h : RowStep time p q) (hop : p.operation = .consequentialAction)
    (hpayload : p.payload = .action plan) (hstate : p.state = .action state)
    (hok : EffectsOk plan state) : ∃ state', q.state = .action state' ∧ EffectsOk plan state' := by
  have hplan : p.payload.plan? = some plan := by rw [hpayload]; rfl
  cases h with
  | same | withdraw => exact ⟨state, hstate, hok⟩
  | other hnot => exact absurd hop hnot
  | toggle hstate' hfrom hto =>
    obtain rfl : state = _ := by simpa [hstate] using hstate'
    refine ⟨_, rfl, hok.isPrefix, fun _ => hok.unacquired hfrom, ?_, ?_⟩ <;>
      rcases hto with rfl | rfl <;> simp
  | act hstate' hplan' hmove =>
    obtain rfl : state = _ := by simpa [hstate] using hstate'
    obtain rfl : plan = _ := by simpa [hplan] using hplan'
    cases hmove with
    | effects hphase hnew =>
      refine ⟨_, rfl, identities_append hok.isPrefix hnew, ?_, ?_, ?_⟩ <;>
        rcases acquired_iff.mp hphase with h | h <;> simp [h]
    | review hphase =>
      exact ⟨_, rfl, hok.isPrefix, by simp [reviewState], by simp [reviewState],
        by simp [reviewState]⟩
  | finish hstate' hplan' hfinish =>
    obtain rfl : state = _ := by simpa [hstate] using hstate'
    obtain rfl : plan = _ := by simpa [hplan] using hplan'
    cases hfinish with
    | verified hphase hall =>
      exact ⟨_, rfl, hok.isPrefix, by simp [verifiedState], by simp [verifiedState],
        fun _ => hall.symm⟩
    | invalidated hphase hnone =>
      exact ⟨_, rfl, hok.isPrefix, by simp [invalidatedState], fun _ => hnone,
        by simp [invalidatedState]⟩
  | acquire hstate' =>
    obtain rfl : state = _ := by simpa [hstate] using hstate'
    exact ⟨_, rfl, hok.isPrefix, by simp, by simp, by simp⟩

/-! ## Claims -/

/-- A row of the idempotency table claims the execution of an action under a key. -/
def ClaimsAction (key proposalId : String) (i : IdempotencyRow) : Prop :=
  i.idempotencyKey = key ∧ i.proposalId = proposalId ∧
    i.operation = ProposalOperation.consequentialAction.text

/-- A claim of an action has a status. -/
def HasClaim (rows : List IdempotencyRow) (key proposalId : String) (status : IdempotencyStatus) :
    Prop :=
  ∃ i ∈ rows, ClaimsAction key proposalId i ∧ i.status = status

/-- The claim and the acquisition of an action fit its phase. -/
structure Synced (rows : List IdempotencyRow) (acquisitions : List AcquisitionRow)
    (key proposalId : String) (phase : ActionPhase) : Prop where
  unacquired : phase = .proposed ∨ phase = .approved →
    ∀ a ∈ acquisitions, a.proposalId ≠ proposalId
  inProgress : HasClaim rows key proposalId .inProgress ↔
    phase = .writeIntent ∨ phase = .reviewRequired
  succeeded : HasClaim rows key proposalId .succeeded ↔ phase = .verified
  unretried : ¬ HasClaim rows key proposalId .retryableFailed

theorem hasClaim_append {row : IdempotencyRow} : HasClaim (rows ++ [row]) key id status ↔
      HasClaim rows key id status ∨ ClaimsAction key id row ∧ row.status = status := by
  simp [HasClaim, or_and_right, exists_or]

theorem hasClaim_map {f : IdempotencyRow → IdempotencyRow}
    (hkeep : ∀ i, (f i).idempotencyKey = i.idempotencyKey ∧ (f i).proposalId = i.proposalId ∧
      (f i).operation = i.operation)
    (hsame : ∀ i ∈ rows, ClaimsAction key id i → (f i).status = i.status) :
    HasClaim (rows.map f) key id status ↔ HasClaim rows key id status := by
  have hclaims : ∀ i, ClaimsAction key id (f i) ↔ ClaimsAction key id i := fun i => by
    obtain ⟨h₁, h₂, h₃⟩ := hkeep i
    simp [ClaimsAction, h₁, h₂, h₃]
  constructor
  · rintro ⟨_, hmem, hclaim, hstatus⟩
    obtain ⟨i, hi, rfl⟩ := mem_map.mp hmem
    have hclaim := (hclaims i).mp hclaim
    exact ⟨i, hi, hclaim, hsame i hi hclaim ▸ hstatus⟩
  · rintro ⟨i, hi, hclaim, hstatus⟩
    exact ⟨f i, mem_map_of_mem hi, (hclaims i).mpr hclaim, (hsame i hi hclaim).trans hstatus⟩

/-- The claims of all stored actions fit their phases, and only stored proposals are acquired. -/
structure StoreSynced (s : WorkflowStore) : Prop where
  action : ∀ p ∈ s.proposals, p.operation = .consequentialAction → ∀ plan state,
    p.payload = .action plan → p.state = .action state →
      Synced s.idempotency s.acquisitions plan.idempotencyKey p.id state.phase
  linked : ∀ a ∈ s.acquisitions, ∃ p ∈ s.proposals, p.id = a.proposalId

theorem hasClaim_iff (hkeys : (rows.map (·.idempotencyKey)).Nodup)
    {i : IdempotencyRow} (hi : i ∈ rows) (hclaim : ClaimsAction key id i)
    : HasClaim rows key id status ↔ i.status = status := by
  constructor
  · rintro ⟨j, hj, hj', hstatus⟩
    obtain rfl := inj_on_of_nodup_map hkeys hi hj (hclaim.1.trans hj'.1.symm)
    exact hstatus
  · exact fun hstatus => ⟨i, hi, hclaim, hstatus⟩

theorem StoreSynced.tables (hs : StoreSynced s) (hrows : s'.proposals = s.proposals)
    (hkeep : ∀ p ∈ s.proposals, p.operation = .consequentialAction → ∀ key state,
      p.state = .action state → Synced s.idempotency s.acquisitions key p.id state.phase →
        Synced s'.idempotency s'.acquisitions key p.id state.phase)
    (hlinked : ∀ a ∈ s'.acquisitions, a ∈ s.acquisitions ∨ ∃ p ∈ s.proposals, p.id = a.proposalId) :
    StoreSynced s' where
  action p hp hop plan state hpayload hstate := by
    rw [hrows] at hp
    exact hkeep p hp hop _ state hstate (hs.action p hp hop plan state hpayload hstate)
  linked a ha := by
    rw [hrows]
    exact (hlinked a ha).elim (hs.linked a) id

theorem StoreSynced.set (hs : StoreSynced s) (hids : DistinctIds s)
    {g : ProposalRow → ProposalRow} (hp : p ∈ s.proposals) (hsame : SameRow p (g p))
    (hrows : s'.proposals = s.proposals.map fun q => if q.id = p.id then g q else q)
    (hothers : ∀ key id phase, id ≠ p.id → Synced s.idempotency s.acquisitions key id phase →
      Synced s'.idempotency s'.acquisitions key id phase)
    (hself : p.operation = .consequentialAction → ∀ plan state, p.payload = .action plan →
      (g p).state = .action state →
        Synced s'.idempotency s'.acquisitions plan.idempotencyKey p.id state.phase)
    (hlinked : ∀ a ∈ s'.acquisitions, a ∈ s.acquisitions ∨ a.proposalId = p.id) :
    StoreSynced s' where
  action q hq hop plan state hpayload hstate := by
    rw [hrows] at hq
    obtain ⟨r, hr, rfl⟩ := mem_map.mp hq
    split at hop
    · next hid =>
      obtain rfl := hids.eq_of_id hr hp hid
      rw [if_pos rfl] at hpayload hstate ⊢
      rw [hsame.operation] at hop
      rw [hsame.payload] at hpayload
      rw [hsame.id]
      exact hself hop plan state hpayload hstate
    · next hid =>
      rw [if_neg hid] at hpayload hstate ⊢
      exact hothers _ _ _ hid (hs.action r hr hop plan state hpayload hstate)
  linked a ha := by
    have hstored : ∃ r ∈ s.proposals, r.id = a.proposalId := by
      rcases hlinked a ha with h | h
      · exact hs.linked a h
      · exact ⟨p, hp, h.symm⟩
    obtain ⟨r, hr, hid⟩ := hstored
    refine ⟨_, hrows ▸ mem_map_of_mem hr, ?_⟩
    split
    · next heq =>
      obtain rfl := hids.eq_of_id hr hp heq
      rw [hsame.id, hid]
    · exact hid

theorem Synced.toggle {phase' : ActionPhase} (h : Synced rows acquisitions key id phase)
    (hfrom : phase = .proposed ∨ phase = .approved) (hto : phase' = .proposed ∨ phase' = .approved) :
    Synced rows acquisitions key id phase' where
  unacquired _ := h.unacquired hfrom
  inProgress := by
    rw [h.inProgress]
    rcases hfrom with rfl | rfl <;> rcases hto with rfl | rfl <;> simp
  succeeded := by
    rw [h.succeeded]
    rcases hfrom with rfl | rfl <;> rcases hto with rfl | rfl <;> simp
  unretried := h.unretried

theorem Synced.stay {phase' : ActionPhase} (h : Synced rows acquisitions key id phase)
    (hfrom : phase.acquired = true) (hto : phase'.acquired = true) :
    Synced rows acquisitions key id phase' where
  unacquired hphase := by rcases hphase with rfl | rfl <;> cases hto
  inProgress := by
    rw [h.inProgress, ← acquired_iff, ← acquired_iff, hfrom, hto]
  succeeded := by
    rw [h.succeeded]
    cases phase <;> cases hfrom <;> cases phase' <;> cases hto <;> simp
  unretried := h.unretried

theorem Synced.closed (hkeys : (s.idempotency.map (·.idempotencyKey)).Nodup)
    (hclaim : ∃ i ∈ s.idempotency, isOpenClaim key id i = true)
    (hstatus : status = .succeeded ∧ phase = .verified ∨
      status = .terminalFailed ∧ phase = .invalidatedNoDispatch) :
    Synced (s.closedClaims key id status) s.acquisitions key id phase := by
  obtain ⟨i, hi, hopen⟩ := hclaim
  have hmem := mem_map_of_mem (f := fun i : IdempotencyRow => if isOpenClaim key id i then
    { i with completed := true, status := status, leaseExpiresAt := none } else i) hi
  rw [if_pos hopen] at hmem
  have hkeys' : ((s.closedClaims key id status).map (·.idempotencyKey)).Nodup :=
    nodup_update hkeys fun j => by split <;> rfl
  simp only [isOpenClaim, and_eq_true, beq_iff_eq] at hopen
  have hclaims {status' : IdempotencyStatus} :
      HasClaim (s.closedClaims key id status) key id status' ↔ status = status' :=
    hasClaim_iff hkeys' hmem ⟨hopen.1.1.1.1, hopen.1.1.1.2, hopen.1.1.2⟩
  rcases hstatus with ⟨rfl, rfl⟩ | ⟨rfl, rfl⟩ <;> constructor <;> simp [hclaims]

theorem Synced.closed_other {key' id' : String} (hid : id' ≠ id)
    (h : Synced s.idempotency s.acquisitions key' id' phase) :
    Synced (s.closedClaims key id status) s.acquisitions key' id' phase := by
  have hclaims {status' : IdempotencyStatus} :
      HasClaim (s.closedClaims key id status) key' id' status' ↔
        HasClaim s.idempotency key' id' status' := by
    refine hasClaim_map (fun i => by split <;> simp) fun i _ hclaim => ?_
    split
    · next hopen =>
      simp only [isOpenClaim, and_eq_true, beq_iff_eq] at hopen
      exact absurd (hclaim.2.1.symm.trans hopen.1.1.1.2) hid
    · rfl
  exact ⟨h.unacquired, hclaims.trans h.inProgress, hclaims.trans h.succeeded,
    fun hretry => h.unretried (hclaims.mp hretry)⟩

theorem Synced.append {row : IdempotencyRow}
    (h : Synced rows acquisitions key id phase) (hrow : ¬ ClaimsAction key id row) :
    Synced (rows ++ [row]) acquisitions key id phase where
  unacquired := h.unacquired
  inProgress := by simpa [hasClaim_append, hrow] using h.inProgress
  succeeded := by simpa [hasClaim_append, hrow] using h.succeeded
  unretried := by simpa [hasClaim_append, hrow] using h.unretried

theorem Synced.acquired_other {input : AcquireInput}
    (h : Synced s.idempotency s.acquisitions key id phase)
    (hid : id ≠ input.proposalId) :
    Synced (s.idempotency ++ [claimRow input p]) (s.acquisitions ++ [acquisitionRow input]) key id
      phase := by
  have hrow : ¬ ClaimsAction key id (claimRow input p) := fun hclaim => hid hclaim.2.1.symm
  have h' := h.append hrow
  refine ⟨fun hphase a ha => ?_, h'.inProgress, h'.succeeded, h'.unretried⟩
  rcases mem_append.mp ha with ha | ha
  · exact h.unacquired hphase a ha
  · rw [mem_singleton.mp ha]
    exact hid.symm

theorem Synced.acquired_self {input : AcquireInput}
    (hop : p.operation = .consequentialAction) (hid : p.id = input.proposalId)
    (hkey : ∀ i ∈ s.idempotency, i.idempotencyKey ≠ input.idempotencyKey) :
    Synced (s.idempotency ++ [claimRow input p]) (s.acquisitions ++ [acquisitionRow input])
      input.idempotencyKey p.id .writeIntent := by
  have hnone {status : IdempotencyStatus} :
      ¬ HasClaim s.idempotency input.idempotencyKey p.id status := by
    rintro ⟨i, hi, hclaim, -⟩
    exact hkey i hi hclaim.1
  have hclaims : ClaimsAction input.idempotencyKey p.id (claimRow input p) :=
    ⟨rfl, hid.symm, by rw [← hop]; rfl⟩
  have hstatus : (claimRow input p).status = .inProgress := rfl
  constructor <;> simp [hasClaim_append, hnone, hclaims, hstatus]

theorem Change.synced (hk : Keyed s) (hs : StoreSynced s) (h : Change time s s') :
    StoreSynced s' := by
  have hids := hk.proposals
  have hsame (p : ProposalRow) (state : ActionState) : SameRow p (p.moved state) :=
    ⟨rfl, rfl, rfl, rfl, rfl, rfl⟩
  -- a row of another workflow is stepped, the tables stay
  have hother {p : ProposalRow} {g : ProposalRow → ProposalRow} {s' : WorkflowStore}
      (hp : p ∈ s.proposals) (hop : p.operation ≠ .consequentialAction) (hrow : SameRow p (g p))
      (hrows : s'.proposals = s.proposals.map fun q => if q.id = p.id then g q else q)
      (hidempotency : s'.idempotency = s.idempotency)
      (hacquisitions : s'.acquisitions = s.acquisitions) : StoreSynced s' :=
    hs.set hids hp hrow hrows (fun _ _ _ _ hsync => by rwa [hidempotency, hacquisitions])
      (fun hop' => absurd hop' hop) (fun a ha => .inl (hacquisitions ▸ ha))
  cases h with
  | aside => exact hs.tables rfl (fun _ _ _ _ _ _ hsync => hsync) fun a ha => .inl ha
  | insert hop =>
    constructor
    · intro p hp hop'
      rcases mem_append.mp hp with hp | hp
      · exact hs.action p hp hop'
      · rw [mem_singleton.mp hp] at hop'
        rcases hop with h | h <;> rw [h] at hop' <;> cases hop'
    · intro a ha
      obtain ⟨p, hp, hid⟩ := hs.linked a ha
      exact ⟨p, mem_append_left _ hp, hid⟩
  | withdraw hp =>
    refine hs.set hids hp ⟨rfl, rfl, rfl, rfl, rfl, rfl⟩ rfl (fun _ _ _ _ hsync => hsync)
      (fun hop plan state hpayload hstate => ?_) fun a ha => .inl ha
    exact hs.action _ hp hop plan state hpayload hstate
  | transfer hp hop => exact hother hp (by simp [hop]) ⟨rfl, rfl, rfl, rfl, rfl, rfl⟩ rfl rfl rfl
  | pending hp hop | fence hp hop | finish _ hp hop | reconcile _ hp hop =>
    exact hother hp (by simp [hop]) ⟨rfl, rfl, rfl, rfl, rfl, rfl⟩ rfl rfl rfl
  | toggle hp hop hstate hfrom hto =>
    refine hs.set hids hp (hsame _ _) rfl (fun _ _ _ _ hsync => hsync)
      (fun _ plan state' hpayload hstate' => ?_) fun a ha => .inl ha
    cases hstate'
    exact (hs.action _ hp hop plan _ hpayload hstate).toggle hfrom hto
  | act hp hop hstate hplan hmove =>
    refine hs.set hids hp (hsame _ _) rfl (fun _ _ _ _ hsync => hsync)
      (fun _ plan state' hpayload hstate' => ?_) fun a ha => .inl ha
    cases hstate'
    have hsync := hs.action _ hp hop plan _ hpayload hstate
    cases hmove with
    | effects hphase => exact hsync
    | review hphase => exact hsync.stay hphase rfl
  | close hp hop hstate hplan hfinish hclaim =>
    refine hs.set hids hp (hsame _ _) rfl (fun _ _ _ hid hsync => hsync.closed_other hid)
      (fun _ plan state' hpayload hstate' => ?_) fun a ha => .inl ha
    cases hstate'
    rw [hpayload] at hplan
    cases hplan
    refine .closed hk.idempotency hclaim ?_
    cases hfinish <;> simp [verifiedState, invalidatedState]
  | @acquire input p _ hacquires hop =>
    refine hs.tables rfl (fun q hq hop' _ _ _ hsync => hsync.acquired_other fun hid => ?_)
      fun a ha => ?_
    · obtain rfl := hids.eq_of_id hq hacquires.mem (hid.trans hacquires.id.symm)
      exact hop hop'
    · rcases mem_append.mp ha with ha | ha
      · exact .inl ha
      · rw [mem_singleton.mp ha]
        exact .inr ⟨p, hacquires.mem, hacquires.id⟩
  | acquireAction hacquires hop hplan hkey hstate hphase hnone =>
    refine hs.set hids hacquires.mem (hsame _ _) rfl
      (fun _ _ _ hid hsync => hsync.acquired_other (hacquires.id ▸ hid))
      (fun _ plan state' hpayload hstate' => ?_) fun a ha => ?_
    · cases hstate'
      rw [hpayload] at hplan
      cases hplan
      rw [hkey]
      exact .acquired_self hop hacquires.id hacquires.keyFree
    · rcases mem_append.mp ha with ha | ha
      · exact .inl ha
      · rw [mem_singleton.mp ha]
        exact .inr hacquires.id.symm
  | command hkey hstatus hop =>
    exact hs.tables rfl (fun _ _ _ _ _ _ hsync => hsync.append fun hclaim => hop hclaim.2.2)
      fun a ha => .inl ha
  | strand now =>
    refine hs.tables rfl (fun p hp hop key state hstate hsync => ?_) fun a ha => .inl ha
    have hclaims {status : IdempotencyStatus} :
        HasClaim (s.reconcileStranded now).idempotency key p.id status ↔
          HasClaim s.idempotency key p.id status := by
      refine hasClaim_map (fun i => by split <;> simp) fun i hi hclaim => ?_
      split
      · next hstranded =>
        -- the claim of an acquired action is never stranded
        simp only [isStranded, and_eq_true, beq_iff_eq, not_eq_true',
          any_eq_false] at hstranded
        have hphase := hsync.inProgress.mp ⟨i, hi, hclaim, hstranded.1.1⟩
        have hnot := hstranded.2 p hp
        rw [← acquired_iff] at hphase
        simp [hclaim.2.1, hop, hstate, hphase] at hnot
      · rfl
    exact ⟨hsync.unacquired, hclaims.trans hsync.inProgress, hclaims.trans hsync.succeeded,
      fun hretry => hsync.unretried (hclaims.mp hretry)⟩

/-! ## Runs -/

/-- What holds of a stored action. -/
structure ActionOk (s : WorkflowStore) (p : ProposalRow) (plan : Plan) (state : ActionState) :
    Prop where
  effects : state.effects.map (·.identity) <+: plan.identities
  unacquired : state.phase = .proposed ∨ state.phase = .approved →
    state.acquisition = none ∧ (∀ a ∈ s.acquisitions, a.proposalId ≠ p.id) ∧ state.effects = []
  invalidated : state.phase = .invalidatedNoDispatch → state.effects = []
  verified : state.phase = .verified → state.effects.length = plan.atoms.length
  inProgress : HasClaim s.idempotency plan.idempotencyKey p.id .inProgress ↔
    state.phase = .writeIntent ∨ state.phase = .reviewRequired
  succeeded : HasClaim s.idempotency plan.idempotencyKey p.id .succeeded ↔ state.phase = .verified

/-- Every stored action is as it should be. -/
def LifecycleOk (s : WorkflowStore) : Prop :=
  ∀ p ∈ s.proposals, p.operation = .consequentialAction → ∃ plan state,
    p.payload = .action plan ∧ p.state = .action state ∧ ActionOk s p plan state

/-- A later row of an action: its plan is the same, its effects extend the recorded ones, and a
verified or invalidated state is the last one. -/
structure RowKept (p q : ProposalRow) : Prop where
  same : SameRow p q
  kept : ∀ state, p.state = .action state → ∃ state', q.state = .action state' ∧
    state.effects <+: state'.effects ∧
    (state.phase = .verified ∨ state.phase = .invalidatedNoDispatch → state' = state)

/-- What a later store keeps of the actions of an earlier one. -/
def Keeps (s s' : WorkflowStore) : Prop :=
  ∀ p ∈ s.proposals, p.operation = .consequentialAction → ∃ q ∈ s'.proposals, RowKept p q

/-- An operation leaves the claims of actions to their execution. -/
def Orderly (s : WorkflowStore) : Op → Prop
  | .createProposal input => ∀ plan, input.payload = .action plan →
      ∀ i ∈ s.idempotency, ¬ ClaimsAction plan.idempotencyKey input.id i
  | .createIdempotencyRecord input =>
    (∃ i ∈ s.idempotency, i.idempotencyKey = input.idempotencyKey) ∨
      ∀ p ∈ s.proposals, ∀ plan, p.operation = .consequentialAction → p.payload = .action plan →
        ¬ (input.idempotencyKey = plan.idempotencyKey ∧ input.proposalId = p.id ∧
          input.operation = ProposalOperation.consequentialAction.text)
  | .completeIdempotencyRecord key _ _ =>
    ∀ p ∈ s.proposals, ∀ plan, p.operation = .consequentialAction → p.payload = .action plan →
      plan.idempotencyKey = key → ¬ HasClaim s.idempotency key p.id .inProgress
  | _ => True

/-- Every operation of a run is orderly in the store it finds. -/
def OrderlyRun (host : Host) : WorkflowStore → List Op → Prop
  | _, [] => True
  | s, op :: ops => Orderly s op ∧ OrderlyRun host (next host s op) ops

theorem RowKept.refl (p : ProposalRow) : RowKept p p :=
  ⟨.refl p, fun state h => ⟨state, h, prefix_rfl, fun _ => rfl⟩⟩

theorem RowKept.trans {r : ProposalRow} (h₁ : RowKept p q) (h₂ : RowKept q r) : RowKept p r := by
  refine ⟨⟨h₂.same.id.trans h₁.same.id, h₂.same.operation.trans h₁.same.operation,
    h₂.same.budget.trans h₁.same.budget, h₂.same.payload.trans h₁.same.payload,
    h₂.same.hash.trans h₁.same.hash, h₂.same.expires.trans h₁.same.expires⟩, fun state hstate => ?_⟩
  obtain ⟨state', hstate', hprefix, hlast⟩ := h₁.kept state hstate
  obtain ⟨state'', hstate'', hprefix', hlast'⟩ := h₂.kept state' hstate'
  refine ⟨state'', hstate'', hprefix.trans hprefix', fun hphase => ?_⟩
  obtain rfl := hlast hphase
  exact hlast' hphase

theorem RowStep.kept (h : RowStep time p q) (hop : p.operation = .consequentialAction) : RowKept p q := by
  refine ⟨h.sameRow, fun state hstate => ?_⟩
  have hsame {state' : ActionState} (hstate' : p.state = .action state') : state = state' := by
    simpa [hstate] using hstate'
  cases h with
  | same | withdraw => exact ⟨state, hstate, prefix_rfl, fun _ => rfl⟩
  | other hnot => exact absurd hop hnot
  | toggle hstate' hfrom =>
    obtain rfl := hsame hstate'
    refine ⟨_, rfl, prefix_rfl, ?_⟩
    rcases hfrom with h | h <;> simp [h]
  | act hstate' _ hmove =>
    obtain rfl := hsame hstate'
    cases hmove with
    | effects hphase =>
      refine ⟨_, rfl, prefix_append _ _, ?_⟩
      rcases acquired_iff.mp hphase with h | h <;> simp [h]
    | review hphase =>
      refine ⟨_, rfl, prefix_rfl, ?_⟩
      rcases acquired_iff.mp hphase with h | h <;> simp [h]
  | finish hstate' _ hfinish =>
    obtain rfl := hsame hstate'
    cases hfinish with
    | verified hphase =>
      refine ⟨_, rfl, prefix_rfl, ?_⟩
      rcases acquired_iff.mp hphase with h | h <;> simp [h]
    | invalidated hphase => exact ⟨_, rfl, prefix_rfl, by simp [hphase]⟩
  | acquire hstate' hphase =>
    obtain rfl := hsame hstate'
    refine ⟨_, rfl, prefix_rfl, ?_⟩
    rcases hphase with h | h <;> simp [h]

theorem Keeps.refl (s : WorkflowStore) : Keeps s s := fun p hp _ => ⟨p, hp, .refl p⟩

theorem Keeps.trans {s s' s'' : WorkflowStore} (h₁ : Keeps s s') (h₂ : Keeps s' s'') :
    Keeps s s'' := by
  intro p hp hop
  obtain ⟨q, hq, hpq⟩ := h₁ p hp hop
  obtain ⟨r, hr, hqr⟩ := h₂ q hq (hpq.same.operation.trans hop)
  exact ⟨r, hr, hpq.trans hqr⟩

theorem Change.keeps (hids : DistinctIds s) (h : Change time s s') : Keeps s s' := by
  intro p hp hop
  obtain ⟨f, new, hrows, hstep, -⟩ := h.rows hids
  exact ⟨f p, hrows ▸ mem_append_left _ (mem_map_of_mem hp), (hstep p hp).kept hop⟩

theorem Direct.keeps (h : Direct s op s') : Keeps s s' := by
  intro p hp _
  cases h with
  | create => exact ⟨p, mem_append_left _ hp, .refl p⟩
  | _ => exact ⟨p, hp, .refl p⟩

/-- What carries the lifecycle through a run: the plan and the effects of every action, and the
claims of the store. -/
structure LifecycleInv (s : WorkflowStore) : Prop where
  effects : ∀ p ∈ s.proposals, p.operation = .consequentialAction → ∃ plan state,
    p.payload = .action plan ∧ p.state = .action state ∧ EffectsOk plan state
  synced : StoreSynced s

theorem LifecycleInv.ok (h : LifecycleInv s) : LifecycleOk s := by
  intro p hp hop
  obtain ⟨plan, state, hpayload, hstate, heffects⟩ := h.effects p hp hop
  have hsync := h.synced.action p hp hop plan state hpayload hstate
  exact ⟨plan, state, hpayload, hstate,
    { effects := heffects.isPrefix
      unacquired := fun hphase => ⟨(heffects.unacquired hphase).1, hsync.unacquired hphase,
        (heffects.unacquired hphase).2⟩
      invalidated := heffects.invalidated
      verified := heffects.verified
      inProgress := hsync.inProgress
      succeeded := hsync.succeeded }⟩

theorem Change.lifecycle (hk : Keyed s) (hs : LifecycleInv s) (h : Change time s s') :
    LifecycleInv s' := by
  refine ⟨fun q hq hop => ?_, h.synced hk hs.synced⟩
  obtain ⟨f, new, hrows, hstep, hnew, -⟩ := h.rows hk.proposals
  rw [hrows] at hq
  rcases mem_append.mp hq with hq | hq
  · obtain ⟨p, hp, rfl⟩ := mem_map.mp hq
    have hsame := (hstep p hp).sameRow
    rw [hsame.operation] at hop
    obtain ⟨plan, state, hpayload, hstate, hok⟩ := hs.effects p hp hop
    obtain ⟨state', hstate', hok'⟩ := (hstep p hp).effectsOk hop hpayload hstate hok
    exact ⟨plan, state', hsame.payload.trans hpayload, hstate', hok'⟩
  · exact absurd hop (hnew q hq)

theorem LifecycleInv.create {input : CreateProposalInput} {row : ProposalRow}
    (hs : LifecycleInv s) (hadmitted : Admitted input row)
    (hnew : ∀ p ∈ s.proposals, proposalClashes row p = false)
    (horderly : Orderly s (.createProposal input)) :
    LifecycleInv { s with proposals := s.proposals ++ [row] } := by
  have hfresh : ∀ p ∈ s.proposals, p.id ≠ row.id := fun p hp => by
    have hclash := hnew p hp
    simp only [proposalClashes, or_eq_false_iff, beq_eq_false_iff_ne] at hclash
    exact hclash.1
  have hstate : row.operation = .consequentialAction →
      row.state = .action { phase := .proposed } := fun hop => by
    rw [hadmitted.state, ← hadmitted.operation, hop]
    rfl
  constructor
  · intro p hp hop
    rcases mem_append.mp hp with hp | hp
    · exact hs.effects p hp hop
    · obtain rfl := mem_singleton.mp hp
      obtain ⟨plan, hplan⟩ := hadmitted.plan (hadmitted.operation.symm.trans hop)
      exact ⟨plan, _, hadmitted.payload.trans hplan, hstate hop, by simp, by simp, by simp, by simp⟩
  · constructor
    · intro p hp hop plan state hpayload hstate'
      rcases mem_append.mp hp with hp | hp
      · exact hs.synced.action p hp hop plan state hpayload hstate'
      · obtain rfl := mem_singleton.mp hp
        rw [hstate hop] at hstate'
        cases hstate'
        have hnone {status : IdempotencyStatus} :
            ¬ HasClaim s.idempotency plan.idempotencyKey p.id status := by
          rintro ⟨i, hi, hclaim, -⟩
          rw [hadmitted.id] at hclaim
          exact horderly plan (hadmitted.payload.symm.trans hpayload) i hi hclaim
        refine ⟨fun _ a ha hid => ?_, by simp [hnone], by simp [hnone], hnone⟩
        obtain ⟨q, hq, hq'⟩ := hs.synced.linked a ha
        exact hfresh q hq (hq'.trans hid)
    · intro a ha
      obtain ⟨p, hp, hid⟩ := hs.synced.linked a ha
      exact ⟨p, mem_append_left _ hp, hid⟩

theorem StoreSynced.complete {errorMessage : Option String} {isRetryable : Bool}
    (hs : StoreSynced s)
    (horderly : Orderly s (.completeIdempotencyRecord key errorMessage isRetryable)) :
    StoreSynced { s with
      idempotency := s.idempotency.map fun i =>
        if isCompletable key i then
          { i with completed := true, status := completionStatus errorMessage isRetryable }
        else i } := by
  refine ⟨fun p hp hop plan state hpayload hstate => ?_, hs.linked⟩
  have hsync := hs.action p hp hop plan state hpayload hstate
  have hclaims {status : IdempotencyStatus} : HasClaim (s.idempotency.map fun i =>
      if isCompletable key i then
        { i with completed := true, status := completionStatus errorMessage isRetryable }
      else i) plan.idempotencyKey p.id status ↔
        HasClaim s.idempotency plan.idempotencyKey p.id status := by
    refine hasClaim_map (fun i => by split <;> simp) fun i hi hclaim => ?_
    split
    · next hcompletable =>
      simp only [isCompletable, and_eq_true, or_eq_true, beq_iff_eq] at hcompletable
      obtain ⟨rfl, hstatus | hstatus⟩ := hcompletable
      · have hopen := horderly p hp plan hop hpayload hclaim.1.symm
        rw [hclaim.1] at hopen
        exact absurd ⟨i, hi, hclaim, hstatus⟩ hopen
      · exact absurd ⟨i, hi, hclaim, hstatus⟩ hsync.unretried
    · rfl
  exact ⟨hsync.unacquired, hclaims.trans hsync.inProgress, hclaims.trans hsync.succeeded,
    fun hretry => hsync.unretried (hclaims.mp hretry)⟩

theorem Direct.lifecycle (hs : LifecycleInv s) (horderly : Orderly s op)
    (h : Direct s op s') : LifecycleInv s' := by
  cases h with
  | create hadmitted hnew => exact hs.create hadmitted hnew horderly
  | claim hkey hproposal hoperation hstatus hnew =>
    refine ⟨hs.effects, fun p hp hop plan state hpayload hstate => ?_, hs.synced.linked⟩
    refine (hs.synced.action p hp hop plan state hpayload hstate).append fun hclaim => ?_
    rcases horderly with ⟨i, hi, hsame⟩ | hfree
    · exact hnew i hi hsame
    · exact hfree p hp plan hop hpayload
        ⟨hkey.symm.trans hclaim.1, hproposal.symm.trans hclaim.2.1,
          hoperation.symm.trans hclaim.2.2⟩
  | complete => exact ⟨hs.effects, hs.synced.complete horderly⟩
  | audit => exact ⟨hs.effects, hs.synced.action, hs.synced.linked⟩

theorem apply_lifecycle (hk : Keyed s) (hs : LifecycleInv s) (horderly : Orderly s op)
    (h : apply host s op = .ok s') : Keyed s' ∧ LifecycleInv s' ∧ Keeps s s' := by
  have hboth := apply_writes (P := fun t => LifecycleInv t ∧ Keeps s t) hk ⟨hs, .refl s⟩
    (fun _ _ hk hP hwrite => ⟨hwrite.lifecycle hk hP.1, hP.2.trans (hwrite.keeps hk.proposals)⟩)
    (fun _ hwrite => ⟨hwrite.lifecycle hs horderly, hwrite.keeps⟩) h
  exact ⟨hboth.1, hboth.2.1, hboth.2.2⟩

theorem run_lifecycle {ops : List Op} (hk : Keyed s) (hs : LifecycleInv s)
    (horderly : OrderlyRun host s ops) :
    Keyed (run host s ops) ∧ LifecycleInv (run host s ops) ∧ Keeps s (run host s ops) := by
  induction ops generalizing s with
  | nil => exact ⟨hk, hs, .refl s⟩
  | cons op ops ih =>
    have hnext : Keyed (next host s op) ∧ LifecycleInv (next host s op) ∧
        Keeps s (next host s op) := by
      unfold next
      cases h : apply host s op with
      | error refusal => exact ⟨hk, hs, .refl s⟩
      | ok s' => exact apply_lifecycle hk hs horderly.1 h
    obtain ⟨hk', hs', hkeeps⟩ := ih hnext.1 hnext.2.1 horderly.2
    exact ⟨hk', hs', hnext.2.2.trans hkeeps⟩

theorem orderlyRun_append {ops ops' : List Op} (h : OrderlyRun host s (ops ++ ops')) :
    OrderlyRun host s ops ∧ OrderlyRun host (run host s ops) ops' := by
  induction ops generalizing s with
  | nil => exact ⟨trivial, h⟩
  | cons op ops ih =>
    obtain ⟨hfirst, hrest⟩ := ih h.2
    exact ⟨⟨h.1, hfirst⟩, hrest⟩

theorem emptyStore_lifecycle (governance : GovernanceDb)
    (policyHashes : List (String × String × String)) :
    LifecycleInv (emptyStore governance policyHashes) :=
  ⟨fun _ hp => absurd hp not_mem_nil, fun _ hp => absurd hp not_mem_nil,
    fun _ ha => absurd ha not_mem_nil⟩

/-- **The life of an action**: in a run that leaves the claims of actions to their execution, every
stored action is as it should be in every state, and what is recorded of it stays. -/
theorem action_lifecycle {governance : GovernanceDb}
    {policyHashes : List (String × String × String)} {ops later : List Op}
    (h : OrderlyRun host (emptyStore governance policyHashes) (ops ++ later)) :
    LifecycleOk (run host (emptyStore governance policyHashes) ops) ∧
      Keeps (run host (emptyStore governance policyHashes) ops)
        (run host (emptyStore governance policyHashes) (ops ++ later)) := by
  obtain ⟨hfirst, hlater⟩ := orderlyRun_append h
  obtain ⟨hk, hs, -⟩ := run_lifecycle (emptyStore_keyed governance policyHashes)
    (emptyStore_lifecycle governance policyHashes) hfirst
  rw [run_append]
  exact ⟨hs.ok, (run_lifecycle hk hs hlater).2.2⟩

theorem walletRun_lifecycle :
    (LifecycleOk (run walletHost walletStore acquireRun) ∧
      Keeps (run walletHost walletStore acquireRun)
        (run walletHost walletStore (acquireRun ++ finishRun))) ∧
      ((run walletHost walletStore (acquireRun ++ finishRun)).selectProposal "proposal").bind
        (·.actionPhase) = some .verified :=
  ⟨@action_lifecycle walletHost walletHome [("budget", "1", "policy")] acquireRun finishRun
      ⟨fun _ _ _ h => absurd h not_mem_nil, trivial, trivial, trivial, trivial, trivial⟩,
    by decide +kernel⟩

theorem completed_claim_leaves_intent :
    ¬ ∀ host governance policyHashes ops,
      LifecycleOk (run host (emptyStore governance policyHashes) ops) := by
  intro h
  have hok := h walletHost walletHome [("budget", "1", "policy")]
    (acquireRun ++ [.completeIdempotencyRecord "key" none false])
  have hwriting : ∃ p ∈ (run walletHost walletStore
      (acquireRun ++ [.completeIdempotencyRecord "key" none false])).proposals,
        p.operation = .consequentialAction ∧ p.actionPhase = some .writeIntent := by
    decide +kernel
  have hclosed : ∀ i ∈ (run walletHost walletStore
      (acquireRun ++ [.completeIdempotencyRecord "key" none false])).idempotency,
        i.status ≠ .inProgress := by
    decide +kernel
  obtain ⟨p, hp, hop, hphase⟩ := hwriting
  obtain ⟨plan, state, -, hstate, haction⟩ := hok p hp hop
  have hintent : state.phase = .writeIntent := by
    simpa [ProposalRow.actionPhase, hstate] using hphase
  obtain ⟨i, hi, -, hstatus⟩ := haction.inProgress.mpr (.inl hintent)
  exact hclosed i hi hstatus

end BalanceFrame.Workflow
