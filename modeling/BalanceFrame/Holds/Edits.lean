import BalanceFrame.Holds.Runs

/-!
# What the statements do

The lemmas below each definition of the claim tables that later proofs use instead of unfolding it:
what `bump`, `persistClaim` and `claimSet` change and what they leave alone.
-/

namespace BalanceFrame.Holds

open Library List Option Except
open Liquidity (LiquidityClaimBundle LiquidityClaimEffect LiquidityClaimState)
open Workflow (Refusal Guarded)

namespace Store

variable {s s' : Store} {budgetId : String} {kind : OwnerKind} {ownerId : String}

/-! ## Revisions -/

section Bump

variable (s) (budgetId)

@[simp] theorem bump_claims : (s.bump budgetId).claims = s.claims := rfl
@[simp] theorem bump_metadata : (s.bump budgetId).metadata = s.metadata := rfl
@[simp] theorem bump_policies : (s.bump budgetId).policies = s.policies := rfl
@[simp] theorem bump_currentPolicies :
    (s.bump budgetId).currentPolicies = s.currentPolicies := rfl
@[simp] theorem bump_completions : (s.bump budgetId).completions = s.completions := rfl
@[simp] theorem bump_transfers : (s.bump budgetId).transfers = s.transfers := rfl
@[simp] theorem bump_approvals : (s.bump budgetId).approvals = s.approvals := rfl
@[simp] theorem bump_writes : (s.bump budgetId).writes = s.writes := rfl
@[simp] theorem bump_sessions : (s.bump budgetId).sessions = s.sessions := rfl
@[simp] theorem bump_idempotency : (s.bump budgetId).idempotency = s.idempotency := rfl
@[simp] theorem bump_transferEvidence :
    (s.bump budgetId).transferEvidence = s.transferEvidence := rfl
@[simp] theorem bump_completionEvidence :
    (s.bump budgetId).completionEvidence = s.completionEvidence := rfl
theorem find?_map_fst {β : Type} {l : List (String × β)} {f : String × β → String × β}
    (hf : ∀ r, (f r).1 = r.1) (b : String) :
    (l.map f).find? (·.1 == b) = (l.find? (·.1 == b)).map f := by
  induction l with
  | nil => rfl
  | cons r l ih => by_cases h : r.1 = b <;> simp [h, hf, ih]

@[simp] theorem revision_bump : (s.bump budgetId).revision budgetId = s.revision budgetId + 1 := by
  unfold revision bump
  by_cases h : s.revisions.any (·.1 == budgetId) = true
  · simp only [h, if_true]
    rw [find?_map_fst (fun r => by split <;> rfl)]
    obtain ⟨r, hr⟩ := isSome_iff_exists.1 (find?_isSome.2 (any_eq_true.1 h))
    have hid := find?_some hr
    simp only [beq_iff_eq] at hid
    simp [hr, hid]
  · simp only [h, if_false, Bool.false_eq_true]
    have hnone : s.revisions.find? (·.1 == budgetId) = none := by
      refine find?_eq_none.2 fun r hr hb => h ?_
      exact any_eq_true.2 ⟨r, hr, hb⟩
    simp [find?_append, hnone]

theorem revision_bump_ne {b : String} (hb : b ≠ budgetId) :
    (s.bump budgetId).revision b = s.revision b := by
  unfold revision bump
  by_cases h : s.revisions.any (·.1 == budgetId) = true
  · simp only [h, if_true]
    rw [find?_map_fst (fun r => by split <;> rfl)]
    cases hr : s.revisions.find? (·.1 == b) with
    | none => rfl
    | some r =>
      have hid := find?_some hr
      simp only [beq_iff_eq] at hid
      have hne : r.1 ≠ budgetId := hid ▸ hb
      simp [hne]
  · have hb' : budgetId ≠ b := fun e => hb e.symm
    simp [h, find?_append, hb']

end Bump

/-! ## Claims -/

/-- A row belongs to an owner. -/
def OwnedBy (budgetId : String) (kind : OwnerKind) (ownerId : String) (c : ClaimRow) : Prop :=
  c.budgetId = budgetId ∧ c.ownerKind = kind ∧ c.ownerId = ownerId

instance {c : ClaimRow} : Decidable (OwnedBy budgetId kind ownerId c) :=
  inferInstanceAs (Decidable (_ ∧ _ ∧ _))

/-- The claims after an update of an owner's bundle. -/
def replaced (claims : List ClaimRow) (budgetId : String) (kind : OwnerKind) (ownerId : String)
    (bundle : LiquidityClaimBundle) : List ClaimRow :=
  claims.map fun c => if OwnedBy budgetId kind ownerId c then { c with bundle } else c

theorem persistClaim_cases {bundle : LiquidityClaimBundle}
    (h : s.persistClaim budgetId kind ownerId bundle = .ok s') :
    (∃ c, s.ownedClaim budgetId kind ownerId = some c ∧
      s' = ({ s with claims := replaced s.claims budgetId kind ownerId bundle } : Store).bump
        budgetId) ∨
    (s.ownedClaim budgetId kind ownerId = none ∧ s.claimAt budgetId bundle.id = none ∧
      s' = ({ s with claims := s.claims ++
        [{ budgetId, id := bundle.id, ownerKind := kind, ownerId, bundle }] } : Store).bump
          budgetId) := by
  unfold persistClaim at h
  split at h
  · next c hc =>
    refine .inl ⟨c, hc, ?_⟩
    cases h
    rfl
  · next hc =>
    obtain ⟨_, hr, h⟩ := bind_ok.1 h
    refine .inr ⟨hc, ?_, ?_⟩
    · simpa using hr
    · cases h
      rfl

theorem ownedClaim_eq_some_iff {c : ClaimRow} (h : s.ownedClaim budgetId kind ownerId = some c) :
    c ∈ s.claims ∧ OwnedBy budgetId kind ownerId c := by
  refine ⟨mem_of_find?_eq_some h, ?_⟩
  have := find?_some h
  simpa [OwnedBy, and_assoc] using this

theorem ownedClaim_eq_none_iff :
    s.ownedClaim budgetId kind ownerId = none ↔ ∀ c ∈ s.claims, ¬ OwnedBy budgetId kind ownerId c := by
  simp [ownedClaim, OwnedBy, find?_eq_none]

theorem claimAt_eq_none_iff {id : String} :
    s.claimAt budgetId id = none ↔ ∀ c ∈ s.claims, ¬ (c.budgetId = budgetId ∧ c.id = id) := by
  simp [claimAt, find?_eq_none]

/-- `persistClaim` touches the claims and the revision of its budget only. -/
theorem persistClaim_frame {bundle : LiquidityClaimBundle}
    (h : s.persistClaim budgetId kind ownerId bundle = .ok s') :
    ∃ claims, s' = ({ s with claims } : Store).bump budgetId := by
  obtain ⟨c, -, rfl⟩ | ⟨-, -, rfl⟩ := persistClaim_cases h
  · exact ⟨_, rfl⟩
  · exact ⟨_, rfl⟩

/-! ## The claim set -/

variable {host : Host} {now : String}

/-- The bundles `claimSet` returns. -/
def bundlesAt (s : Store) (host : Host) (budgetId now : String) :
    Guarded (List LiquidityClaimBundle) := do
  let covered ← s.covering host budgetId now
  let bundles ← ((s.budgetRows budgetId).filter fun c => !lapsed host now c.bundle).mapM
    (s.shown host covered budgetId now)
  .ok (bundles.filterMap id)

/-- The tables `claimSet` leaves. -/
def reread (s : Store) (host : Host) (budgetId now : String) : Store :=
  if s.changes host budgetId now then (s.refresh host budgetId now).bump budgetId
  else s.refresh host budgetId now

theorem claimSet_ok {set : ClaimSet} (h : s.claimSet host budgetId now = .ok (set, s')) :
    s.bundlesAt host budgetId now = .ok set.bundles ∧ s' = s.reread host budgetId now ∧
      set.revision = s'.revision budgetId := by
  unfold claimSet at h
  obtain ⟨_, h⟩ := rest_ok h
  obtain ⟨covered, hcovered, h⟩ := bind_ok.1 h
  obtain ⟨bundles, hbundles, h⟩ := bind_ok.1 h
  simp only [Except.ok.injEq, Prod.mk.injEq] at h
  obtain ⟨rfl, rfl⟩ := h
  refine ⟨?_, rfl, rfl⟩
  simp [bundlesAt, hcovered, hbundles]

/-- A row after a lapsed claim of the budget expired. -/
def lapse (host : Host) (budgetId now : String) (c : ClaimRow) : ClaimRow :=
  if c.budgetId == budgetId && lapsed host now c.bundle then
    { c with bundle := { c.bundle with state := .expired } }
  else c

/-- What never changes of a claim's metadata. -/
def core (m : MetadataRow) : MetadataRow :=
  { m with lifecycleState := .active, updatedAt := "", consumptionEvidenceId := none }

section Lapse

variable (host) (budgetId) (now) (c : ClaimRow)

@[simp] theorem lapse_budgetId : (lapse host budgetId now c).budgetId = c.budgetId := by
  unfold lapse; split <;> rfl

@[simp] theorem lapse_id : (lapse host budgetId now c).id = c.id := by
  unfold lapse; split <;> rfl

@[simp] theorem lapse_ownerKind : (lapse host budgetId now c).ownerKind = c.ownerKind := by
  unfold lapse; split <;> rfl

@[simp] theorem lapse_ownerId : (lapse host budgetId now c).ownerId = c.ownerId := by
  unfold lapse; split <;> rfl

@[simp] theorem lapse_bundle_id : (lapse host budgetId now c).bundle.id = c.bundle.id := by
  unfold lapse; split <;> rfl

@[simp] theorem lapse_effects : (lapse host budgetId now c).bundle.effects = c.bundle.effects := by
  unfold lapse; split <;> rfl

@[simp] theorem lapse_initiated :
    (lapse host budgetId now c).bundle.initiated = c.bundle.initiated := by
  unfold lapse; split <;> rfl

@[simp] theorem lapse_expiresAt :
    (lapse host budgetId now c).bundle.expiresAt = c.bundle.expiresAt := by
  unfold lapse; split <;> rfl

theorem lapse_of_ne (h : c.budgetId ≠ budgetId) : lapse host budgetId now c = c := by
  simp [lapse, h]

theorem lapse_eq_self (h : lapsed host now c.bundle = false) : lapse host budgetId now c = c := by
  simp [lapse, h]

end Lapse

section Reread

variable (s) (host) (budgetId) (now)

@[simp] theorem reread_claims :
    (s.reread host budgetId now).claims = s.claims.map (lapse host budgetId now) := by
  unfold reread; split <;> rfl

@[simp] theorem reread_policies : (s.reread host budgetId now).policies = s.policies := by
  unfold reread; split <;> rfl

@[simp] theorem reread_currentPolicies :
    (s.reread host budgetId now).currentPolicies = s.currentPolicies := by
  unfold reread; split <;> rfl

@[simp] theorem reread_completions : (s.reread host budgetId now).completions = s.completions := by
  unfold reread; split <;> rfl

@[simp] theorem reread_transfers : (s.reread host budgetId now).transfers = s.transfers := by
  unfold reread; split <;> rfl

@[simp] theorem reread_approvals : (s.reread host budgetId now).approvals = s.approvals := by
  unfold reread; split <;> rfl

@[simp] theorem reread_writes : (s.reread host budgetId now).writes = s.writes := by
  unfold reread; split <;> rfl

@[simp] theorem reread_sessions : (s.reread host budgetId now).sessions = s.sessions := by
  unfold reread; split <;> rfl

@[simp] theorem reread_idempotency : (s.reread host budgetId now).idempotency = s.idempotency := by
  unfold reread; split <;> rfl

@[simp] theorem reread_transferEvidence :
    (s.reread host budgetId now).transferEvidence = s.transferEvidence := by
  unfold reread; split <;> rfl

@[simp] theorem reread_completionEvidence :
    (s.reread host budgetId now).completionEvidence = s.completionEvidence := by
  unfold reread; split <;> rfl

theorem reread_metadata :
    ∃ f : MetadataRow → MetadataRow, (∀ m, core (f m) = core m) ∧
      (s.reread host budgetId now).metadata = s.metadata.map f := by
  have hrefresh : ∃ f : MetadataRow → MetadataRow, (∀ m, core (f m) = core m) ∧
      (s.refresh host budgetId now).metadata = s.metadata.map f := by
    refine ⟨_, fun m => ?_, rfl⟩
    dsimp only
    split
    · split
      · split
        · rfl
        · split <;> rfl
      · rfl
    · rfl
  unfold reread
  split
  · exact hrefresh
  · exact hrefresh

theorem revision_reread_of_changes (h : s.changes host budgetId now = true) :
    (s.reread host budgetId now).revision budgetId = s.revision budgetId + 1 := by
  simp only [reread, h, if_true, revision_bump]
  rfl

theorem revision_reread_of_not_changes (h : s.changes host budgetId now = false) (b : String) :
    (s.reread host budgetId now).revision b = s.revision b := by
  simp only [reread, h, Bool.false_eq_true, if_false]
  rfl

theorem revision_reread_ne {b : String} (hb : b ≠ budgetId) :
    (s.reread host budgetId now).revision b = s.revision b := by
  unfold reread
  split
  · rw [revision_bump_ne _ _ hb]
    rfl
  · rfl

theorem reread_claims_of_not_changes (h : s.changes host budgetId now = false) :
    (s.reread host budgetId now).claims = s.claims := by
  rw [reread_claims]
  refine (map_congr_left fun c hc => ?_).trans (map_id _)
  by_cases hb : c.budgetId = budgetId
  · refine lapse_eq_self _ _ _ _ ?_
    have hrow : c ∈ s.budgetRows budgetId := by simp [budgetRows, hc, hb]
    have := any_eq_false.1 h c hrow
    simp only [Bool.or_eq_true, not_or, Bool.not_eq_true] at this
    exact this.1
  · exact lapse_of_ne _ _ _ _ hb

end Reread

/-! ## Finding a claim after a statement -/

section Finding

variable {b : String} {k : OwnerKind} {o : String} {bundle : LiquidityClaimBundle} {c : ClaimRow}

theorem ownedClaim_map {f : ClaimRow → ClaimRow}
    (hf : ∀ c, (f c).budgetId = c.budgetId ∧ (f c).ownerKind = c.ownerKind ∧
      (f c).ownerId = c.ownerId) (hclaims : s'.claims = s.claims.map f) :
    s'.ownedClaim b k o = (s.ownedClaim b k o).map f := by
  unfold ownedClaim
  rw [hclaims, find?_map]
  congr 2
  funext c
  obtain ⟨hb, hk, ho⟩ := hf c
  simp [hb, hk, ho]

theorem ownedClaim_reread (s : Store) :
    (s.reread host budgetId now).ownedClaim b k o =
      (s.ownedClaim b k o).map (lapse host budgetId now) :=
  ownedClaim_map (fun c => by simp) (by simp)

theorem claimAt_reread (s : Store) {id : String} :
    (s.reread host budgetId now).claimAt b id = (s.claimAt b id).map (lapse host budgetId now) := by
  unfold claimAt
  rw [reread_claims, find?_map]
  congr 2
  funext c
  simp

theorem ownedClaim_persist_self (h : s.persistClaim budgetId kind ownerId bundle = .ok s') :
    ∃ c, s'.ownedClaim budgetId kind ownerId = some c ∧ c.bundle = bundle := by
  obtain ⟨c, hc, rfl⟩ | ⟨hnone, -, rfl⟩ := persistClaim_cases h
  · refine ⟨{ c with bundle }, ?_, rfl⟩
    obtain ⟨-, ho⟩ := ownedClaim_eq_some_iff hc
    rw [ownedClaim_map (s := s) (f := fun c => if OwnedBy budgetId kind ownerId c then
      { c with bundle } else c) (fun c => by split <;> simp) rfl, hc]
    simp [ho]
  · refine ⟨⟨budgetId, bundle.id, kind, ownerId, bundle⟩, ?_, rfl⟩
    rw [ownedClaim, bump_claims, find?_append]
    rw [ownedClaim] at hnone
    simp [hnone]

theorem ownedClaim_persist_ne (h : s.persistClaim budgetId kind ownerId bundle = .ok s')
    (hne : ¬ (b = budgetId ∧ k = kind ∧ o = ownerId)) :
    s'.ownedClaim b k o = s.ownedClaim b k o := by
  obtain ⟨c, -, rfl⟩ | ⟨-, -, rfl⟩ := persistClaim_cases h
  · rw [ownedClaim_map (s := s) (f := fun c => if OwnedBy budgetId kind ownerId c then
      { c with bundle } else c) (fun c => by split <;> simp) rfl]
    cases hfound : s.ownedClaim b k o with
    | none => rfl
    | some d =>
      obtain ⟨-, hod⟩ := ownedClaim_eq_some_iff hfound
      have : ¬ OwnedBy budgetId kind ownerId d := fun hd =>
        hne ⟨hod.1.symm.trans hd.1, hod.2.1.symm.trans hd.2.1, hod.2.2.symm.trans hd.2.2⟩
      simp [this]
  · rw [ownedClaim, bump_claims, find?_append]
    have hrow : ([⟨budgetId, bundle.id, kind, ownerId, bundle⟩] : List ClaimRow).find? (fun c =>
        c.budgetId == b && c.ownerKind == k && c.ownerId == o) = none := by
      refine find?_eq_none.2 fun c hc => ?_
      obtain rfl := mem_singleton.1 hc
      simp only [Bool.and_eq_true, beq_iff_eq, not_and]
      rintro ⟨rfl, rfl⟩ rfl
      exact hne ⟨rfl, rfl, rfl⟩
    rw [hrow, or_none]
    rfl

end Finding

/-! ## Updates of proposals -/

variable {p : Completion} {q : Transfer} {outcome : Option String}

theorem updateCompletion_ok {phase : CompletionPhase}
    (h : s.updateCompletion p phase outcome now = .ok s') :
    s' = s.setCompletion p.id fun r =>
      { r with
        phase := phase
        outcome := outcome
        version := r.version + 1
        supersededAt := supersededBy outcome now r.supersededAt } := by
  obtain ⟨_, h⟩ := rest_ok h
  exact (ok.inj h).symm

/-- A transfer after `updateTransfer`. -/
def moved (phase : TransferPhase) (outcome : Option String) (now : String) (r : Transfer) :
    Transfer :=
  { r with
    phase := phase
    outcome := outcome
    version := r.version + 1
    supersededAt := supersededBy outcome now r.supersededAt }

theorem updateTransfer_ok {phase : TransferPhase}
    (h : s.updateTransfer q phase outcome now = .ok s') :
    s' = { s with transfers := s.transfers.map fun r =>
      if r.id = q.id then moved phase outcome now r else r } := by
  obtain ⟨_, h⟩ := rest_ok h
  exact (ok.inj h).symm

theorem changeCompletionClaim_ok {state : LiquidityClaimState}
    (h : s.changeCompletionClaim p state = .ok s') :
    ∃ c, s.ownedClaim p.budgetId .sessionCompletion p.id = some c ∧
      (c.bundle.state = state ∧ s' = s ∨ c.bundle.state ≠ state ∧
        s.persistClaim p.budgetId .sessionCompletion p.id (inState c.bundle state) = .ok s') := by
  obtain ⟨b, hb, h⟩ := bind_ok.1 h
  obtain ⟨c, hc, rfl⟩ := map_eq_some_iff.1 (orStop_ok.1 hb)
  refine ⟨c, hc, ?_⟩
  split at h
  · next he => exact .inl ⟨he, (ok.inj h).symm⟩
  · next hne => exact .inr ⟨hne, h⟩

theorem changeClaim_ok {state : LiquidityClaimState} (h : s.changeClaim q state = .ok s') :
    ∃ c, s.ownedClaim q.budgetId .proposal q.id = some c ∧
      (c.bundle.state = state ∧ s' = s ∨ c.bundle.state ≠ state ∧
        s.persistClaim q.budgetId .proposal q.id (inState c.bundle state) = .ok s') := by
  obtain ⟨b, hb, h⟩ := bind_ok.1 h
  obtain ⟨c, hc, rfl⟩ := map_eq_some_iff.1 (orStop_ok.1 hb)
  refine ⟨c, hc, ?_⟩
  split at h
  · next he => exact .inl ⟨he, (ok.inj h).symm⟩
  · next hne => exact .inr ⟨hne, h⟩

end Store

end BalanceFrame.Holds
