import BalanceFrame.Prospective.Time
import BalanceFrame.Purchase.Evaluate
import BalanceFrame.Decision.Totals

/-!
# Prospective claims

Model of `evaluate_prospective_claims` with its helpers
(`crates/core-protocol/src/prospective_decision.rs`). An issue keeps what decides whether it is
pushed and what it does to a decision: its code, its effect and its scope.
-/

namespace BalanceFrame.Prospective

open Library Liquidity List Bool
open Decision (DecisionScope)

inductive RedactionState
  | visible
  | redacted
  deriving DecidableEq

inductive DecisionIssueCode
  | accountFreshnessCoverage
  | pendingAvailability
  | scheduleCoverage
  | duplicateTransferAmbiguity
  | creditPaymentUncertainty
  | reservationConflict
  | walletBalanceUncertainty
  | receiptTotalMismatch
  | economicEventAmbiguity
  | currencyMismatch
  | unknown (code : String)
  deriving DecidableEq

inductive DecisionIssueEffect
  | qualifies
  | blocks
  deriving DecidableEq

/-- `DecisionIssue`, without its texts and its evidence. -/
structure DecisionIssue where
  code : DecisionIssueCode
  effect : DecisionIssueEffect
  scope : DecisionScope
  deriving DecidableEq

def blockingIssue (code : DecisionIssueCode) (scope : DecisionScope) : DecisionIssue :=
  ⟨code, .blocks, scope⟩

def pushIssueOnce (issues : List DecisionIssue) (issue : DecisionIssue) : List DecisionIssue :=
  if issues.any fun existing => existing.code == issue.code && existing.scope == issue.scope then
    issues
  else issues ++ [issue]

inductive ProspectiveClaimKind
  | reservation
  | commitment
  deriving DecidableEq

inductive ProspectiveClaimStatus
  | active
  | released
  deriving DecidableEq

structure ProspectiveClaim where
  claimId : String
  kind : ProspectiveClaimKind
  sourceId : String
  scope : DecisionScope
  amount : Money
  status : ProspectiveClaimStatus
  effectiveFrom : String
  expiresAt : Option String
  visibility : RedactionState
  policyVersion : String
  snapshotId : String
  deriving DecidableEq

/-- `DecisionDataPolicy`, with its age limits. -/
structure DecisionDataPolicy extends Purchase.DecisionDataPolicy where
  maxBudgetSnapshotAgeMinutes : Option Nat
  maxBankSyncAgeMinutes : Option Nat
  deriving DecidableEq

structure DecisionContext where
  evaluatedAt : String
  horizon : LiquidityHorizon
  policy : DecisionDataPolicy
  policyVersion : String
  policyHash : String
  snapshotId : String
  contentHash : String
  deriving DecidableEq

structure ProspectiveClaimEvaluation where
  eligibleClaimIds : List String
  reservationTotal : Option Money
  commitmentTotal : Option Money
  issues : List DecisionIssue
  deriving DecidableEq

/-! ## One claim -/

def validContextTime (context : DecisionContext) : Option ParsedTimestamp :=
  if context.policyVersion == "" || context.policyHash == "" || context.snapshotId == "" ||
      context.contentHash == "" then none
  else do
    let evaluatedAt ← parseRfc3339 context.evaluatedAt
    let startsAt ← parseRfc3339 context.horizon.startsAt
    let endsAt ← parseRfc3339 context.horizon.endsAt
    if !evaluatedAt.before startsAt && evaluatedAt.before endsAt then some evaluatedAt else none

def validClaimIdentity (claim : ProspectiveClaim) : Bool :=
  claim.claimId != "" && claim.sourceId != "" &&
    match claim.scope with
    | .global => true
    | .account id | .category id | .transaction id | .schedule id | .claim id => id != ""

/-- The policy includes an account. -/
def accountAllowed (context : DecisionContext) (accountId : String) : Bool :=
  context.policy.accountOverrides.includeOnly.all (·.contains accountId) &&
    !context.policy.accountOverrides.exclude.contains accountId

/-- `claim_scope_allowed_by_policy`: of scopes, only accounts can be excluded. -/
def scopeAllowed (context : DecisionContext) : DecisionScope → Bool
  | .account accountId => accountAllowed context accountId
  | _ => true

/-- `duplicate_claim_ids`, past the duplicates found so far. -/
def duplicatesAfter (context : DecisionContext) (duplicates : List String) :
    List ProspectiveClaim → List String
  | [] => duplicates
  | claim :: rest =>
    let repeated := scopeAllowed context claim.scope &&
      (rest.any fun other => scopeAllowed context other.scope && other.claimId == claim.claimId) &&
      !duplicates.contains claim.claimId
    duplicatesAfter context (if repeated then duplicates ++ [claim.claimId] else duplicates) rest

def duplicateClaimIds (context : DecisionContext) (claims : List ProspectiveClaim) : List String :=
  duplicatesAfter context [] claims

/-- Where an issue about claims is reported: at the claim, unless one of them is redacted. -/
def reportScope (claimId : String) (claims : List ProspectiveClaim) : DecisionScope :=
  if claims.any (·.visibility == .redacted) then .global else .claim claimId

/-- What a claim comes to: nothing, an issue, or an eligible claim. -/
inductive Judgement
  | passed
  | reported (code : String)
  | eligible
  deriving DecidableEq

/-- When a claim expires, after it takes effect. -/
def claimExpiry (effectiveFrom : ParsedTimestamp) :
    Option String → Option (Option ParsedTimestamp)
  | none => some none
  | some value =>
    match parseRfc3339 value with
    | some parsed => if effectiveFrom.before parsed then some (some parsed) else none
    | none => none

/-- The times of a claim. -/
def judgeTimes (evaluatedAt : ParsedTimestamp) (claim : ProspectiveClaim) : Judgement :=
  match parseRfc3339 claim.effectiveFrom with
  | none => .reported "invalid_claim_time"
  | some effectiveFrom =>
    match claimExpiry effectiveFrom claim.expiresAt with
    | none => .reported "invalid_claim_time"
    | some expiresAt =>
      if !evaluatedAt.before effectiveFrom && expiresAt.all (evaluatedAt.before ·) then .eligible
      else .passed

/-- One round of the loop over the claims. -/
def judgeClaim (context : DecisionContext) (duplicates : List String)
    (evaluatedAt : ParsedTimestamp) (claim : ProspectiveClaim) : Judgement :=
  if !scopeAllowed context claim.scope then .passed
  else if duplicates.contains claim.claimId then .passed
  else if claim.policyVersion != context.policyVersion then .reported "policy_version_mismatch"
  else if claim.snapshotId != context.snapshotId then .reported "snapshot_mismatch"
  else if claim.status != .active then .passed
  else if !validClaimIdentity claim || claim.amount.isNegative then .reported "invalid_claim_input"
  else judgeTimes evaluatedAt claim

/-! ## All claims -/

/-- `report_scope_conflicts`, one claim: the scopes reported so far and the issues. -/
def reportConflict (eligible : List ProspectiveClaim) (s : List DecisionScope × List DecisionIssue)
    (claim : ProspectiveClaim) : List DecisionScope × List DecisionIssue :=
  let sharing := eligible.filter fun other => other.scope == claim.scope
  if s.1.contains claim.scope || sharing.length < 2 then s
  else
    let issues := pushIssueOnce s.2 (blockingIssue .reservationConflict claim.scope)
    let mixed := sharing.tail.any fun other =>
      some other.amount.currency != sharing.head?.map (·.amount.currency)
    (s.1 ++ [claim.scope],
      if mixed then pushIssueOnce issues (blockingIssue .currencyMismatch claim.scope) else issues)

def reportScopeConflicts (eligible : List ProspectiveClaim) (issues : List DecisionIssue) :
    List DecisionIssue :=
  (eligible.foldl (reportConflict eligible) ([], issues)).2

/-- `aggregate_kind`, one claim more: no total is left after a failure. -/
def aggregateClaim (s : Option Money × List DecisionIssue) (claim : ProspectiveClaim) :
    Option Money × List DecisionIssue :=
  match s.1 with
  | none => s
  | some total =>
    if claim.amount.currency != total.currency then
      (none, pushIssueOnce s.2 (blockingIssue .currencyMismatch claim.scope))
    else
      match total.add claim.amount with
      | .ok sum => (some sum, s.2)
      | .error _ =>
        (none, pushIssueOnce s.2 (blockingIssue (.unknown "money_arithmetic_overflow") claim.scope))

def aggregateKind (kind : ProspectiveClaimKind) (eligible : List ProspectiveClaim)
    (issues : List DecisionIssue) : Option Money × List DecisionIssue :=
  match eligible.filter (·.kind == kind) with
  | [] => (none, issues)
  | first :: rest => rest.foldl aggregateClaim (some first.amount, issues)

/-- The eligible claims. -/
def eligibleClaims (context : DecisionContext) (claims : List ProspectiveClaim)
    (evaluatedAt : ParsedTimestamp) : List ProspectiveClaim :=
  claims.filter fun claim =>
    judgeClaim context (duplicateClaimIds context claims) evaluatedAt claim == .eligible

/-- The issues of the duplicates and of the loop. -/
def claimIssues (context : DecisionContext) (claims : List ProspectiveClaim)
    (evaluatedAt : ParsedTimestamp) : List DecisionIssue :=
  let duplicates := duplicateClaimIds context claims
  duplicates.map (fun claimId => blockingIssue (.unknown "duplicate_claim_id")
    (reportScope claimId
      (claims.filter fun c => scopeAllowed context c.scope && c.claimId == claimId))) ++
  claims.filterMap fun claim =>
    match judgeClaim context duplicates evaluatedAt claim with
    | .reported code => some (blockingIssue (.unknown code) (reportScope claim.claimId [claim]))
    | _ => none

def evaluateProspectiveClaims (context : DecisionContext) (claims : List ProspectiveClaim) :
    ProspectiveClaimEvaluation :=
  match validContextTime context with
  | none =>
    { eligibleClaimIds := [], reservationTotal := none, commitmentTotal := none
      issues := [blockingIssue (.unknown "invalid_decision_context") .global] }
  | some evaluatedAt =>
    let eligible := eligibleClaims context claims evaluatedAt
    let issues := reportScopeConflicts eligible (claimIssues context claims evaluatedAt)
    let reservations := aggregateKind .reservation eligible issues
    let commitments := aggregateKind .commitment eligible reservations.2
    { eligibleClaimIds := eligible.map (·.claimId)
      reservationTotal := reservations.1
      commitmentTotal := commitments.1
      issues := commitments.2 }

/-! ## Issues -/

/-- Issues of which each blocks. -/
def AllBlock (issues : List DecisionIssue) : Prop := ∀ i ∈ issues, i.effect = .blocks

theorem pushIssueOnce_ne_nil (issues : List DecisionIssue) (issue : DecisionIssue) :
    pushIssueOnce issues issue ≠ [] := by
  unfold pushIssueOnce
  split
  · rename_i h
    rintro rfl
    cases h
  · exact append_ne_nil_of_right_ne_nil _ (cons_ne_nil _ _)

variable {issues : List DecisionIssue} {eligible : List ProspectiveClaim}
  {evaluatedAt : ParsedTimestamp}

theorem mem_pushIssueOnce {issue i : DecisionIssue}
    (h : i ∈ issues) : i ∈ pushIssueOnce issues issue := by
  unfold pushIssueOnce
  split
  · exact h
  · exact mem_append_left _ h

theorem of_mem_pushIssueOnce {issue i : DecisionIssue}
    (h : i ∈ pushIssueOnce issues issue) : i ∈ issues ∨ i = issue := by
  unfold pushIssueOnce at h
  split at h
  · exact .inl h
  · simpa using h

theorem AllBlock.push {code : DecisionIssueCode} {scope : DecisionScope} (h : AllBlock issues) :
    AllBlock (pushIssueOnce issues (blockingIssue code scope)) := by
  intro i hi
  rcases of_mem_pushIssueOnce hi with hold | rfl
  · exact h i hold
  · rfl

theorem allBlock_claimIssues (context : DecisionContext) (claims : List ProspectiveClaim)
    (evaluatedAt : ParsedTimestamp) : AllBlock (claimIssues context claims evaluatedAt) := by
  intro i hi
  rcases mem_append.mp hi with hi | hi
  · obtain ⟨_, -, rfl⟩ := mem_map.mp hi
    rfl
  · obtain ⟨c, -, hc⟩ := mem_filterMap.mp hi
    split at hc
    · rw [← Option.some.inj hc]
      rfl
    · cases hc

theorem AllBlock.reportConflict
    {s : List DecisionScope × List DecisionIssue} (h : AllBlock s.2) (c : ProspectiveClaim) :
    AllBlock (reportConflict eligible s c).2 := by
  unfold Prospective.reportConflict
  dsimp only
  split
  · exact h
  · dsimp only
    split
    · exact h.push.push
    · exact h.push

theorem AllBlock.aggregateClaim {s : Option Money × List DecisionIssue} (h : AllBlock s.2)
    (c : ProspectiveClaim) : AllBlock (aggregateClaim s c).2 := by
  unfold Prospective.aggregateClaim
  split
  · exact h
  · split
    · exact h.push
    · split
      · exact h
      · exact h.push

theorem AllBlock.aggregateKind (h : AllBlock issues) (kind : ProspectiveClaimKind) :
    AllBlock (aggregateKind kind eligible issues).2 := by
  unfold Prospective.aggregateKind
  split
  · exact h
  · refine List.foldlRecOn _ _ (motive := fun s : Option Money × List DecisionIssue =>
      AllBlock s.2) h fun s hs c _ => hs.aggregateClaim c

theorem allBlock_evaluateProspectiveClaims (context : DecisionContext)
    (claims : List ProspectiveClaim) :
    AllBlock (evaluateProspectiveClaims context claims).issues := by
  unfold evaluateProspectiveClaims
  split
  · intro i hi
    rw [mem_singleton.mp hi]
    rfl
  · refine AllBlock.aggregateKind (AllBlock.aggregateKind ?_ _) _
    refine List.foldlRecOn _ _ (motive := fun s : List DecisionScope × List DecisionIssue =>
      AllBlock s.2) (allBlock_claimIssues _ _ _) fun s hs c _ => hs.reportConflict c

theorem aggregateClaim_nil {s : Option Money × List DecisionIssue} {c : ProspectiveClaim}
    (h : (aggregateClaim s c).2 = []) : s.2 = [] := by
  unfold aggregateClaim at h
  split at h
  · exact h
  · split at h
    · exact absurd h (pushIssueOnce_ne_nil _ _)
    · split at h
      · exact h
      · exact absurd h (pushIssueOnce_ne_nil _ _)

theorem foldl_aggregateClaim_nil {claims : List ProspectiveClaim} :
    ∀ {s : Option Money × List DecisionIssue}, (claims.foldl aggregateClaim s).2 = [] →
      s.2 = [] := by
  induction claims with
  | nil => exact fun h => h
  | cons c rest ih => exact fun h => aggregateClaim_nil (ih h)

theorem aggregateKind_nil {kind : ProspectiveClaimKind}
    (h : (aggregateKind kind eligible issues).2 = []) :
    issues = [] := by
  unfold aggregateKind at h
  split at h
  · exact h
  · exact foldl_aggregateClaim_nil h

theorem foldl_reportConflict_nil {claims : List ProspectiveClaim} :
    ∀ {s : List DecisionScope × List DecisionIssue}, (s.1 ≠ [] → s.2 ≠ []) →
      (claims.foldl (reportConflict eligible) s).2 = [] → s.2 = [] ∧
        ∀ c ∈ claims, (eligible.filter fun other => other.scope == c.scope).length < 2 := by
  induction claims with
  | nil => exact fun _ h => ⟨h, fun c hc => absurd hc not_mem_nil⟩
  | cons c rest ih =>
    intro s hs h
    rw [foldl_cons] at h
    by_cases hskip : (s.1.contains c.scope ||
        decide ((eligible.filter fun other => other.scope == c.scope).length < 2)) = true
    · have hstep : reportConflict eligible s c = s := if_pos hskip
      rw [hstep] at h
      obtain ⟨hnil, hrest⟩ := ih hs h
      refine ⟨hnil, forall_mem_cons.mpr ⟨?_, hrest⟩⟩
      have hempty : s.1 = [] := by_contra fun hne => hs hne hnil
      rw [hempty] at hskip
      simpa using hskip
    · have hne : (reportConflict eligible s c).2 ≠ [] := by
        unfold reportConflict
        dsimp only
        rw [if_neg hskip]
        dsimp only
        split
        · exact pushIssueOnce_ne_nil _ _
        · exact pushIssueOnce_ne_nil _ _
      exact absurd (ih (fun _ => hne) h).1 hne

/-! ## Eligible claims -/

variable {context : DecisionContext} {claims : List ProspectiveClaim}

theorem mem_duplicatesAfter {id : String} : ∀ {duplicates : List String}, id ∈ duplicates →
    id ∈ duplicatesAfter context duplicates claims := by
  induction claims with
  | nil => exact fun h => h
  | cons c rest ih =>
    intro duplicates h
    refine ih ?_
    split
    · exact mem_append_left _ h
    · exact h

theorem mem_duplicatesAfter_cons {duplicates : List String} {c other : ProspectiveClaim}
    {rest : List ProspectiveClaim} (hc : scopeAllowed context c.scope = true)
    (hmem : other ∈ rest) (hother : scopeAllowed context other.scope = true)
    (hid : other.claimId = c.claimId) :
    c.claimId ∈ duplicatesAfter context duplicates (c :: rest) := by
  rw [duplicatesAfter]
  refine mem_duplicatesAfter ?_
  have hlater : (rest.any fun other =>
      scopeAllowed context other.scope && other.claimId == c.claimId) = true :=
    any_eq_true.mpr ⟨other, hmem, by rw [hother, hid, beq_self_eq_true, Bool.and_self]⟩
  by_cases hold : duplicates.contains c.claimId = true
  · rw [hc, hlater, hold]
    exact contains_iff_mem.mp hold
  · rw [not_eq_true] at hold
    rw [hc, hlater, hold]
    exact mem_append_right _ mem_cons_self

theorem eq_of_claimId {a b : ProspectiveClaim} (ha : scopeAllowed context a.scope = true)
    (hb : scopeAllowed context b.scope = true) (hid : a.claimId = b.claimId) :
    ∀ {duplicates : List String}, a ∈ claims → b ∈ claims →
      a.claimId ∉ duplicatesAfter context duplicates claims → a = b := by
  induction claims with
  | nil => exact fun h => absurd h not_mem_nil
  | cons c rest ih =>
    intro duplicates hmema hmemb hnew
    rcases mem_cons.mp hmema with rfl | hmema'
    · rcases mem_cons.mp hmemb with rfl | hmemb'
      · rfl
      · exact absurd (mem_duplicatesAfter_cons ha hmemb' hb hid.symm) hnew
    · rcases mem_cons.mp hmemb with rfl | hmemb'
      · exact absurd (hid ▸ mem_duplicatesAfter_cons hb hmema' ha hid) hnew
      · exact ih hmema' hmemb' hnew

/-- What the loop asks of an eligible claim. -/
structure Eligible (context : DecisionContext) (claims : List ProspectiveClaim)
    (evaluatedAt : ParsedTimestamp) (claim : ProspectiveClaim) : Prop where
  member : claim ∈ claims
  allowed : scopeAllowed context claim.scope = true
  unique : claim.claimId ∉ duplicateClaimIds context claims
  unexpired : ∀ value, claim.expiresAt = some value →
    ∃ expiry, parseRfc3339 value = some expiry ∧ evaluatedAt.before expiry = true

theorem claimExpiry_some {effectiveFrom : ParsedTimestamp} {value : String}
    {expiry : Option ParsedTimestamp} (h : claimExpiry effectiveFrom (some value) = some expiry) :
    ∃ parsed, parseRfc3339 value = some parsed ∧ expiry = some parsed := by
  rw [claimExpiry] at h
  split at h
  · rename_i parsed hparsed
    split at h
    · exact ⟨parsed, hparsed, (Option.some.inj h).symm⟩
    · cases h
  · cases h

theorem judgeTimes_eligible {claim : ProspectiveClaim}
    (h : judgeTimes evaluatedAt claim = .eligible) {value : String}
    (hvalue : claim.expiresAt = some value) :
    ∃ expiry, parseRfc3339 value = some expiry ∧ evaluatedAt.before expiry = true := by
  unfold judgeTimes at h
  split at h
  · cases h
  · split at h
    · cases h
    · rename_i hexpiry
      rw [hvalue] at hexpiry
      obtain ⟨parsed, hparsed, rfl⟩ := claimExpiry_some hexpiry
      split at h
      · rename_i hnow
        exact ⟨parsed, hparsed, (and_eq_true_iff.mp hnow).2⟩
      · cases h

theorem eligible_of_mem {claim : ProspectiveClaim}
    (h : claim ∈ eligibleClaims context claims evaluatedAt) :
    Eligible context claims evaluatedAt claim := by
  obtain ⟨hmem, hjudge⟩ := mem_filter.mp h
  rw [beq_iff_eq] at hjudge
  unfold judgeClaim at hjudge
  split at hjudge
  · cases hjudge
  rename_i hallowed
  split at hjudge
  · cases hjudge
  rename_i hduplicate
  split at hjudge
  · cases hjudge
  split at hjudge
  · cases hjudge
  split at hjudge
  · cases hjudge
  split at hjudge
  · cases hjudge
  exact
    { member := hmem
      allowed := by simpa using hallowed
      unique := fun hd => hduplicate (contains_iff_mem.mpr hd)
      unexpired := fun _ hvalue => judgeTimes_eligible hjudge hvalue }

theorem eligible_of_listed {id : String}
    (h : id ∈ (evaluateProspectiveClaims context claims).eligibleClaimIds) :
    ∃ evaluatedAt claim, validContextTime context = some evaluatedAt ∧
      claim ∈ eligibleClaims context claims evaluatedAt ∧ claim.claimId = id := by
  unfold evaluateProspectiveClaims at h
  split at h
  · cases h
  · rename_i evaluatedAt htime
    obtain ⟨claim, hclaim, hid⟩ := mem_map.mp h
    exact ⟨evaluatedAt, claim, htime, hclaim, hid⟩

theorem eligible_scope_inj (hnone : (evaluateProspectiveClaims context claims).issues = [])
    (htime : validContextTime context = some evaluatedAt)
    {a b : ProspectiveClaim} (ha : a ∈ eligibleClaims context claims evaluatedAt)
    (hb : b ∈ eligibleClaims context claims evaluatedAt) (hscope : a.scope = b.scope) : a = b := by
  unfold evaluateProspectiveClaims at hnone
  rw [htime] at hnone
  have hconflicts := aggregateKind_nil (aggregateKind_nil hnone)
  obtain ⟨-, hfew⟩ := foldl_reportConflict_nil (fun h => absurd rfl h) hconflicts
  have hmema : a ∈ (eligibleClaims context claims evaluatedAt).filter
      fun other => other.scope == a.scope := mem_filter.mpr ⟨ha, beq_self_eq_true _⟩
  have hmemb : b ∈ (eligibleClaims context claims evaluatedAt).filter
      fun other => other.scope == a.scope :=
    mem_filter.mpr ⟨hb, by rw [hscope, beq_self_eq_true]⟩
  have hone := hfew a ha
  revert hmema hmemb hone
  cases (eligibleClaims context claims evaluatedAt).filter fun other => other.scope == a.scope with
  | nil => exact fun h => absurd h not_mem_nil
  | cons x rest =>
    intro hmema hmemb hone
    have hrest : rest = [] := length_eq_zero_iff.mp (by
      rw [length_cons] at hone
      omega)
    rw [hrest] at hmema hmemb
    rw [mem_singleton.mp hmema, mem_singleton.mp hmemb]

end BalanceFrame.Prospective
