import BalanceFrame.Attestation.Merge

/-!
# Saving what a person attests, and capturing a snapshot with it

Model of `saveObservations` and of the part of `capture` that uses the saved record
(`packages/application/src/liquidity-service.ts`), with `saveSupplementalFacts`
(`packages/workflow-store/src/liquidity.ts`). A record is merged into whatever snapshot a later
capture reads. The answers of the authorization checks are arbitrary, at each of the places where
they are asked.
-/

namespace BalanceFrame.Attestation

open Library Liquidity

/-! ## Saving -/

/-- `liquidityObservationInputSchema`. -/
structure ObservationIntent where
  expectedVersion : Nat
  expiresAt : Timestamp
  observations : List ObservedValues
  bounded : observations.length ≤ 1000

/-- `SupplementalFactsRecord`. -/
structure SupplementalRecord where
  version : Nat
  observations : List PersistedObservation
  expiresAt : Timestamp
  deriving DecidableEq

/-- The answers of the authorization checks at one place. -/
structure Authority where
  policyManagement : Bool
  humanControl : Bool
  budgetPolicy : Bool
  member : Bool
  account : String → Bool
  category : String → Bool
  readable : ObservedValues → Bool

/-- What a call of `saveObservations` meets: the answers before the capture, in it and in the store,
the record in force at the first two, the latest version of the budget's records, and the clock. -/
structure SaveContext where
  entry : Authority
  captured : Authority
  stored : Authority
  prior : Option SupplementalRecord
  held : Option SupplementalRecord
  current : Option Nat
  now : Timestamp

/-- What `saveObservations` throws. -/
inductive SaveError
  | merge (e : MergeError)
  | denied
  | historyDenied
  | expiry
  | ordering
  | bindingRequired
  | duplicateAccount
  | duplicateObservation
  | expired
  | freshness
  | membership
  | version
  deriving DecidableEq

/-- `require` for the resources of an observation. -/
def requireObservation (authority : Authority) (o : ObservedValues) : Except SaveError Unit := do
  reject (!authority.account o.accountId) .denied
  (o.obligations.getD []).forM fun obligation =>
    reject (obligation.categoryId.any fun id => !authority.category id) .denied
  match o.credit with
  | some (some credit) => do
    reject (!authority.account credit.paymentAccountId) .denied
    reject (!authority.category credit.paymentCategoryId) .denied
  | _ => .ok ()

/-- `future`: within the allowed horizon. -/
def future (expiresAt now : Timestamp) (maximum : Int) : Except SaveError Unit :=
  reject (expiresAt.millis - now.millis ≤ 0 || expiresAt.millis - now.millis > maximum) .expiry

/-- `userAttestedLiquidityObservationSchema` on values with their times. -/
def observationAt (observedAt expiresAt : Timestamp) (values : ObservedValues) :
    Except SaveError UserAttestedObservation :=
  if h : observedAt.millis < expiresAt.millis then
    .ok { values with observedAt, expiresAt, ordered := h }
  else .error .ordering

variable (digests : Digests)

/-- The stored form of an observation. -/
def bindObservation (snapshot : SnapshotContent) (account : AccountLiquidityFact)
    (o : UserAttestedObservation) : Except SaveError PersistedObservation :=
  if h : o.currentLedgerConfirmed then
    match ledgerConfirmationHash digests snapshot account with
    | .error e => .error (.merge e)
    | .ok hash => .ok { o with ledgerConfirmationHash := some hash, bound := by rw [h]; rfl }
  else .ok { o with ledgerConfirmationHash := none, bound := by simpa using h }

/-- The map of `bindUserAttestedLiquidityObservations`, with the accounts it has seen. -/
def bindFrom (snapshot : SnapshotContent) (facts : LiquidityFacts)
    (observedAt expiresAt : Timestamp) :
    List String → List ObservedValues → Except SaveError (List PersistedObservation)
  | _, [] => .ok []
  | seen, values :: rest => do
    let o ← observationAt observedAt expiresAt values
    reject (seen.contains o.accountId) .duplicateAccount
    let account ← orStop (findAccount facts o.accountId) (.merge .unknownAccount)
    let o ← bindObservation digests snapshot account o
    let others ← bindFrom snapshot facts observedAt expiresAt (o.accountId :: seen) rest
    .ok (o :: others)

def bindUserAttestedLiquidityObservations (snapshot : SnapshotContent)
    (observedAt expiresAt : Timestamp) (values : List ObservedValues) :
    Except SaveError (List PersistedObservation) := do
  let facts ← orStop snapshot.liquidity .bindingRequired
  bindFrom digests snapshot facts observedAt expiresAt [] values

/-- The checks of `saveSupplementalFacts` on one observation. -/
def checkFreshness (authority : Authority) (expiresAt now : Timestamp) (o : PersistedObservation) :
    Except SaveError Unit := do
  reject (o.expiresAt.millis ≤ now.millis) .expired
  reject (now.millis < o.observedAt.millis || o.expiresAt.millis < expiresAt.millis) .freshness
  reject (!authority.account o.accountId) .denied

/-- `saveSupplementalFacts`; `current` is the latest version of the budget's records. -/
def saveSupplementalFacts (authority : Authority) (current : Option Nat) (expectedVersion : Nat)
    (observations : List PersistedObservation) (expiresAt now : Timestamp) :
    Except SaveError SupplementalRecord := do
  reject (!authority.budgetPolicy) .denied
  reject (!authority.member) .membership
  reject (!decide (observations.map (·.accountId)).Nodup) .duplicateObservation
  observations.forM (checkFreshness authority expiresAt now)
  reject (current.getD 0 != expectedVersion) .version
  .ok ⟨expectedVersion + 1, observations, expiresAt⟩

/-- The values a record and an intent give together. -/
def affectedBy (record : Option SupplementalRecord) (intent : ObservationIntent) :
    List ObservedValues :=
  record.elim [] (·.observations.map (·.toObservedValues)) ++ intent.observations

/-- What `saveObservations` does up to the write. -/
def recordObservations (context : SaveContext) (snapshot : FinancialSnapshot)
    (intent : ObservationIntent) : Except SaveError SupplementalRecord := do
  reject (!context.entry.policyManagement) .denied
  reject (!context.entry.humanControl) .denied
  (affectedBy context.prior intent).forM (requireObservation context.entry)
  future intent.expiresAt context.now 86400000
  reject (!(affectedBy context.held intent).all context.captured.readable) .historyDenied
  (affectedBy context.held intent).forM (requireObservation context.captured)
  let observations ← bindUserAttestedLiquidityObservations digests snapshot.toSnapshotContent
    context.now intent.expiresAt intent.observations
  saveSupplementalFacts context.stored context.current intent.expectedVersion observations
    intent.expiresAt context.now

/-- What a call leaves in the store, and how it ends. -/
structure Saved where
  stored : Option SupplementalRecord
  outcome : Except SaveError FinancialSnapshot

/-- `saveObservations`: the record is written before its first merge. -/
def saveObservations (context : SaveContext) (snapshot : FinancialSnapshot)
    (intent : ObservationIntent) : Saved :=
  match recordObservations digests context snapshot intent with
  | .error e => ⟨none, .error e⟩
  | .ok record => ⟨some record,
      (mergeUserAttestedLiquidityObservations digests snapshot record.observations).mapError .merge⟩

/-! ## Capturing -/

/-- An `evidence_amendment` of a plan: the row it replaces, as it was approved. -/
structure EvidenceAmendment where
  parentId : String
  expectedSource : Transaction

/-- Put a row in the place of the first one of an id. -/
def replaceRow (id : String) (row : Transaction) : List Transaction → List Transaction
  | [] => []
  | r :: rows => if r.id = id then row :: rows else r :: replaceRow id row rows

/-- `inverseForAttestations`: the snapshot with the rows a plan has amended as they were. -/
def inverseForAttestations (base : FinancialSnapshot) (plan : List EvidenceAmendment) :
    FinancialSnapshot :=
  let undo rows atom := replaceRow (EvidenceAmendment.parentId atom) atom.expectedSource rows
  { base with transactions := plan.foldl undo base.transactions }

/-- The test of one observation. -/
def isValid (snapshot : FinancialSnapshot) (now : Timestamp) (o : PersistedObservation) :
    Except MergeError Bool :=
  if o.expiresAt.millis ≤ now.millis then .ok false
  else match mergeUserAttestedLiquidityObservations digests snapshot [o] with
    | .ok _ => .ok true
    | .error e => if e.isStale then .ok false else .error e

/-- The snapshot `capture` works with: the base with what is attested. -/
def capturedSnapshot (raw : Bool) (record : Option SupplementalRecord) (now : Timestamp)
    (plan : List EvidenceAmendment) (base : FinancialSnapshot) :
    Except MergeError FinancialSnapshot :=
  match record with
  | none => .ok base
  | some record =>
    if !raw && now.millis < record.expiresAt.millis then do
      let snapshot := inverseForAttestations base plan
      let valid ← keepM (isValid digests snapshot now) record.observations
      let attested ← mergeUserAttestedLiquidityObservations digests snapshot valid
      .ok { base with liquidity := attested.liquidity }
    else .ok base

/-! ## Stored records -/

section Saved

variable {digests : Digests} {snapshot : SnapshotContent} {facts : LiquidityFacts}
  {observedAt expiresAt : Timestamp}

theorem observationAt_eq_ok {values : ObservedValues} {o : UserAttestedObservation}
    (h : observationAt observedAt expiresAt values = .ok o) : o.expiresAt = expiresAt := by
  unfold observationAt at h
  split at h
  · cases h
    rfl
  · cases h

theorem bindObservation_eq_ok {account : AccountLiquidityFact} {o : UserAttestedObservation}
    {p : PersistedObservation} (h : bindObservation digests snapshot account o = .ok p) :
    p.toUserAttestedObservation = o := by
  unfold bindObservation at h
  split at h
  · split at h
    · cases h
    · cases h
      rfl
  · cases h
    rfl

theorem bindFrom_expiresAt : ∀ {values : List ObservedValues} {seen : List String}
    {observations : List PersistedObservation},
    bindFrom digests snapshot facts observedAt expiresAt seen values = .ok observations →
      ∀ o ∈ observations, o.expiresAt = expiresAt
  | [], _, _, h => by
    cases h
    simp
  | values :: rest, seen, observations, h => by
    unfold bindFrom at h
    obtain ⟨o, ho, h⟩ := bind_ok.mp h
    obtain ⟨-, h⟩ := rest_ok h
    obtain ⟨account, -, h⟩ := bind_ok.mp h
    obtain ⟨p, hp, h⟩ := bind_ok.mp h
    obtain ⟨others, hothers, h⟩ := bind_ok.mp h
    cases h
    refine List.forall_mem_cons.mpr ⟨?_, bindFrom_expiresAt hothers⟩
    rw [bindObservation_eq_ok hp, observationAt_eq_ok ho]

/-- What a stored record is: one observation for an account, each for as long as the record. -/
structure SupplementalRecord.Sound (record : SupplementalRecord) : Prop where
  accounts : (record.observations.map (·.accountId)).Nodup
  expiry : ∀ o ∈ record.observations, o.expiresAt = record.expiresAt

theorem recordObservations_sound {context : SaveContext} {snapshot : FinancialSnapshot}
    {intent : ObservationIntent} {record : SupplementalRecord}
    (h : recordObservations digests context snapshot intent = .ok record) : record.Sound := by
  unfold recordObservations at h
  obtain ⟨-, h⟩ := rest_ok h
  obtain ⟨-, h⟩ := rest_ok h
  obtain ⟨-, h⟩ := rest_ok h
  obtain ⟨-, h⟩ := rest_ok h
  obtain ⟨-, h⟩ := rest_ok h
  obtain ⟨-, h⟩ := rest_ok h
  obtain ⟨observations, hbind, h⟩ := bind_ok.mp h
  obtain ⟨facts, -, hbind⟩ := bind_ok.mp hbind
  unfold saveSupplementalFacts at h
  obtain ⟨-, h⟩ := rest_ok h
  obtain ⟨-, h⟩ := rest_ok h
  obtain ⟨_, hdistinct, h⟩ := bind_ok.mp h
  obtain ⟨-, h⟩ := rest_ok h
  obtain ⟨-, h⟩ := rest_ok h
  cases h
  refine ⟨?_, bindFrom_expiresAt hbind⟩
  rw [reject_ok, Bool.not_eq_false', decide_eq_true_eq] at hdistinct
  exact hdistinct

theorem saved_record {context : SaveContext} {snapshot : FinancialSnapshot}
    {intent : ObservationIntent} {record : SupplementalRecord}
    (h : (saveObservations digests context snapshot intent).stored = some record) :
    record.Sound := by
  unfold saveObservations at h
  split at h
  · cases h
  · rename_i hrecord
    cases h
    exact recordObservations_sound hrecord

end Saved

end BalanceFrame.Attestation
