import BalanceFrame.Attestation.Capture
import BalanceFrame.Attestation.Stages

/-!
# What a saved record does to a later capture
-/

namespace BalanceFrame.Attestation

open Library Liquidity List Bool

section Loop

variable {digests : Digests} {snapshot : SnapshotContent} {o : PersistedObservation}
  {a : AccountLiquidityFact}

/-! ## Observations of different accounts -/

/-- What decides about an observation is the same in two states of the loop. -/
structure SameFor (o : PersistedObservation) (state state' : List String × LiquidityFacts) :
    Prop where
  seen : o.accountId ∈ state.1 ↔ o.accountId ∈ state'.1
  account : findAccount state'.2 o.accountId = findAccount state.2 o.accountId
  accounts : state'.2.accounts.map (·.accountId) = state.2.accounts.map (·.accountId)
  payments : ∀ categoryId currency,
    HasPayment state'.2 categoryId currency ↔ HasPayment state.2 categoryId currency

theorem find?_replaceFirst {id : String} (h : a.accountId ≠ id)
    (accounts : List AccountLiquidityFact) :
    (replaceFirst a accounts).find? (·.accountId == id) = accounts.find? (·.accountId == id) := by
  induction accounts with
  | nil => rfl
  | cons b accounts ih =>
    unfold replaceFirst
    split
    · rename_i hb
      have hne : b.accountId ≠ id := hb ▸ h
      rw [find?_cons_of_neg (by simpa using h), find?_cons_of_neg (by simpa using hne)]
    · rw [find?_cons, find?_cons, ih]

theorem map_replaceFirst (a : AccountLiquidityFact) (accounts : List AccountLiquidityFact) :
    (replaceFirst a accounts).map (·.accountId) = accounts.map (·.accountId) := by
  induction accounts with
  | nil => rfl
  | cons b accounts ih =>
    unfold replaceFirst
    split
    · rename_i hb
      rw [map_cons, map_cons, hb]
    · rw [map_cons, map_cons, ih]

theorem hasPayment_setPayment {facts : LiquidityFacts} {paid : String} {paidIn : String}
    (hpaid : HasPayment facts paid paidIn) (categoryId currency : String) :
    HasPayment (setPayment facts paid) categoryId currency ↔
      HasPayment facts categoryId currency := by
  have hentries : currentEntries (setPayment facts paid) categoryId =
      (currentEntries facts categoryId).map fun category =>
        if category.categoryId = paid then { category with kind := .creditPayment }
        else category := by
    unfold currentEntries setPayment
    rw [filter_map]
    congr 1
    refine filter_congr fun category _ => ?_
    simp only [Function.comp_apply]
    split <;> rfl
  unfold HasPayment
  rw [hentries, length_map, forall_mem_map]
  refine and_congr_right fun _ => forall₂_congr fun category hcategory => ?_
  split
  · rename_i hname
    have hnamed := (mem_filter.mp hcategory).2
    simp only [and_eq_true, beq_iff_eq] at hnamed
    rw [← hname, hnamed.1.1] at hpaid
    have husable := (hpaid.2 category hcategory).1
    exact and_congr_left fun _ => iff_of_true ⟨.inr rfl, husable.2⟩ husable
  · rfl

theorem SameFor.fits {state state' : List String × LiquidityFacts} (h : SameFor o state state') :
    Fits digests snapshot state.2 o ↔ Fits digests snapshot state'.2 o := by
  unfold Fits CreditRefused CreditStands
  rw [h.account, h.accounts]
  simp only [h.payments]

theorem isOk_mergeNext {state : List String × LiquidityFacts} :
    isOk (mergeNext digests snapshot state o) = true ↔
      o.accountId ∉ state.1 ∧ Fits digests snapshot state.2 o := by
  unfold mergeNext
  rw [isOk_bind]
  rcases mergeObservation_cases digests snapshot state.2 o with
    ⟨hunfit, e, h, -⟩ | ⟨hfits, -, facts', b, h, -⟩
  · simp [h, hunfit]
  · simp [h, hfits]

/-- **Observations of different accounts do not disturb each other.** -/
theorem undisturbed (digests : Digests) (snapshot : SnapshotContent) :
    Undisturbed (mergeNext digests snapshot) (fun o o' => o.accountId ≠ o'.accountId) SameFor where
  same := by
    intro o o' state state' hne h
    obtain ⟨-, h⟩ := rest_ok h
    obtain ⟨facts, hfacts, h⟩ := bind_ok.mp h
    cases h
    rcases mergeObservation_cases digests snapshot state.2 o with
      ⟨-, e, he, -⟩ | ⟨-, -, facts', b, hput, hb, hset⟩
    · rw [he] at hfacts
      cases hfacts
    rw [hput] at hfacts
    cases hfacts
    have hother : b.accountId ≠ o'.accountId := hb ▸ hne
    have hsame : facts'.accounts = state.2.accounts ∧ ∀ categoryId currency,
        HasPayment facts' categoryId currency ↔ HasPayment state.2 categoryId currency := by
      rcases hset with rfl | ⟨paid, paidIn, hpaid, rfl⟩
      · exact ⟨rfl, fun _ _ => Iff.rfl⟩
      · exact ⟨rfl, hasPayment_setPayment hpaid⟩
    refine ⟨?_, ?_, ?_, hsame.2⟩
    · rw [mem_cons]
      exact ⟨.inr, fun h => h.resolve_left hne.symm⟩
    · rw [findAccount, putAccount, find?_replaceFirst hother, hsame.1]
      rfl
    · rw [putAccount, map_replaceFirst, hsame.1]
  decides := by
    intro o state state' h
    rw [Bool.eq_iff_iff, isOk_mergeNext, isOk_mergeNext, h.seen, h.fits]

end Loop

/-! ## Captures -/

section Captures

variable (digests : Digests) (snapshot : FinancialSnapshot)

/-- The unexpired observations of a record that merge on their own. -/
def usable (now : Timestamp) (record : SupplementalRecord) : List PersistedObservation :=
  record.observations.filter fun o => decide (now.millis < o.expiresAt.millis) &&
    isOk (mergeUserAttestedLiquidityObservations digests snapshot [o])

/-- **A capture survives a record**: it works with the base and exactly the usable observations,
merged together. -/
def Survives (record : SupplementalRecord) (now : Timestamp) (plan : List EvidenceAmendment)
    (base : FinancialSnapshot) : Prop :=
  ∃ captured, capturedSnapshot digests false (some record) now plan base = .ok captured ∧
    ((usable digests (inverseForAttestations base plan) now record = [] ∧ captured = base) ∨
      ∃ attested, mergeUserAttestedLiquidityObservations digests (inverseForAttestations base plan)
          (usable digests (inverseForAttestations base plan) now record) = .ok attested ∧
        captured = { base with liquidity := attested.liquidity })

variable {digests} {snapshot} {facts : LiquidityFacts} {o : PersistedObservation} {now : Timestamp}

theorem isOk_merge (hfacts : snapshot.liquidity = some facts) (os : List PersistedObservation) :
    isOk (mergeUserAttestedLiquidityObservations digests snapshot os) =
      isOk (os.foldlM (mergeNext digests snapshot.toSnapshotContent) ([], facts)) := by
  unfold mergeUserAttestedLiquidityObservations
  rw [hfacts, orStop_some, ok_bind]
  cases os.foldlM (mergeNext digests snapshot.toSnapshotContent) ([], facts) <;> rfl

theorem merge_one_cases (digests : Digests) (hfacts : snapshot.liquidity = some facts)
    (o : PersistedObservation) :
    (isOk (mergeUserAttestedLiquidityObservations digests snapshot [o]) = true ∧
      ¬ Blocked digests snapshot.toSnapshotContent facts o) ∨
    ∃ e, mergeUserAttestedLiquidityObservations digests snapshot [o] = .error e ∧
      (e.isStale = false ↔ Blocked digests snapshot.toSnapshotContent facts o) := by
  unfold mergeUserAttestedLiquidityObservations
  rw [hfacts, orStop_some, ok_bind, foldlM_cons, mergeNext]
  rcases mergeObservation_cases digests snapshot.toSnapshotContent facts o with
    ⟨-, e, h, hstale⟩ | ⟨-, hblocked, facts', b, h, -⟩
  · refine .inr ⟨e, ?_, hstale⟩
    rw [h]
    rfl
  · refine .inl ⟨?_, hblocked⟩
    rw [h]
    rfl

theorem isValid_spec (hfacts : snapshot.liquidity = some facts) :
    (isOk (isValid digests snapshot now o) = true ↔
      (now.millis < o.expiresAt.millis →
        ¬ Blocked digests snapshot.toSnapshotContent facts o)) ∧
    valueOr false (isValid digests snapshot now o) =
      (decide (now.millis < o.expiresAt.millis) &&
        isOk (mergeUserAttestedLiquidityObservations digests snapshot [o])) := by
  unfold isValid
  by_cases hexpired : o.expiresAt.millis ≤ now.millis
  · rw [if_pos hexpired, decide_eq_false (Int.not_lt.mpr hexpired)]
    exact ⟨iff_of_true rfl fun h => absurd h (Int.not_lt.mpr hexpired), rfl⟩
  rw [if_neg hexpired, decide_eq_true (Int.not_le.mp hexpired)]
  have hforce : now.millis < o.expiresAt.millis := Int.not_le.mp hexpired
  rcases merge_one_cases digests hfacts o with ⟨hok, hblocked⟩ | ⟨e, h, hstale⟩
  · obtain ⟨attested, h⟩ := isOk_iff.mp hok
    rw [h]
    exact ⟨iff_of_true rfl fun _ => hblocked, rfl⟩
  · rw [h]
    dsimp only
    cases he : e.isStale with
    | true =>
      rw [he] at hstale
      exact ⟨iff_of_true rfl fun _ hbad => Bool.noConfusion (hstale.mpr hbad), rfl⟩
    | false => exact ⟨iff_of_false false_ne_true fun hgood => hgood hforce (hstale.mp he), rfl⟩

theorem isOk_merge_usable (digests : Digests) (now : Timestamp) {record : SupplementalRecord}
    (hsound : record.Sound) (hfacts : snapshot.liquidity = some facts) :
    isOk (mergeUserAttestedLiquidityObservations digests snapshot
      (usable digests snapshot now record)) = true := by
  rw [isOk_merge hfacts]
  refine (undisturbed digests _).isOk_foldlM_filter (pairwise_map.mp hsound.accounts) _
    fun o _ ho => ?_
  rw [and_eq_true, isOk_merge hfacts, foldlM_cons, isOk_bind] at ho
  obtain ⟨-, state, ho, -⟩ := ho
  rw [ho]
  rfl

/-- **When a stale record does no harm.** A capture after a save works with exactly the unexpired
observations that merge alone iff, while the record is in force, the snapshot has facts and blocks
none of its observations. -/
theorem capture_survives_iff {context : SaveContext} {earlier : FinancialSnapshot}
    {intent : ObservationIntent} {record : SupplementalRecord}
    (hsaved : (saveObservations digests context earlier intent).stored = some record)
    (now : Timestamp) (plan : List EvidenceAmendment) (base : FinancialSnapshot) :
    Survives digests record now plan base ↔
      (now.millis < record.expiresAt.millis → ∃ facts, base.liquidity = some facts ∧
        ∀ o ∈ record.observations,
          ¬ Blocked digests (inverseForAttestations base plan).toSnapshotContent facts o) := by
  have hsound := saved_record hsaved
  unfold Survives capturedSnapshot
  by_cases hforce : now.millis < record.expiresAt.millis
  · have hunexpired : ∀ o ∈ record.observations, now.millis < o.expiresAt.millis := fun o ho => by
      rw [hsound.expiry o ho]
      exact hforce
    simp only [hforce, Bool.not_false, decide_true, Bool.and_self, if_true, forall_const]
    cases hfacts : base.liquidity with
    | none =>
      refine iff_of_false ?_ (by simp)
      rintro ⟨captured, h, -⟩
      obtain ⟨valid, -, h⟩ := bind_ok.mp h
      obtain ⟨attested, h, -⟩ := bind_ok.mp h
      obtain ⟨facts, hnone, -⟩ := bind_ok.mp h
      rw [orStop_ok] at hnone
      cases hfacts.symm.trans hnone
    | some facts =>
      have hinverse : (inverseForAttestations base plan).liquidity = some facts := hfacts
      simp only [Option.some.injEq, exists_eq_left']
      constructor
      · rintro ⟨captured, h, -⟩ o ho
        obtain ⟨valid, hvalid, -⟩ := bind_ok.mp h
        have hok := (keepM_eq_ok.mp hvalid).1 o ho
        exact (isValid_spec hinverse).1.mp hok (hunexpired o ho)
      · intro hblocked
        obtain ⟨attested, hmerge⟩ := isOk_iff.mp (isOk_merge_usable digests now hsound hinverse)
        have hkept : keepM (isValid digests (inverseForAttestations base plan) now)
            record.observations = .ok (usable digests (inverseForAttestations base plan) now
              record) := by
          refine keepM_eq_ok.mpr ⟨fun o ho => ?_, filter_congr fun o _ => ?_⟩
          · exact (isValid_spec hinverse).1.mpr fun _ => hblocked o ho
          · exact (isValid_spec hinverse).2
        exact ⟨{ base with liquidity := attested.liquidity },
          by rw [hkept, ok_bind, hmerge, ok_bind], .inr ⟨attested, hmerge, rfl⟩⟩
  · simp only [hforce, Bool.not_false, decide_false, Bool.and_false, false_implies, iff_true]
    refine ⟨base, rfl, .inl ⟨filter_eq_nil_iff.mpr fun o ho => ?_, rfl⟩⟩
    rw [hsound.expiry o ho]
    simp [hforce]

end Captures

/-! ## A card whose payment category is gone -/

def usd (n : I64) : Money := ⟨n, "USD"⟩

def savedAt : Timestamp := ⟨"2026-01-05T12:00:00Z", 1767614400000, by decide +kernel⟩

def capturedAt : Timestamp := ⟨"2026-01-05T13:00:00Z", 1767618000000, by decide +kernel⟩

def savedUntil : Timestamp := ⟨"2026-01-06T12:00:00Z", 1767700800000, by decide +kernel⟩

def ledgerEvidence (state : FactState) : FactEvidence := ⟨state, .actualLedger, none, none, []⟩

def ledgerAccount (accountId : String) (kind : LiquidityAccountKind) : AccountLiquidityFact where
  accountId := accountId
  currency := "USD"
  currencyEvidence := ledgerEvidence .known
  kind := kind
  kindEvidence := ledgerEvidence .known
  onBudget := true
  closed := false
  owned := true
  ownershipEvidence := ledgerEvidence .known
  recordedBalance := usd 0
  balanceEvidence := ledgerEvidence .known
  freshnessEvidence := ledgerEvidence .unknown
  activityEvidence := ledgerEvidence .known
  scheduleEvidence := ledgerEvidence .known
  baselineTransactionIds := []
  unsettledFlows := []
  holds := usd 0
  holdsEvidence := ledgerEvidence .unknown
  obligations := []
  credit := none
  ambiguityReasons := []

def cardPayment : CategoryLiquidityFact :=
  ⟨"card payment", "cash", "2026-01", .ordinary, .current, usd 0, ledgerEvidence .known⟩

def cardBudget (categories : List CategoryLiquidityFact)
    (h : 2 + categories.length < 4611686018427387000 := by decide) : FinancialSnapshot where
  source := ⟨"actual", "ledger", "budget", none⟩
  transactions := []
  liquidity := some ⟨"1", "", "2026-01", categories,
    [ledgerAccount "checking" .cash, ledgerAccount "card" .credit], [], h⟩
  contentHash := ""
  snapshotId := ""

def cardValues : ObservedValues where
  accountId := "card"
  currency := none
  kind := none
  owned := none
  currentLedgerConfirmed := false
  holds := none
  unsettledFlows := none
  obligations := none
  credit := some (some ⟨usd 1, false, "checking", "card payment", "2026-02-01", usd 0, "card"⟩)
  manual := by simp

def cardIntent : ObservationIntent := ⟨0, savedUntil, [cardValues], by decide⟩

def cardRecord : SupplementalRecord :=
  ⟨1, [⟨⟨cardValues, savedAt, savedUntil, by decide⟩, none, rfl⟩], savedUntil⟩

def permitted : Authority := ⟨true, true, true, true, fun _ => true, fun _ => true, fun _ => true⟩

def cardContext : SaveContext := ⟨permitted, permitted, permitted, none, none, none, savedAt⟩

def cardDigests : Digests :=
  ⟨fun material => material.accountId, fun content => content.source.budgetId⟩

/-- The declaration survives as long as the category is there. -/
theorem capture_survives_card :
    Survives cardDigests cardRecord capturedAt []
      (cardBudget [{ cardPayment with availability := usd 1 }]) :=
  (@capture_survives_iff cardDigests cardContext (cardBudget [cardPayment]) cardIntent cardRecord
    (by decide +kernel) capturedAt [] _).mpr fun _ => ⟨_, rfl, by decide +kernel⟩

/-- **Once the category is gone, every capture of the budget fails**, until the record expires. -/
theorem capture_fails_without_category :
    (saveObservations cardDigests cardContext (cardBudget [cardPayment]) cardIntent).stored =
        some cardRecord ∧
      isOk (saveObservations cardDigests cardContext (cardBudget [cardPayment])
        cardIntent).outcome = true ∧
      cardContext.now.millis < capturedAt.millis ∧
      ¬ Survives cardDigests cardRecord capturedAt [] (cardBudget []) := by
  refine ⟨by decide +kernel, by decide +kernel, by decide, ?_⟩
  rintro ⟨captured, h, -⟩
  have hfails : isOk (capturedSnapshot cardDigests false (some cardRecord) capturedAt []
    (cardBudget [])) = false := by decide +kernel
  rw [h] at hfails
  cases hfails

end BalanceFrame.Attestation
