import BalanceFrame.Decision.Remaining

/-!
# The card's ledger and the engine's

`category_totals` and `checked_evaluate` keep two ledgers of one category: the card subtracts due
obligations and the claims that do not mirror one, the engine subtracts every claim. The two also
decide on their own which bundles are active.
-/

namespace BalanceFrame.Decision

open Library Liquidity Option

/-! ## Activity -/

/-- The bundle's money has moved, and the bundle is recorded as cancelled or expired. -/
def InitiatedAndOver (b : LiquidityClaimBundle) : Prop :=
  b.initiated = true ∧ (b.state = .cancelled ∨ b.state = .expired)

variable {now : Instant}

theorem activeClaim_iff {b : LiquidityClaimBundle} {evaluatedAt : String} {answer : Bool}
    (hnow : instant evaluatedAt = .ok now) (h : active b now = .ok answer) :
    activeClaim b evaluatedAt = answer ↔ ¬ InitiatedAndOver b := by
  obtain ⟨expiry, hexpiry, h⟩ := bind_ok.mp h
  cases h
  obtain ⟨at_, hat, hregular, hmoment⟩ := canonicalTimestamp_of_instant hnow
  obtain ⟨end_, hend, hregular', hmoment'⟩ := canonicalTimestamp_of_instant hexpiry
  have horder : at_.before end_ = decide (now < expiry) := by
    rw [Bool.eq_iff_iff, before_iff hregular hregular', hmoment, hmoment', decide_eq_true_eq]
  unfold activeClaim InitiatedAndOver
  rw [hend, hat]
  dsimp only
  rw [horder]
  generalize decide (now < expiry) = early
  cases b.state <;> cases b.initiated <;> cases early <;> simp

/-! ## The two ledgers -/

/-- The card treats the bundles as the engine does and shows no more of a current category. -/
structure NeverMore (r : DecisionCardRequest) (facts : LiquidityFacts) (totals : Totals)
    (result : AccountAwareSpendabilityResult) : Prop where
  active : ∀ now, instant r.context.evaluatedAt = .ok now → ∀ b ∈ r.claimSet.bundles,
    active b now = .ok (activeClaim b r.context.evaluatedAt)
  categories : ∀ c ∈ facts.categories, c.periodKind = .current →
    ∀ t, totals.get? (periodKey c) = some t →
      ∀ capacity ∈ result.categories, capacity.cashBucketId = c.cashBucketId →
        ∀ x, capacity.remainingAvailability = some x →
          max 0 ((t.availability : Int) - t.reservations - t.commitments) ≤
            max 0 (x.minorUnits : Int)

/-- No bundle is initiated and over, and in every current category with valid evidence the claims
that mirror due obligations come to no more than the obligations, or nothing is left besides. -/
structure Separate (r : DecisionCardRequest) (facts : LiquidityFacts) : Prop where
  bundles : ∀ b ∈ r.claimSet.bundles, ¬ InitiatedAndOver b
  categories : ∀ now, instant r.context.evaluatedAt = .ok now → ∀ c ∈ facts.categories,
    c.periodKind = .current → isOk (categoryUnits (engineInput r .none) facts now c) = true →
      mirroredIn r facts c.categoryId ≤ committedTo r facts c.categoryId ∨
        (c.availability.minorUnits : Int) ≤
          reservedIn r facts c.categoryId + committedTo r facts c.categoryId

theorem categoryUnits_month {input : LiquidityInput} {facts : LiquidityFacts}
    {c : CategoryLiquidityFact} (h : isOk (categoryUnits input facts now c) = true)
    (hcurrent : c.periodKind = .current) : c.asOfMonth = facts.asOfMonth := by
  obtain ⟨n, hn⟩ := isOk_iff.mp h
  obtain ⟨-, hn⟩ := rest_ok hn
  obtain ⟨units, -, hn⟩ := bind_ok.mp hn
  obtain ⟨_, hperiod, hn⟩ := bind_ok.mp hn
  simpa [hcurrent] using hperiod

theorem engineInput_facts {r : DecisionCardRequest} {scenario : LiquidityScenario}
    {result : AccountAwareSpendabilityResult}
    (h : checkedEvaluate (engineInput r scenario) = .ok result) :
    ∃ facts, r.financialSnapshot.liquidity = some facts ∧
      (engineInput r scenario).facts = some facts := by
  obtain ⟨o, hopen, -⟩ := bind_ok.mp h
  obtain ⟨clock, -, hopen⟩ := bind_ok.mp hopen
  obtain ⟨facts, hfacts, -⟩ := bind_ok.mp hopen
  have hsome := (checkIdentities_ok hfacts).1
  refine ⟨facts, ?_, hsome⟩
  unfold engineInput at hsome
  dsimp only at hsome
  split at hsome
  · cases hsome
  · exact hsome

theorem heldEffects_eq {r : DecisionCardRequest}
    (h : ∀ b ∈ r.claimSet.bundles, isActive now b = activeClaim b r.context.evaluatedAt) :
    (activeEffects r.claimSet.bundles now).filter holdsCategory = heldEffects r := by
  unfold activeEffects heldEffects claimedEffects
  rw [List.filter_congr h]

theorem remainder_le_iff {availability mirrored reserved committed : Int} :
    max 0 (availability - reserved - committed) ≤ max 0 (availability - (mirrored + reserved)) ↔
      mirrored ≤ committed ∨ availability ≤ reserved + committed := by
  omega

/-- **When the card shows no more than the engine.** For every request whose totals and whose
evaluation without a scenario succeed, the card treats the bundles as the engine does and shows no
more of any current category if and only if the two ledgers are separate. -/
theorem totals_within_engine (r : DecisionCardRequest) (facts : LiquidityFacts) (totals : Totals)
    (result : AccountAwareSpendabilityResult) (hfacts : r.financialSnapshot.liquidity = some facts)
    (htotals : categoryTotals r = .ok totals)
    (hresult : checkedEvaluate (engineInput r .none) = .ok result) :
    NeverMore r facts totals result ↔ Separate r facts := by
  obtain ⟨found, hfound, hconsistent, hspec⟩ := categoryTotals_spec htotals
  obtain rfl := some.inj (hfacts.symm.trans hfound)
  obtain ⟨found, hfound', hinput⟩ := engineInput_facts hresult
  obtain rfl := some.inj (hfacts.symm.trans hfound')
  obtain ⟨now, hnow, hactive, hshows⟩ := checkedEvaluate_remaining hinput rfl hresult
  have hagree : ∀ b ∈ r.claimSet.bundles,
      isActive now b = activeClaim b r.context.evaluatedAt ↔ ¬ InitiatedAndOver b := fun b hb =>
    eq_comm.trans (activeClaim_iff hnow (hactive b hb))
  -- on bundles treated alike, one category's inequality is one of the condition's disjunctions
  have hcategory : (∀ b ∈ r.claimSet.bundles, ¬ InitiatedAndOver b) → ∀ c ∈ facts.categories,
      c.periodKind = .current →
        isOk (categoryUnits (engineInput r .none) facts now c) = true →
        ∃ t, totals.get? (periodKey c) = some t ∧
          Shows (engineInput r .none) facts now (heldIn r c.categoryId) result c ∧
          (max 0 ((t.availability : Int) - t.reservations - t.commitments) ≤
              max 0 ((c.availability.minorUnits : Int) - heldIn r c.categoryId) ↔
            mirroredIn r facts c.categoryId ≤ committedTo r facts c.categoryId ∨
              (c.availability.minorUnits : Int) ≤
                reservedIn r facts c.categoryId + committedTo r facts c.categoryId) := by
    intro hover c hc hcurrent hunits
    have hmonth := categoryUnits_month hunits hcurrent
    have heffects := heldEffects_eq fun b hb => (hagree b hb).mpr (hover b hb)
    obtain ⟨t, ht, havail, hres, hcom⟩ := hspec c hc hmonth
    have hshow := hshows (heffects ▸ hconsistent) c hc
    rw [show (engineInput r .none).claimSet.bundles = r.claimSet.bundles from rfl, heffects]
      at hshow
    refine ⟨t, ht, hshow, ?_⟩
    rw [havail, hres, hcom, heldIn_eq r facts c.categoryId]
    exact remainder_le_iff
  constructor
  · intro hnever
    have hover : ∀ b ∈ r.claimSet.bundles, ¬ InitiatedAndOver b := fun b hb =>
      (activeClaim_iff hnow (hnever.active now hnow b hb)).mp rfl
    refine ⟨hover, fun now' hnow' c hc hcurrent hunits => ?_⟩
    obtain rfl := Except.ok.inj (hnow.symm.trans hnow')
    obtain ⟨t, ht, hshow, hiff⟩ := hcategory hover c hc hcurrent hunits
    obtain ⟨capacity, hcapacity, hbucket⟩ := hshow.shown
    have hremaining := hshow.remaining capacity hcapacity hbucket
    rw [if_pos hunits] at hremaining
    obtain ⟨x, hx, hvalue⟩ := hremaining (categoryUnits_month hunits hcurrent)
    have hle := hnever.categories c hc hcurrent t ht capacity hcapacity hbucket x hx
    rw [hvalue] at hle
    exact hiff.mp hle
  · intro hseparate
    refine ⟨fun now' hnow' b hb => ?_, fun c hc hcurrent t ht capacity hcapacity hbucket x hx => ?_⟩
    · obtain rfl := Except.ok.inj (hnow.symm.trans hnow')
      have hactiveb : active b now = .ok (isActive now b) := hactive b hb
      rw [hactiveb, (hagree b hb).mpr (hseparate.bundles b hb)]
    · by_cases hunits : isOk (categoryUnits (engineInput r .none) facts now c) = true
      · obtain ⟨t', ht', hshow, hiff⟩ := hcategory hseparate.bundles c hc hcurrent hunits
        obtain rfl := some.inj (ht.symm.trans ht')
        have hremaining := hshow.remaining capacity hcapacity hbucket
        rw [if_pos hunits] at hremaining
        obtain ⟨x', hx', hvalue⟩ := hremaining (categoryUnits_month hunits hcurrent)
        obtain rfl := some.inj (hx.symm.trans hx')
        rw [hvalue]
        exact hiff.mpr (hseparate.categories now hnow c hc hcurrent hunits)
      · have hover := heldEffects_eq fun b hb => (hagree b hb).mpr (hseparate.bundles b hb)
        have hremaining := (hshows (hover ▸ hconsistent) c hc).remaining capacity hcapacity hbucket
        rw [if_neg hunits, hx] at hremaining
        cases hremaining

/-! ## A household's card -/

def householdFacts : LiquidityFacts := household.facts.get rfl

def foodClaim (state : LiquidityClaimState) (initiated : Bool) : LiquidityClaimBundle where
  id := "claim"
  creationSnapshotId := "old"
  creationPolicyVersion := "old"
  state := state
  expiresAt := "2026-01-01T00:00:00Z"
  initiated := initiated
  effects := [⟨.category, "food", usd (.ofInt 45), "purchase", none, some "food", false, []⟩]

def householdCard (b : LiquidityClaimBundle) : DecisionCardRequest where
  financialSnapshot :=
    { snapshotId := "snapshot", contentHash := "content", legacySnapshot := ⟨[], [], []⟩
      coverage := ⟨.complete, .complete, .complete⟩, observations := []
      liquidity := some householdFacts }
  context :=
    { evaluatedAt := "2026-01-02T00:00:00Z"
      horizon := ⟨"2026-01-01T00:00:00Z", "2026-02-01T00:00:00Z"⟩
      policy := ⟨some 10080⟩, policyVersion := "1", policyHash := "policy"
      snapshotId := "snapshot", contentHash := "content" }
  liquidityPolicy :=
    { version := "1", policyHash := "policy", expiresAt := "2026-02-01T00:00:00Z"
      accounts := [openPolicy "checking", openPolicy "savings"], transferRoutes := [] }
  claimSet := ⟨"1", [b]⟩
  priorAllocation := none
  validUntil := "2026-02-01T00:00:00Z"

/-- An initiated claim that has not been settled: both ledgers keep it. -/
theorem totals_within_engine_household :
    ∃ totals result, categoryTotals (householdCard (foodClaim .active true)) = .ok totals ∧
      checkedEvaluate (engineInput (householdCard (foodClaim .active true)) .none) = .ok result ∧
      (NeverMore (householdCard (foodClaim .active true)) householdFacts totals result ↔
        Separate (householdCard (foodClaim .active true)) householdFacts) := by
  have htotals : isOk (categoryTotals (householdCard (foodClaim .active true))) = true := by
    decide +kernel
  have hresult : isOk (checkedEvaluate
      (engineInput (householdCard (foodClaim .active true)) .none)) = true := by
    decide +kernel
  obtain ⟨totals, htotals⟩ := isOk_iff.mp htotals
  obtain ⟨result, hresult⟩ := isOk_iff.mp hresult
  exact ⟨totals, result, htotals, hresult,
    totals_within_engine _ _ totals result rfl htotals hresult⟩

def cardRemainder (r : DecisionCardRequest) (c : CategoryLiquidityFact) : Option Int :=
  (categoryTotals r).toOption.bind fun totals => (totals.get? (periodKey c)).map fun t =>
    max 0 ((t.availability : Int) - t.reservations - t.commitments)

def engineRemainder (r : DecisionCardRequest) (c : CategoryLiquidityFact) : Option Int :=
  (checkedEvaluate (engineInput r .none)).toOption.bind fun result =>
    (result.categories.find? (·.cashBucketId == c.cashBucketId)).bind fun capacity =>
      capacity.remainingAvailability.map fun x => max 0 (x.minorUnits : Int)

theorem expired_claim_shown :
    ¬ ∀ r facts totals result, r.financialSnapshot.liquidity = some facts →
      categoryTotals r = .ok totals → checkedEvaluate (engineInput r .none) = .ok result →
        NeverMore r facts totals result := by
  intro hall
  have hcard : cardRemainder (householdCard (foodClaim .expired true))
      (currentBucket "food" (.ofInt 60)) = some 60 := by decide +kernel
  have hengine : engineRemainder (householdCard (foodClaim .expired true))
      (currentBucket "food" (.ofInt 60)) = some 15 := by decide +kernel
  obtain ⟨totals, htotals, hcard⟩ := bind_eq_some_iff.mp hcard
  obtain ⟨t, ht, hshown⟩ := map_eq_some_iff.mp hcard
  obtain ⟨result, hresult, hengine⟩ := bind_eq_some_iff.mp hengine
  obtain ⟨capacity, hcapacity, hleft⟩ := bind_eq_some_iff.mp hengine
  obtain ⟨x, hx, hleft⟩ := map_eq_some_iff.mp hleft
  have hle := (hall _ householdFacts totals result rfl (toOption_eq_some.mp htotals)
    (toOption_eq_some.mp hresult)).categories _ List.mem_cons_self rfl t ht capacity
    (List.mem_of_find?_eq_some hcapacity) (by simpa using List.find?_some hcapacity) x hx
  rw [hshown, hleft] at hle
  omega

end BalanceFrame.Decision
