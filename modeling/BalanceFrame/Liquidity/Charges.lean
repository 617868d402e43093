import BalanceFrame.Liquidity.Expiry
import BalanceFrame.Liquidity.Explanations

/-!
# Charges to category money

`prepare_account` (`crates/financial-core/src/liquidity_engine.rs`) lets categories cover an
account's reserves, over a copy of the running totals that it keeps on success only. A `Charge` is
one covered part; `accountCharges` are those an account makes until it stops, and `prepareRuns`
carries the totals from account to account as `checked_evaluate` does.
-/

namespace BalanceFrame.Liquidity

open Library List Bool

variable {economic : Economic} {s s' : Cash × Reserves} {n : I64}

/-! ## Charges -/

/-- The covered part of a reserve, and the bucket it is charged to. -/
structure Charge where
  bucket : Option String
  covered : I64

/-- The reason that covered parts are deducted under. -/
def fundedReason : String := "funded_category_obligation"

/-- The bucket of a reserve's category. -/
def reserveBucket (input : LiquidityInput) (categories : Categories) (r : Reserve) :
    Option String :=
  r.categoryId.bind fun cat => (currentCategory categories cat input).map (·.cashBucketId)

/-- The charges of the reserve loop, up to where it stops. -/
def reserveCharges (input : LiquidityInput) (categories : Categories) (now : Instant) :
    Cash × Amounts → List Reserve → List Charge
  | _, [] => []
  | s, r :: rest =>
    match coverReserve input categories now s.1.fact.currency s.2 r with
    | .error _ => []
    | .ok (covered, _) =>
      ⟨reserveBucket input categories r, covered⟩ ::
        match applyReserve input categories now s r with
        | .error _ => []
        | .ok s => reserveCharges input categories now s rest

/-- The steps of `prepareSteps` before the reserve loop. -/
def openAccount (input : LiquidityInput) (now : Instant) (a : Cash) : Prep (Cash × Reserves) := do
  stopAt a (checkEvidence a.fact now input.maxBudgetSnapshotAgeMinutes)
  let (a, economic) ← openBalance a
  let s ← openReserves input now economic a
  input.claimSet.bundles.foldlM (applyBundle economic now) s

/-- The charges of one account, whatever becomes of it. -/
def accountCharges (f : AccountLiquidityFact) (p : AccountLiquidityPolicy) (input : LiquidityInput)
    (categories : Categories) (now : Instant) (funded : Amounts) : List Charge :=
  if !input.sourceCoverageComplete || !eligible p f then []
  else
    match openAccount input now (openingCash f p) with
    | .error _ => []
    | .ok (a, reserves) => reserveCharges input categories now (a, funded) reserves.values

/-- What is charged to a bucket. -/
def chargedTo (bucket : String) (charges : List Charge) : Int :=
  ((charges.filter (·.bucket = some bucket)).map fun c => (c.covered : Int)).sum

/-- What of a bucket is used. -/
def usedOf (used : Amounts) (bucket : String) : Int := ((used.get? bucket).getD 0 : I64)

/-- The covered amounts that an account reports. -/
def fundedAmounts (a : Cash) : List I64 :=
  (a.output.deductions.filter (·.reason == fundedReason)).map (·.amount.minorUnits)

variable (bucket : String)

@[simp] theorem chargedTo_nil : chargedTo bucket [] = 0 := rfl

theorem chargedTo_cons (c : Charge) (charges : List Charge) :
    chargedTo bucket (c :: charges) =
      (if c.bucket = some bucket then (c.covered : Int) else 0) + chargedTo bucket charges := by
  unfold chargedTo
  by_cases h : c.bucket = some bucket
  · rw [filter_cons_of_pos (by simpa using h), map_cons, sum_cons, if_pos h]
  · rw [filter_cons_of_neg (by simpa using h), if_neg h, zero_add]

section Loop

variable {input : LiquidityInput} {categories : Categories} {now : Instant}

theorem coverReserve_charge {currency : String} {used used' : Amounts} {r : Reserve}
    {covered : I64} (h : coverReserve input categories now currency used r = .ok (covered, used'))
    (bucket : String) :
    usedOf used' bucket = usedOf used bucket +
      if reserveBucket input categories r = some bucket then (covered : Int) else 0 := by
  unfold coverReserve at h
  split at h
  · next hnone =>
    cases h
    have hbucket : reserveBucket input categories r = none := by
      unfold reserveBucket
      rw [hnone]
      rfl
    simp [hbucket]
  · next cat hcat =>
    obtain ⟨c, hc, h⟩ := bind_ok.mp h
    obtain ⟨-, h⟩ := rest_ok h
    obtain ⟨available, -, h⟩ := bind_ok.mp h
    obtain ⟨left, -, h⟩ := bind_ok.mp h
    obtain ⟨after, hafter, h⟩ := bind_ok.mp h
    cases h
    have hbucket : reserveBucket input categories r = some c.cashBucketId := by
      unfold reserveBucket
      rw [hcat, Option.bind_some, orStop_ok.mp hc]
      rfl
    have hafter := add_eq_ok.mp hafter
    unfold usedOf
    rw [hbucket, SortedMap.get?_insert]
    by_cases hb : c.cashBucketId = bucket
    · subst hb
      simpa using hafter
    · have hb' : some c.cashBucketId ≠ some bucket := fun h => hb (Option.some.inj h)
      rw [if_neg hb, if_neg hb', add_zero]

theorem fundedAmounts_deduct {a b : Cash} {reason id : String} {backing : Bool}
    (h : deduct a n reason id backing = .ok b) :
    fundedAmounts b = fundedAmounts a ++ if reason = fundedReason then [n] else [] := by
  unfold fundedAmounts
  rw [deduct_written h, filter_append, map_append]
  by_cases hr : reason = fundedReason
  · rw [if_pos hr, filter_cons_of_pos (by simpa [deduction] using hr)]
    rfl
  · rw [if_neg hr, filter_cons_of_neg (by simpa [deduction] using hr)]
    rfl

theorem applyReserve_charge {s s' : Cash × Amounts} {r : Reserve}
    (h : applyReserve input categories now s r = .ok s') :
    ∃ covered used', coverReserve input categories now s.1.fact.currency s.2 r =
        .ok (covered, used') ∧ s'.2 = used' ∧
      fundedAmounts s'.1 = fundedAmounts s.1 ++ [covered] := by
  unfold applyReserve at h
  obtain ⟨⟨covered, used'⟩, hcover, h⟩ := bind_ok.mp h
  dsimp only at h
  obtain ⟨a, ha, h⟩ := bind_ok.mp h
  obtain ⟨rest, -, h⟩ := bind_ok.mp h
  obtain ⟨b, hb, h⟩ := bind_ok.mp h
  cases h
  refine ⟨covered, used', stopAt_eq_ok.mp hcover, rfl, ?_⟩
  rw [fundedAmounts_deduct hb, if_neg (by decide), fundedAmounts_deduct ha, if_pos (by decide),
    append_nil]

/-- **The reserve loop adds its charges to the totals, and reports them.** -/
theorem reserves_charge : ∀ {reserves : List Reserve} {s s' : Cash × Amounts},
    reserves.foldlM (applyReserve input categories now) s = .ok s' →
      (∀ bucket, usedOf s'.2 bucket = usedOf s.2 bucket +
        chargedTo bucket (reserveCharges input categories now s reserves)) ∧
      fundedAmounts s'.1 = fundedAmounts s.1 ++
        (reserveCharges input categories now s reserves).map (·.covered)
  | [], s, s', h => by
    cases h
    simp [reserveCharges]
  | r :: reserves, s, s', h => by
    obtain ⟨t, hstep, h⟩ := foldlM_cons_ok.mp h
    obtain ⟨covered, used', hcover, rfl, hamounts⟩ := applyReserve_charge hstep
    obtain ⟨htotals, hreported⟩ := reserves_charge h
    have hcharges : reserveCharges input categories now s (r :: reserves) =
        ⟨reserveBucket input categories r, covered⟩ ::
          reserveCharges input categories now t reserves := by
      rw [reserveCharges, hcover, hstep]
    rw [hcharges]
    refine ⟨fun bucket => ?_, ?_⟩
    · rw [htotals, coverReserve_charge hcover, chargedTo_cons, add_assoc]
    · rw [hreported, hamounts, append_assoc]
      rfl

end Loop

/-! ## Before the loop -/

section Opening

variable {a b : Cash}

theorem unfunded_deduct {reason id : String} {backing : Bool}
    (ha : fundedAmounts a = []) (hr : reason ≠ fundedReason)
    (h : deduct a n reason id backing = .ok b) : fundedAmounts b = [] := by
  rw [fundedAmounts_deduct h, ha, if_neg hr]
  rfl

theorem unfunded_excludeFlow {flow : UnsettledFlow} (ha : fundedAmounts a = [])
    (h : excludeFlow a flow n = .ok b) : fundedAmounts b = [] := by
  unfold excludeFlow at h
  split at h
  · obtain ⟨adjusted, -, h⟩ := bind_ok.mp h
    cases h
    unfold fundedAmounts Cash.addDeduction
    dsimp only
    rw [filter_append, map_append]
    have hreason : ∀ inflow : Bool, ((if inflow = true then "unsettled_inflow_excluded"
        else "unincluded_outflow") == fundedReason) = false := by
      decide
    rw [filter_cons_of_neg (by rw [hreason]; exact Bool.false_ne_true)]
    simpa [fundedAmounts] using ha
  · cases h
    exact ha

theorem unfunded_recordFlow {s s' : Cash × Economic} {flow : UnsettledFlow}
    (hs : fundedAmounts s.1 = []) (h : recordFlow s flow = .ok s') : fundedAmounts s'.1 = [] := by
  unfold recordFlow at h
  obtain ⟨n, -, h⟩ := bind_ok.mp h
  obtain ⟨-, h⟩ := rest_ok h
  obtain ⟨b, hb, h⟩ := bind_ok.mp h
  cases h
  exact unfunded_excludeFlow hs hb

theorem unfunded_openBalance (ha : fundedAmounts a = [])
    (h : openBalance a = .ok (b, economic)) : fundedAmounts b = [] := by
  unfold openBalance at h
  obtain ⟨adjusted, -, h⟩ := bind_ok.mp h
  dsimp only at h
  obtain ⟨-, h⟩ := rest_ok h
  obtain ⟨-, h⟩ := rest_ok h
  obtain ⟨-, h⟩ := rest_ok h
  obtain ⟨⟨c, flows⟩, hflows, h⟩ := bind_ok.mp h
  dsimp only at h
  obtain ⟨buffer, -, h⟩ := bind_ok.mp h
  obtain ⟨d, hd, h⟩ := bind_ok.mp h
  obtain ⟨holds, -, h⟩ := bind_ok.mp h
  obtain ⟨e, he, h⟩ := bind_ok.mp h
  cases h
  have hc : fundedAmounts c = [] :=
    foldlM_inv (P := fun s : Cash × Economic => fundedAmounts s.1 = [])
      (fun _ _ _ _ hs h => unfunded_recordFlow hs h) ha hflows
  have hreset : fundedAmounts { c with head := c.adjusted, backing := c.adjusted } = [] := hc
  exact unfunded_deduct (unfunded_deduct hreset (by decide) hd) (by decide) he

theorem unfunded_reserveObligation {horizonEnd : Instant}
    {o : CashObligation} (hs : fundedAmounts s.1 = [])
    (h : reserveObligation economic horizonEnd s o = .ok s') : fundedAmounts s'.1 = [] := by
  have hreason : ∀ c : Prop, [Decidable c] → fundedAmounts (if c then
      s.1.addReason "date_only_obligation_reserved_conservatively" else s.1) = [] := by
    intro c _
    split
    · exact hs
    · exact hs
  unfold reserveObligation at h
  obtain ⟨n, -, h⟩ := bind_ok.mp h
  obtain ⟨due, -, h⟩ := bind_ok.mp h
  split at h
  · cases h
    exact hs
  · dsimp only at h
    split at h
    · obtain ⟨-, h⟩ := rest_ok h
      cases h
      exact hreason _
    · split at h
      · obtain ⟨-, h⟩ := rest_ok h
        cases h
        exact hreason _
      · split at h
        · obtain ⟨-, h⟩ := rest_ok h
          cases h
          exact hreason _
        · cases h
          exact hreason _

theorem unfunded_openReserves {input : LiquidityInput} {now : Instant} (ha : fundedAmounts a = [])
    (h : openReserves input now economic a = .ok s) : fundedAmounts s.1 = [] := by
  unfold openReserves at h
  obtain ⟨horizonEnd, -, h⟩ := bind_ok.mp h
  obtain ⟨⟨c, reserves⟩, hobligations, h⟩ := bind_ok.mp h
  dsimp only at h
  obtain ⟨-, h⟩ := rest_ok h
  obtain ⟨cards, -, h⟩ := bind_ok.mp h
  cases h
  have hc := foldlM_inv (P := fun s : Cash × Reserves => fundedAmounts s.1 = [])
    (fun _ _ _ _ hs h => unfunded_reserveObligation hs h) (b := (a, SortedMap.empty)) ha
    hobligations
  exact hc

theorem unfunded_holdDestination {e : LiquidityClaimEffect} {flow : Option UnsettledFlow}
    {bundleId : String} (ha : fundedAmounts a = [])
    (h : holdDestination a e n flow bundleId = .ok b) : fundedAmounts b = [] := by
  unfold holdDestination at h
  split at h
  · obtain ⟨adjusted, -, h⟩ := bind_ok.mp h
    exact unfunded_deduct (a := { a with adjusted := adjusted }) ha (by decide) h
  · cases h
    exact ha

theorem unfunded_applyEffect {bundleId : String}
    {e : LiquidityClaimEffect} (hs : fundedAmounts s.1 = [])
    (h : applyEffect economic bundleId s e = .ok s') : fundedAmounts s'.1 = [] := by
  unfold applyEffect at h
  split at h
  · cases h
    exact hs
  · obtain ⟨n, -, h⟩ := bind_ok.mp h
    obtain ⟨matchedId, -, h⟩ := bind_ok.mp h
    dsimp only at h
    obtain ⟨-, h⟩ := rest_ok h
    split at h
    · obtain ⟨c, hc, h⟩ := bind_ok.mp h
      cases h
      exact unfunded_holdDestination hs hc
    · obtain ⟨-, h⟩ := rest_ok h
      split at h
      · cases h
        exact hs
      · obtain ⟨reserves, -, h⟩ := bind_ok.mp h
        cases h
        exact hs

theorem unfunded_applyBundle {now : Instant}
    {bundle : LiquidityClaimBundle} (hs : fundedAmounts s.1 = [])
    (h : applyBundle economic now s bundle = .ok s') : fundedAmounts s'.1 = [] := by
  unfold applyBundle at h
  obtain ⟨isActive, -, h⟩ := bind_ok.mp h
  split at h
  · exact foldlM_inv (P := fun s : Cash × Reserves => fundedAmounts s.1 = [])
      (fun _ _ _ _ hs h => unfunded_applyEffect hs h) hs h
  · cases h
    exact hs

theorem unfunded_openAccount {input : LiquidityInput} {now : Instant}
    (ha : fundedAmounts a = []) (h : openAccount input now a = .ok s) :
    fundedAmounts s.1 = [] := by
  unfold openAccount at h
  obtain ⟨-, h⟩ := rest_ok h
  obtain ⟨⟨c, economic⟩, hbalance, h⟩ := bind_ok.mp h
  dsimp only at h
  obtain ⟨t, ht, h⟩ := bind_ok.mp h
  exact foldlM_inv (P := fun s : Cash × Reserves => fundedAmounts s.1 = [])
    (fun _ _ _ _ hs h => unfunded_applyBundle hs h)
    (unfunded_openReserves (unfunded_openBalance ha hbalance) ht) h

end Opening

/-! ## One account -/

section Account

variable {input : LiquidityInput} {categories : Categories} {now : Instant} {funded : Amounts}
  {f : AccountLiquidityFact} {p : AccountLiquidityPolicy}

theorem prepareSteps_eq (a : Cash) :
    prepareSteps input categories now funded a = (do
      let s ← openAccount input now a
      let t ← s.2.values.foldlM (applyReserve input categories now) (s.1, funded)
      let b ← applyCredit t.1 now input.maxBudgetSnapshotAgeMinutes
      let c ← refresh { b with known := true }
      pure (c, t.2)) := by
  simp only [prepareSteps, openAccount, bind_assoc]

theorem fundedAmounts_applyCredit {a b : Cash} {maxAge : Nat}
    (h : applyCredit a now maxAge = .ok b) : fundedAmounts b = fundedAmounts a := by
  unfold applyCredit at h
  split at h
  · obtain ⟨auth, -, h⟩ := bind_ok.mp h
    cases h
    rfl
  · cases h
    rfl

theorem refresh_known {a b : Cash} (hknown : a.known = true) (h : refresh a = .ok b) :
    b.known = true ∧ fundedAmounts b = fundedAmounts a := by
  unfold refresh at h
  rw [if_pos hknown] at h
  obtain ⟨shortfall, -, h⟩ := bind_ok.mp h
  cases h
  exact ⟨hknown, rfl⟩

theorem prepareSteps_charge {r : Cash × Amounts}
    (hcovered : (!input.sourceCoverageComplete || !eligible p f) = false)
    (h : prepareSteps input categories now funded (openingCash f p) = .ok r) :
    r.1.known = true ∧
      (∀ bucket, usedOf r.2 bucket = usedOf funded bucket +
        chargedTo bucket (accountCharges f p input categories now funded)) ∧
      fundedAmounts r.1 = (accountCharges f p input categories now funded).map (·.covered) := by
  rw [prepareSteps_eq] at h
  obtain ⟨⟨a, reserves⟩, hopen, h⟩ := bind_ok.mp h
  obtain ⟨t, hloop, h⟩ := bind_ok.mp h
  obtain ⟨b, hcredit, h⟩ := bind_ok.mp h
  obtain ⟨c, hrefresh, h⟩ := bind_ok.mp h
  cases h
  have hcharges : accountCharges f p input categories now funded =
      reserveCharges input categories now (a, funded) reserves.values := by
    unfold accountCharges
    rw [hcovered, if_neg Bool.false_ne_true, hopen]
  obtain ⟨htotals, hreported⟩ := reserves_charge hloop
  obtain ⟨hknown, hamounts⟩ := refresh_known rfl hrefresh
  have hnone := unfunded_openAccount (a := openingCash f p) rfl hopen
  rw [hcharges]
  refine ⟨hknown, htotals, ?_⟩
  have hb : fundedAmounts ({ b with known := true } : Cash) = fundedAmounts b := rfl
  rw [hamounts, hb, fundedAmounts_applyCredit hcredit, hreported, hnone, nil_append]

/-- **What an account charges**: a known one its charges, which are what it reports as covered; an
unknown one leaves the totals as they were. -/
theorem prepareAccount_charge :
    ((prepareAccount f p input categories now funded).1.known = true →
      (∀ bucket, usedOf (prepareAccount f p input categories now funded).2 bucket =
        usedOf funded bucket + chargedTo bucket (accountCharges f p input categories now funded)) ∧
      fundedAmounts (prepareAccount f p input categories now funded).1 =
        (accountCharges f p input categories now funded).map (·.covered)) ∧
    ((prepareAccount f p input categories now funded).1.known = false →
      (prepareAccount f p input categories now funded).2 = funded) := by
  unfold prepareAccount
  dsimp only
  split
  · exact ⟨fun h => absurd h Bool.false_ne_true, fun _ => rfl⟩
  · next hcoverage =>
    split
    · exact ⟨fun h => absurd h Bool.false_ne_true, fun _ => rfl⟩
    · next heligible =>
      have hcovered : (!input.sourceCoverageComplete || !eligible p f) = false := by
        rw [or_eq_false_iff]
        exact ⟨eq_false_iff.mpr hcoverage, eq_false_iff.mpr heligible⟩
      split
      · next a used hok =>
        obtain ⟨hknown, htotals, hreported⟩ := prepareSteps_charge hcovered hok
        refine ⟨fun _ => ⟨htotals, hreported⟩, fun h => ?_⟩
        rw [hknown] at h
        cases h
      · exact ⟨fun h => absurd h Bool.false_ne_true, fun _ => rfl⟩

end Account

/-! ## All accounts -/

/-- The preparation of one account: the totals before it, the account and the totals after it, and
what it charged on the way. -/
structure PrepareRun where
  fact : AccountLiquidityFact
  account : Cash
  before : Amounts
  after : Amounts
  charges : List Charge

/-- The preparations of accounts, one after another. -/
def prepareRuns (input : LiquidityInput) (categories : Categories) (now : Instant) :
    Amounts → List AccountLiquidityFact → List PrepareRun
  | _, [] => []
  | funded, f :: rest =>
    let result := prepareAccount f (policyOf input f) input categories now funded
    { fact := f, account := result.1, before := funded, after := result.2
      charges := accountCharges f (policyOf input f) input categories now funded } ::
        prepareRuns input categories now result.2 rest

/-- What the known accounts charge to a bucket. -/
def knownCharges (bucket : String) (runs : List PrepareRun) : Int :=
  ((runs.filter (·.account.known)).map fun r => chargedTo bucket r.charges).sum

theorem knownCharges_cons (r : PrepareRun) (runs : List PrepareRun) :
    knownCharges bucket (r :: runs) =
      (if r.account.known = true then chargedTo bucket r.charges else 0) +
        knownCharges bucket runs := by
  unfold knownCharges
  by_cases h : r.account.known = true
  · rw [filter_cons_of_pos (p := fun r : PrepareRun => r.account.known) h, map_cons,
      sum_cons, if_pos h]
  · rw [filter_cons_of_neg (p := fun r : PrepareRun => r.account.known) h, if_neg h, zero_add]

section Runs

variable {input : LiquidityInput} {categories : Categories} {now : Instant}

theorem foldl_prepareNext (bucket : String) :
    ∀ (fs : List AccountLiquidityFact) (s : Accounts × Amounts),
      (fs.foldl (prepareNext input categories now) s).1 =
        (prepareRuns input categories now s.2 fs).foldl
          (fun accounts r => accounts.insert r.fact.accountId r.account) s.1 ∧
      usedOf (fs.foldl (prepareNext input categories now) s).2 bucket =
        usedOf s.2 bucket + knownCharges bucket (prepareRuns input categories now s.2 fs)
  | [], s => by
    simp [prepareRuns, knownCharges]
  | f :: fs, s => by
    obtain ⟨haccounts, htotals⟩ :=
      foldl_prepareNext bucket fs (prepareNext input categories now s f)
    obtain ⟨hknown, hunknown⟩ :=
      @prepareAccount_charge input categories now s.2 f (policyOf input f)
    refine ⟨haccounts, ?_⟩
    rw [foldl_cons, htotals, prepareRuns, knownCharges_cons, ← add_assoc]
    congr 1
    by_cases h : (prepareAccount f (policyOf input f) input categories now s.2).1.known = true
    · rw [if_pos h]
      exact (hknown h).1 bucket
    · rw [if_neg h, add_zero]
      exact congrArg (usedOf · bucket) (hunknown (eq_false_iff.mpr h))

theorem prepareRuns_mem {r : PrepareRun} :
    ∀ {fs : List AccountLiquidityFact} {funded : Amounts},
      r ∈ prepareRuns input categories now funded fs →
        r.account =
          (prepareAccount r.fact (policyOf input r.fact) input categories now r.before).1 ∧
        r.after = (prepareAccount r.fact (policyOf input r.fact) input categories now r.before).2 ∧
        r.charges = accountCharges r.fact (policyOf input r.fact) input categories now r.before
  | [], funded, h => absurd h not_mem_nil
  | f :: fs, funded, h => by
    rw [prepareRuns] at h
    rcases mem_cons.mp h with rfl | h
    · exact ⟨rfl, rfl, rfl⟩
    · exact prepareRuns_mem h

theorem bounded_foldl (hkeyed : Keyed categories) :
    ∀ (fs : List AccountLiquidityFact) (s : Accounts × Amounts), Bounded categories s.2 →
      Bounded categories (fs.foldl (prepareNext input categories now) s).2
  | [], _, hs => hs
  | f :: fs, s, hs => bounded_foldl hkeyed fs (prepareNext input categories now s f)
      (prepareAccount_bounded hkeyed hs)

end Runs

/-- **Category money covers each obligation at most once across accounts.** In the runs behind the
prepared accounts, a known account reports as covered exactly what it charged, an unknown one leaves
the totals as they were, and what the known ones charge to a bucket is at most what it has. -/
theorem funded_within_availability (input : LiquidityInput) (facts : LiquidityFacts)
    (now : Instant) :
    let runs := prepareRuns input (categoryMap facts) now SortedMap.empty (orderedAccounts facts)
    (prepareAccounts input facts (categoryMap facts) now).1 =
        runs.foldl (fun accounts r => accounts.insert r.fact.accountId r.account)
          SortedMap.empty ∧
      (∀ r ∈ runs, r.account.known = true →
        fundedAmounts r.account = r.charges.map (·.covered)) ∧
      (∀ r ∈ runs, r.account.known = false → r.after = r.before) ∧
      ∀ c ∈ (categoryMap facts).values,
        knownCharges c.cashBucketId runs ≤ max 0 (c.availability.minorUnits : Int) := by
  intro runs
  refine ⟨?_, fun r hr hknown => ?_, fun r hr hunknown => ?_, fun c hc => ?_⟩
  · exact (foldl_prepareNext "" (orderedAccounts facts) (SortedMap.empty, SortedMap.empty)).1
  · obtain ⟨haccount, -, hcharges⟩ := prepareRuns_mem hr
    rw [haccount] at hknown
    rw [haccount, hcharges]
    exact (prepareAccount_charge.1 hknown).2
  · obtain ⟨haccount, hafter, -⟩ := prepareRuns_mem hr
    rw [haccount] at hunknown
    rw [hafter]
    exact prepareAccount_charge.2 hunknown
  · have hbounded := @bounded_foldl input (categoryMap facts) now (categoryMap_keyed facts)
      (orderedAccounts facts) (SortedMap.empty, SortedMap.empty) (bounded_empty _) c hc
    obtain ⟨-, htotals⟩ := @foldl_prepareNext input (categoryMap facts) now c.cashBucketId
      (orderedAccounts facts) (SortedMap.empty, SortedMap.empty)
    have hused := hbounded.2
    have hzero : usedOf SortedMap.empty c.cashBucketId = 0 := rfl
    unfold usedOf at htotals hzero
    rw [htotals, hzero, zero_add] at hused
    exact hused

end BalanceFrame.Liquidity
