import BalanceFrame.Purchase.Covered
import BalanceFrame.Purchase.Snapshot

/-!
# Split spending and the budget

The evaluation counts what the top transactions carry (`spentOn`), not what their leaves carry
(`leafSpent`). `splitExcess` is the difference, and only the split transactions make it
(`leafSpent_eq`).
-/

namespace BalanceFrame.Purchase

open Library Liquidity List Option

/-! ## Outflows -/

/-- The outflow of a transaction. -/
def outflow (t : Transaction) : Int := max 0 (-(t.amount.minorUnits : Int))

/-- The outflow of a transaction that counts. -/
def spentOn (counts : Transaction → Bool) (t : Transaction) : Int :=
  if counts t then outflow t else 0

/-- What the leaves below a transaction carry. -/
def leafSpentOn (counts : Transaction → Bool) (t : Transaction) : Int :=
  (t.leaves.map (spentOn counts)).sum

/-- What the leaves of a snapshot carry. -/
def leafSpent (counts : Transaction → Bool) (transactions : List Transaction) : Int :=
  ((transactions.flatMap Transaction.leaves).map (spentOn counts)).sum

/-- What the leaves of split transactions carry beyond what the transactions themselves do. -/
def splitExcess (counts : Transaction → Bool) (transactions : List Transaction) : Int :=
  ((transactions.filter (!·.subtransactions.isEmpty)).map
    fun t => leafSpentOn counts t - spentOn counts t).sum

/-- **Only splits hide spending**: the leaves carry what the transactions do, and the splits'
excess. -/
theorem leafSpent_eq (counts : Transaction → Bool) (transactions : List Transaction) :
    leafSpent counts transactions =
      (transactions.map (spentOn counts)).sum + splitExcess counts transactions := by
  induction transactions with
  | nil => rfl
  | cons t rest ih =>
    have hcons : leafSpent counts (t :: rest) = leafSpentOn counts t + leafSpent counts rest := by
      unfold leafSpent leafSpentOn
      rw [flatMap_cons, map_append, sum_append]
    rw [hcons, ih, map_cons, sum_cons]
    unfold splitExcess
    by_cases hsplit : t.subtransactions = []
    · have hown : leafSpentOn counts t = spentOn counts t := by
        unfold leafSpentOn
        rw [leaves_of_unsplit hsplit]
        simp
      rw [filter_cons_of_neg (by simp [hsplit]), hown]
      omega
    · rw [filter_cons_of_pos (by simpa using hsplit), map_cons, sum_cons]
      omega

/-! ## Purchases with nothing reserved -/

/-- Nothing is reserved, rolled over or donated. -/
structure Plain (i : PurchaseInput) : Prop where
  policy : i.policy = ⟨.zero i.amount.currency, .zero i.amount.currency⟩
  semantic : i.semantic = .card
  rollover : i.rolloverAvailable = none
  donor : i.donorAvailable = none
  unprotected : i.isProtectedAccount = false

/-- What approves a plain purchase. -/
structure Affordable (i : PurchaseInput) (balance : Money) : Prop where
  effective : computeEffectiveBalance i = .ok (some balance)
  after : InI64 ((balance.minorUnits : Int) - i.amount.minorUnits)
  left : InI64 ((i.categoryBudget.minorUnits : Int) - i.categorySpent.minorUnits)
  room : (i.amount.minorUnits : Int) ≤ i.categoryBudget.minorUnits - i.categorySpent.minorUnits

theorem exists_sub {x y : Money} (hc : x.currency = y.currency)
    (h : InI64 ((x.minorUnits : Int) - y.minorUnits)) :
    ∃ z, x.sub y = .ok z ∧ z.currency = x.currency ∧
      (z.minorUnits : Int) = x.minorUnits - y.minorUnits :=
  ⟨⟨⟨_, h⟩, x.currency⟩, Money.sub_eq_ok.mpr ⟨hc, rfl, rfl⟩, rfl, rfl⟩

variable {balance : Money} {i : PurchaseInput}

theorem reserve_currency {reserved : Bool} {total b : Money}
    (h : reserve reserved total balance = .ok b) : b.currency = balance.currency := by
  unfold reserve at h
  split at h
  · exact (Money.sub_eq_ok.mp h).2.1
  · cases h
    rfl

theorem effective_currency (h : computeEffectiveBalance i = .ok (some balance)) :
    ∃ b, i.accountBalance = some b ∧ balance.currency = b.currency := by
  unfold computeEffectiveBalance at h
  split at h
  · cases h
  · rename_i b hb
    simp only [bind_ok, pure_ok, Except.ok.injEq, Option.some.injEq] at h
    obtain ⟨x, hx, y, hy, z, hz, rfl⟩ := h
    exact ⟨b, hb, by rw [reserve_currency hz, reserve_currency hy, reserve_currency hx]⟩

theorem verdict_plain (hplain : Plain i) {remaining projected : Money}
    (hprojected : balance.sub i.amount = .ok projected) :
    verdict i (some balance) remaining = categoryVerdict i remaining := by
  have hprotected : protectedVerdict i balance projected = .ok none := by
    unfold protectedVerdict
    rw [hplain.unprotected]
    rfl
  have hreservation : reservationVerdict i balance = .ok none := by
    unfold reservationVerdict PurchasePolicy.totalReservation
    rw [hplain.policy]
    have hzero : (Money.zero i.amount.currency).add (.zero i.amount.currency) =
        .ok (.zero i.amount.currency) := Money.add_eq_ok.mpr ⟨rfl, rfl, rfl⟩
    rw [hzero]
    rfl
  unfold verdict
  rw [if_neg (by rw [hplain.semantic]; decide)]
  dsimp only
  rw [hprojected, ok_bind, hprotected, ok_bind]
  dsimp only
  rw [hreservation, ok_bind]

theorem categoryVerdict_plain (hplain : Plain i) (remaining : Money) :
    ∃ v, categoryVerdict i remaining = .ok v ∧
      (v.kind = .approved ↔ (i.amount.minorUnits : Int) ≤ remaining.minorUnits) := by
  unfold categoryVerdict
  rw [hplain.donor]
  by_cases hless : (remaining.minorUnits : Int) < i.amount.minorUnits
  · rw [if_pos hless]
    exact ⟨_, rfl, iff_of_false (by simp) (not_le.mpr hless)⟩
  · rw [if_neg hless]
    exact ⟨_, rfl, iff_of_true rfl (not_lt.mp hless)⟩

theorem buildEvidence_ok {remaining projected : Money}
    (hremaining : i.categoryBudget.sub i.categorySpent = .ok remaining)
    (heffective : computeEffectiveBalance i = .ok (some balance))
    (hprojected : balance.sub i.amount = .ok projected)
    (hminimum : i.policy.minimumBalance = .zero projected.currency) :
    ∃ evidence, buildEvidence i = .ok evidence := by
  have habove : ∃ b, bufferAbove i projected = .ok b := by
    unfold bufferAbove
    have hsub : projected.sub (.zero projected.currency) = .ok projected :=
      Money.sub_eq_ok.mpr ⟨rfl, rfl, (Int.sub_zero _).symm⟩
    rw [hminimum, hsub]
    exact ⟨_, rfl⟩
  obtain ⟨b, hb⟩ := habove
  unfold buildEvidence
  rw [hremaining, ok_bind, heffective, ok_bind]
  simp only [mapM_some, hprojected, hb, map_eq_pure_bind, ok_bind, pure_ok]
  exact ⟨_, rfl⟩

theorem approved_plain_iff (hplain : Plain i) :
    (∃ out, evaluatePurchase i = .ok out ∧ out.outcome = .approved) ↔
      checkCurrencies i = .ok () ∧ blocked i = false ∧ ∃ balance, Affordable i balance := by
  have hadjusted : adjustedRemaining i = i.categoryBudget.sub i.categorySpent := by
    unfold adjustedRemaining rolloverApplied
    rw [hplain.rollover]
    cases i.categoryBudget.sub i.categorySpent <;> rfl
  constructor
  · rintro ⟨out, h, hout⟩
    unfold evaluatePurchase at h
    obtain ⟨⟨⟩, hcurrencies, h⟩ := bind_ok.mp h
    refine ⟨hcurrencies, ?_⟩
    cases hblocked : blocked i with
    | true =>
      rw [hblocked, if_pos rfl] at h
      obtain ⟨evidence, -, h⟩ := bind_ok.mp h
      cases h
      cases hout
    | false =>
      refine ⟨rfl, ?_⟩
      rw [hblocked, if_neg Bool.false_ne_true] at h
      obtain ⟨effective, heffective, h⟩ := bind_ok.mp h
      obtain ⟨remaining, hremaining, h⟩ := bind_ok.mp h
      obtain ⟨v, hv, h⟩ := bind_ok.mp h
      obtain ⟨evidence, -, h⟩ := bind_ok.mp h
      cases h
      cases effective with
      | none =>
        unfold verdict at hv
        rw [if_neg (by rw [hplain.semantic]; decide)] at hv
        cases hv
        cases hout
      | some balance =>
        have hprojected : ∃ projected, balance.sub i.amount = .ok projected := by
          unfold verdict at hv
          rw [if_neg (by rw [hplain.semantic]; decide)] at hv
          obtain ⟨projected, hprojected, -⟩ := bind_ok.mp hv
          exact ⟨projected, hprojected⟩
        obtain ⟨projected, hprojected⟩ := hprojected
        rw [verdict_plain hplain hprojected] at hv
        obtain ⟨w, hw, hkind⟩ := categoryVerdict_plain hplain remaining
        rw [hv] at hw
        cases hw
        rw [hadjusted] at hremaining
        obtain ⟨-, -, hleft⟩ := Money.sub_eq_ok.mp hremaining
        obtain ⟨-, -, hafter⟩ := Money.sub_eq_ok.mp hprojected
        have hroom := hkind.mp hout
        rw [hleft] at hroom
        exact ⟨balance, heffective, hafter ▸ projected.minorUnits.2,
          hleft ▸ remaining.minorUnits.2, hroom⟩
  · rintro ⟨hcurrencies, hblocked, balance, heffective, hafter, hleft, hroom⟩
    have hall : ∀ x ∈ [i.categoryBudget, i.categorySpent, i.policy.minimumBalance,
        i.policy.bufferAmount] ++ i.accountBalance.toList, x.currency = i.amount.currency := by
      unfold checkCurrencies at hcurrencies
      obtain ⟨⟨⟩, hfirst, hcurrencies⟩ := bind_ok.mp hcurrencies
      obtain ⟨⟨⟩, haccount, -⟩ := bind_ok.mp hcurrencies
      intro x hx
      rcases mem_append.mp hx with hx | hx
      · exact bne_eq_false_iff_eq.mp (reject_ok.mp (forM_eq_ok.mp hfirst x hx))
      · exact bne_eq_false_iff_eq.mp (reject_ok.mp (forM_eq_ok.mp haccount x hx))
    obtain ⟨b, hb, hcurrency⟩ := effective_currency heffective
    have hbalance : balance.currency = i.amount.currency := by
      rw [hcurrency, hall b (by simp [hb])]
    obtain ⟨projected, hprojected, hpc, -⟩ := exists_sub hbalance hafter
    obtain ⟨remaining, hremaining, -, hunits⟩ := exists_sub
      ((hall i.categoryBudget (by simp)).trans (hall i.categorySpent (by simp)).symm) hleft
    obtain ⟨v, hv, hkind⟩ := categoryVerdict_plain hplain remaining
    obtain ⟨evidence, hevidence⟩ := buildEvidence_ok hremaining heffective hprojected
      (by rw [hplain.policy, hpc, hbalance])
    have hout : ∃ out, evaluatePurchase i = .ok out ∧ out.outcome = v.kind := by
      unfold evaluatePurchase
      rw [hcurrencies, ok_bind, hblocked, if_neg Bool.false_ne_true, heffective, ok_bind, hadjusted,
        hremaining, ok_bind, verdict_plain hplain hprojected, hv, ok_bind, hevidence, ok_bind]
      exact ⟨_, rfl, rfl⟩
    obtain ⟨out, hout, hsame⟩ := hout
    exact ⟨out, hout, hsame.trans (hkind.mpr (by rw [hunits]; exact hroom))⟩

/-! ## Allowable evaluations -/

variable (r : PurchaseEvaluationRequest) (p : DecisionDataPolicy)

/-- What makes an evaluation allowable. -/
structure Allowed (hasStaleSnapshot hasStaleBankSync : Bool) (t : OutflowTotals)
    (proposed : I64) : Prop where
  category : r.categoryId ∈ r.snapshot.categories
  account : (proposedAccount r p).isSome
  compatible : hasIncompatibleMoney r p = false
  totals : outflowTotals r p = some t
  amount : r.proposedTransaction.amount.minorUnits.checkedAbs = some proposed
  fresh : hasStaleSnapshot = false ∧ hasStaleBankSync = false
  unblocked : p.uncategorizedMode = .block → (t.uncategorized : Int) = 0
  affordable : ∃ balance,
    Affordable (purchaseInput r p t proposed hasStaleSnapshot hasStaleBankSync) balance

variable {r p}

theorem budgetAmount_currency (r : PurchaseEvaluationRequest) :
    (budgetAmount r).currency = calculationCurrency r := by
  unfold budgetAmount calculationCurrency
  cases budgetCategory r <;> rfl

theorem plain_purchaseInput (t : OutflowTotals) (proposed : I64) (stale sync : Bool) :
    Plain (purchaseInput r p t proposed stale sync) := ⟨rfl, rfl, rfl, rfl, rfl⟩

theorem proposedAccount_included {account : Account} (h : proposedAccount r p = some account) :
    accountIsIncluded p r.proposedTransaction.accountId = true ∧ r.snapshot.accounts ≠ [] := by
  unfold proposedAccount at h
  obtain ⟨hfound, hincluded⟩ := filter_eq_some_iff.mp h
  have hid : account.id = r.proposedTransaction.accountId := by
    simpa using find?_some hfound
  exact ⟨hid ▸ hincluded, ne_nil_of_mem (mem_of_find?_eq_some hfound)⟩

theorem checkCurrencies_purchaseInput (hcompatible : hasIncompatibleMoney r p = false)
    (t : OutflowTotals) (proposed : I64) (stale sync : Bool) :
    checkCurrencies (purchaseInput r p t proposed stale sync) = .ok () := by
  unfold hasIncompatibleMoney at hcompatible
  simp only [Bool.or_eq_false_iff] at hcompatible
  obtain ⟨⟨-, haccount⟩, -⟩ := hcompatible
  have hsame : ∀ x : Money, x.currency = calculationCurrency r →
      checkCurrency (purchaseInput r p t proposed stale sync) x = .ok () := fun x hx =>
    reject_ok.mpr (bne_eq_false_iff_eq.mpr hx)
  unfold checkCurrencies
  simp only [check_bind_ok, forM_eq_ok]
  refine ⟨fun x hx => hsame x ?_, fun x hx => hsame x ?_, fun x hx => hsame x ?_,
    fun x hx => absurd hx not_mem_nil, fun x hx => absurd hx not_mem_nil⟩
  · simp only [purchaseInput, mem_cons, not_mem_nil, or_false] at hx
    rcases hx with rfl | rfl | rfl | rfl
    · exact budgetAmount_currency r
    · rfl
    · rfl
    · rfl
  · obtain ⟨account, hfound, rfl⟩ := map_eq_some_iff.mp (mem_toList.mp hx)
    rw [hfound] at haccount
    simpa using haccount
  · have hx := (mem_filter.mp hx).1
    simp only [purchaseInput, mem_cons, not_mem_nil, or_false] at hx
    rcases hx with rfl | rfl | rfl <;> rfl

theorem allowable_iff {stale sync : Bool} :
    (evaluatePurchaseWithPolicy r p stale sync).allowable = true ↔
      ∃ t proposed, Allowed r p stale sync t proposed := by
  unfold evaluatePurchaseWithPolicy
  dsimp only
  by_cases hcategory : r.categoryId ∈ r.snapshot.categories
  swap
  · rw [if_pos (by simpa using hcategory)]
    exact iff_of_false Bool.false_ne_true fun ⟨_, _, h⟩ => hcategory h.category
  rw [if_neg (by simpa using hcategory)]
  by_cases haccount : ((!r.snapshot.accounts.isEmpty && (proposedAccount r p).isNone) ||
      !accountIsIncluded p r.proposedTransaction.accountId) = true
  · rw [if_pos haccount]
    refine iff_of_false Bool.false_ne_true fun ⟨_, _, h⟩ => ?_
    obtain ⟨account, hfound⟩ := isSome_iff_exists.mp h.account
    have hincluded := proposedAccount_included hfound
    simp [hfound, hincluded] at haccount
  rw [if_neg haccount]
  cases hmoney : hasIncompatibleMoney r p with
  | true =>
    rw [if_pos rfl]
    refine iff_of_false Bool.false_ne_true fun ⟨_, _, h⟩ => ?_
    rw [h.compatible] at hmoney
    cases hmoney
  | false =>
    rw [if_neg Bool.false_ne_true]
    cases htotals : outflowTotals r p with
    | none =>
      refine iff_of_false Bool.false_ne_true fun ⟨_, _, h⟩ => ?_
      rw [h.totals] at htotals
      cases htotals
    | some t =>
      dsimp only
      cases habs : r.proposedTransaction.amount.minorUnits.checkedAbs with
      | none =>
        refine iff_of_false Bool.false_ne_true fun ⟨_, _, h⟩ => ?_
        rw [h.amount] at habs
        cases habs
      | some proposed =>
        have hplain := plain_purchaseInput (r := r) (p := p) t proposed stale sync
        have hcheck := checkCurrencies_purchaseInput hmoney t proposed stale sync
        have hanswered : (answered r ⟨t.spent, calculationCurrency r⟩ stale
            (evaluatePurchase (purchaseInput r p t proposed stale sync))).allowable = true ↔
            (∃ out, evaluatePurchase (purchaseInput r p t proposed stale sync) = .ok out ∧
              out.outcome = .approved) ∧ stale = false := by
          cases evaluatePurchase (purchaseInput r p t proposed stale sync) with
          | error e => simp [answered, refused]
          | ok out => simp [answered]
        dsimp only
        rw [hanswered, approved_plain_iff hplain]
        constructor
        · rintro ⟨⟨-, hblocked, balance, haffordable⟩, hstale⟩
          unfold blocked at hblocked
          simp only [Bool.or_eq_false_iff] at hblocked
          obtain ⟨⟨-, hblock⟩, hsync⟩ := hblocked
          refine ⟨t, proposed, hcategory, ?_, hmoney, htotals, habs, ⟨hstale, hsync⟩,
            fun hmode => ?_, balance, haffordable⟩
          · obtain ⟨b, hb, -⟩ := effective_currency haffordable.effective
            obtain ⟨account, hfound, -⟩ := map_eq_some_iff.mp hb
            rw [hfound]
            rfl
          · simpa [purchaseInput, hmode, Money.isZero] using hblock
        · rintro ⟨t', proposed', h⟩
          obtain rfl : t = t' := some.inj (htotals.symm.trans h.totals)
          obtain rfl : proposed = proposed' := some.inj (habs.symm.trans h.amount)
          refine ⟨⟨hcheck, ?_, h.affordable⟩, h.fresh.1⟩
          have hzero : (p.uncategorizedMode == .block && !(t.uncategorized : Int) == 0) =
              false := by
            by_cases hmode : p.uncategorizedMode = .block
            · simp [hmode, h.unblocked hmode]
            · simp [hmode]
          unfold blocked
          simp only [purchaseInput, Money.isZero, h.fresh.1, h.fresh.2, hzero, Bool.false_and,
            Bool.or_false]

/-! ## The budget -/

/-- The purchase and the category's leaves. -/
def spentWithLeaves (r : PurchaseEvaluationRequest) (p : DecisionDataPolicy) : Int :=
  |(r.proposedTransaction.amount.minorUnits : Int)| +
    leafSpent (contributesToCategory r p) r.snapshot.transactions

/-- The splits carry no more than the counted spending leaves of the budget. -/
def SplitsFit (r : PurchaseEvaluationRequest) (p : DecisionDataPolicy) : Prop :=
  splitExcess (contributesToCategory r p) r.snapshot.transactions ≤
    (budgetAmount r).minorUnits -
      (r.snapshot.transactions.map (spentOn (contributesToCategory r p))).sum -
      |(r.proposedTransaction.amount.minorUnits : Int)|

theorem splitsFit_iff : SplitsFit r p ↔ spentWithLeaves r p ≤ (budgetAmount r).minorUnits := by
  unfold SplitsFit spentWithLeaves
  rw [leafSpent_eq]
  omega

def spending (category : Option String) (amount : I64) (parts : List Transaction) :
    Transaction where
  accountId := "checking"
  categoryId := category
  amount := ⟨amount, "USD"⟩
  cleared := true
  reconciled := true
  subtransactions := parts

def dinner : PurchaseEvaluationRequest where
  snapshot :=
    { snapshotDate := "2026-01-15"
      accounts := [⟨"checking", ⟨.wrap 1000, "USD"⟩⟩]
      transactions := [spending none (.wrap (-60)) [spending (some "food") (.wrap (-60)) []]]
      categories := ["food"]
      budgets := [⟨"2026-01", SortedMap.empty.insert "food" ⟨.wrap 100, "USD"⟩⟩] }
  proposedTransaction := spending (some "food") (.wrap (-50)) []
  categoryId := "food"

/-- The same purchase at another amount. -/
def PurchaseEvaluationRequest.withAmount (r : PurchaseEvaluationRequest) (n : I64) :
    PurchaseEvaluationRequest :=
  { r with
    proposedTransaction :=
      { r.proposedTransaction with amount := ⟨n, r.proposedTransaction.amount.currency⟩ } }

/-- **What is allowable stays so at a smaller amount.** -/
theorem smaller_allowable (r : PurchaseEvaluationRequest) (p : DecisionDataPolicy)
    (stale sync : Bool) (n : I64)
    (hn : |(n : Int)| ≤ |(r.proposedTransaction.amount.minorUnits : Int)|)
    (h : (evaluatePurchaseWithPolicy r p stale sync).allowable = true) :
    (evaluatePurchaseWithPolicy (r.withAmount n) p stale sync).allowable = true := by
  obtain ⟨t, proposed, ha⟩ := allowable_iff.mp h
  obtain ⟨balance, hb⟩ := ha.affordable
  have habs : (proposed : Int) = |(r.proposedTransaction.amount.minorUnits : Int)| :=
    I64.checkedAbs_eq_some ha.amount
  have hpositive := abs_nonneg (n : Int)
  have hfit : InI64 |(n : Int)| := by
    have := I64.le_max proposed
    unfold InI64
    omega
  have hafter : InI64 ((balance.minorUnits : Int) - |(n : Int)|) := by
    have := hb.after
    have := balance.minorUnits.2
    unfold InI64 at *
    simp only [purchaseInput] at *
    omega
  have hroom : |(n : Int)| ≤ (budgetAmount r).minorUnits - t.spent := by
    have := hb.room
    simp only [purchaseInput] at this
    omega
  exact allowable_iff.mpr ⟨t, ⟨|(n : Int)|, hfit⟩, ha.category, ha.account, ha.compatible, ha.totals,
    dif_pos hfit, ha.fresh, ha.unblocked, balance, hb.effective, hafter, hb.left, hroom⟩

theorem dinner_smaller :
    (evaluatePurchaseWithPolicy (dinner.withAmount (.wrap (-20))) .standard false false).allowable =
      true :=
  smaller_allowable dinner .standard false false (.wrap (-20)) (by decide) (by decide +kernel)

end BalanceFrame.Purchase
