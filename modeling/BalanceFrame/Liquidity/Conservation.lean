import BalanceFrame.Liquidity.Scenario
import BalanceFrame.Liquidity.AllocationCorrect

/-!
# Scenarios conserve cash

A scenario changes accounts only by postings: each moves the adjusted cash of one known account.
What is proved about `checkedEvaluate`:

* a cash purchase posts its amount once, a card purchase posts nothing;
* a transfer leg posts its amount out of one account and into another of the same currency, and
  each leg of the last plans in force is posted exactly once;
* a reallocation posts nothing, and moves availability without changing its sum.
-/

namespace BalanceFrame.Liquidity

open Library List

variable {input : LiquidityInput} {id currency destination expires : String}
  {accounts after before : Accounts} {item : LiquidityPurchaseItem} {o : Opened} {a b : Cash}
  {categories : Categories} {r : PurchaseLiquidityResult} {n : I64}
  {legs inherited : List TransferLeg} {trial : Trial} {s s' : Buying} {ps : List (String × Int)}
  {now due : Instant} {prefixes : SortedMap String TransferPrefix} {d : Decision}
  {demands : Amounts} {plan : TransferPlan} {unresolved : Bool} {c : CategoryLiquidityFact}
  {plans : SortedMap String TransferPlan} {purchases : List PurchaseLiquidityResult}

/-! ## Postings -/

/-- The account reports its adjusted cash. -/
def Cash.Reported (a : Cash) : Prop := a.output.adjustedCash = some (m a.adjusted a.fact.currency)

/-- Every known account reports its adjusted cash. -/
def Reporting (accounts : Accounts) : Prop :=
  ∀ id a, accounts.get? id = some a → a.known = true → a.Reported

/-- One known account's adjusted cash changes by `n`. -/
def Changed (id : String) (n : Int) (before after : Accounts) : Prop :=
  ∃ a b, before.get? id = some a ∧ after = before.insert id b ∧ a.known = true ∧
    b.known = true ∧ b.fact = a.fact ∧ (b.adjusted : Int) = a.adjusted + n ∧ b.Reported

/-- The postings that lead from one state of the accounts to another; what changes no adjusted cash
is no posting. -/
inductive Posted (before : Accounts) : List (String × Int) → Accounts → Prop
  | done : Posted before [] before
  | silent {ps : List (String × Int)} {id : String} {b c : Accounts} :
      Posted before ps b → Changed id 0 b c → Posted before ps c
  | post {ps : List (String × Int)} {id : String} {n : Int} {b c : Accounts} :
      Posted before ps b → Changed id n b c → Posted before (ps ++ [(id, n)]) c

/-- The account is there and known, with this currency. -/
def Holds (accounts : Accounts) (id currency : String) : Prop :=
  ∃ a, accounts.get? id = some a ∧ a.known = true ∧ a.fact.currency = currency

/-- What was posted to an account. -/
def postedTo (id : String) (ps : List (String × Int)) : Int :=
  ((ps.filter (·.1 == id)).map Prod.snd).sum

theorem postedTo_append (id : String) (ps qs : List (String × Int)) :
    postedTo id (ps ++ qs) = postedTo id ps + postedTo id qs := by
  unfold postedTo
  rw [filter_append, map_append, sum_append]

theorem postedTo_singleton (id : String) (p : String × Int) :
    postedTo id [p] = if p.1 = id then p.2 else 0 := by
  unfold postedTo
  by_cases h : p.1 = id <;> simp [h]

theorem Posted.trans {qs : List (String × Int)} {a b c : Accounts} (h : Posted a ps b)
    (h' : Posted b qs c) : Posted a (ps ++ qs) c := by
  induction h' with
  | done => rwa [append_nil]
  | silent _ hchange ih => exact ih.silent hchange
  | post _ hchange ih =>
    rw [← append_assoc]
    exact ih.post hchange

theorem Changed.reporting {n : Int}
    (h : Changed id n before after) (hr : Reporting before) : Reporting after := by
  obtain ⟨a, b, -, rfl, -, -, -, -, hb⟩ := h
  intro k c hk hknown
  rw [SortedMap.get?_insert] at hk
  split at hk
  · cases hk
    exact hb
  · exact hr k c hk hknown

theorem Changed.holds_iff {n : Int} (h : Changed id n before after) {k : String} :
    Holds after k currency ↔ Holds before k currency := by
  obtain ⟨a, b, ha, rfl, haknown, hbknown, hfact, -, -⟩ := h
  unfold Holds
  rw [SortedMap.get?_insert]
  by_cases hk : k = id
  · subst hk
    rw [if_pos rfl, ha]
    simp [haknown, hbknown, hfact]
  · rw [if_neg (by tauto)]

theorem Posted.reporting (h : Posted before ps after) (hr : Reporting before) : Reporting after := by
  induction h with
  | done => exact hr
  | silent _ hchange ih => exact hchange.reporting ih
  | post _ hchange ih => exact hchange.reporting ih

theorem Posted.holds_iff (h : Posted before ps after) {k : String} :
    Holds after k currency ↔ Holds before k currency := by
  induction h with
  | done => exact Iff.rfl
  | silent _ hchange ih => exact hchange.holds_iff.trans ih
  | post _ hchange ih => exact hchange.holds_iff.trans ih

/-- An account after postings: the same account, its adjusted cash moved by `n`. -/
def MovedBy (n : Int) (a b : Cash) : Prop :=
  b.fact = a.fact ∧ b.known = a.known ∧ (b.adjusted : Int) = a.adjusted + n

theorem Changed.movedBy {n : Int} (h : Changed id n before after) (k : String) :
    Option.Rel (MovedBy (if id = k then n else 0)) (before.get? k) (after.get? k) := by
  obtain ⟨a, b, ha, rfl, haknown, hbknown, hfact, hadjusted, -⟩ := h
  rw [SortedMap.get?_insert]
  by_cases hk : id = k
  · subst hk
    rw [if_pos rfl, if_pos rfl, ha]
    exact Option.Rel.some ⟨hfact, hbknown.trans haknown.symm, hadjusted⟩
  · rw [if_neg hk, if_neg hk]
    cases before.get? k with
    | none => exact Option.Rel.none
    | some c => exact Option.Rel.some ⟨rfl, rfl, (Int.add_zero _).symm⟩

theorem MovedBy.trans {n k : Int} {x y z : Option Cash} (h : Option.Rel (MovedBy n) x y)
    (h' : Option.Rel (MovedBy k) y z) : Option.Rel (MovedBy (n + k)) x z := by
  cases h with
  | none =>
    cases h' with
    | none => exact Option.Rel.none
  | some hab =>
    cases h' with
    | some hbc =>
      obtain ⟨hf, hk, ha⟩ := hab
      obtain ⟨hf', hk', ha'⟩ := hbc
      exact Option.Rel.some ⟨hf'.trans hf, hk'.trans hk, by omega⟩

theorem Posted.movedBy (h : Posted before ps after) (k : String) :
    Option.Rel (MovedBy (postedTo k ps)) (before.get? k) (after.get? k) := by
  induction h with
  | done =>
    cases before.get? k with
    | none => exact Option.Rel.none
    | some c => exact Option.Rel.some ⟨rfl, rfl, (Int.add_zero _).symm⟩
  | silent _ hchange ih =>
    have := MovedBy.trans ih (hchange.movedBy k)
    simpa using this
  | post _ hchange ih =>
    rw [postedTo_append, postedTo_singleton]
    exact MovedBy.trans ih (hchange.movedBy k)

/-! ## Totals -/

/-- What a capacity reports in a currency. -/
def reportedCash (currency : String) (output : AccountCapacity) : Int :=
  output.adjustedCash.elim 0 fun x => if x.currency = currency then (x.minorUnits : Int) else 0

/-- The adjusted cash that known accounts report in a currency. -/
def knownCash (currency : String) (accounts : Accounts) : Int :=
  ((accounts.values.filter (·.known)).map fun a => reportedCash currency a.output).sum

/-- A known account counts with what it reports. -/
def countedCash (currency : String) (a : Cash) : Int :=
  if a.known then reportedCash currency a.output else 0

theorem knownCash_eq_total (currency : String) (accounts : Accounts) :
    knownCash currency accounts = accounts.total fun _ a => countedCash currency a := by
  unfold knownCash SortedMap.total SortedMap.values countedCash
  induction accounts.entries with
  | nil => rfl
  | cons e rest ih =>
    rw [map_cons, filter_cons, map_cons, sum_cons, ← ih]
    by_cases h : e.2.known = true
    · simp only [h, if_true, map_cons, sum_cons]
    · simp only [h, Bool.false_eq_true, if_false, Int.zero_add]

theorem countedCash_reported (hknown : a.known = true) (h : a.Reported) (currency : String) :
    countedCash currency a = if a.fact.currency = currency then (a.adjusted : Int) else 0 := by
  unfold countedCash reportedCash
  rw [if_pos hknown, h]
  rfl

theorem Changed.knownCash {n : Int}
    (h : Changed id n before after) (hr : Reporting before) {own : String}
    (hown : Holds before id own) (currency : String) :
    knownCash currency after = knownCash currency before + if own = currency then n else 0 := by
  obtain ⟨a, b, ha, rfl, haknown, hbknown, hfact, hadjusted, hb⟩ := h
  obtain ⟨a', ha', -, rfl⟩ := hown
  obtain rfl : a = a' := Option.some.inj (ha.symm.trans ha')
  have htotal := before.total_insert (fun _ a => countedCash currency a) id b
  rw [ha, Option.elim_some, countedCash_reported haknown (hr id a ha haknown),
    countedCash_reported hbknown hb, hfact] at htotal
  rw [knownCash_eq_total, knownCash_eq_total]
  split at htotal
  · rename_i heq
    rw [if_pos heq]
    omega
  · rename_i hne
    rw [if_neg hne]
    omega

/-- The postings to accounts of a currency. -/
def postedIn (currency : String) (own : String → String) (ps : List (String × Int)) : Int :=
  (ps.map fun p => if own p.1 = currency then p.2 else 0).sum

theorem postedIn_append (currency : String) (own : String → String) (ps qs : List (String × Int)) :
    postedIn currency own (ps ++ qs) = postedIn currency own ps + postedIn currency own qs := by
  unfold postedIn
  rw [map_append, sum_append]

theorem Posted.knownCash
    (h : Posted before ps after) (hr : Reporting before) {own : String → String}
    (hown : ∀ p ∈ ps, Holds before p.1 (own p.1)) (currency : String) :
    knownCash currency after = knownCash currency before + postedIn currency own ps := by
  induction h with
  | done => exact (Int.add_zero _).symm
  | @silent ps id b c hposted hchange ih =>
    have hheld := hchange
    obtain ⟨a, -, ha, -, hknown, -⟩ := hheld
    rw [hchange.knownCash (hposted.reporting hr) ⟨a, ha, hknown, rfl⟩, ih hown]
    simp
  | @post ps id n b c hposted hchange ih =>
    have hlast := hposted.holds_iff.mpr (hown (id, n) (mem_append_right _ mem_cons_self))
    rw [hchange.knownCash (hposted.reporting hr) hlast,
      ih fun p hp => hown p (mem_append_left _ hp), postedIn_append]
    simp [postedIn]
    omega

/-! ## The steps of a scenario -/

/-- The two sides of a leg. -/
def legPostings (leg : TransferLeg) : List (String × Int) :=
  [(leg.sourceAccountId, -(leg.amount.minorUnits : Int)),
    (leg.destinationAccountId, (leg.amount.minorUnits : Int))]

theorem refresh_spec (hknown : a.known = true) (h : refresh a = .ok b) :
    b.known = true ∧ b.fact = a.fact ∧ b.adjusted = a.adjusted ∧ b.Reported := by
  unfold refresh at h
  rw [if_pos hknown] at h
  simp only [bind_ok, pure_ok] at h
  obtain ⟨shortfall, -, h⟩ := h
  cases h
  exact ⟨hknown, rfl, rfl, rfl⟩

theorem checkedRefresh_spec (h : checkedRefresh a = .ok b) (hknown : a.known = true) :
    b.known = true ∧ b.fact = a.fact ∧ b.adjusted = a.adjusted ∧ b.Reported := by
  unfold checkedRefresh at h
  cases hr : refresh a with
  | error stop =>
    rw [hr] at h
    exact absurd h (by simp [Except.mapError])
  | ok c =>
    rw [hr] at h
    obtain rfl : c = b := by simpa [Except.mapError] using h
    exact refresh_spec hknown hr

theorem withdraw_spec (hknown : a.known = true) (h : withdraw a n = .ok b) :
    b.known = true ∧ b.fact = a.fact ∧ (b.adjusted : Int) = a.adjusted + -(n : Int) ∧
      b.Reported := by
  unfold withdraw at h
  simp only [bind_ok, sub_eq_ok] at h
  obtain ⟨head, -, adjusted, hadjusted, backing, -, h⟩ := h
  obtain ⟨hk, hf, ha, hrep⟩ := checkedRefresh_spec h hknown
  exact ⟨hk, hf, by rw [ha, hadjusted]; omega, hrep⟩

theorem deposit_spec (hknown : a.known = true) (h : deposit a n = .ok b) :
    b.known = true ∧ b.fact = a.fact ∧ (b.adjusted : Int) = a.adjusted + n ∧ b.Reported := by
  unfold deposit at h
  simp only [bind_ok, add_eq_ok] at h
  obtain ⟨head, -, adjusted, hadjusted, backing, -, h⟩ := h
  obtain ⟨hk, hf, ha, hrep⟩ := checkedRefresh_spec h hknown
  exact ⟨hk, hf, by rw [ha, hadjusted], hrep⟩

theorem moveCash_posted {source : String} (hsource : Holds accounts source currency)
    (hdest : Holds accounts destination currency)
    (h : moveCash accounts source destination n = .ok after) :
    Posted accounts [(source, -(n : Int)), (destination, (n : Int))] after := by
  unfold moveCash at h
  simp only [bind_ok, orStop_ok, pure_ok] at h
  obtain ⟨a, ha, a', hwithdraw, b, hb, b', hdeposit, h⟩ := h
  cases h
  obtain ⟨a₀, ha₀, haknown, -⟩ := hsource
  obtain rfl : a = a₀ := Option.some.inj (ha.symm.trans ha₀)
  obtain ⟨hk, hf, hadjusted, hrep⟩ := withdraw_spec haknown hwithdraw
  have hout : Changed source (-(n : Int)) accounts (accounts.insert source a') :=
    ⟨a, a', ha, rfl, haknown, hk, hf, hadjusted, hrep⟩
  obtain ⟨b₀, hb₀, hbknown, -⟩ := hout.holds_iff.mpr hdest
  obtain rfl : b = b₀ := Option.some.inj (hb.symm.trans hb₀)
  obtain ⟨hk', hf', hadjusted', hrep'⟩ := deposit_spec hbknown hdeposit
  exact (Posted.done.post hout).post ⟨b, b', hb, rfl, hbknown, hk', hf', hadjusted', hrep'⟩

/-- A leg moves a known amount of its currency between known accounts. -/
def LegHolds (accounts : Accounts) (leg : TransferLeg) : Prop :=
  Holds accounts leg.sourceAccountId leg.amount.currency ∧
    Holds accounts leg.destinationAccountId leg.amount.currency

theorem applyLegs_posted : ∀ {accounts after : Accounts}, (∀ leg ∈ legs, LegHolds accounts leg) →
      applyLegs accounts legs = .ok after → Posted accounts (legs.flatMap legPostings) after := by
  induction legs with
  | nil =>
    intro accounts after _ h
    unfold applyLegs at h
    rw [foldlM_nil, pure_ok] at h
    cases h
    exact Posted.done
  | cons leg legs ih =>
    intro accounts after hholds h
    unfold applyLegs at h
    rw [foldlM_cons_ok] at h
    obtain ⟨mid, hmove, h⟩ := h
    obtain ⟨hsource, hdest⟩ := hholds leg mem_cons_self
    have hfirst := moveCash_posted hsource hdest hmove
    rw [flatMap_cons]
    refine hfirst.trans (ih (fun leg' hleg' => ?_) h)
    obtain ⟨hs, hd⟩ := hholds leg' (mem_cons_of_mem _ hleg')
    exact ⟨hfirst.holds_iff.mpr hs, hfirst.holds_iff.mpr hd⟩

/-- What paying an item posts: nothing for a card, its amount for cash. -/
def spentPostings (id : String) (item : LiquidityPurchaseItem)
    (credit : Option CreditPaymentResult) : List (String × Int) :=
  if credit.isSome then [] else [(id, -(item.amount.minorUnits : Int))]

theorem known_of_payment (h : payment a = true) : a.known = true := by
  unfold payment at h
  simp only [Bool.and_eq_true] at h
  exact h.1.1.1

theorem paymentTerms_spec (h : paymentTerms accounts categories item id = .ok (a, n, c)) :
    accounts.get? id = some a ∧ a.known = true ∧ a.fact.currency = item.amount.currency ∧
      n = item.amount.minorUnits := by
  unfold paymentTerms at h
  simp only [bind_ok, orStop_ok, reject_ok, pure_ok, Except.ok.injEq, Prod.mk.injEq] at h
  obtain ⟨a', ha, -, hpay, n', hn, c', -, -, -, -, -, -, -, rfl, rfl, rfl⟩ := h
  obtain ⟨hcurrency, -, -, rfl⟩ := units_eq_ok.mp hn
  exact ⟨ha, known_of_payment (by simpa using hpay), hcurrency.symm, rfl⟩

theorem chargeCard_spec {auth left : I64} (hknown : a.known = true)
    (h : chargeCard a n = .ok (b, auth, left)) :
    b.known = true ∧ b.fact = a.fact ∧ b.adjusted = a.adjusted ∧ b.Reported := by
  unfold chargeCard at h
  simp only [bind_ok, pure_ok, Except.ok.injEq, Prod.mk.injEq] at h
  obtain ⟨auth', -, left', -, c, hrefresh, rfl, -, -⟩ := h
  obtain ⟨hk, hf, hadjusted, hrep⟩ := checkedRefresh_spec hrefresh hknown
  exact ⟨hk, hf, hadjusted, hrep⟩

theorem reservePayment_spec (h : reservePayment accounts item id n = .ok b) :
    Changed id 0 accounts (accounts.insert id b) := by
  unfold reservePayment at h
  simp only [bind_ok, orStop_ok, reject_ok] at h
  obtain ⟨a, ha, -, hpay, head, -, hrefresh⟩ := h
  have hknown : a.known = true := by
    simp only [Bool.or_eq_false_iff, Bool.not_eq_false'] at hpay
    exact known_of_payment hpay.1.1
  obtain ⟨hk, hf, hadjusted, hrep⟩ := checkedRefresh_spec hrefresh hknown
  exact ⟨a, b, ha, rfl, hknown, hk, hf, by rw [hadjusted, Int.add_zero], hrep⟩

theorem spendCredit_posted
    {spent : Spent} (ha : accounts.get? id = some a) (hknown : a.known = true)
    (h : spendCredit accounts categories demands item a id n input now = .ok spent) :
    Posted accounts [] spent.accounts ∧ spent.credit.isSome = true := by
  unfold spendCredit at h
  simp only [bind_ok, orStop_ok, pure_ok] at h
  obtain ⟨credit, -, category, -, ⟨card, auth, left⟩, hcharge, b, hreserve, old, -, new, -, h⟩ := h
  cases h
  obtain ⟨hk, hf, hadjusted, hrep⟩ := chargeCard_spec hknown hcharge
  have hcard : Changed id 0 accounts (accounts.insert id card) :=
    ⟨a, card, ha, rfl, hknown, hk, hf, by rw [hadjusted, Int.add_zero], hrep⟩
  exact ⟨(Posted.done.silent hcard).silent (reservePayment_spec hreserve), rfl⟩

theorem spend_posted
    {spent : Spent} (h : spend accounts categories demands item id input now = .ok spent) :
    Posted accounts (spentPostings id item spent.credit) spent.accounts ∧
      Holds accounts id item.amount.currency := by
  unfold spend at h
  simp only [bind_ok, orStop_ok] at h
  obtain ⟨⟨a, n, category⟩, hterms, demand, -, left, -, h⟩ := h
  obtain ⟨ha, hknown, hcurrency, rfl⟩ := paymentTerms_spec hterms
  refine ⟨?_, a, ha, hknown, hcurrency⟩
  dsimp only at h
  split at h
  · obtain ⟨hposted, hcredit⟩ := spendCredit_posted ha hknown h
    rwa [spentPostings, if_pos hcredit]
  · simp only [bind_ok, pure_ok] at h
    obtain ⟨b, hwithdraw, h⟩ := h
    cases h
    obtain ⟨hk, hf, hadjusted, hrep⟩ := withdraw_spec hknown hwithdraw
    exact Posted.done.post ⟨a, b, ha, rfl, hknown, hk, hf, hadjusted, hrep⟩

/-! ## Legs and plans -/

/-- What a leg moves. -/
def TransferLeg.move (leg : TransferLeg) : String × String × Money :=
  (leg.sourceAccountId, leg.destinationAccountId, leg.amount)

theorem legPostings_congr {leg leg' : TransferLeg} (h : leg.move = leg'.move) :
    legPostings leg = legPostings leg' := by
  unfold TransferLeg.move at h
  unfold legPostings
  simp only [Prod.mk.injEq] at h
  rw [h.1, h.2.1, h.2.2]

theorem transferPlan_spec {required : Instant} {backing : BackingAllocation}
    (h : transferPlan input expires currency required legs backing = .ok plan) :
    plan.legs.map TransferLeg.move = legs.map TransferLeg.move ∧
      plan.minimumAmount.currency = currency := by
  unfold transferPlan at h
  simp only [bind_ok, pure_ok] at h
  obtain ⟨⟨minimum, planned⟩, hfold, -, -, h⟩ := h
  cases h
  refine ⟨?_, rfl⟩
  have hrun := foldlM_run
    (P := fun done (s : I64 × List TransferLeg) =>
      s.2.map TransferLeg.move = done.map fun entry : TransferLeg × Nat => entry.1.move)
    (fun done s s' entry hs hstep => by
      unfold planLeg at hstep
      simp only [bind_ok, pure_ok] at hstep
      obtain ⟨n, -, sum, -, due, -, hstep⟩ := hstep
      cases hstep
      rw [map_append, map_append, hs]
      rfl)
    rfl hfold
  have hlegs : (legs.zipIdx.map fun entry : TransferLeg × Nat => entry.1.move) =
      legs.map TransferLeg.move := by
    conv_rhs => rw [← zipIdx_map_fst 0 legs, map_map]
    rfl
  rw [hlegs] at hrun
  exact hrun

/-- Every route's source holds cash of the currency. -/
def RoutesHold (accounts : Accounts) (currency : String)
    (routes : List (Instant × TransferTimingRoute)) : Prop :=
  ∀ r ∈ routes, Holds accounts r.2.sourceAccountId currency

theorem collectRoute_holds
    {s s' : List (Instant × TransferTimingRoute) × Bool} {route : TransferTimingRoute}
    (hs : RoutesHold accounts currency s.1)
    (h : collectRoute input accounts destination currency now s route = .ok s') :
    RoutesHold accounts currency s'.1 := by
  unfold collectRoute at h
  split at h
  · cases h
    exact hs
  · split at h
    · cases h
      exact hs
    · rename_i source hsource
      split at h
      · cases h
        exact hs
      · split at h
        · cases h
          exact hs
        · rename_i hknown
          split at h
          · cases h
            exact hs
          · rename_i hcurrency
            split at h
            · cases h
              exact hs
            · simp only [bind_ok, pure_ok] at h
              obtain ⟨ends, -, h⟩ := h
              cases h
              split
              · intro r hr
                rcases mem_append.mp hr with hr | hr
                · exact hs r hr
                · obtain rfl := mem_singleton.mp hr
                  simp only [Bool.or_eq_true, bne_iff_ne, ne_eq, not_or, not_not] at hcurrency
                  exact ⟨source, hsource, by simpa using hknown, hcurrency.1⟩
              · exact hs

theorem mem_firstBySource {r : Instant × TransferTimingRoute} :
    ∀ {routes : List (Instant × TransferTimingRoute)} {seen : List String},
      r ∈ firstBySource seen routes → r ∈ routes
  | [], _, h => h
  | x :: routes, seen, h => by
    unfold firstBySource at h
    split at h
    · exact mem_cons_of_mem _ (mem_firstBySource h)
    · rcases mem_cons.mp h with rfl | h
      · exact mem_cons_self
      · exact mem_cons_of_mem _ (mem_firstBySource h)

theorem chooseRoutes_mem {routes : List (Instant × TransferTimingRoute)} {need : TransferNeed}
    {steps : List ((Instant × TransferTimingRoute) × I64)}
    (h : chooseRoutes accounts categories demands routes need = .ok (some steps)) :
    ∀ step ∈ steps, step.1 ∈ routes := by
  unfold chooseRoutes at h
  simp only [bind_ok] at h
  obtain ⟨amounts, -, h⟩ := h
  split at h
  · cases h
    intro step hstep
    exact (takeWhile_sublist _).subset (of_mem_zip hstep).1
  · split at h
    · simp only [bind_ok, pure_ok, Except.ok.injEq] at h
      obtain ⟨amounts', -, h⟩ := h
      obtain ⟨l, -, rfl⟩ := Option.map_eq_some_iff.mp h
      intro step hstep
      exact (of_mem_zip hstep).1
    · exact absurd h (by simp)

theorem transfer_legs {need : TransferNeed} {prior : BackingAllocation}
    {solution : TransferSolution} {unknown : Bool}
    (h : transfer input accounts categories demands need now prior =
      .ok (some solution, unknown)) :
    ∀ leg ∈ solution.legs, LegHolds accounts leg := by
  unfold transfer at h
  simp only [bind_ok, orStop_ok] at h
  obtain ⟨dest, hdest, h⟩ := h
  split at h
  · exact absurd h (by simp)
  · rename_i husable
    simp only [Bool.or_eq_true, not_or, Bool.not_eq_true', Bool.not_eq_false] at husable
    have hto : Holds accounts need.destination dest.fact.currency :=
      ⟨dest, hdest, husable.1.1, rfl⟩
    simp only [bind_ok] at h
    obtain ⟨⟨routes, missing⟩, hcollect, chosen, hchoose, h⟩ := h
    have hroutes : RoutesHold accounts dest.fact.currency routes :=
      foldlM_inv (P := fun s : List (Instant × TransferTimingRoute) × Bool =>
        RoutesHold accounts dest.fact.currency s.1)
        (fun s s' route _ hs hstep => collectRoute_holds hs hstep)
        (by intro r hr; exact absurd hr not_mem_nil) hcollect
    split at h
    · exact absurd h (by simp)
    · rename_i steps
      simp only [bind_ok] at h
      obtain ⟨⟨work, legs⟩, hlegs, h⟩ := h
      have hall : ∀ leg ∈ legs, LegHolds accounts leg :=
        foldlM_inv (P := fun s : Accounts × List TransferLeg =>
          ∀ leg ∈ s.2, LegHolds accounts leg)
          (fun s s' step hmem hs hstep => by
            unfold transferLeg at hstep
            split at hstep
            · cases hstep
              exact hs
            · simp only [bind_ok, orStop_ok, pure_ok] at hstep
              obtain ⟨source, -, dest', -, work', -, hstep⟩ := hstep
              cases hstep
              intro leg hleg
              rcases mem_append.mp hleg with hleg | hleg
              · exact hs leg hleg
              · obtain rfl := mem_singleton.mp hleg
                have hroute := mem_firstBySource (chooseRoutes_mem hchoose step hmem)
                exact ⟨hroutes step.1 ((mem_sortOn routeOrder).mp hroute), hto⟩)
          (by intro leg hleg; exact absurd hleg not_mem_nil) hlegs
      split at h
      · exact absurd h (by simp)
      · simp only [bind_ok, pure_ok, Except.ok.injEq, Prod.mk.injEq] at h
        obtain ⟨after, -, h, -⟩ := h
        split at h
        · obtain rfl := Option.some.inj h
          exact hall
        · exact absurd h (by simp)

/-! ## One item -/

theorem trials_spend {s : Joint} {selectedId : Option String} {entries : List (String × Cash)}
    {start tried : Tried} (hstart : start.trials = SortedMap.empty)
    (h : entries.foldlM (tryAccount input o s item selectedId) start = .ok tried)
    (htrial : tried.trials.get? id = some trial) :
    spend s.accounts o.categories s.demands item id input o.clock.now = .ok trial.spent := by
  have hall : ∀ id trial, tried.trials.get? id = some trial →
      spend s.accounts o.categories s.demands item id input o.clock.now = .ok trial.spent := by
    refine foldlM_inv (P := fun t : Tried => ∀ id trial, t.trials.get? id = some trial →
      spend s.accounts o.categories s.demands item id input o.clock.now = .ok trial.spent)
      (fun t t' entry _ ht hstep => ?_) (by rw [hstart]; simp) h
    unfold tryAccount at hstep
    dsimp only at hstep
    split at hstep
    · cases hstep
      exact ht
    · split at hstep
      · cases hstep
        exact ht
      · split at hstep
        · cases hstep
          split
          · exact ht
          · exact ht
        · rename_i spent hspent
          simp only [bind_ok, pure_ok] at hstep
          obtain ⟨backing, -, hstep⟩ := hstep
          cases hstep
          intro k trial hk
          dsimp only at hk
          rw [SortedMap.get?_insert] at hk
          split at hk
          · rename_i heq
            obtain rfl := Option.some.inj hk
            rw [← heq]
            exact hspent
          · exact ht k trial hk
  exact hall id trial htrial

theorem legHolds_congr {leg leg' : TransferLeg} (h : leg.move = leg'.move) :
    LegHolds accounts leg ↔ LegHolds accounts leg' := by
  unfold TransferLeg.move at h
  simp only [Prod.mk.injEq] at h
  unfold LegHolds
  rw [h.1, h.2.1, h.2.2]

theorem legHolds_of_moves {legs' : List TransferLeg}
    (h : legs.map TransferLeg.move = legs'.map TransferLeg.move)
    (hlegs : ∀ leg ∈ legs', LegHolds accounts leg) : ∀ leg ∈ legs, LegHolds accounts leg := by
  intro leg hleg
  have hmove : leg.move ∈ legs'.map TransferLeg.move := h ▸ mem_map_of_mem hleg
  obtain ⟨leg', hleg', heq⟩ := mem_map.mp hmove
  exact (legHolds_congr heq).mp (hlegs leg' hleg')

/-- What deciding an item does: it leaves the accounts as tried, or puts a plan in force and applies
the legs that the plan adds to the inherited ones. -/
inductive Decided (currency : String) (trial : Trial) (inherited : List TransferLeg)
    (prefixes : SortedMap String TransferPrefix) (d : Decision) : Prop
  | kept (haccounts : d.accounts = trial.spent.accounts) (hprefixes : d.prefixes = prefixes)
      (hstatus : d.status ≠ .transferRequired)
  | moved (plan : TransferPlan) (added : List TransferLeg) (unresolved : Bool)
      (hstatus : d.status = .transferRequired) (hplan : d.plan = some plan)
      (hcurrency : plan.minimumAmount.currency = currency)
      (hmoves : plan.legs.map TransferLeg.move = (inherited ++ added).map TransferLeg.move)
      (hprefixes : d.prefixes = prefixes.insert currency ⟨plan.legs, unresolved⟩)
      (hholds : ∀ leg ∈ added, LegHolds trial.spent.accounts leg)
      (hposted : Posted trial.spent.accounts (added.flatMap legPostings) d.accounts)

theorem planStatus_late (unresolved : Bool) : planStatus false unresolved ≠ .transferRequired := by
  cases unresolved <;> decide

theorem noPlanStatus_ne (unresolved : Bool) : noPlanStatus unresolved ≠ .transferRequired := by
  cases unresolved <;> decide

theorem inheritPlan_decided
    (h : inheritPlan input expires item due trial legs unresolved prefixes = .ok d) :
    Decided item.amount.currency trial legs prefixes d := by
  unfold inheritPlan at h
  simp only [bind_ok, pure_ok] at h
  obtain ⟨plan, hplan, h⟩ := h
  cases h
  obtain ⟨hmoves, hcurrency⟩ := transferPlan_spec hplan
  by_cases honTime : plan.legs.all TransferLeg.onTime = true
  · refine .moved plan [] unresolved ?_ rfl hcurrency ?_ ?_ ?_ Posted.done
    · simp only [honTime, planStatus, if_true]
    · rw [append_nil, hmoves]
    · simp only [honTime, if_true]
    · intro leg hleg
      exact absurd hleg not_mem_nil
  · rw [Bool.not_eq_true] at honTime
    refine .kept rfl ?_ ?_
    · simp only [honTime, Bool.false_eq_true, if_false]
    · simp only [honTime]
      exact planStatus_late unresolved

theorem solutionPlan_decided {solution : TransferSolution}
    (hsolution : ∀ leg ∈ solution.legs, LegHolds trial.spent.accounts leg)
    (h : solutionPlan input expires item due trial inherited solution unresolved prefixes =
      .ok d) :
    Decided item.amount.currency trial inherited prefixes d := by
  unfold solutionPlan at h
  simp only [bind_ok] at h
  obtain ⟨plan, hplan, h⟩ := h
  obtain ⟨hmoves, hcurrency⟩ := transferPlan_spec hplan
  have hadded : (plan.legs.drop inherited.length).map TransferLeg.move =
      solution.legs.map TransferLeg.move := by
    rw [map_drop, hmoves, map_append, drop_left' (length_map _)]
  split at h
  · simp only [bind_ok, pure_ok] at h
    obtain ⟨accounts, happly, h⟩ := h
    cases h
    have hholds := legHolds_of_moves hadded hsolution
    refine .moved plan (plan.legs.drop inherited.length) unresolved rfl rfl hcurrency ?_ rfl hholds
      (applyLegs_posted hholds happly)
    rw [hmoves, map_append, map_append, hadded]
  · cases h
    exact .kept rfl rfl (planStatus_late unresolved)

theorem transferItem_decided
    (h : transferItem input o s item destination due trial inherited unresolved = .ok d) :
    Decided item.amount.currency trial inherited s.prefixes d := by
  unfold transferItem at h
  simp only [bind_ok, orStop_ok] at h
  obtain ⟨a, -, h⟩ := h
  split at h
  · simp only [bind_ok] at h
    obtain ⟨needed, -, ⟨solution, unknown⟩, htransfer, h⟩ := h
    cases solution with
    | none =>
      cases h
      exact .kept rfl rfl (noPlanStatus_ne _)
    | some solution => exact solutionPlan_decided (transfer_legs htransfer) h
  · cases h
    exact .kept rfl rfl (noPlanStatus_ne _)

/-- **Deciding an item** moves cash only along the legs a plan in force adds. -/
theorem decideItem_decided {alternatives : List PaymentAlternative}
    (h : decideItem input o s item destination due trial inherited alternatives unresolved =
      .ok d) :
    Decided item.amount.currency trial inherited s.prefixes d := by
  unfold decideItem at h
  split at h
  · split at h
    · cases h
      exact .kept rfl rfl (by simp [Trial.keep])
    · exact inheritPlan_decided h
  · split at h
    · cases h
      exact .kept rfl rfl (by simp [Trial.keep])
    · exact transferItem_decided h

/-- What one item does: nothing, or it is paid from the selected account and decided. -/
inductive Stepped (s : Buying) (item : LiquidityPurchaseItem) (s' : Buying)
    (r : PurchaseLiquidityResult) : Prop
  | skipped (haccounts : s'.joint.accounts = s.joint.accounts) (hprefixes : s'.prefixes = s.prefixes)
      (hafter : r.selectedAfter = none) (hstatus : r.paymentLiquidityStatus ≠ .transferRequired)
  | charged (id : String) (trial : Trial) (d : Decision) (hselected : r.selectedAccountId = some id)
      (hafter : r.selectedAfter = (d.accounts.get? id).map (·.output))
      (hcredit : r.credit = trial.spent.credit)
      (hposted : Posted s.joint.accounts (spentPostings id item trial.spent.credit)
        trial.spent.accounts)
      (hholds : Holds s.joint.accounts id item.amount.currency)
      (hdecided : Decided item.amount.currency trial
        (((s.prefixes.get? item.amount.currency).map (·.legs)).getD []) s.prefixes d)
      (haccounts : s'.joint.accounts = d.accounts) (hprefixes : s'.prefixes = d.prefixes)
      (hstatus : r.paymentLiquidityStatus = d.status) (hplan : r.transferPlan = d.plan)

theorem skipItem_status (tried : Tried) (h : r.paymentLiquidityStatus ≠ .transferRequired) :
    (skipItem tried r).paymentLiquidityStatus ≠ .transferRequired := by
  unfold skipItem
  split
  · exact h
  · dsimp only
    split <;> decide

theorem skipItem_fields (tried : Tried) (r : PurchaseLiquidityResult) :
    (skipItem tried r).selectedAfter = r.selectedAfter ∧ (skipItem tried r).itemId = r.itemId := by
  unfold skipItem
  split <;> exact ⟨rfl, rfl⟩

theorem chargeItem_spec {required : Instant} {tried : Tried} {result : PurchaseLiquidityResult}
    (h : chargeItem input o s item required id trial tried result = .ok (s', r)) :
    ∃ d, Decided item.amount.currency trial
        (((s.prefixes.get? item.amount.currency).map (·.legs)).getD []) s.prefixes d ∧
      s'.joint.accounts = d.accounts ∧ s'.prefixes = d.prefixes ∧
      s'.joint.purchases = s.joint.purchases ∧
      r.selectedAfter = (d.accounts.get? id).map (·.output) ∧ r.credit = trial.spent.credit ∧
      r.paymentLiquidityStatus = d.status ∧ r.transferPlan = d.plan ∧
      r.selectedAccountId = result.selectedAccountId ∧ r.itemId = result.itemId := by
  unfold chargeItem at h
  simp only [bind_ok, pure_ok] at h
  obtain ⟨due, -, d, hdecide, h⟩ := h
  cases h
  exact ⟨d, decideItem_decided hdecide, rfl, rfl, rfl, rfl, rfl, rfl, rfl, rfl, rfl⟩

theorem purchaseStep_spec (h : purchaseStep input o s item = .ok s') :
    ∃ r, s'.joint.purchases = s.joint.purchases ++ [r] ∧ r.itemId = item.id ∧
      Stepped s item s' r := by
  unfold purchaseStep at h
  simp only [bind_ok, pure_ok] at h
  obtain ⟨⟨n, required⟩, -, ⟨funding, available⟩, -, tried, htried, ⟨t, r⟩, hpay, h⟩ := h
  cases h
  unfold payItem at hpay
  split at hpay
  · cases hpay
    obtain ⟨hafter, hitem⟩ := skipItem_fields tried
      (blankResult s.joint.accounts item funding (selected item.routeSelection))
    exact ⟨_, rfl, hitem, .skipped rfl rfl hafter (skipItem_status tried (by simp [blankResult]))⟩
  · rename_i id hselected
    split at hpay
    · cases hpay
      obtain ⟨hafter, hitem⟩ := skipItem_fields tried
        (blankResult s.joint.accounts item funding (selected item.routeSelection))
      exact ⟨_, rfl, hitem, .skipped rfl rfl hafter (skipItem_status tried (by simp [blankResult]))⟩
    · rename_i trial htrial
      obtain ⟨d, hdecided, haccounts, hprefixes, hpurchases, hafter, hcredit, hstatus, hplan, hsel,
        hitem⟩ := chargeItem_spec hpay
      obtain ⟨hposted, hholds⟩ := spend_posted (trials_spend rfl htried htrial)
      refine ⟨r, by rw [hpurchases], hitem, .charged id trial d (hsel.trans hselected) hafter hcredit
        hposted hholds hdecided haccounts hprefixes hstatus hplan⟩

/-! ## A joint purchase -/

/-- The item was applied to a cash account. -/
def paidInCash (r : PurchaseLiquidityResult) : Bool := r.selectedAfter.isSome && r.credit.isNone

/-- What the items applied to cash accounts cost in a currency. -/
def cashSpent (currency : String)
    (paid : List (LiquidityPurchaseItem × PurchaseLiquidityResult)) : Int :=
  ((paid.filter fun p => paidInCash p.2 && p.1.amount.currency == currency).map
    fun p => (p.1.amount.minorUnits : Int)).sum

/-- What the items applied to one cash account cost. -/
def cashSpentFrom (id : String)
    (paid : List (LiquidityPurchaseItem × PurchaseLiquidityResult)) : Int :=
  ((paid.filter fun p => paidInCash p.2 && p.2.selectedAccountId == some id).map
    fun p => (p.1.amount.minorUnits : Int)).sum

/-- A result whose plan is in force replaces its currency's plan. -/
def putInForce (plans : SortedMap String TransferPlan) (r : PurchaseLiquidityResult) :
    SortedMap String TransferPlan :=
  match r.transferPlan with
  | none => plans
  | some plan =>
    if r.paymentLiquidityStatus = .transferRequired then
      plans.insert plan.minimumAmount.currency plan
    else plans

/-- The last plan in force of every currency. -/
def plansInForce (purchases : List PurchaseLiquidityResult) : SortedMap String TransferPlan :=
  purchases.foldl putInForce SortedMap.empty

/-- What the legs of the plans bring to an account, less what they take. -/
def legsTo (id : String) (plans : SortedMap String TransferPlan) : Int :=
  plans.total fun _ plan => postedTo id (plan.legs.flatMap legPostings)

theorem plansInForce_append (purchases : List PurchaseLiquidityResult)
    (r : PurchaseLiquidityResult) :
    plansInForce (purchases ++ [r]) = putInForce (plansInForce purchases) r :=
  foldl_append

theorem putInForce_of_ne
    (h : r.paymentLiquidityStatus ≠ .transferRequired) : putInForce plans r = plans := by
  unfold putInForce
  split
  · rfl
  · rw [if_neg h]

theorem putInForce_of_eq (h : r.paymentLiquidityStatus = .transferRequired)
    (hplan : r.transferPlan = some plan) :
    putInForce plans r = plans.insert plan.minimumAmount.currency plan := by
  unfold putInForce
  rw [hplan]
  dsimp only
  rw [if_pos h]

theorem cashSpent_append (currency : String)
    (paid : List (LiquidityPurchaseItem × PurchaseLiquidityResult)) (item : LiquidityPurchaseItem)
    (r : PurchaseLiquidityResult) :
    cashSpent currency (paid ++ [(item, r)]) = cashSpent currency paid +
      if (paidInCash r && item.amount.currency == currency) = true then (item.amount.minorUnits : Int) else 0 :=
  sum_filter_append_singleton _ _ paid (item, r)

theorem cashSpentFrom_append (id : String)
    (paid : List (LiquidityPurchaseItem × PurchaseLiquidityResult)) (item : LiquidityPurchaseItem)
    (r : PurchaseLiquidityResult) :
    cashSpentFrom id (paid ++ [(item, r)]) = cashSpentFrom id paid +
      if (paidInCash r && r.selectedAccountId == some id) = true then (item.amount.minorUnits : Int) else 0 :=
  sum_filter_append_singleton _ _ paid (item, r)

theorem flatMap_legPostings_congr {legs' : List TransferLeg}
    (h : legs.map TransferLeg.move = legs'.map TransferLeg.move) :
    legs.flatMap legPostings = legs'.flatMap legPostings := by
  have hforall : List.Forall₂ (fun leg leg' => TransferLeg.move leg = TransferLeg.move leg')
      legs legs' := by
    have := forall₂_eq_eq_eq ▸ h
    exact forall₂_map_left_iff.mp (forall₂_map_right_iff.mp this)
  clear h
  induction hforall with
  | nil => rfl
  | cons hmove _ ih => rw [flatMap_cons, flatMap_cons, legPostings_congr hmove, ih]

/-- The currency of an account. -/
def currencyAt (accounts : Accounts) (id : String) : String :=
  ((accounts.get? id).map (·.fact.currency)).getD ""

theorem Holds.currencyAt (h : Holds accounts id currency) : currencyAt accounts id = currency := by
  obtain ⟨a, ha, -, rfl⟩ := h
  unfold BalanceFrame.Liquidity.currencyAt
  rw [ha]
  rfl

theorem postedIn_legs (currency : String) (h : ∀ leg ∈ legs, LegHolds accounts leg) :
    postedIn currency (currencyAt accounts) (legs.flatMap legPostings) = 0 := by
  induction legs with
  | nil => rfl
  | cons leg legs ih =>
    obtain ⟨hsource, hdest⟩ := h leg mem_cons_self
    rw [flatMap_cons, postedIn_append, ih fun l hl => h l (mem_cons_of_mem _ hl)]
    simp only [postedIn, legPostings, map_cons, map_nil, sum_cons, sum_nil,
      hsource.currencyAt, hdest.currencyAt]
    split <;> omega

theorem Posted.knownCash_legs
    (hposted : Posted accounts (legs.flatMap legPostings) after) (hr : Reporting accounts)
    (h : ∀ leg ∈ legs, LegHolds accounts leg) (currency : String) :
    BalanceFrame.Liquidity.knownCash currency after =
      BalanceFrame.Liquidity.knownCash currency accounts := by
  have hown : ∀ p ∈ legs.flatMap legPostings, Holds accounts p.1 (currencyAt accounts p.1) := by
    intro p hp
    obtain ⟨leg, hleg, hp⟩ := mem_flatMap.mp hp
    obtain ⟨hsource, hdest⟩ := h leg hleg
    simp only [legPostings, mem_cons, not_mem_nil, or_false] at hp
    rcases hp with rfl | rfl
    · rwa [hsource.currencyAt]
    · rwa [hdest.currencyAt]
  rw [hposted.knownCash hr hown, postedIn_legs currency h, Int.add_zero]

/-- The legs of a currency's plan in force. -/
def legsInForce (plans : SortedMap String TransferPlan) (currency : String) : List TransferLeg :=
  ((plans.get? currency).map (·.legs)).getD []

/-- The prefixes are the legs in force, and no plan that was in force lost a leg. -/
structure KeepsLegs (prefixes : SortedMap String TransferPrefix)
    (purchases : List PurchaseLiquidityResult) : Prop where
  prefixes : ∀ currency, (prefixes.get? currency).map (·.legs) =
    ((plansInForce purchases).get? currency).map (·.legs)
  included : ∀ r ∈ purchases, r.paymentLiquidityStatus = .transferRequired →
    ∀ plan, r.transferPlan = some plan →
      plan.legs.map TransferLeg.move <+:
        (legsInForce (plansInForce purchases) plan.minimumAmount.currency).map TransferLeg.move

theorem KeepsLegs.skip
    (h : KeepsLegs prefixes purchases) (hstatus : r.paymentLiquidityStatus ≠ .transferRequired) :
    KeepsLegs prefixes (purchases ++ [r]) := by
  have hplans : plansInForce (purchases ++ [r]) = plansInForce purchases := by
    rw [plansInForce_append, putInForce_of_ne hstatus]
  refine ⟨fun currency => ?_, fun r' hr' hstatus' plan hplan => ?_⟩
  · rw [hplans, h.prefixes currency]
  · rw [hplans]
    rcases mem_append.mp hr' with hr' | hr'
    · exact h.included r' hr' hstatus' plan hplan
    · obtain rfl := mem_singleton.mp hr'
      exact absurd hstatus' hstatus

theorem KeepsLegs.force {added : List TransferLeg} (h : KeepsLegs prefixes purchases)
    (hstatus : r.paymentLiquidityStatus = .transferRequired) (hplan : r.transferPlan = some plan)
    (hmoves : plan.legs.map TransferLeg.move =
      (legsInForce (plansInForce purchases) plan.minimumAmount.currency ++ added).map
        TransferLeg.move) (unresolved : Bool) :
    KeepsLegs (prefixes.insert plan.minimumAmount.currency ⟨plan.legs, unresolved⟩)
      (purchases ++ [r]) := by
  have hplans : plansInForce (purchases ++ [r]) =
      (plansInForce purchases).insert plan.minimumAmount.currency plan := by
    rw [plansInForce_append, putInForce_of_eq hstatus hplan]
  have hnew : legsInForce (plansInForce (purchases ++ [r])) plan.minimumAmount.currency =
      plan.legs := by
    rw [hplans, legsInForce, SortedMap.get?_insert_self]
    rfl
  refine ⟨fun currency => ?_, fun r' hr' hstatus' plan' hplan' => ?_⟩
  · rw [hplans, SortedMap.get?_insert, SortedMap.get?_insert]
    split
    · rfl
    · exact h.prefixes currency
  · rcases mem_append.mp hr' with hr' | hr'
    · have hold := h.included r' hr' hstatus' plan' hplan'
      by_cases hsame : plan.minimumAmount.currency = plan'.minimumAmount.currency
      · rw [← hsame] at hold ⊢
        rw [hnew, hmoves, map_append]
        exact hold.trans (prefix_append _ _)
      · rw [hplans, legsInForce, SortedMap.get?_insert_of_ne _ _ hsame]
        exact hold
    · obtain rfl := mem_singleton.mp hr'
      obtain rfl := Option.some.inj (hplan.symm.trans hplan')
      rw [hnew]

theorem legsTo_insert {added : List TransferLeg} (h : plan.legs.map TransferLeg.move =
      (legsInForce plans currency ++ added).map TransferLeg.move) (id : String) :
    legsTo id (plans.insert currency plan) =
      legsTo id plans + postedTo id (added.flatMap legPostings) := by
  have htotal := plans.total_insert
    (fun _ (plan : TransferPlan) => postedTo id (plan.legs.flatMap legPostings)) currency plan
  rw [flatMap_legPostings_congr h, flatMap_append, postedTo_append] at htotal
  have hold : (plans.get? currency).elim 0
      (fun plan => postedTo id (plan.legs.flatMap legPostings)) =
      postedTo id ((legsInForce plans currency).flatMap legPostings) := by
    unfold legsInForce
    cases plans.get? currency with
    | none => rfl
    | some old => rfl
  rw [hold] at htotal
  unfold legsTo
  omega

/-- A joint purchase, after the items of `done`. -/
structure Bought (o : Opened) (done : List LiquidityPurchaseItem) (s : Buying) : Prop where
  ids : s.joint.purchases.map (·.itemId) = done.map (·.id)
  reporting : Reporting s.joint.accounts
  cash : ∀ currency, knownCash currency s.joint.accounts =
    knownCash currency o.accounts - cashSpent currency (done.zip s.joint.purchases)
  moved : ∀ id, Option.Rel (MovedBy (legsTo id (plansInForce s.joint.purchases) -
    cashSpentFrom id (done.zip s.joint.purchases))) (o.accounts.get? id) (s.joint.accounts.get? id)
  legs : KeepsLegs s.prefixes s.joint.purchases

theorem Bought.length {done : List LiquidityPurchaseItem}
    (h : Bought o done s) : done.length = s.joint.purchases.length := by
  have := congrArg List.length h.ids
  rw [length_map, length_map] at this
  exact this.symm

theorem postedIn_spent
    {credit : Option CreditPaymentResult} (h : Holds accounts id item.amount.currency)
    (currency : String) :
    postedIn currency (currencyAt accounts) (spentPostings id item credit) =
      if (credit.isNone && item.amount.currency == currency) = true
        then -(item.amount.minorUnits : Int) else 0 := by
  unfold spentPostings postedIn
  cases credit with
  | some c => rfl
  | none => simp [h.currencyAt]

theorem postedTo_spent (item : LiquidityPurchaseItem) (id : String)
    (credit : Option CreditPaymentResult) (k : String) :
    postedTo k (spentPostings id item credit) =
      if (credit.isNone && some id == some k) = true then -(item.amount.minorUnits : Int) else 0 := by
  unfold spentPostings
  cases credit with
  | some c => rfl
  | none => simp [postedTo_singleton]

theorem Decided.spec
    (h : Decided currency trial (((prefixes.get? currency).map (·.legs)).getD []) prefixes d)
    (hstatus : r.paymentLiquidityStatus = d.status) (hplan : r.transferPlan = d.plan)
    (hkeeps : KeepsLegs prefixes purchases) :
    ∃ added : List TransferLeg, (∀ leg ∈ added, LegHolds trial.spent.accounts leg) ∧
      Posted trial.spent.accounts (added.flatMap legPostings) d.accounts ∧
      (∀ id, legsTo id (plansInForce (purchases ++ [r])) =
        legsTo id (plansInForce purchases) + postedTo id (added.flatMap legPostings)) ∧
      KeepsLegs d.prefixes (purchases ++ [r]) := by
  cases h with
  | kept haccounts hprefixes hkept =>
    refine ⟨[], by simp, haccounts ▸ Posted.done, fun id => ?_,
      hprefixes ▸ hkeeps.skip (hstatus ▸ hkept)⟩
    rw [plansInForce_append, putInForce_of_ne (hstatus ▸ hkept)]
    exact (Int.add_zero _).symm
  | moved plan added unresolved hforce hdplan hcurrency hmoves hprefixes hholds hposted =>
    subst hcurrency
    rw [hkeeps.prefixes] at hmoves
    refine ⟨added, hholds, hposted, fun id => ?_, hprefixes ▸ hkeeps.force (hstatus.trans hforce)
      (hplan.trans hdplan) hmoves unresolved⟩
    rw [plansInForce_append, putInForce_of_eq (hstatus.trans hforce) (hplan.trans hdplan)]
    exact legsTo_insert hmoves id

theorem Bought.step {done : List LiquidityPurchaseItem} (h : Bought o done s)
    (hpurchases : s'.joint.purchases = s.joint.purchases ++ [r]) (hitem : r.itemId = item.id)
    (hstep : Stepped s item s' r) : Bought o (done ++ [item]) s' := by
  have hzip : (done ++ [item]).zip s'.joint.purchases =
      done.zip s.joint.purchases ++ [(item, r)] := by
    rw [hpurchases, zip_append h.length]
    rfl
  have hids : s'.joint.purchases.map (·.itemId) = (done ++ [item]).map (·.id) := by
    rw [hpurchases, map_append, map_append, h.ids]
    simp [hitem]
  cases hstep with
  | skipped haccounts hprefixes hafter hstatus =>
    have hunpaid : paidInCash r = false := by simp [paidInCash, hafter]
    refine ⟨hids, haccounts ▸ h.reporting, fun currency => ?_, fun id => ?_,
      hpurchases ▸ hprefixes ▸ h.legs.skip hstatus⟩
    · rw [haccounts, hzip, cashSpent_append, h.cash currency]
      simp [hunpaid]
    · rw [haccounts, hpurchases, plansInForce_append, putInForce_of_ne hstatus, ← hpurchases, hzip,
        cashSpentFrom_append]
      simpa [hunpaid] using h.moved id
  | charged id trial d hselected hafter hcredit hposted hholds hdecided haccounts hprefixes hstatus
      hplan =>
    have hreporting := hposted.reporting h.reporting
    obtain ⟨added, hlegs, hmoved, hforce, hkeeps⟩ := hdecided.spec hstatus hplan h.legs
    -- the selected account is still there
    have hpaid : paidInCash r = trial.spent.credit.isNone := by
      obtain ⟨a, ha, -, -⟩ := hmoved.holds_iff.mpr (hposted.holds_iff.mpr hholds)
      simp [paidInCash, hafter, ha, hcredit]
    have hown : ∀ p ∈ spentPostings id item trial.spent.credit,
        Holds s.joint.accounts p.1 (currencyAt s.joint.accounts p.1) := by
      intro p hp
      unfold spentPostings at hp
      split at hp
      · exact absurd hp not_mem_nil
      · obtain rfl := mem_singleton.mp hp
        rwa [hholds.currencyAt]
    refine ⟨hids, haccounts ▸ hmoved.reporting hreporting, fun currency => ?_, fun k => ?_,
      hpurchases ▸ hprefixes ▸ hkeeps⟩
    · rw [haccounts, hmoved.knownCash_legs hreporting hlegs, hposted.knownCash h.reporting hown,
        postedIn_spent hholds, hzip, cashSpent_append, h.cash currency, hpaid]
      split <;> omega
    · have hall := MovedBy.trans (MovedBy.trans (h.moved k) (hposted.movedBy k)) (hmoved.movedBy k)
      rw [haccounts, hzip, cashSpentFrom_append, hselected, hpaid, hpurchases, hforce k]
      rw [postedTo_spent] at hall
      convert hall using 2
      split <;> omega

/-! ## Opening -/

theorem prepareAccount_reported {f : AccountLiquidityFact} {p : AccountLiquidityPolicy}
    {funded : Amounts}
    (h : (prepareAccount f p input categories now funded).1.known = true) :
    (prepareAccount f p input categories now funded).1.Reported := by
  unfold prepareAccount at h ⊢
  dsimp only at h ⊢
  split
  · rename_i hcoverage
    rw [if_pos hcoverage] at h
    exact absurd h Bool.false_ne_true
  · rename_i hcoverage
    rw [if_neg hcoverage] at h
    split
    · rename_i heligible
      rw [if_pos heligible] at h
      exact absurd h Bool.false_ne_true
    · rename_i heligible
      rw [if_neg heligible] at h
      cases hsteps : prepareSteps input categories now funded (openingCash f p) with
      | error stop =>
        rw [hsteps] at h
        exact absurd h Bool.false_ne_true
      | ok done =>
        unfold prepareSteps at hsteps
        simp only [bind_ok, pure_ok] at hsteps
        obtain ⟨-, -, ⟨a₁, economic⟩, -, s₁, -, ⟨a₂, reserves⟩, -, ⟨a₃, used⟩, -, a₄, -, a₅, hrefresh,
          hsteps⟩ := hsteps
        cases hsteps
        obtain ⟨-, -, -, hreported⟩ := refresh_spec rfl hrefresh
        exact hreported

theorem prepareAccounts_reporting (input : LiquidityInput) (facts : LiquidityFacts)
    (categories : Categories) (now : Instant) :
    Reporting (prepareAccounts input facts categories now).1 := by
  have hall : ∀ (l : List AccountLiquidityFact) (s : Accounts × Amounts), Reporting s.1 →
      Reporting (l.foldl (prepareNext input categories now) s).1 := by
    intro l
    induction l with
    | nil => exact fun s hs => hs
    | cons f l ih =>
      intro s hs
      rw [foldl_cons]
      refine ih _ fun id a ha hknown => ?_
      unfold prepareNext at ha
      dsimp only at ha
      rw [SortedMap.get?_insert] at ha
      split at ha
      · obtain rfl := Option.some.inj ha
        exact prepareAccount_reported hknown
      · exact hs id a ha hknown
  exact hall _ _ fun id a ha => by simp at ha

/-- Categories are stored under their buckets. -/
def Keyed (categories : Categories) : Prop :=
  ∀ bucket c, categories.get? bucket = some c → c.cashBucketId = bucket

theorem categoryMap_keyed (facts : LiquidityFacts) : Keyed (categoryMap facts) := by
  have hall : ∀ (l : List CategoryLiquidityFact) (categories : Categories), Keyed categories →
      Keyed (l.foldl (fun categories c => categories.insert c.cashBucketId c) categories) := by
    intro l
    induction l with
    | nil => exact fun _ h => h
    | cons c l ih =>
      intro categories h
      rw [foldl_cons]
      refine ih _ fun bucket c' hget => ?_
      rw [SortedMap.get?_insert] at hget
      split at hget
      · rename_i heq
        obtain rfl := Option.some.inj hget
        exact heq
      · exact h bucket c' hget
  exact hall _ _ fun bucket c hget => by simp at hget

/-- The category's output carries its authoritative availability. -/
def HasOutput (s : Envelopes) (c : CategoryLiquidityFact) : Prop :=
  ∃ out, s.outputs.get? c.cashBucketId = some out ∧
    out.authoritativeAvailability = c.availability

theorem openCategory_outputs (input : LiquidityInput) (facts : LiquidityFacts) (now : Instant)
    (s : Envelopes) (c : CategoryLiquidityFact) :
    ∃ out, (openCategory input facts now s c).outputs = s.outputs.insert c.cashBucketId out ∧
      out.authoritativeAvailability = c.availability := by
  unfold openCategory
  dsimp only
  split <;> exact ⟨_, rfl, rfl⟩

theorem openCategories_hasOutput (input : LiquidityInput) (facts : LiquidityFacts)
    (hkeyed : Keyed categories) (now : Instant)
    (hc : c ∈ categories.values) :
    HasOutput (openCategories input facts categories now) c := by
  have hsame : ∀ c' ∈ categories.values, c'.cashBucketId = c.cashBucketId → c' = c := by
    intro c' hc' heq
    obtain ⟨b, hb⟩ := SortedMap.mem_values_iff.mp hc
    obtain ⟨b', hb'⟩ := SortedMap.mem_values_iff.mp hc'
    have : b' = b := by rw [← hkeyed b' c' hb', ← hkeyed b c hb, heq]
    subst this
    exact Option.some.inj (hb'.symm.trans hb)
  have hall : ∀ (l : List CategoryLiquidityFact) (s : Envelopes), (∀ c' ∈ l, c' ∈ categories.values) →
      (HasOutput s c ∨ c ∈ l) → HasOutput (l.foldl (openCategory input facts now) s) c := by
    intro l
    induction l with
    | nil => exact fun s _ h => h.resolve_right not_mem_nil
    | cons c' l ih =>
      intro s hsub h
      rw [foldl_cons]
      refine ih _ (fun x hx => hsub x (mem_cons_of_mem _ hx)) ?_
      obtain ⟨out, hout, havail⟩ := openCategory_outputs input facts now s c'
      by_cases hbucket : c'.cashBucketId = c.cashBucketId
      · obtain rfl := hsame c' (hsub c' mem_cons_self) hbucket
        exact Or.inl ⟨out, by rw [hout, SortedMap.get?_insert_self], havail⟩
      · rcases h with ⟨old, hold, holdAvail⟩ | h
        · exact Or.inl ⟨old, by rw [hout, SortedMap.get?_insert_of_ne _ _ hbucket, hold], holdAvail⟩
        · rcases mem_cons.mp h with rfl | h
          · exact absurd rfl hbucket
          · exact Or.inr h
  exact hall _ _ (fun _ h => h) (Or.inr hc)

/-! ## Reallocation -/

/-- The availability that remains in a currency. -/
def remainingIn (currency : String) (categories : List CategoryCapacity) : Int :=
  (categories.map fun c => c.remainingAvailability.elim 0 fun x =>
    if x.currency = currency then (x.minorUnits : Int) else 0).sum

/-- What a category shows of the amounts, in a currency. -/
def shownAmount (currency : String) (available : Amounts) (bucket : String)
    (out : CategoryCapacity) : Int :=
  (available.get? bucket).elim 0 fun n =>
    if out.authoritativeAvailability.currency = currency then (n : Int) else 0

theorem remainingIn_close (currency : String) (outputs : SortedMap String CategoryCapacity)
    (available : Amounts) :
    remainingIn currency (outputs.entries.map (closeCategory available)) =
      outputs.total (shownAmount currency available) := by
  unfold remainingIn SortedMap.total
  rw [map_map]
  congr 1
  refine map_congr_left fun entry _ => ?_
  unfold shownAmount closeCategory
  simp only [Function.comp_apply]
  cases available.get? entry.1 with
  | none => rfl
  | some n => rfl

theorem changeAmount_spec {amounts amounts' : Amounts} {f : I64 → Checked I64}
    (h : changeAmount amounts id f = .ok amounts') :
    ∃ v v', amounts.get? id = some v ∧ f v = .ok v' ∧ amounts' = amounts.insert id v' := by
  unfold changeAmount at h
  simp only [bind_ok, orStop_ok, pure_ok, Except.ok.injEq] at h
  obtain ⟨v, hv, v', hv', rfl⟩ := h
  exact ⟨v, v', hv, hv', rfl⟩

theorem total_shown_insert {outputs : SortedMap String CategoryCapacity} {available : Amounts}
    {bucket : String} {v v' : I64} {n : Int} {out : CategoryCapacity} (currency : String)
    (hget : available.get? bucket = some v) (hv : (v' : Int) = v + n)
    (hout : outputs.get? bucket = some out) :
    outputs.total (shownAmount currency (available.insert bucket v')) =
      outputs.total (shownAmount currency available) +
        if out.authoritativeAvailability.currency = currency then n else 0 := by
  have htotal := outputs.total_congr_except (shownAmount currency available)
    (shownAmount currency (available.insert bucket v')) bucket fun j hj out => by
      unfold shownAmount
      rw [SortedMap.get?_insert_of_ne _ _ (Ne.symm hj)]
  rw [hout, Option.elim_some, Option.elim_some] at htotal
  simp only [shownAmount, hget, SortedMap.get?_insert_self, Option.elim_some] at htotal
  split <;> rename_i hcurrency
  · simp only [hcurrency, if_true] at htotal
    omega
  · simp only [hcurrency, if_false] at htotal
    omega

theorem currentCategory_mem (h : currentCategory categories id input = some c) :
    c ∈ categories.values := by
  unfold currentCategory at h
  obtain ⟨facts, -, h⟩ := Option.bind_eq_some_iff.mp h
  exact mem_of_find?_eq_some h

/-- **A reallocation** moves availability between categories of one currency. -/
theorem reallocationStep_spec {s s' : Joint}
    {move : CategoryReallocation} {outputs : SortedMap String CategoryCapacity}
    (hshown : ∀ c ∈ categories.values, ∃ out, outputs.get? c.cashBucketId = some out ∧
      out.authoritativeAvailability = c.availability)
    (h : reallocationStep input categories s move = .ok s') (currency : String) :
    s'.accounts = s.accounts ∧ s'.purchases = s.purchases ∧
      outputs.total (shownAmount currency s'.available) =
        outputs.total (shownAmount currency s.available) := by
  unfold reallocationStep at h
  simp only [bind_ok, pure_ok] at h
  obtain ⟨⟨source, destination, n⟩, hterms, taken, htake, given, hgive, d, -, d', -, h⟩ := h
  cases h
  unfold movementTerms at hterms
  simp only [bind_ok, orStop_ok, pure_ok, Except.ok.injEq, Prod.mk.injEq] at hterms
  obtain ⟨source', hsource, dest', hdest, n', hn, -, -, n'', hn', -, -, rfl, rfl, rfl⟩ := hterms
  obtain ⟨hsourceCurrency, -, -, rfl⟩ := units_eq_ok.mp hn
  obtain ⟨hdestCurrency, -, -, -⟩ := units_eq_ok.mp hn'
  obtain ⟨v, v', hget, hsub, rfl⟩ := changeAmount_spec htake
  obtain ⟨w, w', hget', hadd, rfl⟩ := changeAmount_spec hgive
  obtain ⟨out, hout, havail⟩ := hshown _ (currentCategory_mem hsource)
  obtain ⟨out', hout', havail'⟩ := hshown _ (currentCategory_mem hdest)
  have htaken := total_shown_insert (n := -(move.amount.minorUnits : Int)) currency hget
    (by rw [sub_eq_ok.mp hsub, Int.sub_eq_add_neg]) hout
  have hgiven := total_shown_insert (n := (move.amount.minorUnits : Int)) currency hget'
    (add_eq_ok.mp hadd) hout'
  rw [havail, ← hsourceCurrency] at htaken
  rw [havail', ← hdestCurrency] at hgiven
  refine ⟨rfl, rfl, ?_⟩
  rw [hgiven, htaken]
  split <;> omega

/-! ## Conservation -/

/-- The items of a scenario, in the order in which they are bought. -/
def boughtItems : LiquidityScenario → List LiquidityPurchaseItem
  | .purchases items => orderedItems items
  | _ => []

/-- What a scenario does to cash and availability, between the opening and the end. -/
structure Conserves (o : Opened) (scenario : LiquidityScenario) (s : Joint) : Prop where
  /-- What known accounts report is what they have. -/
  reporting : Reporting o.accounts ∧ Reporting s.accounts
  /-- Each item has its result. -/
  ids : s.purchases.map (·.itemId) = (boughtItems scenario).map (·.id)
  /-- Known cash falls by the items applied to cash accounts. -/
  cash : ∀ currency, knownCash currency s.accounts =
    knownCash currency o.accounts - cashSpent currency ((boughtItems scenario).zip s.purchases)
  /-- An account changes by the legs of the last plans in force, each of them once, and the items
  it paid. -/
  moved : ∀ id, Option.Rel (MovedBy (legsTo id (plansInForce s.purchases) -
    cashSpentFrom id ((boughtItems scenario).zip s.purchases)))
    (o.accounts.get? id) (s.accounts.get? id)
  /-- No leg of a plan in force is lost. -/
  included : ∀ r ∈ s.purchases, r.paymentLiquidityStatus = .transferRequired →
    ∀ plan, r.transferPlan = some plan → plan.legs.map TransferLeg.move <+:
      (legsInForce (plansInForce s.purchases) plan.minimumAmount.currency).map TransferLeg.move
  /-- A reallocation leaves the accounts and the sum of availability. -/
  reallocation : ∀ moves, scenario = .reallocation moves → s.accounts = o.accounts ∧
    ∀ currency, o.envelopes.outputs.total (shownAmount currency s.available) =
      o.envelopes.outputs.total (shownAmount currency o.available)

theorem MovedBy.refl (x : Option Cash) : Option.Rel (MovedBy 0) x x := by
  cases x with
  | none => exact Option.Rel.none
  | some a => exact Option.Rel.some ⟨rfl, rfl, (Int.add_zero _).symm⟩

theorem conserves_of_accounts {scenario : LiquidityScenario} {s : Joint}
    (hreporting : Reporting o.accounts) (hitems : boughtItems scenario = []) (haccounts : s.accounts = o.accounts)
    (hpurchases : s.purchases = [])
    (hmoves : ∀ moves, scenario = .reallocation moves → ∀ currency,
      o.envelopes.outputs.total (shownAmount currency s.available) =
        o.envelopes.outputs.total (shownAmount currency o.available)) :
    Conserves o scenario s := by
  refine ⟨⟨hreporting, haccounts ▸ hreporting⟩, by rw [hitems, hpurchases]; rfl, fun currency => ?_, fun id => ?_, fun r hr => ?_,
    fun moves hscenario => ⟨haccounts, hmoves moves hscenario⟩⟩
  · rw [hitems, haccounts]
    exact (Int.sub_zero _).symm
  · rw [hitems, haccounts, hpurchases]
    exact MovedBy.refl _
  · rw [hpurchases] at hr
    exact absurd hr not_mem_nil

theorem openEvaluation_spec (h : openEvaluation input = .ok o) :
    Reporting o.accounts ∧ ∀ c ∈ o.categories.values, HasOutput o.envelopes c := by
  unfold openEvaluation at h
  simp only [bind_ok, pure_ok] at h
  obtain ⟨clock, -, facts, -, expires, -, claimed, -, before, -, h⟩ := h
  cases h
  exact ⟨prepareAccounts_reporting input facts _ clock.now,
    fun c hc => openCategories_hasOutput input facts (categoryMap_keyed facts) clock.now hc⟩

theorem runScenario_conserves {s : Joint}
    (hopen : openEvaluation input = .ok o) (h : runScenario input o = .ok s) :
    Conserves o input.scenario s := by
  obtain ⟨hreporting, houtputs⟩ := openEvaluation_spec hopen
  unfold runScenario at h
  cases hscenario : input.scenario with
  | none =>
    rw [hscenario] at h
    cases h
    exact conserves_of_accounts hreporting rfl rfl rfl (by simp)
  | reallocation moves =>
    rw [hscenario] at h
    simp only [bind_ok] at h
    obtain ⟨-, -, h⟩ := h
    have hinv : s.accounts = o.accounts ∧ s.purchases = [] ∧ ∀ currency,
        o.envelopes.outputs.total (shownAmount currency s.available) =
          o.envelopes.outputs.total (shownAmount currency o.available) := by
      refine foldlM_inv (P := fun t : Joint => t.accounts = o.accounts ∧ t.purchases = [] ∧
        ∀ currency, o.envelopes.outputs.total (shownAmount currency t.available) =
          o.envelopes.outputs.total (shownAmount currency o.available))
        (fun t t' move _ ht hstep => ?_) ⟨rfl, rfl, fun _ => rfl⟩ h
      obtain ⟨haccounts, hpurchases, htotal⟩ := ht
      have hspec := reallocationStep_spec houtputs hstep
      exact ⟨(hspec "").1.trans haccounts, (hspec "").2.1.trans hpurchases,
        fun currency => (hspec currency).2.2.trans (htotal currency)⟩
    exact conserves_of_accounts hreporting rfl hinv.1 hinv.2.1 fun _ _ => hinv.2.2
  | purchases items =>
    rw [hscenario] at h
    simp only [bind_ok, pure_ok] at h
    obtain ⟨-, -, -, -, t, hfold, h⟩ := h
    cases h
    have hstart : Bought o [] { joint := { o.joint with status := .ready }, prefixes := .empty } :=
      ⟨rfl, hreporting, fun _ => (Int.sub_zero _).symm, fun id => MovedBy.refl (o.accounts.get? id),
        ⟨fun _ => rfl, fun r hr => absurd hr not_mem_nil⟩⟩
    have hrun : Bought o (orderedItems items) t := by
      refine foldlM_run (fun done b b' item hb hstep => ?_) hstart hfold
      obtain ⟨r, hpurchases, hitem, hstepped⟩ := purchaseStep_spec hstep
      exact hb.step hpurchases hitem hstepped
    exact ⟨⟨hreporting, hrun.reporting⟩, hrun.ids, hrun.cash, hrun.moved, hrun.legs.included,
      by simp⟩

/-- **Scenarios conserve cash.** -/
theorem evaluation_conserves_cash (input : LiquidityInput)
    (result : AccountAwareSpendabilityResult) (h : checkedEvaluate input = .ok result) :
    ∃ o s, openEvaluation input = .ok o ∧ runScenario input o = .ok s ∧
      Conserves o input.scenario s ∧
      result.accountsBefore = o.accounts.values.map (·.output) ∧
      result.accountsAfter = s.accounts.values.map (·.output) ∧
      result.purchases = s.purchases ∧
      ∀ moves, input.scenario = .reallocation moves →
        result.accountsAfter = result.accountsBefore ∧ ∀ currency,
          remainingIn currency result.categories =
            remainingIn currency (o.envelopes.outputs.entries.map (closeCategory o.available)) := by
  unfold checkedEvaluate at h
  simp only [bind_ok] at h
  obtain ⟨o, hopen, s, hrun, h⟩ := h
  have hconserves := runScenario_conserves hopen hrun
  unfold closeEvaluation at h
  simp only [bind_ok, pure_ok] at h
  obtain ⟨after, -, h⟩ := h
  cases h
  refine ⟨o, s, hopen, hrun, hconserves, rfl, rfl, rfl, fun moves hmoves => ?_⟩
  obtain ⟨haccounts, htotal⟩ := hconserves.reallocation moves hmoves
  refine ⟨by rw [haccounts], fun currency => ?_⟩
  rw [remainingIn_close, remainingIn_close, htotal currency]

def lunch : LiquidityPurchaseItem where
  id := "lunch"
  categoryId := "food"
  amount := usd (.ofInt 12)
  purchaseAt := "2026-01-03T12:00:00Z"
  requiredBy := "2026-01-03T12:00:00Z"
  routeSelection := ⟨some "checking", none, none, none⟩

def lunchInput : LiquidityInput := { household with scenario := .purchases [lunch] }

theorem evaluation_conserves_cash_lunch :
    ∃ result o s, checkedEvaluate lunchInput = .ok result ∧ openEvaluation lunchInput = .ok o ∧
      Conserves o lunchInput.scenario s ∧
      result.accountsAfter = s.accounts.values.map (·.output) := by
  have haccepted : isOk (checkedEvaluate lunchInput) = true := by decide +kernel
  obtain ⟨result, hresult⟩ := isOk_iff.mp haccepted
  obtain ⟨o, s, hopen, -, hconserves, -, hafter, -⟩ :=
    evaluation_conserves_cash lunchInput result hresult
  exact ⟨result, o, s, hresult, hopen, hconserves, hafter⟩

end BalanceFrame.Liquidity
