import BalanceFrame.Liquidity.Preparation

/-!
# How long an evaluation lasts

`expiry` clamps the validity of an evaluation by the evidence behind it ("clamped by relevant
evidence, policy and claims"). It looks at the evidence of eligible accounts and their cards, of the
categories, the routes and the active claims.
-/

namespace BalanceFrame.Liquidity

open Library List Option Except

variable {e : FactEvidence} {b : LiquidityClaimBundle} {accounts : Accounts}

/-! ## What the expiry observes -/

/-- The instant does not pass the expiry of evidence that is known. -/
def Within (now : Instant) (maxAge : Nat) (until_ : Instant) (e : FactEvidence) : Prop :=
  known e now maxAge = .ok () → ∃ expiry, evidenceExpiry e maxAge = .ok expiry ∧ until_ ≤ expiry

/-- The instant does not pass the expiry of a claim that is active and has not expired. -/
def ActiveWithin (now until_ : Instant) (b : LiquidityClaimBundle) : Prop :=
  ∃ answer expiry, active b now = .ok answer ∧ instant b.expiresAt = .ok expiry ∧
    (answer = true → now < expiry → until_ ≤ expiry)

section Observing

variable {now t until_ later : Instant} {maxAge : Nat}

theorem Within.mono (h : Within now maxAge until_ e) (hle : later ≤ until_) :
    Within now maxAge later e := by
  intro hknown
  obtain ⟨expiry, hexpiry, hbound⟩ := h hknown
  exact ⟨expiry, hexpiry, hle.trans hbound⟩

theorem Within.lasts (h : Within now maxAge until_ e) (hle : now ≤ t)
    (hlt : t < until_) : Lasts now t maxAge e := by
  intro hknown
  obtain ⟨expiry, hexpiry, hbound⟩ := h hknown
  exact known_at_later hknown hexpiry hle (lt_of_lt_of_le hlt hbound)

theorem ActiveWithin.mono (h : ActiveWithin now until_ b)
    (hle : later ≤ until_) : ActiveWithin now later b := by
  obtain ⟨answer, expiry, hactive, hexpiry, hbound⟩ := h
  exact ⟨answer, expiry, hactive, hexpiry, fun ha hlt => hle.trans (hbound ha hlt)⟩

theorem ActiveWithin.same (h : ActiveWithin now until_ b) (hle : now ≤ t)
    (hlt : t < until_) : active b t = active b now := by
  obtain ⟨answer, expiry, hactive, hexpiry, hbound⟩ := h
  unfold active at hactive ⊢
  rw [hexpiry, ok_bind] at hactive
  have hanswer := ok.inj hactive
  simp only [hexpiry, ok_bind]
  by_cases hearly : now < expiry
  · by_cases ha : answer = true
    · have hstill : t < expiry := lt_of_lt_of_le hlt (hbound ha hearly)
      rw [decide_eq_true hearly, decide_eq_true hstill]
    · -- an inactive claim that has not expired is inactive for its state
      rw [← hanswer, decide_eq_true hearly] at ha
      by_cases hstill : t < expiry
      · rw [decide_eq_true hearly, decide_eq_true hstill]
      · rw [decide_eq_true hearly, decide_eq_false hstill]
        congr 1
        cases hstate : b.state <;> cases hinit : b.initiated <;> simp_all
  · have hpast : ¬ t < expiry := fun h => hearly (lt_of_le_of_lt hle h)
    rw [decide_eq_false hearly, decide_eq_false hpast]

theorem foldlM_lowers {α : Type} {Q : Instant → α → Prop} {f : Instant → α → Checked Instant}
    (hmono : ∀ a u v, v ≤ u → Q u a → Q v a)
    (hstep : ∀ u a v, f u a = .ok v → v ≤ u ∧ Q v a) :
    ∀ {l : List α} {u v : Instant}, l.foldlM f u = .ok v → v ≤ u ∧ ∀ a ∈ l, Q v a
  | [], u, v, h => by
    cases h
    exact ⟨le_rfl, nofun⟩
  | a :: l, u, v, h => by
    obtain ⟨w, hw, h⟩ := foldlM_cons_ok.mp h
    obtain ⟨hle, hq⟩ := hstep u a w hw
    obtain ⟨hle', hall⟩ := foldlM_lowers hmono hstep h
    exact ⟨hle'.trans hle, forall_mem_cons.mpr ⟨hmono a w v hle' hq, hall⟩⟩

theorem observe_ok (h : observe now maxAge until_ e = .ok later) :
    later ≤ until_ ∧ Within now maxAge later e := by
  unfold observe at h
  split at h
  · obtain ⟨expiry, hexpiry, h⟩ := bind_ok.mp h
    cases h
    exact ⟨min_le_left _ _, fun _ => ⟨expiry, hexpiry, min_le_right _ _⟩⟩
  · rename_i hunknown
    cases h
    refine ⟨le_rfl, fun hknown => absurd ?_ hunknown⟩
    rw [hknown]
    rfl

theorem observeRoute_ok {route : TransferTimingRoute}
    (h : observeRoute now maxAge until_ route = .ok later) : later ≤ until_ := by
  unfold observeRoute at h
  split at h
  · obtain ⟨expiry, -, h⟩ := bind_ok.mp h
    cases h
    exact min_le_left _ _
  · cases h
    exact le_rfl

theorem observeBundle_ok (h : observeBundle now until_ b = .ok later) :
    later ≤ until_ ∧ ActiveWithin now later b := by
  rw [observeBundle, bind_ok] at h
  obtain ⟨answer, hactive, h⟩ := h
  obtain ⟨expiry, hexpiry, hanswer⟩ := bind_ok.mp hactive
  cases answer with
  | false =>
    cases h
    exact ⟨le_rfl, false, expiry, hactive, hexpiry, nofun⟩
  | true =>
    rw [if_pos rfl, hexpiry, ok_bind] at h
    cases h
    split
    · exact ⟨min_le_left _ _, true, expiry, hactive, hexpiry, fun _ _ => min_le_right _ _⟩
    · rename_i hpast
      exact ⟨le_rfl, true, expiry, hactive, hexpiry, fun _ hlt => absurd hlt hpast⟩

end Observing

/-- What the expiry of an evaluation stays within. -/
structure Observed (input : LiquidityInput) (accounts : Accounts) (categories : Categories)
    (now until_ : Instant) : Prop where
  accounts : ∀ a ∈ accounts.values, eligible a.policy a.fact = true →
    ∀ e ∈ observedEvidence a.fact, Within now input.maxBudgetSnapshotAgeMinutes until_ e
  categories : ∀ c ∈ categories.values,
    Within now input.maxBudgetSnapshotAgeMinutes until_ c.evidence
  claims : ∀ b ∈ input.claimSet.bundles, ActiveWithin now until_ b
  after : now < until_
  valid : ∃ validUntil, instant input.validUntil = .ok validUntil ∧ until_ ≤ validUntil

theorem expiryInstant_steps {input : LiquidityInput} {categories : Categories}
    {now until_ : Instant} (h : expiryInstant input accounts categories now = .ok until_) :
    ∃ validUntil policyExpires u₁ u₂ u₃, instant input.validUntil = .ok validUntil ∧
      ((accounts.values.filter fun a => eligible a.policy a.fact).flatMap
          fun a => observedEvidence a.fact).foldlM
        (observe now input.maxBudgetSnapshotAgeMinutes) (min validUntil policyExpires) = .ok u₁ ∧
      (categories.values.map (·.evidence)).foldlM
        (observe now input.maxBudgetSnapshotAgeMinutes) u₁ = .ok u₂ ∧
      input.liquidityPolicy.transferRoutes.foldlM
        (observeRoute now input.maxBudgetSnapshotAgeMinutes) u₂ = .ok u₃ ∧
      input.claimSet.bundles.foldlM (observeBundle now) u₃ = .ok until_ ∧ now < until_ := by
  unfold expiryInstant at h
  obtain ⟨validUntil, hvalid, h⟩ := bind_ok.mp h
  obtain ⟨policyExpires, -, h⟩ := bind_ok.mp h
  obtain ⟨u₁, h₁, h⟩ := bind_ok.mp h
  obtain ⟨u₂, h₂, h⟩ := bind_ok.mp h
  obtain ⟨u₃, h₃, h⟩ := bind_ok.mp h
  obtain ⟨u₄, h₄, h⟩ := bind_ok.mp h
  obtain ⟨_, hafter, h⟩ := bind_ok.mp h
  obtain rfl : u₄ = until_ := ok.inj h
  have hlate : now < u₄ := by
    rw [reject_ok, decide_eq_false_iff_not] at hafter
    exact not_le.mp hafter
  exact ⟨validUntil, policyExpires, u₁, u₂, u₃, hvalid, h₁, h₂, h₃, h₄, hlate⟩

theorem expiryInstant_observed {input : LiquidityInput}
    {categories : Categories} {now until_ : Instant}
    (h : expiryInstant input accounts categories now = .ok until_) :
    Observed input accounts categories now until_ := by
  obtain ⟨validUntil, policyExpires, u₁, u₂, u₃, hvalid, h₁, h₂, h₃, h₄, hafter⟩ :=
    expiryInstant_steps h
  have hwithin : ∀ (e : FactEvidence) (u v : Instant), v ≤ u →
      Within now input.maxBudgetSnapshotAgeMinutes u e →
        Within now input.maxBudgetSnapshotAgeMinutes v e := fun e u v hle hw => hw.mono hle
  have hclaims : ∀ (b : LiquidityClaimBundle) (u v : Instant), v ≤ u →
      ActiveWithin now u b → ActiveWithin now v b := fun b u v hle hw => hw.mono hle
  obtain ⟨hle₁, hall₁⟩ := foldlM_lowers hwithin (fun u e v => observe_ok) h₁
  obtain ⟨hle₂, hall₂⟩ := foldlM_lowers hwithin (fun u e v => observe_ok) h₂
  obtain ⟨hle₃, -⟩ := foldlM_lowers (Q := fun _ _ => True) (fun _ _ _ _ _ => trivial)
    (fun u route v hr => ⟨observeRoute_ok hr, trivial⟩) h₃
  obtain ⟨hle₄, hall₄⟩ := foldlM_lowers hclaims (fun u b v => observeBundle_ok) h₄
  refine ⟨?_, ?_, hall₄, hafter, validUntil, hvalid, ?_⟩
  · intro a ha heligible e he
    have hmem : e ∈ (accounts.values.filter fun a => eligible a.policy a.fact).flatMap
        fun a => observedEvidence a.fact :=
      mem_flatMap.mpr ⟨a, mem_filter.mpr ⟨ha, heligible⟩, he⟩
    exact (hall₁ e hmem).mono (hle₄.trans (hle₃.trans hle₂))
  · intro c hc
    exact (hall₂ c.evidence (mem_map_of_mem hc)).mono (hle₄.trans hle₃)
  · exact hle₄.trans (hle₃.trans (hle₂.trans (hle₁.trans (min_le_left _ _))))

/-! ## All accounts -/

section Accounts

variable {input : LiquidityInput} {facts : LiquidityFacts} {categories : Categories}
  {now t : Instant} {funded funded' : Amounts} {f : AccountLiquidityFact}
  {p : AccountLiquidityPolicy}

theorem Steady.refl (f : AccountLiquidityFact) (now : Instant) :
    Steady input categories f now now where
  own _ _ := id
  credit _ _ := id
  cards _ _ _ _ _ := id
  categories _ _ := id
  claims _ _ := rfl

theorem prepareAccount_bounded (hkeyed : Keyed categories) (hfunded : Bounded categories funded) :
    Bounded categories (prepareAccount f p input categories now funded).2 := by
  unfold prepareAccount
  dsimp only
  split
  · exact hfunded
  · split
    · exact hfunded
    · split
      · rename_i a used hok
        exact (prepareSteps_later hkeyed (Steady.refl f now) hfunded hfunded hok).1
      · exact hfunded

theorem prepareAccount_later (hkeyed : Keyed categories) (hfunded : Bounded categories funded)
    (hfunded' : Bounded categories funded')
    (hsteady : input.sourceCoverageComplete = true → eligible p f = true →
      ∀ r, prepareSteps input categories now funded (openingCash f p) = .ok r →
        Steady input categories f now t)
    (h : (prepareAccount f p input categories now funded).1.known = true) :
    (prepareAccount f p input categories t funded').1.known = true := by
  unfold prepareAccount at h ⊢
  dsimp only at h ⊢
  split at h
  · exact absurd h Bool.false_ne_true
  · rename_i hcoverage
    rw [if_neg hcoverage]
    split at h
    · exact absurd h Bool.false_ne_true
    · rename_i heligible
      rw [if_neg heligible]
      split at h
      · rename_i a used hok
        have hsame := hsteady (by simpa using hcoverage) (by simpa using heligible) _ hok
        obtain ⟨-, r', hok', hknown⟩ := prepareSteps_later hkeyed hsame hfunded hfunded' hok
        rw [hok']
        exact hknown
      · exact absurd h Bool.false_ne_true

theorem steps_of_known (h : (prepareAccount f p input categories now funded).1.known = true) :
    eligible p f = true ∧
      ∃ r, prepareSteps input categories now funded (openingCash f p) = .ok r := by
  unfold prepareAccount at h
  dsimp only at h
  split at h
  · exact absurd h Bool.false_ne_true
  · split at h
    · exact absurd h Bool.false_ne_true
    · rename_i heligible
      split at h
      · rename_i a used hok
        exact ⟨by simpa using heligible, _, hok⟩
      · exact absurd h Bool.false_ne_true

/-- The entry of an account: prepared from bounded totals. -/
def Entry (input : LiquidityInput) (categories : Categories) (now : Instant) (accounts : Accounts)
    (f : AccountLiquidityFact) : Prop :=
  ∃ funded, Bounded categories funded ∧
    accounts.get? f.accountId = some (prepareAccount f (policyOf input f) input categories now funded).1

/-- Accounts prepared one after another. -/
structure AllPrepared (input : LiquidityInput) (categories : Categories) (now : Instant)
    (done : List AccountLiquidityFact) (s : Accounts × Amounts) : Prop where
  bounded : Bounded categories s.2
  entries : ∀ f ∈ done, Entry input categories now s.1 f
  origin : ∀ id a, s.1.get? id = some a → ∃ f ∈ done, f.accountId = id

theorem AllPrepared.next {done : List AccountLiquidityFact} {s : Accounts × Amounts}
    (hkeyed : Keyed categories) (hs : AllPrepared input categories now done s)
    (hnew : ∀ g ∈ done, g.accountId ≠ f.accountId) :
    AllPrepared input categories now (done ++ [f]) (prepareNext input categories now s f) := by
  refine ⟨prepareAccount_bounded hkeyed hs.bounded, fun g hg => ?_, fun id a ha => ?_⟩
  · rcases mem_append.mp hg with hg | hg
    · obtain ⟨funded, hfunded, hentry⟩ := hs.entries g hg
      refine ⟨funded, hfunded, ?_⟩
      rw [← hentry]
      exact SortedMap.get?_insert_of_ne _ _ (hnew g hg).symm
    · obtain rfl := mem_singleton.mp hg
      exact ⟨s.2, hs.bounded, SortedMap.get?_insert_self _ _ _⟩
  · change (s.1.insert f.accountId _).get? id = some a at ha
    rw [SortedMap.get?_insert] at ha
    split at ha
    · rename_i hid
      exact ⟨f, mem_append_right _ (mem_singleton_self f), hid⟩
    · obtain ⟨g, hg, hid⟩ := hs.origin id a ha
      exact ⟨g, mem_append_left _ hg, hid⟩

theorem prepareAccounts_entries (hkeyed : Keyed categories) (hd : Distinct facts) (now : Instant) :
    AllPrepared input categories now (orderedAccounts facts)
      (prepareAccounts input facts categories now) := by
  have hnodup : ((orderedAccounts facts).map (·.accountId)).Nodup :=
    ((perm_sortOn _ _).map _).nodup_iff.mpr hd.accounts
  have hstart : AllPrepared input categories now [] (SortedMap.empty, SortedMap.empty) := by
    refine ⟨bounded_empty categories, fun f hf => absurd hf not_mem_nil, fun id a ha => ?_⟩
    rw [SortedMap.get?_empty] at ha
    cases ha
  refine foldl_runAt (P := AllPrepared input categories now) (fun done f rest s hlist hs => ?_) hstart
  refine hs.next hkeyed fun g hg => ?_
  rw [hlist, map_append, map_cons, nodup_append] at hnodup
  exact hnodup.2.2 _ (mem_map_of_mem hg) _ mem_cons_self

end Accounts

/-! ## Until the expiry -/

/-- What is prepared again at `t`: every account known at `now` is known, and the same claims are
active. -/
def Kept (input : LiquidityInput) (facts : LiquidityFacts) (now t : Instant) : Prop :=
  (∀ id a, (prepareAccounts input facts (categoryMap facts) now).1.get? id = some a →
    a.known = true → ∃ a', (prepareAccounts input facts (categoryMap facts) t).1.get? id = some a' ∧
      a'.known = true) ∧
  ∀ b ∈ input.claimSet.bundles, active b t = active b now

/-- At `t`, the evidence of cards that are not eligible themselves has not expired, if a known
account pays them. -/
def CardsLast (input : LiquidityInput) (facts : LiquidityFacts) (now t : Instant) : Prop :=
  ∀ card ∈ facts.accounts, eligible (policyOf input card) card = false →
    ∀ credit, card.credit = some credit →
      ∀ a, (prepareAccounts input facts (categoryMap facts) now).1.get? credit.paymentAccountId =
          some a → a.known = true →
        ∀ expiry, evidenceExpiry credit.evidence input.maxBudgetSnapshotAgeMinutes = .ok expiry →
          t < expiry

section Outliving

variable {input : LiquidityInput} {facts : LiquidityFacts} {now t until_ : Instant}

theorem checkedEvaluate_expiry {result : AccountAwareSpendabilityResult}
    (h : checkedEvaluate input = .ok result) :
    ∃ now facts until_, instant input.evaluatedAt = .ok now ∧ checkIdentities input = .ok facts ∧
      expiryInstant input (prepareAccounts input facts (categoryMap facts) now).1 (categoryMap facts)
        now = .ok until_ ∧ result.expiresAt = stamp until_ := by
  obtain ⟨o, hopen, h⟩ := bind_ok.mp h
  obtain ⟨s, -, h⟩ := bind_ok.mp h
  obtain ⟨after, -, h⟩ := bind_ok.mp h
  cases h
  obtain ⟨clock, hclock, hopen⟩ := bind_ok.mp hopen
  obtain ⟨facts, hfacts, hopen⟩ := bind_ok.mp hopen
  obtain ⟨expires, hexpires, hopen⟩ := bind_ok.mp hopen
  obtain ⟨claimed, -, hopen⟩ := bind_ok.mp hopen
  obtain ⟨before, -, hopen⟩ := bind_ok.mp hopen
  cases hopen
  obtain ⟨until_, huntil, hexpires⟩ := bind_ok.mp hexpires
  cases hexpires
  obtain ⟨now, hnow, hclock⟩ := bind_ok.mp hclock
  obtain ⟨start, -, hclock⟩ := bind_ok.mp hclock
  obtain ⟨ends, -, hclock⟩ := bind_ok.mp hclock
  obtain ⟨-, hclock⟩ := rest_ok hclock
  cases hclock
  exact ⟨now, facts, until_, hnow, hfacts, huntil, rfl⟩

theorem Observed.instant_stamp {categories : Categories}
    (h : Observed input accounts categories now until_) (hnow : instant input.evaluatedAt = .ok now) :
    instant (stamp until_) = .ok until_ := by
  obtain ⟨validUntil, hvalid, hle⟩ := h.valid
  obtain ⟨hlow, -⟩ := canonical_of_instant hnow
  obtain ⟨-, hhigh⟩ := canonical_of_instant hvalid
  exact Liquidity.instant_stamp ⟨hlow.trans h.after.le, lt_of_le_of_lt hle hhigh⟩

theorem Observed.own (hd : Distinct facts)
    (h : Observed input (prepareAccounts input facts (categoryMap facts) now).1 (categoryMap facts)
      now until_) {f : AccountLiquidityFact} (hf : f ∈ facts.accounts)
    (heligible : eligible (policyOf input f) f = true)
    (he : e ∈ observedEvidence f) : Within now input.maxBudgetSnapshotAgeMinutes until_ e := by
  have hentries : AllPrepared input (categoryMap facts) now (orderedAccounts facts) _ :=
    prepareAccounts_entries (categoryMap_keyed facts) hd now
  obtain ⟨funded, -, hentry⟩ := hentries.entries f ((mem_sortOn _).mpr hf)
  obtain ⟨hfact, hpolicy⟩ := prepareAccount_origin f (policyOf input f) input (categoryMap facts) now
    funded
  refine h.accounts _ (SortedMap.mem_values_iff.mpr ⟨_, hentry⟩) ?_ e ?_
  · rw [hfact, hpolicy]
    exact heligible
  · rw [hfact]
    exact he

theorem known_of_steps {categories : Categories} {funded : Amounts} {f card : AccountLiquidityFact}
    {p : AccountLiquidityPolicy} {r : Cash × Amounts} {credit : CreditLiquidityFact}
    (hcard : card ∈ input.facts.elim [] (·.accounts)) (hcredit : card.credit = some credit)
    (hpays : credit.paymentAccountId = f.accountId)
    (h : prepareSteps input categories t funded (openingCash f p) = .ok r) :
    known credit.evidence t input.maxBudgetSnapshotAgeMinutes = .ok () := by
  obtain ⟨_, h⟩ := rest_ok h
  obtain ⟨⟨a, economic⟩, hopen, h⟩ := bind_ok.mp h
  obtain ⟨s, hreserves, -⟩ := bind_ok.mp h
  obtain ⟨horizonEnd, -, hreserves⟩ := bind_ok.mp hreserves
  obtain ⟨s₁, hobligations, hreserves⟩ := bind_ok.mp hreserves
  obtain ⟨-, hreserves⟩ := rest_ok hreserves
  obtain ⟨reserves, hreserves, -⟩ := bind_ok.mp hreserves
  obtain ⟨before, after, hstep⟩ := foldlM_mem_ok (stopAt_eq_ok.mp hreserves) card hcard
  have hkeeps := keeps_openBalance (f := f) (p := p) (a := openingCash f p) ⟨rfl, rfl⟩
  rw [hopen] at hkeeps
  have hfold : Keeps f p (fun s : Cash × Reserves => s.1)
      (a.fact.obligations.foldlM (reserveObligation economic horizonEnd) (a, SortedMap.empty)) :=
    Keeps.fold (fun _ _ => keeps_reserveObligation) hkeeps
  rw [hobligations] at hfold
  have hfact : s₁.1.fact = f := hfold.1
  exact known_of_reserveCard hcredit (hfact ▸ hpays) hstep

theorem AllPrepared.known {s : Accounts × Amounts} {id : String} {a : Cash}
    (h : AllPrepared input (categoryMap facts) now (orderedAccounts facts) s)
    (ha : s.1.get? id = some a) (hknown : a.known = true) :
    ∃ f ∈ facts.accounts, f.accountId = id ∧ ∃ funded, Bounded (categoryMap facts) funded ∧
      a = (prepareAccount f (policyOf input f) input (categoryMap facts) now funded).1 ∧
      eligible (policyOf input f) f = true ∧
      ∃ r, prepareSteps input (categoryMap facts) now funded (openingCash f (policyOf input f)) =
        .ok r := by
  obtain ⟨f, hf, rfl⟩ := h.origin id a ha
  obtain ⟨funded, hfunded, hentry⟩ := h.entries f hf
  obtain rfl := some.inj (ha.symm.trans hentry)
  obtain ⟨heligible, hsteps⟩ := steps_of_known hknown
  exact ⟨f, (mem_sortOn _).mp hf, rfl, funded, hfunded, rfl, heligible, hsteps⟩

/-- **The cards are all that is missing**: if they last, everything an account looks up lasts. -/
theorem steady_of_cardsLast (hd : Distinct facts) (hfacts : input.facts = some facts)
    (h : Observed input (prepareAccounts input facts (categoryMap facts) now).1 (categoryMap facts)
      now until_) (hle : now ≤ t) (hlt : t < until_) (hlast : CardsLast input facts now t)
    {f : AccountLiquidityFact} (hf : f ∈ facts.accounts)
    (heligible : eligible (policyOf input f) f = true) {a : Cash}
    (ha : (prepareAccounts input facts (categoryMap facts) now).1.get? f.accountId = some a)
    (hknown : a.known = true) : Steady input (categoryMap facts) f now t where
  own e he := by
    refine (h.own hd hf heligible (e := e) ?_).lasts hle hlt
    simp only [accountEvidence, mem_cons, not_mem_nil, or_false] at he
    simp only [observedEvidence, mem_append, mem_cons, not_mem_nil, or_false]
    tauto
  credit credit hcredit := by
    refine (h.own hd hf heligible ?_).lasts hle hlt
    rw [observedEvidence, hcredit]
    exact mem_append_right _ (mem_singleton_self _)
  cards card hcard credit hcredit hpays := by
    rw [hfacts] at hcard
    cases hcardEligible : eligible (policyOf input card) card with
    | true =>
      refine (h.own hd hcard hcardEligible ?_).lasts hle hlt
      rw [observedEvidence, hcredit]
      exact mem_append_right _ (mem_singleton_self _)
    | false =>
      intro hnow
      obtain ⟨expiry, hexpiry, -⟩ := exists_expiry_of_known hnow
      have hlater : t < expiry :=
        hlast card hcard hcardEligible credit hcredit a (hpays ▸ ha) hknown expiry hexpiry
      exact known_at_later hnow hexpiry hle hlater
  categories c hc := (h.categories c hc).lasts hle hlt
  claims b hb := (h.claims b hb).same hle hlt

/-- **Until its expiry, an evaluation is kept if and only if the cards last** that known accounts
pay and that are not eligible themselves: their evidence is needed and not observed. -/
theorem quote_outlived_iff {result : AccountAwareSpendabilityResult}
    (h : checkedEvaluate input = .ok result) (hfacts : input.facts = some facts)
    (hnow : instant input.evaluatedAt = .ok now) (hexpires : instant result.expiresAt = .ok until_)
    (hle : now ≤ t) (hlt : t < until_) :
    Kept input facts now t ↔ CardsLast input facts now t := by
  obtain ⟨now', facts', until', hnow', hids, hobserved, hstamp⟩ := checkedEvaluate_expiry h
  obtain rfl := ok.inj (hnow'.symm.trans hnow)
  obtain ⟨hsame, hd⟩ := checkIdentities_ok hids
  obtain rfl := some.inj (hsame.symm.trans hfacts)
  have hobserved := expiryInstant_observed hobserved
  rw [hstamp, hobserved.instant_stamp hnow] at hexpires
  obtain rfl := ok.inj hexpires
  have hkeyed := categoryMap_keyed facts'
  have hentries : AllPrepared input (categoryMap facts') now' (orderedAccounts facts') _ :=
    prepareAccounts_entries hkeyed hd now'
  have hlater : AllPrepared input (categoryMap facts') t (orderedAccounts facts') _ :=
    prepareAccounts_entries hkeyed hd t
  constructor
  · intro hkept card hcard _ credit hcredit a ha hknown expiry hexpiry
    obtain ⟨a', ha', hknown'⟩ := hkept.1 _ a ha hknown
    obtain ⟨f, -, hid, funded, -, -, -, r, hsteps⟩ := hlater.known ha' hknown'
    have hcards : card ∈ input.facts.elim [] (·.accounts) := by rw [hfacts]; exact hcard
    obtain ⟨expiry', hexpiry', hbefore⟩ :=
      exists_expiry_of_known (known_of_steps hcards hcredit hid.symm hsteps)
    obtain rfl := ok.inj (hexpiry'.symm.trans hexpiry)
    exact hbefore
  · intro hlast
    refine ⟨fun id a ha hknown => ?_, fun b hb => (hobserved.claims b hb).same hle hlt⟩
    obtain ⟨f, hf, rfl, funded, hfunded, rfl, heligible, -⟩ := hentries.known ha hknown
    obtain ⟨funded', hfunded', hentry⟩ := hlater.entries f ((mem_sortOn _).mpr hf)
    refine ⟨_, hentry, prepareAccount_later hkeyed hfunded hfunded' (fun _ _ _ _ => ?_) hknown⟩
    exact steady_of_cardsLast hd hfacts hobserved hle hlt hlast hf heligible ha hknown

end Outliving

/-! ## A card that is not on budget -/

def thirdOfJanuary : FactEvidence := { weekEvidence with expiresAt := some "2026-01-03T00:00:00Z" }

def storeCard : AccountLiquidityFact :=
  { cashAccount "store" 0 with
    onBudget := false
    credit := some
      { authorizationAvailable := usd 0, pendingIncludedInAuthorization := true
        paymentAccountId := "checking", paymentCategoryId := "food"
        dueAt := "2026-01-20T00:00:00Z", reservedCash := usd 0
        economicObligationId := "store", evidence := thirdOfJanuary } }

def factsWithCard : LiquidityFacts where
  version := "1"
  ledgerContentHash := "ledger"
  asOfMonth := "2026-01"
  categories := household.facts.elim [] (·.categories)
  accounts := household.facts.elim [] (·.accounts) ++ [storeCard]
  schedules := []

def householdWithCard : LiquidityInput := { household with facts := some factsWithCard }

def expiryOf (input : LiquidityInput) : Option String :=
  (checkedEvaluate input).toOption.map (·.expiresAt)

def knownAt (input : LiquidityInput) (facts : LiquidityFacts) (at_ : Instant) (id : String) :
    Option Bool :=
  ((prepareAccounts input facts (categoryMap facts) at_).1.get? id).map (·.known)

/-- On the fifth the evaluation of the household is kept: it has no card. -/
theorem household_outlived :
    Kept household (household.facts.get rfl) 1767312000000000000 1767571200000000000 := by
  have hexpires : expiryOf household = some "2026-01-08T00:00:00Z" := by decide +kernel
  obtain ⟨result, hresult, hexpires⟩ := map_eq_some_iff.mp hexpires
  have huntil : instant result.expiresAt = .ok 1767830400000000000 := by
    rw [hexpires]
    decide +kernel
  have hresult : checkedEvaluate household = .ok result := toOption_eq_some.mp hresult
  refine (quote_outlived_iff hresult rfl (by decide +kernel) huntil (by decide) (by decide)).mpr ?_
  intro card hcard _ credit hcredit
  have hnone : ∀ card ∈ (household.facts.get rfl).accounts, card.credit = none := by
    decide +kernel
  rw [hnone card hcard] at hcredit
  cases hcredit

theorem card_outlived :
    ¬ ∀ input facts result now until_ t, checkedEvaluate input = .ok result →
      input.facts = some facts → instant input.evaluatedAt = .ok now →
        instant result.expiresAt = .ok until_ → now ≤ t → t < until_ → Kept input facts now t := by
  intro hall
  have hexpires : expiryOf householdWithCard = some "2026-01-08T00:00:00Z" := by decide +kernel
  have hbefore : knownAt householdWithCard factsWithCard 1767312000000000000 "checking" =
      some true := by decide +kernel
  have hafter : knownAt householdWithCard factsWithCard 1767571200000000000 "checking" =
      some false := by decide +kernel
  obtain ⟨result, hresult, hexpires⟩ := map_eq_some_iff.mp hexpires
  have huntil : instant result.expiresAt = .ok 1767830400000000000 := by
    rw [hexpires]
    decide +kernel
  have hresult : checkedEvaluate householdWithCard = .ok result := toOption_eq_some.mp hresult
  have hkept := hall householdWithCard factsWithCard result 1767312000000000000 1767830400000000000
    1767571200000000000 hresult rfl (by decide +kernel) huntil (by decide) (by decide)
  obtain ⟨a, ha, hknown⟩ := map_eq_some_iff.mp hbefore
  obtain ⟨a', ha', hknown'⟩ := hkept.1 "checking" a ha hknown
  obtain ⟨b, hb, hunknown⟩ := map_eq_some_iff.mp hafter
  obtain rfl := some.inj (ha'.symm.trans hb)
  exact absurd (hknown'.symm.trans hunknown) (by decide)

end BalanceFrame.Liquidity
