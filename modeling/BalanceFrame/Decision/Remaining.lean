import BalanceFrame.Decision.TotalsCorrect
import BalanceFrame.Liquidity.Identities

/-!
# What the engine leaves of a category

The remaining availability that `checked_evaluate` reports without a scenario, in terms of its
input. The engine takes every active category claim off its category, one identity once, whether it
mirrors an obligation or not.
-/

namespace BalanceFrame.Decision

open Library Liquidity List

variable {input : LiquidityInput} {categories : Categories} {s s' : Claimed}
  {facts : LiquidityFacts} {now : Instant}

/-- The bundle is active for the engine. -/
def isActive (now : Instant) (b : LiquidityClaimBundle) : Bool := valueOr false (active b now)

/-- The effects of the bundles that are active for the engine. -/
def activeEffects (bundles : List LiquidityClaimBundle) (now : Instant) :
    List LiquidityClaimEffect :=
  (bundles.filter (isActive now)).flatMap (·.effects)

theorem claimEffects_counted :
    ∀ {l : List LiquidityClaimEffect} {s s' : List (ClaimEffectKind × String × String) × Claimed},
      l.foldlM (claimEffect input categories) s = .ok s' →
        l.foldlM (countClaim input categories) s.2 = .ok s'.2
  | [], s, s', h => by
    cases h
    rfl
  | e :: l, s, s', h => by
    obtain ⟨t, ht, h⟩ := foldlM_cons_ok.mp h
    obtain ⟨-, ht⟩ := rest_ok ht
    obtain ⟨claimed, hclaimed, ht⟩ := bind_ok.mp ht
    cases ht
    exact foldlM_cons_ok.mpr ⟨claimed, hclaimed, claimEffects_counted h⟩

theorem claimBundle_ok {b : LiquidityClaimBundle}
    (h : claimBundle input categories now s b = .ok s') :
    active b now = .ok (isActive now b) ∧
      (if isActive now b then b.effects else []).foldlM (countClaim input categories) s =
        .ok s' := by
  rw [claimBundle, bind_ok] at h
  obtain ⟨answer, hactive, h⟩ := h
  have hanswer : isActive now b = answer := congrArg (valueOr false) hactive
  rw [hanswer]
  refine ⟨hactive, ?_⟩
  cases answer with
  | false => exact h
  | true =>
    rw [if_pos rfl, bind_ok] at h
    obtain ⟨t, ht, h⟩ := h
    cases h
    exact claimEffects_counted ht

/-- **The loop over the bundles** counts the effects of the active ones, in order. -/
theorem claimBundles_effects {bundles : List LiquidityClaimBundle}
    (h : bundles.foldlM (claimBundle input categories now) s = .ok s') :
    (∀ b ∈ bundles, active b now = .ok (isActive now b)) ∧
      (activeEffects bundles now).foldlM (countClaim input categories) s = .ok s' := by
  induction bundles generalizing s with
  | nil => exact ⟨nofun, h⟩
  | cons b bundles ih =>
    obtain ⟨t, ht, h⟩ := foldlM_cons_ok.mp h
    obtain ⟨hall, hrest⟩ := ih h
    obtain ⟨hactive, hcounted⟩ := claimBundle_ok ht
    refine ⟨forall_mem_cons.mpr ⟨hactive, hall⟩, ?_⟩
    have hsplit : activeEffects (b :: bundles) now =
        (if isActive now b then b.effects else []) ++ activeEffects bundles now := by
      unfold activeEffects
      rw [filter_cons]
      split <;> rfl
    rw [hsplit]
    exact foldlM_append_ok.mpr ⟨t, hcounted, hrest⟩

/-! ## The claims of a category -/

/-- What is left after some claims of a start: each took its amount off its category, once. -/
structure ClaimedBy (facts : LiquidityFacts) (start : Amounts) (done : List LiquidityClaimEffect)
    (s : Claimed) : Prop where
  counted : ∀ e ∈ done, ∀ c ∈ facts.categories, c.categoryId = e.resourceId →
    c.asOfMonth = facts.asOfMonth →
      (s.counted.get? (toLex (c.cashBucketId, e.economicObligationId))).isSome
  known : ∀ bucket id, (s.counted.get? (toLex (bucket, id))).isSome →
    id ∈ done.map (·.economicObligationId)
  absent : ∀ bucket, start.get? bucket = none → s.available.get? bucket = none
  left : ∀ c ∈ facts.categories, c.asOfMonth = facts.asOfMonth → ∀ n₀,
    start.get? c.cashBucketId = some n₀ → ∃ n, s.available.get? c.cashBucketId = some n ∧
      (n : Int) = n₀ - heldWhere (fun _ => true) done c.categoryId

theorem takeFrom_ok {amounts amounts' : Amounts} {id : String} {n : I64}
    (h : takeFrom amounts id n = .ok amounts') :
    (∀ other, other ≠ id → amounts'.get? other = amounts.get? other) ∧
      (amounts.get? id = none → amounts'.get? id = none) ∧
      ∀ v, amounts.get? id = some v → ∃ v', amounts'.get? id = some v' ∧ (v' : Int) = v - n := by
  unfold takeFrom at h
  split at h
  · rename_i hnone
    cases h
    refine ⟨fun _ _ => rfl, fun h => h, fun v hv => ?_⟩
    rw [hnone] at hv
    cases hv
  · rename_i value hvalue
    obtain ⟨v', hv', h⟩ := bind_ok.mp h
    cases h
    refine ⟨fun other hne => SortedMap.get?_insert_of_ne _ _ (Ne.symm hne), fun hnone => ?_,
      fun v hv => ?_⟩
    · rw [hvalue] at hnone
      cases hnone
    obtain rfl := Option.some.inj (hvalue.symm.trans hv)
    exact ⟨v', SortedMap.get?_insert_self _ _ _, sub_eq_ok.mp hv'⟩

theorem ClaimedBy.step {start : Amounts}
    {done : List LiquidityClaimEffect} {e : LiquidityClaimEffect}
    (hd : Distinct facts) (hfacts : input.facts = some facts)
    (hagree : holdsCategory e = true → ∀ e' ∈ done,
      e'.economicObligationId = e.economicObligationId → e'.resourceId = e.resourceId)
    (hs : ClaimedBy facts start done s)
    (h : countClaim input (categoryMap facts) s e = .ok s') :
    ClaimedBy facts start (done ++ if holdsCategory e then [e] else []) s' := by
  unfold countClaim at h
  by_cases hholds : holdsCategory e = true
  · rw [if_neg (by simpa [holdsCategory] using hholds)] at h
    rw [if_pos hholds]
    obtain ⟨c, hc, h⟩ := bind_ok.mp h
    obtain ⟨n, hn, h⟩ := bind_ok.mp h
    obtain ⟨hmem, hid, hmonth⟩ := currentCategory_some hd hfacts (orStop_ok.mp hc)
    obtain ⟨-, -, -, rfl⟩ := units_eq_ok.mp hn
    have hsame : ∀ c' ∈ facts.categories, c'.categoryId = e.resourceId →
        c'.asOfMonth = facts.asOfMonth → c' = c := fun c' hc' hid' hmonth' =>
      hd.period_eq hc' hmem (hid'.trans hid.symm) (hmonth'.trans hmonth.symm)
    dsimp only at h
    split at h
    · rename_i old hold
      obtain ⟨_, hsameAmount, h⟩ := bind_ok.mp h
      cases h
      have hmet := hs.known _ _ (by rw [hold]; rfl)
      refine ⟨fun e' he' c' hc' hid' hmonth' => ?_, fun bucket id hsome => ?_, hs.absent,
        fun c' hc' hmonth' n₀ hn₀ => ?_⟩
      · rw [SortedMap.get?_insert]
        split
        · rfl
        · rename_i hne
          rcases mem_append.mp he' with he' | he'
          · exact hs.counted e' he' c' hc' hid' hmonth'
          · obtain rfl := mem_singleton.mp he'
            rw [hsame c' hc' hid' hmonth'] at hne
            exact absurd rfl hne
      · rw [map_append, mem_append]
        rw [SortedMap.get?_insert] at hsome
        split at hsome
        · rename_i heq
          exact .inl ((Prod.mk.inj (toLex.injective heq)).2 ▸ hmet)
        · exact .inl (hs.known bucket id hsome)
      · rw [heldWhere_snoc, if_neg fun h => h.1 hmet, Int.add_zero]
        exact hs.left c' hc' hmonth' n₀ hn₀
    · rename_i hnone
      obtain ⟨available, havailable, h⟩ := bind_ok.mp h
      cases h
      have hfirst : e.economicObligationId ∉ done.map (·.economicObligationId) := by
        intro hmet
        obtain ⟨e', he', hid'⟩ := mem_map.mp hmet
        have hcounted := hs.counted e' he' c hmem
          (hid.trans (hagree hholds e' he' hid').symm) hmonth
        rw [hid', hnone] at hcounted
        cases hcounted
      obtain ⟨hothers, habsent, htaken⟩ := takeFrom_ok havailable
      refine ⟨fun e' he' c' hc' hid' hmonth' => ?_, fun bucket id hsome => ?_,
        fun bucket hstart => ?_, fun c' hc' hmonth' n₀ hn₀ => ?_⟩
      · rw [SortedMap.get?_insert]
        split
        · rfl
        · rename_i hne
          rcases mem_append.mp he' with he' | he'
          · exact hs.counted e' he' c' hc' hid' hmonth'
          · obtain rfl := mem_singleton.mp he'
            rw [hsame c' hc' hid' hmonth'] at hne
            exact absurd rfl hne
      · rw [map_append, mem_append]
        rw [SortedMap.get?_insert] at hsome
        split at hsome
        · rename_i heq
          exact .inr (by simp [(Prod.mk.inj (toLex.injective heq)).2])
        · exact .inl (hs.known bucket id hsome)
      · by_cases hbucket : bucket = c.cashBucketId
        · rw [hbucket] at hstart ⊢
          exact habsent (hs.absent _ hstart)
        · rw [hothers bucket hbucket]
          exact hs.absent bucket hstart
      · obtain ⟨v, hv, hleft⟩ := hs.left c' hc' hmonth' n₀ hn₀
        by_cases hcategory : c'.categoryId = e.resourceId
        · obtain rfl := hsame c' hc' hcategory hmonth'
          obtain ⟨v', hv', hless⟩ := htaken v hv
          refine ⟨v', hv', ?_⟩
          rw [heldWhere_snoc, if_pos ⟨hfirst, hcategory.symm, rfl⟩]
          omega
        · have hbucket : c'.cashBucketId ≠ c.cashBucketId := by
            intro heq
            obtain rfl := inj_on_of_nodup_map hd.buckets hc' hmem heq
            exact hcategory hid
          refine ⟨v, by rw [hothers _ hbucket, hv], ?_⟩
          rw [heldWhere_snoc, if_neg fun h => hcategory h.2.1.symm, Int.add_zero, hleft]
  · rw [if_pos (by simpa [holdsCategory, imp_iff_not_or] using hholds)] at h
    rw [if_neg hholds, append_nil]
    cases h
    exact hs

theorem claimedBy_run {start : Claimed} {l : List LiquidityClaimEffect} (hd : Distinct facts)
    (hfacts : input.facts = some facts) (hempty : start.counted = SortedMap.empty)
    (hconsistent : Consistent (l.filter holdsCategory))
    (h : l.foldlM (countClaim input (categoryMap facts)) start = .ok s) :
    ClaimedBy facts start.available (l.filter holdsCategory) s := by
  refine foldlM_runAt (P := fun done s => ClaimedBy facts start.available
    (done.filter holdsCategory) s) (fun done e rest s s' hl hs hstep => ?_) ?_ h
  · rw [filter_snoc]
    refine hs.step hd hfacts (fun hholds e' he' hid => ?_) hstep
    have hsub : ∀ x ∈ (done ++ [e]).filter holdsCategory, x ∈ l.filter holdsCategory := by
      intro x hx
      rw [hl, filter_append, mem_append]
      rw [filter_append, mem_append] at hx
      rcases hx with hx | hx
      · exact .inl hx
      · right
        rw [filter_cons_of_pos hholds] at hx ⊢
        rw [mem_singleton.mp hx]
        exact mem_cons_self
    have hmem : e ∈ (done ++ [e]).filter holdsCategory :=
      mem_filter.mpr ⟨by simp, hholds⟩
    have hmem' : e' ∈ (done ++ [e]).filter holdsCategory := by
      rw [filter_append]
      exact mem_append_left _ he'
    exact (hconsistent e' (hsub e' hmem') e (hsub e hmem) hid).1
  · exact ⟨by simp, by simp [hempty], fun _ h => h, fun c _ _ n₀ hn₀ => ⟨n₀, hn₀, by
      simp [heldWhere, firsts]⟩⟩

/-! ## The categories of an evaluation -/

theorem openCategory_available (input : LiquidityInput) (facts : LiquidityFacts) (now : Instant)
    (s : Envelopes) (c : CategoryLiquidityFact) (bucket : String) :
    (openCategory input facts now s c).available.get? bucket =
      if c.cashBucketId = bucket ∧ isOk (categoryUnits input facts now c) then
        some c.availability.minorUnits else s.available.get? bucket := by
  unfold openCategory
  dsimp only
  cases hunits : categoryUnits input facts now c with
  | error reason => simp [isOk]
  | ok n =>
    have hn : n = c.availability.minorUnits := by
      obtain ⟨-, hrest⟩ := rest_ok hunits
      obtain ⟨k, hk, hrest⟩ := bind_ok.mp hrest
      obtain ⟨-, hrest⟩ := rest_ok hrest
      obtain ⟨-, hrest⟩ := rest_ok hrest
      obtain ⟨-, hrest⟩ := rest_ok hrest
      cases hrest
      exact (units_eq_ok.mp hk).2.2.2
    rw [hn]
    dsimp only
    rw [SortedMap.get?_insert]
    simp [isOk]

theorem openCategories_available
    {l : List CategoryLiquidityFact} (hnd : (l.map (·.cashBucketId)).Nodup) (s : Envelopes)
    {c : CategoryLiquidityFact} (hc : c ∈ l) :
    (l.foldl (openCategory input facts now) s).available.get? c.cashBucketId =
      if isOk (categoryUnits input facts now c) then some c.availability.minorUnits
      else s.available.get? c.cashBucketId := by
  have hothers : ∀ (l : List CategoryLiquidityFact) (s : Envelopes) (bucket : String),
      bucket ∉ l.map (·.cashBucketId) →
        (l.foldl (openCategory input facts now) s).available.get? bucket =
          s.available.get? bucket := by
    intro l
    induction l with
    | nil => exact fun _ _ _ => rfl
    | cons d l ih =>
      intro s bucket hnot
      rw [map_cons, mem_cons, not_or] at hnot
      rw [foldl_cons, ih _ _ hnot.2, openCategory_available, if_neg fun h => hnot.1 h.1.symm]
  induction l generalizing s with
  | nil => exact absurd hc not_mem_nil
  | cons d l ih =>
    rw [map_cons, nodup_cons] at hnd
    rw [foldl_cons]
    rcases mem_cons.mp hc with rfl | hc
    · rw [hothers _ _ _ hnd.1, openCategory_available]
      simp
    · have hne : d.cashBucketId ≠ c.cashBucketId := fun heq =>
        hnd.1 (heq ▸ mem_map_of_mem hc)
      have hstep := openCategory_available input facts now s d c.cashBucketId
      rw [if_neg fun h => hne h.1] at hstep
      rw [ih hnd.2 _ hc, hstep]

theorem openCategories_outputs (input : LiquidityInput) (facts : LiquidityFacts) (now : Instant)
    (l : List CategoryLiquidityFact) {s : Envelopes}
    (hs : ∀ bucket out, s.outputs.get? bucket = some out → out.cashBucketId = bucket) :
    ∀ bucket out, (l.foldl (openCategory input facts now) s).outputs.get? bucket = some out →
      out.cashBucketId = bucket := by
  induction l generalizing s with
  | nil => exact hs
  | cons c l ih =>
    rw [foldl_cons]
    refine ih fun bucket out hout => ?_
    unfold openCategory at hout
    dsimp only at hout
    split at hout <;>
      (dsimp only at hout
       rw [SortedMap.get?_insert] at hout
       split at hout
       · rename_i hbucket
         cases hout
         exact hbucket
       · exact hs bucket out hout)

theorem values_buckets (hkeyed : Keyed categories) : (categories.values.map (·.cashBucketId)).Nodup := by
  have hkeys : categories.values.map (·.cashBucketId) = categories.keys := by
    unfold SortedMap.values SortedMap.keys
    rw [map_map]
    exact map_congr_left fun e he => hkeyed e.1 e.2 (SortedMap.mem_entries_iff.mp he)
  rw [hkeys]
  exact categories.nodup_keys

/-- What the engine shows of one category. -/
structure Shows (input : LiquidityInput) (facts : LiquidityFacts) (now : Instant) (held : Int)
    (result : AccountAwareSpendabilityResult) (c : CategoryLiquidityFact) : Prop where
  shown : ∃ capacity ∈ result.categories, capacity.cashBucketId = c.cashBucketId
  remaining : ∀ capacity ∈ result.categories, capacity.cashBucketId = c.cashBucketId →
    if isOk (categoryUnits input facts now c) then
      c.asOfMonth = facts.asOfMonth → ∃ x, capacity.remainingAvailability = some x ∧
        (x.minorUnits : Int) = c.availability.minorUnits - held
    else capacity.remainingAvailability = none

/-- **What a category shows** without a scenario: nothing if its evidence is invalid, else, in the
current month, its availability less its claims. -/
theorem checkedEvaluate_remaining
    {result : AccountAwareSpendabilityResult} (hfacts : input.facts = some facts)
    (hscenario : input.scenario = .none) (h : checkedEvaluate input = .ok result) :
    ∃ now, instant input.evaluatedAt = .ok now ∧
      (∀ b ∈ input.claimSet.bundles, active b now = .ok (isActive now b)) ∧
      (Consistent ((activeEffects input.claimSet.bundles now).filter holdsCategory) →
        ∀ c ∈ facts.categories, Shows input facts now (heldWhere (fun _ => true)
          ((activeEffects input.claimSet.bundles now).filter holdsCategory) c.categoryId)
          result c) := by
  obtain ⟨o, hopen, h⟩ := bind_ok.mp h
  obtain ⟨s, hs, h⟩ := bind_ok.mp h
  unfold runScenario at hs
  rw [hscenario] at hs
  cases hs
  obtain ⟨after, -, h⟩ := bind_ok.mp h
  cases h
  obtain ⟨clock, hclock, hopen⟩ := bind_ok.mp hopen
  obtain ⟨found, hfound, hopen⟩ := bind_ok.mp hopen
  obtain ⟨hsame, hd⟩ := checkIdentities_ok hfound
  obtain rfl := Option.some.inj (hfacts.symm.trans hsame)
  obtain ⟨expires, -, hopen⟩ := bind_ok.mp hopen
  obtain ⟨claimed, hclaimed, hopen⟩ := bind_ok.mp hopen
  obtain ⟨before, -, hopen⟩ := bind_ok.mp hopen
  cases hopen
  have hnow : instant input.evaluatedAt = .ok clock.now := by
    obtain ⟨now, hnow, hclock⟩ := bind_ok.mp hclock
    obtain ⟨start, -, hclock⟩ := bind_ok.mp hclock
    obtain ⟨ends, -, hclock⟩ := bind_ok.mp hclock
    obtain ⟨-, hclock⟩ := rest_ok hclock
    cases hclock
    exact hnow
  obtain ⟨hactive, hcounted⟩ := claimBundles_effects hclaimed
  refine ⟨clock.now, hnow, hactive, fun hconsistent c hc => ?_⟩
  have hkeyed := categoryMap_keyed facts
  have hvalue : c ∈ (categoryMap facts).values :=
    SortedMap.mem_values_iff.mpr ⟨_, (categoryMap_get? hd c.cashBucketId c).mpr ⟨hc, rfl⟩⟩
  obtain ⟨out, hout, -⟩ := openCategories_hasOutput input facts hkeyed clock.now hvalue
  have hrun := claimedBy_run hd hfacts rfl hconsistent hcounted
  have hstart : (openCategories input facts (categoryMap facts) clock.now).available.get?
      c.cashBucketId = if isOk (categoryUnits input facts clock.now c) then
        some c.availability.minorUnits else none :=
    openCategories_available (values_buckets hkeyed) _ hvalue
  have hkeys : ∀ bucket out, (openCategories input facts (categoryMap facts)
      clock.now).outputs.get? bucket = some out → out.cashBucketId = bucket :=
    openCategories_outputs input facts clock.now _ fun bucket out h => by
      rw [SortedMap.get?_empty] at h
      cases h
  have hshown : out.cashBucketId = c.cashBucketId := hkeys _ _ hout
  refine ⟨⟨_, mem_map.mpr ⟨_, SortedMap.mem_entries_iff.mpr hout, rfl⟩, hshown⟩, ?_⟩
  · intro capacity hcapacity hbucket
    obtain ⟨⟨bucket, shown⟩, hentry, rfl⟩ := mem_map.mp hcapacity
    have hkey := hkeys _ _ (SortedMap.mem_entries_iff.mp hentry)
    change shown.cashBucketId = c.cashBucketId at hbucket
    obtain rfl : bucket = c.cashBucketId := hkey.symm.trans hbucket
    split
    · rename_i hok
      intro hmonth
      rw [if_pos hok] at hstart
      obtain ⟨n, hn, hleft⟩ := hrun.left c hc hmonth _ hstart
      refine ⟨m n shown.authoritativeAvailability.currency, ?_, hleft⟩
      change (claimed.available.get? _).map _ = _
      rw [hn]
      rfl
    · rename_i hok
      rw [if_neg hok] at hstart
      change (claimed.available.get? _).map _ = _
      rw [hrun.absent _ hstart]
      rfl

end BalanceFrame.Decision
