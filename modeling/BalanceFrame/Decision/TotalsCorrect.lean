import BalanceFrame.Decision.Totals
import BalanceFrame.Library.Lists

/-!
# What the category totals are

The totals of `category_totals` in terms of the request alone. `dueObligations` are the obligations
that count and `heldEffects` the category effects of the active claims; each economic identity
counts once, where it is met first.
-/

namespace BalanceFrame.Decision

open Library Liquidity List Option

variable {facts : LiquidityFacts} {start totals : Totals} {kind : TotalKind} {month : String}
  {s s' : Committing}

/-- The obligations that count. -/
def dueObligations (r : DecisionCardRequest) (facts : LiquidityFacts) : List CashObligation :=
  ((accountObligations facts).map (·.2)).filter (obligationCounts r)

/-- The effect holds category money that no balance shows yet. -/
def holdsCategory (e : LiquidityClaimEffect) : Bool := e.kind == .category && !e.includedInBalance

/-- The category effects of the active claims. -/
def heldEffects (r : DecisionCardRequest) : List LiquidityClaimEffect :=
  (claimedEffects r).filter holdsCategory

/-- The amounts of obligations in a category, each identity once. -/
def obligedIn (l : List CashObligation) (categoryId : String) : Int :=
  (((firsts (·.economicObligationId) l).filter fun o => o.categoryId == some categoryId).map
    fun o => (o.amount.minorUnits : Int)).sum

/-- The amounts of effects that satisfy `P` in a category, each identity once. -/
def heldWhere (P : LiquidityClaimEffect → Bool) (l : List LiquidityClaimEffect)
    (categoryId : String) : Int :=
  (((firsts (·.economicObligationId) l).filter fun e => e.resourceId == categoryId && P e).map
    fun e => (e.amount.minorUnits : Int)).sum

/-- The effect mirrors a due obligation. -/
def mirrors (r : DecisionCardRequest) (facts : LiquidityFacts) (e : LiquidityClaimEffect) : Bool :=
  match e.matchedObligationId with
  | .ok id => (dueObligations r facts).any (·.economicObligationId == id)
  | .error _ => false

/-- What the due obligations of a category come to. -/
def committedTo (r : DecisionCardRequest) (facts : LiquidityFacts) (categoryId : String) : Int :=
  obligedIn (dueObligations r facts) categoryId

/-- What the claims hold of a category. -/
def heldIn (r : DecisionCardRequest) (categoryId : String) : Int :=
  heldWhere (fun _ => true) (heldEffects r) categoryId

/-- What the claims that mirror due obligations hold of a category. -/
def mirroredIn (r : DecisionCardRequest) (facts : LiquidityFacts) (categoryId : String) : Int :=
  heldWhere (mirrors r facts) (heldEffects r) categoryId

/-- What the other claims hold of a category. -/
def reservedIn (r : DecisionCardRequest) (facts : LiquidityFacts) (categoryId : String) : Int :=
  heldWhere (fun e => !mirrors r facts e) (heldEffects r) categoryId

theorem sum_filter_split {α : Type} (P Q : α → Bool) (f : α → Int) (l : List α) :
    ((l.filter fun a => P a && true).map f).sum =
      ((l.filter fun a => P a && Q a).map f).sum + ((l.filter fun a => P a && !Q a).map f).sum := by
  induction l with
  | nil => rfl
  | cons a l ih =>
    simp only [filter_cons]
    cases P a <;> cases Q a <;> simp only [Bool.and_true, Bool.and_false, Bool.not_true,
      Bool.not_false, Bool.false_eq_true, if_true, if_false, map_cons,
      sum_cons] at ih ⊢ <;> omega

theorem heldIn_eq (r : DecisionCardRequest) (facts : LiquidityFacts) (categoryId : String) :
    heldIn r categoryId = mirroredIn r facts categoryId + reservedIn r facts categoryId :=
  sum_filter_split (fun e : LiquidityClaimEffect => e.resourceId == categoryId) (mirrors r facts) _ _

/-! ## Adding to the totals -/

/-- The totals with one of them changed. -/
def CategoryTotals.set (t : CategoryTotals) (kind : TotalKind) (n : I64) : CategoryTotals :=
  match kind with
  | .availability => { t with availability := n }
  | .reservations => { t with reservations := n }
  | .commitments => { t with commitments := n }

/-- One of the totals. -/
def CategoryTotals.get (t : CategoryTotals) : TotalKind → I64
  | .availability => t.availability
  | .reservations => t.reservations
  | .commitments => t.commitments

theorem addTotals_ok {totals' : Totals} {key : CategoryKey} {amount : I64}
    (h : addTotals totals key amount kind = .ok totals') :
    ∃ n : I64, (n : Int) = ((totals.get? key).getD ⟨0, 0, 0⟩).get kind + amount ∧
      totals' = totals.insert key (((totals.get? key).getD ⟨0, 0, 0⟩).set kind n) := by
  unfold addTotals at h
  cases kind <;>
    (obtain ⟨n, hn, h⟩ := bind_ok.mp h
     cases h
     exact ⟨n, add_eq_ok.mp hn, rfl⟩)

@[simp] theorem CategoryTotals.get_set (t : CategoryTotals) (kind : TotalKind) (n : I64) :
    (t.set kind n).get kind = n := by
  cases kind <;> rfl

theorem CategoryTotals.get_set_of_ne (t : CategoryTotals) {other : TotalKind} (n : I64)
    (h : other ≠ kind) : (t.set kind n).get other = t.get other := by
  cases kind <;> cases other <;> first | rfl | exact absurd rfl h

/-- One of the totals of a month was raised by `f`, and the others stayed. -/
def Raised (kind : TotalKind) (month : String) (start totals : Totals) (f : String → Int) : Prop :=
  ∀ categoryId t, start.get? (toLex (categoryId, month)) = some t →
    ∃ t', totals.get? (toLex (categoryId, month)) = some t' ∧
      (∀ other, other ≠ kind → t'.get other = t.get other) ∧
      (t'.get kind : Int) = t.get kind + f categoryId

theorem Raised.refl (kind : TotalKind) (month : String) (start : Totals) :
    Raised kind month start start fun _ => 0 :=
  fun _ t ht => ⟨t, ht, fun _ _ => rfl, (Int.add_zero _).symm⟩

theorem Raised.congr
    {f g : String → Int} (h : Raised kind month start totals f) (hfg : ∀ c, g c = f c) :
    Raised kind month start totals g := by
  rwa [funext hfg]

theorem Raised.add {id : String} {totals' : Totals}
    {amount : I64} {f g : String → Int} (hs : Raised kind month start totals f)
    (h : addTotals totals (toLex (id, month)) amount kind = .ok totals')
    (hg : ∀ c, g c = f c + if id = c then (amount : Int) else 0) :
    Raised kind month start totals' g := by
  intro categoryId t ht
  obtain ⟨t', ht', hothers, hkind⟩ := hs categoryId t ht
  obtain ⟨n, hn, rfl⟩ := addTotals_ok h
  by_cases hid : id = categoryId
  · subst hid
    rw [ht', getD_some] at hn ⊢
    refine ⟨_, SortedMap.get?_insert_self _ _ _, fun other hne => ?_, ?_⟩
    · rw [CategoryTotals.get_set_of_ne _ _ hne, hothers other hne]
    · rw [CategoryTotals.get_set, hg, if_pos rfl, hn, hkind, Int.add_assoc]
  · have hne : toLex (id, month) ≠ toLex (categoryId, month) := fun heq =>
      hid (congrArg Prod.fst (toLex.injective heq))
    refine ⟨t', by rw [SortedMap.get?_insert_of_ne _ _ hne, ht'], hothers, ?_⟩
    rw [hg, if_neg hid, Int.add_zero, hkind]

/-! ## Availability -/

/-- The key of a category's totals. -/
def periodKey (c : CategoryLiquidityFact) : CategoryKey := toLex (c.categoryId, c.asOfMonth)

/-- The totals after some categories: what they have, and nothing else. -/
structure OpenedBy (done : List CategoryLiquidityFact) (s : Opening) : Prop where
  periods : ∀ k, k ∈ s.periods ↔ k ∈ done.map periodKey
  totals : ∀ c ∈ done, s.totals.get? (periodKey c) = some ⟨c.availability.minorUnits, 0, 0⟩
  fresh : ∀ k, k ∉ s.periods → s.totals.get? k = none

theorem OpenedBy.step {done : List CategoryLiquidityFact} {s s' : Opening}
    {c : CategoryLiquidityFact} (hs : OpenedBy done s) (h : openTotals facts s c = .ok s') :
    OpenedBy (done ++ [c]) s' := by
  obtain ⟨factMonth, -, h⟩ := bind_ok.mp h
  obtain ⟨_, hids, h⟩ := bind_ok.mp h
  obtain ⟨-, h⟩ := rest_ok h
  obtain ⟨-, h⟩ := rest_ok h
  obtain ⟨snapshotMonth, -, h⟩ := bind_ok.mp h
  obtain ⟨-, h⟩ := rest_ok h
  obtain ⟨totals, htotals, h⟩ := bind_ok.mp h
  cases h
  have hnew : periodKey c ∉ s.periods := by
    simp only [reject_ok, Bool.or_eq_false_iff, contains_eq_mem,
      decide_eq_false_iff_not] at hids
    exact hids.1.2
  obtain ⟨n, hn, rfl⟩ := addTotals_ok htotals
  change (n : Int) = ((s.totals.get? (periodKey c)).getD ⟨0, 0, 0⟩).get .availability + _ at hn
  change OpenedBy _ ⟨s.totals.insert (periodKey c)
    (((s.totals.get? (periodKey c)).getD ⟨0, 0, 0⟩).set .availability n), _, _, _⟩
  rw [hs.fresh _ hnew] at hn ⊢
  have havail : n = c.availability.minorUnits := I64.ext (by simpa [CategoryTotals.get] using hn)
  subst havail
  refine ⟨fun k => ?_, fun c' hc' => ?_, fun k hk => ?_⟩
  · rw [map_append, mem_append, ← hs.periods k, mem_cons, or_comm]
    simp [periodKey]
  · rcases mem_append.mp hc' with hc' | hc'
    · have hne : periodKey c ≠ periodKey c' := fun heq =>
        hnew (heq ▸ (hs.periods _).mpr (mem_map_of_mem hc'))
      rw [SortedMap.get?_insert_of_ne _ _ hne]
      exact hs.totals c' hc'
    · rw [mem_singleton.mp hc', SortedMap.get?_insert_self]
      rfl
  · obtain ⟨hne, hk⟩ := not_or.mp (mt mem_cons.mpr hk)
    have hne : periodKey c ≠ k := Ne.symm hne
    dsimp only
    rw [SortedMap.get?_insert_of_ne _ _ hne]
    exact hs.fresh k hk

/-! ## Commitments -/

theorem categoryFactForPeriod_some {categoryId : String}
    {c : CategoryLiquidityFact} (h : categoryFactForPeriod facts categoryId month = some c) :
    c ∈ facts.categories ∧ c.categoryId = categoryId ∧ c.asOfMonth = month := by
  have hp := find?_some h
  simp only [Bool.and_eq_true, beq_iff_eq] at hp
  exact ⟨mem_of_find?_eq_some h, hp⟩

theorem obligedIn_snoc (l : List CashObligation) (o : CashObligation) (categoryId : String) :
    obligedIn (l ++ [o]) categoryId = obligedIn l categoryId +
      if o.economicObligationId ∉ l.map (·.economicObligationId) ∧ o.categoryId = some categoryId
        then (o.amount.minorUnits : Int) else 0 := by
  unfold obligedIn
  simp only [firsts_snoc, mem_firsts_key]
  by_cases hmet : o.economicObligationId ∈ l.map (·.economicObligationId)
  · rw [if_pos hmet, if_neg fun h => h.1 hmet, Int.add_zero]
  · rw [if_neg hmet, sum_filter_append_singleton]
    simp [hmet]

/-- The totals after some obligations of a start: commitments, and nothing else, were added. -/
structure CommittedBy (month : String) (start : Totals) (done : List CashObligation)
    (s : Committing) : Prop where
  obligations : ∀ id, (s.obligations.get? id).isSome ↔ id ∈ done.map (·.economicObligationId)
  categories : ∀ o ∈ done, ∃ met, s.obligations.get? o.economicObligationId = some met ∧
    met.categoryId = o.categoryId
  counted : ∀ o ∈ done, ∀ categoryId, o.categoryId = some categoryId →
    (o.economicObligationId, toLex (categoryId, month)) ∈ s.counted
  known : ∀ id key, (id, key) ∈ s.counted → id ∈ done.map (·.economicObligationId)
  totals : Raised .commitments month start s.totals (obligedIn done)

theorem CommittedBy.record {done : List CashObligation} {id : String} {candidate : ObligationMeta}
    (hs : CommittedBy month start done s) (h : recordObligation s id candidate = .ok s') :
    s'.totals = s.totals ∧ s'.counted = s.counted ∧
      (∀ other, other ≠ id → s'.obligations.get? other = s.obligations.get? other) ∧
      (∃ met, s'.obligations.get? id = some met ∧ met.categoryId = candidate.categoryId) ∧
      ∀ o ∈ done, o.economicObligationId = id → o.categoryId = candidate.categoryId := by
  unfold recordObligation at h
  split at h
  · rename_i previous hprevious
    obtain ⟨_, hsame, h⟩ := bind_ok.mp h
    cases h
    obtain rfl : previous = candidate := by simpa using hsame
    refine ⟨rfl, rfl, fun _ _ => rfl, ⟨previous, hprevious, rfl⟩, fun o ho hid => ?_⟩
    obtain ⟨met, hmet, hcat⟩ := hs.categories o ho
    rw [hid, hprevious] at hmet
    cases hmet
    exact hcat.symm
  · rename_i hnone
    cases h
    refine ⟨rfl, rfl, fun other hne => SortedMap.get?_insert_of_ne _ _ (Ne.symm hne),
      ⟨candidate, SortedMap.get?_insert_self _ _ _, rfl⟩, fun o ho hid => ?_⟩
    obtain ⟨met, hmet, -⟩ := hs.categories o ho
    rw [hid, hnone] at hmet
    cases hmet

theorem commitCategory_ok {o : CashObligation}
    {categoryId : String} (h : commitCategory facts s o categoryId = .ok s') :
    s'.obligations = s.obligations ∧
      ((o.economicObligationId, toLex (categoryId, facts.asOfMonth)) ∈ s.counted ∧ s' = s ∨
        (o.economicObligationId, toLex (categoryId, facts.asOfMonth)) ∉ s.counted ∧
        s'.counted = (o.economicObligationId, toLex (categoryId, facts.asOfMonth)) :: s.counted ∧
        addTotals s.totals (toLex (categoryId, facts.asOfMonth)) o.amount.minorUnits .commitments =
          .ok s'.totals) := by
  obtain ⟨category, hcategory, h⟩ := bind_ok.mp h
  obtain ⟨-, h⟩ := rest_ok h
  obtain ⟨-, -, hmonth⟩ := categoryFactForPeriod_some (orStop_ok.mp hcategory)
  rw [hmonth] at h
  dsimp only at h
  split at h
  · rename_i hmet
    cases h
    exact ⟨rfl, .inl ⟨by simpa using hmet, rfl⟩⟩
  · rename_i hmet
    obtain ⟨totals, htotals, h⟩ := bind_ok.mp h
    cases h
    exact ⟨rfl, .inr ⟨by simpa using hmet, rfl, htotals⟩⟩

theorem CommittedBy.step {r : DecisionCardRequest}
    {done : List CashObligation} {entry : String × CashObligation}
    (hs : CommittedBy facts.asOfMonth start done s)
    (h : commitObligation r facts s entry = .ok s') :
    CommittedBy facts.asOfMonth start
      (done ++ if obligationCounts r entry.2 then [entry.2] else []) s' := by
  obtain ⟨accountId, o⟩ := entry
  unfold commitObligation at h
  dsimp only at h ⊢
  by_cases hcounts : obligationCounts r o = true
  · rw [if_neg (by simp [hcounts])] at h
    rw [if_pos hcounts]
    obtain ⟨-, h⟩ := rest_ok h
    obtain ⟨-, h⟩ := rest_ok h
    obtain ⟨s₁, hrecord, h⟩ := bind_ok.mp h
    obtain ⟨htotals, hcounted, hothers, hmet, hsame⟩ := hs.record hrecord
    dsimp only at hsame hmet
    have hstored : s'.obligations = s₁.obligations := by
      cases hcat : o.categoryId with
      | none =>
        rw [hcat] at h
        cases h
        rfl
      | some categoryId =>
        rw [hcat] at h
        exact (commitCategory_ok h).1
    have hobligations : ∀ id, (s'.obligations.get? id).isSome ↔
        id ∈ (done ++ [o]).map (·.economicObligationId) := by
      intro id
      rw [hstored, map_append, mem_append, map_singleton, mem_singleton]
      by_cases hid : id = o.economicObligationId
      · obtain ⟨met, hget, -⟩ := hmet
        rw [hid, hget]
        simp
      · rw [hothers id hid, hs.obligations id]
        simp [hid]
    have hcategories : ∀ o' ∈ done ++ [o], ∃ met,
        s'.obligations.get? o'.economicObligationId = some met ∧ met.categoryId = o'.categoryId := by
      intro o' ho'
      rw [hstored]
      by_cases hid : o'.economicObligationId = o.economicObligationId
      · obtain ⟨met, hget, hmetcat⟩ := hmet
        refine ⟨met, by rw [hid, hget], ?_⟩
        rcases mem_append.mp ho' with ho' | ho'
        · rw [hmetcat, hsame o' ho' hid]
        · rw [hmetcat, mem_singleton.mp ho']
      · rw [hothers _ hid]
        rcases mem_append.mp ho' with ho' | ho'
        · exact hs.categories o' ho'
        · exact absurd (by rw [mem_singleton.mp ho']) hid
    cases hcat : o.categoryId with
    | none =>
      rw [hcat] at h
      cases h
      refine ⟨hobligations, hcategories, fun o' ho' categoryId hcat' => ?_, fun id key hk => ?_, ?_⟩
      · rw [hcounted]
        rcases mem_append.mp ho' with ho' | ho'
        · exact hs.counted o' ho' categoryId hcat'
        · rw [mem_singleton.mp ho', hcat] at hcat'
          cases hcat'
      · rw [hcounted] at hk
        rw [map_append]
        exact mem_append_left _ (hs.known id key hk)
      · rw [htotals]
        refine hs.totals.congr fun categoryId => ?_
        rw [obligedIn_snoc, if_neg (by simp [hcat]), Int.add_zero]
    | some categoryId =>
      rw [hcat] at h
      obtain ⟨-, hadded⟩ := commitCategory_ok h
      rw [hcounted, htotals] at hadded
      have hlast : ∀ o' ∈ [o], ∀ c, o'.categoryId = some c → o' = o ∧ c = categoryId := by
        intro o' ho' c hc
        obtain rfl := mem_singleton.mp ho'
        exact ⟨rfl, some.inj (hc.symm.trans hcat)⟩
      rcases hadded with ⟨hbefore, rfl⟩ | ⟨hnew, hcounted', hadd⟩
      · have hmetbefore := hs.known _ _ hbefore
        refine ⟨hobligations, hcategories, fun o' ho' c hc => ?_, fun id key hk => ?_, ?_⟩
        · rw [hcounted]
          rcases mem_append.mp ho' with ho' | ho'
          · exact hs.counted o' ho' c hc
          · obtain ⟨rfl, rfl⟩ := hlast o' ho' c hc
            exact hbefore
        · rw [hcounted] at hk
          rw [map_append]
          exact mem_append_left _ (hs.known id key hk)
        · rw [htotals]
          refine hs.totals.congr fun c => ?_
          rw [obligedIn_snoc, if_neg fun h => h.1 hmetbefore, Int.add_zero]
      · -- an identity met before was committed then, to the same category
        have hfirst : o.economicObligationId ∉ done.map (·.economicObligationId) := by
          intro hmem
          obtain ⟨o', ho', hid⟩ := mem_map.mp hmem
          have hcat' := (hsame o' ho' hid).trans hcat
          exact hnew (hid ▸ hs.counted o' ho' categoryId hcat')
        refine ⟨hobligations, hcategories, fun o' ho' c hc => ?_, fun id key hk => ?_, ?_⟩
        · rw [hcounted']
          rcases mem_append.mp ho' with ho' | ho'
          · exact mem_cons_of_mem _ (hs.counted o' ho' c hc)
          · obtain ⟨rfl, rfl⟩ := hlast o' ho' c hc
            exact mem_cons_self
        · rw [hcounted'] at hk
          rw [map_append, mem_append]
          rcases mem_cons.mp hk with heq | hk
          · right
            simp [(Prod.mk.inj heq).1]
          · exact Or.inl (hs.known id key hk)
        · refine hs.totals.add hadd fun c => ?_
          rw [obligedIn_snoc, hcat]
          simp [hfirst]
  · rw [if_pos (by simp [hcounts])] at h
    rw [if_neg hcounts, append_nil]
    cases h
    exact hs

/-! ## Reservations -/

theorem heldWhere_snoc (P : LiquidityClaimEffect → Bool) (l : List LiquidityClaimEffect)
    (e : LiquidityClaimEffect) (categoryId : String) :
    heldWhere P (l ++ [e]) categoryId = heldWhere P l categoryId +
      if e.economicObligationId ∉ l.map (·.economicObligationId) ∧ e.resourceId = categoryId ∧
        P e = true then (e.amount.minorUnits : Int) else 0 := by
  unfold heldWhere
  simp only [firsts_snoc, mem_firsts_key]
  by_cases hmet : e.economicObligationId ∈ l.map (·.economicObligationId)
  · rw [if_pos hmet, if_neg fun h => h.1 hmet, Int.add_zero]
  · rw [if_neg hmet, sum_filter_append_singleton]
    simp [hmet]

/-- What a category claim is recorded with. -/
def claimMeta (month : String) (e : LiquidityClaimEffect) : ClaimMeta where
  key := toLex (e.resourceId, month)
  amount := e.amount.minorUnits
  currency := e.amount.currency

/-- The totals after some claims of a start: reservations, and nothing else, were added. -/
structure ReservedBy (month : String) (mirror : LiquidityClaimEffect → Bool) (start : Totals)
    (done : List LiquidityClaimEffect) (s : Reserving) : Prop where
  claims : ∀ e ∈ done, s.claims.get? e.economicObligationId = some (claimMeta month e)
  fresh : ∀ id, id ∉ done.map (·.economicObligationId) → s.claims.get? id = none
  totals : Raised .reservations month start s.totals (heldWhere (fun e => !mirror e) done)

theorem claimReservation_ok {obligations : SortedMap String ObligationMeta}
    {s s' : Reserving} {e : LiquidityClaimEffect} (hholds : holdsCategory e = true)
    (h : claimReservation facts obligations s e = .ok s') :
    ∃ matched, e.matchedObligationId = .ok matched ∧
      (s.claims.get? e.economicObligationId = some (claimMeta facts.asOfMonth e) ∧ s' = s ∨
        s.claims.get? e.economicObligationId = none ∧
        reserve obligations s e matched (claimMeta facts.asOfMonth e) = .ok s') := by
  unfold claimReservation at h
  rw [if_neg (by simpa [holdsCategory] using hholds)] at h
  obtain ⟨_, hcategoryId, h⟩ := bind_ok.mp h
  obtain ⟨-, h⟩ := rest_ok h
  obtain ⟨category, hcategory, h⟩ := bind_ok.mp h
  obtain ⟨-, h⟩ := rest_ok h
  obtain ⟨-, h⟩ := rest_ok h
  obtain ⟨matched, hmatched, h⟩ := bind_ok.mp h
  have hresource : e.categoryId.getD e.resourceId = e.resourceId := by
    cases hcat : e.categoryId with
    | none => rfl
    | some categoryId => simpa [hcat] using hcategoryId
  obtain ⟨-, -, hmonth⟩ := categoryFactForPeriod_some (orStop_ok.mp hcategory)
  rw [hresource, hmonth] at h
  refine ⟨matched, hmatched, ?_⟩
  dsimp only at h
  split at h
  · rename_i old hold
    obtain ⟨_, hsame, h⟩ := bind_ok.mp h
    cases h
    have hold' : old = claimMeta facts.asOfMonth e := by simpa [claimMeta] using hsame
    exact .inl ⟨hold' ▸ hold, rfl⟩
  · rename_i hnone
    exact .inr ⟨hnone, h⟩

theorem ReservedBy.step {obligations : SortedMap String ObligationMeta}
    {mirror : LiquidityClaimEffect → Bool} {done : List LiquidityClaimEffect}
    {s s' : Reserving} {e : LiquidityClaimEffect}
    (hmirror : ∀ matched, e.matchedObligationId = .ok matched →
      mirror e = (obligations.get? matched).isSome)
    (hs : ReservedBy facts.asOfMonth mirror start done s)
    (h : claimReservation facts obligations s e = .ok s') :
    ReservedBy facts.asOfMonth mirror start
      (done ++ if holdsCategory e then [e] else []) s' := by
  by_cases hholds : holdsCategory e = true
  · rw [if_pos hholds]
    obtain ⟨matched, hmatched, ⟨hmet, rfl⟩ | ⟨hnone, h⟩⟩ := claimReservation_ok hholds h
    · have hkeys : e.economicObligationId ∈ done.map (·.economicObligationId) := by
        by_contra hnot
        rw [hs.fresh _ hnot] at hmet
        cases hmet
      refine ⟨fun e' he' => ?_, fun id hid => hs.fresh id fun hmem => hid ?_,
        hs.totals.congr fun c => ?_⟩
      · rcases mem_append.mp he' with he' | he'
        · exact hs.claims e' he'
        · rwa [mem_singleton.mp he']
      · rw [map_append]
        exact mem_append_left _ hmem
      · rw [heldWhere_snoc, if_neg fun h => h.1 hkeys, Int.add_zero]
    · have hfirst : e.economicObligationId ∉ done.map (·.economicObligationId) := by
        intro hmem
        obtain ⟨e', he', hid⟩ := mem_map.mp hmem
        rw [← hid, hs.claims e' he'] at hnone
        cases hnone
      have hclaims : s'.claims =
          s.claims.insert e.economicObligationId (claimMeta facts.asOfMonth e) ∧
          Raised .reservations facts.asOfMonth start s'.totals
            (heldWhere (fun e => !mirror e) (done ++ [e])) := by
        unfold reserve at h
        dsimp only at h
        split at h
        · rename_i obligation hobligation
          obtain ⟨-, h⟩ := rest_ok h
          cases h
          refine ⟨rfl, hs.totals.congr fun c => ?_⟩
          rw [heldWhere_snoc, hmirror matched hmatched, hobligation]
          simp
        · rename_i hobligation
          obtain ⟨totals, htotals, h⟩ := bind_ok.mp h
          cases h
          refine ⟨rfl, hs.totals.add htotals fun c => ?_⟩
          rw [heldWhere_snoc, hmirror matched hmatched, hobligation]
          simp [hfirst, claimMeta]
      obtain ⟨hstored, htotals⟩ := hclaims
      refine ⟨fun e' he' => ?_, fun id hid => ?_, htotals⟩
      · rw [hstored]
        rcases mem_append.mp he' with he' | he'
        · have hne : e.economicObligationId ≠ e'.economicObligationId := fun heq =>
            hfirst (heq ▸ mem_map_of_mem he')
          rw [SortedMap.get?_insert_of_ne _ _ hne]
          exact hs.claims e' he'
        · rw [mem_singleton.mp he', SortedMap.get?_insert_self]
      · rw [map_append, mem_append, not_or] at hid
        have hne : e.economicObligationId ≠ id := fun heq => hid.2 (by simp [heq])
        rw [hstored, SortedMap.get?_insert_of_ne _ _ hne]
        exact hs.fresh id hid.1
  · rw [if_neg hholds, append_nil]
    unfold claimReservation at h
    rw [if_pos (by simpa [holdsCategory, imp_iff_not_or] using hholds)] at h
    cases h
    exact hs

/-! ## The totals of a request -/

theorem filter_snoc {α : Type} (P : α → Bool) (l : List α) (a : α) :
    (l ++ [a]).filter P = l.filter P ++ if P a then [a] else [] := by
  rw [filter_append, filter_singleton]
  cases P a <;> rfl

/-- Claims of one identity agree on the category and the amount. -/
def Consistent (l : List LiquidityClaimEffect) : Prop :=
  ∀ e ∈ l, ∀ e' ∈ l, e.economicObligationId = e'.economicObligationId →
    e.resourceId = e'.resourceId ∧ e.amount = e'.amount

/-- **The totals of a current category**: its availability, its due obligations, and what its
claims hold beyond the obligations they mirror. No identity counts twice. -/
theorem categoryTotals_spec {r : DecisionCardRequest} (h : categoryTotals r = .ok totals) :
    ∃ facts, r.financialSnapshot.liquidity = some facts ∧ Consistent (heldEffects r) ∧
      ∀ c ∈ facts.categories, c.asOfMonth = facts.asOfMonth →
        ∃ t, totals.get? (periodKey c) = some t ∧ t.availability = c.availability.minorUnits ∧
          (t.reservations : Int) = reservedIn r facts c.categoryId ∧
          (t.commitments : Int) = committedTo r facts c.categoryId := by
  obtain ⟨facts, hfacts, h⟩ := bind_ok.mp h
  obtain ⟨-, h⟩ := rest_ok h
  obtain ⟨opened, hopened, h⟩ := bind_ok.mp h
  obtain ⟨committed, hcommitted, h⟩ := bind_ok.mp h
  obtain ⟨reserved, hreserved, h⟩ := bind_ok.mp h
  cases h
  have hopen : OpenedBy facts.categories opened :=
    foldlM_run (P := OpenedBy) (fun done s s' c hs => hs.step)
      ⟨by simp, by simp, fun k _ => rfl⟩ hopened
  have hcommit : CommittedBy facts.asOfMonth opened.totals (dueObligations r facts) committed := by
    refine foldlM_run (P := fun done s => CommittedBy facts.asOfMonth opened.totals
      ((done.map (·.2)).filter (obligationCounts r)) s) (fun done s s' entry hs hstep => ?_) ?_
      hcommitted
    · rw [map_append, map_singleton, filter_snoc]
      exact hs.step hstep
    · exact ⟨by simp, by simp, by simp, by simp, (Raised.refl _ _ _).congr fun c => rfl⟩
  have hmirror : ∀ e : LiquidityClaimEffect, ∀ matched, e.matchedObligationId = .ok matched →
      mirrors r facts e = (committed.obligations.get? matched).isSome := by
    intro e matched hmatched
    rw [Bool.eq_iff_iff, hcommit.obligations matched, mirrors, hmatched]
    simp
  have hreserve : ReservedBy facts.asOfMonth (mirrors r facts) committed.totals (heldEffects r)
      reserved := by
    refine foldlM_run (P := fun done s => ReservedBy facts.asOfMonth (mirrors r facts)
      committed.totals (done.filter holdsCategory) s) (fun done s s' e hs hstep => ?_) ?_ hreserved
    · rw [filter_snoc]
      exact hs.step (hmirror e) hstep
    · exact ⟨by simp, fun id _ => rfl, (Raised.refl _ _ _).congr fun c => rfl⟩
  refine ⟨facts, orStop_ok.mp hfacts, fun e he e' he' hid => ?_, fun c hc hmonth => ?_⟩
  · have heq := (hreserve.claims e he).symm.trans (hid ▸ hreserve.claims e' he')
    have hmeta := some.inj heq
    simp only [claimMeta, ClaimMeta.mk.injEq] at hmeta
    refine ⟨congrArg Prod.fst (toLex.injective hmeta.1), ?_⟩
    cases hamount : e.amount
    cases hamount' : e'.amount
    simp_all
  · have hkey : periodKey c = toLex (c.categoryId, facts.asOfMonth) := by rw [periodKey, hmonth]
    have hstart := hopen.totals c hc
    rw [hkey] at hstart
    obtain ⟨t, ht, hothers, hcom⟩ := hcommit.totals c.categoryId _ hstart
    obtain ⟨t', ht', hothers', hres⟩ := hreserve.totals c.categoryId t ht
    refine ⟨t', by rw [hkey, ht'], ?_, ?_, ?_⟩
    · exact (hothers' .availability nofun).trans (hothers .availability nofun)
    · have hzero : t.reservations = 0 := hothers .reservations nofun
      change (t'.reservations : Int) = t.reservations + _ at hres
      rw [hres, hzero, I64.coe_zero, Int.zero_add]
      rfl
    · have hsame : t'.commitments = t.commitments := hothers' .commitments nofun
      change (t.commitments : Int) = ((0 : I64) : Int) + _ at hcom
      rw [hsame, hcom, I64.coe_zero, Int.zero_add]
      rfl

end BalanceFrame.Decision
