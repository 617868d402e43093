import BalanceFrame.Liquidity.Charges

/-!
# One hold more

What a claim on an account takes from its safe spending capacity. Two preparations run side by
side, without and with one bundle more, whose only effect debits the account and whose identities
nothing else has. Other accounts are prepared alike (`prepareAccount_apart`). In the account itself
the hold is one reserve more, and every later claim leaves it alone (`applyBundles_beside`); the
reserve loop ends with the head lower by the hold (`applyReserves_shift`). A card's head is then
replaced by its authorization, which claims do not lower.
-/

namespace BalanceFrame.Liquidity

open Library List Option

variable {id : String} {s : Cash × Reserves} {reserves : Reserves} {t : Cash × Amounts}
  {x : Reserve} {n : Int}

/-! ## Maps with one entry more -/

section Maps

variable {κ ν : Type} [LinearOrder κ]

theorem insertList_splits {k : κ} {v : ν} {l : List (κ × ν)} (h : lookupList l k = none) :
    ∃ l₁ l₂, l = l₁ ++ l₂ ∧ insertList k v l = l₁ ++ (k, v) :: l₂ := by
  induction l with
  | nil => exact ⟨[], [], rfl, rfl⟩
  | cons e l ih =>
    obtain ⟨j, w⟩ := e
    have hne : j ≠ k := by
      rintro rfl
      simp [lookupList] at h
    simp only [lookupList, if_neg hne] at h
    by_cases hlt : k < j
    · exact ⟨[], (j, w) :: l, rfl, by simp [insertList, hlt]⟩
    · obtain ⟨l₁, l₂, hl, hinsert⟩ := ih h
      refine ⟨(j, w) :: l₁, l₂, by rw [hl, cons_append], ?_⟩
      unfold insertList
      rw [if_neg hlt, if_neg hne.symm, hinsert, cons_append]

theorem values_insert_new {m : SortedMap κ ν} {k : κ} (v : ν) (h : m.get? k = none) :
    ∃ l₁ l₂, m.values = l₁ ++ l₂ ∧ (m.insert k v).values = l₁ ++ v :: l₂ := by
  obtain ⟨l₁, l₂, hl, hinsert⟩ := insertList_splits (v := v) h
  refine ⟨l₁.map (·.2), l₂.map (·.2), ?_, ?_⟩
  · unfold SortedMap.values
    rw [hl, map_append]
  · change (insertList k v m.entries).map Prod.snd = _
    rw [hinsert, map_append, map_cons]

theorem insert_swap (m : SortedMap κ ν) {j k : κ} (v w : ν) (h : j ≠ k) :
    (m.insert j v).insert k w = (m.insert k w).insert j v := by
  refine SortedMap.ext_get? fun q => ?_
  simp only [SortedMap.get?_insert]
  by_cases hk : k = q
  · rw [if_pos hk, if_neg (fun hj => h (hj.trans hk.symm)), if_pos hk]
  · rw [if_neg hk, if_neg hk]

end Maps

/-! ## The hold -/

/-- The identities of an effect: its own and its source. -/
def LiquidityClaimEffect.identities (e : LiquidityClaimEffect) : List String :=
  e.economicObligationId :: e.sourceEconomicObligationId.toList

theorem matched_mem_identities {e : LiquidityClaimEffect}
    (h : e.matchedObligationId = .ok id) : id ∈ e.identities := by
  rw [(matchedObligationId_ok h).1]
  unfold LiquidityClaimEffect.identities
  cases e.sourceEconomicObligationId <;> simp

/-- An active bundle with a single account debit `e`, not in the balance and without a category,
whose identities no flow or obligation of the account, no card and no other claim has. -/
structure AddedHold (input : LiquidityInput) (now : Instant) (b : LiquidityClaimBundle)
    (e : LiquidityClaimEffect) : Prop where
  effects : b.effects = [e]
  active : active b now = .ok true
  kind : e.kind = .accountDebit
  outside : e.includedInBalance = false
  category : e.categoryId = none
  id : ∀ other ∈ input.claimSet.bundles, other.id ≠ b.id
  flows : ∀ f ∈ input.facts.elim [] (·.accounts), f.accountId = e.resourceId →
    ∀ flow ∈ f.unsettledFlows, flow.economicObligationId ∉ e.identities ∧
      flow.linkedTo e.matchedTransactionIds = false
  obligations : ∀ f ∈ input.facts.elim [] (·.accounts), f.accountId = e.resourceId →
    ∀ o ∈ f.obligations, o.economicObligationId ∉ e.identities
  cards : ∀ card ∈ input.facts.elim [] (·.accounts), ∀ credit, card.credit = some credit →
    credit.economicObligationId ∉ e.identities
  claims : ∀ other ∈ input.claimSet.bundles, ∀ x ∈ other.effects, ∀ id ∈ x.identities,
    id ∉ e.identities

/-- The input with one bundle more. -/
def withBundle (input : LiquidityInput) (before after : List LiquidityClaimBundle)
    (b : LiquidityClaimBundle) : LiquidityInput :=
  { input with claimSet := { input.claimSet with bundles := before ++ b :: after } }

/-! ## Other accounts -/

section Apart

variable {input : LiquidityInput} {before after : List LiquidityClaimBundle}
  {b : LiquidityClaimBundle} {e : LiquidityClaimEffect} {now : Instant}
  {f : AccountLiquidityFact} {p : AccountLiquidityPolicy}

theorem bind_congr_ok {ε α β : Type} {x : Except ε α} {f g : α → Except ε β}
    (h : ∀ a, x = .ok a → f a = g a) : (x >>= f) = x >>= g := by
  cases x with
  | error e => rfl
  | ok a => exact h a rfl

theorem applyBundle_apart {economic : Economic} (he : b.effects = [e])
    (hactive : active b now = .ok true) (hs : s.1.fact.accountId ≠ e.resourceId) :
    applyBundle economic now s b = .ok s := by
  have heffect : applyEffect economic b.id s e = .ok s := by
    unfold applyEffect
    rw [if_pos (by simpa using .inl hs.symm)]
    rfl
  unfold applyBundle
  rw [hactive, stopAt_ok, ok_bind, if_pos rfl, he]
  exact foldlM_cons_ok.mpr ⟨s, heffect, rfl⟩

theorem applyBundles_apart {economic : Economic} (he : b.effects = [e])
    (hactive : active b now = .ok true) (hs : s.1.Of f p) (hf : f.accountId ≠ e.resourceId) :
    (before ++ b :: after).foldlM (applyBundle economic now) s =
      (before ++ after).foldlM (applyBundle economic now) s := by
  rw [foldlM_append, foldlM_append]
  refine bind_congr_ok fun t ht => ?_
  have hkeeps : Keeps f p (fun s : Cash × Reserves => s.1)
      (before.foldlM (applyBundle economic now) s) :=
    Keeps.fold (fun _ _ => keeps_applyBundle) hs
  rw [ht] at hkeeps
  rw [foldlM_cons, applyBundle_apart he hactive (by rw [hkeeps.1]; exact hf), ok_bind]

theorem prepareAccount_apart {categories : Categories} {funded : Amounts}
    (hbundles : input.claimSet.bundles = before ++ after) (he : b.effects = [e])
    (hactive : active b now = .ok true) (hf : f.accountId ≠ e.resourceId) :
    prepareAccount f p (withBundle input before after b) categories now funded =
      prepareAccount f p input categories now funded := by
  have hopen : openAccount (withBundle input before after b) now (openingCash f p) =
      openAccount input now (openingCash f p) := by
    unfold openAccount
    refine bind_congr_ok fun _ _ => bind_congr_ok fun s hs => bind_congr_ok fun t ht => ?_
    have hopened := keeps_openBalance (f := f) (p := p) (a := openingCash f p) ⟨rfl, rfl⟩
    rw [hs] at hopened
    have hreserved : Keeps f p (fun s : Cash × Reserves => s.1)
        (openReserves input now s.2 s.1) := keeps_openReserves hopened
    have ht : openReserves input now s.2 s.1 = .ok t := ht
    rw [ht] at hreserved
    rw [hbundles]
    exact applyBundles_apart he hactive hreserved hf
  have hsteps : prepareSteps (withBundle input before after b) categories now funded
      (openingCash f p) = prepareSteps input categories now funded (openingCash f p) := by
    rw [prepareSteps_eq, prepareSteps_eq, hopen]
    rfl
  unfold prepareAccount
  dsimp only
  rw [hsteps]
  rfl

end Apart

/-! ## The account of the hold -/

section Beside

variable {economic : Economic} {now : Instant} {k : String} {r : Reserve}

theorem reserveEffect_beside {reserves' : Reserves} {matchedId bundleId : String}
    {x : LiquidityClaimEffect} {n : I64} (hmatched : k ≠ matchedId)
    (hown : k ≠ x.economicObligationId)
    (h : reserveEffect reserves matchedId x n bundleId = .ok reserves') :
    reserveEffect (reserves.insert k r) matchedId x n bundleId = .ok (reserves'.insert k r) := by
  unfold reserveEffect at h ⊢
  rw [SortedMap.get?_insert_of_ne _ _ hmatched, SortedMap.get?_insert_of_ne _ _ hown]
  split
  · rename_i old hold
    rw [hold] at h
    obtain ⟨u, hsame, h⟩ := bind_ok.mp h
    cases h
    exact bind_ok.mpr ⟨u, hsame, rfl⟩
  · rename_i hnone
    rw [hnone] at h
    cases h
    exact congrArg Except.ok (insert_swap _ _ _ hown)

theorem applyEffect_beside {bundleId : String} {t : Cash × Reserves} {x : LiquidityClaimEffect}
    (hk : k ∉ x.identities) (h : applyEffect economic bundleId s x = .ok t) :
    applyEffect economic bundleId (s.1, s.2.insert k r) x = .ok (t.1, t.2.insert k r) := by
  unfold applyEffect at h ⊢
  dsimp only
  split at h
  · rename_i hskip
    cases h
    rw [if_pos hskip]
    rfl
  · rename_i hconcerns
    rw [if_neg hconcerns]
    obtain ⟨n, hn, h⟩ := bind_ok.mp h
    obtain ⟨matchedId, hmatched, h⟩ := bind_ok.mp h
    obtain ⟨u, hsame, h⟩ := bind_ok.mp h
    refine bind_ok.mpr ⟨n, hn, bind_ok.mpr ⟨matchedId, hmatched, bind_ok.mpr ⟨u, hsame, ?_⟩⟩⟩
    have hid := matched_mem_identities (stopAt_eq_ok.mp hmatched)
    split
    · rename_i hdestination
      rw [if_pos hdestination] at h
      obtain ⟨a, ha, h⟩ := bind_ok.mp h
      cases h
      exact bind_ok.mpr ⟨a, ha, rfl⟩
    · rename_i hdebit
      rw [if_neg hdebit] at h
      obtain ⟨u', heconomic, h⟩ := bind_ok.mp h
      refine bind_ok.mpr ⟨u', heconomic, ?_⟩
      split
      · rename_i hcounted
        rw [if_pos hcounted] at h
        cases h
        rfl
      · rename_i hreserved
        rw [if_neg hreserved] at h
        obtain ⟨reserves, hreserves, h⟩ := bind_ok.mp h
        cases h
        have hmatchedk : k ≠ matchedId := fun heq => hk (heq ▸ hid)
        have hown : k ≠ x.economicObligationId :=
          fun heq => hk (heq ▸ mem_cons_self)
        exact bind_ok.mpr ⟨_, stopAt_eq_ok.mpr
          (reserveEffect_beside hmatchedk hown (stopAt_eq_ok.mp hreserves)), rfl⟩

theorem applyBundles_beside : ∀ {bundles : List LiquidityClaimBundle} {s t : Cash × Reserves},
    (∀ other ∈ bundles, ∀ x ∈ other.effects, k ∉ x.identities) →
      bundles.foldlM (applyBundle economic now) s = .ok t →
        bundles.foldlM (applyBundle economic now) (s.1, s.2.insert k r) =
          .ok (t.1, t.2.insert k r)
  | [], s, t, _, h => by
    cases h
    rfl
  | other :: bundles, s, t, hk, h => by
    obtain ⟨c, hc, h⟩ := foldlM_cons_ok.mp h
    refine foldlM_cons_ok.mpr ⟨(c.1, c.2.insert k r), ?_,
      applyBundles_beside (fun x hx => hk x (mem_cons_of_mem _ hx)) h⟩
    have heffects : ∀ {l : List LiquidityClaimEffect} {s t : Cash × Reserves},
        (∀ x ∈ l, k ∉ x.identities) → l.foldlM (applyEffect economic other.id) s = .ok t →
          l.foldlM (applyEffect economic other.id) (s.1, s.2.insert k r) =
            .ok (t.1, t.2.insert k r) := by
      intro l
      induction l with
      | nil =>
        intro s t _ h
        cases h
        rfl
      | cons x l ih =>
        intro s t hl h
        obtain ⟨d, hd, h⟩ := foldlM_cons_ok.mp h
        exact foldlM_cons_ok.mpr ⟨_, applyEffect_beside (hl x mem_cons_self) hd,
          ih (fun y hy => hl y (mem_cons_of_mem _ hy)) h⟩
    unfold applyBundle at hc ⊢
    obtain ⟨isActive, hactive, hc⟩ := bind_ok.mp hc
    refine bind_ok.mpr ⟨isActive, stopAt_eq_ok.mpr (stopAt_eq_ok.mp hactive), ?_⟩
    split
    · rename_i htrue
      rw [if_pos htrue] at hc
      exact heffects (hk other mem_cons_self) hc
    · rename_i hfalse
      rw [if_neg hfalse] at hc
      cases hc
      rfl

end Beside

/-! ## The reserve loop -/

section Loop

variable {input : LiquidityInput} {categories : Categories} {now : Instant}

/-- The same account with its head lower by `n`. -/
structure Shifted (n : Int) (s s' : Cash × Amounts) : Prop where
  used : s'.2 = s.2
  fact : s'.1.fact = s.1.fact
  head : (s'.1.head : Int) = s.1.head - n

theorem applyReserve_ok {s : Cash × Amounts} (h : applyReserve input categories now s x = .ok t) :
    ∃ covered, coverReserve input categories now s.1.fact.currency s.2 x = .ok (covered, t.2) ∧
      t.1.fact = s.1.fact ∧ (t.1.head : Int) = s.1.head - x.amount := by
  obtain ⟨⟨covered, used⟩, hcover, h⟩ := bind_ok.mp h
  obtain ⟨a, hfirst, h⟩ := bind_ok.mp h
  obtain ⟨rest, hrest, h⟩ := bind_ok.mp h
  obtain ⟨c, hsecond, h⟩ := bind_ok.mp h
  cases h
  obtain ⟨hfact, hhead, -⟩ := deduct_ok hfirst
  obtain ⟨hfact', hhead', -⟩ := deduct_ok hsecond
  have hrest := sub_eq_ok.mp (stopAt_eq_ok.mp hrest)
  refine ⟨covered, stopAt_eq_ok.mp hcover, hfact'.trans hfact, ?_⟩
  dsimp only
  omega

theorem Shifted.step {s s' t' : Cash × Amounts} (hs : Shifted n s s')
    (h : applyReserve input categories now s x = .ok t)
    (h' : applyReserve input categories now s' x = .ok t') : Shifted n t t' := by
  obtain ⟨covered, hcover, hfact, hhead⟩ := applyReserve_ok h
  obtain ⟨covered', hcover', hfact', hhead'⟩ := applyReserve_ok h'
  rw [hs.used, hs.fact, hcover] at hcover'
  have hused := (Prod.mk.inj (Except.ok.inj hcover')).2
  have hstart := hs.head
  exact ⟨hused.symm, by rw [hfact', hs.fact, hfact], by omega⟩

theorem Shifted.run : ∀ {l : List Reserve} {s s' t t' : Cash × Amounts},
    Shifted n s s' → l.foldlM (applyReserve input categories now) s = .ok t →
      l.foldlM (applyReserve input categories now) s' = .ok t' → Shifted n t t'
  | [], s, s', t, t', hs, h, h' => by
    cases h
    cases h'
    exact hs
  | x :: l, s, s', t, t', hs, h, h' => by
    obtain ⟨c, hc, h⟩ := foldlM_cons_ok.mp h
    obtain ⟨c', hc', h'⟩ := foldlM_cons_ok.mp h'
    exact (hs.step hc hc').run h h'

theorem applyReserves_shift {k : String}
    {s t' : Cash × Amounts} (hnew : reserves.get? k = none) (hcategory : x.categoryId = none)
    (h : reserves.values.foldlM (applyReserve input categories now) s = .ok t)
    (h' : (reserves.insert k x).values.foldlM (applyReserve input categories now) s = .ok t') :
    Shifted x.amount t t' := by
  obtain ⟨l₁, l₂, hvalues, hinsert⟩ := values_insert_new x hnew
  rw [hvalues] at h
  rw [hinsert] at h'
  obtain ⟨c, hc, h⟩ := foldlM_append_ok.mp h
  obtain ⟨c', hc', h'⟩ := foldlM_append_ok.mp h'
  obtain rfl : c = c' := Except.ok.inj (hc.symm.trans hc')
  obtain ⟨d, hd, h'⟩ := foldlM_cons_ok.mp h'
  obtain ⟨covered, hcover, hfact, hhead⟩ := applyReserve_ok hd
  unfold coverReserve at hcover
  rw [hcategory] at hcover
  have hused : d.2 = c.2 := (Prod.mk.inj (Except.ok.inj hcover)).2.symm
  exact Shifted.run ⟨hused, hfact, hhead⟩ h h'

end Loop

/-! ## What the hold adds -/

section Held

variable {input : LiquidityInput} {before after : List LiquidityClaimBundle}
  {b : LiquidityClaimBundle} {e : LiquidityClaimEffect} {now : Instant} {f : AccountLiquidityFact}
  {p : AccountLiquidityPolicy} {economic : Economic}

theorem openBalance_economic {a : Cash} (h : openBalance (openingCash f p) = .ok (a, economic))
    (hid : (economic.get? id).isSome) :
    ∃ flow ∈ f.unsettledFlows, flow.economicObligationId = id := by
  unfold openBalance at h
  simp only [bind_ok, pure_ok] at h
  obtain ⟨adjusted, -, -, -, -, -, -, -, ⟨a₁, e₁⟩, hflows, buffer, -, a₂, -, holds, -, a₃, -, h⟩ := h
  cases h
  refine foldlM_run (P := fun (done : List UnsettledFlow) (s : Cash × Economic) =>
    ∀ id, (s.2.get? id).isSome → ∃ flow ∈ done, flow.economicObligationId = id)
    (fun done s s' flow hs h id hid => ?_) (fun id hid => by cases hid) hflows id hid
  obtain ⟨n, -, h⟩ := bind_ok.mp h
  obtain ⟨-, h⟩ := rest_ok h
  obtain ⟨c, -, h⟩ := bind_ok.mp h
  cases h
  dsimp only at hid
  split at hid
  · rw [SortedMap.get?_insert] at hid
    split at hid
    · rename_i hflow
      exact ⟨flow, by simp, hflow⟩
    · obtain ⟨g, hg, hgid⟩ := hs id hid
      exact ⟨g, mem_append_left _ hg, hgid⟩
  · obtain ⟨g, hg, hgid⟩ := hs id hid
    exact ⟨g, mem_append_left _ hg, hgid⟩

variable (hold : AddedHold input now b e) (hf : f ∈ input.facts.elim [] (·.accounts))
  (hresource : f.accountId = e.resourceId)

include hold hf hresource

theorem fresh_reserves {who : String → Claimant}
    (h : Reserving input f now economic who reserves) (hid : id ∈ e.identities) :
    reserves.get? id = none := by
  cases hget : reserves.get? id with
  | none => rfl
  | some r =>
    have hkey := (h.kept id r hget).1
    have hstands := h.stands id r hget
    cases hwho : who id with
    | obligation o =>
      rw [hwho] at hkey hstands
      have hkey : o.economicObligationId = id := hkey
      exact absurd (hkey ▸ hid) (hold.obligations f hf hresource o hstands.1)
    | card card credit =>
      rw [hwho] at hkey hstands
      have hkey : credit.economicObligationId = id := hkey
      exact absurd (hkey ▸ hid) (hold.cards card hstands.1 credit hstands.2.1)
    | claim bundle x =>
      rw [hwho] at hkey hstands
      have hkey : x.economicObligationId = id := hkey
      exact absurd (hkey ▸ hid) (hold.claims bundle hstands.1.1 x hstands.1.2.2.1
        x.economicObligationId mem_cons_self)

theorem applyBundle_hold {s' : Cash × Reserves} (hs : s.1.fact = f)
    (heconomic : ∀ id ∈ e.identities, economic.get? id = none)
    (hreserves : ∀ id ∈ e.identities, s.2.get? id = none)
    (h : applyBundle economic now s b = .ok s') :
    s' = (s.1, s.2.insert e.economicObligationId ⟨e.amount.minorUnits, none, b.id⟩) ∧
      0 ≤ (e.amount.minorUnits : Int) := by
  unfold applyBundle at h
  rw [hold.active, stopAt_ok, ok_bind, if_pos rfl, hold.effects] at h
  obtain ⟨c, hc, h⟩ := foldlM_cons_ok.mp h
  cases h
  have hconcerns : (e.resourceId != s.1.fact.accountId || e.kind == .category) = false := by
    rw [hs, hresource, hold.kind]
    simp
  unfold applyEffect at hc
  rw [hconcerns, if_neg Bool.false_ne_true] at hc
  obtain ⟨n, hn, hc⟩ := bind_ok.mp hc
  obtain ⟨-, -, hnonneg, rfl⟩ := units_eq_ok.mp (stopAt_eq_ok.mp hn)
  obtain ⟨matchedId, hmatched, hc⟩ := bind_ok.mp hc
  have hid := matched_mem_identities (stopAt_eq_ok.mp hmatched)
  have hflow : matchingFlow s.1.fact matchedId e = none := by
    unfold matchingFlow
    rw [hs, find?_eq_none]
    intro flow hflow
    obtain ⟨hother, hlinked⟩ := hold.flows f hf hresource flow hflow
    have hne : flow.economicObligationId ≠ matchedId := fun heq => hother (heq ▸ hid)
    simp [hne, hlinked]
  rw [hflow] at hc
  obtain ⟨-, hc⟩ := rest_ok hc
  rw [if_neg (by rw [hold.kind]; decide)] at hc
  obtain ⟨-, hc⟩ := rest_ok hc
  rw [heconomic matchedId hid, hold.outside] at hc
  rw [if_neg (by simp)] at hc
  obtain ⟨reserves, hreserve, hc⟩ := bind_ok.mp hc
  cases hc
  have hreserve := stopAt_eq_ok.mp hreserve
  unfold reserveEffect at hreserve
  rw [hreserves matchedId hid, hreserves _ mem_cons_self, hold.category] at hreserve
  cases hreserve
  exact ⟨rfl, hnonneg rfl⟩

theorem openAccount_hold {s' : Cash × Reserves}
    (hbundles : input.claimSet.bundles = before ++ after)
    (h : openAccount input now (openingCash f p) = .ok s)
    (h' : openAccount (withBundle input before after b) now (openingCash f p) = .ok s') :
    s' = (s.1, s.2.insert e.economicObligationId ⟨e.amount.minorUnits, none, b.id⟩) ∧
      s.2.get? e.economicObligationId = none ∧ 0 ≤ (e.amount.minorUnits : Int) := by
  obtain ⟨_, hcheck, h⟩ := bind_ok.mp h
  obtain ⟨⟨a, economic⟩, hopen, h⟩ := bind_ok.mp h
  obtain ⟨t, ht, h⟩ := bind_ok.mp h
  obtain ⟨_, -, h'⟩ := bind_ok.mp h'
  obtain ⟨opened, hopen', h'⟩ := bind_ok.mp h'
  obtain rfl : (a, economic) = opened := Except.ok.inj (hopen.symm.trans hopen')
  obtain ⟨t', ht', h'⟩ := bind_ok.mp h'
  obtain rfl : t = t' := Except.ok.inj (ht.symm.trans ht')
  have hbundles' : (withBundle input before after b).claimSet.bundles = before ++ b :: after := rfl
  rw [hbundles] at h
  rw [hbundles'] at h'
  obtain ⟨c, hc, h⟩ := foldlM_append_ok.mp h
  obtain ⟨c', hc', h'⟩ := foldlM_append_ok.mp h'
  obtain rfl : c = c' := Except.ok.inj (hc.symm.trans hc')
  obtain ⟨d, hd, h'⟩ := foldlM_cons_ok.mp h'
  have hbooks := (openBalance_books hopen).1
  obtain ⟨hbooks, who, hwho, -⟩ := openReserves_settled hbooks ht
  have hstart : Booked input f now economic _ t :=
    ⟨[], who, fun h hh => absurd hh not_mem_nil, by simpa using hbooks, hwho⟩
  have hmid : Booked input f now economic _ c :=
    foldlM_inv (P := Booked input f now economic _) (fun _ _ x hx hs h =>
      hs.bundle (hbundles ▸ mem_append_left _ hx) h) hstart hc
  have hend : Booked input f now economic _ s :=
    foldlM_inv (P := Booked input f now economic _) (fun _ _ x hx hs h =>
      hs.bundle (hbundles ▸ mem_append_right _ hx) h) hmid h
  have heconomic : ∀ id ∈ e.identities, economic.get? id = none := by
    intro id hid
    cases hget : economic.get? id with
    | none => rfl
    | some entry =>
      obtain ⟨flow, hflow, rfl⟩ := openBalance_economic hopen (by rw [hget]; rfl)
      exact absurd hid (hold.flows f hf hresource flow hflow).1
  obtain ⟨holds, who', -, hbooks', hwho'⟩ := hmid
  obtain ⟨rfl, hnonneg⟩ := applyBundle_hold hold hf hresource hbooks'.fact heconomic
    (fun id hid => fresh_reserves hold hf hresource hwho' hid) hd
  have hbeside := applyBundles_beside (r := ⟨e.amount.minorUnits, none, b.id⟩)
    (fun other hother x hx hk => hold.claims other (hbundles ▸ mem_append_right _ hother) x hx
      e.economicObligationId hk mem_cons_self) h
  obtain ⟨_, who'', -, -, hwho''⟩ := hend
  exact ⟨Except.ok.inj (h'.symm.trans hbeside),
    fresh_reserves hold hf hresource hwho'' mem_cons_self, hnonneg⟩

end Held

/-! ## Capacities -/

section Capacity

variable {input : LiquidityInput} {categories : Categories} {now : Instant} {funded : Amounts}
  {f : AccountLiquidityFact} {p : AccountLiquidityPolicy}

/-- What becomes of the head: a card's is its authorization. -/
def ClosingHead (input : LiquidityInput) (now : Instant) (f : AccountLiquidityFact)
    (head closing : I64) : Prop :=
  if f.kind = .credit then
    cardAuthorization f now input.maxBudgetSnapshotAgeMinutes = .ok closing
  else closing = head

/-- **The capacity of an account** that may pay: what its head becomes, if it is not negative. -/
theorem prepareSteps_capacity {r : Cash × Amounts} (hpays : payment r.1 = true)
    (h : prepareSteps input categories now funded (openingCash f p) = .ok r) :
    ∃ s t closing, openAccount input now (openingCash f p) = .ok s ∧
      s.2.values.foldlM (applyReserve input categories now) (s.1, funded) = .ok t ∧
      ClosingHead input now f t.1.head closing ∧
      r.1.output.safeSpendingCapacity = some (m closing.clamp f.currency) := by
  rw [prepareSteps_eq] at h
  obtain ⟨s, hs, h⟩ := bind_ok.mp h
  obtain ⟨t, ht, h⟩ := bind_ok.mp h
  obtain ⟨c, hc, h⟩ := bind_ok.mp h
  obtain ⟨d, hd, h⟩ := bind_ok.mp h
  cases h
  have hkept : d.Of f p := by
    have hkeeps : Keeps f p (fun s : Cash × Amounts => s.1)
        (prepareSteps input categories now funded (openingCash f p)) := keeps_prepareSteps ⟨rfl, rfl⟩
    rw [prepareSteps_eq, hs, ok_bind, ht, ok_bind, hc, ok_bind, hd] at hkeeps
    exact hkeeps
  unfold refresh at hd
  rw [if_pos rfl] at hd
  obtain ⟨shortfall, -, hd⟩ := bind_ok.mp hd
  cases hd
  have hcfact : c.fact = f := hkept.1
  refine ⟨s, t, c.head, hs, ht, ?_, ?_⟩
  · unfold ClosingHead
    unfold applyCredit at hc
    split at hc
    · rename_i hcredit
      obtain ⟨auth, hauth, hc⟩ := bind_ok.mp hc
      cases hc
      have htfact : t.1.fact = f := hcfact
      rw [htfact] at hcredit hauth
      rw [if_pos (by simpa using hcredit)]
      exact stopAt_eq_ok.mp hauth
    · rename_i hcash
      cases hc
      rw [hcfact] at hcash
      rw [if_neg (by simpa using hcash)]
  · have hpays' : payment { c with known := true } = true := hpays
    dsimp only
    rw [← hcfact]
    exact congrArg (fun n => some (m n c.fact.currency)) (if_pos hpays')

theorem prepareAccount_capacity
    (hpays : payment (prepareAccount f p input categories now funded).1 = true) :
    ∃ s t closing, openAccount input now (openingCash f p) = .ok s ∧
      s.2.values.foldlM (applyReserve input categories now) (s.1, funded) = .ok t ∧
      ClosingHead input now f t.1.head closing ∧
      (prepareAccount f p input categories now funded).1.output.safeSpendingCapacity =
        some (m closing.clamp f.currency) := by
  have hknown : (prepareAccount f p input categories now funded).1.known = true := by
    unfold payment at hpays
    simp only [Bool.and_eq_true] at hpays
    exact hpays.1.1.1
  unfold prepareAccount at hknown hpays ⊢
  dsimp only at hknown hpays ⊢
  split at hknown
  · cases hknown
  rename_i hcoverage
  rw [if_neg hcoverage] at hpays ⊢
  split at hknown
  · cases hknown
  rename_i heligible
  rw [if_neg heligible] at hpays ⊢
  cases hsteps : prepareSteps input categories now funded (openingCash f p) with
  | error stop =>
    rw [hsteps] at hknown
    cases hknown
  | ok r =>
    rw [hsteps] at hpays
    exact prepareSteps_capacity hpays hsteps

end Capacity

/-! ## Both evaluations -/

section Accounts

variable {input : LiquidityInput} {before after : List LiquidityClaimBundle}
  {b : LiquidityClaimBundle} {e : LiquidityClaimEffect} {now : Instant} {categories : Categories}

theorem foldl_prepareNext_apart (hbundles : input.claimSet.bundles = before ++ after)
    (he : b.effects = [e]) (hactive : active b now = .ok true) :
    ∀ {fs : List AccountLiquidityFact} {s : Accounts × Amounts},
      (∀ f ∈ fs, f.accountId ≠ e.resourceId) →
        fs.foldl (prepareNext (withBundle input before after b) categories now) s =
          fs.foldl (prepareNext input categories now) s
  | [], s, _ => rfl
  | f :: fs, s, h => by
    have hstep : prepareNext (withBundle input before after b) categories now s f =
        prepareNext input categories now s f := by
      unfold prepareNext
      have hpolicy : policyOf (withBundle input before after b) f = policyOf input f := rfl
      rw [hpolicy, prepareAccount_apart hbundles he hactive (h f mem_cons_self)]
    rw [foldl_cons, foldl_cons, hstep]
    exact foldl_prepareNext_apart hbundles he hactive fun g hg => h g (mem_cons_of_mem _ hg)

theorem get?_foldl_prepareNext : ∀ {fs : List AccountLiquidityFact}
    {s : Accounts × Amounts}, (∀ f ∈ fs, f.accountId ≠ id) →
      (fs.foldl (prepareNext input categories now) s).1.get? id = s.1.get? id
  | [], s, _ => rfl
  | f :: fs, s, h => by
    rw [foldl_cons, get?_foldl_prepareNext fun g hg => h g (mem_cons_of_mem _ hg)]
    exact SortedMap.get?_insert_of_ne _ _ (h f mem_cons_self)

theorem prepareAccounts_get? {facts : LiquidityFacts} {done rest : List AccountLiquidityFact}
    {f : AccountLiquidityFact} (hsplit : orderedAccounts facts = done ++ f :: rest)
    (hrest : ∀ g ∈ rest, g.accountId ≠ f.accountId) :
    (prepareAccounts input facts categories now).1.get? f.accountId =
      some (prepareAccount f (policyOf input f) input categories now
        (done.foldl (prepareNext input categories now) (SortedMap.empty, SortedMap.empty)).2).1 := by
  unfold prepareAccounts
  rw [hsplit, foldl_append, foldl_cons, get?_foldl_prepareNext hrest]
  exact SortedMap.get?_insert_self _ _ _

end Accounts

/-- The hold lowers the capacity of an account: it is no card, or there is nothing to lower. -/
def Lowers (input : LiquidityInput) (now : Instant) (f : AccountLiquidityFact) (n : I64) : Prop :=
  f.kind ≠ .credit ∨ (n : Int) = 0 ∨
    ∃ auth, cardAuthorization f now input.maxBudgetSnapshotAgeMinutes = .ok auth ∧ (auth : Int) ≤ 0

/-- **What a hold takes.** An account that may pay in both evaluations has its capacity lowered by
the hold, down to zero, exactly where the hold is not on a card, holds nothing or finds no
authorization. -/
theorem capacity_falls_iff {input : LiquidityInput} {before after : List LiquidityClaimBundle}
    {b : LiquidityClaimBundle} {e : LiquidityClaimEffect} {o o' : Opened} {a a' : Cash}
    (hbundles : input.claimSet.bundles = before ++ after)
    (hopen : openEvaluation input = .ok o)
    (hopen' : openEvaluation (withBundle input before after b) = .ok o')
    (hold : AddedHold input o.clock.now b e)
    (ha : o.accounts.get? e.resourceId = some a) (ha' : o'.accounts.get? e.resourceId = some a')
    (hpays : payment a = true) (hpays' : payment a' = true) :
    ∃ was now, a.output.safeSpendingCapacity = some was ∧
      a'.output.safeSpendingCapacity = some now ∧
      ((now.minorUnits : Int) = was.minorUnits - min (e.amount.minorUnits : Int) was.minorUnits ↔
        Lowers input o.clock.now a.fact e.amount.minorUnits) := by
  unfold openEvaluation at hopen hopen'
  simp only [bind_ok, pure_ok] at hopen hopen'
  obtain ⟨clock, hclock, facts, hfacts, expires, -, claimed, -, allocated, -, hopen⟩ := hopen
  obtain ⟨clock', hclock', facts', hfacts', expires', -, claimed', -, allocated', -, hopen'⟩ := hopen'
  cases hopen
  cases hopen'
  obtain ⟨hsome, hdistinct⟩ := checkIdentities_ok hfacts
  obtain ⟨hsome', -⟩ := checkIdentities_ok hfacts'
  obtain rfl : clock = clock' := Except.ok.inj (hclock.symm.trans hclock')
  obtain rfl : facts = facts' := some.inj (hsome.symm.trans hsome')
  dsimp only at hold ha ha' ⊢
  have hentries : AllPrepared input (categoryMap facts) clock.now (orderedAccounts facts)
      (prepareAccounts input facts (categoryMap facts) clock.now) :=
    prepareAccounts_entries (categoryMap_keyed facts) hdistinct clock.now
  obtain ⟨f, hf, hid⟩ := hentries.origin _ _ ha
  obtain ⟨done, rest, hsplit⟩ := append_of_mem hf
  have hnodup : ((orderedAccounts facts).map (·.accountId)).Nodup :=
    ((perm_sortOn _ _).map _).nodup_iff.mpr hdistinct.accounts
  rw [hsplit, map_append, map_cons, nodup_append, nodup_cons] at hnodup
  have hrest : ∀ g ∈ rest, g.accountId ≠ f.accountId := fun g hg heq =>
    hnodup.2.1.1 (heq ▸ mem_map_of_mem hg)
  have hdone : ∀ g ∈ done, g.accountId ≠ e.resourceId := fun g hg => by
    rw [← hid]
    exact hnodup.2.2 _ (mem_map_of_mem hg) _ mem_cons_self
  rw [← hid, prepareAccounts_get? hsplit hrest] at ha ha'
  rw [foldl_prepareNext_apart hbundles hold.effects hold.active hdone] at ha'
  cases ha
  cases ha'
  have hmember : f ∈ input.facts.elim [] (·.accounts) := by
    rw [hsome]
    exact (perm_sortOn _ _).mem_iff.mp hf
  obtain ⟨s, t, closing, haccount, hloop, hclosing, hcapacity⟩ := prepareAccount_capacity hpays
  obtain ⟨s', t', closing', haccount', hloop', hclosing', hcapacity'⟩ :=
    prepareAccount_capacity hpays'
  obtain ⟨rfl, hnew, hnonneg⟩ := openAccount_hold hold hmember hid hbundles haccount haccount'
  have hshift : Shifted _ t t' := applyReserves_shift hnew rfl hloop hloop'
  have hhead := hshift.head
  have hclosing' : ClosingHead input clock.now f t'.1.head closing' := hclosing'
  refine ⟨_, _, hcapacity, hcapacity', ?_⟩
  rw [(prepareAccount_origin f (policyOf input f) input (categoryMap facts) clock.now _).1]
  unfold ClosingHead at hclosing hclosing'
  unfold Lowers m
  dsimp only at hhead ⊢
  rw [I64.coe_clamp, I64.coe_clamp]
  by_cases hcredit : f.kind = .credit
  · rw [if_pos hcredit] at hclosing hclosing'
    obtain rfl : closing = closing' := Except.ok.inj (hclosing.symm.trans hclosing')
    constructor
    · intro hfalls
      by_cases hzero : (e.amount.minorUnits : Int) = 0
      · exact .inr (.inl hzero)
      · exact .inr (.inr ⟨closing, hclosing, by omega⟩)
    · rintro (hcash | hzero | ⟨auth, hauth, hnone⟩)
      · exact absurd hcredit hcash
      · omega
      · obtain rfl : closing = auth := Except.ok.inj (hclosing.symm.trans hauth)
        omega
  · rw [if_neg hcredit] at hclosing hclosing'
    refine ⟨fun _ => .inl hcredit, fun _ => ?_⟩
    rw [hclosing, hclosing', hhead]
    omega

/-! ## A hold on a card -/

def householdCredit : AccountLiquidityFact :=
  { cashAccount "card" (.wrap 0) with
    kind := .credit
    credit := some
      { authorizationAvailable := usd (.wrap 100), pendingIncludedInAuthorization := true
        paymentAccountId := "checking", paymentCategoryId := "food"
        dueAt := "2026-01-20T00:00:00Z", reservedCash := usd (.wrap 0)
        economicObligationId := "card payment", evidence := weekEvidence } }

def creditFacts : LiquidityFacts where
  version := "1"
  ledgerContentHash := "ledger"
  asOfMonth := "2026-01"
  categories := [currentBucket "food" (.wrap 60)]
  accounts := [cashAccount "checking" (.wrap 50), householdCredit]
  schedules := []

def cardInput : LiquidityInput :=
  { household with
    facts := some creditFacts
    liquidityPolicy := { household.liquidityPolicy with
      accounts := household.liquidityPolicy.accounts ++ [openPolicy "card"] } }

def thirtyHeld (account : String) : LiquidityClaimEffect where
  kind := .accountDebit
  resourceId := account
  amount := usd (.wrap 30)
  economicObligationId := "dinner"
  sourceEconomicObligationId := none
  categoryId := none
  includedInBalance := false
  matchedTransactionIds := []

def dinnerHold (account : String) : LiquidityClaimBundle where
  id := "dinner"
  creationSnapshotId := "snapshot"
  creationPolicyVersion := "1"
  state := .active
  expiresAt := "2026-02-01T00:00:00Z"
  initiated := true
  effects := [thirtyHeld account]

theorem addedHold_dinner (now : Instant) (account : String) :
    AddedHold cardInput now (dinnerHold account) (thirtyHeld account) where
  effects := rfl
  active := by
    obtain ⟨t, ht⟩ := isOk_iff.mp
      (show isOk (instant "2026-02-01T00:00:00Z") = true by decide +kernel)
    unfold active
    have hexpires : instant (dinnerHold account).expiresAt = .ok t := ht
    rw [hexpires]
    rfl
  kind := rfl
  outside := rfl
  category := rfl
  id := fun other hother => absurd hother not_mem_nil
  flows f hf _ flow hflow := by
    have hnone : ∀ f ∈ cardInput.facts.elim [] (·.accounts), f.unsettledFlows = [] := by
      decide +kernel
    rw [hnone f hf] at hflow
    exact absurd hflow not_mem_nil
  obligations f hf _ o ho := by
    have hnone : ∀ f ∈ cardInput.facts.elim [] (·.accounts), f.obligations = [] := by
      decide +kernel
    rw [hnone f hf] at ho
    exact absurd ho not_mem_nil
  cards card hcard credit hcredit := by
    have hother : ∀ f ∈ cardInput.facts.elim [] (·.accounts),
        f.credit.all (fun c => c.economicObligationId != "dinner") = true := by
      decide +kernel
    have hother := hother card hcard
    rw [hcredit] at hother
    simpa [LiquidityClaimEffect.identities, thirtyHeld] using hother
  claims := fun other hother => absurd hother not_mem_nil

def capacityOf (input : LiquidityInput) (id : String) : Option Int :=
  (openEvaluation input).toOption.bind fun o => (o.accounts.get? id).bind fun a =>
    if payment a then a.output.safeSpendingCapacity.map (·.minorUnits.1) else none

theorem capacityOf_some {input : LiquidityInput} (h : capacityOf input id = some n) :
    ∃ o a x, openEvaluation input = .ok o ∧ o.accounts.get? id = some a ∧ payment a = true ∧
      a.output.safeSpendingCapacity = some x ∧ (x.minorUnits : Int) = n := by
  obtain ⟨o, hopen, h⟩ := bind_eq_some_iff.mp h
  obtain ⟨a, ha, h⟩ := bind_eq_some_iff.mp h
  split at h
  · rename_i hpays
    obtain ⟨x, hx, hn⟩ := map_eq_some_iff.mp h
    cases hresult : openEvaluation input with
    | error reason =>
      rw [hresult] at hopen
      cases hopen
    | ok opened =>
      rw [hresult] at hopen
      cases hopen
      exact ⟨o, a, x, rfl, ha, hpays, hx, hn⟩
  · cases h

theorem capacity_falls_checking : ∃ o o' a a' was now, openEvaluation cardInput = .ok o ∧
    openEvaluation (withBundle cardInput [] [] (dinnerHold "checking")) = .ok o' ∧
      o.accounts.get? "checking" = some a ∧ o'.accounts.get? "checking" = some a' ∧
        a.output.safeSpendingCapacity = some was ∧ a'.output.safeSpendingCapacity = some now ∧
          ((now.minorUnits : Int) = was.minorUnits -
              min ((thirtyHeld "checking").amount.minorUnits : Int) was.minorUnits ↔
            Lowers cardInput o.clock.now a.fact (thirtyHeld "checking").amount.minorUnits) := by
  have hwithout : capacityOf cardInput "checking" = some 50 := by decide +kernel
  have hheld : capacityOf (withBundle cardInput [] [] (dinnerHold "checking")) "checking" =
      some 20 := by
    decide +kernel
  obtain ⟨o, a, was, hopen, ha, hpays, -, -⟩ := capacityOf_some hwithout
  obtain ⟨o', a', now, hopen', ha', hpays', -, -⟩ := capacityOf_some hheld
  obtain ⟨was, now, hwas, hnow, hfalls⟩ := capacity_falls_iff rfl hopen hopen'
    (addedHold_dinner o.clock.now "checking") ha ha' hpays hpays'
  exact ⟨o, o', a, a', was, now, hopen, hopen', ha, ha', hwas, hnow, hfalls⟩

theorem card_hold_kept :
    ¬ ∀ input before after b e o o' a a', input.claimSet.bundles = before ++ after →
      openEvaluation input = .ok o → openEvaluation (withBundle input before after b) = .ok o' →
      AddedHold input o.clock.now b e → o.accounts.get? e.resourceId = some a →
      o'.accounts.get? e.resourceId = some a' → payment a = true → payment a' = true →
        ∃ was now, a.output.safeSpendingCapacity = some was ∧
          a'.output.safeSpendingCapacity = some now ∧
          (now.minorUnits : Int) = was.minorUnits - min (e.amount.minorUnits : Int) was.minorUnits := by
  intro hall
  have hwithout : capacityOf cardInput "card" = some 100 := by decide +kernel
  have hheld : capacityOf (withBundle cardInput [] [] (dinnerHold "card")) "card" =
      some 100 := by
    decide +kernel
  obtain ⟨o, a, x, hopen, ha, hpays, hx, hxv⟩ := capacityOf_some hwithout
  obtain ⟨o', a', y, hopen', ha', hpays', hy, hyv⟩ := capacityOf_some hheld
  obtain ⟨was, now, hwas, hnow, hfalls⟩ := hall cardInput [] [] _ (thirtyHeld "card") o o' a a' rfl
    hopen hopen' (addedHold_dinner _ _) ha ha' hpays hpays'
  obtain rfl : x = was := some.inj (hx.symm.trans hwas)
  obtain rfl : y = now := some.inj (hy.symm.trans hnow)
  rw [hxv, hyv] at hfalls
  exact absurd hfalls (by decide)

end BalanceFrame.Liquidity
