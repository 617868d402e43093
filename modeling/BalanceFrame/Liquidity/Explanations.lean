import BalanceFrame.Liquidity.Expiry

/-!
# What an account's explanation adds up to

The deductions that `prepare_account` reports, and what head and backing are without them.
-/

namespace BalanceFrame.Liquidity

open Library List

/-! ## Totals -/

/-- The sum of the deductions. -/
def deductedTotal (ds : List CapacityDeduction) : Int := (ds.map fun d => (d.amount.minorUnits : Int)).sum

/-- The sum of those that the backing loses too. -/
def deductedBacking (ds : List CapacityDeduction) : Int := deductedTotal (ds.filter (·.affectsBacking))

@[simp] theorem deductedTotal_nil : deductedTotal [] = 0 := rfl

@[simp] theorem deductedTotal_append (ds es : List CapacityDeduction) :
    deductedTotal (ds ++ es) = deductedTotal ds + deductedTotal es := by
  simp [deductedTotal]

@[simp] theorem deductedTotal_singleton (d : CapacityDeduction) :
    deductedTotal [d] = d.amount.minorUnits := by
  simp [deductedTotal]

theorem deductedBacking_append (ds es : List CapacityDeduction) :
    deductedBacking (ds ++ es) = deductedBacking ds + deductedBacking es := by
  simp [deductedBacking]

theorem deductedBacking_singleton (d : CapacityDeduction) :
    deductedBacking [d] = if d.affectsBacking = true then (d.amount.minorUnits : Int) else 0 := by
  by_cases h : d.affectsBacking = true
  · simp [deductedBacking, h]
  · simp [deductedBacking, h]

theorem deductedBacking_of_all {ds : List CapacityDeduction}
    (h : ∀ d ∈ ds, d.affectsBacking = true) : deductedBacking ds = deductedTotal ds := by
  rw [deductedBacking, filter_eq_self.mpr h]

/-! ## The books of an account -/

/-- Head and backing are the recorded balance less the deductions `ds`. -/
structure Books (f : AccountLiquidityFact) (ds : List CapacityDeduction) (a : Cash) : Prop where
  fact : a.fact = f
  recorded : a.output.recordedBalance = f.recordedBalance
  written : a.output.deductions = ds
  head : (a.head : Int) = f.recordedBalance.minorUnits - deductedTotal ds
  backing : (a.backing : Int) = f.recordedBalance.minorUnits - deductedBacking ds

section Books

variable {f : AccountLiquidityFact} {ds : List CapacityDeduction} {a b : Cash}

/-- What `deduct` writes. -/
def deduction (f : AccountLiquidityFact) (n : I64) (reason id : String) (backing : Bool) :
    CapacityDeduction :=
  { reason := reason, evidenceId := id, amount := m n f.currency, affectsBacking := backing }

theorem deduct_written {n : I64} {reason id : String} {backing : Bool}
    (h : deduct a n reason id backing = .ok b) :
    b.output = { a.output with
      deductions := a.output.deductions ++ [deduction a.fact n reason id backing] } := by
  obtain ⟨head, -, h⟩ := bind_ok.mp h
  obtain ⟨backed, -, h⟩ := bind_ok.mp h
  cases h
  rfl

theorem Books.deduct {n : I64} {reason id : String} {backing : Bool} (ha : Books f ds a)
    (h : deduct a n reason id backing = .ok b) :
    Books f (ds ++ [deduction f n reason id backing]) b := by
  obtain ⟨hfact, hhead, hbacking⟩ := deduct_ok h
  have hwritten := deduct_written h
  rw [ha.fact, ha.written] at hwritten
  refine ⟨hfact.trans ha.fact, by rw [hwritten, ← ha.recorded], by rw [hwritten], ?_, ?_⟩
  · rw [hhead, ha.head, deductedTotal_append, deductedTotal_singleton]
    simp only [deduction, m]
    omega
  · have hlast : deductedBacking [deduction f n reason id backing] =
        if backing = true then (n : Int) else 0 := deductedBacking_singleton _
    rw [hbacking, ha.backing, deductedBacking_append, hlast]
    omega

theorem Books.adjust (ha : Books f ds a) (n : I64) : Books f ds { a with adjusted := n } :=
  ⟨ha.fact, ha.recorded, ha.written, ha.head, ha.backing⟩

end Books

/-! ## Flows -/

/-- What an unsettled flow that is taken back is reported as. -/
def UnsettledFlow.deduction (flow : UnsettledFlow) : CapacityDeduction :=
  { reason := if flow.direction == .inflow then "unsettled_inflow_excluded" else "unincluded_outflow"
    evidenceId := flow.id, amount := flow.amount, affectsBacking := true }

/-- The deductions of flows. -/
def flowDeductions (flows : List UnsettledFlow) : List CapacityDeduction :=
  (flows.filter (·.deducted)).map (·.deduction)

/-- The two deductions that every account has. -/
def fixedDeductions (f : AccountLiquidityFact) (p : AccountLiquidityPolicy) :
    List CapacityDeduction :=
  [deduction f p.protectedBuffer.minorUnits "protected_buffer" p.accountId true,
    deduction f f.holds.minorUnits "hold" f.accountId true]

/-- Flows that were stepped over: their deductions, and the outflows by identity. -/
structure FlowsRead (f : AccountLiquidityFact) (p : AccountLiquidityPolicy)
    (done : List UnsettledFlow) (s : Cash × Economic) : Prop where
  origin : s.1.Of f p
  recorded : s.1.output.recordedBalance = f.recordedBalance
  written : s.1.output.deductions = flowDeductions done
  adjusted : (s.1.adjusted : Int) =
    f.recordedBalance.minorUnits - deductedTotal (flowDeductions done)
  outflows : ∀ flow ∈ done, flow.direction = .outflow →
    (s.2.get? flow.economicObligationId).isSome = true

theorem FlowsRead.step {f : AccountLiquidityFact} {p : AccountLiquidityPolicy}
    {done : List UnsettledFlow} {s s' : Cash × Economic} {flow : UnsettledFlow}
    (hs : FlowsRead f p done s) (h : recordFlow s flow = .ok s') :
    FlowsRead f p (done ++ [flow]) s' := by
  obtain ⟨n, hn, h⟩ := bind_ok.mp h
  obtain ⟨-, h⟩ := rest_ok h
  obtain ⟨a, ha, h⟩ := bind_ok.mp h
  cases h
  obtain ⟨-, -, -, rfl⟩ := units_eq_ok.mp (stopAt_eq_ok.mp hn)
  have houtflows : ∀ x ∈ done ++ [flow], x.direction = .outflow →
      ((if (flow.direction == .outflow) = true then
        s.2.insert flow.economicObligationId (flow.amount.minorUnits, flow.matchedTransactionIds)
        else s.2).get? x.economicObligationId).isSome = true := by
    intro x hx hout
    by_cases hflow : (flow.direction == .outflow) = true
    · rw [if_pos hflow, SortedMap.get?_insert]
      split
      · rfl
      · rename_i hne
        rcases mem_append.mp hx with hx | hx
        · exact hs.outflows x hx hout
        · rw [mem_singleton.mp hx] at hne
          exact absurd rfl hne
    · rw [if_neg hflow]
      rcases mem_append.mp hx with hx | hx
      · exact hs.outflows x hx hout
      · rw [mem_singleton.mp hx] at hout
        simp [hout] at hflow
  unfold excludeFlow at ha
  split at ha
  · rename_i hdeducted
    obtain ⟨adjusted, hadjusted, ha⟩ := bind_ok.mp ha
    cases ha
    have hlist : flowDeductions (done ++ [flow]) = flowDeductions done ++ [flow.deduction] := by
      simp [flowDeductions, hdeducted]
    refine ⟨hs.origin, hs.recorded, ?_, ?_, houtflows⟩
    · rw [hlist, ← hs.written]
      rfl
    · have hsub := sub_eq_ok.mp (stopAt_eq_ok.mp hadjusted)
      have hbefore := hs.adjusted
      rw [hlist, deductedTotal_append, deductedTotal_singleton]
      simp only [Cash.addDeduction, UnsettledFlow.deduction]
      omega
  · rename_i hkept
    cases ha
    have hlist : flowDeductions (done ++ [flow]) = flowDeductions done := by
      simp [flowDeductions, hkept]
    exact ⟨hs.origin, hs.recorded, hlist ▸ hs.written, hlist ▸ hs.adjusted, houtflows⟩

theorem flowDeductions_backing (flows : List UnsettledFlow) :
    ∀ d ∈ flowDeductions flows, d.affectsBacking = true := by
  intro d hd
  obtain ⟨flow, -, rfl⟩ := mem_map.mp hd
  rfl

/-- **The opened balance**: the books hold, outflows are known by identity, and flows have different
identities. -/
theorem openBalance_books {f : AccountLiquidityFact} {p : AccountLiquidityPolicy} {b : Cash}
    {economic : Economic} (h : openBalance (openingCash f p) = .ok (b, economic)) :
    Books f (flowDeductions f.unsettledFlows ++ fixedDeductions f p) b ∧
      (∀ flow ∈ f.unsettledFlows, flow.direction = .outflow →
        (economic.get? flow.economicObligationId).isSome = true) ∧
      (f.unsettledFlows.map (·.economicObligationId)).Nodup := by
  unfold openBalance at h
  simp only [bind_ok, pure_ok] at h
  obtain ⟨adjusted, hadjusted, -, -, -, -, _, hunique, ⟨a₁, e₁⟩, hflows, buffer, hbuffer, a₂, hfirst,
    holds, hholds, a₃, hsecond, h⟩ := h
  cases h
  obtain ⟨-, -, -, rfl⟩ := units_eq_ok.mp (stopAt_eq_ok.mp hadjusted)
  have hread : FlowsRead f p f.unsettledFlows (a₁, e₁) :=
    foldlM_run (P := FlowsRead f p) (fun done s s' flow hs h => hs.step h)
      ⟨⟨rfl, rfl⟩, rfl, rfl, (Int.sub_zero _).symm, fun _ h => absurd h not_mem_nil⟩
      hflows
  have hopened : Books f (flowDeductions f.unsettledFlows)
      { a₁ with head := a₁.adjusted, backing := a₁.adjusted } :=
    ⟨hread.origin.1, hread.recorded, hread.written, hread.adjusted, by
      rw [deductedBacking_of_all (flowDeductions_backing _)]
      exact hread.adjusted⟩
  have hone := hopened.deduct hfirst
  have htwo := hone.deduct hsecond
  obtain ⟨-, -, -, rfl⟩ := units_eq_ok.mp (stopAt_eq_ok.mp hbuffer)
  obtain ⟨-, -, -, rfl⟩ := units_eq_ok.mp (stopAt_eq_ok.mp hholds)
  have hkeeps : a₂.fact = f ∧ a₁.policy = p := ⟨hone.fact, hread.origin.2⟩
  rw [append_assoc] at htwo
  refine ⟨?_, hread.outflows, (unique_eq_ok.mp (stopAt_eq_ok.mp hunique)).2⟩
  rw [hkeeps.1] at htwo
  dsimp only at htwo
  rw [hkeeps.2] at htwo
  exact htwo

/-! ## What is reserved -/

/-- What a reserve stands for. -/
inductive Claimant
  | obligation (o : CashObligation)
  | card (card : AccountLiquidityFact) (credit : CreditLiquidityFact)
  | claim (bundle : LiquidityClaimBundle) (e : LiquidityClaimEffect)

/-- The resolved identity: a scoped claim has that of its source. -/
def Claimant.identity : Claimant → String
  | .obligation o => o.economicObligationId
  | .card _ credit => credit.economicObligationId
  | .claim _ e => e.sourceEconomicObligationId.getD e.economicObligationId

/-- The identity that a reserve is kept under. -/
def Claimant.key : Claimant → String
  | .obligation o => o.economicObligationId
  | .card _ credit => credit.economicObligationId
  | .claim _ e => e.economicObligationId

def Claimant.reserve : Claimant → Reserve
  | .obligation o => ⟨o.amount.minorUnits, o.categoryId, o.id⟩
  | .card a credit => ⟨credit.reservedCash.minorUnits, some credit.paymentCategoryId, a.accountId⟩
  | .claim bundle e => ⟨e.amount.minorUnits, e.categoryId, bundle.id⟩

/-- A claim scoped to a source. -/
def Claimant.scoped : Claimant → Bool
  | .claim _ e => e.sourceEconomicObligationId.isSome
  | _ => false

/-- A claim without a source. -/
def Claimant.unscoped : Claimant → Bool
  | .claim _ e => e.sourceEconomicObligationId.isNone
  | _ => false

/-- A claim bundle that holds, and its effect on an account. -/
def Effective (input : LiquidityInput) (f : AccountLiquidityFact) (now : Instant)
    (kind : ClaimEffectKind) (bundle : LiquidityClaimBundle) (e : LiquidityClaimEffect) : Prop :=
  bundle ∈ input.claimSet.bundles ∧ active bundle now = .ok true ∧ e ∈ bundle.effects ∧
    e.resourceId = f.accountId ∧ e.kind = kind

/-- The claimant is there, and not yet in the balance. -/
def Claimant.Stands (input : LiquidityInput) (f : AccountLiquidityFact) (now : Instant) :
    Claimant → Prop
  | .obligation o => o ∈ f.obligations ∧ o.paid = false ∧ o.includedInBalance = false ∧
      ∃ horizonEnd, instant input.horizon.endsAt = .ok horizonEnd ∧
        obligationDue o.dueAt horizonEnd = .ok true
  | .card a credit => a ∈ input.facts.elim [] (·.accounts) ∧ a.credit = some credit ∧
      credit.paymentAccountId = f.accountId
  | .claim bundle e => Effective input f now .accountDebit bundle e ∧ e.includedInBalance = false ∧
      ∃ id, e.matchedObligationId = .ok id

theorem matchedObligationId_ok {e : LiquidityClaimEffect} {id : String}
    (h : e.matchedObligationId = .ok id) :
    id = e.sourceEconomicObligationId.getD e.economicObligationId ∧
      ∀ source, e.sourceEconomicObligationId = some source → e.kind = .accountDebit →
        e.economicObligationId = source ++ ":account:" ++ e.resourceId := by
  unfold LiquidityClaimEffect.matchedObligationId at h
  cases hsource : e.sourceEconomicObligationId with
  | none =>
    rw [hsource] at h
    cases h
    exact ⟨rfl, nofun⟩
  | some source =>
    rw [hsource] at h
    dsimp only at h
    refine ⟨?_, fun source' hs hdebit => ?_⟩
    · cases hkind : e.kind with
      | destinationHold =>
        rw [hkind] at h
        cases h
      | category =>
        rw [hkind] at h
        obtain ⟨kind, -, h⟩ := bind_ok.mp h
        obtain ⟨-, h⟩ := rest_ok h
        cases h
        rfl
      | accountDebit =>
        rw [hkind] at h
        obtain ⟨kind, -, h⟩ := bind_ok.mp h
        obtain ⟨-, h⟩ := rest_ok h
        cases h
        rfl
    · cases hs
      rw [hdebit] at h
      obtain ⟨kind, hkind, h⟩ := bind_ok.mp h
      obtain ⟨u, hreject, h⟩ := bind_ok.mp h
      cases hkind
      simp only [reject_ok, Bool.or_eq_false_iff, bne_eq_false_iff_eq] at hreject
      exact hreject.2

section Claimants

variable {input : LiquidityInput} {f : AccountLiquidityFact} {now : Instant} {c c' : Claimant}

theorem Claimant.key_eq (h : c.scoped = false) : c.key = c.identity := by
  cases c with
  | obligation o => rfl
  | card card credit => rfl
  | claim bundle e =>
    have hnone : e.sourceEconomicObligationId = none := by
      simpa [Claimant.scoped] using h
    simp [Claimant.key, Claimant.identity, hnone]

theorem Claimant.Stands.key_eq (hc : c.Stands input f now) (h : c.scoped = true) :
    c.key = c.identity ++ ":account:" ++ f.accountId := by
  cases c with
  | obligation o => cases h
  | card card credit => cases h
  | claim bundle e =>
    obtain ⟨⟨-, -, -, hresource, hkind⟩, -, id, hid⟩ := hc
    obtain ⟨source, hsource⟩ := Option.isSome_iff_exists.mp h
    have hkey := (matchedObligationId_ok hid).2 source hsource hkind
    simp only [Claimant.key, Claimant.identity, hsource, Option.getD_some]
    rw [hkey, hresource]

theorem Claimant.Stands.key_congr (hc : c.Stands input f now) (hc' : c'.Stands input f now)
    (hidentity : c.identity = c'.identity) (h : c.scoped = c'.scoped) : c.key = c'.key := by
  by_cases hscoped : c.scoped = true
  · rw [hc.key_eq hscoped, hc'.key_eq (h ▸ hscoped), hidentity]
  · rw [Bool.not_eq_true] at hscoped
    rw [Claimant.key_eq hscoped, Claimant.key_eq (h ▸ hscoped), hidentity]

end Claimants

/-- Reserves with what each stands for, `who`. -/
structure Reserving (input : LiquidityInput) (f : AccountLiquidityFact) (now : Instant)
    (economic : Economic) (who : String → Claimant) (reserves : Reserves) : Prop where
  stands : ∀ k r, reserves.get? k = some r → (who k).Stands input f now
  kept : ∀ k r, reserves.get? k = some r → (who k).key = k ∧ (who k).reserve = r
  apart : ∀ k r, reserves.get? k = some r → economic.get? (who k).identity = none
  alone : ∀ k r k' r', reserves.get? k = some r → reserves.get? k' = some r' →
    (who k).identity = (who k').identity → (who k).scoped = true → (who k').scoped = false →
      (who k').unscoped = true

section Reserving

variable {input : LiquidityInput} {f : AccountLiquidityFact} {now : Instant} {economic : Economic}
  {who : String → Claimant} {reserves : Reserves}

/-- **One more claimant**: a scoped one where nothing has its identity, an unscoped claim, or any
other while no claim is reserved. -/
theorem Reserving.insert (h : Reserving input f now economic who reserves) {c : Claimant}
    (hc : c.Stands input f now) (hapart : economic.get? c.identity = none)
    (hscoped : c.scoped = true → reserves.get? c.identity = none)
    (hother : c.unscoped = false → c.scoped = false →
      ∀ k r, reserves.get? k = some r → (who k).scoped = false) :
    Reserving input f now economic (Function.update who c.key c)
      (reserves.insert c.key c.reserve) := by
  have hold : ∀ k r, (reserves.insert c.key c.reserve).get? k = some r →
      (k = c.key ∧ Function.update who c.key c k = c ∧ r = c.reserve) ∨
        (k ≠ c.key ∧ Function.update who c.key c k = who k ∧ reserves.get? k = some r) := by
    intro k r hr
    rw [SortedMap.get?_insert] at hr
    split at hr
    · rename_i hk
      subst hk
      exact .inl ⟨rfl, Function.update_self .., (Option.some.inj hr).symm⟩
    · rename_i hk
      exact .inr ⟨Ne.symm hk, Function.update_of_ne (Ne.symm hk) .., hr⟩
  refine ⟨fun k r hr => ?_, fun k r hr => ?_, fun k r hr => ?_,
    fun k r k' r' hr hr' hidentity hs hs' => ?_⟩
  · rcases hold k r hr with ⟨-, hwho, -⟩ | ⟨-, hwho, hr⟩
    · rwa [hwho]
    · rw [hwho]
      exact h.stands k r hr
  · rcases hold k r hr with ⟨rfl, hwho, rfl⟩ | ⟨-, hwho, hr⟩
    · rw [hwho]
      exact ⟨rfl, rfl⟩
    · rw [hwho]
      exact h.kept k r hr
  · rcases hold k r hr with ⟨-, hwho, -⟩ | ⟨-, hwho, hr⟩
    · rwa [hwho]
    · rw [hwho]
      exact h.apart k r hr
  · rcases hold k r hr with ⟨-, hwho, -⟩ | ⟨-, hwho, hr⟩
    · rcases hold k' r' hr' with ⟨-, hwho', -⟩ | ⟨-, hwho', hr'⟩
      · rw [hwho] at hs
        rw [hwho', hs] at hs'
        cases hs'
      · rw [hwho] at hs hidentity
        rw [hwho'] at hs' hidentity
        have hkey := (Claimant.key_eq hs').symm.trans (h.kept k' r' hr').1
        rw [hidentity, hkey, hr'] at hscoped
        cases hscoped hs
    · rcases hold k' r' hr' with ⟨-, hwho', -⟩ | ⟨-, hwho', hr'⟩
      · rw [hwho] at hs
        rw [hwho'] at hs' ⊢
        by_contra hun
        rw [hother (by simpa using hun) hs' k r hr] at hs
        cases hs
      · rw [hwho] at hs hidentity
        rw [hwho'] at hs' hidentity ⊢
        exact h.alone k r k' r' hr hr' hidentity hs hs'

/-- **Two reserves of one identity** are a scoped claim and an unscoped one. -/
theorem Reserving.once (h : Reserving input f now economic who reserves) {k k' : String}
    {r r' : Reserve} (hr : reserves.get? k = some r) (hr' : reserves.get? k' = some r')
    (hne : k ≠ k') (hidentity : (who k).identity = (who k').identity) :
    ((who k).scoped = true ∧ (who k').unscoped = true) ∨
      ((who k).unscoped = true ∧ (who k').scoped = true) := by
  have hkeys : (who k).key ≠ (who k').key := by
    rwa [(h.kept k r hr).1, (h.kept k' r' hr').1]
  cases hs : (who k).scoped with
  | true =>
    cases hs' : (who k').scoped with
    | true =>
      exact absurd ((h.stands k r hr).key_congr (h.stands k' r' hr') hidentity (hs.trans hs'.symm))
        hkeys
    | false => exact .inl ⟨rfl, h.alone k r k' r' hr hr' hidentity hs hs'⟩
  | false =>
    cases hs' : (who k').scoped with
    | true => exact .inr ⟨h.alone k' r' k r hr' hr hidentity.symm hs' hs, rfl⟩
    | false =>
      exact absurd ((h.stands k r hr).key_congr (h.stands k' r' hr') hidentity (hs.trans hs'.symm))
        hkeys

end Reserving

/-! ## The steps that reserve -/

section Steps

variable {input : LiquidityInput} {f : AccountLiquidityFact} {now : Instant} {economic : Economic}
  {ds : List CapacityDeduction}

/-- The books, and reserves none of which is scoped. -/
def Settled (input : LiquidityInput) (f : AccountLiquidityFact) (now : Instant)
    (economic : Economic) (ds : List CapacityDeduction) (s : Cash × Reserves) : Prop :=
  Books f ds s.1 ∧ ∃ who, Reserving input f now economic who s.2 ∧
    ∀ k r, s.2.get? k = some r → (who k).scoped = false

variable {s s' : Cash × Reserves}

theorem Settled.insert {a : Cash} (hs : Settled input f now economic ds s)
    (ha : Books f ds a) {c : Claimant} (hc : c.Stands input f now) (hscoped : c.scoped = false)
    (hapart : economic.get? c.identity = none) :
    Settled input f now economic ds (a, s.2.insert c.key c.reserve) := by
  obtain ⟨-, who, hwho, hplain⟩ := hs
  refine ⟨ha, _, hwho.insert hc hapart (fun h => absurd (hscoped.symm.trans h) Bool.false_ne_true)
    fun _ _ => hplain, fun k r hr => ?_⟩
  rw [SortedMap.get?_insert] at hr
  split at hr
  · rename_i hk
    rw [← hk, Function.update_self]
    exact hscoped
  · rename_i hk
    rw [Function.update_of_ne (Ne.symm hk)]
    exact hplain k r hr

theorem Settled.obligation {horizonEnd : Instant} {o : CashObligation}
    (hends : instant input.horizon.endsAt = .ok horizonEnd) (ho : o ∈ f.obligations)
    (hs : Settled input f now economic ds s)
    (h : reserveObligation economic horizonEnd s o = .ok s') :
    Settled input f now economic ds s' := by
  obtain ⟨n, hn, h⟩ := bind_ok.mp h
  obtain ⟨due, hdue, h⟩ := bind_ok.mp h
  obtain ⟨-, -, -, rfl⟩ := units_eq_ok.mp (stopAt_eq_ok.mp hn)
  split at h
  · cases h
    exact hs
  · rename_i hopen
    simp only [Bool.or_eq_true, Bool.not_eq_true', not_or, Bool.not_eq_false, Bool.not_eq_true] at hopen
    obtain ⟨⟨rfl, hpaid⟩, hincluded⟩ := hopen
    have hbooks : Books f ds (if (bytes o.dueAt).length = 10 then
        s.1.addReason "date_only_obligation_reserved_conservatively" else s.1) := by
      split
      · exact ⟨hs.1.fact, hs.1.recorded, hs.1.written, hs.1.head, hs.1.backing⟩
      · exact hs.1
    generalize (if (bytes o.dueAt).length = 10 then
        s.1.addReason "date_only_obligation_reserved_conservatively" else s.1) = a at hbooks h
    dsimp only at h
    split at h
    · obtain ⟨-, h⟩ := rest_ok h
      cases h
      exact ⟨hbooks, hs.2⟩
    · split at h
      · obtain ⟨-, h⟩ := rest_ok h
        cases h
        exact ⟨hbooks, hs.2⟩
      · rename_i hapart
        split at h
        · obtain ⟨-, h⟩ := rest_ok h
          cases h
          exact ⟨hbooks, hs.2⟩
        · cases h
          exact hs.insert hbooks (c := .obligation o)
            ⟨ho, hpaid, hincluded, horizonEnd, hends, stopAt_eq_ok.mp hdue⟩ rfl hapart

theorem Settled.card {maxAge : Nat} {card : AccountLiquidityFact} {a : Cash}
    {reserves reserves' : Reserves} (hcard : card ∈ input.facts.elim [] (·.accounts))
    (hs : Settled input f now economic ds (a, reserves))
    (h : reserveCard f economic now maxAge reserves card = .ok reserves') :
    Settled input f now economic ds (a, reserves') := by
  unfold reserveCard at h
  split at h
  · cases h
    exact hs
  · rename_i credit hcredit
    split at h
    · cases h
      exact hs
    · rename_i hpays
      obtain ⟨-, h⟩ := rest_ok h
      obtain ⟨n, hn, h⟩ := bind_ok.mp h
      obtain ⟨-, -, -, rfl⟩ := units_eq_ok.mp hn
      split at h
      · cases h
        exact hs
      · rename_i hapart
        split at h
        · obtain ⟨-, h⟩ := rest_ok h
          cases h
          exact hs
        · cases h
          exact hs.insert hs.1 (c := .card card credit) ⟨hcard, hcredit, by simpa using hpays⟩ rfl
            (by simpa [Claimant.identity] using hapart)

theorem openReserves_settled {a : Cash} (ha : Books f ds a)
    (h : openReserves input now economic a = .ok s) : Settled input f now economic ds s := by
  obtain ⟨horizonEnd, hends, h⟩ := bind_ok.mp h
  obtain ⟨s₁, hobligations, h⟩ := bind_ok.mp h
  obtain ⟨-, h⟩ := rest_ok h
  obtain ⟨reserves, hcards, h⟩ := bind_ok.mp h
  cases h
  have hstart : Settled input f now economic ds (a, SortedMap.empty) :=
    ⟨ha, fun _ => .obligation ⟨"", "", none, default, "", false, false, []⟩, ⟨by simp, by simp, by simp, by simp⟩, by simp⟩
  have hsettled : Settled input f now economic ds s₁ := by
    refine foldlM_inv (P := Settled input f now economic ds) (fun s s' o ho hs h => ?_) hstart
      hobligations
    exact hs.obligation (stopAt_eq_ok.mp hends) (ha.fact ▸ ho) h
  have hcards := stopAt_eq_ok.mp hcards
  rw [hsettled.1.fact] at hcards
  exact foldlM_inv (P := fun reserves => Settled input f now economic ds (s₁.1, reserves))
    (fun _ _ _ hcard hs h => hs.card hcard h) hsettled hcards

/-- A destination credit that is held back: its bundle and its effect. -/
abbrev HeldBack := LiquidityClaimBundle × LiquidityClaimEffect

def HeldBack.deduction (f : AccountLiquidityFact) (h : HeldBack) : CapacityDeduction :=
  Liquidity.deduction f h.2.amount.minorUnits "unsettled_destination_hold" h.1.id true

/-- The books with what is held back, and the reserves. -/
def Booked (input : LiquidityInput) (f : AccountLiquidityFact) (now : Instant)
    (economic : Economic) (ds : List CapacityDeduction) (s : Cash × Reserves) : Prop :=
  ∃ (holds : List HeldBack) (who : String → Claimant),
    (∀ h ∈ holds, Effective input f now .destinationHold h.1 h.2 ∧ h.2.includedInBalance = true) ∧
      Books f (ds ++ holds.map (·.deduction f)) s.1 ∧ Reserving input f now economic who s.2

theorem Booked.effect {bundle : LiquidityClaimBundle} {e : LiquidityClaimEffect}
    (hbundle : bundle ∈ input.claimSet.bundles)
    (hactive : active bundle now = .ok true) (he : e ∈ bundle.effects)
    (hs : Booked input f now economic ds s)
    (h : applyEffect economic bundle.id s e = .ok s') : Booked input f now economic ds s' := by
  obtain ⟨holds, who, hholds, hbooks, hwho⟩ := hs
  unfold applyEffect at h
  split at h
  · cases h
    exact ⟨holds, who, hholds, hbooks, hwho⟩
  · rename_i hconcerns
    simp only [Bool.or_eq_true, bne_iff_ne, ne_eq, beq_iff_eq, not_or, not_not] at hconcerns
    obtain ⟨hresource, hcategory⟩ := hconcerns
    rw [hbooks.fact] at hresource
    obtain ⟨n, hn, h⟩ := bind_ok.mp h
    obtain ⟨-, -, -, rfl⟩ := units_eq_ok.mp (stopAt_eq_ok.mp hn)
    obtain ⟨matchedId, hmatched, h⟩ := bind_ok.mp h
    obtain ⟨-, h⟩ := rest_ok h
    have hmatched := stopAt_eq_ok.mp hmatched
    split at h
    · rename_i hkind
      obtain ⟨a, ha, h⟩ := bind_ok.mp h
      cases h
      unfold holdDestination at ha
      split at ha
      · rename_i hheld
        rw [Bool.and_eq_true] at hheld
        obtain ⟨adjusted, -, ha⟩ := bind_ok.mp ha
        have hmore := (hbooks.adjust adjusted).deduct ha
        refine ⟨holds ++ [(bundle, e)], who, fun h hmem => ?_, ?_, hwho⟩
        · rcases mem_append.mp hmem with hmem | hmem
          · exact hholds h hmem
          · rw [mem_singleton.mp hmem]
            exact ⟨⟨hbundle, hactive, he, hresource, by simpa using hkind⟩, hheld.1⟩
        · rw [map_append, ← append_assoc]
          exact hmore
      · cases ha
        exact ⟨holds, who, hholds, hbooks, hwho⟩
    · rename_i hkind
      obtain ⟨-, h⟩ := rest_ok h
      split at h
      · cases h
        exact ⟨holds, who, hholds, hbooks, hwho⟩
      · rename_i hopen
        simp only [Bool.or_eq_true, not_or, Bool.not_eq_true] at hopen
        obtain ⟨⟨hincluded, hapart⟩, -⟩ := hopen
        obtain ⟨reserves, hreserves, h⟩ := bind_ok.mp h
        cases h
        have hdebit : e.kind = .accountDebit := by
          cases hk : e.kind with
          | category => exact absurd hk (by simpa using hcategory)
          | accountDebit => rfl
          | destinationHold => exact absurd hk (by simpa using hkind)
        obtain ⟨hidentity, -⟩ := matchedObligationId_ok hmatched
        have hreserves := stopAt_eq_ok.mp hreserves
        unfold reserveEffect at hreserves
        split at hreserves
        · obtain ⟨-, hreserves⟩ := rest_ok hreserves
          cases hreserves
          exact ⟨holds, who, hholds, hbooks, hwho⟩
        · rename_i hnone
          cases hreserves
          rw [Option.or_eq_none_iff] at hnone
          refine ⟨holds, _, hholds, hbooks, hwho.insert (c := .claim bundle e)
            ⟨⟨hbundle, hactive, he, hresource, hdebit⟩, hincluded, matchedId, hmatched⟩ ?_
            (fun _ => ?_) fun hunscoped hscoped => ?_⟩
          · simpa [Claimant.identity, ← hidentity] using hapart
          · rw [Claimant.identity, ← hidentity]
            exact hnone.1
          · simp only [Claimant.unscoped, Claimant.scoped] at hunscoped hscoped
            cases hsource : e.sourceEconomicObligationId <;> simp [hsource] at hunscoped hscoped

theorem Booked.bundle {bundle : LiquidityClaimBundle}
    (hbundle : bundle ∈ input.claimSet.bundles) (hs : Booked input f now economic ds s)
    (h : applyBundle economic now s bundle = .ok s') : Booked input f now economic ds s' := by
  obtain ⟨isActive, hactive, h⟩ := bind_ok.mp h
  split at h
  · rename_i htrue
    rw [htrue] at hactive
    exact foldlM_inv (P := Booked input f now economic ds)
      (fun _ _ _ he hs h => hs.effect hbundle (stopAt_eq_ok.mp hactive) he h) hs h
  · cases h
    exact hs

end Steps

/-! ## Reserves that are deducted -/

/-- A reserve that was deducted, by how much its category covered and by the rest. -/
structure Deducted where
  claimant : Claimant
  covered : I64
  rest : I64

def Deducted.deductions (f : AccountLiquidityFact) (d : Deducted) : List CapacityDeduction :=
  [deduction f d.covered "funded_category_obligation" d.claimant.reserve.id false,
    deduction f d.rest "unbacked_obligation_reserve" d.claimant.reserve.id true]

/-- Covered and rest make up the reserve. -/
def Deducted.Whole (d : Deducted) : Prop :=
  0 ≤ (d.covered : Int) ∧ (d.covered : Int) + d.rest = d.claimant.reserve.amount

theorem coverReserve_nonneg {input : LiquidityInput} {categories : Categories} {now : Instant}
    {currency : String} {used used' : Amounts} {r : Reserve} {covered : I64}
    (hr : 0 ≤ (r.amount : Int))
    (h : coverReserve input categories now currency used r = .ok (covered, used')) :
    0 ≤ (covered : Int) := by
  unfold coverReserve at h
  split at h
  · cases h
    exact le_refl _
  · simp only [bind_ok, pure_ok] at h
    obtain ⟨category, -, -, -, available, -, left, -, after, -, h⟩ := h
    cases h
    rw [I64.coe_least, I64.coe_clamp]
    omega

section Reserves

variable {input : LiquidityInput} {f : AccountLiquidityFact} {categories : Categories}
  {now : Instant} {ds : List CapacityDeduction}

theorem Books.reserve {s s' : Cash × Amounts} {c : Claimant} (hs : Books f ds s.1)
    (hamount : 0 ≤ (c.reserve.amount : Int))
    (h : applyReserve input categories now s c.reserve = .ok s') :
    ∃ d : Deducted, d.claimant = c ∧ d.Whole ∧ Books f (ds ++ d.deductions f) s'.1 := by
  obtain ⟨⟨covered, used⟩, hcover, h⟩ := bind_ok.mp h
  obtain ⟨a, hfirst, h⟩ := bind_ok.mp h
  obtain ⟨rest, hrest, h⟩ := bind_ok.mp h
  obtain ⟨b, hsecond, h⟩ := bind_ok.mp h
  cases h
  have hsub := sub_eq_ok.mp (stopAt_eq_ok.mp hrest)
  have hbooks := (hs.deduct hfirst).deduct hsecond
  rw [append_assoc] at hbooks
  refine ⟨⟨c, covered, rest⟩, rfl, ⟨?_, ?_⟩, hbooks⟩
  · exact coverReserve_nonneg hamount (stopAt_eq_ok.mp hcover)
  · dsimp only
    omega

theorem Books.reserves : ∀ {cs : List Claimant} {ds : List CapacityDeduction}
    {s s' : Cash × Amounts}, Books f ds s.1 → (∀ c ∈ cs, 0 ≤ (c.reserve.amount : Int)) →
      (cs.map (·.reserve)).foldlM (applyReserve input categories now) s = .ok s' →
      ∃ paid : List Deducted, paid.map (·.claimant) = cs ∧ (∀ d ∈ paid, d.Whole) ∧
        Books f (ds ++ paid.flatMap (·.deductions f)) s'.1
  | [], ds, s, s', hs, _, h => by
    cases h
    exact ⟨[], rfl, fun d hd => absurd hd not_mem_nil, by simpa using hs⟩
  | c :: cs, ds, s, s', hs, hcs, h => by
    rw [map_cons] at h
    obtain ⟨s₁, hfirst, h⟩ := foldlM_cons_ok.mp h
    obtain ⟨d, hd, hwhole, hbooks⟩ := hs.reserve (hcs c mem_cons_self) hfirst
    obtain ⟨paid, hpaid, hall, hbooks⟩ :=
      hbooks.reserves (fun x hx => hcs x (mem_cons_of_mem _ hx)) h
    refine ⟨d :: paid, by rw [map_cons, hd, hpaid], ?_, ?_⟩
    · exact forall_mem_cons.mpr ⟨hwhole, hall⟩
    · rw [flatMap_cons, ← append_assoc]
      exact hbooks

end Reserves

/-! ## The explanation of an account -/

/-- One is a claim scoped to the identity, the other a claim without a source. -/
def ScopedApart (c c' : Claimant) : Prop :=
  (c.scoped = true ∧ c'.unscoped = true) ∨ (c.unscoped = true ∧ c'.scoped = true)

/-- What the deductions of a known cash account are, and what they add up to. -/
structure Explained (input : LiquidityInput) (now : Instant) (holds : List HeldBack)
    (paid : List Deducted) (a : Cash) : Prop where
  deductions : a.output.deductions = flowDeductions a.fact.unsettledFlows ++
    fixedDeductions a.fact a.policy ++ holds.map (·.deduction a.fact) ++
      paid.flatMap (·.deductions a.fact)
  recorded : a.output.recordedBalance = a.fact.recordedBalance
  headroom : a.output.signedHeadroom = some (m a.head a.fact.currency)
  capacity : a.output.backingCapacity =
    some (m (if mayBack a then a.backing.clamp else 0) a.fact.currency)
  head : (a.head : Int) = a.fact.recordedBalance.minorUnits - deductedTotal a.output.deductions
  backing : (a.backing : Int) =
    a.fact.recordedBalance.minorUnits - deductedBacking a.output.deductions
  ordered : (a.head : Int) ≤ a.backing
  flows : (a.fact.unsettledFlows.map (·.economicObligationId)).Nodup
  held : ∀ h ∈ holds, Effective input a.fact now .destinationHold h.1 h.2 ∧
    h.2.includedInBalance = true
  stands : ∀ d ∈ paid, d.claimant.Stands input a.fact now ∧ d.Whole
  apart : ∀ d ∈ paid, ∀ flow ∈ a.fact.unsettledFlows, flow.direction = .outflow →
    flow.economicObligationId ≠ d.claimant.identity
  once : paid.Pairwise fun d d' => d.claimant.identity = d'.claimant.identity →
    ScopedApart d.claimant d'.claimant

section Explained

variable {input : LiquidityInput} {f : AccountLiquidityFact} {p : AccountLiquidityPolicy}
  {categories : Categories} {now : Instant} {funded : Amounts}

theorem Reserving.values {economic : Economic} {who : String → Claimant} {reserves : Reserves}
    (h : Reserving input f now economic who reserves) :
    reserves.values = (reserves.keys.map who).map (·.reserve) := by
  rw [SortedMap.values, SortedMap.keys, map_map, map_map]
  refine map_congr_left fun e he => ?_
  exact (h.kept e.1 e.2 (SortedMap.mem_entries_iff.mp he)).2.symm

theorem deductedBacking_le {ds : List CapacityDeduction}
    (h : ∀ d ∈ ds, d.affectsBacking = false → 0 ≤ (d.amount.minorUnits : Int)) :
    deductedBacking ds ≤ deductedTotal ds := by
  induction ds with
  | nil => exact le_refl _
  | cons d ds ih =>
    have hrest := ih fun x hx => h x (mem_cons_of_mem _ hx)
    have hfirst := h d mem_cons_self
    rw [← singleton_append, deductedBacking_append, deductedTotal_append,
      deductedBacking_singleton, deductedTotal_singleton]
    cases hd : d.affectsBacking with
    | true =>
      rw [if_pos rfl]
      omega
    | false =>
      rw [if_neg Bool.false_ne_true]
      have hnonneg := hfirst hd
      omega

theorem explained_nonneg {holds : List HeldBack} {paid : List Deducted}
    (hpaid : ∀ d ∈ paid, d.Whole) : ∀ d ∈ flowDeductions f.unsettledFlows ++ fixedDeductions f p ++
      holds.map (·.deduction f) ++ paid.flatMap (·.deductions f),
        d.affectsBacking = false → 0 ≤ (d.amount.minorUnits : Int) := by
  intro d hd hbacking
  simp only [mem_append, or_assoc] at hd
  rcases hd with hd | hd | hd | hd
  · rw [flowDeductions_backing _ d hd] at hbacking
    cases hbacking
  · rcases mem_cons.mp hd with rfl | hd
    · cases hbacking
    · rw [mem_singleton.mp hd] at hbacking
      cases hbacking
  · obtain ⟨h, -, rfl⟩ := mem_map.mp hd
    cases hbacking
  · obtain ⟨x, hx, hd⟩ := mem_flatMap.mp hd
    rcases mem_cons.mp hd with rfl | hd
    · exact (hpaid x hx).1
    · rw [mem_singleton.mp hd] at hbacking
      cases hbacking

theorem prepareSteps_explained {r : Cash × Amounts} (hcash : f.kind = .cash)
    (h : prepareSteps input categories now funded (openingCash f p) = .ok r) :
    ∃ holds paid, Explained input now holds paid r.1 := by
  have hkept : r.1.Of f p := by
    have hkeeps : Keeps f p (fun s : Cash × Amounts => s.1)
        (prepareSteps input categories now funded (openingCash f p)) := keeps_prepareSteps ⟨rfl, rfl⟩
    rw [h] at hkeeps
    exact hkeeps
  obtain ⟨-, h⟩ := rest_ok h
  obtain ⟨⟨a, economic⟩, hopen, h⟩ := bind_ok.mp h
  obtain ⟨s, hreserves, h⟩ := bind_ok.mp h
  obtain ⟨⟨b, reserves⟩, hbundles, h⟩ := bind_ok.mp h
  obtain ⟨⟨c, used⟩, happlied, h⟩ := bind_ok.mp h
  obtain ⟨d, hcredit, h⟩ := bind_ok.mp h
  obtain ⟨e, hrefresh, h⟩ := bind_ok.mp h
  cases h
  obtain ⟨hbooks, houtflows, hflows⟩ := openBalance_books hopen
  have hsettled : Settled input f now economic
      (flowDeductions f.unsettledFlows ++ fixedDeductions f p) s := openReserves_settled hbooks hreserves
  have hbooked : Booked input f now economic
      (flowDeductions f.unsettledFlows ++ fixedDeductions f p) (b, reserves) := by
    refine foldlM_inv (P := Booked input f now economic _)
      (fun _ _ _ hbundle hs h => hs.bundle hbundle h) ?_ hbundles
    obtain ⟨hbooks, who, hwho, -⟩ := hsettled
    exact ⟨[], who, fun h hh => absurd hh not_mem_nil, by simpa using hbooks, hwho⟩
  obtain ⟨holds, who, hholds, hbooks', hwho⟩ := hbooked
  have hready : Ready f (b, reserves) :=
    foldlM_inv (P := Ready f) (fun _ _ _ _ hs h => hs.bundle h)
      (Ready.open hbooks.fact (openBalance_even hopen) hreserves) hbundles
  rw [hwho.values] at happlied
  have hkeys : ∀ k ∈ reserves.keys, ∃ r, reserves.get? k = some r :=
    fun k hk => SortedMap.mem_keys_iff.mp hk
  obtain ⟨paid, hpaid, hwhole, hbooks''⟩ := hbooks'.reserves (fun x hx => by
    obtain ⟨k, hk, rfl⟩ := mem_map.mp hx
    obtain ⟨r, hr⟩ := hkeys k hk
    rw [(hwho.kept k r hr).2]
    exact hready.nonneg k r hr) happlied
  have hsame : d = c := by
    unfold applyCredit at hcredit
    rw [if_neg (by rw [hbooks''.fact, hcash]; decide)] at hcredit
    cases hcredit
    rfl
  subst hsame
  unfold refresh at hrefresh
  rw [if_pos rfl] at hrefresh
  obtain ⟨shortfall, -, hrefresh⟩ := bind_ok.mp hrefresh
  cases hrefresh
  obtain ⟨hfact, hpolicy⟩ := hkept
  dsimp only at hfact hpolicy
  have hclaimants : ∀ x ∈ paid, ∃ k r, reserves.get? k = some r ∧ who k = x.claimant := by
    intro x hx
    have hmem : x.claimant ∈ reserves.keys.map who := hpaid ▸ mem_map_of_mem hx
    obtain ⟨k, hk, hwhok⟩ := mem_map.mp hmem
    obtain ⟨r, hr⟩ := hkeys k hk
    exact ⟨k, r, hr, hwhok⟩
  have hordered : deductedBacking (flowDeductions f.unsettledFlows ++ fixedDeductions f p ++
      holds.map (·.deduction f) ++ paid.flatMap (·.deductions f)) ≤ deductedTotal _ :=
    deductedBacking_le (explained_nonneg hwhole)
  have hhead : (d.head : Int) = _ := hbooks''.head
  have hbacking : (d.backing : Int) = _ := hbooks''.backing
  refine ⟨holds, paid,
    { deductions := ?_, recorded := ?_, headroom := rfl, capacity := rfl, head := ?_, backing := ?_
      ordered := ?_, flows := ?_, held := ?_, stands := ?_, apart := ?_, once := ?_ }⟩
  · dsimp only
    rw [hfact, hpolicy, hbooks''.written]
  · dsimp only
    rw [hfact, hbooks''.recorded]
  · dsimp only
    rw [hfact, hbooks''.written, hhead]
  · dsimp only
    rw [hfact, hbooks''.written, hbacking]
  · dsimp only
    omega
  · dsimp only
    rwa [hfact]
  · dsimp only
    rwa [hfact]
  · intro x hx
    obtain ⟨k, r, hr, hwhok⟩ := hclaimants x hx
    dsimp only
    rw [hfact, ← hwhok]
    exact ⟨hwho.stands k r hr, hwhole x hx⟩
  · intro x hx flow hflow hout heq
    dsimp only at hflow
    rw [hfact] at hflow
    obtain ⟨k, r, hr, hwhok⟩ := hclaimants x hx
    have hsome := houtflows flow hflow hout
    rw [heq, ← hwhok, hwho.apart k r hr] at hsome
    cases hsome
  · have hpairs : (reserves.keys.map who).Pairwise fun c c' =>
        c.identity = c'.identity → ScopedApart c c' := by
      refine pairwise_map.mpr (reserves.nodup_keys.imp_of_mem fun hk hk' hne hidentity => ?_)
      obtain ⟨r, hr⟩ := hkeys _ hk
      obtain ⟨r', hr'⟩ := hkeys _ hk'
      exact hwho.once hr hr' hne hidentity
    rw [← hpaid] at hpairs
    exact pairwise_map.mp hpairs

theorem prepareAccount_explained (hcash : f.kind = .cash)
    (hknown : (prepareAccount f p input categories now funded).1.known = true) :
    ∃ holds paid,
      Explained input now holds paid (prepareAccount f p input categories now funded).1 := by
  unfold prepareAccount at hknown ⊢
  dsimp only at hknown ⊢
  split
  · rename_i hcoverage
    rw [if_pos hcoverage] at hknown
    cases hknown
  · rename_i hcoverage
    rw [if_neg hcoverage] at hknown
    split
    · rename_i heligible
      rw [if_pos heligible] at hknown
      cases hknown
    · rename_i heligible
      rw [if_neg heligible] at hknown
      cases hsteps : prepareSteps input categories now funded (openingCash f p) with
      | error stop =>
        rw [hsteps] at hknown
        cases hknown
      | ok r => exact prepareSteps_explained hcash hsteps

end Explained

def heldOnChecking (id : String) : LiquidityClaimBundle where
  id := id
  creationSnapshotId := "snapshot"
  creationPolicyVersion := "1"
  state := .active
  expiresAt := "2026-02-01T00:00:00Z"
  initiated := true
  effects :=
    [{ kind := .destinationHold, resourceId := "checking", amount := usd (.ofInt 5)
       economicObligationId := "incoming", sourceEconomicObligationId := none, categoryId := none
       includedInBalance := true, matchedTransactionIds := [] }]

def heldTwice : LiquidityInput :=
  { household with claimSet := ⟨"1", [heldOnChecking "first", heldOnChecking "second"]⟩ }

end BalanceFrame.Liquidity
