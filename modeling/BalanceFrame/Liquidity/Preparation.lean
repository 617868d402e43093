import BalanceFrame.Liquidity.Identities

/-!
# Preparing an account again

What the steps of `prepare_account` keep, and which of them look at the clock. Time only enters
through the evidence a step consults and through the active claims; the shared totals of funded
categories move amounts between the head's and the backing's deductions, never the head.
-/

namespace BalanceFrame.Liquidity

open Library Option

/-! ## Facts and policies are kept -/

/-- The account is that of a fact and a policy. -/
def Cash.Of (f : AccountLiquidityFact) (p : AccountLiquidityPolicy) (a : Cash) : Prop :=
  a.fact = f ∧ a.policy = p

/-- Whether it succeeds or stops, a step leaves an account of the fact and the policy. -/
def Keeps {α : Type} (f : AccountLiquidityFact) (p : AccountLiquidityPolicy) (view : α → Cash)
    (x : Prep α) : Prop :=
  match x with
  | .ok v => (view v).Of f p
  | .error stop => stop.account.Of f p

section Keeps

variable {α β : Type} {f : AccountLiquidityFact} {p : AccountLiquidityPolicy} {a : Cash}
  {view : α → Cash} {view' : β → Cash}

theorem Keeps.bind {x : Prep α} {g : α → Prep β} (hx : Keeps f p view x)
    (hg : ∀ v, (view v).Of f p → Keeps f p view' (g v)) : Keeps f p view' (x >>= g) := by
  cases x with
  | error stop => exact hx
  | ok v => exact hg v hx

theorem Keeps.check {x : Checked α} {g : α → Prep β} (ha : a.Of f p)
    (hg : ∀ v, Keeps f p view' (g v)) : Keeps f p view' (stopAt a x >>= g) := by
  cases x with
  | error reason => exact ha
  | ok v => exact hg v

theorem Keeps.fold {γ : Type} {step : α → γ → Prep α} {l : List γ} {v : α}
    (hstep : ∀ v c, (view v).Of f p → Keeps f p view (step v c)) (hv : (view v).Of f p) :
    Keeps f p view (l.foldlM step v) := by
  induction l generalizing v with
  | nil => exact hv
  | cons c l ih =>
    rw [List.foldlM_cons]
    exact (hstep v c hv).bind fun w hw => ih hw

theorem keeps_deduct {n : I64} {reason id : String} {backing : Bool} (ha : a.Of f p) :
    Keeps f p (fun a => a) (deduct a n reason id backing) :=
  Keeps.check ha fun _ => Keeps.check ha fun _ => ha

theorem keeps_recordFlow {s : Cash × Economic} {flow : UnsettledFlow} (hs : s.1.Of f p) :
    Keeps f p (fun s : Cash × Economic => s.1) (recordFlow s flow) := by
  refine Keeps.check hs fun _ => Keeps.check hs fun _ => ?_
  have hexclude : ∀ n, Keeps f p (fun a => a) (excludeFlow s.1 flow n) := by
    intro n
    unfold excludeFlow
    split
    · exact Keeps.check hs fun _ => hs
    · exact hs
  exact (hexclude _).bind fun a ha => ha

theorem keeps_openBalance (ha : a.Of f p) :
    Keeps f p (fun s : Cash × Economic => s.1) (openBalance a) := by
  unfold openBalance
  refine Keeps.check ha fun adjusted => Keeps.check ha fun _ => Keeps.check ha fun _ =>
    Keeps.check ha fun _ => ?_
  refine (Keeps.fold (fun _ _ => keeps_recordFlow) ha).bind fun s hs => ?_
  refine Keeps.check hs fun _ => Keeps.bind (keeps_deduct hs) fun b hb => ?_
  exact Keeps.check hb fun _ => (keeps_deduct hb).bind fun c hc => hc

variable {economic : Economic}

theorem keeps_reserveObligation {horizonEnd : Instant} {s : Cash × Reserves}
    {o : CashObligation} (hs : s.1.Of f p) :
    Keeps f p (fun s : Cash × Reserves => s.1) (reserveObligation economic horizonEnd s o) := by
  refine Keeps.check hs fun n => Keeps.check hs fun due => ?_
  split
  · exact hs
  · have ha : (if (bytes o.dueAt).length = 10 then
        s.1.addReason "date_only_obligation_reserved_conservatively" else s.1).Of f p := by
      split <;> exact hs
    generalize (if (bytes o.dueAt).length = 10 then
        s.1.addReason "date_only_obligation_reserved_conservatively" else s.1) = a at ha
    dsimp only
    split
    · exact Keeps.check ha fun _ => ha
    · split
      · exact Keeps.check ha fun _ => ha
      · split
        · exact Keeps.check ha fun _ => ha
        · exact ha

theorem keeps_openReserves {input : LiquidityInput} {now : Instant} (ha : a.Of f p) :
    Keeps f p (fun s : Cash × Reserves => s.1) (openReserves input now economic a) := by
  refine Keeps.check ha fun horizonEnd => ?_
  refine (Keeps.fold (fun _ _ => keeps_reserveObligation) ha).bind fun s hs => ?_
  exact Keeps.check hs fun _ => Keeps.check hs fun _ => hs

theorem keeps_applyEffect {bundleId : String} {s : Cash × Reserves}
    {e : LiquidityClaimEffect} (hs : s.1.Of f p) :
    Keeps f p (fun s : Cash × Reserves => s.1) (applyEffect economic bundleId s e) := by
  unfold applyEffect
  split
  · exact hs
  · refine Keeps.check hs fun n => Keeps.check hs fun matchedId => Keeps.check hs fun _ => ?_
    split
    · have hhold : Keeps f p (fun a => a)
          (holdDestination s.1 e n (matchingFlow s.1.fact matchedId e) bundleId) := by
        unfold holdDestination
        split
        · exact Keeps.check hs fun _ => keeps_deduct hs
        · exact hs
      exact hhold.bind fun a ha => ha
    · refine Keeps.check hs fun _ => ?_
      split
      · exact hs
      · exact Keeps.check hs fun _ => hs

theorem keeps_applyBundle {now : Instant} {s : Cash × Reserves}
    {b : LiquidityClaimBundle} (hs : s.1.Of f p) :
    Keeps f p (fun s : Cash × Reserves => s.1) (applyBundle economic now s b) := by
  refine Keeps.check hs fun isActive => ?_
  split
  · exact Keeps.fold (fun _ _ => keeps_applyEffect) hs
  · exact hs

theorem keeps_applyReserve {input : LiquidityInput} {categories : Categories} {now : Instant}
    {s : Cash × Amounts} {r : Reserve} (hs : s.1.Of f p) :
    Keeps f p (fun s : Cash × Amounts => s.1) (applyReserve input categories now s r) := by
  refine Keeps.check hs fun covered => (keeps_deduct hs).bind fun a ha => ?_
  exact Keeps.check ha fun _ => (keeps_deduct ha).bind fun b hb => hb

theorem keeps_prepareSteps {input : LiquidityInput} {categories : Categories} {now : Instant}
    {funded : Amounts} (ha : a.Of f p) :
    Keeps f p (fun s : Cash × Amounts => s.1) (prepareSteps input categories now funded a) := by
  refine Keeps.check ha fun _ => (keeps_openBalance ha).bind fun s hs => ?_
  refine (keeps_openReserves hs).bind fun s hs => ?_
  refine (Keeps.fold (fun _ _ => keeps_applyBundle) hs).bind fun s hs => ?_
  refine (Keeps.fold (fun _ _ => keeps_applyReserve) hs).bind fun s hs => ?_
  have hcredit : Keeps f p (fun a => a)
      (applyCredit s.1 now input.maxBudgetSnapshotAgeMinutes) := by
    unfold applyCredit
    split
    · exact Keeps.check hs fun _ => hs
    · exact hs
  refine hcredit.bind fun b hb => ?_
  have hrefresh : Keeps f p (fun a => a) (refresh { b with known := true }) :=
    Keeps.check hb fun _ => hb
  exact hrefresh.bind fun c hc => hc

end Keeps

theorem prepareAccount_origin (f : AccountLiquidityFact) (p : AccountLiquidityPolicy)
    (input : LiquidityInput) (categories : Categories) (now : Instant) (funded : Amounts) :
    (prepareAccount f p input categories now funded).1.Of f p := by
  have hopening : (openingCash f p).Of f p := ⟨rfl, rfl⟩
  unfold prepareAccount
  dsimp only
  split
  · exact hopening
  · split
    · exact hopening
    · have hsteps : Keeps f p (fun s : Cash × Amounts => s.1)
          (prepareSteps input categories now funded (openingCash f p)) :=
        keeps_prepareSteps hopening
      split
      · rename_i a used hok
        rw [hok] at hsteps
        exact hsteps
      · rename_i stop herror
        rw [herror] at hsteps
        exact hsteps

/-! ## What is reserved -/

theorem deduct_ok {a b : Cash} {n : I64} {reason id : String} {backing : Bool}
    (h : deduct a n reason id backing = .ok b) :
    b.fact = a.fact ∧ (b.head : Int) = a.head - n ∧
      (b.backing : Int) = a.backing - if backing = true then (n : Int) else 0 := by
  obtain ⟨head, hhead, h⟩ := bind_ok.mp h
  obtain ⟨backed, hbacked, h⟩ := bind_ok.mp h
  cases h
  refine ⟨rfl, sub_eq_ok.mp (stopAt_eq_ok.mp hhead), ?_⟩
  cases backing with
  | true => exact sub_eq_ok.mp (stopAt_eq_ok.mp hbacked)
  | false =>
    cases hbacked
    exact (Int.sub_zero _).symm

theorem exists_deduct {a : Cash} {n : I64} {reason id : String} {backing : Bool}
    (hhead : InI64 ((a.head : Int) - n)) (hbacking : backing = true → InI64 ((a.backing : Int) - n)) :
    ∃ b, deduct a n reason id backing = .ok b := by
  unfold deduct
  obtain ⟨head, hhead, -⟩ := exists_sub_ok hhead
  rw [hhead, stopAt_ok, ok_bind]
  cases backing with
  | false => exact ⟨_, rfl⟩
  | true =>
    obtain ⟨backed, hbacked, -⟩ := exists_sub_ok (hbacking rfl)
    dsimp only
    rw [if_pos rfl, hbacked]
    exact ⟨_, rfl⟩

/-- An account of a fact whose head and backing are even, and reserves that are not negative. -/
structure Ready (f : AccountLiquidityFact) (s : Cash × Reserves) : Prop where
  fact : s.1.fact = f
  even : (s.1.head : Int) = s.1.backing
  nonneg : ∀ id r, s.2.get? id = some r → 0 ≤ (r.amount : Int)

section Ready

variable {f : AccountLiquidityFact} {s s' : Cash × Reserves}

theorem Ready.insert {id : String} {r : Reserve} {a : Cash} (hs : Ready f s)
    (hr : 0 ≤ (r.amount : Int)) (ha : a.fact = f) (heven : (a.head : Int) = a.backing) :
    Ready f (a, s.2.insert id r) := by
  refine ⟨ha, heven, fun other old hold => ?_⟩
  rw [SortedMap.get?_insert] at hold
  split at hold
  · obtain rfl := some.inj hold
    exact hr
  · exact hs.nonneg other old hold

variable {economic : Economic}

theorem openBalance_even {a b : Cash} (h : openBalance a = .ok (b, economic)) :
    (b.head : Int) = b.backing := by
  unfold openBalance at h
  simp only [bind_ok, pure_ok] at h
  obtain ⟨adjusted, -, -, -, -, -, -, -, ⟨a₁, e₁⟩, -, buffer, -, a₂, hbuffer, holds, -, a₃, hholds,
    h⟩ := h
  cases h
  obtain ⟨-, hhead, hbacking⟩ := deduct_ok hbuffer
  obtain ⟨-, hhead', hbacking'⟩ := deduct_ok hholds
  simp only [if_true] at hbacking hbacking'
  dsimp only at hhead hbacking
  omega

theorem Ready.obligation {horizonEnd : Instant} {o : CashObligation}
    (hs : Ready f s) (h : reserveObligation economic horizonEnd s o = .ok s') : Ready f s' := by
  obtain ⟨n, hn, h⟩ := bind_ok.mp h
  obtain ⟨due, -, h⟩ := bind_ok.mp h
  have hnonneg := units_nonneg (stopAt_eq_ok.mp hn)
  split at h
  · cases h
    exact hs
  · have ha : (if (bytes o.dueAt).length = 10 then
        s.1.addReason "date_only_obligation_reserved_conservatively" else s.1).fact = f ∧
        ((if (bytes o.dueAt).length = 10 then
          s.1.addReason "date_only_obligation_reserved_conservatively" else s.1).head : Int) =
        (if (bytes o.dueAt).length = 10 then
          s.1.addReason "date_only_obligation_reserved_conservatively" else s.1).backing := by
      split <;> exact ⟨hs.fact, hs.even⟩
    generalize (if (bytes o.dueAt).length = 10 then
        s.1.addReason "date_only_obligation_reserved_conservatively" else s.1) = a at ha h
    obtain ⟨hfact, heven⟩ := ha
    dsimp only at h
    split at h
    · obtain ⟨-, h⟩ := rest_ok h
      cases h
      exact ⟨hfact, heven, hs.nonneg⟩
    · split at h
      · obtain ⟨-, h⟩ := rest_ok h
        cases h
        exact ⟨hfact, heven, hs.nonneg⟩
      · split at h
        · obtain ⟨-, h⟩ := rest_ok h
          cases h
          exact ⟨hfact, heven, hs.nonneg⟩
        · cases h
          exact hs.insert hnonneg hfact heven

theorem Ready.card {now : Instant} {maxAge : Nat} {card : AccountLiquidityFact}
    {reserves : Reserves} (hs : Ready f s)
    (h : reserveCard f economic now maxAge s.2 card = .ok reserves) : Ready f (s.1, reserves) := by
  unfold reserveCard at h
  split at h
  · cases h
    exact hs
  · split at h
    · cases h
      exact hs
    · obtain ⟨-, h⟩ := rest_ok h
      obtain ⟨n, hn, h⟩ := bind_ok.mp h
      split at h
      · cases h
        exact hs
      · split at h
        · obtain ⟨-, h⟩ := rest_ok h
          cases h
          exact hs
        · cases h
          exact hs.insert (units_nonneg hn) hs.fact hs.even

theorem Ready.effect {bundleId : String} {e : LiquidityClaimEffect}
    (hs : Ready f s) (h : applyEffect economic bundleId s e = .ok s') : Ready f s' := by
  unfold applyEffect at h
  split at h
  · cases h
    exact hs
  · obtain ⟨n, hn, h⟩ := bind_ok.mp h
    obtain ⟨matchedId, -, h⟩ := bind_ok.mp h
    obtain ⟨-, h⟩ := rest_ok h
    have hnonneg := units_nonneg (stopAt_eq_ok.mp hn)
    split at h
    · obtain ⟨a, ha, h⟩ := bind_ok.mp h
      cases h
      unfold holdDestination at ha
      split at ha
      · obtain ⟨adjusted, -, ha⟩ := bind_ok.mp ha
        obtain ⟨hfact, hhead, hbacking⟩ := deduct_ok ha
        have heven := hs.even
        simp only [if_true] at hbacking
        exact ⟨hfact.trans hs.fact, by dsimp only at hhead hbacking ⊢; omega, hs.nonneg⟩
      · cases ha
        exact hs
    · obtain ⟨-, h⟩ := rest_ok h
      split at h
      · cases h
        exact hs
      · obtain ⟨reserves, hreserves, h⟩ := bind_ok.mp h
        cases h
        have hreserves := stopAt_eq_ok.mp hreserves
        unfold reserveEffect at hreserves
        split at hreserves
        · obtain ⟨-, hreserves⟩ := rest_ok hreserves
          cases hreserves
          exact hs
        · cases hreserves
          exact hs.insert hnonneg hs.fact hs.even

theorem Ready.bundle {now : Instant} {b : LiquidityClaimBundle}
    (hs : Ready f s) (h : applyBundle economic now s b = .ok s') : Ready f s' := by
  obtain ⟨answer, -, h⟩ := bind_ok.mp h
  split at h
  · exact foldlM_inv (fun _ _ _ _ hs h => Ready.effect hs h) hs h
  · cases h
    exact hs

theorem Ready.open {input : LiquidityInput} {now : Instant} {a : Cash}
    (ha : a.fact = f) (heven : (a.head : Int) = a.backing)
    (h : openReserves input now economic a = .ok s) : Ready f s := by
  obtain ⟨horizonEnd, -, h⟩ := bind_ok.mp h
  obtain ⟨s₁, hobligations, h⟩ := bind_ok.mp h
  obtain ⟨-, h⟩ := rest_ok h
  obtain ⟨reserves, hcards, h⟩ := bind_ok.mp h
  cases h
  have hready : Ready f s₁ := foldlM_inv (P := Ready f) (fun _ _ _ _ hs h => hs.obligation h)
    ⟨ha, heven, fun id r hr => by simp at hr⟩ hobligations
  have hcards := stopAt_eq_ok.mp hcards
  rw [hready.fact] at hcards
  exact foldlM_inv (P := fun reserves => Ready f (s₁.1, reserves))
    (fun reserves _ _ _ hs h => Ready.card (s := (s₁.1, reserves)) hs h) hready hcards

end Ready

/-! ## The totals of funded categories -/

/-- Of every category, no more is used than it has. -/
def Bounded (categories : Categories) (used : Amounts) : Prop :=
  ∀ c ∈ categories.values, 0 ≤ (((used.get? c.cashBucketId).getD 0 : I64) : Int) ∧
    (((used.get? c.cashBucketId).getD 0 : I64) : Int) ≤ max 0 (c.availability.minorUnits : Int)

theorem bounded_empty (categories : Categories) : Bounded categories SortedMap.empty :=
  fun _ _ => ⟨le_rfl, le_max_left _ _⟩

section Covering

variable {input : LiquidityInput} {categories : Categories} {now t : Instant} {currency : String}
  {used used' : Amounts} {r : Reserve} {covered : I64}

theorem value_eq_of_bucket (hkeyed : Keyed categories) {c c' : CategoryLiquidityFact}
    (hc : c ∈ categories.values) (hc' : c' ∈ categories.values)
    (h : c.cashBucketId = c'.cashBucketId) : c = c' := by
  obtain ⟨b, hb⟩ := SortedMap.mem_values_iff.mp hc
  obtain ⟨b', hb'⟩ := SortedMap.mem_values_iff.mp hc'
  have hsame : b = b' := by rw [← hkeyed b c hb, ← hkeyed b' c' hb', h]
  subst hsame
  exact some.inj (hb.symm.trans hb')

theorem coverReserve_ok (hkeyed : Keyed categories) (hused : Bounded categories used)
    (hr : 0 ≤ (r.amount : Int))
    (h : coverReserve input categories now currency used r = .ok (covered, used')) :
    0 ≤ (covered : Int) ∧ (covered : Int) ≤ r.amount ∧ Bounded categories used' := by
  unfold coverReserve at h
  split at h
  · cases h
    exact ⟨le_rfl, hr, hused⟩
  · obtain ⟨c, hc, h⟩ := bind_ok.mp h
    obtain ⟨-, h⟩ := rest_ok h
    obtain ⟨available, havailable, h⟩ := bind_ok.mp h
    obtain ⟨left, hleft, h⟩ := bind_ok.mp h
    obtain ⟨after, hafter, h⟩ := bind_ok.mp h
    cases h
    have hmem := currentCategory_mem (orStop_ok.mp hc)
    obtain ⟨hlow, hhigh⟩ := hused c hmem
    obtain ⟨-, -, -, rfl⟩ := units_eq_ok.mp havailable
    have hleft := sub_eq_ok.mp hleft
    have hafter := add_eq_ok.mp hafter
    rw [I64.coe_clamp] at hleft
    rw [I64.coe_least, I64.coe_clamp] at hafter ⊢
    refine ⟨by omega, by omega, fun c' hc' => ?_⟩
    rw [SortedMap.get?_insert]
    split
    · rename_i hbucket
      obtain rfl := value_eq_of_bucket hkeyed hmem hc' hbucket
      rw [getD_some, hafter]
      omega
    · exact hused c' hc'

theorem coverReserve_later {used₂ : Amounts}
    (hcategories : ∀ c ∈ categories.values,
      known c.evidence now input.maxBudgetSnapshotAgeMinutes = .ok () →
        known c.evidence t input.maxBudgetSnapshotAgeMinutes = .ok ())
    (hused : Bounded categories used₂) (hr : 0 ≤ (r.amount : Int))
    (h : coverReserve input categories now currency used r = .ok (covered, used')) :
    ∃ result, coverReserve input categories t currency used₂ r = .ok result := by
  unfold coverReserve at h ⊢
  split at h
  · exact ⟨_, rfl⟩
  · obtain ⟨c, hc, h⟩ := bind_ok.mp h
    obtain ⟨_, hknown, h⟩ := bind_ok.mp h
    obtain ⟨available, havailable, h⟩ := bind_ok.mp h
    have hmem := currentCategory_mem (orStop_ok.mp hc)
    obtain ⟨hlow, hhigh⟩ := hused c hmem
    obtain ⟨-, -, -, hunits⟩ := units_eq_ok.mp havailable
    rw [hc, ok_bind, hcategories c hmem hknown, ok_bind, havailable, ok_bind]
    have hclamp : (available.clamp : Int) = max 0 (c.availability.minorUnits : Int) := by
      rw [I64.coe_clamp, hunits]
    have hmax := available.clamp.2
    obtain ⟨left, hleft, hleftv⟩ := exists_sub_ok (a := available.clamp)
      (b := (used₂.get? c.cashBucketId).getD 0) (by unfold InI64 at hmax ⊢; omega)
    have hcovered : ((r.amount.least left.clamp : I64) : Int) = min (r.amount : Int) (max 0 left) := by
      rw [I64.coe_least, I64.coe_clamp]
    obtain ⟨after, hafter, -⟩ := exists_add_ok (a := (used₂.get? c.cashBucketId).getD 0)
      (b := r.amount.least left.clamp)
      (by unfold InI64 at hmax ⊢; omega)
    dsimp only
    rw [hleft, ok_bind, hafter]
    exact ⟨_, rfl⟩

end Covering

/-! ## Preparing later -/

/-- The evidence, if it is known now, is known at `t`. -/
def Lasts (now t : Instant) (maxAge : Nat) (e : FactEvidence) : Prop :=
  known e now maxAge = .ok () → known e t maxAge = .ok ()

/-- Two accounts of one fact with equal heads; the second's backing is no lower than its head. -/
structure Trails (a x : Cash) : Prop where
  fact : x.fact = a.fact
  head : (x.head : Int) = a.head
  backing : (x.head : Int) ≤ x.backing

section Later

variable {input : LiquidityInput} {categories : Categories} {now t : Instant}

theorem applyReserve_later (hkeyed : Keyed categories)
    (hcategories : ∀ c ∈ categories.values,
      Lasts now t input.maxBudgetSnapshotAgeMinutes c.evidence)
    {s s' x : Cash × Amounts} {r : Reserve} (hr : 0 ≤ (r.amount : Int))
    (hs : Bounded categories s.2) (hx : Bounded categories x.2) (hsame : Trails s.1 x.1)
    (h : applyReserve input categories now s r = .ok s') :
    Bounded categories s'.2 ∧ ∃ x', applyReserve input categories t x r = .ok x' ∧
      Bounded categories x'.2 ∧ Trails s'.1 x'.1 := by
  obtain ⟨⟨covered, used⟩, hcover, h⟩ := bind_ok.mp h
  obtain ⟨a₁, hfirst, h⟩ := bind_ok.mp h
  obtain ⟨rest, hrest, h⟩ := bind_ok.mp h
  obtain ⟨a₂, hsecond, h⟩ := bind_ok.mp h
  cases h
  have hcover := stopAt_eq_ok.mp hcover
  have hrest := sub_eq_ok.mp (stopAt_eq_ok.mp hrest)
  obtain ⟨-, -, hused⟩ := coverReserve_ok hkeyed hs hr hcover
  obtain ⟨hfact₁, hhead₁, -⟩ := deduct_ok hfirst
  obtain ⟨hfact₂, hhead₂, -⟩ := deduct_ok hsecond
  obtain ⟨hfact, hhead, hbacking⟩ := hsame
  obtain ⟨⟨covered', used'⟩, hcover'⟩ := coverReserve_later hcategories hx hr hcover
  rw [← hfact] at hcover'
  obtain ⟨hlow, hhigh, hused'⟩ := coverReserve_ok hkeyed hx hr hcover'
  have hmin := a₂.head.min_le
  have hmax := x.1.backing.le_max
  have hmaxHead := x.1.head.le_max
  obtain ⟨b₁, hb₁⟩ : ∃ b, deduct x.1 covered' "funded_category_obligation" r.id false = .ok b :=
    exists_deduct (by unfold InI64; omega) nofun
  obtain ⟨hbfact₁, hbhead₁, hbbacking₁⟩ := deduct_ok hb₁
  simp only [Bool.false_eq_true, if_false, Int.sub_zero] at hbbacking₁
  have hmaxAmount := r.amount.le_max
  obtain ⟨rest', hrest', hrestv⟩ := exists_sub_ok (a := r.amount) (b := covered')
    (by unfold InI64; omega)
  obtain ⟨b₂, hb₂⟩ : ∃ b, deduct b₁ rest' "unbacked_obligation_reserve" r.id true = .ok b :=
    exists_deduct (by unfold InI64; omega) fun _ => by unfold InI64; omega
  obtain ⟨hbfact₂, hbhead₂, hbbacking₂⟩ := deduct_ok hb₂
  simp only [if_true] at hbbacking₂
  refine ⟨hused, (b₂, used'), ?_, hused', ?_⟩
  · unfold applyReserve
    rw [hcover', stopAt_ok, ok_bind]
    dsimp only
    rw [hb₁, ok_bind, hrest', stopAt_ok, ok_bind, hb₂]
    rfl
  · have hheads : (b₂.head : Int) = a₂.head := by omega
    have hbackings : (b₂.head : Int) ≤ b₂.backing := by omega
    exact ⟨by rw [hbfact₂, hbfact₁, hfact, hfact₂, hfact₁], hheads, hbackings⟩

theorem applyReserves_later (hkeyed : Keyed categories)
    (hcategories : ∀ c ∈ categories.values,
      Lasts now t input.maxBudgetSnapshotAgeMinutes c.evidence) :
    ∀ {l : List Reserve} {s s' x : Cash × Amounts}, (∀ r ∈ l, 0 ≤ (r.amount : Int)) →
      Bounded categories s.2 → Bounded categories x.2 → Trails s.1 x.1 →
      l.foldlM (applyReserve input categories now) s = .ok s' →
      Bounded categories s'.2 ∧ ∃ x', l.foldlM (applyReserve input categories t) x = .ok x' ∧
        Trails s'.1 x'.1
  | [], s, s', x, _, hs, _, hsame, h => by
    cases h
    exact ⟨hs, x, rfl, hsame⟩
  | r :: l, s, s', x, hl, hs, hx, hsame, h => by
    obtain ⟨s₁, hfirst, h⟩ := foldlM_cons_ok.mp h
    obtain ⟨hs₁, x₁, hx₁, hbounded, hsame₁⟩ :=
      applyReserve_later hkeyed hcategories (hl r List.mem_cons_self) hs hx hsame hfirst
    obtain ⟨hs', x', hx', hsame'⟩ := applyReserves_later hkeyed hcategories
      (fun r hr => hl r (List.mem_cons_of_mem _ hr)) hs₁ hbounded hsame₁ h
    exact ⟨hs', x', foldlM_cons_ok.mpr ⟨x₁, hx₁, hx'⟩, hsame'⟩

variable {maxAge : Nat} {economic : Economic}

theorem checkEvidence_later {f : AccountLiquidityFact}
    (hevidence : ∀ e ∈ accountEvidence f, Lasts now t maxAge e)
    (h : checkEvidence f now maxAge = .ok ()) : checkEvidence f t maxAge = .ok () := by
  obtain ⟨_, hknown, h⟩ := bind_ok.mp h
  refine bind_ok.mpr ⟨(), forM_eq_ok.mpr fun e he => ?_, h⟩
  exact hevidence e he (forM_eq_ok.mp hknown e he)

theorem reserveCard_later {f card : AccountLiquidityFact} {reserves reserves' : Reserves}
    (hcard : ∀ credit, card.credit = some credit → credit.paymentAccountId = f.accountId →
      Lasts now t maxAge credit.evidence)
    (h : reserveCard f economic now maxAge reserves card = .ok reserves') :
    reserveCard f economic t maxAge reserves card = .ok reserves' := by
  unfold reserveCard at h ⊢
  split at h
  · exact h
  · rename_i credit hcredit
    split at h
    · rename_i hother
      rw [if_pos hother]
      exact h
    · rename_i hpays
      rw [if_neg hpays]
      obtain ⟨_, hknown, h⟩ := bind_ok.mp h
      exact bind_ok.mpr ⟨(), hcard credit hcredit (by simpa using hpays) hknown, h⟩

theorem known_of_reserveCard {f card : AccountLiquidityFact}
    {reserves reserves' : Reserves} {credit : CreditLiquidityFact}
    (hcredit : card.credit = some credit) (hpays : credit.paymentAccountId = f.accountId)
    (h : reserveCard f economic now maxAge reserves card = .ok reserves') :
    known credit.evidence now maxAge = .ok () := by
  unfold reserveCard at h
  rw [hcredit] at h
  dsimp only at h
  rw [if_neg (by simp [hpays])] at h
  obtain ⟨_, hknown, -⟩ := bind_ok.mp h
  exact hknown

theorem openReserves_later {f : AccountLiquidityFact} {a : Cash}
    {s : Cash × Reserves} (ha : a.fact = f)
    (hcards : ∀ card ∈ input.facts.elim [] (·.accounts), ∀ credit, card.credit = some credit →
      credit.paymentAccountId = f.accountId →
        Lasts now t input.maxBudgetSnapshotAgeMinutes credit.evidence)
    (h : openReserves input now economic a = .ok s) : openReserves input t economic a = .ok s := by
  obtain ⟨horizonEnd, hends, h⟩ := bind_ok.mp h
  obtain ⟨s₁, hobligations, h⟩ := bind_ok.mp h
  obtain ⟨u, hschedules, h⟩ := bind_ok.mp h
  obtain ⟨reserves, hreserves, h⟩ := bind_ok.mp h
  have hfact : s₁.1.fact = f := by
    have hkeeps : Keeps f a.policy (fun s : Cash × Reserves => s.1)
        (a.fact.obligations.foldlM (reserveObligation economic horizonEnd) (a, SortedMap.empty)) :=
      Keeps.fold (fun _ _ => keeps_reserveObligation) ⟨ha, rfl⟩
    rw [hobligations] at hkeeps
    exact hkeeps.1
  refine bind_ok.mpr ⟨horizonEnd, hends, bind_ok.mpr ⟨s₁, hobligations,
    bind_ok.mpr ⟨u, hschedules, bind_ok.mpr ⟨reserves, ?_, h⟩⟩⟩⟩
  rw [stopAt_eq_ok, hfact] at hreserves ⊢
  exact foldlM_imp (fun reserves card reserves' hmem hcard =>
    reserveCard_later (hcards card hmem) hcard) hreserves

theorem cardAuthorization_later {f : AccountLiquidityFact} {auth : I64}
    (hcredit : ∀ credit, f.credit = some credit → Lasts now t maxAge credit.evidence)
    (h : cardAuthorization f now maxAge = .ok auth) : cardAuthorization f t maxAge = .ok auth := by
  obtain ⟨credit, hsome, h⟩ := bind_ok.mp h
  obtain ⟨_, hknown, h⟩ := bind_ok.mp h
  exact bind_ok.mpr ⟨credit, hsome,
    bind_ok.mpr ⟨(), hcredit credit (orStop_ok.mp hsome) hknown, h⟩⟩

theorem applyCredit_later {a b x : Cash} (hsame : Trails a x)
    (hcredit : ∀ credit, a.fact.credit = some credit → Lasts now t maxAge credit.evidence)
    (h : applyCredit a now maxAge = .ok b) :
    ∃ y, applyCredit x t maxAge = .ok y ∧ (y.head : Int) = b.head := by
  unfold applyCredit at h ⊢
  rw [hsame.fact]
  split at h
  · rename_i hkind
    rw [if_pos hkind]
    obtain ⟨auth, hauth, h⟩ := bind_ok.mp h
    cases h
    have hauth := cardAuthorization_later hcredit (stopAt_eq_ok.mp hauth)
    rw [hauth]
    exact ⟨_, rfl, rfl⟩
  · rename_i hkind
    rw [if_neg hkind]
    cases h
    exact ⟨x, rfl, hsame.head⟩

theorem refresh_later {a b x : Cash} (hhead : (x.head : Int) = a.head)
    (h : refresh { a with known := true } = .ok b) :
    ∃ y, refresh { x with known := true } = .ok y ∧ y.known = true := by
  have heq : x.head = a.head := I64.ext hhead
  unfold refresh at h ⊢
  rw [if_pos rfl] at h ⊢
  obtain ⟨shortfall, hshortfall, -⟩ := bind_ok.mp h
  have hsame := stopAt_eq_ok.mp hshortfall
  dsimp only at hsame ⊢
  rw [heq, hsame]
  exact ⟨_, rfl, rfl⟩

/-- Everything an account's preparation looks up with the clock stays as it is. -/
structure Steady (input : LiquidityInput) (categories : Categories) (f : AccountLiquidityFact)
    (now t : Instant) : Prop where
  own : ∀ e ∈ accountEvidence f, Lasts now t input.maxBudgetSnapshotAgeMinutes e
  credit : ∀ credit, f.credit = some credit →
    Lasts now t input.maxBudgetSnapshotAgeMinutes credit.evidence
  cards : ∀ card ∈ input.facts.elim [] (·.accounts), ∀ credit, card.credit = some credit →
    credit.paymentAccountId = f.accountId →
      Lasts now t input.maxBudgetSnapshotAgeMinutes credit.evidence
  categories : ∀ c ∈ categories.values, Lasts now t input.maxBudgetSnapshotAgeMinutes c.evidence
  claims : ∀ b ∈ input.claimSet.bundles, active b t = active b now

/-- **What could be prepared can be prepared later**, from any bounded totals. -/
theorem prepareSteps_later {f : AccountLiquidityFact} {p : AccountLiquidityPolicy}
    {funded funded' : Amounts} {r : Cash × Amounts} (hkeyed : Keyed categories)
    (hsteady : Steady input categories f now t) (hfunded : Bounded categories funded)
    (hfunded' : Bounded categories funded')
    (h : prepareSteps input categories now funded (openingCash f p) = .ok r) :
    Bounded categories r.2 ∧
      ∃ r', prepareSteps input categories t funded' (openingCash f p) = .ok r' ∧
        r'.1.known = true := by
  obtain ⟨u, hcheck, h⟩ := bind_ok.mp h
  obtain ⟨⟨a, economic⟩, hopen, h⟩ := bind_ok.mp h
  obtain ⟨s, hreserves, h⟩ := bind_ok.mp h
  obtain ⟨⟨b, reserves⟩, hbundles, h⟩ := bind_ok.mp h
  obtain ⟨⟨c, used⟩, happlied, h⟩ := bind_ok.mp h
  obtain ⟨d, hcredit, h⟩ := bind_ok.mp h
  obtain ⟨e, hrefresh, h⟩ := bind_ok.mp h
  cases h
  have ha : a.fact = f := by
    have hkeeps := keeps_openBalance (f := f) (p := p) (a := openingCash f p) ⟨rfl, rfl⟩
    rw [hopen] at hkeeps
    exact hkeeps.1
  have hready : Ready f s := Ready.open ha (openBalance_even hopen) hreserves
  have hready' : Ready f (b, reserves) :=
    foldlM_inv (P := Ready f) (fun _ _ _ _ hs h => hs.bundle h) hready hbundles
  have hcheck' := checkEvidence_later hsteady.own (stopAt_eq_ok.mp hcheck)
  have hreserves' := openReserves_later ha hsteady.cards hreserves
  have hbundles' : input.claimSet.bundles.foldlM (applyBundle economic t) s = .ok (b, reserves) := by
    refine foldlM_imp (fun s bundle s' hmem hstep => ?_) hbundles
    unfold applyBundle at hstep ⊢
    rwa [hsteady.claims bundle hmem]
  have hnonneg : ∀ r ∈ reserves.values, 0 ≤ (r.amount : Int) := by
    intro r hr
    obtain ⟨id, hid⟩ := SortedMap.mem_values_iff.mp hr
    exact hready'.nonneg id r hid
  obtain ⟨hused, ⟨x, used'⟩, happlied', hsame⟩ := applyReserves_later hkeyed hsteady.categories
    (s := (b, funded)) (x := (b, funded')) hnonneg hfunded hfunded' ⟨rfl, rfl, hready'.even.le⟩ happlied
  have hfact : c.fact = f := by
    have hkeeps : Keeps f b.policy (fun s : Cash × Amounts => s.1)
        (reserves.values.foldlM (applyReserve input categories now) (b, funded)) :=
      Keeps.fold (fun _ _ => keeps_applyReserve) ⟨hready'.fact, rfl⟩
    rw [happlied] at hkeeps
    exact hkeeps.1
  obtain ⟨y, hcredit', hhead⟩ := applyCredit_later hsame (hfact ▸ hsteady.credit) hcredit
  obtain ⟨z, hrefresh', hknown⟩ := refresh_later hhead hrefresh
  refine ⟨hused, (z, used'), ?_, hknown⟩
  unfold prepareSteps
  change (stopAt (openingCash f p) (checkEvidence f t _) >>= _) = _
  rw [hcheck', stopAt_ok, ok_bind, hopen, ok_bind]
  dsimp only
  rw [hreserves', ok_bind, hbundles', ok_bind]
  dsimp only
  rw [happlied', ok_bind]
  dsimp only
  rw [hcredit', ok_bind, hrefresh', ok_bind]
  rfl

end Later

end BalanceFrame.Liquidity
