import BalanceFrame.Purchase.Evaluate

/-!
# Which approvals are covered

An approval is `Covered` when the donor can be divided between what the balance lacks of the
reservation and what the category lacks of the amount. Three early approvals look at one of the two
only: at the minimum of a protected account (`AtMinimum`), at the reservation (`AtReservation`), and
at the category when nothing is reserved (`Unreserved`).
-/

namespace BalanceFrame.Purchase

open Library Liquidity

variable {i : PurchaseInput} {balance remaining : Money}

/-! ## Amounts -/

/-- The donor's amount, zero when absent. -/
def donor (i : PurchaseInput) : Int := (i.donorAvailable.map (·.minorUnits.1)).getD 0

/-- The rollover's amount, zero when absent. -/
def rolloverUnits (i : PurchaseInput) : Int := (i.rolloverAvailable.map (·.minorUnits.1)).getD 0

/-- The minimum and the buffer. -/
def reservation (i : PurchaseInput) : Int :=
  i.policy.minimumBalance.minorUnits + i.policy.bufferAmount.minorUnits

/-- The balance after the purchase. -/
def balanceAfter (i : PurchaseInput) (balance : Money) : Int :=
  balance.minorUnits - i.amount.minorUnits

/-- What the category has for the purchase. -/
def categoryRoom (i : PurchaseInput) : Int :=
  i.categoryBudget.minorUnits - i.categorySpent.minorUnits + rolloverUnits i

/-- What the balance lacks of the reservation. -/
def floorShort (i : PurchaseInput) (balance : Money) : Int := reservation i - balanceAfter i balance

/-- What the category lacks of the amount. -/
def categoryShort (i : PurchaseInput) : Int := i.amount.minorUnits - categoryRoom i

/-- The donor's amount can be divided between the two shortfalls. -/
def Covered (i : PurchaseInput) : Prop :=
  ∃ balance, computeEffectiveBalance i = .ok (some balance) ∧ ∃ d₁ d₂ : Int, 0 ≤ d₁ ∧ 0 ≤ d₂ ∧
    d₁ + d₂ ≤ donor i ∧ reservation i ≤ balanceAfter i balance + d₁ ∧
    i.amount.minorUnits ≤ categoryRoom i + d₂

/-- The donor has both shortfalls. -/
def Fits (i : PurchaseInput) (balance : Money) : Prop :=
  max 0 (floorShort i balance) + max 0 (categoryShort i) ≤ donor i

instance (i : PurchaseInput) (balance : Money) : Decidable (Fits i balance) :=
  inferInstanceAs (Decidable (_ ≤ _))

theorem covered_iff_fits
    (h : computeEffectiveBalance i = .ok (some balance)) : Covered i ↔ Fits i balance := by
  unfold Fits floorShort categoryShort
  constructor
  · rintro ⟨b, hb, d₁, d₂, h₁, h₂, hsum, hfloor, hcategory⟩
    rw [h] at hb
    cases hb
    omega
  · intro hfits
    exact ⟨balance, h, max 0 (reservation i - balanceAfter i balance),
      max 0 (i.amount.minorUnits - categoryRoom i), by omega, by omega, hfits, by omega, by omega⟩

/-! ## Early approvals -/

/-- The minimum of a protected account decides. -/
def Guarded (i : PurchaseInput) (balance : Money) : Prop :=
  i.isProtectedAccount = true ∧ (i.policy.minimumBalance.minorUnits : Int) ≠ 0 ∧
    balanceAfter i balance < i.policy.minimumBalance.minorUnits

/-- The donor has what a protected account lacks of its minimum. -/
def AtMinimum (i : PurchaseInput) (balance : Money) : Prop :=
  Guarded i balance ∧ (i.policy.minimumBalance.minorUnits : Int) ≤ balance.minorUnits ∧
    i.policy.minimumBalance.minorUnits - balanceAfter i balance ≤ donor i

/-- The donor has what the balance lacks of the reservation. -/
def AtReservation (i : PurchaseInput) (balance : Money) : Prop :=
  ¬ Guarded i balance ∧ reservation i ≠ 0 ∧ 0 < floorShort i balance ∧
    floorShort i balance ≤ donor i

/-- Nothing is reserved, and the donor has what the category lacks. -/
def Unreserved (i : PurchaseInput) : Prop := reservation i = 0 ∧ categoryShort i ≤ donor i

/-- No early approval leaves the donor short. -/
def Spared (i : PurchaseInput) : Prop :=
  blocked i = false → ∀ balance, computeEffectiveBalance i = .ok (some balance) →
    Fits i balance ∨ ¬ (AtMinimum i balance ∨ AtReservation i balance ∨ Unreserved i)

/-! ## Stages -/

theorem donorCovers_iff (i : PurchaseInput) (deficit : Money)
    (h : 0 < (deficit.minorUnits : Int)) :
    donorCovers i deficit = true ↔ (deficit.minorUnits : Int) ≤ donor i := by
  unfold donorCovers donor
  cases i.donorAvailable with
  | none => simp [h]
  | some d => simp

/-- The shapes of a stage: it passes on, or returns a verdict. -/
def Stage (o : Option Verdict) (pass approve : Prop) : Prop :=
  match o with
  | none => pass
  | some v => ¬ pass ∧ (v.kind = .approved ↔ approve)

theorem protectedVerdict_stage {projected : Money}
    {o : Option Verdict} (hamount : 0 ≤ (i.amount.minorUnits : Int))
    (hprojected : (projected.minorUnits : Int) = balanceAfter i balance)
    (h : protectedVerdict i balance projected = .ok o) :
    Stage o (¬ Guarded i balance) (AtMinimum i balance) := by
  unfold balanceAfter at hprojected
  unfold protectedVerdict at h
  dsimp only at h
  by_cases hon : i.isProtectedAccount = true ∧ (i.policy.minimumBalance.minorUnits : Int) ≠ 0
  · rw [if_neg (by simp [Money.isZero, hon])] at h
    by_cases hbelow : (balance.minorUnits : Int) < i.policy.minimumBalance.minorUnits
    · rw [if_pos hbelow] at h
      cases h
      refine ⟨fun hpass => hpass ⟨hon.1, hon.2, ?_⟩, ?_⟩
      · unfold balanceAfter
        omega
      · simp only [reduceCtorEq, false_iff]
        exact fun hat => absurd hat.2.1 (not_le.mpr hbelow)
    · rw [if_neg hbelow] at h
      by_cases hless : (projected.minorUnits : Int) < i.policy.minimumBalance.minorUnits
      · rw [if_pos hless] at h
        obtain ⟨deficit, hdeficit, h⟩ := bind_ok.mp h
        cases h
        obtain ⟨-, -, hdeficit⟩ := Money.sub_eq_ok.mp hdeficit
        have hguarded : Guarded i balance := ⟨hon.1, hon.2, by unfold balanceAfter; omega⟩
        refine ⟨fun hpass => hpass hguarded, ?_⟩
        have hcovers := donorCovers_iff i deficit (by omega)
        rw [hdeficit, hprojected] at hcovers
        unfold donorOr
        split
        · rename_i hd
          exact iff_of_true rfl ⟨hguarded, not_lt.mp hbelow, hcovers.mp hd⟩
        · rename_i hd
          exact iff_of_false (by simp) fun hat => hd (hcovers.mpr hat.2.2)
      · rw [if_neg hless] at h
        cases h
        rintro ⟨-, -, hguarded⟩
        unfold balanceAfter at hguarded
        omega
  · rw [if_pos (by simpa [Money.isZero, imp_iff_not_or] using hon)] at h
    cases h
    exact fun hguarded => hon ⟨hguarded.1, hguarded.2.1⟩

theorem reservationVerdict_stage {o : Option Verdict} (h : reservationVerdict i balance = .ok o) :
    Stage o (reservation i = 0 ∨ floorShort i balance ≤ 0) (floorShort i balance ≤ donor i) := by
  unfold reservationVerdict at h
  obtain ⟨reserved, hreserved, h⟩ := bind_ok.mp h
  obtain ⟨-, -, hreserved⟩ := Money.add_eq_ok.mp hreserved
  have hreserved : (reserved.minorUnits : Int) = reservation i := hreserved
  by_cases hzero : reservation i = 0
  · rw [if_pos (by simp [Money.isZero, hreserved, hzero])] at h
    cases h
    exact .inl hzero
  · rw [if_neg (by simp [Money.isZero, hreserved, hzero])] at h
    obtain ⟨after, hafter, h⟩ := bind_ok.mp h
    obtain ⟨remaining, hremaining, h⟩ := bind_ok.mp h
    obtain ⟨-, -, hafter⟩ := Money.sub_eq_ok.mp hafter
    obtain ⟨-, -, hremaining⟩ := Money.sub_eq_ok.mp hremaining
    have hshort : (remaining.minorUnits : Int) = - floorShort i balance := by
      unfold floorShort balanceAfter
      omega
    by_cases hnegative : (remaining.minorUnits : Int) < 0
    · rw [if_pos (by simp [Money.isNegative, hnegative])] at h
      obtain ⟨deficit, hdeficit, h⟩ := bind_ok.mp h
      obtain ⟨n, hn, hdeficit⟩ := bind_ok.mp hdeficit
      cases hdeficit
      have hn := I64.checkedAbs_eq_some (orStop_ok.mp hn)
      rw [abs_of_neg hnegative, hshort, neg_neg] at hn
      have hcovers := donorCovers_iff i ⟨n, remaining.currency⟩ (by rw [hn]; omega)
      simp only [hn] at hcovers
      have hpass : ¬ (reservation i = 0 ∨ floorShort i balance ≤ 0) := by omega
      by_cases hd : donorCovers i ⟨n, remaining.currency⟩ = true
      · rw [if_pos hd] at h
        cases h
        exact ⟨hpass, iff_of_true rfl (hcovers.mp hd)⟩
      · rw [if_neg hd] at h
        obtain ⟨afterMin, -, h⟩ := bind_ok.mp h
        cases h
        refine ⟨hpass, iff_of_false ?_ fun hle => hd (hcovers.mpr hle)⟩
        split <;> simp
    · rw [if_neg (by simp [Money.isNegative, hnegative])] at h
      cases h
      right
      omega

theorem categoryVerdict_approved {v : Verdict}
    (hdonor : 0 ≤ donor i) (hremaining : (remaining.minorUnits : Int) = categoryRoom i)
    (h : categoryVerdict i remaining = .ok v) :
    v.kind = .approved ↔ categoryShort i ≤ donor i := by
  unfold categoryVerdict at h
  unfold categoryShort
  split at h
  · rename_i hless
    cases hd : i.donorAvailable with
    | none =>
      rw [hd] at h
      cases h
      have hnone : donor i = 0 := by
        unfold donor
        rw [hd]
        rfl
      exact iff_of_false (by simp) (by omega)
    | some d =>
      rw [hd] at h
      obtain ⟨deficit, hdeficit, h⟩ := bind_ok.mp h
      obtain ⟨-, -, hdeficit⟩ := Money.sub_eq_ok.mp hdeficit
      cases h
      have hcovers := donorCovers_iff i deficit (by omega)
      rw [hdeficit, hremaining] at hcovers
      split
      · rename_i hd
        exact iff_of_true rfl (hcovers.mp hd)
      · rename_i hd
        exact iff_of_false (by simp) fun hle => hd (hcovers.mpr hle)
  · rename_i hless
    cases h
    exact iff_of_true rfl (by omega)

theorem adjustedRemaining_ok (h : adjustedRemaining i = .ok remaining) :
    (remaining.minorUnits : Int) = categoryRoom i := by
  unfold adjustedRemaining rolloverApplied at h
  obtain ⟨left, hleft, h⟩ := bind_ok.mp h
  obtain ⟨-, -, hleft⟩ := Money.sub_eq_ok.mp hleft
  unfold categoryRoom rolloverUnits
  cases hr : i.rolloverAvailable with
  | none =>
    rw [hr] at h
    cases h
    simp [hleft]
  | some rollover =>
    rw [hr] at h
    by_cases hzero : (rollover.minorUnits : Int) = 0
    · simp only [Option.filter, Money.isZero, hzero, BEq.rfl, Bool.not_true, Bool.false_eq_true,
        if_false, pure_ok, Except.ok.injEq] at h
      subst h
      simp [hleft, hzero]
    · have hnot : (!rollover.isZero) = true := by simp [Money.isZero, hzero]
      simp only [Option.filter, hnot, if_true] at h
      obtain ⟨-, -, hsum⟩ := Money.add_eq_ok.mp h
      rw [hsum, hleft]
      rfl

/-! ## Approvals -/

/-- **Which verdicts approve**: the early approvals, and the category's when the floor stands. -/
theorem verdict_approved_iff {v : Verdict}
    (hamount : 0 ≤ (i.amount.minorUnits : Int)) (hdonor : 0 ≤ donor i)
    (hsemantic : i.semantic ≠ .reimbursement)
    (hremaining : (remaining.minorUnits : Int) = categoryRoom i)
    (h : verdict i (some balance) remaining = .ok v) :
    v.kind = .approved ↔ AtMinimum i balance ∨ AtReservation i balance ∨
      (¬ Guarded i balance ∧ (reservation i = 0 ∨ floorShort i balance ≤ 0) ∧
        categoryShort i ≤ donor i) := by
  unfold verdict at h
  rw [if_neg (by simpa using hsemantic)] at h
  obtain ⟨projected, hprojected, h⟩ := bind_ok.mp h
  obtain ⟨-, -, hprojected⟩ := Money.sub_eq_ok.mp hprojected
  obtain ⟨o, ho, h⟩ := bind_ok.mp h
  have hstage := protectedVerdict_stage hamount hprojected ho
  cases o with
  | some w =>
    cases h
    obtain ⟨hguarded, happrove⟩ := hstage
    rw [happrove]
    unfold AtReservation
    tauto
  | none =>
    have hfree : ¬ Guarded i balance := hstage
    have hnot : ¬ AtMinimum i balance := fun hat => hfree hat.1
    obtain ⟨o, ho, h⟩ := bind_ok.mp h
    have hstage := reservationVerdict_stage ho
    cases o with
    | some w =>
      cases h
      obtain ⟨hshort, happrove⟩ := hstage
      have hshort := not_or.mp hshort
      rw [happrove]
      unfold AtReservation
      have hpos : 0 < floorShort i balance := not_le.mp hshort.2
      tauto
    | none =>
      have hpass : reservation i = 0 ∨ floorShort i balance ≤ 0 := hstage
      have hlate : ¬ AtReservation i balance := by
        rintro ⟨-, hne, hpos, -⟩
        omega
      rw [categoryVerdict_approved hdonor hremaining h]
      tauto

/-- **An approval is covered** unless an early one leaves the donor short. -/
theorem approved_covered_iff {i : PurchaseInput} {out : PurchaseOutcome}
    (hamount : 0 ≤ (i.amount.minorUnits : Int))
    (hminimum : 0 ≤ (i.policy.minimumBalance.minorUnits : Int))
    (hbuffer : 0 ≤ (i.policy.bufferAmount.minorUnits : Int)) (hdonor : 0 ≤ donor i)
    (hsemantic : i.semantic ≠ .reimbursement) (h : evaluatePurchase i = .ok out) :
    (out.outcome = .approved → Covered i) ↔ Spared i := by
  unfold evaluatePurchase at h
  obtain ⟨-, h⟩ := rest_ok h
  unfold Spared
  cases hblocked : blocked i with
  | true =>
    rw [hblocked, if_pos rfl] at h
    obtain ⟨evidence, -, h⟩ := bind_ok.mp h
    cases h
    exact iff_of_true (by simp) (by simp)
  | false =>
    rw [hblocked, if_neg Bool.false_ne_true] at h
    obtain ⟨effective, heffective, h⟩ := bind_ok.mp h
    obtain ⟨remaining, hremaining, h⟩ := bind_ok.mp h
    obtain ⟨v, hv, h⟩ := bind_ok.mp h
    obtain ⟨evidence, -, h⟩ := bind_ok.mp h
    cases h
    cases effective with
    | none =>
      have hkind : v.kind = .flaggedForReview := by
        unfold verdict at hv
        rw [if_neg (by simpa using hsemantic)] at hv
        cases hv
        rfl
      refine iff_of_true (by simp [hkind]) fun _ balance hbalance => ?_
      rw [heffective] at hbalance
      cases hbalance
    | some balance =>
      have happroved := verdict_approved_iff hamount hdonor hsemantic
        (adjustedRemaining_ok hremaining) hv
      have hopen : Unreserved i → ¬ Guarded i balance := by
        rintro ⟨hnone, -⟩ ⟨-, hne, -⟩
        unfold reservation at hnone
        omega
      -- the category's approval fits, when the floor stands
      have hfits : floorShort i balance ≤ 0 → categoryShort i ≤ donor i → Fits i balance := by
        unfold Fits
        omega
      constructor
      · intro hcovered _ b hb
        rw [heffective] at hb
        cases hb
        by_cases hearly : AtMinimum i balance ∨ AtReservation i balance ∨ Unreserved i
        · left
          refine (covered_iff_fits heffective).mp (hcovered (happroved.mpr ?_))
          rcases hearly with hearly | hearly | hearly
          · exact .inl hearly
          · exact .inr (.inl hearly)
          · exact .inr (.inr ⟨hopen hearly, .inl hearly.1, hearly.2⟩)
        · exact .inr hearly
      · intro hspared hkind
        refine (covered_iff_fits heffective).mpr ?_
        rcases hspared rfl balance heffective with hfit | hnot
        · exact hfit
        · rcases happroved.mp hkind with hearly | hearly | ⟨-, hpass, hcategory⟩
          · exact absurd (.inl hearly) hnot
          · exact absurd (.inr (.inl hearly)) hnot
          · rcases hpass with hzero | hstands
            · exact absurd (.inr (.inr ⟨hzero, hcategory⟩)) hnot
            · exact hfits hstands hcategory

/-! ## A donor counted twice -/

def hundred (minimum budget donor : I64) : PurchaseInput where
  amount := ⟨.wrap 100, "USD"⟩
  categoryBudget := ⟨budget, "USD"⟩
  categorySpent := ⟨0, "USD"⟩
  accountBalance := some ⟨.wrap 100, "USD"⟩
  pendingTotal := ⟨0, "USD"⟩
  uncategorizedTotal := ⟨0, "USD"⟩
  unclearedTotal := ⟨0, "USD"⟩
  policy := ⟨⟨minimum, "USD"⟩, ⟨0, "USD"⟩⟩
  dataPolicy := .standard
  semantic := .card
  rolloverAvailable := none
  donorAvailable := some ⟨donor, "USD"⟩
  isProtectedAccount := false
  hasStaleSnapshot := false
  hasStaleBankSync := false

/-- A donor of fifty covers the minimum, and the empty category goes unseen. -/
theorem hundred_not_covered :
    (∃ out, evaluatePurchase (hundred (.wrap 50) 0 (.wrap 50)) = .ok out ∧
      out.outcome = .approved) ∧ ¬ Covered (hundred (.wrap 50) 0 (.wrap 50)) := by
  have hbalance : computeEffectiveBalance (hundred (.wrap 50) 0 (.wrap 50)) =
      .ok (some ⟨.wrap 100, "USD"⟩) := rfl
  exact ⟨⟨_, rfl, rfl⟩, fun h => absurd ((covered_iff_fits hbalance).mp h) (by decide)⟩

/-- A donor of fifty covers the minimum, and the category has the amount. -/
theorem hundred_covered_iff : ∃ out,
    evaluatePurchase (hundred (.wrap 50) (.wrap 100) (.wrap 50)) = .ok out ∧
      ((out.outcome = .approved → Covered (hundred (.wrap 50) (.wrap 100) (.wrap 50))) ↔
        Spared (hundred (.wrap 50) (.wrap 100) (.wrap 50))) := by
  refine ⟨_, rfl, approved_covered_iff (by decide) (by decide) (by decide) (by decide) (by decide)
    rfl⟩

end BalanceFrame.Purchase
