import BalanceFrame.Holds.Sound
import BalanceFrame.Library.Lists

/-!
# What a claim set is read from

`SameView` says that two stores agree on everything `claimSet` reads for a budget: its claims, what
never changes of their metadata, the reservation mode where a reservation may only inform, and the
completions that cover. A read of one is a read of the other (`bundlesAt_of_sameView`), and reading
twice at one time changes nothing (`bundlesAt_reread`).
-/

namespace BalanceFrame.Holds

open Library List Bool
open Liquidity (LiquidityClaimBundle LiquidityClaimEffect LiquidityClaimState)
open Workflow (Refusal Guarded)

namespace Store

variable {s t s' : Store} {host : Host} {b now : String}

/-- The claims of a budget. -/
def claimsOf (s : Store) (b : String) : List ClaimRow := s.claims.filter (·.budgetId == b)

/-- What never changes of a budget's metadata. -/
def coresOf (s : Store) (b : String) : List MetadataRow :=
  (s.metadata.filter (·.budgetId == b)).map core

/-- A stored reservation that may only inform, for the policy in force decides. -/
def mayInform (s : Store) (b : String) : Bool :=
  (s.claimsOf b).any fun c => c.bundle.state == .active && !c.bundle.initiated &&
    (s.coresOf b).any fun m => m.claimId == c.id && m.claim.kind == .reservation

/-- **Two stores with one view** of a budget. -/
structure SameView (b : String) (s s' : Store) : Prop where
  claims : s'.claimsOf b = s.claimsOf b
  cores : s'.coresOf b = s.coresOf b
  mode : s.mayInform b = true → ∀ policy, s.currentPolicy b = .ok policy →
    ∃ policy', s'.currentPolicy b = .ok policy' ∧
      policy'.reservationMode = policy.reservationMode
  covers : ∀ id p, s.completions.find? (·.id == id) = some p →
    ∃ p', s'.completions.find? (·.id == id) = some p' ∧ p'.actorId = p.actorId ∧
      p'.payload = p.payload

theorem SameView.refl (s : Store) : SameView b s s :=
  ⟨rfl, rfl, fun _ policy h => ⟨policy, h, rfl⟩, fun _ p h => ⟨p, h, rfl, rfl⟩⟩

theorem SameView.mayInform_eq (h : SameView b s s') : s'.mayInform b = s.mayInform b := by
  rw [mayInform, mayInform, h.claims, h.cores]

theorem SameView.trans (h : SameView b s t) (h' : SameView b t s') : SameView b s s' where
  claims := h'.claims.trans h.claims
  cores := h'.cores.trans h.cores
  mode hinform policy hpolicy := by
    obtain ⟨policy', hpolicy', hmode⟩ := h.mode hinform policy hpolicy
    obtain ⟨policy'', hpolicy'', hmode'⟩ := h'.mode (h.mayInform_eq ▸ hinform) policy' hpolicy'
    exact ⟨policy'', hpolicy'', hmode'.trans hmode⟩
  covers id p hp := by
    obtain ⟨p', hp', ha, hpay⟩ := h.covers id p hp
    obtain ⟨p'', hp'', ha', hpay'⟩ := h'.covers id p' hp'
    exact ⟨p'', hp'', ha'.trans ha, hpay'.trans hpay⟩

variable {c : ClaimRow}

theorem metadataOf_core (hc : c.budgetId = b) :
    (s.metadataOf c).map core = (s.coresOf b).find? (·.claimId == c.id) := by
  unfold metadataOf coresOf
  rw [find?_map, find?_filter, hc]
  congr 2
  funext m
  rw [Bool.decide_and, Bool.decide_coe, Bool.decide_coe]
  rfl

/-- `shown`, for given metadata. -/
def shownAs (s : Store) (host : Host)
    (covered : List ((String × String) × List LiquidityClaimEffect)) (b now : String) (c : ClaimRow)
    (m : Option MetadataRow) : Guarded (Option LiquidityClaimBundle) :=
  if m.any (fun m => upcoming host now c.bundle m.claim || isCovered covered m) then .ok none
  else do
    let informs ← s.informational b c m
    .ok (if !informs && (holds c.bundle || (c.bundle.initiated && c.bundle.state != .settled)) then
      some c.bundle else none)

theorem shown_core (s : Store) (covered : List ((String × String) × List LiquidityClaimEffect))
    (c : ClaimRow) :
    s.shown host covered b now c = s.shownAs host covered b now c ((s.metadataOf c).map core) := by
  unfold shown shownAs
  cases s.metadataOf c <;> rfl

theorem informational_of_sameView (h : SameView b s s') {c : ClaimRow} (hc : c ∈ s.claimsOf b)
    {i : Bool} (hi : s.informational b c ((s.coresOf b).find? (·.claimId == c.id)) = .ok i) :
    s'.informational b c ((s.coresOf b).find? (·.claimId == c.id)) = .ok i := by
  cases hm : (s.coresOf b).find? (·.claimId == c.id) with
  | none => rwa [hm] at hi
  | some m =>
    rw [hm] at hi
    unfold informational at hi ⊢
    dsimp only at hi ⊢
    split at hi
    · next hcond =>
      rw [if_pos hcond]
      obtain ⟨policy, hpolicy, hi⟩ := bind_ok.1 hi
      have hinform : s.mayInform b = true := by
        refine any_eq_true.2 ⟨c, hc, ?_⟩
        have hcore : (s.coresOf b).any (fun m => m.claimId == c.id &&
            m.claim.kind == .reservation) = true := by
          refine any_eq_true.2 ⟨m, mem_of_find?_eq_some hm, ?_⟩
          have hid := find?_some hm
          simp only [beq_iff_eq] at hid
          simp [hid, hcond.1]
        simp [hcond.2.1, hcond.2.2, hcore]
      obtain ⟨policy', hpolicy', hmode⟩ := h.mode hinform policy hpolicy
      rw [hpolicy', ok_bind, hmode]
      exact hi
    · next hcond =>
      rwa [if_neg hcond]

theorem covering_of_sameView (h : SameView b s s')
    {covered : List ((String × String) × List LiquidityClaimEffect)}
    (hc : s.covering host b now = .ok covered) : s'.covering host b now = .ok covered := by
  have hrows : s'.budgetRows b = s.budgetRows b := congrArg (sortOn fun c : ClaimRow => c.id) h.claims
  unfold covering at hc ⊢
  rw [hrows]
  refine mapM_eq_ok.2 ((mapM_eq_ok.1 hc).imp fun c x hx => ?_)
  obtain ⟨p, hp, hx⟩ := bind_ok.1 hx
  obtain ⟨p', hp', ha, hpay⟩ := h.covers _ p (orStop_ok.1 hp)
  refine bind_ok.2 ⟨p', orStop_ok.2 hp', ?_⟩
  rw [ha, hpay]
  exact hx

theorem bundlesAt_of_sameView (h : SameView b s s') {bundles : List LiquidityClaimBundle}
    (hb : s.bundlesAt host b now = .ok bundles) : s'.bundlesAt host b now = .ok bundles := by
  have hrows : s'.budgetRows b = s.budgetRows b := congrArg (sortOn fun c : ClaimRow => c.id) h.claims
  obtain ⟨covered, hcovered, hb⟩ := bind_ok.1 hb
  obtain ⟨shown, hshown, hb⟩ := bind_ok.1 hb
  refine bind_ok.2 ⟨covered, covering_of_sameView h hcovered, bind_ok.2 ⟨shown, ?_, hb⟩⟩
  rw [hrows]
  refine mapM_eq_ok.2 (forall₂_imp_mem (fun c hmem o ho => ?_) (mapM_eq_ok.1 hshown))
  have hrow : c ∈ s.claimsOf b := (mem_sortOn _).1 (mem_of_mem_filter hmem)
  have hbudget : c.budgetId = b := by simpa using (mem_filter.1 hrow).2
  rw [shown_core] at ho ⊢
  rw [metadataOf_core hbudget] at ho ⊢
  rw [h.cores]
  unfold shownAs at ho ⊢
  split at ho
  · next hany =>
    rw [if_pos hany]
    exact ho
  · next hany =>
    rw [if_neg hany]
    obtain ⟨i, hi, ho⟩ := bind_ok.1 ho
    exact bind_ok.2 ⟨i, informational_of_sameView h hrow hi, ho⟩

/-! ## Reading twice -/

theorem filter_map_lapse {rows : List ClaimRow} {q : ClaimRow → Bool}
    (hq : ∀ c, lapsed host now c.bundle = true → q c = false ∧ q (lapse host b now c) = false) :
    (rows.map (lapse host b now)).filter q = rows.filter q := by
  induction rows with
  | nil => rfl
  | cons c rows ih =>
    rw [map_cons, filter_cons, filter_cons, ih]
    cases h : lapsed host now c.bundle with
    | false => rw [lapse_eq_self _ _ _ _ h]
    | true =>
      obtain ⟨hc, hl⟩ := hq c h
      simp [hc, hl]

theorem budgetRows_reread (s : Store) :
    (s.reread host b now).budgetRows b = (s.budgetRows b).map (lapse host b now) := by
  unfold budgetRows
  have hbudget : ((fun c : ClaimRow => c.budgetId == b) ∘ lapse host b now) =
      fun c => c.budgetId == b := by
    funext c
    simp
  rw [reread_claims, filter_map, hbudget]
  exact (map_insertionSort _ _ _ _ fun c _ d _ => by simp).symm

theorem covering_reread (s : Store) :
    (s.reread host b now).covering host b now = s.covering host b now := by
  unfold covering
  rw [budgetRows_reread, reread_completions, filter_map_lapse fun c hc => ?_]
  simp only [lapsed, and_eq_true, beq_iff_eq, not_eq_true'] at hc
  constructor
  · simp [hc.1.2, hc.2]
  · have hexp : (lapse host b now c).bundle = c.bundle ∨
        (lapse host b now c).bundle.state = .expired := by
      unfold lapse
      split
      · exact .inr rfl
      · exact .inl rfl
    obtain he | he := hexp
    · simp [he, hc.1.2, hc.2]
    · simp [holds, he]

theorem coresOf_reread (s : Store) (b' : String) :
    (s.reread host b now).coresOf b' = s.coresOf b' := by
  obtain ⟨f, hf, hmetadata⟩ := s.reread_metadata b host now
  have hbudget (m : MetadataRow) : (f m).budgetId = m.budgetId := by
    simpa [core] using congrArg MetadataRow.budgetId (hf m)
  unfold coresOf
  rw [hmetadata, filter_map, map_map]
  have hkeep : ((fun m : MetadataRow => m.budgetId == b') ∘ f) = fun m => m.budgetId == b' := by
    funext m
    simp [hbudget]
  rw [hkeep]
  exact map_congr_left fun m _ => hf m

theorem shown_reread (s : Store) (covered : List ((String × String) × List LiquidityClaimEffect))
    (hc : c.budgetId = b) :
    (s.reread host b now).shown host covered b now c = s.shown host covered b now c := by
  rw [shown_core, shown_core, metadataOf_core hc, metadataOf_core hc, coresOf_reread]
  unfold shownAs informational currentPolicy
  simp only [reread_currentPolicies, reread_policies]

theorem shown_expired (s : Store) (covered : List ((String × String) × List LiquidityClaimEffect))
    (hstate : c.bundle.state = .expired) (hinit : c.bundle.initiated = false) :
    s.shown host covered b now c = .ok none := by
  unfold shown
  dsimp only
  split
  · rfl
  · have hinforms : s.informational b c (s.metadataOf c) = .ok false := by
      unfold informational
      split
      · simp [hstate]
      · rfl
    simp [hinforms, holds, hstate, hinit]

theorem shown_rows_reread (s : Store)
    {covered : List ((String × String) × List LiquidityClaimEffect)} {rows : List ClaimRow}
    {bundles : List (Option LiquidityClaimBundle)} (hrows : ∀ c ∈ rows, c.budgetId = b)
    (h : (rows.filter fun c => !lapsed host now c.bundle).mapM (s.shown host covered b now) =
      .ok bundles) :
    ∃ bundles', ((rows.map (lapse host b now)).filter fun c => !lapsed host now c.bundle).mapM
        ((s.reread host b now).shown host covered b now) = .ok bundles' ∧
      bundles'.filterMap id = bundles.filterMap id := by
  induction rows generalizing bundles with
  | nil =>
    rw [filter_nil, mapM_nil] at h
    cases h
    exact ⟨[], rfl, rfl⟩
  | cons c rows ih =>
    have hc : c.budgetId = b := hrows c mem_cons_self
    have hrest : ∀ d ∈ rows, d.budgetId = b := fun d hd => hrows d (mem_cons_of_mem _ hd)
    rw [map_cons]
    cases hl : lapsed host now c.bundle with
    | false =>
      rw [filter_cons_of_pos (by simp [hl]), mapM_cons] at h
      obtain ⟨shown, hshown, h⟩ := bind_ok.1 h
      obtain ⟨others, hothers, h⟩ := bind_ok.1 h
      cases h
      obtain ⟨bundles', hbundles', heq⟩ := ih hrest hothers
      refine ⟨shown :: bundles', ?_, ?_⟩
      · rw [lapse_eq_self _ _ _ _ hl, filter_cons_of_pos (by simp [hl]), mapM_cons,
          shown_reread s covered hc, hshown, ok_bind, hbundles']
        rfl
      · rw [filterMap_cons, filterMap_cons, heq]
    | true =>
      rw [filter_cons_of_neg (by simp [hl])] at h
      obtain ⟨bundles', hbundles', heq⟩ := ih hrest h
      have hparts := hl
      simp only [lapsed, and_eq_true, beq_iff_eq, not_eq_true'] at hparts
      have hstate : (lapse host b now c).bundle.state = .expired := by
        simp [lapse, hc, hl]
      refine ⟨none :: bundles', ?_, ?_⟩
      · rw [filter_cons_of_pos (by simp [lapsed, hstate]), mapM_cons,
          shown_expired _ covered hstate ((lapse_initiated b host now c).trans hparts.1.2), ok_bind,
          hbundles']
        rfl
      · rw [filterMap_cons, heq]
        rfl

theorem bundlesAt_reread {bundles : List LiquidityClaimBundle}
    (h : s.bundlesAt host b now = .ok bundles) :
    (s.reread host b now).bundlesAt host b now = .ok bundles := by
  obtain ⟨covered, hcovered, h⟩ := bind_ok.1 h
  obtain ⟨shown, hshown, h⟩ := bind_ok.1 h
  cases h
  have hrows : ∀ c ∈ s.budgetRows b, c.budgetId = b := by
    intro c hc
    have hmem : c ∈ s.claims ∧ c.budgetId = b := by simpa [budgetRows] using hc
    exact hmem.2
  obtain ⟨shown', hshown', heq⟩ := shown_rows_reread s hrows hshown
  refine bind_ok.2 ⟨covered, (covering_reread s).trans hcovered, bind_ok.2 ⟨shown', ?_, ?_⟩⟩
  · rw [budgetRows_reread]
    exact hshown'
  · rw [heq]

end Store

end BalanceFrame.Holds
