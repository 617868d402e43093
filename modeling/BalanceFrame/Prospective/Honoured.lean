import BalanceFrame.Prospective.Decide
import BalanceFrame.Liquidity.AllocationCorrect
import BalanceFrame.Liquidity.Identities

/-!
# Which prospective claims are honoured

A favourable answer honours its claims when each listed claim has, in the claim set of the engine, an
effect of its kind, resource and amount in a bundle that is active (`Honoured`). A claim that no
bundle of the request stands for is pushed with an expiry that has not passed. A bundle that stands
for a claim only has to be in state `Active`: whether it has lapsed is not asked.
-/

namespace BalanceFrame.Prospective

open Library Liquidity List Bool Except
open Decision (DecisionScope)

variable {claim : ProspectiveClaim} {i : DecisionIssue} {b : LiquidityClaimBundle}

variable {r : ProspectivePurchaseEvaluationRequest}

/-- The answer says that the purchase can be made. -/
def Favourable (r : ProspectivePurchaseEvaluationRequest) : Prop :=
  (evaluateProspectivePurchase r).readiness = .ready ∨
    (evaluateProspectivePurchase r).payload.allowable = true

/-- The engine treats a bundle as active when the request is evaluated. -/
def ActiveNow (r : ProspectivePurchaseEvaluationRequest) (b : LiquidityClaimBundle) : Prop :=
  ∃ now, instant r.context.evaluatedAt = .ok now ∧ active b now = .ok true

/-- A bundle has an effect of a claim's kind, resource and amount. -/
def Represents (b : LiquidityClaimBundle) (claim : ProspectiveClaim) : Prop :=
  ∃ e ∈ b.effects, claimResource claim.scope = some (e.kind, e.resourceId) ∧
    e.amount = claim.amount

/-- Every listed claim is on a category or an account, and is represented by an active bundle. -/
def Honoured (r : ProspectivePurchaseEvaluationRequest) : Prop :=
  ∀ claim ∈ listedClaims r, (∃ resource, claimResource claim.scope = some resource) ∧
    ∃ b ∈ (engineInput r).claimSet.bundles, ActiveNow r b ∧ Represents b claim

/-- A bundle is initiated, or expires after the request is evaluated. -/
def Unlapsed (r : ProspectivePurchaseEvaluationRequest) (b : LiquidityClaimBundle) : Prop :=
  b.initiated = true ∨ ∃ now expiry, instant r.context.evaluatedAt = .ok now ∧
    instant b.expiresAt = .ok expiry ∧ now < expiry

/-- The bundles of the request under a claim's id have not lapsed, or another active one of the
request represents the claim. -/
def Upheld (r : ProspectivePurchaseEvaluationRequest) (claim : ProspectiveClaim) : Prop :=
  (∀ b ∈ (liquidityContext r).claimSet.bundles, b.id = claim.claimId → Unlapsed r b) ∨
    ∃ b ∈ (liquidityContext r).claimSet.bundles, ActiveNow r b ∧ Represents b claim

/-! ## A favourable answer -/

theorem mem_pushIssues {more : List DecisionIssue} :
    ∀ {issues : List DecisionIssue} {i : DecisionIssue}, i ∈ issues →
      i ∈ pushIssues issues more := by
  induction more with
  | nil => exact fun h => h
  | cons x rest ih => exact fun h => ih (mem_pushIssueOnce h)

theorem pushIssues_append (issues l l' : List DecisionIssue) :
    pushIssues issues (l ++ l') = pushIssues (pushIssues issues l) l' := foldl_append

theorem exists_block {more : List DecisionIssue} (hall : AllBlock more) (hne : more ≠ [])
    (issues : List DecisionIssue) (hissues : AllBlock issues) :
    ∃ i ∈ pushIssues issues more, i.effect = .blocks := by
  cases more with
  | nil => exact absurd rfl hne
  | cons x rest =>
    obtain ⟨i, hi⟩ := exists_mem_of_ne_nil _ (pushIssueOnce_ne_nil issues x)
    have hlater : i ∈ pushIssues (pushIssueOnce issues x) rest := mem_pushIssues hi
    refine ⟨i, hlater, ?_⟩
    rcases of_mem_pushIssueOnce hi with hold | rfl
    · exact hissues i hold
    · exact hall i mem_cons_self

theorem allBlock_issueIf (condition : Bool) (code : DecisionIssueCode) (scope : DecisionScope) :
    AllBlock (issueIf condition code scope) := by
  unfold issueIf
  split
  · intro i hi
    rw [mem_singleton.mp hi]
    rfl
  · exact fun i hi => absurd hi not_mem_nil

theorem AllBlock.append {l l' : List DecisionIssue} (h : AllBlock l) (h' : AllBlock l') :
    AllBlock (l ++ l') := fun i hi => (mem_append.mp hi).elim (h i) (h' i)

theorem allBlock_requestIssues (r : ProspectivePurchaseEvaluationRequest) :
    AllBlock (requestIssues r) := by
  unfold requestIssues
  repeat' apply AllBlock.append
  all_goals exact allBlock_issueIf _ _ _

theorem mem_takeAmount {categoryId : String} {s : Option Money × List DecisionIssue}
    {amount : Money} (h : i ∈ s.2) :
    i ∈ (takeAmount categoryId s amount).2 := by
  unfold takeAmount
  split
  · exact h
  · split
    · exact h
    · exact mem_pushIssueOnce h

theorem mem_beforeAmount {payload : Purchase.PurchaseEvaluation} {issues : List DecisionIssue}
    (h : i ∈ issues) : i ∈ (beforeAmount r payload issues).2 := by
  unfold beforeAmount
  refine List.foldlRecOn _ _ (motive := fun s : Option Money × List DecisionIssue => i ∈ s.2) h
    fun s hs c _ => mem_takeAmount hs

theorem mem_afterAmount {s : Option Money × List DecisionIssue}
    (h : i ∈ s.2) : i ∈ (afterAmount r s).2 := by
  unfold afterAmount
  split
  · exact h
  · exact mem_takeAmount h

/-- The issues before the payment is looked at. -/
def openIssues (r : ProspectivePurchaseEvaluationRequest) : List DecisionIssue :=
  (afterAmount r (beforeAmount r (purchasePayload r)
    (pushIssues (evaluateProspectiveClaims r.context r.claims).issues
      (requestIssues r ++ observationIssues r ++ payloadIssues r (purchasePayload r))))).2

theorem readinessOf_ready {issues : List DecisionIssue} (h : readinessOf issues = .ready) :
    issues = [] := by
  unfold readinessOf at h
  split at h
  · cases h
  · rename_i hblocks
    split at h
    · cases h
    · rename_i hqualifies
      cases issues with
      | nil => rfl
      | cons i rest =>
        cases heffect : i.effect <;> simp [heffect] at hblocks hqualifies

/-- **A favourable answer** rests on a payment that is ready and on no issue that blocks. -/
theorem Favourable.open (h : Favourable r) : accountReady (accountAware r) = true ∧
    ∀ i ∈ openIssues r, i.effect ≠ .blocks := by
  rcases h with hready | hallow
  · have hnil : (if accountReady (accountAware r) then openIssues r
        else pushIssueOnce (openIssues r) (accountIssue r (accountAware r))) = [] :=
      readinessOf_ready hready
    split at hnil
    · rename_i haccount
      exact ⟨haccount, fun i hi => absurd hi (hnil ▸ not_mem_nil)⟩
    · exact absurd hnil (pushIssueOnce_ne_nil _ _)
  · have hboth : (accountReady (accountAware r) &&
        !(openIssues r).any (·.effect == .blocks)) = true := hallow
    rw [and_eq_true, not_eq_true', any_eq_false] at hboth
    exact ⟨hboth.1, fun i hi hblocks => hboth.2 i hi (by rw [hblocks]; rfl)⟩

theorem Favourable.clean (h : Favourable r) :
    (evaluateProspectiveClaims r.context r.claims).issues = [] ∧ requestIssues r = [] := by
  have hopen := h.open.2
  have hclaims := allBlock_evaluateProspectiveClaims r.context r.claims
  have hlater : ∀ i ∈ pushIssues (evaluateProspectiveClaims r.context r.claims).issues
      (requestIssues r), i.effect ≠ .blocks := by
    intro i hi
    refine hopen i (mem_afterAmount (mem_beforeAmount ?_))
    rw [pushIssues_append, pushIssues_append]
    exact mem_pushIssues (mem_pushIssues hi)
  constructor
  · by_contra hne
    obtain ⟨i, hi⟩ := exists_mem_of_ne_nil _ hne
    exact hlater i (mem_pushIssues hi) (hclaims i hi)
  · by_contra hne
    obtain ⟨i, hi, hblocks⟩ := exists_block (allBlock_requestIssues r) hne _ hclaims
    exact hlater i hi hblocks

theorem Favourable.window (h : Favourable r) : validDecisionWindow r = true := by
  by_contra hnot
  rw [not_eq_true] at hnot
  have hnil := h.clean.2
  simp [requestIssues, issueIf, hnot] at hnil

theorem Favourable.opened (h : Favourable r) : ∃ o, openEvaluation (engineInput r) = .ok o := by
  have hready := h.open.1
  have hfunded : (evaluate (engineInput r)).budgetFundingStatus = .funded := by
    have hboth : ((accountAware r).budgetFundingStatus == .funded &&
        (accountAware r).paymentLiquidityStatus == .ready) = true := hready
    exact beq_iff_eq.mp (and_eq_true_iff.mp hboth).1
  unfold evaluate at hfunded
  split at hfunded
  · rename_i hchecked
    obtain ⟨o, ho, -⟩ := bind_ok.mp hchecked
    exact ⟨o, ho⟩
  · cases hfunded

/-- What the engine has read: the clock, facts that are there, and the expiry of every bundle. -/
theorem Favourable.read (h : Favourable r) : (mergedClaims r).representable = true ∧
    ∃ now, instant r.context.evaluatedAt = .ok now ∧
      ∀ b ∈ (mergedClaims r).bundles, ∃ expiry, instant b.expiresAt = .ok expiry := by
  obtain ⟨o, ho⟩ := h.opened
  unfold openEvaluation at ho
  simp only [bind_ok] at ho
  obtain ⟨clock, hclock, facts, hfacts, -, -, claimed, hclaimed, -⟩ := ho
  obtain ⟨now, hnow, -⟩ := bind_ok.mp hclock
  have hgiven := (checkIdentities_ok hfacts).1
  refine ⟨?_, now, hnow, fun b hb => ?_⟩
  · by_contra hnot
    rw [not_eq_true] at hnot
    have hnone : (engineInput r).facts = none := by simp [engineInput, hnot]
    rw [hnone] at hgiven
    cases hgiven
  · obtain ⟨s, s', hstep⟩ := foldlM_mem_ok hclaimed b hb
    obtain ⟨live, hlive, -⟩ := bind_ok.mp hstep
    obtain ⟨expiry, hexpiry, -⟩ := bind_ok.mp hlive
    exact ⟨expiry, hexpiry⟩

/-! ## The merge -/

theorem claimResource_inj {s t : DecisionScope} {x : ClaimEffectKind × String}
    (hs : claimResource s = some x) (ht : claimResource t = some x) : s = t := by
  cases s <;> cases t <;> cases hs <;> cases ht <;> rfl

/-- **What merging makes of the claim set**: the bundles of the request, then one for each claim
that none stood for; and every claim has a bundle in state `Active` with its effect. -/
structure MergedFrom (listed : List ProspectiveClaim) (validUntil : String)
    (supplied : List LiquidityClaimBundle) (done : List ProspectiveClaim) (s : Merged) : Prop where
  kept : ∃ pushed, s.bundles = supplied ++ pushed ∧ ∀ b ∈ pushed, ∃ c ∈ done, ∃ resource,
    claimResource c.scope = some resource ∧
      b = claimBundle validUntil c (claimEffect listed c resource) ∧
        ∀ x ∈ supplied, x.id ≠ c.claimId
  stands : ∀ c ∈ done, ∃ resource b, claimResource c.scope = some resource ∧
    s.bundles.find? (·.id == c.claimId) = some b ∧ b.state = .active ∧
      claimEffect listed c resource ∈ b.effects

variable {listed done : List ProspectiveClaim} {validUntil : String}
  {supplied : List LiquidityClaimBundle} {s : Merged} {c : ProspectiveClaim}

/-- A claim that is represented is on a resource; a bundle stands for it, or is pushed. -/
theorem mergeClaim_representable (h : (mergeClaim listed validUntil s c).representable = true) :
    s.representable = true ∧ ∃ resource, claimResource c.scope = some resource ∧
      ((∃ b, s.bundles.find? (·.id == c.claimId) = some b ∧ b.state = .active ∧
          claimEffect listed c resource ∈ b.effects ∧ mergeClaim listed validUntil s c = s) ∨
        s.bundles.find? (·.id == c.claimId) = none ∧
          mergeClaim listed validUntil s c = { s with
            bundles := s.bundles ++
              [claimBundle validUntil c (claimEffect listed c resource)] }) := by
  unfold mergeClaim at h ⊢
  split at h
  · cases h
  rename_i resource hresource
  split at h
  · cases h
  rename_i hlinked
  rw [hresource]
  dsimp only at h ⊢
  cases hfound : s.bundles.find? (·.id == c.claimId) with
  | some b =>
    simp only [hfound] at h ⊢
    split at h
    · cases h
    rename_i hsame
    rw [not_eq_true, or_eq_false_iff, bne_eq_false_iff_eq, not_eq_false'] at hsame
    refine ⟨h, resource, rfl, .inl ⟨b, rfl, hsame.1, contains_iff_mem.mp hsame.2, ?_⟩⟩
    rw [if_neg hlinked, hsame.1, hsame.2]
    rfl
  | none =>
    simp only [hfound] at h ⊢
    refine ⟨h, resource, rfl, .inr ⟨trivial, ?_⟩⟩
    rw [if_neg hlinked]

theorem find?_id {l : List LiquidityClaimBundle} {id : String}
    (h : l.find? (·.id == id) = some b) : b.id = id := by
  simpa using find?_some h

theorem find?_append_of_some {α : Type} {p : α → Bool} {l m : List α} {a : α}
    (h : l.find? p = some a) : (l ++ m).find? p = some a := by
  rw [find?_append, h]
  rfl

theorem MergedFrom.next (hs : MergedFrom listed validUntil supplied done s)
    (h : (mergeClaim listed validUntil s c).representable = true) :
    MergedFrom listed validUntil supplied (done ++ [c]) (mergeClaim listed validUntil s c) := by
  obtain ⟨pushed, hbundles, hpushed⟩ := hs.kept
  have hearlier : ∀ b ∈ pushed, ∃ d ∈ done ++ [c], ∃ resource,
      claimResource d.scope = some resource ∧
        b = claimBundle validUntil d (claimEffect listed d resource) ∧
          ∀ x ∈ supplied, x.id ≠ d.claimId := fun b hb => by
    obtain ⟨d, hd, hrest⟩ := hpushed b hb
    exact ⟨d, mem_append_left _ hd, hrest⟩
  obtain ⟨-, resource, hresource, ⟨b, hfound, hstate, heffect, hstep⟩ | ⟨hnone, hstep⟩⟩ :=
    mergeClaim_representable h
  · rw [hstep]
    refine ⟨⟨pushed, hbundles, hearlier⟩, fun d hd => ?_⟩
    rcases mem_append.mp hd with hd | hd
    · exact hs.stands d hd
    · rw [mem_singleton.mp hd]
      exact ⟨resource, b, hresource, hfound, hstate, heffect⟩
  · rw [hstep]
    have hfresh : ∀ x ∈ supplied, x.id ≠ c.claimId := fun x hx heq =>
      find?_eq_none.mp hnone x (hbundles ▸ mem_append_left _ hx) (beq_iff_eq.mpr heq)
    refine ⟨⟨pushed ++ [claimBundle validUntil c (claimEffect listed c resource)], ?_, ?_⟩, ?_⟩
    · rw [hbundles, append_assoc]
    · intro b hb
      rcases mem_append.mp hb with hb | hb
      · exact hearlier b hb
      · exact ⟨c, mem_append_right _ mem_cons_self, resource, hresource,
          mem_singleton.mp hb, hfresh⟩
    · intro d hd
      rcases mem_append.mp hd with hd | hd
      · obtain ⟨res, b, hres, hfound, hrest⟩ := hs.stands d hd
        exact ⟨res, b, hres, find?_append_of_some hfound, hrest⟩
      · rw [mem_singleton.mp hd]
        refine ⟨resource, claimBundle validUntil c (claimEffect listed c resource), hresource, ?_,
          rfl, mem_cons_self⟩
        rw [find?_append, hnone]
        simp [claimBundle]

theorem mergedFrom (h : (mergedClaims r).representable = true) :
    MergedFrom (listedClaims r) r.validUntil (liquidityContext r).claimSet.bundles
      (listedClaims r) (mergedClaims r) := by
  have hrun : (mergedClaims r).representable = true →
      MergedFrom (listedClaims r) r.validUntil (liquidityContext r).claimSet.bundles
        (listedClaims r) (mergedClaims r) := by
    unfold mergedClaims
    refine foldl_runAt (P := fun done s => s.representable = true →
      MergedFrom (listedClaims r) r.validUntil (liquidityContext r).claimSet.bundles done s)
      (fun done c rest s _ hs hnext => ?_) fun _ => ?_
    · exact (hs (mergeClaim_representable hnext).1).next hnext
    · exact ⟨⟨[], (append_nil _).symm, fun b hb => absurd hb not_mem_nil⟩,
        fun c hc => absurd hc not_mem_nil⟩
  exact hrun h

/-! ## Pushed bundles -/

theorem mem_listedClaims : claim ∈ listedClaims r ↔ claim ∈ r.claims ∧
    claim.claimId ∈ (evaluateProspectiveClaims r.context r.claims).eligibleClaimIds := by
  rw [listedClaims, mem_filter, contains_iff_mem]

theorem eligible_of_allowed (h : claim ∈ listedClaims r)
    (hallowed : scopeAllowed r.context claim.scope = true) :
    ∃ evaluatedAt, validContextTime r.context = some evaluatedAt ∧
      claim ∈ eligibleClaims r.context r.claims evaluatedAt := by
  obtain ⟨hmem, hid⟩ := mem_listedClaims.mp h
  obtain ⟨evaluatedAt, e, htime, he, heid⟩ := eligible_of_listed hid
  have heligible := eligible_of_mem he
  have heq : e = claim := eq_of_claimId heligible.allowed hallowed heid heligible.member hmem
    heligible.unique
  exact ⟨evaluatedAt, htime, heq ▸ he⟩

theorem eligible_of_pushed (h : (mergedClaims r).representable = true)
    (hlisted : claim ∈ listedClaims r)
    (hfresh : ∀ x ∈ (liquidityContext r).claimSet.bundles, x.id ≠ claim.claimId) :
    ∃ evaluatedAt, validContextTime r.context = some evaluatedAt ∧
      claim ∈ eligibleClaims r.context r.claims evaluatedAt := by
  have hmerged := mergedFrom h
  obtain ⟨hmem, hid⟩ := mem_listedClaims.mp hlisted
  obtain ⟨evaluatedAt, e, htime, he, heid⟩ := eligible_of_listed hid
  have heligible := eligible_of_mem he
  have helisted : e ∈ listedClaims r := mem_listedClaims.mpr ⟨heligible.member, heid ▸ hid⟩
  obtain ⟨res, b, hres, hfound, -, heffect⟩ := hmerged.stands claim hlisted
  obtain ⟨res', b', hres', hfound', -, heffect'⟩ := hmerged.stands e helisted
  rw [heid, hfound] at hfound'
  obtain rfl : b = b' := Option.some.inj hfound'
  obtain ⟨pushed, hbundles, hpushed⟩ := hmerged.kept
  have hb : b ∈ pushed := by
    have hmemb := mem_of_find?_eq_some hfound
    rw [hbundles] at hmemb
    exact (mem_append.mp hmemb).resolve_left fun hold => hfresh b hold (find?_id hfound)
  -- both effects are the one effect of the bundle that was pushed
  obtain ⟨d, -, resource, -, rfl, -⟩ := hpushed b hb
  have hone := (mem_singleton.mp heffect).trans (mem_singleton.mp heffect').symm
  have hsame : res = res' := by
    have hkind : res.1 = res'.1 := congrArg LiquidityClaimEffect.kind hone
    have hresource : res.2 = res'.2 := congrArg LiquidityClaimEffect.resourceId hone
    exact Prod.ext hkind hresource
  have hscope : claim.scope = e.scope := claimResource_inj hres (hsame ▸ hres')
  exact eligible_of_allowed hlisted (hscope ▸ heligible.allowed)

theorem validContextTime_some {context : DecisionContext} {evaluatedAt : ParsedTimestamp}
    (h : validContextTime context = some evaluatedAt) :
    parseRfc3339 context.evaluatedAt = some evaluatedAt := by
  unfold validContextTime at h
  split at h
  · cases h
  · simp only [Option.bind_eq_bind, Option.bind_eq_some_iff] at h
    obtain ⟨now, hnow, _, -, _, -, h⟩ := h
    split at h
    · rw [← Option.some.inj h]
      exact hnow
    · cases h

/-- A bundle in state `Active` whose expiry is read is active unless it has lapsed. -/
theorem activeNow_iff {now expiry : Instant} (hstate : b.state = .active)
    (hnow : instant r.context.evaluatedAt = .ok now) (hexpiry : instant b.expiresAt = .ok expiry) :
    ActiveNow r b ↔ Unlapsed r b := by
  have hactive : active b now = .ok (b.initiated || decide (now < expiry)) := by
    unfold active
    rw [hexpiry, ok_bind, hstate]
    cases b.initiated <;> rfl
  constructor
  · rintro ⟨now', hnow', hlive⟩
    obtain rfl : now = now' := ok.inj (hnow.symm.trans hnow')
    rw [hactive] at hlive
    have hlive := ok.inj hlive
    rw [or_eq_true, decide_eq_true_eq] at hlive
    exact hlive.imp id fun hlt => ⟨now, expiry, hnow, hexpiry, hlt⟩
  · rintro (hinitiated | ⟨now', expiry', hnow', hexpiry', hlt⟩)
    · exact ⟨now, hnow, by rw [hactive, hinitiated, Bool.true_or]⟩
    · obtain rfl : now = now' := ok.inj (hnow.symm.trans hnow')
      obtain rfl : expiry = expiry' := ok.inj (hexpiry.symm.trans hexpiry')
      exact ⟨now, hnow, by rw [hactive, decide_eq_true hlt, Bool.or_true]⟩

/-- **A pushed bundle is active**: its claim has not expired, or it expires with the answer. -/
theorem activeNow_of_pushed (h : Favourable r)
    {effect : LiquidityClaimEffect} (hlisted : claim ∈ listedClaims r)
    (hfresh : ∀ x ∈ (liquidityContext r).claimSet.bundles, x.id ≠ claim.claimId)
    (hmem : claimBundle r.validUntil claim effect ∈ (mergedClaims r).bundles) :
    ActiveNow r (claimBundle r.validUntil claim effect) := by
  obtain ⟨hrepresentable, now, hnow, hreads⟩ := h.read
  obtain ⟨expiry, hexpiry⟩ := hreads _ hmem
  obtain ⟨evaluatedAt, htime, helig⟩ := eligible_of_pushed hrepresentable hlisted hfresh
  have hparsed := validContextTime_some htime
  refine (activeNow_iff rfl hnow hexpiry).mpr (.inr ⟨now, expiry, hnow, hexpiry, ?_⟩)
  change instant (claim.expiresAt.getD r.validUntil) = .ok expiry at hexpiry
  cases hexpires : claim.expiresAt with
  | some value =>
    obtain ⟨parsed, hvalue, hbefore⟩ := (eligible_of_mem helig).unexpired value hexpires
    rw [hexpires] at hexpiry
    exact (before_of_instants hnow hexpiry hparsed hvalue).mp hbefore
  | none =>
    rw [hexpires] at hexpiry
    have hwindow := h.window
    unfold validDecisionWindow at hwindow
    split at hwindow
    · rename_i htime' hvalid hends
      rw [htime] at htime'
      obtain rfl := Option.some.inj htime'
      exact (before_of_instants hnow hexpiry hparsed hvalid).mp (and_eq_true_iff.mp hwindow).1
    · cases hwindow

theorem represents_of_effect
    {resource : ClaimEffectKind × String} (hres : claimResource claim.scope = some resource)
    (heffect : claimEffect listed claim resource ∈ b.effects) : Represents b claim :=
  ⟨_, heffect, hres, rfl⟩

/-! ## Honoured claims -/

/-- **A favourable answer honours its claims** iff the bundles that stand for them have not lapsed,
or others carry the same. -/
theorem honoured_iff (h : Favourable r) :
    Honoured r ↔ ∀ claim ∈ listedClaims r, Upheld r claim := by
  obtain ⟨hrepresentable, now, hnow, hreads⟩ := h.read
  have hmerged := mergedFrom hrepresentable
  obtain ⟨pushed, hbundles, hpushed⟩ := hmerged.kept
  constructor
  · intro hhonoured claim hlisted
    obtain ⟨-, b, hb, hactive, hrepresents⟩ := hhonoured claim hlisted
    change b ∈ (mergedClaims r).bundles at hb
    rw [hbundles] at hb
    rcases mem_append.mp hb with hsupplied | hb
    · exact .inr ⟨b, hsupplied, hactive, hrepresents⟩
    · obtain ⟨c, hc, resource, hres, rfl, hfresh⟩ := hpushed b hb
      obtain ⟨e, he, hscope, -⟩ := hrepresents
      rw [mem_singleton.mp he] at hscope
      have hscopes : claim.scope = c.scope := claimResource_inj hscope hres
      -- the pushed bundle is that of the claim itself: eligible claims share no scope
      obtain ⟨evaluatedAt, htime, helig⟩ := eligible_of_pushed hrepresentable hc hfresh
      obtain ⟨evaluatedAt', htime', helig'⟩ := eligible_of_allowed hlisted
        (hscopes ▸ (eligible_of_mem helig).allowed)
      rw [htime] at htime'
      obtain rfl := Option.some.inj htime'
      obtain rfl : claim = c := eligible_scope_inj h.clean.1 htime helig' helig hscopes
      exact .inl fun x hx hid => absurd hid (hfresh x hx)
  · intro hupheld claim hlisted
    obtain ⟨resource, b, hres, hfound, hstate, heffect⟩ := hmerged.stands claim hlisted
    have hmem := mem_of_find?_eq_some hfound
    have hid : b.id = claim.claimId := find?_id hfound
    refine ⟨⟨resource, hres⟩, ?_⟩
    rcases hupheld claim hlisted with hunlapsed | ⟨x, hx, hactive, hrepresents⟩
    · refine ⟨b, hmem, ?_, represents_of_effect hres heffect⟩
      obtain ⟨expiry, hexpiry⟩ := hreads b hmem
      rw [hbundles] at hmem
      rcases mem_append.mp hmem with hsupplied | hb
      · exact (activeNow_iff hstate hnow hexpiry).mpr (hunlapsed b hsupplied hid)
      · obtain ⟨c, hc, res, -, rfl, hfresh⟩ := hpushed b hb
        exact activeNow_of_pushed h hc hfresh (hbundles ▸ mem_append_right _ hb)
    · have hmerge : x ∈ (mergedClaims r).bundles := hbundles ▸ mem_append_left _ hx
      exact ⟨x, hmerge, hactive, hrepresents⟩

/-! ## A rent -/

def rentClaim (amount : I64) : ProspectiveClaim where
  claimId := "rent"
  kind := .commitment
  sourceId := "lease"
  scope := .account "checking"
  amount := usd amount
  status := .active
  effectiveFrom := "2026-01-01T00:00:00Z"
  expiresAt := some "2026-01-20T00:00:00Z"
  visibility := .visible
  policyVersion := "1"
  snapshotId := "snapshot"

def rentBundle (amount : I64) (expiresAt : String) : LiquidityClaimBundle :=
  { claimBundle expiresAt (rentClaim amount)
      (claimEffect [rentClaim amount] (rentClaim amount) (.accountDebit, "checking")) with
    expiresAt := expiresAt }

def foodRequest (rent : I64) (expiresAt : String) : ProspectivePurchaseEvaluationRequest where
  financialSnapshot :=
    { snapshotId := "snapshot", contentHash := "content", capturedAt := "2026-01-01T12:00:00Z"
      legacySnapshot :=
        { snapshotDate := "2026-01-02", bankSyncedAt := none
          accounts := [⟨"checking", usd (.wrap 50)⟩], transactions := []
          categories := [⟨"food", false⟩]
          budgets := [⟨"2026-01", SortedMap.empty.insert "food" (usd (.wrap 60))⟩]
          schedules := [] }
      coverage := ⟨.complete, .complete, .complete⟩
      observations := []
      liquidity := household.facts }
  context :=
    { evaluatedAt := household.evaluatedAt, horizon := household.horizon
      policy := { Purchase.DecisionDataPolicy.standard with
        maxBudgetSnapshotAgeMinutes := some 10080, maxBankSyncAgeMinutes := none }
      policyVersion := "1", policyHash := "policy", snapshotId := "snapshot"
      contentHash := "content" }
  claims := [rentClaim rent]
  proposedTransaction :=
    { id := "groceries", accountId := "checking", categoryId := some "food"
      amount := usd (.wrap (-10)), cleared := false, reconciled := false, subtransactions := [] }
  categoryId := "food"
  requestId := "request"
  correlationId := "correlation"
  decisionId := "decision"
  validUntil := "2026-01-10T00:00:00Z"
  liquidity := some
    { liquidityPolicy := household.liquidityPolicy
      claimSet := ⟨"1", [rentBundle rent expiresAt]⟩
      priorAllocation := none
      routeSelection :=
        { explicitAccountId := some "checking", sessionAccountId := none
          approvedPreference := none, historicalRoute := none }
      purchaseAt := household.evaluatedAt
      requiredBy := household.evaluatedAt }

theorem honoured_iff_rent :
    Favourable (foodRequest (.wrap 30) "2026-01-20T00:00:00Z") ∧
      (Honoured (foodRequest (.wrap 30) "2026-01-20T00:00:00Z") ↔
        ∀ claim ∈ listedClaims (foodRequest (.wrap 30) "2026-01-20T00:00:00Z"),
          Upheld (foodRequest (.wrap 30) "2026-01-20T00:00:00Z") claim) :=
  have hready : (evaluateProspectivePurchase
      (foodRequest (.wrap 30) "2026-01-20T00:00:00Z")).payload.allowable = true := by
    decide +kernel
  ⟨.inr hready, honoured_iff (.inr hready)⟩

theorem lapsed_rent_unhonoured : ¬ ∀ r, Favourable r → Honoured r := by
  intro hall
  have hready : (evaluateProspectivePurchase
      (foodRequest (.wrap 45) "2026-01-01T12:00:00Z")).payload.allowable = true := by
    decide +kernel
  have hlisted : rentClaim (.wrap 45) ∈
      listedClaims (foodRequest (.wrap 45) "2026-01-01T12:00:00Z") := by
    decide +kernel
  obtain ⟨-, b, hb, hactive, -⟩ := hall _ (.inr hready) _ hlisted
  have hbundles : (engineInput (foodRequest (.wrap 45) "2026-01-01T12:00:00Z")).claimSet.bundles =
      [rentBundle (.wrap 45) "2026-01-01T12:00:00Z"] := by
    decide +kernel
  rw [hbundles] at hb
  rw [mem_singleton.mp hb] at hactive
  have hnow : instant (foodRequest (.wrap 45) "2026-01-01T12:00:00Z").context.evaluatedAt =
      .ok 1767312000000000000 := toOption_eq_some.mp (by decide +kernel)
  have hexpiry : instant (rentBundle (.wrap 45) "2026-01-01T12:00:00Z").expiresAt =
      .ok 1767268800000000000 := toOption_eq_some.mp (by decide +kernel)
  rcases (activeNow_iff rfl hnow hexpiry).mp hactive with hinitiated | ⟨now, expiry, hn, he, hlt⟩
  · cases hinitiated
  · rw [← ok.inj (hnow.symm.trans hn), ← ok.inj (hexpiry.symm.trans he)] at hlt
    exact absurd hlt (by decide)

end BalanceFrame.Prospective
