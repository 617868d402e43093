import BalanceFrame.Holds.Sound
import BalanceFrame.Liquidity.Scenario

/-!
# The claim set is admissible to the engine

`unique` of the engine rejects a claim set in which two bundles have one id or a bundle's id is
blank, and `claimEffect` a bundle in which two effects have one identity or an effect lacks a part
of it. A claim row is stored under its bundle's id, but a session that is saved again keeps the row
and brings a new bundle, whose id nothing compares with the other rows: two bundles of one id can be
stored (`shared_id_rejected`). As long as each call brings bundles with ids of their own
(`BringsAdmissible`), every claim set of every run is admissible (`claim_set_admissible`).
-/

namespace BalanceFrame.Holds

open Library Option
open Liquidity (LiquidityClaimBundle LiquidityClaimEffect LiquidityClaimState)
open Workflow (Refusal Guarded)

/-- The identities of effects that the engine accepts in one bundle. -/
def EffectsPass (effects : List LiquidityClaimEffect) : Prop :=
  (∀ e ∈ effects, e.economicObligationId ≠ "" ∧ e.resourceId ≠ "") ∧
    (effects.map fun e => (e.kind, e.resourceId, e.economicObligationId)).Nodup

instance {effects : List LiquidityClaimEffect} : Decidable (EffectsPass effects) :=
  inferInstanceAs (Decidable (_ ∧ _))

/-- A claim set the engine does not reject for its own bundles. -/
def AdmissibleBundles (bundles : List LiquidityClaimBundle) : Prop :=
  Liquidity.unique (bundles.map (·.id)) = .ok () ∧ ∀ b ∈ bundles, EffectsPass b.effects

/-- The bundles a call brings, with their owners. -/
inductive Brings (host : Host) : Step → OwnerKind → String → LiquidityClaimBundle → Prop
  | session {call : Call} {input : SaveSessionInput} {claim : LiquidityClaimBundle}
      (given : input.claim = some claim) :
      Brings host ⟨call, .saveSpendSession input⟩ .session input.id claim
  | prospective {call : Call} {input : SaveClaimInput} {policy : PolicyRow} {expiresAt : String}
      {effect : LiquidityClaimEffect}
      (accepted : prospectiveInput host input.claim policy call.now = .ok (expiresAt, effect)) :
      Brings host ⟨call, .saveProspectiveClaim input⟩ .prospective input.claim.claimId
        (newBundle input.claim expiresAt effect)
  | completion {call : Call} {input : AdmitCompletionInput} :
      Brings host ⟨call, .admitSessionCompletion input⟩ .sessionCompletion input.proposalId
        input.claim
  | transfer {call : Call} {input : AdmitTransferInput} :
      Brings host ⟨call, .admitTransferProposal input⟩ .proposal input.proposalId
        (planBundle input.plan input.proposalId)

/-- The effects a settlement leaves a transfer's claim with. -/
def Leaves (step : Step) (effects : List LiquidityClaimEffect) : Prop :=
  ∃ input r, step.op = .verifyTransferSettlement input (some r) ∧ r.claimEffects = some effects

/-- What a step brings. -/
def supplyOf (host : Host) (step : Step) : Supply :=
  ⟨Brings host step, fun _ => Leaves step, fun _ _ => True, fun _ => True⟩

/-- **The condition on a step**: the bundles it brings have ids that are not blank and that no claim
of another owner in the budget carries, and effects the engine accepts. -/
def BringsAdmissible (host : Host) (s : Store) (step : Step) : Prop :=
  (∀ kind ownerId bundle, Brings host step kind ownerId bundle →
    Liquidity.isBlank bundle.id = false ∧ EffectsPass bundle.effects ∧
      ∀ c ∈ s.claims, c.budgetId = step.call.budgetId →
        ¬ Store.OwnedBy step.call.budgetId kind ownerId c → c.bundle.id ≠ bundle.id) ∧
    ∀ effects, Leaves step effects → EffectsPass effects

/-- **The invariant**: a bundle's id names the owner in the budget, and the engine accepts each
bundle by itself. -/
structure Identified (s : Store) : Prop where
  owner : ∀ c ∈ s.claims, ∀ d ∈ s.claims, c.budgetId = d.budgetId → c.bundle.id = d.bundle.id →
    c.ownerKind = d.ownerKind ∧ c.ownerId = d.ownerId
  passes : ∀ c ∈ s.claims, Liquidity.isBlank c.bundle.id = false ∧ EffectsPass c.bundle.effects

/-- What a step brings is told apart from the stored bundles. -/
def Apart (host : Host) (step : Step) (s : Store) : Prop :=
  ∀ kind ownerId bundle, Brings host step kind ownerId bundle →
    ∀ c ∈ s.claims, c.budgetId = step.call.budgetId →
      ¬ Store.OwnedBy step.call.budgetId kind ownerId c → c.bundle.id ≠ bundle.id

section Steps

variable {host : Host} {step : Step} {s s' : Store}

theorem brings_one {k k' : OwnerKind} {o o' : String} {b b' : LiquidityClaimBundle}
    (h : Brings host step k o b) (h' : Brings host step k' o' b') :
    k = k' ∧ o = o' ∧ b.id = b'.id := by
  cases h with
  | session given =>
    cases h' with
    | session given' =>
      rw [given] at given'
      obtain rfl := some.inj given'
      exact ⟨rfl, rfl, rfl⟩
  | prospective accepted =>
    cases h' with
    | prospective accepted' => exact ⟨rfl, rfl, rfl⟩
  | completion =>
    cases h' with
    | completion => exact ⟨rfl, rfl, rfl⟩
  | transfer =>
    cases h' with
    | transfer => exact ⟨rfl, rfl, rfl⟩

theorem identified_map {f : ClaimRow → ClaimRow}
    (hf : ∀ c ∈ s.claims, (f c).budgetId = c.budgetId ∧ (f c).ownerKind = c.ownerKind ∧
      (f c).ownerId = c.ownerId ∧ (f c).bundle.id = c.bundle.id ∧
        (EffectsPass c.bundle.effects → EffectsPass (f c).bundle.effects))
    (hclaims : s'.claims = s.claims.map f) (hi : Identified s) (ha : Apart host step s) :
    Identified s' ∧ Apart host step s' := by
  refine ⟨⟨fun c hc d hd hb hid => ?_, fun c hc => ?_⟩, fun k o b hbrings c hc hb hown => ?_⟩
  · rw [hclaims] at hc hd
    obtain ⟨c₀, hc₀, rfl⟩ := List.mem_map.1 hc
    obtain ⟨d₀, hd₀, rfl⟩ := List.mem_map.1 hd
    obtain ⟨hcb, hck, hco, hcid, -⟩ := hf c₀ hc₀
    obtain ⟨hdb, hdk, hdo, hdid, -⟩ := hf d₀ hd₀
    rw [hcb, hdb] at hb
    rw [hcid, hdid] at hid
    rw [hck, hdk, hco, hdo]
    exact hi.owner c₀ hc₀ d₀ hd₀ hb hid
  · rw [hclaims] at hc
    obtain ⟨c₀, hc₀, rfl⟩ := List.mem_map.1 hc
    obtain ⟨-, -, -, hcid, hpass⟩ := hf c₀ hc₀
    rw [hcid]
    exact ⟨(hi.passes c₀ hc₀).1, hpass (hi.passes c₀ hc₀).2⟩
  · rw [hclaims] at hc
    obtain ⟨c₀, hc₀, rfl⟩ := List.mem_map.1 hc
    obtain ⟨hcb, hck, hco, hcid, -⟩ := hf c₀ hc₀
    rw [hcid]
    refine ha k o b hbrings c₀ hc₀ (hcb ▸ hb) fun hown' => hown ?_
    exact ⟨hcb.trans hown'.1, hck.trans hown'.2.1, hco.trans hown'.2.2⟩

theorem identified_supplied {kind : OwnerKind} {ownerId : String} {bundle : LiquidityClaimBundle}
    (hbrings : Brings host step kind ownerId bundle)
    (hpass : Liquidity.isBlank bundle.id = false ∧ EffectsPass bundle.effects)
    (hp : s.persistClaim step.call.budgetId kind ownerId bundle = .ok s')
    (hi : Identified s) (ha : Apart host step s) : Identified s' ∧ Apart host step s' := by
  have hmem : ∀ c ∈ s'.claims, (Store.OwnedBy step.call.budgetId kind ownerId c ∧
      c.bundle = bundle) ∨ (c ∈ s.claims ∧ ¬ Store.OwnedBy step.call.budgetId kind ownerId c) := by
    intro c hc
    obtain ⟨d, -, rfl⟩ | ⟨hnone, -, rfl⟩ := Store.persistClaim_cases hp
    · obtain ⟨c₀, hc₀, rfl⟩ := List.mem_map.1 hc
      by_cases hown : Store.OwnedBy step.call.budgetId kind ownerId c₀
      · rw [if_pos hown]
        exact .inl ⟨hown, rfl⟩
      · rw [if_neg hown]
        exact .inr ⟨hc₀, hown⟩
    · obtain hc | hc := List.mem_append.1 hc
      · exact .inr ⟨hc, Store.ownedClaim_eq_none_iff.1 hnone c hc⟩
      · obtain rfl := List.mem_singleton.1 hc
        exact .inl ⟨⟨rfl, rfl, rfl⟩, rfl⟩
  refine ⟨⟨fun c hc d hd hb hid => ?_, fun c hc => ?_⟩, fun k o b hbrings' c hc hb hown => ?_⟩
  · obtain ⟨hcown, hcb⟩ | ⟨hc, hcown⟩ := hmem c hc
    · obtain ⟨hdown, hdb⟩ | ⟨hd, hdown⟩ := hmem d hd
      · exact ⟨hcown.2.1.trans hdown.2.1.symm, hcown.2.2.trans hdown.2.2.symm⟩
      · exact absurd (hcb ▸ hid).symm (ha _ _ _ hbrings d hd (hb.symm.trans hcown.1) hdown)
    · obtain ⟨hdown, hdb⟩ | ⟨hd, hdown⟩ := hmem d hd
      · exact absurd (hdb ▸ hid) (ha _ _ _ hbrings c hc (hb.trans hdown.1) hcown)
      · exact hi.owner c hc d hd hb hid
  · obtain ⟨-, hcb⟩ | ⟨hc, -⟩ := hmem c hc
    · exact hcb ▸ hpass
    · exact hi.passes c hc
  · obtain ⟨rfl, rfl, hid⟩ := brings_one hbrings hbrings'
    obtain ⟨hcown, -⟩ | ⟨hc, -⟩ := hmem c hc
    · exact absurd hcown hown
    · exact ha _ _ _ hbrings' c hc hb hown

/-- **One statement** keeps bundles identified and apart from what the step brings. -/
theorem identified_edit (hC : ∀ kind ownerId bundle, Brings host step kind ownerId bundle →
      Liquidity.isBlank bundle.id = false ∧ EffectsPass bundle.effects)
    (hL : ∀ effects, Leaves step effects → EffectsPass effects) (hr : Rows s)
    (hi : Identified s) (ha : Apart host step s)
    (he : Edit (supplyOf host step) step.call.budgetId s s') :
    Identified s' ∧ Apart host step s' := by
  cases he with
  | restate owned id effects ends persisted =>
    rename_i kind ownerId c bundle
    obtain ⟨d, -, rfl⟩ | ⟨hnone, -, -⟩ := Store.persistClaim_cases persisted
    · refine identified_map (f := fun c => if Store.OwnedBy step.call.budgetId kind ownerId c then
        { c with bundle } else c) (fun e hmem => ?_) rfl hi ha
      split
      · next hown =>
        have hec : e = c := some.inj ((hr.ownedClaim_eq hmem hown).symm.trans owned)
        subst hec
        refine ⟨rfl, rfl, rfl, id, fun hpass => ?_⟩
        obtain heq | ⟨-, hleaves⟩ := effects
        · exact heq ▸ hpass
        · exact hL _ hleaves
      · exact ⟨rfl, rfl, rfl, rfl, fun hpass => hpass⟩
    · rw [hnone] at owned
      cases owned
  | supplied supplied kinds persisted =>
    exact identified_supplied supplied (hC _ _ _ supplied) persisted hi ha
  | prospective supplied unused entry persisted budget claim inserted =>
    obtain ⟨hit, hat⟩ := identified_supplied supplied (hC _ _ _ supplied) persisted hi ha
    obtain ⟨_, inserted⟩ := rest_ok inserted
    cases inserted
    exact ⟨⟨hit.owner, hit.passes⟩, hat⟩
  | admission supplied unused fits read persisted =>
    rename_i p _ _ _ _
    obtain ⟨-, rfl, -⟩ := Store.claimSet_ok read
    obtain ⟨hit, hat⟩ := identified_map (fun c _ => by simp)
      (Store.reread_claims { s with completions := s.completions ++ [p] } _ _ _)
      ⟨hi.owner, hi.passes⟩ ha
    exact identified_supplied supplied (hC _ _ _ supplied) persisted hit hat
  | read read =>
    obtain ⟨-, rfl, -⟩ := Store.claimSet_ok read
    exact identified_map (fun c _ => by simp) (Store.reread_claims _ _ _ _) hi ha
  | metadata f kept ended => exact ⟨⟨hi.owner, hi.passes⟩, ha⟩
  | completion id f kept => exact ⟨⟨hi.owner, hi.passes⟩, ha⟩
  | rest same =>
    refine ⟨⟨?_, ?_⟩, fun k o b hb c hc => ?_⟩
    · rw [same.claims]
      exact hi.owner
    · rw [same.claims]
      exact hi.passes
    · rw [same.claims] at hc
      exact ha k o b hb c hc

theorem supplies_supplyOf (step : Step) : Supplies host (supplyOf host step) step := by
  obtain ⟨call, op⟩ := step
  cases op <;> first | exact trivial | skip
  case saveSpendSession input => exact fun claim hclaim => .session hclaim
  case saveProspectiveClaim input => exact fun policy expiresAt effect h => .prospective h
  case admitSessionCompletion input => exact ⟨trivial, fun _ _ _ _ => .completion⟩
  case admitTransferProposal input => exact .transfer
  case verifyTransferSettlement input settlement =>
    exact fun r effects hr _ he => ⟨input, r, by rw [hr], he⟩

theorem identified_apply {answer : Answer} (hs : Sound s) (hi : Identified s)
    (hC : BringsAdmissible host s step) (h : apply host s step = .ok (answer, s')) :
    Identified s' := by
  have hedits : ∀ t, Rows t → Identified t → Apart host step t →
      Edits (supplyOf host step) step.call.budgetId t s' → Identified s' := by
    intro t hr hit hat hedits
    refine (hedits.keep (P := fun u => Rows u ∧ Identified u ∧ Apart host step u) ⟨hr, hit, hat⟩
      fun u u' hu he => ?_).2.1
    exact ⟨hu.1.edit he, identified_edit (fun k o b hb => ⟨(hC.1 k o b hb).1, (hC.1 k o b hb).2.1⟩)
      hC.2 hu.1 hu.2.1 hu.2.2 he⟩
  have hapart : Apart host step s := fun k o b hb => (hC.1 k o b hb).2.2
  by_cases hop : ∃ policy expectedVersion, step.op = .savePolicy policy expectedVersion
  · obtain ⟨call, op⟩ := step
    obtain ⟨policy, expectedVersion, rfl⟩ := hop
    have hp := @Sound.withPolicy call.budgetId s hs policy
    have hdeeds := (@savePolicy_deeds host
      (supplyOf host ⟨call, .savePolicy policy expectedVersion⟩) _ _ _ policy expectedVersion
        hs.distinct (quietly_ok h).1).2
    exact hedits _ hp.rows ⟨hi.owner, hi.passes⟩ hapart (deeds_edits hp.rows hdeeds)
  · refine hedits s hs.rows hi hapart (deeds_edits hs.rows
      (apply_deeds hs.distinct (supplies_supplyOf step) (fun policy version he => ?_) h))
    exact hop ⟨policy, version, he⟩

end Steps

/-! ## The claim set of a run -/

theorem shown_eq {host : Host} {s : Store}
    {covered : List ((String × String) × List LiquidityClaimEffect)} {budgetId now : String}
    {c : ClaimRow} {o : Option LiquidityClaimBundle}
    (h : s.shown host covered budgetId now c = .ok o) : o = none ∨ o = some c.bundle := by
  unfold Store.shown at h
  dsimp only at h
  split at h
  · exact .inl (Except.ok.inj h).symm
  · obtain ⟨informs, -, h⟩ := bind_ok.1 h
    have h := (Except.ok.inj h).symm
    split at h
    · exact .inr h
    · exact .inl h

theorem shown_sublist {rows : List ClaimRow} {shown : List (Option LiquidityClaimBundle)}
    (h : List.Forall₂ (fun c o => o = none ∨ o = some c.bundle) rows shown) :
    (shown.filterMap id).Sublist (rows.map (·.bundle)) := by
  induction h with
  | nil => exact .slnil
  | cons ho _ ih =>
    obtain rfl | rfl := ho
    · exact ih.trans (List.sublist_cons_self _ _)
    · exact ih.cons_cons _

theorem bundlesAt_sublist {host : Host} {s : Store} {budgetId now : String}
    {bundles : List LiquidityClaimBundle} (h : s.bundlesAt host budgetId now = .ok bundles) :
    bundles.Sublist ((s.budgetRows budgetId).map (·.bundle)) := by
  obtain ⟨covered, -, h⟩ := bind_ok.1 h
  obtain ⟨shown, hshown, h⟩ := bind_ok.1 h
  cases h
  refine (shown_sublist ((mapM_eq_ok.1 hshown).imp fun c o ho => shown_eq ho)).trans ?_
  exact List.filter_sublist.map _

theorem admissible_of_identified {host : Host} {s t : Store} {budgetId now : String}
    {set : ClaimSet} (hr : Rows s) (hi : Identified s)
    (h : s.claimSet host budgetId now = .ok (set, t)) : AdmissibleBundles set.bundles := by
  have hsub := bundlesAt_sublist (Store.claimSet_ok h).1
  have hrow : ∀ c ∈ s.budgetRows budgetId, c ∈ s.claims ∧ c.budgetId = budgetId := by
    intro c hc
    simpa [Store.budgetRows] using hc
  have hnodup : (s.budgetRows budgetId).Nodup :=
    ((perm_sortOn _ _).nodup_iff).2 (hr.ids.of_map.filter _)
  have hpass : ∀ b ∈ set.bundles, Liquidity.isBlank b.id = false ∧ EffectsPass b.effects := by
    intro b hb
    obtain ⟨c, hc, rfl⟩ := List.mem_map.1 (hsub.subset hb)
    exact hi.passes c (hrow c hc).1
  refine ⟨Liquidity.unique_eq_ok.2 ⟨fun id hid => ?_, ?_⟩, fun b hb => (hpass b hb).2⟩
  · obtain ⟨b, hb, rfl⟩ := List.mem_map.1 hid
    exact (hpass b hb).1
  · refine (hsub.map (·.id)).nodup ?_
    rw [List.map_map]
    refine List.Nodup.map_on (fun c hc d hd hid => ?_) hnodup
    obtain ⟨hcs, hcb⟩ := hrow c hc
    obtain ⟨hds, hdb⟩ := hrow d hd
    obtain ⟨hk, ho⟩ := hi.owner c hcs d hds (hcb.trans hdb.symm) hid
    have hkey : (c.budgetId, c.ownerKind, c.ownerId) = (d.budgetId, d.ownerKind, d.ownerId) := by
      rw [hcb, hdb, hk, ho]
    exact List.inj_on_of_nodup_map hr.owners hcs hds hkey

theorem identified_empty : Identified {} where
  owner := by simp
  passes := by simp

/-- **The stored claims never make the engine reject a budget**: in every run whose steps bring
admissible bundles, every claim set is admissible. -/
theorem claim_set_admissible (host : Host) (steps : List Step)
    (hC : Throughout host (BringsAdmissible host) {} steps) (budgetId now : String) (set : ClaimSet)
    (t : Store) (h : (run host {} steps).claimSet host budgetId now = .ok (set, t)) :
    AdmissibleBundles set.bundles := by
  have hinv : Sound (run host {} steps) ∧ Identified (run host {} steps) :=
    run_inv host (P := fun s => Sound s ∧ Identified s) ⟨sound_empty, identified_empty⟩ hC
      fun s step answer s' hs hstep happly =>
        ⟨hs.1.apply happly, identified_apply hs.1 hs.2 hstep happly⟩
  exact admissible_of_identified hinv.1.rows hinv.2 h

theorem claim_set_admissible_first_session :
    ∃ set t, (run sampleHost {} [firstPolicy, saveSession "s1" 0 "0" (sampleClaim "a" "food")]).claimSet
      sampleHost "budget" sampleNow = .ok (set, t) ∧ set.bundles = [sampleClaim "a" "food"] ∧
        AdmissibleBundles set.bundles := by
  have hset : sampleSet (run sampleHost {} [firstPolicy,
      saveSession "s1" 0 "0" (sampleClaim "a" "food")]) =
        some ⟨1, [sampleClaim "a" "food"]⟩ := by decide +kernel
  obtain ⟨t, ht⟩ := claimSet_of_sampleSet hset
  refine ⟨_, t, ht, rfl, claim_set_admissible sampleHost [firstPolicy,
    saveSession "s1" 0 "0" (sampleClaim "a" "food")] ⟨?_, ?_, trivial⟩ "budget" sampleNow _ t ht⟩
  · refine ⟨?_, ?_⟩
    · intro kind ownerId bundle hb
      cases hb
    · rintro effects ⟨input, r, hop, -⟩
      cases hop
  · refine ⟨fun kind ownerId bundle hb => ?_, ?_⟩
    · cases hb with
      | session given =>
        obtain rfl := some.inj given
        refine ⟨by decide +kernel, by decide +kernel, fun c hc => ?_⟩
        have hempty : (next sampleHost {} firstPolicy).claims = [] := by decide +kernel
        rw [hempty] at hc
        cases hc
    · rintro effects ⟨input, r, hop, -⟩
      cases hop

def sharedIdRun : List Step :=
  [firstPolicy, saveSession "s1" 0 "0" (sampleClaim "a" "food"),
    saveSession "s1" 1 "1" (sampleClaim "b" "food"), saveSession "s2" 0 "2" (sampleClaim "b" "rent")]

theorem shared_id_rejected :
    ¬ ∀ (host : Host) (steps : List Step) (budgetId now : String) (set : ClaimSet) (t : Store),
      (run host {} steps).claimSet host budgetId now = .ok (set, t) →
        AdmissibleBundles set.bundles := by
  intro hall
  have hset : sampleSet (run sampleHost {} sharedIdRun) =
      some ⟨3, [sampleClaim "b" "food", sampleClaim "b" "rent"]⟩ := by decide +kernel
  obtain ⟨t, ht⟩ := claimSet_of_sampleSet hset
  have hunique := (hall sampleHost sharedIdRun "budget" sampleNow _ t ht).1
  revert hunique
  rw [Liquidity.unique_eq_ok]
  decide +kernel

end BalanceFrame.Holds
