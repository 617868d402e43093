import BalanceFrame.Holds.Sound

/-!
# Claims and their metadata

A prospective claim is a row of `liquidity_claims` and one of `liquidity_claim_metadata`, written by
different statements. `Ledger` is what ties the two in every run: the row holds one effect on the
claim's scope, it is active as long as it holds, and no two claims that hold share source and scope.
`Charged` says the same of a session completion: its effects are the charges and the debit of its
payload. Both follow from `Fades`, what a statement leaves of the claims of a kind, and hold in every
run (`accounted_run`).
-/

namespace BalanceFrame.Holds

open Library Option
open Liquidity (LiquidityClaimBundle LiquidityClaimEffect LiquidityClaimState)
open Workflow (Refusal Guarded)

/-- **The prospective claims and their metadata.** -/
structure Ledger (s : Store) : Prop where
  fits : ∀ m ∈ s.metadata, ∀ c, s.ownedClaim m.budgetId .prospective m.claimId = some c →
    ClaimFits m.claim c.bundle.effects ∧ m.sourceId = m.claim.sourceId
  active : ∀ m ∈ s.metadata, ∀ c, s.ownedClaim m.budgetId .prospective m.claimId = some c →
    holds c.bundle = true →
      c.bundle.state = .active ∧ c.bundle.initiated = false ∧ m.lifecycleState = .active
  apart : ∀ m ∈ s.metadata, ∀ n ∈ s.metadata, ∀ c d,
    s.ownedClaim m.budgetId .prospective m.claimId = some c → holds c.bundle = true →
    s.ownedClaim n.budgetId .prospective n.claimId = some d → holds d.bundle = true →
    m.budgetId = n.budgetId → m.claim.sourceId = n.claim.sourceId →
    m.claim.scope.resource? = n.claim.scope.resource? → m.claimId = n.claimId

/-- **The claims of completions and their payloads.** -/
def Charged (s : Store) : Prop :=
  ∀ p ∈ s.completions, ∀ b c, s.ownedClaim b .sessionCompletion p.id = some c →
    Fits p.payload c.bundle.effects

/-- The claims of a kind keep their effects, and one that still holds is as it was. -/
def Fades (kind : OwnerKind) (s s' : Store) : Prop :=
  ∀ b o c', s'.ownedClaim b kind o = some c' → ∃ c, s.ownedClaim b kind o = some c ∧
    c'.bundle.effects = c.bundle.effects ∧
      (kind = .prospective → holds c'.bundle = true → c'.bundle = c.bundle)

/-- The metadata keeps what never changes, and leaves the active state only with its claim. -/
def Ages (s s' : Store) : Prop :=
  ∀ m' ∈ s'.metadata, ∃ m ∈ s.metadata, Store.core m' = Store.core m ∧
    (m'.lifecycleState = m.lifecycleState ∨
      ∀ c, s'.ownedClaim m.budgetId .prospective m.claimId = some c → holds c.bundle = false)

section Statements

variable {host : Host} {supply : Supply} {budgetId now : String} {kind : OwnerKind} {s t s' : Store}

theorem Fades.of_claims (h : s'.claims = s.claims) : Fades kind s s' := by
  intro b o c' hc'
  refine ⟨c', ?_, rfl, fun _ _ => rfl⟩
  rwa [Store.ownedClaim, h, ← Store.ownedClaim] at hc'

theorem Fades.read {set : ClaimSet} (h : s.claimSet host budgetId now = .ok (set, s')) :
    Fades kind s s' := by
  obtain ⟨-, rfl, -⟩ := Store.claimSet_ok h
  intro b o c' hc'
  rw [Store.ownedClaim_reread] at hc'
  obtain ⟨c, hc, rfl⟩ := map_eq_some_iff.1 hc'
  refine ⟨c, hc, by simp, fun _ hholds => ?_⟩
  obtain heq | ⟨-, -, heq⟩ := lapses_lapse host budgetId now c
  · rw [heq]
  · rw [heq] at hholds
    cases hholds

variable {bundle : LiquidityClaimBundle}

theorem Fades.persist {other : OwnerKind} {ownerId : String} (hk : kind ≠ other)
    (h : s.persistClaim budgetId other ownerId bundle = .ok s') : Fades kind s s' := by
  intro b o c' hc'
  refine ⟨c', ?_, rfl, fun _ _ => rfl⟩
  rwa [Store.ownedClaim_persist_ne h fun ⟨_, he, _⟩ => hk he] at hc'

theorem Fades.restate {other : OwnerKind} {ownerId : String} {c : ClaimRow}
    (hc : s.ownedClaim budgetId other ownerId = some c)
    (he : kind = other → bundle.effects = c.bundle.effects)
    (hend : other = .prospective → holds bundle = false)
    (h : s.persistClaim budgetId other ownerId bundle = .ok s') : Fades kind s s' := by
  intro b o c' hc'
  by_cases hown : b = budgetId ∧ kind = other ∧ o = ownerId
  · obtain ⟨rfl, rfl, rfl⟩ := hown
    obtain ⟨d, hd, hbundle⟩ := Store.ownedClaim_persist_self h
    rw [hd] at hc'
    cases hc'
    refine ⟨c, hc, hbundle ▸ he rfl, fun hkind hholds => ?_⟩
    rw [hbundle, hend hkind] at hholds
    cases hholds
  · refine ⟨c', ?_, rfl, fun _ _ => rfl⟩
    rwa [Store.ownedClaim_persist_ne h hown] at hc'

theorem Fades.trans (h : Fades kind s t) (h' : Fades kind t s') : Fades kind s s' := by
  intro b o c' hc'
  obtain ⟨d, hd, he', hsame'⟩ := h' b o c' hc'
  obtain ⟨c, hc, he, hsame⟩ := h b o d hd
  refine ⟨c, hc, he'.trans he, fun hkind hholds => ?_⟩
  have hcd := hsame' hkind hholds
  rw [hcd] at hholds ⊢
  exact hsame hkind hholds

theorem Ages.of_metadata (h : s'.metadata = s.metadata) : Ages s s' := by
  intro m hm
  exact ⟨m, h ▸ hm, rfl, .inl rfl⟩

theorem Ages.read (hr : Rows s) {set : ClaimSet}
    (h : s.claimSet host budgetId now = .ok (set, s')) : Ages s s' := by
  obtain ⟨-, rfl, -⟩ := Store.claimSet_ok h
  have hrefresh : Ages s (s.refresh host budgetId now) := by
    intro m' hm'
    obtain ⟨m, hm, rfl⟩ := List.mem_map.1 hm'
    obtain ⟨c, hat, howned⟩ := hr.described_owned hm
    refine ⟨m, hm, ?_, ?_⟩
    · dsimp only
      split
      · split
        · split
          · rfl
          · split <;> rfl
        · rfl
      · rfl
    · simp only [hat]
      by_cases hstale : (c.budgetId == budgetId && lapsed host now c.bundle) = true
      · refine .inr fun d hd => ?_
        have hclaims : (s.refresh host budgetId now).claims =
            s.claims.map (Store.lapse host budgetId now) := rfl
        rw [Store.ownedClaim_map (fun c => by simp) hclaims, howned] at hd
        cases hd
        simp [Store.lapse, hstale, holds]
      · left
        split
        · split <;> rfl
        · rfl
  unfold Store.reread
  split
  · exact hrefresh
  · exact hrefresh

theorem ledger_step (hl : Ledger s) (hf : Fades .prospective s s') (ha : Ages s s') :
    Ledger s' := by
  have hkeys {m m' : MetadataRow} (h : Store.core m' = Store.core m) :
      m'.budgetId = m.budgetId ∧ m'.claimId = m.claimId ∧ m'.claim = m.claim ∧
        m'.sourceId = m.sourceId := by
    simp only [Store.core, MetadataRow.mk.injEq] at h
    exact ⟨h.1, h.2.1, h.2.2.2.2.2.2.2.1, h.2.2.2.2.2.1⟩
  refine ⟨fun m' hm' c' hc' => ?_, fun m' hm' c' hc' hholds => ?_, ?_⟩
  · obtain ⟨m, hm, hcore, -⟩ := ha m' hm'
    obtain ⟨hb, hid, hclaim, hsource⟩ := hkeys hcore
    rw [hb, hid] at hc'
    obtain ⟨c, hc, he, -⟩ := hf _ _ c' hc'
    rw [hclaim, hsource, he]
    exact hl.fits m hm c hc
  · obtain ⟨m, hm, hcore, hlife⟩ := ha m' hm'
    obtain ⟨hb, hid, -, -⟩ := hkeys hcore
    rw [hb, hid] at hc'
    obtain ⟨c, hc, -, hsame⟩ := hf _ _ c' hc'
    have hbundle := hsame rfl hholds
    obtain hlife | hended := hlife
    · rw [hlife, hbundle]
      exact hl.active m hm c hc (hbundle ▸ hholds)
    · rw [hended c' hc'] at hholds
      cases hholds
  · intro m' hm' n' hn' c' d' hc' hholds hd' hholds' hbudget hsource hscope
    obtain ⟨m, hm, hcore, -⟩ := ha m' hm'
    obtain ⟨n, hn, hcore', -⟩ := ha n' hn'
    obtain ⟨hb, hid, hclaim, -⟩ := hkeys hcore
    obtain ⟨hb', hid', hclaim', -⟩ := hkeys hcore'
    rw [hb, hid] at hc'
    rw [hb', hid'] at hd'
    obtain ⟨c, hc, -, hsame⟩ := hf _ _ c' hc'
    obtain ⟨d, hd, -, hsame'⟩ := hf _ _ d' hd'
    rw [hb, hb'] at hbudget
    rw [hclaim, hclaim'] at hsource hscope
    rw [hid, hid']
    exact hl.apart m hm n hn c d hc (hsame rfl hholds ▸ hholds) hd (hsame' rfl hholds' ▸ hholds')
      hbudget hsource hscope

theorem ClaimFits.shared {claim claim' : ProspectiveClaim} {effects effects' : List LiquidityClaimEffect}
    (h : ClaimFits claim effects) (h' : ClaimFits claim' effects')
    (hsource : claim.sourceId = claim'.sourceId)
    (hscope : claim.scope.resource? = claim'.scope.resource?) :
    ∃ e ∈ effects, ∃ f ∈ effects', e.kind = f.kind ∧ e.resourceId = f.resourceId ∧
      e.economicObligationId = f.economicObligationId := by
  obtain ⟨e, rfl, hresource, hobligation⟩ := h
  obtain ⟨f, rfl, hresource', hobligation'⟩ := h'
  rw [hresource, hresource'] at hscope
  simp only [Option.some.injEq, Prod.mk.injEq] at hscope
  obtain ⟨hkind, hid⟩ := hscope
  refine ⟨e, List.mem_singleton_self e, f, List.mem_singleton_self f, hkind, hid, ?_⟩
  rw [hobligation, hobligation', hsource, hkind, hid]

theorem ledger_entry (hl : Ledger s) {row : MetadataRow}
    (hunused : s.claimAt budgetId bundle.id = none) (hentry : Entry s budgetId bundle row)
    (hrows : Rows s) (hp : s.persistClaim budgetId .prospective bundle.id bundle = .ok t)
    (hb : row.budgetId = budgetId) (hid : row.claimId = bundle.id)
    (hi : t.insertMetadata row = .ok s') : Ledger s' := by
  obtain ⟨_, hi⟩ := rest_ok hi
  cases hi
  obtain ⟨new, hnew, hbundle⟩ := Store.ownedClaim_persist_self hp
  have hmetadata : t.metadata = s.metadata := by
    obtain ⟨claims, rfl⟩ := Store.persistClaim_frame hp
    rfl
  -- the id is new, so every described claim is another one
  have hother {m : MetadataRow} (hm : m ∈ s.metadata) : ¬ (m.budgetId = budgetId ∧
      m.claimId = bundle.id) := by
    rintro ⟨hmb, hmid⟩
    obtain ⟨c, hat, -⟩ := hrows.described_owned hm
    rw [hmb, hmid, hunused] at hat
    cases hat
  have hold {m : MetadataRow} (hm : m ∈ s.metadata) :
      t.ownedClaim m.budgetId .prospective m.claimId =
        s.ownedClaim m.budgetId .prospective m.claimId :=
    Store.ownedClaim_persist_ne hp fun ⟨hmb, _, hmid⟩ => hother hm ⟨hmb, hmid⟩
  have hown : t.ownedClaim row.budgetId .prospective row.claimId = some new := by rw [hb, hid, hnew]
  have hfresh {m : MetadataRow} {c : ClaimRow} (hm : m ∈ s.metadata)
      (hc : s.ownedClaim m.budgetId .prospective m.claimId = some c) (hholds : holds c.bundle = true)
      (hbudget : m.budgetId = row.budgetId) (hsource : m.claim.sourceId = row.claim.sourceId)
      (hscope : m.claim.scope.resource? = row.claim.scope.resource?) : False := by
    obtain ⟨hmem, howner, -⟩ := Store.ownedClaim_eq_some_iff hc
    obtain ⟨e, he, f, hf, hkind, hresource, hobligation⟩ :=
      (hl.fits m hm c hc).1.shared hentry.effects hsource hscope
    exact hentry.apart c hmem (howner.trans (hbudget.trans hb)) hholds e he f hf hkind hresource
      hobligation
  have hcases {m : MetadataRow} (hm : m ∈ t.metadata ++ [row]) : m ∈ s.metadata ∨ m = row := by
    rw [hmetadata] at hm
    exact (List.mem_append.1 hm).imp_right List.mem_singleton.1
  refine ⟨fun m hm c hc => ?_, fun m hm c hc hholds => ?_, ?_⟩
  · obtain hm | rfl := hcases hm
    · exact hl.fits m hm c ((hold hm).symm.trans hc)
    · obtain rfl : new = c := some.inj (hown.symm.trans hc)
      rw [hbundle]
      exact ⟨hentry.effects, hentry.source⟩
  · obtain hm | rfl := hcases hm
    · exact hl.active m hm c ((hold hm).symm.trans hc) hholds
    · obtain rfl : new = c := some.inj (hown.symm.trans hc)
      rw [hbundle]
      exact ⟨hentry.state, hentry.fresh, hentry.lifecycle⟩
  · intro m hm n hn c d hc hholds hd hholds' hbudget hsource hscope
    obtain hold' | heq := hcases hm
    · have hc' := (hold hold').symm.trans hc
      obtain hold'' | rfl := hcases hn
      · exact hl.apart m hold' n hold'' c d hc' hholds ((hold hold'').symm.trans hd) hholds' hbudget
          hsource hscope
      · exact (hfresh hold' hc' hholds hbudget hsource hscope).elim
    · obtain hold'' | heq' := hcases hn
      · subst heq
        exact (hfresh hold'' ((hold hold'').symm.trans hd) hholds' hbudget.symm hsource.symm
          hscope.symm).elim
      · rw [heq, heq']

theorem ledger_edit (hr : Rows s) (hl : Ledger s) (he : Edit supply budgetId s s') : Ledger s' := by
  cases he with
  | restate owned id effects ends persisted =>
    obtain ⟨claims, hs'⟩ := Store.persistClaim_frame persisted
    refine ledger_step hl (.restate owned (fun hkind => ?_) ends persisted)
      (.of_metadata (by rw [hs']; rfl))
    obtain heq | ⟨hproposal, -⟩ := effects
    · exact heq
    · rw [← hkind] at hproposal
      cases hproposal
  | supplied supplied kinds persisted =>
    obtain ⟨claims, hs'⟩ := Store.persistClaim_frame persisted
    refine ledger_step hl (.persist ?_ persisted) (.of_metadata (by rw [hs']; rfl))
    obtain rfl | ⟨rfl, -⟩ := kinds <;> simp
  | prospective supplied unused entry persisted budget claim inserted =>
    exact ledger_entry hl unused entry hr persisted budget claim inserted
  | admission supplied unused fits read persisted =>
    rename_i t p claim host now set
    obtain ⟨claims, hs'⟩ := Store.persistClaim_frame persisted
    have hread : Ledger t := ledger_step (s := { s with completions := s.completions ++ [p] })
      ⟨hl.fits, hl.active, hl.apart⟩ (.read read) (.read (hr.add_completion unused) read)
    exact ledger_step hread (.persist (by simp) persisted) (.of_metadata (by rw [hs']; rfl))
  | read read => exact ledger_step hl (.read read) (.read hr read)
  | metadata f kept ended =>
    refine ledger_step hl (.of_claims rfl) fun m' hm' => ?_
    obtain ⟨m, hm, rfl⟩ := List.mem_map.1 hm'
    exact ⟨m, hm, kept m, ended m⟩
  | completion id f kept => exact ledger_step hl (.of_claims rfl) (.of_metadata rfl)
  | rest same => exact ledger_step hl (.of_claims same.claims) (.of_metadata same.metadata)

theorem charged_edit (hr : Rows s) (hc : Charged s) (he : Edit supply budgetId s s') :
    Charged s' := by
  have hstep {t t' : Store} (h : Charged t) (hcompletions : ∀ p' ∈ t'.completions,
      ∃ p ∈ t.completions, p'.id = p.id ∧ p'.payload = p.payload)
      (hf : Fades .sessionCompletion t t') : Charged t' := by
    intro p' hp' b c' hc'
    obtain ⟨p, hp, hid, hpayload⟩ := hcompletions p' hp'
    rw [hid] at hc'
    obtain ⟨c, hfound, heffects, -⟩ := hf b p.id c' hc'
    rw [hpayload, heffects]
    exact h p hp b c hfound
  have hsame {t t' : Store} (h : t'.completions = t.completions) :
      ∀ p' ∈ t'.completions, ∃ p ∈ t.completions, p'.id = p.id ∧ p'.payload = p.payload :=
    fun p' hp' => ⟨p', h ▸ hp', rfl, rfl⟩
  cases he with
  | restate owned id effects ends persisted =>
    obtain ⟨claims, hs'⟩ := Store.persistClaim_frame persisted
    refine hstep hc (hsame (by rw [hs']; rfl)) (.restate owned (fun hkind => ?_) ends persisted)
    obtain heq | ⟨hproposal, -⟩ := effects
    · exact heq
    · rw [← hkind] at hproposal
      cases hproposal
  | supplied supplied kinds persisted =>
    obtain ⟨claims, hs'⟩ := Store.persistClaim_frame persisted
    refine hstep hc (hsame (by rw [hs']; rfl)) (.persist ?_ persisted)
    obtain rfl | ⟨rfl, -⟩ := kinds <;> simp
  | prospective supplied unused entry persisted budget claim inserted =>
    obtain ⟨claims, ht⟩ := Store.persistClaim_frame persisted
    obtain ⟨_, -, hs'⟩ := bind_ok.1 inserted
    cases hs'
    have hfades : Fades .sessionCompletion s _ := .persist (by simp) persisted
    exact hstep hc (hsame (by rw [ht]; rfl)) (hfades.trans (.of_claims rfl))
  | admission supplied unused fits read persisted =>
    rename_i t p claim host now set
    obtain ⟨claims, hs'⟩ := Store.persistClaim_frame persisted
    have hcompletions : s'.completions = s.completions ++ [p] := by
      obtain ⟨-, rfl, -⟩ := Store.claimSet_ok read
      rw [hs']
      simp
    intro q hq b c' hc'
    rw [hcompletions] at hq
    by_cases hown : b = budgetId ∧ q.id = p.id
    · obtain ⟨rfl, hid⟩ := hown
      have hqp : q = p := by
        obtain hq | hq := List.mem_append.1 hq
        · exact absurd hid (unused q hq)
        · exact List.mem_singleton.1 hq
      subst hqp
      obtain ⟨d, hd, hbundle⟩ := Store.ownedClaim_persist_self persisted
      obtain rfl : d = c' := some.inj (hd.symm.trans hc')
      exact hbundle ▸ fits
    · rw [Store.ownedClaim_persist_ne persisted fun ⟨hb, _, ho⟩ => hown ⟨hb, ho⟩] at hc'
      have hfades : Fades .sessionCompletion s t := by
        have hsame : Fades .sessionCompletion s { s with completions := s.completions ++ [p] } :=
          .of_claims rfl
        exact hsame.trans (.read read)
      obtain ⟨c, hfound, heffects, -⟩ := hfades b q.id c' hc'
      obtain ⟨hmem, -, hkind, howner⟩ := Store.ownedClaim_eq_some_iff hfound
      obtain ⟨r, hr', hrid⟩ := hr.owned c hmem hkind
      rw [heffects]
      obtain hq | hq := List.mem_append.1 hq
      · exact hc q hq b c hfound
      · obtain rfl := List.mem_singleton.1 hq
        exact absurd (hrid.trans howner) (unused r hr')
  | read read =>
    refine hstep hc (hsame ?_) (.read read)
    obtain ⟨-, rfl, -⟩ := Store.claimSet_ok read
    simp
  | metadata f kept ended => exact hstep hc (hsame rfl) (.of_claims rfl)
  | completion id f kept =>
    refine hstep hc (fun p' hp' => ?_) (.of_claims rfl)
    obtain ⟨p, hp, rfl⟩ := List.mem_map.1 hp'
    refine ⟨p, hp, ?_⟩
    split
    · exact ⟨(kept p).1, (kept p).2.2⟩
    · exact ⟨rfl, rfl⟩
  | rest same => exact hstep hc (hsame same.completions) (.of_claims same.claims)

/-- The rows, the ledger and the charges of a store. -/
structure Accounted (s : Store) : Prop where
  sound : Sound s
  ledger : Ledger s
  charged : Charged s

theorem accounted_empty : Accounted {} :=
  ⟨sound_empty, ⟨by simp, by simp, by simp⟩, by simp [Charged]⟩

theorem accounted_edits (hr : Rows s) (hl : Ledger s) (hc : Charged s)
    (h : Edits supply budgetId s s') : Ledger s' ∧ Charged s' := by
  have hkeep : Rows s' ∧ Ledger s' ∧ Charged s' :=
    h.keep (P := fun t => Rows t ∧ Ledger t ∧ Charged t) ⟨hr, hl, hc⟩ fun t t' ht hedit =>
      ⟨ht.1.edit hedit, ledger_edit ht.1 ht.2.1 hedit, charged_edit ht.1 ht.2.2 hedit⟩
  exact hkeep.2

theorem accounted_deeds (h : Accounted s) (hd : Deeds host supply budgetId s s') : Accounted s' := by
  obtain ⟨hl, hc⟩ := accounted_edits h.sound.rows h.ledger h.charged (deeds_edits h.sound.rows hd)
  exact ⟨h.sound.deeds hd, hl, hc⟩

theorem accounted_apply {step : Step} {answer : Answer} (ha : Accounted s)
    (h : apply host s step = .ok (answer, s')) : Accounted s' := by
  by_cases hop : ∃ policy expectedVersion, step.op = .savePolicy policy expectedVersion
  · obtain ⟨call, op⟩ := step
    obtain ⟨policy, expectedVersion, rfl⟩ := hop
    have hpolicy : Accounted (withPolicy s call.budgetId policy) :=
      ⟨ha.sound.withPolicy policy, ⟨ha.ledger.fits, ha.ledger.active, ha.ledger.apart⟩, ha.charged⟩
    exact accounted_deeds hpolicy (@savePolicy_deeds host anySupply _ _ _ policy expectedVersion
      ha.sound.distinct (quietly_ok h).1).2
  · exact accounted_deeds ha (apply_deeds ha.sound.distinct (supplies_any step)
      (fun policy version he => hop ⟨policy, version, he⟩) h)

theorem accounted_run (ha : Accounted s) (steps : List Step) : Accounted (run host s steps) :=
  run_inv host ha throughout_true fun _ _ _ _ ha _ h => accounted_apply ha h

end Statements

end BalanceFrame.Holds
