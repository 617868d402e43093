import BalanceFrame.Holds.Ledger
import BalanceFrame.Holds.CompletionLifecycle

/-!
# Holds that a completion takes over

A live session completion holds the money its cart charges, so `claimSet` omits the prospective
claims that held it before, and verifying the completion consumes them. The one compares a claim
with the effects of the completion's bundle, the other with the charges of its payload; `Covers` and
`Takes` are the two comparisons. An omitted claim is covered by an effect of its own, and it is
taken when the completion is verified (`omitted_takes`); so are claims that are not yet in force or
lapsed unread, which no claim set shows (`upcoming_claim_consumed`).
-/

namespace BalanceFrame.Holds

open Library List Bool
open Liquidity (LiquidityClaimBundle LiquidityClaimEffect LiquidityClaimState)
open Workflow (Refusal Guarded)

variable {q : Completion} {row : MetadataRow × ClaimRow} {rest : List (MetadataRow × ClaimRow)}
  {evidenceId : String}

/-- A claim of a completion that holds and is initiated or unexpired. -/
def live (host : Host) (now : String) (b : LiquidityClaimBundle) : Bool :=
  holds b && (b.initiated || !host.atMost b.expiresAt now)

/-- **A live completion covers a claim** with one of its effects. -/
structure Covers (host : Host) (s : Store) (budgetId now : String) (p : Completion)
    (e : LiquidityClaimEffect) (m : MetadataRow) : Prop where
  completion : p ∈ s.completions
  claim : ∃ d ∈ s.claims, Store.OwnedBy budgetId .sessionCompletion p.id d ∧
    live host now d.bundle = true ∧ e ∈ d.bundle.effects
  actor : m.actorId = p.actorId
  source : m.claim.sourceId = sessionSource p.payload.sessionId p.payload.sessionVersion
  scope : m.claim.scope.resource? = some (e.kind, e.resourceId)
  amount : e.amount = m.claim.amount

/-- A prospective claim that holds, has not lapsed and is in force. -/
structure Counts (host : Host) (s : Store) (budgetId now : String) (c : ClaimRow)
    (m : MetadataRow) : Prop where
  claim : c ∈ s.claims
  budget : c.budgetId = budgetId
  metadata : s.metadataOf c = some m
  holds : holds c.bundle = true
  unexpired : lapsed host now c.bundle = false
  effective : upcoming host now c.bundle m.claim = false

/-- `claimSet` omits a claim because a completion covers it. -/
def Omitted (host : Host) (s : Store) (budgetId now : String) (c : ClaimRow) (m : MetadataRow) :
    Prop :=
  Counts host s budgetId now c m ∧
    ∃ covered, s.covering host budgetId now = .ok covered ∧ Store.isCovered covered m = true

/-- **A verified completion takes a claim**: an active one of its actor and session version that
equals a charge or the account debit. -/
def Takes (p : Completion) (m : MetadataRow) (c : ClaimRow) : Prop :=
  m.budgetId = p.budgetId ∧ m.actorId = p.actorId ∧ m.lifecycleState = .active ∧
    m.sourceId = sessionSource p.payload.sessionId p.payload.sessionVersion ∧
      c.bundle.state = .active ∧ c.bundle.initiated = false ∧
        Store.matchesCompletion p.payload m.claim = true

instance {p : Completion} {m : MetadataRow} {c : ClaimRow} : Decidable (Takes p m c) :=
  inferInstanceAs (Decidable (_ ∧ _ ∧ _ ∧ _ ∧ _ ∧ _ ∧ _))

/-- A settled claim. -/
def ClaimRow.settled (c : ClaimRow) : ClaimRow :=
  { c with bundle := { c.bundle with state := .settled } }

/-- The metadata of a claim that a piece of evidence consumes. -/
def MetadataRow.consumedBy (m : MetadataRow) (evidenceId now : String) : MetadataRow :=
  { m with
    lifecycleState := .consumed
    updatedAt := now
    consumptionEvidenceId := some (Store.claimEvidence evidenceId m.claimId) }

section Coverage

variable {host : Host} {s t s' : Store} {budgetId now : String} {p : Completion}
  {e : LiquidityClaimEffect} {c : ClaimRow} {m : MetadataRow}

/-! ## What is omitted -/

/-- **What covers a claim is a live completion** of its actor and session version. -/
theorem covers_of_isCovered {covered : List ((String × String) × List LiquidityClaimEffect)}
    (h : s.covering host budgetId now = .ok covered) (hm : Store.isCovered covered m = true) :
    ∃ p e, Covers host s budgetId now p e m := by
  simp only [Store.isCovered, Option.any_eq_true] at hm
  obtain ⟨entry, hfound, hcovered⟩ := hm
  have hkey := find?_some hfound
  have hentry : entry ∈ covered := mem_reverse.1 (mem_of_find?_eq_some hfound)
  obtain ⟨d, hd, hread⟩ := exists_of_forall₂ (mapM_eq_ok.1 h) hentry
  obtain ⟨p, hp, hread⟩ := bind_ok.1 hread
  cases hread
  simp only [mem_filter, Store.budgetRows, mem_sortOn, and_eq_true, beq_iff_eq] at hd
  obtain ⟨⟨hmem, hb⟩, ⟨hkind, hholds⟩, hlive⟩ := hd
  have hfind := orStop_ok.1 hp
  have hid : p.id = d.ownerId := by simpa using find?_some hfind
  simp only [beq_iff_eq, Prod.mk.injEq] at hkey
  simp only [coveredBy, Option.any_eq_true, any_eq_true, and_eq_true, beq_iff_eq]
    at hcovered
  obtain ⟨⟨kind, id⟩, hscope, e, he, ⟨hekind, heid⟩, hamount⟩ := hcovered
  refine ⟨p, e, mem_of_find?_eq_some hfind, ⟨d, hmem, ⟨hb, hkind, hid.symm⟩, ?_, he⟩,
    hkey.1.symm, hkey.2.symm, ?_, hamount⟩
  · simp [live, hholds, hlive]
  · rw [hscope, hekind, heid]

theorem Counts.owned (hr : Rows s) (h : Counts host s budgetId now c m) :
    m ∈ s.metadata ∧ m.budgetId = budgetId ∧ m.claimId = c.id ∧
      s.claimAt m.budgetId m.claimId = some c ∧
        s.ownedClaim m.budgetId .prospective m.claimId = some c := by
  have hm : m ∈ s.metadata := mem_of_find?_eq_some h.metadata
  have hkey := find?_some h.metadata
  simp only [and_eq_true, beq_iff_eq] at hkey
  obtain ⟨d, hat, howned⟩ := hr.described_owned hm
  obtain ⟨hd, hdb, hdid⟩ := claimAt_eq_some hat
  have hsame : (d.budgetId, d.id) = (c.budgetId, c.id) := by rw [hdb, hdid, hkey.1, hkey.2]
  obtain rfl := inj_on_of_nodup_map hr.ids hd h.claim hsame
  exact ⟨hm, hkey.1.trans h.budget, hkey.2, hat, howned⟩

theorem covers_one (hr : Rows s) (hl : Ledger s) {c' : ClaimRow} {m' : MetadataRow}
    (h : Counts host s budgetId now c m) (h' : Counts host s budgetId now c' m')
    (hc : Covers host s budgetId now p e m) (hc' : Covers host s budgetId now p e m') : c = c' := by
  obtain ⟨hm, hb, hid, -, howned⟩ := h.owned hr
  obtain ⟨hm', hb', hid', -, howned'⟩ := h'.owned hr
  have hsame : m.claimId = m'.claimId :=
    hl.apart m hm m' hm' c c' howned h.holds howned' h'.holds (hb.trans hb'.symm)
      (hc.source.trans hc'.source.symm) (hc.scope.trans hc'.scope.symm)
  rw [hb, hsame, ← hb', howned'] at howned
  exact (Option.some.inj howned).symm

/-- **An omitted claim is taken** when the completion that covers it is verified. The currency of an
account's claim is compared with that of the first charge. -/
theorem omitted_takes (hr : Rows s) (hl : Ledger s) (hcharged : Charged s)
    (h : Counts host s p.budgetId now c m) (hc : Covers host s p.budgetId now p e m)
    (hcurrency : e.kind = .accountDebit →
      p.payload.categoryCharges.head?.map (·.2.currency) = some e.amount.currency) :
    Takes p m c := by
  obtain ⟨hm, hb, hid, -, howned⟩ := h.owned hr
  obtain ⟨hstate, hinit, hactive⟩ := hl.active m hm c howned h.holds
  have hsource := (hl.fits m hm c howned).2.trans hc.source
  refine ⟨hb, hc.actor, hactive, hsource, hstate, hinit, ?_⟩
  obtain ⟨d, hd, hown, -, he⟩ := hc.claim
  have hfits := hcharged p hc.completion p.budgetId d (hr.ownedClaim_eq hd hown)
  have hscope := hc.scope
  unfold Store.matchesCompletion
  cases hclaim : m.claim.scope with
  | account id =>
    simp only [hclaim, ClaimScope.resource?, Option.some.injEq, Prod.mk.injEq] at hscope
    obtain ⟨hkind, rfl⟩ := hscope
    obtain ⟨haccount, hminor⟩ := hfits.debits e he hkind.symm
    rw [← hc.amount]
    simp [haccount, hminor, hcurrency hkind.symm]
  | category id =>
    simp only [hclaim, ClaimScope.resource?, Option.some.injEq, Prod.mk.injEq] at hscope
    obtain ⟨hkind, rfl⟩ := hscope
    refine any_eq_true.2 ⟨_, hfits.charges e he hkind.symm, ?_⟩
    simp [hc.amount]
  | other => simp [hclaim, ClaimScope.resource?] at hscope

/-- **A claim that counts is in the claim set**, unless it only informs or is covered. -/
theorem counts_shown (h : Counts host s budgetId now c m) {set : ClaimSet}
    (hset : s.claimSet host budgetId now = .ok (set, t)) :
    s.informational budgetId c (some m) = .ok true ∨ c.bundle ∈ set.bundles ∨
      ∃ p e, Covers host s budgetId now p e m := by
  obtain ⟨covered, hcovering, hbundles⟩ := bind_ok.1 (Store.claimSet_ok hset).1
  obtain ⟨shown, hshown, hbundles⟩ := bind_ok.1 hbundles
  have heq := Except.ok.inj hbundles
  have hmem : c ∈ (s.budgetRows budgetId).filter fun c => !lapsed host now c.bundle := by
    simp [Store.budgetRows, h.claim, h.budget, h.unexpired]
  obtain ⟨o, ho, hshow⟩ := exists_of_forall₂ (mapM_eq_ok.1 hshown).flip hmem
  by_cases hcover : Store.isCovered covered m = true
  · exact .inr (.inr (covers_of_isCovered hcovering hcover))
  · simp only [Store.shown, h.metadata, Option.any_some, h.effective, hcover, Bool.or_self,
      Bool.false_eq_true, if_false] at hshow
    obtain ⟨informs, hinforms, hshow⟩ := bind_ok.1 hshow
    cases informs with
    | true => exact .inl hinforms
    | false =>
      simp only [Bool.not_false, h.holds, Bool.true_or, Bool.and_self, if_true,
        Except.ok.injEq] at hshow
      refine .inr (.inl ?_)
      rw [← heq]
      exact mem_filterMap.2 ⟨_, ho, hshow.symm⟩

/-! ## What is consumed -/

/-- A row that `consumeCompletionProspectiveClaims` settles. -/
def eligible (p : Completion) (row : MetadataRow × ClaimRow) : Bool :=
  decide (row.2.bundle.state = .active ∧ row.2.bundle.initiated = false ∧
    Store.matchesCompletion p.payload row.1.claim = true)

/-- A claim id is among the settled rows. -/
def consumes (p : Completion) (rows : List (MetadataRow × ClaimRow)) (claimId : String) : Bool :=
  rows.any fun row => row.1.claimId == claimId && eligible p row

theorem consumes_cons (hrow : eligible p row = true) {id : String} :
    consumes p (row :: rest) id = true ↔ row.1.claimId = id ∨ consumes p rest id = true := by
  simp [consumes, hrow]

theorem settled_cons (hrow : eligible p row = true) (c : ClaimRow) :
    ((fun c : ClaimRow => if c.budgetId = p.budgetId ∧ c.ownerKind = .prospective ∧
        consumes p rest c.ownerId = true then c.settled else c) ∘ fun c =>
      if Store.OwnedBy p.budgetId .prospective row.1.claimId c then c.settled else c) c =
      if c.budgetId = p.budgetId ∧ c.ownerKind = .prospective ∧
        consumes p (row :: rest) c.ownerId = true then c.settled else c := by
  rw [Function.comp_apply]
  by_cases hown : Store.OwnedBy p.budgetId .prospective row.1.claimId c
  · have hnow : c.budgetId = p.budgetId ∧ c.ownerKind = .prospective ∧
        consumes p (row :: rest) c.ownerId = true :=
      ⟨hown.1, hown.2.1, (consumes_cons hrow).2 (.inl hown.2.2.symm)⟩
    rw [if_pos hown]
    refine Eq.trans ?_ (if_pos hnow).symm
    split <;> rfl
  · rw [if_neg hown]
    by_cases hrest : c.budgetId = p.budgetId ∧ c.ownerKind = .prospective ∧
        consumes p rest c.ownerId = true
    · rw [if_pos hrest, if_pos ⟨hrest.1, hrest.2.1, (consumes_cons hrow).2 (.inr hrest.2.2)⟩]
    · rw [if_neg hrest, if_neg]
      rintro ⟨hb, hk, hconsumes⟩
      obtain hid | hconsumes := (consumes_cons hrow).1 hconsumes
      · exact hown ⟨hb, hk, hid.symm⟩
      · exact hrest ⟨hb, hk, hconsumes⟩

theorem consumed_cons (hrow : eligible p row = true) (n : MetadataRow) :
    ((fun n : MetadataRow => if n.budgetId = p.budgetId ∧ n.lifecycleState = .active ∧
        consumes p rest n.claimId = true then n.consumedBy evidenceId now else n) ∘ fun n =>
      if n.budgetId = p.budgetId ∧ n.claimId = row.1.claimId ∧ n.lifecycleState = .active then
        { n with
          lifecycleState := .consumed
          updatedAt := now
          consumptionEvidenceId := some (Store.claimEvidence evidenceId row.1.claimId) }
      else n) n =
      if n.budgetId = p.budgetId ∧ n.lifecycleState = .active ∧
        consumes p (row :: rest) n.claimId = true then n.consumedBy evidenceId now else n := by
  rw [Function.comp_apply]
  by_cases hown : n.budgetId = p.budgetId ∧ n.claimId = row.1.claimId ∧ n.lifecycleState = .active
  · have hnow : n.budgetId = p.budgetId ∧ n.lifecycleState = .active ∧
        consumes p (row :: rest) n.claimId = true :=
      ⟨hown.1, hown.2.2, (consumes_cons hrow).2 (.inl hown.2.1.symm)⟩
    rw [if_pos hown]
    refine Eq.trans ?_ (if_pos hnow).symm
    rw [← hown.2.1, if_neg (fun h => nomatch h.2.1)]
    rfl
  · rw [if_neg hown]
    by_cases hrest : n.budgetId = p.budgetId ∧ n.lifecycleState = .active ∧
        consumes p rest n.claimId = true
    · rw [if_pos hrest, if_pos ⟨hrest.1, hrest.2.1, (consumes_cons hrow).2 (.inr hrest.2.2)⟩]
    · rw [if_neg hrest, if_neg]
      rintro ⟨hb, hactive, hconsumes⟩
      obtain hid | hconsumes := (consumes_cons hrow).1 hconsumes
      · exact hown ⟨hb, hid.symm, hactive⟩
      · exact hrest ⟨hb, hactive, hconsumes⟩

theorem consumeRows_tables {rows : List (MetadataRow × ClaimRow)}
    (hstored : ∀ row ∈ rows, ∃ c, s.ownedClaim p.budgetId .prospective row.1.claimId = some c)
    (hsame : ∀ row ∈ rows, ∀ c ∈ s.claims,
      Store.OwnedBy p.budgetId .prospective row.1.claimId c →
        c.settled.bundle = row.2.settled.bundle)
    (h : rows.foldlM (Store.consumeClaim p evidenceId now) s = .ok s') :
    s'.claims = s.claims.map (fun c =>
      if c.budgetId = p.budgetId ∧ c.ownerKind = .prospective ∧ consumes p rows c.ownerId = true then
        c.settled else c) ∧
    s'.metadata = s.metadata.map fun n =>
      if n.budgetId = p.budgetId ∧ n.lifecycleState = .active ∧ consumes p rows n.claimId = true then
        n.consumedBy evidenceId now else n := by
  induction rows generalizing s with
  | nil =>
    rw [foldlM_nil, pure_ok] at h
    cases h
    simp [consumes]
  | cons row rest ih =>
    obtain ⟨u, hconsume, hrest⟩ := foldlM_cons_ok.1 h
    obtain ⟨hnot, rfl⟩ | ⟨hcond, t, hpersist, hu⟩ := consumeClaim_cases hconsume
    · have hskip (id : String) : consumes p (row :: rest) id = consumes p rest id := by
        have hrow : eligible p row = false := by simpa [eligible] using hnot
        simp [consumes, hrow]
      simp only [hskip]
      exact ih (fun r hr => hstored r (mem_cons_of_mem _ hr))
        (fun r hr => hsame r (mem_cons_of_mem _ hr)) hrest
    · have hrow : eligible p row = true := by simpa [eligible] using hcond
      obtain ⟨d, hd⟩ := hstored row mem_cons_self
      -- the row is settled as it is stored
      obtain ⟨hclaims, hmetadata⟩ : u.claims = s.claims.map (fun c =>
          if Store.OwnedBy p.budgetId .prospective row.1.claimId c then c.settled else c) ∧
            t.metadata = s.metadata := by
        rw [hu]
        obtain ⟨-, -, rfl⟩ | ⟨hnone, -, -⟩ := Store.persistClaim_cases hpersist
        · refine ⟨map_congr_left fun c hc => ?_, rfl⟩
          split
          · next hown =>
            have hbundle := hsame row mem_cons_self c hc hown
            have heq : c.settled = { c with bundle := row.2.settled.bundle } := by
              rw [← hbundle]
              rfl
            rw [heq]
            rfl
          · rfl
        · rw [hnone] at hd
          cases hd
      have hstored' : ∀ r ∈ rest, ∃ c,
          u.ownedClaim p.budgetId .prospective r.1.claimId = some c := by
        intro r hr
        obtain ⟨c, hc⟩ := hstored r (mem_cons_of_mem _ hr)
        refine ⟨_, (Store.ownedClaim_map (fun c => ?_) hclaims).trans (by rw [hc, Option.map_some])⟩
        split <;> simp [ClaimRow.settled]
      have hsame' : ∀ r ∈ rest, ∀ c ∈ u.claims,
          Store.OwnedBy p.budgetId .prospective r.1.claimId c →
            c.settled.bundle = r.2.settled.bundle := by
        intro r hr c hc hown
        rw [hclaims] at hc
        obtain ⟨c₀, hc₀, rfl⟩ := mem_map.1 hc
        have hback := hsame r (mem_cons_of_mem _ hr) c₀ hc₀
        by_cases hrow : Store.OwnedBy p.budgetId .prospective row.1.claimId c₀
        · rw [if_pos hrow] at hown ⊢
          exact hback hown
        · rw [if_neg hrow] at hown ⊢
          exact hback hown
      obtain ⟨hc, hn⟩ := ih hstored' hsame' hrest
      refine ⟨hc.trans ?_, hn.trans ?_⟩
      · rw [hclaims, map_map]
        exact map_congr_left fun c _ => settled_cons hrow c
      · rw [hu, hmetadata, map_map]
        exact map_congr_left fun n _ => consumed_cons hrow n

theorem changeCompletionClaim_claims {state : LiquidityClaimState}
    (h : s.changeCompletionClaim p state = .ok t) :
    (∃ f : ClaimRow → ClaimRow, t.claims = s.claims.map f ∧
      (∀ c, (f c).budgetId = c.budgetId ∧ (f c).id = c.id ∧ (f c).ownerKind = c.ownerKind) ∧
      ∀ c, c.ownerKind = .prospective → f c = c) ∧ t.metadata = s.metadata := by
  obtain ⟨c, hc, ⟨-, rfl⟩ | ⟨-, hp⟩⟩ := Store.changeCompletionClaim_ok h
  · exact ⟨⟨id, by simp, by simp, by simp⟩, rfl⟩
  · obtain ⟨-, -, rfl⟩ | ⟨hnone, -, -⟩ := Store.persistClaim_cases hp
    · refine ⟨⟨_, rfl, fun c => ?_, fun c hkind => ?_⟩, rfl⟩
      · split <;> simp
      · rw [if_neg]
        rintro ⟨-, hcompletion, -⟩
        rw [hkind] at hcompletion
        cases hcompletion
    · rw [hnone] at hc
      cases hc

theorem consumes_iff (hr : Rows s) (hm : m ∈ s.metadata)
    (hc : s.claimAt m.budgetId m.claimId = some c) :
    m.budgetId = p.budgetId ∧ consumes p (s.sessionClaims p) m.claimId = true ↔ Takes p m c := by
  constructor
  · rintro ⟨hb, hconsumes⟩
    obtain ⟨row, hrow, hcond⟩ := any_eq_true.1 hconsumes
    simp only [and_eq_true, beq_iff_eq] at hcond
    obtain ⟨hid, heligible⟩ := hcond
    obtain ⟨hmem, hbudget, hactor, hactive, hsource, hat⟩ := mem_sessionClaims hrow
    have hkey : (row.1.budgetId, row.1.claimId) = (m.budgetId, m.claimId) := by
      rw [hbudget, hid, hb]
    have hsame := inj_on_of_nodup_map hr.single hmem hm hkey
    rw [hsame] at hactor hactive hsource hat
    rw [hat] at hc
    obtain rfl := Option.some.inj hc
    simp only [eligible, hsame, decide_eq_true_eq] at heligible
    exact ⟨hb, hactor, hactive, hsource, heligible⟩
  · rintro ⟨hb, hactor, hactive, hsource, heligible⟩
    refine ⟨hb, any_eq_true.2 ⟨(m, c), ?_, by simpa [eligible] using heligible⟩⟩
    refine mem_filterMap.2 ⟨m, hm, ?_⟩
    rw [if_pos ⟨hb, hactor, hactive, hsource⟩, hc]
    rfl

/-- **A verified completion consumes exactly the claims it takes.** -/
theorem verifyCompletion_takes (hr : Rows s)
    (h : s.verifyCompletion p evidenceId now = .ok s') (hm : m ∈ s.metadata)
    (hc : s.claimAt m.budgetId m.claimId = some c) :
    s'.claimAt m.budgetId m.claimId = some (if Takes p m c then c.settled else c) ∧
      (if Takes p m c then m.consumedBy evidenceId now else m) ∈ s'.metadata := by
  obtain ⟨t, ht, h⟩ := bind_ok.1 h
  obtain ⟨u, hu, h⟩ := bind_ok.1 h
  obtain ⟨w, hw, h⟩ := bind_ok.1 h
  have hsettles : Edits anySupply p.budgetId t u := changeCompletionClaim_edits rfl hu
  have hru : Rows u := hr.edits ((insertEvidence_edits ht).trans hsettles)
  obtain ⟨hcs, hms⟩ : t.claims = s.claims ∧ t.metadata = s.metadata := by
    obtain ⟨_, ht⟩ := rest_ok ht
    cases ht
    exact ⟨rfl, rfl⟩
  obtain ⟨⟨f, hf, hkeys, hkeep⟩, hmu⟩ := changeCompletionClaim_claims hu
  rw [hcs] at hf
  rw [hms] at hmu
  -- the claim is as it was when the loop starts
  obtain ⟨hcmem, hcb, hcid⟩ := claimAt_eq_some hc
  obtain ⟨d, hat, howned⟩ := hr.described_owned hm
  obtain rfl : d = c := Option.some.inj (hat.symm.trans hc)
  obtain ⟨-, -, hkind, howner⟩ := Store.ownedClaim_eq_some_iff howned
  have hcu : u.claimAt m.budgetId m.claimId = some d := by
    have hmap : u.claimAt m.budgetId m.claimId = (s.claimAt m.budgetId m.claimId).map f := by
      unfold Store.claimAt
      rw [hf, find?_map]
      congr 2
      funext c
      simp [(hkeys c).1, (hkeys c).2.1]
    rw [hmap, hc, Option.map_some, hkeep d hkind]
  have htakes := consumes_iff (p := p) hru (hmu ▸ hm) hcu
  obtain ⟨hclaims, hmetadata⟩ := consumeRows_tables
    (fun row hrow => ⟨_, hru.sessionClaims_owned hrow⟩)
    (fun row hrow c hc hown => by
      have hfound := hru.ownedClaim_eq hc hown
      rw [hru.sessionClaims_owned hrow] at hfound
      rw [Option.some.inj hfound]) hw
  rw [Store.updateCompletion_ok h]
  constructor
  · have hat' : w.claimAt m.budgetId m.claimId = (u.claimAt m.budgetId m.claimId).map fun c =>
        if c.budgetId = p.budgetId ∧ c.ownerKind = .prospective ∧
          consumes p (u.sessionClaims p) c.ownerId = true then c.settled else c := by
      unfold Store.claimAt
      rw [hclaims, find?_map]
      congr 2
      funext c
      simp only [Function.comp_apply]
      split <;> rfl
    refine hat'.trans ?_
    rw [hcu, Option.map_some, hcb, hkind, howner]
    by_cases htake : Takes p m d
    · rw [if_pos htake, if_pos ⟨htake.1, rfl, (htakes.2 htake).2⟩]
    · rw [if_neg htake, if_neg fun hcond => htake (htakes.1 ⟨hcond.1, hcond.2.2⟩)]
  · have hmem : m ∈ u.metadata := hmu ▸ hm
    have himage := mem_map_of_mem (f := fun n : MetadataRow =>
      if n.budgetId = p.budgetId ∧ n.lifecycleState = .active ∧
        consumes p (u.sessionClaims p) n.claimId = true then n.consumedBy evidenceId now else n) hmem
    rw [← hmetadata] at himage
    by_cases htake : Takes p m d
    · rw [if_pos htake]
      rwa [if_pos ⟨htake.1, htake.2.2.1, (htakes.2 htake).2⟩] at himage
    · rw [if_neg htake]
      rwa [if_neg fun hcond => htake (htakes.1 ⟨hcond.1, hcond.2.2⟩)] at himage

/-! ## What is closed -/

theorem closeCompletion_uncovers {outcome closedAt : String} (hr : Rows s)
    (hphase : p.phase ≠ .writeIntent) (h : s.closeCompletion p outcome closedAt = .ok s')
    (hid : q.id = p.id) : ¬ Covers host s' p.budgetId now q e m := by
  have hcloses : Edits anySupply p.budgetId s s' := closeCompletion_edits rfl h
  have hr' : Rows s' := hr.edits hcloses
  unfold Store.closeCompletion at h
  rw [if_neg hphase] at h
  obtain ⟨t, ht, h⟩ := bind_ok.1 h
  obtain ⟨d, hd, hstate⟩ : ∃ d, t.ownedClaim p.budgetId .sessionCompletion p.id = some d ∧
      d.bundle.state = closedState outcome := by
    obtain ⟨c, hc, ⟨hsame, rfl⟩ | ⟨-, hp⟩⟩ := Store.changeCompletionClaim_ok ht
    · exact ⟨c, hc, hsame⟩
    · obtain ⟨d, hd, hbundle⟩ := Store.ownedClaim_persist_self hp
      exact ⟨d, hd, by rw [hbundle]; rfl⟩
  have hclaims : s'.claims = t.claims := by
    rw [Store.updateCompletion_ok h]
    rfl
  rintro ⟨-, ⟨d', hd', hown, hlive, -⟩, -, -, -, -⟩
  rw [hid] at hown
  have hfound := hr'.ownedClaim_eq hd' hown
  rw [Store.ownedClaim, hclaims, ← Store.ownedClaim, hd] at hfound
  obtain rfl := Option.some.inj hfound
  unfold closedState at hstate
  split at hstate <;> simp [live, holds, hstate] at hlive

theorem releaseWrite_uncovers {closedAt : String} (hr : Rows s)
    (h : s.releaseWrite p closedAt = .ok s') (hid : q.id = p.id) :
    ¬ Covers host s' p.budgetId now q e m := by
  have hreleases : Edits anySupply p.budgetId s s' := releaseWrite_edits rfl h
  have hr' : Rows s' := hr.edits hreleases
  obtain ⟨b, -, h⟩ := bind_ok.1 h
  obtain ⟨t, ht, h⟩ := bind_ok.1 h
  obtain ⟨d, hd, hbundle⟩ := Store.ownedClaim_persist_self ht
  have hclaims : s'.claims = t.claims := by
    rw [Store.updateCompletion_ok h]
    rfl
  rintro ⟨-, ⟨d', hd', hown, hlive, -⟩, -, -, -, -⟩
  rw [hid] at hown
  have hfound := hr'.ownedClaim_eq hd' hown
  rw [Store.ownedClaim, hclaims, ← Store.ownedClaim, hd] at hfound
  obtain rfl := Option.some.inj hfound
  simp [live, holds, hbundle] at hlive

/-! ## The calls that verify -/

theorem updateCompletion_phase {phase : CompletionPhase} {outcome : Option String}
    (h : s.updateCompletion p phase outcome now = .ok s')
    (hq : q ∈ s'.completions) (hid : q.id = p.id) : q.phase = phase := by
  rw [Store.updateCompletion_ok h] at hq
  obtain ⟨r, -, rfl⟩ := mem_map.1 hq
  by_cases hr : r.id = p.id
  · rw [if_pos hr]
  · rw [if_neg hr] at hid
    exact absurd hid hr

theorem record_tables {key operation identity : String}
    (h : s.record key operation identity = .ok s') :
    s'.claims = s.claims ∧ s'.metadata = s.metadata ∧ s'.completions = s.completions := by
  obtain ⟨_, h⟩ := rest_ok h
  cases h
  exact ⟨rfl, rfl, rfl⟩

theorem finishWith_verifies {result : WriteResult} (h : s.finishWith p result now = .ok s')
    (hq : q ∈ s'.completions) (hid : q.id = p.id) (hv : q.phase = .verified) :
    ∃ evidenceId, s.verifyCompletion p evidenceId now = .ok s' := by
  unfold Store.finishWith at h
  split at h
  · obtain ⟨_, h⟩ := rest_ok h
    exact ⟨_, h⟩
  · split at h
    · obtain ⟨b, -, h⟩ := bind_ok.1 h
      obtain ⟨t, -, h⟩ := bind_ok.1 h
      rw [updateCompletion_phase h hq hid] at hv
      cases hv
    · rw [updateCompletion_phase h hq hid] at hv
      cases hv

theorem reconcileWith_verifies {evidence : Reconciliation}
    (h : s.reconcileWith p evidence now = .ok s') (hkind : evidence.kind ≠ .importedLink)
    (hq : q ∈ s'.completions) (hid : q.id = p.id) (hv : q.phase = .verified) :
    ∃ evidenceId, s.verifyCompletion p evidenceId now = .ok s' := by
  unfold Store.reconcileWith at h
  split at h
  · exact ⟨_, h⟩
  · next himported => exact absurd himported hkind
  · obtain ⟨t, -, h⟩ := bind_ok.1 h
    rw [updateCompletion_phase h hq hid] at hv
    cases hv

/-- **A call that leaves a completion verified** consumes what the completion takes. -/
theorem call_verifies (hr : Rows s) {step : Step} {answer : Answer} {proposalId : String}
    (hop : (∃ input, step.op = .finishSessionCompletionWrite input ∧
        input.proposalId = proposalId) ∨
      ∃ input, step.op = .reconcileSessionCompletion input ∧ input.proposalId = proposalId)
    (h : apply host s step = .ok (answer, s')) (hp : p ∈ s.completions) (hpid : p.id = proposalId)
    (hbefore : p.phase ≠ .verified) (hq : q ∈ s'.completions)
    (hid : q.id = p.id) (hv : q.phase = .verified) :
    ∃ evidenceId t, s.verifyCompletion p evidenceId step.call.now = .ok t ∧
      s'.claims = t.claims ∧ s'.metadata = t.metadata := by
  have hunique {r : Completion} (hmem : r ∈ s.completions) (hrid : r.id = proposalId) : r = p :=
    inj_on_of_nodup_map hr.completionIds hmem hp (hrid.trans hpid.symm)
  have hstays (hq : q ∈ s.completions) : False := by
    rw [hunique hq (hid.trans hpid)] at hv
    exact hbefore hv
  obtain ⟨call, op⟩ := step
  obtain ⟨input, rfl, hinput⟩ | ⟨input, rfl, hinput⟩ := hop
  · obtain ⟨r, hcommand, h⟩ := bind_ok.1 (quietly_ok h).1
    obtain ⟨hrmem, hrid, -⟩ := commanded_ok hcommand
    obtain rfl := hunique hrmem (hrid.trans hinput)
    obtain ⟨_, h⟩ := rest_ok h
    obtain ⟨replayed, -, h⟩ := bind_ok.1 h
    cases replayed with
    | true =>
      cases h
      exact (hstays hq).elim
    | false =>
      simp only [Bool.false_eq_true, if_false, Store.finishNew, bind_ok] at h
      obtain ⟨_, -, _, -, w, -, _, -, _, -, t, ht, hrecord⟩ := h
      obtain ⟨hclaims, hmetadata, hcompletions⟩ := record_tables hrecord
      obtain ⟨evidenceId, hverify⟩ := finishWith_verifies ht (hcompletions ▸ hq) hid hv
      exact ⟨evidenceId, t, hverify, hclaims, hmetadata⟩
  · obtain ⟨r, hcommand, h⟩ := bind_ok.1 (quietly_ok h).1
    obtain ⟨hrmem, hrid, -⟩ := commanded_ok hcommand
    obtain rfl := hunique hrmem (hrid.trans hinput)
    obtain ⟨_, h⟩ := rest_ok h
    obtain ⟨w, -, h⟩ := bind_ok.1 h
    obtain ⟨_, h⟩ := rest_ok h
    obtain ⟨replayed, -, h⟩ := bind_ok.1 h
    cases replayed with
    | true =>
      cases h
      exact (hstays hq).elim
    | false =>
      simp only [Bool.false_eq_true, if_false, Store.reconcileNew, bind_ok] at h
      obtain ⟨_, -, _, -, _, -, _, -, _, hevidence, _, -, t, ht, hrecord⟩ := h
      obtain ⟨hclaims, hmetadata, hcompletions⟩ := record_tables hrecord
      have hkind : input.evidence.kind ≠ .importedLink := by
        -- an import is linked to a completion that is verified already
        intro himported
        simp only [Store.checkEvidence, bind_ok, himported, reject_ok, or_eq_false_iff,
          not_eq_false', and_eq_true, beq_iff_eq] at hevidence
        obtain ⟨_, _, _, _, _, _, hlater⟩ := hevidence
        exact hbefore (by simp_all)
      obtain ⟨evidenceId, hverify⟩ :=
        reconcileWith_verifies ht hkind (hcompletions ▸ hq) hid hv
      exact ⟨evidenceId, t, hverify, hclaims, hmetadata⟩

end Coverage

def saveHold : Step :=
  ⟨sampleCall "ada" "hold", .saveProspectiveClaim {
    claim := {
      claimId := "hold", kind := .reservation, sourceId := "session:s1:1"
      scope := .category "food", amount := sampleMoney
      effectiveFrom := "2026-01-02T00:00:00.000Z", expiresAt := none, policyVersion := "1"
      snapshotId := "snapshot" }
    expectedClaimSetRevision := "2", outcome := some ⟨true, none⟩ }⟩

def finishWritten : FinishInput where
  proposalId := "p1"
  payloadHash := "p1"
  expectedVersion := 3
  intentId := "w1"
  expectedClaimSetRevision := none
  result := {
    parentId := "p1", success := true, verified := true, reviewRequired := false, code := none
    transactionId := some "p1", evidenceId := none }

end BalanceFrame.Holds
