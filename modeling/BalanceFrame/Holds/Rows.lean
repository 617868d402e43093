import BalanceFrame.Holds.Edits

/-!
# The rows of the claim tables

`Edit` lists what one call does to the tables of one budget, statement by statement, and `Edits` a
whole call. `Rows` is what holds of the rows whatever is called: a claim is found by its id and by
its owner, a prospective claim and the claim of a transfer are named after their owner, the claim of
a session completion has its completion, and metadata has its prospective claim (`rows_edits`).
-/

namespace BalanceFrame.Holds

open Library List
open Liquidity (LiquidityClaimBundle LiquidityClaimEffect LiquidityClaimState)
open Workflow (Refusal Guarded)

/-- What the caller brings: new bundles, the effects a settlement leaves a transfer with, the session
an admission checks beside the session of its payload, and the transfer that is reported. -/
structure Supply where
  claim : OwnerKind → String → LiquidityClaimBundle → Prop
  effects : String → List LiquidityClaimEffect → Prop
  session : String → String → Prop
  initiation : String → Prop

/-- A prospective claim is held by one effect, on its scope and under the obligation of its
source. -/
def ClaimFits (claim : ProspectiveClaim) (effects : List LiquidityClaimEffect) : Prop :=
  ∃ e, effects = [e] ∧ claim.scope.resource? = some (e.kind, e.resourceId) ∧
    e.economicObligationId = claim.sourceId ++ ":" ++
      (if e.kind = .category then "category" else "account") ++ ":" ++ e.resourceId

/-- The effects of a completion's claim are the charges and the account debit of its payload. -/
structure Fits (payload : CompletionPayload) (effects : List LiquidityClaimEffect) : Prop where
  charges : ∀ e ∈ effects, e.kind = .category → (e.resourceId, e.amount) ∈ payload.categoryCharges
  debits : ∀ e ∈ effects, e.kind = .accountDebit →
    e.resourceId = payload.accountId ∧ (e.amount.minorUnits : Int) = -payload.amount

/-- A new prospective claim: active, and no claim that holds has its obligation. -/
structure Entry (s : Store) (budgetId : String) (bundle : LiquidityClaimBundle)
    (row : MetadataRow) : Prop where
  state : bundle.state = .active
  fresh : bundle.initiated = false
  lifecycle : row.lifecycleState = .active
  source : row.sourceId = row.claim.sourceId
  effects : ClaimFits row.claim bundle.effects
  apart : ∀ d ∈ s.claims, d.budgetId = budgetId → holds d.bundle = true →
    ∀ e ∈ d.bundle.effects, ∀ f ∈ bundle.effects, e.kind = f.kind → e.resourceId = f.resourceId →
      e.economicObligationId ≠ f.economicObligationId

/-- Two stores with the same tables, apart from those `claimSet` does not read. -/
structure SameTables (s s' : Store) : Prop where
  claims : s'.claims = s.claims
  metadata : s'.metadata = s.metadata
  revisions : s'.revisions = s.revisions
  policies : s'.policies = s.policies
  currentPolicies : s'.currentPolicies = s.currentPolicies
  completions : s'.completions = s.completions

/-- One statement of a call for a budget. -/
inductive Edit (supply : Supply) (budgetId : String) : Store → Store → Prop
  | restate {s s' : Store} {kind : OwnerKind} {ownerId : String} {c : ClaimRow}
      {bundle : LiquidityClaimBundle} (owned : s.ownedClaim budgetId kind ownerId = some c)
      (id : bundle.id = c.bundle.id)
      (effects : bundle.effects = c.bundle.effects ∨
        kind = .proposal ∧ supply.effects ownerId bundle.effects)
      (ends : kind = .prospective → holds bundle = false)
      (persisted : s.persistClaim budgetId kind ownerId bundle = .ok s') : Edit supply budgetId s s'
  | supplied {s s' : Store} {kind : OwnerKind} {ownerId : String} {bundle : LiquidityClaimBundle}
      (supplied : supply.claim kind ownerId bundle)
      (kinds : kind = .session ∨ kind = .proposal ∧ bundle.id = ownerId)
      (persisted : s.persistClaim budgetId kind ownerId bundle = .ok s') : Edit supply budgetId s s'
  | prospective {s t s' : Store} {bundle : LiquidityClaimBundle} {row : MetadataRow}
      (supplied : supply.claim .prospective bundle.id bundle)
      (unused : s.claimAt budgetId bundle.id = none) (entry : Entry s budgetId bundle row)
      (persisted : s.persistClaim budgetId .prospective bundle.id bundle = .ok t)
      (budget : row.budgetId = budgetId) (claim : row.claimId = bundle.id)
      (inserted : t.insertMetadata row = .ok s') : Edit supply budgetId s s'
  | admission {s t s' : Store} {p : Completion} {claim : LiquidityClaimBundle} {host : Host}
      {now : String} {set : ClaimSet} (supplied : supply.claim .sessionCompletion p.id claim)
      (unused : ∀ q ∈ s.completions, q.id ≠ p.id) (fits : Fits p.payload claim.effects)
      (read : ({ s with completions := s.completions ++ [p] } : Store).claimSet host budgetId now =
        .ok (set, t))
      (persisted : t.persistClaim budgetId .sessionCompletion p.id claim = .ok s') :
      Edit supply budgetId s s'
  | read {s s' : Store} {host : Host} {now : String} {set : ClaimSet}
      (read : s.claimSet host budgetId now = .ok (set, s')) : Edit supply budgetId s s'
  | metadata {s : Store} (f : MetadataRow → MetadataRow)
      (kept : ∀ m, Store.core (f m) = Store.core m)
      (ended : ∀ m, (f m).lifecycleState = m.lifecycleState ∨
        ∀ c, s.ownedClaim m.budgetId .prospective m.claimId = some c → holds c.bundle = false) :
      Edit supply budgetId s { s with metadata := s.metadata.map f }
  | completion {s : Store} (id : String) (f : Completion → Completion)
      (kept : ∀ p, (f p).id = p.id ∧ (f p).actorId = p.actorId ∧ (f p).payload = p.payload) :
      Edit supply budgetId s (s.setCompletion id f)
  | rest {s s' : Store} (same : SameTables s s') : Edit supply budgetId s s'

/-- A whole call. -/
abbrev Edits (supply : Supply) (budgetId : String) : Store → Store → Prop :=
  Relation.ReflTransGen (Edit supply budgetId)

theorem Edits.keep {supply : Supply} {budgetId : String} {P : Store → Prop} {s s' : Store}
    (h : Edits supply budgetId s s') (hs : P s)
    (hstep : ∀ s s', P s → Edit supply budgetId s s' → P s') : P s' := by
  induction h with
  | refl => exact hs
  | tail _ hedit ih => exact hstep _ _ ih hedit

/-! ## The rows -/

/-- **What holds of the rows.** -/
structure Rows (s : Store) : Prop where
  ids : (s.claims.map fun c => (c.budgetId, c.id)).Nodup
  owners : (s.claims.map fun c => (c.budgetId, c.ownerKind, c.ownerId)).Nodup
  named : ∀ c ∈ s.claims, c.ownerKind = .prospective ∨ c.ownerKind = .proposal → c.id = c.ownerId
  owned : ∀ c ∈ s.claims, c.ownerKind = .sessionCompletion → ∃ p ∈ s.completions, p.id = c.ownerId
  described : ∀ m ∈ s.metadata, ∃ c ∈ s.claims,
    c.budgetId = m.budgetId ∧ c.id = m.claimId ∧ c.ownerKind = .prospective
  single : (s.metadata.map fun m => (m.budgetId, m.claimId)).Nodup
  completionIds : (s.completions.map (·.id)).Nodup

theorem rows_empty : Rows {} where
  ids := nodup_nil
  owners := nodup_nil
  named := by simp
  owned := by simp
  described := by simp
  single := nodup_nil
  completionIds := nodup_nil

namespace Rows

variable {s s' : Store} {supply : Supply} {budgetId : String}

theorem map_claims (h : Rows s) {f : ClaimRow → ClaimRow}
    (hkeep : ∀ c, (f c).budgetId = c.budgetId ∧ (f c).id = c.id ∧
      (f c).ownerKind = c.ownerKind ∧ (f c).ownerId = c.ownerId)
    (hclaims : s'.claims = s.claims.map f) (hmetadata : s'.metadata = s.metadata)
    (hcompletions : s'.completions = s.completions) : Rows s' where
  ids := by
    have : (s.claims.map f).map (fun c => (c.budgetId, c.id)) =
        s.claims.map fun c => (c.budgetId, c.id) := by
      rw [map_map]
      exact map_congr_left fun c _ => by simp [hkeep c]
    rw [hclaims, this]
    exact h.ids
  owners := by
    have : (s.claims.map f).map (fun c => (c.budgetId, c.ownerKind, c.ownerId)) =
        s.claims.map fun c => (c.budgetId, c.ownerKind, c.ownerId) := by
      rw [map_map]
      exact map_congr_left fun c _ => by simp [hkeep c]
    rw [hclaims, this]
    exact h.owners
  named := by
    intro c hc hkind
    rw [hclaims] at hc
    obtain ⟨c₀, hc₀, rfl⟩ := mem_map.1 hc
    obtain ⟨-, hid, hk, ho⟩ := hkeep c₀
    rw [hid, ho]
    exact h.named c₀ hc₀ (hk ▸ hkind)
  owned := by
    intro c hc hkind
    rw [hclaims] at hc
    obtain ⟨c₀, hc₀, rfl⟩ := mem_map.1 hc
    obtain ⟨-, -, hk, ho⟩ := hkeep c₀
    rw [hcompletions, ho]
    exact h.owned c₀ hc₀ (hk ▸ hkind)
  described := by
    intro m hm
    rw [hmetadata] at hm
    obtain ⟨c, hc, hb, hid, hk⟩ := h.described m hm
    obtain ⟨hb', hid', hk', -⟩ := hkeep c
    exact ⟨f c, hclaims ▸ mem_map_of_mem hc, hb'.trans hb, hid'.trans hid, hk'.trans hk⟩
  single := hmetadata ▸ h.single
  completionIds := hcompletions ▸ h.completionIds

theorem add_claim (h : Rows s) {c : ClaimRow}
    (hid : ∀ d ∈ s.claims, ¬ (d.budgetId = c.budgetId ∧ d.id = c.id))
    (howner : ∀ d ∈ s.claims, ¬ Store.OwnedBy c.budgetId c.ownerKind c.ownerId d)
    (hnamed : c.ownerKind = .prospective ∨ c.ownerKind = .proposal → c.id = c.ownerId)
    (howned : c.ownerKind = .sessionCompletion → ∃ p ∈ s.completions, p.id = c.ownerId)
    (hclaims : s'.claims = s.claims ++ [c]) (hmetadata : s'.metadata = s.metadata)
    (hcompletions : s'.completions = s.completions) : Rows s' where
  ids := by
    rw [hclaims, map_append, nodup_append]
    refine ⟨h.ids, by simp, ?_⟩
    rintro _ hd _ hc rfl
    obtain ⟨d, hd, hkey⟩ := mem_map.1 hd
    simp only [map_cons, map_nil, mem_singleton] at hc
    exact hid d hd (by simpa [hc] using hkey)
  owners := by
    rw [hclaims, map_append, nodup_append]
    refine ⟨h.owners, by simp, ?_⟩
    rintro _ hd _ hc rfl
    obtain ⟨d, hd, hkey⟩ := mem_map.1 hd
    simp only [map_cons, map_nil, mem_singleton] at hc
    rw [hc] at hkey
    simp only [Prod.mk.injEq] at hkey
    exact howner d hd hkey
  named := by
    intro d hd
    rw [hclaims, mem_append, mem_singleton] at hd
    obtain hd | rfl := hd
    · exact h.named d hd
    · exact hnamed
  owned := by
    intro d hd
    rw [hclaims, mem_append, mem_singleton] at hd
    rw [hcompletions]
    obtain hd | rfl := hd
    · exact h.owned d hd
    · exact howned
  described := by
    intro m hm
    rw [hmetadata] at hm
    obtain ⟨d, hd, hkey⟩ := h.described m hm
    exact ⟨d, hclaims ▸ mem_append_left _ hd, hkey⟩
  single := hmetadata ▸ h.single
  completionIds := hcompletions ▸ h.completionIds

theorem persist (h : Rows s) {kind : OwnerKind} {ownerId : String} {bundle : LiquidityClaimBundle}
    (hnamed : s.ownedClaim budgetId kind ownerId = none →
      kind = .prospective ∨ kind = .proposal → bundle.id = ownerId)
    (howned : s.ownedClaim budgetId kind ownerId = none → kind = .sessionCompletion →
      ∃ p ∈ s.completions, p.id = ownerId)
    (hp : s.persistClaim budgetId kind ownerId bundle = .ok s') : Rows s' := by
  obtain ⟨c, -, rfl⟩ | ⟨hnone, hat, rfl⟩ := Store.persistClaim_cases hp
  · refine h.map_claims (f := fun c => if Store.OwnedBy budgetId kind ownerId c then
      { c with bundle } else c) (fun c => ?_) rfl rfl rfl
    split <;> simp
  · exact h.add_claim (c := ⟨budgetId, bundle.id, kind, ownerId, bundle⟩)
      (Store.claimAt_eq_none_iff.1 hat) (Store.ownedClaim_eq_none_iff.1 hnone) (hnamed hnone)
      (howned hnone) rfl rfl rfl

theorem map_metadata (h : Rows s) {f : MetadataRow → MetadataRow}
    (hkeep : ∀ m, Store.core (f m) = Store.core m) (hclaims : s'.claims = s.claims)
    (hmetadata : s'.metadata = s.metadata.map f) (hcompletions : s'.completions = s.completions) :
    Rows s' := by
  have hbudget m : (f m).budgetId = m.budgetId := by
    simpa [Store.core] using congrArg MetadataRow.budgetId (hkeep m)
  have hclaim m : (f m).claimId = m.claimId := by
    simpa [Store.core] using congrArg MetadataRow.claimId (hkeep m)
  refine ⟨hclaims ▸ h.ids, hclaims ▸ h.owners, hclaims ▸ h.named, ?_, ?_, ?_,
    hcompletions ▸ h.completionIds⟩
  · rw [hclaims, hcompletions]
    exact h.owned
  · intro m hm
    rw [hmetadata] at hm
    obtain ⟨m₀, hm₀, rfl⟩ := mem_map.1 hm
    rw [hclaims, hbudget, hclaim]
    exact h.described m₀ hm₀
  · have : (s.metadata.map f).map (fun m => (m.budgetId, m.claimId)) =
        s.metadata.map fun m => (m.budgetId, m.claimId) := by
      rw [map_map]
      exact map_congr_left fun m _ => by simp [hbudget, hclaim]
    rw [hmetadata, this]
    exact h.single

theorem reread (h : Rows s) (host : Host) (now : String) : Rows (s.reread host budgetId now) := by
  have hclaims : Rows { s with claims := s.claims.map (Store.lapse host budgetId now) } :=
    h.map_claims (fun c => by simp) rfl rfl rfl
  obtain ⟨f, hkeep, hmetadata⟩ := s.reread_metadata budgetId host now
  exact hclaims.map_metadata hkeep (by simp) hmetadata (by simp)

theorem add_metadata (h : Rows s) {row : MetadataRow}
    (hclaim : ∃ c ∈ s.claims, c.budgetId = row.budgetId ∧ c.id = row.claimId ∧
      c.ownerKind = .prospective)
    (hi : s.insertMetadata row = .ok s') : Rows s' := by
  obtain ⟨_, hnew, hi⟩ := bind_ok.1 hi
  simp only [reject_ok, any_eq_false, Bool.and_eq_true, beq_iff_eq, not_and] at hnew
  cases hi
  refine ⟨h.ids, h.owners, h.named, h.owned, ?_, ?_, h.completionIds⟩
  · intro m hm
    obtain hm | rfl := mem_append.1 hm |>.imp_right mem_singleton.1
    · exact h.described m hm
    · exact hclaim
  · rw [map_append, nodup_append]
    refine ⟨h.single, by simp, ?_⟩
    rintro _ hm _ hrow rfl
    obtain ⟨m, hm, hkey⟩ := mem_map.1 hm
    simp only [map_cons, map_nil, mem_singleton] at hrow
    rw [hrow] at hkey
    simp only [Prod.mk.injEq] at hkey
    exact hnew m hm hkey.1 hkey.2

theorem add_completion (h : Rows s) {p : Completion} (hp : ∀ q ∈ s.completions, q.id ≠ p.id) :
    Rows { s with completions := s.completions ++ [p] } := by
  refine ⟨h.ids, h.owners, h.named, ?_, h.described, h.single, ?_⟩
  · intro c hc hkind
    obtain ⟨q, hq, hid⟩ := h.owned c hc hkind
    exact ⟨q, mem_append_left _ hq, hid⟩
  · rw [map_append, nodup_append]
    refine ⟨h.completionIds, by simp, ?_⟩
    rintro _ hq _ hrow rfl
    obtain ⟨q, hq, hid⟩ := mem_map.1 hq
    simp only [map_cons, map_nil, mem_singleton] at hrow
    exact hp q hq (hid.trans hrow)

theorem set_completion (h : Rows s) {id : String} {f : Completion → Completion}
    (hf : ∀ p, (f p).id = p.id) : Rows (s.setCompletion id f) := by
  have hids : ((s.setCompletion id f).completions.map (·.id)) = s.completions.map (·.id) := by
    rw [Store.setCompletion, map_map]
    refine map_congr_left fun p _ => ?_
    simp only [Function.comp_apply]
    split
    · exact hf p
    · rfl
  refine ⟨h.ids, h.owners, h.named, ?_, h.described, h.single, hids ▸ h.completionIds⟩
  intro c hc hkind
  obtain ⟨p, hp, hid⟩ := h.owned c hc hkind
  refine ⟨_, mem_map_of_mem hp, ?_⟩
  split
  · exact (hf p).trans hid
  · exact hid

theorem ownedClaim_eq (h : Rows s) {kind : OwnerKind} {ownerId : String} {c : ClaimRow}
    (hc : c ∈ s.claims) (ho : Store.OwnedBy budgetId kind ownerId c) :
    s.ownedClaim budgetId kind ownerId = some c := by
  cases hfound : s.ownedClaim budgetId kind ownerId with
  | none => exact absurd ho (Store.ownedClaim_eq_none_iff.1 hfound c hc)
  | some d =>
    obtain ⟨hd, hod⟩ := Store.ownedClaim_eq_some_iff hfound
    have hkey : (d.budgetId, d.ownerKind, d.ownerId) = (c.budgetId, c.ownerKind, c.ownerId) := by
      rw [hod.1, hod.2.1, hod.2.2, ho.1, ho.2.1, ho.2.2]
    exact congrArg some (inj_on_of_nodup_map h.owners hd hc hkey)

theorem edit (h : Rows s) (he : Edit supply budgetId s s') : Rows s' := by
  cases he with
  | restate owned id effects ends persisted =>
    refine h.persist (fun hnone => ?_) (fun hnone => ?_) persisted <;>
      rw [hnone] at owned <;> cases owned
  | supplied supplied kinds persisted =>
    refine h.persist (fun _ hkind => ?_) (fun _ hkind => ?_) persisted
    · obtain rfl | ⟨-, hid⟩ := kinds
      · simp at hkind
      · exact hid
    · obtain rfl | ⟨rfl, -⟩ := kinds <;> cases hkind
  | prospective supplied unused entry persisted budget claim inserted =>
    have ht := h.persist (fun _ _ => rfl) (fun _ hkind => by cases hkind) persisted
    refine ht.add_metadata ?_ inserted
    obtain ⟨c, hc, rfl⟩ | ⟨-, -, rfl⟩ := Store.persistClaim_cases persisted
    · obtain ⟨hmem, ho⟩ := Store.ownedClaim_eq_some_iff hc
      have hid := (h.named c hmem (.inl ho.2.1)).trans ho.2.2
      exact absurd ⟨ho.1, hid⟩ (Store.claimAt_eq_none_iff.1 unused c hmem)
    · refine ⟨_, mem_append_right _ (mem_singleton_self _), ?_⟩
      simp [budget, claim]
  | admission supplied unused fits read persisted =>
    obtain ⟨-, rfl, -⟩ := Store.claimSet_ok read
    refine ((h.add_completion unused).reread _ _).persist (fun _ hkind => ?_)
      (fun _ _ => ⟨_, ?_, rfl⟩) persisted
    · simp at hkind
    · simp
  | read read =>
    obtain ⟨-, rfl, -⟩ := Store.claimSet_ok read
    exact h.reread _ _
  | metadata f kept ended => exact h.map_metadata kept rfl rfl rfl
  | completion id f kept => exact h.set_completion fun p => (kept p).1
  | rest same =>
    exact ⟨same.claims ▸ h.ids, same.claims ▸ h.owners, same.claims ▸ h.named,
      same.claims ▸ same.completions ▸ h.owned, same.claims ▸ same.metadata ▸ h.described,
      same.metadata ▸ h.single, same.completions ▸ h.completionIds⟩

theorem edits (h : Rows s) (he : Edits supply budgetId s s') : Rows s' :=
  he.keep h fun _ _ h he => h.edit he

end Rows

end BalanceFrame.Holds

/-!
## What a call does to the proposals

`Deed` lists what a call does to session completions, transfers and their claims, one constructor
for each way a proposal moves; everything else a call does is `Neutral` to them.
-/

namespace BalanceFrame.Holds

open Library
open Liquidity (LiquidityClaimBundle LiquidityClaimEffect LiquidityClaimState)
open Workflow (Refusal Guarded)

/-- A claim as it was, or lapsed. -/
def Lapses (c c' : ClaimRow) : Prop :=
  c' = c ∨ c.bundle.state = .active ∧ c.bundle.initiated = false ∧
    c' = { c with bundle := { c.bundle with state := .expired } }

theorem Lapses.rfl {c : ClaimRow} : Lapses c c := .inl (Eq.refl c)

theorem Lapses.trans {c c' c'' : ClaimRow} (h : Lapses c c') (h' : Lapses c' c'') :
    Lapses c c'' := by
  obtain rfl | ⟨hstate, hinit, rfl⟩ := h
  · exact h'
  · obtain rfl | ⟨hstate', -, -⟩ := h'
    · exact .inr ⟨hstate, hinit, Eq.refl _⟩
    · cases hstate'

theorem lapses_lapse (host : Host) (budgetId now : String) (c : ClaimRow) :
    Lapses c (Store.lapse host budgetId now c) := by
  unfold Store.lapse
  split
  · next h =>
    simp only [lapsed, Bool.and_eq_true, beq_iff_eq, Bool.not_eq_true'] at h
    exact .inr ⟨h.2.1.1, h.2.1.2, rfl⟩
  · exact .rfl

/-- The claims of a kind are found as before, up to lapsing. -/
def Kept (kind : OwnerKind) (s s' : Store) : Prop :=
  ∀ b o, ∃ f, s'.ownedClaim b kind o = (s.ownedClaim b kind o).map f ∧ ∀ c, Lapses c (f c)

namespace Kept

variable {kind : OwnerKind} {s t s' : Store} {budgetId now : String}

theorem of_claims (h : s'.claims = s.claims) : Kept kind s s' := by
  refine fun b o => ⟨id, ?_, fun c => .rfl⟩
  rw [Option.map_id_fun, id_eq, Store.ownedClaim, Store.ownedClaim, h]

theorem trans (h : Kept kind s t) (h' : Kept kind t s') : Kept kind s s' := by
  intro b o
  obtain ⟨f, hf, hlf⟩ := h b o
  obtain ⟨g, hg, hlg⟩ := h' b o
  exact ⟨g ∘ f, by rw [hg, hf, Option.map_map], fun c => (hlf c).trans (hlg (f c))⟩

theorem read {host : Host} {set : ClaimSet} (h : s.claimSet host budgetId now = .ok (set, s')) :
    Kept kind s s' := by
  obtain ⟨-, rfl, -⟩ := Store.claimSet_ok h
  exact fun b o => ⟨_, Store.ownedClaim_reread s, lapses_lapse host budgetId now⟩

theorem persist {other : OwnerKind} {ownerId : String} {bundle : LiquidityClaimBundle}
    (hk : kind ≠ other) (h : s.persistClaim budgetId other ownerId bundle = .ok s') :
    Kept kind s s' := by
  refine fun b o => ⟨id, ?_, fun c => .rfl⟩
  rw [Option.map_id_fun, id_eq]
  exact Store.ownedClaim_persist_ne h fun ⟨_, he, _⟩ => hk he

end Kept

/-- The claims of a kind, but for one owner's, are found as before, up to lapsing. -/
def KeptBut (kind : OwnerKind) (budgetId ownerId : String) (s s' : Store) : Prop :=
  ∀ b o, ¬ (b = budgetId ∧ o = ownerId) →
    ∃ f, s'.ownedClaim b kind o = (s.ownedClaim b kind o).map f ∧ ∀ c, Lapses c (f c)

section KeptBut

variable {kind : OwnerKind} {budgetId ownerId : String} {s t s' : Store}

theorem Kept.but (h : Kept kind s s') : KeptBut kind budgetId ownerId s s' := fun b o _ => h b o

theorem KeptBut.trans (h : KeptBut kind budgetId ownerId s t)
    (h' : KeptBut kind budgetId ownerId t s') : KeptBut kind budgetId ownerId s s' := by
  intro b o hne
  obtain ⟨f, hf, hlf⟩ := h b o hne
  obtain ⟨g, hg, hlg⟩ := h' b o hne
  exact ⟨g ∘ f, by rw [hg, hf, Option.map_map], fun c => (hlf c).trans (hlg (f c))⟩

theorem KeptBut.persist {bundle : LiquidityClaimBundle}
    (h : s.persistClaim budgetId kind ownerId bundle = .ok s') :
    KeptBut kind budgetId ownerId s s' := by
  intro b o hne
  refine ⟨id, ?_, fun c => .rfl⟩
  rw [Option.map_id_fun, id_eq]
  exact Store.ownedClaim_persist_ne h fun ⟨hb, _, ho⟩ => hne ⟨hb, ho⟩

end KeptBut

/-- The proposals stay, and their claims do up to lapsing. -/
structure Neutral (s s' : Store) : Prop where
  completions : s'.completions = s.completions
  transfers : s'.transfers = s.transfers
  evidence : s'.transferEvidence = s.transferEvidence
  completionHolds : Kept .sessionCompletion s s'
  transferHolds : Kept .proposal s s'

/-- The claim kinds that belong to no proposal. -/
def OwnerKind.free (kind : OwnerKind) : Prop := kind = .prospective ∨ kind = .session

namespace Neutral

variable {s t s' : Store} {budgetId now : String}

theorem of_claims (hclaims : s'.claims = s.claims) (hc : s'.completions = s.completions)
    (ht : s'.transfers = s.transfers) (he : s'.transferEvidence = s.transferEvidence) :
    Neutral s s' :=
  ⟨hc, ht, he, .of_claims hclaims, .of_claims hclaims⟩

theorem trans (h : Neutral s t) (h' : Neutral t s') : Neutral s s' :=
  ⟨h'.completions.trans h.completions, h'.transfers.trans h.transfers,
    h'.evidence.trans h.evidence, h.completionHolds.trans h'.completionHolds,
    h.transferHolds.trans h'.transferHolds⟩

theorem read {host : Host} {set : ClaimSet} (h : s.claimSet host budgetId now = .ok (set, s')) :
    Neutral s s' := by
  have hreread := (Store.claimSet_ok h).2.1
  exact ⟨by simp [hreread], by simp [hreread], by simp [hreread], .read h, .read h⟩

theorem persist {kind : OwnerKind} {ownerId : String} {bundle : LiquidityClaimBundle}
    (hk : kind.free) (h : s.persistClaim budgetId kind ownerId bundle = .ok s') :
    Neutral s s' := by
  obtain ⟨claims, hs⟩ := Store.persistClaim_frame h
  refine ⟨by simp [hs], by simp [hs], by simp [hs], .persist ?_ h, .persist ?_ h⟩ <;>
    obtain rfl | rfl := hk <;> simp

end Neutral

/-- One way a call moves a proposal. -/
inductive Deed (host : Host) (supply : Supply) (budgetId : String) : Store → Store → Prop
  | neutral {s s' : Store} (edit : Edit supply budgetId s s') (same : Neutral s s') :
      Deed host supply budgetId s s'
  | admitCompletion {s t s' : Store} {p : Completion} {claim : LiquidityClaimBundle}
      {now checked : String} {set : ClaimSet}
      (supplied : supply.claim .sessionCompletion p.id claim)
      (session : supply.session checked p.payload.sessionId)
      (budget : p.budgetId = budgetId) (phase : p.phase = .proposed)
      (fresh : claim.state = .active ∧ claim.initiated = false)
      (fits : Fits p.payload claim.effects)
      (unused : ∀ q ∈ s.completions, q.id ≠ p.id)
      (single : ∀ q ∈ s.completions, q.budgetId = budgetId → q.payload.sessionId = checked →
        q.phase = .closed)
      (read : ({ s with completions := s.completions ++ [p] } : Store).claimSet host budgetId now =
        .ok (set, t))
      (persisted : t.persistClaim budgetId .sessionCompletion p.id claim = .ok s') :
      Deed host supply budgetId s s'
  | closeCompletion {s s' : Store} {p : Completion} {outcome now : String}
      (current : p ∈ s.completions) (budget : p.budgetId = budgetId)
      (pending : p.phase = .proposed ∨ p.phase = .approved)
      (closed : s.closeCompletion p outcome now = .ok s') : Deed host supply budgetId s s'
  | approveCompletion {s s' : Store} {p : Completion} {phase : CompletionPhase} {now : String}
      (current : p ∈ s.completions) (pending : p.phase = .proposed ∨ p.phase = .approved)
      (next : phase = .proposed ∨ phase = .approved)
      (updated : s.updateCompletion p phase none now = .ok s') : Deed host supply budgetId s s'
  | acquire {s t u s' : Store} {p : Completion} {set : ClaimSet} {writes : List WriteRow}
      {now : String} (current : p ∈ s.completions) (budget : p.budgetId = budgetId)
      (approved : p.phase = .approved) (claimed : s.changeCompletionClaim p .initiated = .ok t)
      (read : t.claimSet host budgetId now = .ok (set, u))
      (updated : ({ u with writes } : Store).updateCompletion p .writeIntent none now = .ok s') :
      Deed host supply budgetId s s'
  | verify {s s' : Store} {p : Completion} {evidenceId now : String} (current : p ∈ s.completions)
      (budget : p.budgetId = budgetId)
      (awaiting : p.phase = .writeIntent ∨ p.phase = .reviewRequired)
      (verified : s.verifyCompletion p evidenceId now = .ok s') : Deed host supply budgetId s s'
  | release {s s' : Store} {p : Completion} {now : String} (current : p ∈ s.completions)
      (budget : p.budgetId = budgetId) (intent : p.phase = .writeIntent)
      (released : s.releaseWrite p now = .ok s') : Deed host supply budgetId s s'
  | review {s s' : Store} {p : Completion} {outcome : Option String} {now : String}
      (current : p ∈ s.completions)
      (awaiting : p.phase = .writeIntent ∨ p.phase = .reviewRequired)
      (updated : s.updateCompletion p .reviewRequired outcome now = .ok s') :
      Deed host supply budgetId s s'
  | relink {s s' : Store} {p : Completion} {now : String} (current : p ∈ s.completions)
      (verified : p.phase = .verified) (updated : s.updateCompletion p .verified none now = .ok s') :
      Deed host supply budgetId s s'
  | admitTransfer {s s' : Store} {p : Transfer} {bundle : LiquidityClaimBundle}
      (supplied : supply.claim .proposal p.id bundle) (id : bundle.id = p.id)
      (budget : p.budgetId = budgetId) (phase : p.phase = .proposed)
      (fresh : bundle.state = .active ∧ bundle.initiated = false)
      (unused : ∀ q ∈ s.transfers, q.id ≠ p.id)
      (persisted : ({ s with transfers := s.transfers ++ [p] } : Store).persistClaim budgetId
        .proposal p.id bundle = .ok s') : Deed host supply budgetId s s'
  | closeTransfer {s s' : Store} {p : Transfer} {outcome now : String} (current : p ∈ s.transfers)
      (budget : p.budgetId = budgetId) (unconfirmed : p.phase ≠ .confirmed)
      (closed : s.closeTransfer p outcome now = .ok s') : Deed host supply budgetId s s'
  | markTransfer {s s' : Store} {p : Transfer} {phase : TransferPhase} {outcome : Option String}
      {now : String} (current : p ∈ s.transfers)
      (moves : phase = p.phase ∨
        (p.phase = .proposed ∨ p.phase = .awaitingApproval ∨ p.phase = .approved) ∧
          (phase = .proposed ∨ phase = .awaitingApproval ∨ phase = .approved))
      (updated : s.updateTransfer p phase outcome now = .ok s') : Deed host supply budgetId s s'
  | initiate {s t s' : Store} {p : Transfer} {outcome : Option String} {now : String}
      (current : p ∈ s.transfers) (budget : p.budgetId = budgetId) (approved : p.phase = .approved)
      (reported : supply.initiation p.id) (claimed : s.changeClaim p .initiated = .ok t)
      (updated : t.updateTransfer p .initiated outcome now = .ok s') : Deed host supply budgetId s s'
  | settle {s t s' : Store} {p : Transfer} {r : Settlement} {outcome : Option String} {now : String}
      (current : p ∈ s.transfers) (budget : p.budgetId = budgetId)
      (initiated : p.phase = .initiated)
      (accepted : r.wellFormed = true)
      (remaining : ∀ effects, r.claimEffects = some effects → supply.effects p.id effects)
      (updated : s.updateTransfer p (if r.confirmed then .confirmed else .initiated) outcome now =
        .ok t)
      (settled : t.settleClaim p r = .ok s') : Deed host supply budgetId s s'
  | evidence {s s' : Store} {p : Transfer} {existing : List EvidenceRow} {evidenceId : String}
      (budget : p.budgetId = budgetId) (current : p ∈ s.transfers)
      (added : Store.addEvidence p existing s evidenceId = .ok s') : Deed host supply budgetId s s'

/-- What a whole call does. -/
abbrev Deeds (host : Host) (supply : Supply) (budgetId : String) : Store → Store → Prop :=
  Relation.ReflTransGen (Deed host supply budgetId)

theorem Deeds.keep {host : Host} {supply : Supply} {budgetId : String} {P : Store → Prop}
    {s s' : Store} (h : Deeds host supply budgetId s s') (hs : P s)
    (hstep : ∀ s s', P s → Deed host supply budgetId s s' → P s') : P s' := by
  induction h with
  | refl => exact hs
  | tail _ hdeed ih => exact hstep _ _ ih hdeed

end BalanceFrame.Holds
