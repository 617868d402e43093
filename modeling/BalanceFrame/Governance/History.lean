import BalanceFrame.Governance.Spaces
import BalanceFrame.Governance.Authority
import Mathlib.Logic.Relation

/-!
# Histories of spaces stay well formed

`WellFormed` is the invariant of the membership and policy tables: the unrevoked periods of an actor
in a space are apart, and each space has one current policy, of the greatest version. Every
operation keeps it, with one exception: `importLegacyApprovalPolicy` numbers the legacy policies in
the order of their creation and marks the one that was current, so that `bindBudget` keeps it only
if that one is the last (`LegacyInOrder`).
-/

namespace BalanceFrame.Governance

open Library List Bool
open Liquidity (Json)
open GovernanceDb (overlaps someOverlap endsAfter someEndsAfter)

variable {db db' : GovernanceDb} {spaceId actorId now id : String} {m : SpaceMembership} {ids : Ids}
  {start : Int} {space : Space} {finish : Option Int} {row new : PolicyRow} {index : Nat}
  {input : CreateSpaceInput}

/-! ## Periods -/

/-- The half-open interval of a period. -/
structure Spans (m : SpaceMembership) (start : Int) (finish : Option Int) : Prop where
  start_eq : m.validFrom = toISOString start
  finish_eq : m.validUntil = finish.map toISOString
  ordered : ∀ e, finish = some e → start < e

/-- Two disjoint periods: one ends before the other starts. -/
def Apart (m m' : SpaceMembership) : Prop :=
  ∃ start finish start' finish', Spans m start finish ∧ Spans m' start' finish' ∧
    ((∃ e, finish = some e ∧ e ≤ start') ∨ ∃ e, finish' = some e ∧ e ≤ start)

/-- Unrevoked periods of one actor in one space are apart. -/
def PeriodsApart (m m' : SpaceMembership) : Prop :=
  m.spaceId = m'.spaceId → m.actorId = m'.actorId → m.revokedAt = none → m'.revokedAt = none →
    Apart m m'

theorem isoTime_toISOString {t u : Int} (h : isoTime (toISOString t) = .ok u) : u = t :=
  timestampMillis_toISOString (orStop_ok.mp h)

theorem spans_of_current {t : Int} (hs : Spans m start finish) (ht : isoTime now = .ok t)
    (h : isCurrentAt m.validFrom m.validUntil now = .ok true) :
    start ≤ t ∧ ∀ e, finish = some e → t < e := by
  rw [hs.start_eq, hs.finish_eq] at h
  simp only [isCurrentAt, bind_ok, ht, Except.ok.injEq] at h
  obtain ⟨t', rfl, s, hstart, h⟩ := h
  cases isoTime_toISOString hstart
  split at h
  · next hle =>
    refine ⟨hle, ?_⟩
    rintro e rfl
    simp only [Option.map_some, bind_ok, Except.ok.injEq, decide_eq_true_eq] at h
    obtain ⟨e', he, h⟩ := h
    cases isoTime_toISOString he
    exact h
  · cases h

theorem not_both_current {m' : SpaceMembership} (h : Apart m m')
    (hm : isCurrentAt m.validFrom m.validUntil now = .ok true)
    (hm' : isCurrentAt m'.validFrom m'.validUntil now = .ok true) : False := by
  obtain ⟨s, f, s', f', hs, hs', hor⟩ := h
  obtain ⟨t, ht, -⟩ := bind_ok.mp hm
  have hin := spans_of_current hs ht hm
  have hin' := spans_of_current hs' ht hm'
  rcases hor with ⟨e, he, hle⟩ | ⟨e, he, hle⟩
  · have := hin.2 e he
    omega
  · have := hin'.2 e he
    omega

theorem sublist_filterAuxM {α : Type} {f : α → Except String Bool} :
    ∀ {l acc r : List α}, l.filterAuxM f acc = .ok r →
      ∃ s : List α, s.Sublist l ∧ r = s.reverse ++ acc
  | [], acc, r, h => by
    cases h
    exact ⟨[], List.Sublist.refl _, rfl⟩
  | x :: l, acc, r, h => by
    rw [List.filterAuxM, bind_ok] at h
    obtain ⟨b, -, h⟩ := h
    obtain ⟨s, hs, rfl⟩ := sublist_filterAuxM h
    cases b with
    | false => exact ⟨s, hs.cons x, rfl⟩
    | true => exact ⟨x :: s, hs.cons_cons x, by simp⟩

theorem sublist_filterM {α : Type} {f : α → Except String Bool} {l r : List α}
    (h : l.filterM f = .ok r) : r.Sublist l := by
  obtain ⟨r', hr, h⟩ := bind_ok.mp h
  cases h
  obtain ⟨s, hs, rfl⟩ := sublist_filterAuxM hr
  rwa [append_nil, reverse_reverse]

theorem activePeriods_length (hapart : db.memberships.Pairwise PeriodsApart)
    {active : List SpaceMembership}
    (h : db.activePeriods spaceId actorId now = .ok active) : active.length ≤ 1 := by
  have hsub := sublist_filterM h
  have hmem := mem_filterM h
  have hpair : active.Pairwise PeriodsApart := hapart.sublist (hsub.trans filter_sublist)
  match active, hpair, hmem, hsub with
  | [], _, _, _ => exact Nat.zero_le _
  | [m], _, _, _ => exact Nat.le_refl _
  | m :: m' :: rest, hpair, hmem, _ =>
    have hm := (hmem m).mp mem_cons_self
    have hm' := (hmem m').mp (mem_cons_of_mem _ mem_cons_self)
    have happ := rel_of_pairwise_cons hpair mem_cons_self
    have hp := (mem_filter.mp hm.1).2
    have hp' := (mem_filter.mp hm'.1).2
    simp only [and_eq_true, beq_iff_eq, Option.isNone_iff_eq_none] at hp hp'
    exact (not_both_current (happ (hp.1.1.trans hp'.1.1.symm) (hp.1.2.trans hp'.1.2.symm) hp.2
      hp'.2) hm.2 hm'.2).elim

/-! ## Policy versions -/

/-- The only current row of a space. -/
structure CurrentRow (policies : List PolicyRow) (spaceId : String) (row : PolicyRow) : Prop where
  mem : row ∈ policies
  space : row.spaceId = spaceId
  current : row.isCurrent = true
  unique : ∀ row' ∈ policies, row'.spaceId = spaceId → row'.isCurrent = true → row' = row

/-- No version of a space is above `n`. -/
def VersionsUpTo (policies : List PolicyRow) (spaceId : String) (n : Nat) : Prop :=
  ∀ row ∈ policies, row.spaceId = spaceId → row.version ≤ n

/-- The invariant of the tables. -/
structure WellFormed (db : GovernanceDb) : Prop where
  periods : ∀ m ∈ db.memberships, ∃ start finish, Spans m start finish
  apart : db.memberships.Pairwise PeriodsApart
  memberSpaces : ∀ m ∈ db.memberships, m.spaceId ∈ db.spaces.map (·.id)
  policySpaces : ∀ p ∈ db.policies, p.spaceId ∈ db.spaces.map (·.id)
  current : ∀ id ∈ db.spaces.map (·.id), ∃ row, CurrentRow db.policies id row ∧
    VersionsUpTo db.policies id row.version

/-- Nothing that the invariant reads has changed. -/
structure Untouched (db db' : GovernanceDb) : Prop where
  memberships : db'.memberships = db.memberships
  policies : db'.policies = db.policies
  spaces : db'.spaces.map (·.id) = db.spaces.map (·.id)

theorem WellFormed.of_untouched (h : WellFormed db) (hu : Untouched db db') : WellFormed db' := by
  obtain ⟨hm, hp, hs⟩ := hu
  refine ⟨?_, ?_, ?_, ?_, ?_⟩
  · rw [hm]; exact h.periods
  · rw [hm]; exact h.apart
  · rw [hm, hs]; exact h.memberSpaces
  · rw [hp, hs]; exact h.policySpaces
  · rw [hp, hs]; exact h.current

theorem WellFormed.addPeriod (h : WellFormed db) (hspace : m.spaceId ∈ db.spaces.map (·.id))
    (hspans : Spans m start finish)
    (hapart : ∀ m' ∈ db.periods m.spaceId m.actorId, Apart m' m) :
    WellFormed { db with memberships := db.memberships ++ [m] } where
  periods := fun m' hm' => by
    rcases mem_append.mp hm' with hm' | hm'
    · exact h.periods m' hm'
    · rw [mem_singleton.mp hm']
      exact ⟨start, finish, hspans⟩
  apart := by
    refine pairwise_append.mpr ⟨h.apart, pairwise_singleton _ _, fun m' hm' x hx => ?_⟩
    rw [mem_singleton.mp hx]
    intro hs ha hr _
    refine hapart m' (mem_filter.mpr ⟨hm', ?_⟩)
    simp [hs, ha, hr]
  memberSpaces := fun m' hm' => by
    rcases mem_append.mp hm' with hm' | hm'
    · exact h.memberSpaces m' hm'
    · rw [mem_singleton.mp hm']
      exact hspace
  policySpaces := h.policySpaces
  current := h.current

theorem WellFormed.revokePeriod (h : WellFormed db)
    (spaceId membershipId now : String) : WellFormed (db.revokePeriod spaceId membershipId now) := by
  have hsame : ∀ m : SpaceMembership, ∃ r,
      (if GovernanceDb.isUnrevoked spaceId membershipId m then { m with revokedAt := some now }
        else m) = { m with revokedAt := r } ∧ (r = none → m.revokedAt = none) := by
    intro m
    split
    · exact ⟨some now, rfl, fun hr => by cases hr⟩
    · exact ⟨m.revokedAt, rfl, id⟩
  have hmap : ∀ m' ∈ (db.revokePeriod spaceId membershipId now).memberships,
      ∃ m ∈ db.memberships, ∃ r, m' = { m with revokedAt := r } := by
    intro m' hm'
    obtain ⟨m, hm, rfl⟩ := mem_map.mp hm'
    obtain ⟨r, hr, -⟩ := hsame m
    exact ⟨m, hm, r, hr⟩
  refine ⟨fun m' hm' => ?_, ?_, fun m' hm' => ?_, h.policySpaces, h.current⟩
  · obtain ⟨m, hm, r, rfl⟩ := hmap m' hm'
    obtain ⟨start, finish, hs⟩ := h.periods m hm
    exact ⟨start, finish, hs.1, hs.2, hs.3⟩
  · refine pairwise_map.mpr (h.apart.imp ?_)
    intro m m' hapart
    obtain ⟨r, hr, hnone⟩ := hsame m
    obtain ⟨r', hr', hnone'⟩ := hsame m'
    rw [hr, hr']
    intro hspace hactor hrev hrev'
    obtain ⟨s, f, s', f', hs, hs', hor⟩ := hapart hspace hactor (hnone hrev) (hnone' hrev')
    exact ⟨s, f, s', f', ⟨hs.1, hs.2, hs.3⟩, ⟨hs'.1, hs'.2, hs'.3⟩, hor⟩
  · obtain ⟨m, hm, r, rfl⟩ := hmap m' hm'
    exact h.memberSpaces m hm

/-! ## Numbering versions -/

theorem mem_retirePolicy {p : PolicyRow} (h : p ∈ (db.retirePolicy spaceId).policies) :
    ∃ q ∈ db.policies, p.spaceId = q.spaceId ∧ p.version = q.version ∧
      (p.spaceId = spaceId → p.isCurrent = false) ∧ (p.spaceId ≠ spaceId → p = q) := by
  obtain ⟨q, hq, rfl⟩ := mem_map.mp h
  refine ⟨q, hq, ?_⟩
  split
  · next hc =>
    simp only [and_eq_true, beq_iff_eq] at hc
    exact ⟨rfl, rfl, fun _ => rfl, fun hne => absurd hc.1 hne⟩
  · next hc =>
    refine ⟨rfl, rfl, fun hs => ?_, fun _ => rfl⟩
    simpa [hs] using hc

theorem mem_retirePolicy_other {p : PolicyRow}
    (hne : p.spaceId ≠ spaceId) : p ∈ (db.retirePolicy spaceId).policies ↔ p ∈ db.policies := by
  constructor
  · intro h
    obtain ⟨q, hq, -, -, -, heq⟩ := mem_retirePolicy h
    rw [heq hne]
    exact hq
  · intro h
    exact mem_map.mpr ⟨p, h, if_neg (by simp [hne])⟩

/-- The invariant while the versions of one space are being numbered: those up to `index` are
taken, and which of them is current is left open. -/
structure Numbering (db : GovernanceDb) (spaceId : String) (index : Nat) : Prop where
  periods : ∀ m ∈ db.memberships, ∃ start finish, Spans m start finish
  apart : db.memberships.Pairwise PeriodsApart
  memberSpaces : ∀ m ∈ db.memberships, m.spaceId ∈ db.spaces.map (·.id)
  policySpaces : ∀ p ∈ db.policies, p.spaceId ∈ db.spaces.map (·.id)
  known : spaceId ∈ db.spaces.map (·.id)
  others : ∀ id ∈ db.spaces.map (·.id), id ≠ spaceId → ∃ row, CurrentRow db.policies id row ∧
    VersionsUpTo db.policies id row.version
  taken : VersionsUpTo db.policies spaceId index

theorem WellFormed.numbering (h : WellFormed db) (hrow : CurrentRow db.policies spaceId row) :
    Numbering db spaceId row.version := by
  have hknown : spaceId ∈ db.spaces.map (·.id) := hrow.space ▸ h.policySpaces row hrow.mem
  refine ⟨h.periods, h.apart, h.memberSpaces, h.policySpaces, hknown,
    fun id hid _ => h.current id hid, ?_⟩
  obtain ⟨row', hrow', hupto⟩ := h.current spaceId hknown
  rw [hrow'.unique row hrow.mem hrow.space hrow.current]
  exact hupto

theorem others_append {policies : List PolicyRow}
    (hne : id ≠ new.spaceId) (h : CurrentRow policies id row ∧ VersionsUpTo policies id row.version) :
    CurrentRow (policies ++ [new]) id row ∧ VersionsUpTo (policies ++ [new]) id row.version := by
  have hold : ∀ p ∈ policies ++ [new], p.spaceId = id → p ∈ policies := by
    intro p hp hid
    rcases mem_append.mp hp with hp | hp
    · exact hp
    · rw [mem_singleton.mp hp] at hid
      exact absurd hid.symm hne
  exact ⟨⟨mem_append_left _ h.1.mem, h.1.space, h.1.current,
      fun p hp hid => h.1.unique p (hold p hp hid) hid⟩,
    fun p hp hid => h.2 p (hold p hp hid) hid⟩

theorem Numbering.append (h : Numbering db spaceId index) (hspace : new.spaceId = spaceId)
    (hversion : new.version = index + 1) :
    Numbering { db with policies := db.policies ++ [new] } spaceId (index + 1) where
  periods := h.periods
  apart := h.apart
  memberSpaces := h.memberSpaces
  policySpaces := fun p hp => by
    rcases mem_append.mp hp with hp | hp
    · exact h.policySpaces p hp
    · rw [mem_singleton.mp hp, hspace]
      exact h.known
  known := h.known
  others := fun id hid hne => by
    obtain ⟨row, hrow⟩ := h.others id hid hne
    exact ⟨row, others_append (by rw [hspace]; exact hne) hrow⟩
  taken := fun p hp hs => by
    rcases mem_append.mp hp with hp | hp
    · exact (h.taken p hp hs).trans (Nat.le_succ _)
    · rw [mem_singleton.mp hp, hversion]

theorem Numbering.retire
    (h : Numbering db spaceId index) : Numbering (db.retirePolicy spaceId) spaceId index where
  periods := h.periods
  apart := h.apart
  memberSpaces := h.memberSpaces
  policySpaces := fun p hp => by
    obtain ⟨q, hq, hs, -⟩ := mem_retirePolicy hp
    rw [hs]
    exact h.policySpaces q hq
  known := h.known
  others := fun id hid hne => by
    obtain ⟨row, hrow, hupto⟩ := h.others id hid hne
    have hmem : ∀ p : PolicyRow, p.spaceId = id →
        (p ∈ (db.retirePolicy spaceId).policies ↔ p ∈ db.policies) := fun p hp =>
      mem_retirePolicy_other (by rw [hp]; exact hne)
    exact ⟨row, ⟨(hmem row hrow.space).mpr hrow.mem, hrow.space, hrow.current,
      fun p hp hid => hrow.unique p ((hmem p hid).mp hp) hid⟩,
      fun p hp hid => hupto p ((hmem p hid).mp hp) hid⟩
  taken := fun p hp hs => by
    obtain ⟨q, hq, hsq, hv, -⟩ := mem_retirePolicy hp
    rw [hv]
    exact h.taken q hq (hsq.symm.trans hs)

theorem Numbering.promote (h : Numbering db spaceId index) (hspace : new.spaceId = spaceId)
    (hversion : new.version = index + 1) (hcurrent : new.isCurrent = true) :
    CurrentRow ((db.retirePolicy spaceId).policies ++ [new]) spaceId new ∧
      WellFormed { db.retirePolicy spaceId with
        policies := (db.retirePolicy spaceId).policies ++ [new] } := by
  have hnext := h.retire.append hspace hversion
  have hrow : CurrentRow ((db.retirePolicy spaceId).policies ++ [new]) spaceId new := by
    refine ⟨mem_append_right _ mem_cons_self, hspace, hcurrent, fun p hp hs hc => ?_⟩
    rcases mem_append.mp hp with hp | hp
    · obtain ⟨-, -, -, -, hretired, -⟩ := mem_retirePolicy hp
      rw [hretired hs] at hc
      cases hc
    · exact mem_singleton.mp hp
  refine ⟨hrow, hnext.periods, hnext.apart, hnext.memberSpaces, hnext.policySpaces,
    fun id hid => ?_⟩
  by_cases hne : id = spaceId
  · subst hne
    exact ⟨new, hrow, by rw [hversion]; exact hnext.taken⟩
  · exact hnext.others id hid hne

/-! ## Statements -/

theorem recordAudit_ok {classification : String} {subjectId : Option String} {details : Json}
    (h : db.recordAudit id spaceId actorId classification subjectId now details = .ok db') :
    ∃ audit, db' = { db with audit } := by
  simp only [GovernanceDb.recordAudit, bind_ok, Except.ok.injEq] at h
  obtain ⟨audit, -, rfl⟩ := h
  exact ⟨audit, rfl⟩

theorem insertGrantRow_ok {grant : ResourceGrant}
    (h : db.insertGrantRow grant = .ok db') : ∃ grants, db' = { db with grants } := by
  simp only [GovernanceDb.insertGrantRow, bind_ok, Except.ok.injEq] at h
  obtain ⟨grants, -, rfl⟩ := h
  exact ⟨grants, rfl⟩

theorem insertPolicy_ok
    (h : db.insertPolicy row = .ok db') : db' = { db with policies := db.policies ++ [row] } := by
  simp only [GovernanceDb.insertPolicy, bind_ok, Except.ok.injEq, insertRow_ok] at h
  obtain ⟨policies, ⟨-, rfl⟩, rfl⟩ := h
  rfl

theorem createMembership_ok {grantedBy : String} {origin : String}
    (h : db.createMembership id spaceId actorId grantedBy start finish now origin = .ok (db', m)) :
    db' = { db with memberships := db.memberships ++ [m] } ∧ m.spaceId = spaceId ∧
      m.actorId = actorId ∧ m.validFrom = toISOString start ∧
      m.validUntil = finish.map toISOString := by
  simp only [GovernanceDb.createMembership, GovernanceDb.insertMembership, bind_ok,
    Except.ok.injEq, insertRow_ok, Prod.mk.injEq] at h
  obtain ⟨db₁, ⟨-, -, rows, ⟨-, rfl⟩, rfl⟩, rfl, rfl⟩ := h
  exact ⟨rfl, rfl, rfl, rfl, rfl⟩

/-- A created period keeps the invariant where the actor's other periods are apart from it. -/
theorem WellFormed.createMembership (h : WellFormed db) {grantedBy : String} {origin : String}
    (hm : db.createMembership id spaceId actorId grantedBy start finish now origin = .ok (db', m))
    (hspace : spaceId ∈ db.spaces.map (·.id)) (hordered : ∀ e, finish = some e → start < e)
    (hapart : ∀ m' ∈ db.periods spaceId actorId, ∃ start' finish', Spans m' start' finish' ∧
      ((∃ e, finish' = some e ∧ e ≤ start) ∨ ∃ e, finish = some e ∧ e ≤ start')) :
    WellFormed db' := by
  obtain ⟨rfl, rfl, rfl, hfrom, huntil⟩ := createMembership_ok hm
  have hspans : Spans m start finish := ⟨hfrom, huntil, hordered⟩
  refine h.addPeriod hspace hspans fun m' hm' => ?_
  obtain ⟨start', finish', hs', hor⟩ := hapart m' hm'
  exact ⟨start', finish', start, finish, hs', hspans, hor⟩

theorem space_mem (h : db.space spaceId = some space) : space ∈ db.spaces ∧ space.id = spaceId := by
  have hprop := find?_some h
  simp only [and_eq_true, beq_iff_eq] at hprop
  exact ⟨mem_of_find?_eq_some h, hprop.1⟩

theorem known_of_manager {capability operation : String}
    (h : db.requireManager spaceId actorId capability now operation = .ok m) :
    spaceId ∈ db.spaces.map (·.id) := by
  simp only [GovernanceDb.requireManager, bind_ok, orStop_ok] at h
  obtain ⟨_, hm, m', rfl, -⟩ := h
  unfold GovernanceDb.currentMembership at hm
  split at hm
  · next hactive =>
    rw [and_eq_true] at hactive
    obtain ⟨space, hs⟩ := Option.isSome_iff_exists.mp hactive.2
    obtain ⟨hmem, hid⟩ := space_mem hs
    exact hid ▸ mem_map_of_mem hmem
  · cases hm

/-! ## Operations on periods -/

theorem endsAfter_false {now : Int} (h : endsAfter now m = .ok false) (hs : Spans m start finish) :
    ∃ e, finish = some e ∧ e ≤ now := by
  unfold endsAfter at h
  rw [hs.finish_eq] at h
  cases finish with
  | none => cases h
  | some e =>
    simp only [Option.map_some, bind_ok, Except.ok.injEq, decide_eq_false_iff_not] at h
    obtain ⟨e', he', hlt⟩ := h
    cases isoTime_toISOString he'
    exact ⟨e, rfl, not_lt.mp hlt⟩

theorem overlaps_false
    (h : overlaps start finish m = .ok false) {start' : Int} {finish' : Option Int}
    (hs : Spans m start' finish') :
    (∃ e, finish' = some e ∧ e ≤ start) ∨ ∃ e, finish = some e ∧ e ≤ start' := by
  obtain ⟨before, hbefore, h⟩ := bind_ok.mp h
  cases before with
  | false => exact .inl (endsAfter_false hbefore hs)
  | true =>
    rw [if_pos rfl, hs.start_eq] at h
    obtain ⟨s, hstart, h⟩ := bind_ok.mp h
    cases isoTime_toISOString hstart
    cases finish with
    | none => cases h
    | some e => exact .inr ⟨e, rfl, by simpa using h⟩

theorem someOverlap_false : ∀ {ms : List SpaceMembership}, someOverlap start finish ms = .ok false →
      ∀ m ∈ ms, overlaps start finish m = .ok false
  | [], _, m, hm => absurd hm not_mem_nil
  | m' :: ms, h, m, hm => by
    simp only [someOverlap, bind_ok] at h
    obtain ⟨b, hb, h⟩ := h
    cases b with
    | true => cases h
    | false =>
      rcases mem_cons.mp hm with rfl | hm
      · exact hb
      · exact someOverlap_false h m hm

theorem someEndsAfter_false {now : Int} :
    ∀ {ms : List SpaceMembership}, someEndsAfter now ms = .ok false →
      ∀ m ∈ ms, endsAfter now m = .ok false
  | [], _, m, hm => absurd hm not_mem_nil
  | m' :: ms, h, m, hm => by
    simp only [someEndsAfter, bind_ok] at h
    obtain ⟨b, hb, h⟩ := h
    cases b with
    | true => cases h
    | false =>
      rcases mem_cons.mp hm with rfl | hm
      · exact hb
      · exact someEndsAfter_false h m hm

theorem periods_sub (h : m ∈ db.periods spaceId actorId) : m ∈ db.memberships:= (mem_filter.mp h).1

theorem addMembership_keeps {input : AddMembershipInput}
    (h : WellFormed db) (hrun : db.addMembership ids input = .ok (db', m)) :
    WellFormed db' := by
  simp only [GovernanceDb.addMembership, bind_ok, Prod.exists, reject_ok, Except.ok.injEq,
    Prod.mk.injEq] at hrun
  obtain ⟨-, -, manager, hmanager, -, -, start, -, finish, -, -, hinterval, overlap, hoverlap, -,
    rfl, db₁, m₁, hcreate, db₂, haudit, rfl, rfl⟩ := hrun
  obtain ⟨audit, rfl⟩ := recordAudit_ok haudit
  refine (h.createMembership hcreate (known_of_manager hmanager) ?_ ?_).of_untouched ⟨rfl, rfl, rfl⟩
  · rintro e rfl
    simpa using hinterval
  · intro m' hm'
    obtain ⟨start', finish', hs⟩ := h.periods m' (periods_sub hm')
    exact ⟨start', finish', hs, overlaps_false (someOverlap_false hoverlap m' hm') hs⟩

theorem checkInvitation_space {input : AcceptInvitedMembershipInput} {now : Int}
    {invitation : Invitation} {issuer : SpaceMembership} {policy : PolicyRow}
    (h : db.checkInvitation input now = .ok (space, invitation, issuer, policy)) :
    space.id ∈ db.spaces.map (·.id) := by
  simp only [GovernanceDb.checkInvitation, bind_ok, orStop_ok, Except.ok.injEq,
    Prod.mk.injEq] at h
  obtain ⟨-, -, _, -, spaceId, -, _, -, _, -, _, -, -, -, _, -, space', hspace, _, -, -, -, _, -, -,
    -, _, -, -, -, rfl, -⟩ := h
  exact mem_map_of_mem (space_mem hspace).1

theorem auditAccepted_ok {invitation : Invitation} {issuer : SpaceMembership} {policy : PolicyRow}
    {input : AcceptInvitedMembershipInput} {existing : Bool}
    (h : db.auditAccepted id space invitation issuer policy input m existing = .ok db') :
    Untouched db db' := by
  obtain ⟨audit, rfl⟩ := recordAudit_ok h
  exact ⟨rfl, rfl, rfl⟩

theorem acceptInvitedMembership_keeps {input : AcceptInvitedMembershipInput} (h : WellFormed db)
    (hrun : db.acceptInvitedMembership ids input = .ok (db', m)) : WellFormed db' := by
  simp only [GovernanceDb.acceptInvitedMembership, bind_ok, Prod.exists] at hrun
  obtain ⟨-, -, now, -, space, invitation, issuer, policy, hcheck, member, -, hrun⟩ := hrun
  cases member with
  | some current =>
    simp only [bind_ok, Except.ok.injEq, Prod.mk.injEq] at hrun
    obtain ⟨db₁, haudit, rfl, -⟩ := hrun
    exact h.of_untouched (auditAccepted_ok haudit)
  | none =>
    simp only [bind_ok, Prod.exists, reject_ok, Except.ok.injEq, Prod.mk.injEq] at hrun
    obtain ⟨later, hlater, -, rfl, db₁, m₁, hcreate, db₂, haudit, rfl, -⟩ := hrun
    refine (h.createMembership hcreate (checkInvitation_space hcheck) ?_ ?_).of_untouched
      (auditAccepted_ok haudit)
    · intro e he
      cases he
    · intro m' hm'
      obtain ⟨start', finish', hs⟩ := h.periods m' (periods_sub hm')
      exact ⟨start', finish', hs, .inl (endsAfter_false (someEndsAfter_false hlater m' hm') hs)⟩

theorem revokeMembership_keeps {input : RevokeMembershipInput}
    (h : WellFormed db) (hrun : db.revokeMembership ids input = .ok db') : WellFormed db' := by
  simp only [GovernanceDb.revokeMembership, bind_ok] at hrun
  obtain ⟨_, -, _, -, _, -, _, -, _, -, _, -, haudit⟩ := hrun
  obtain ⟨audit, rfl⟩ := recordAudit_ok haudit
  exact (h.revokePeriod _ _ _).of_untouched ⟨rfl, rfl, rfl⟩

/-! ## Operations on spaces and policies -/

theorem foldlM_grants {α : Type} {f : GovernanceDb → α → Except String GovernanceDb}
    (hf : ∀ {db db' a}, f db a = .ok db' → ∃ grants, db' = { db with grants }) :
    ∀ {l : List α} {db db' : GovernanceDb}, l.foldlM f db = .ok db' →
      ∃ grants, db' = { db with grants }
  | [], db, db', h => by
    cases h
    exact ⟨db.grants, rfl⟩
  | a :: l, db, db', h => by
    rw [foldlM_cons, bind_ok] at h
    obtain ⟨db₁, hstep, h⟩ := h
    obtain ⟨grants, rfl⟩ := hf hstep
    obtain ⟨grants', rfl⟩ := foldlM_grants hf h
    exact ⟨grants', rfl⟩

theorem createSpace_ok (h : db.createSpace ids input = .ok (db', space)) :
    ∃ m p grants audit start, space.id ∉ db.spaces.map (·.id) ∧ m.spaceId = space.id ∧
      Spans m start none ∧ p.spaceId = space.id ∧ p.isCurrent = true ∧
      db' = { db with
        spaces := db.spaces ++ [space], memberships := db.memberships ++ [m]
        policies := db.policies ++ [p], grants, audit } := by
  simp only [GovernanceDb.createSpace, bind_ok, Prod.exists] at h
  obtain ⟨-, -, -, -, start, -, db₁, hspace, db₂, m, hcreate, db₃, hgrants, db₄, hpolicy, db₅,
    haudit, h⟩ := h
  cases h
  obtain ⟨audit, rfl⟩ := recordAudit_ok haudit
  rw [insertPolicy_ok hpolicy]
  obtain ⟨grants, rfl⟩ := foldlM_grants insertGrantRow_ok hgrants
  obtain ⟨rfl, hid, -, hfrom, huntil⟩ := createMembership_ok hcreate
  simp only [GovernanceDb.insertSpace, bind_ok, insertRow_ok, Except.ok.injEq] at hspace
  obtain ⟨spaces, ⟨hfresh, rfl⟩, rfl⟩ := hspace
  refine ⟨m, _, grants, audit, start, ?_, hid, ⟨hfrom, huntil, fun e he => by cases he⟩, rfl, rfl,
    rfl⟩
  intro hmem
  obtain ⟨s, hs, heq⟩ := mem_map.mp hmem
  have := hfresh s hs
  simp [heq] at this

theorem createSpace_keeps (h : WellFormed db) (hrun : db.createSpace ids input = .ok (db', space)) :
    WellFormed db' := by
  obtain ⟨m, p, grants, audit, start, hfresh, hm, hspans, hp, hcurrent, rfl⟩ := createSpace_ok hrun
  have hold : ∀ id ∈ db.spaces.map (·.id), id ∈ (db.spaces ++ [space]).map (·.id) := fun id hid => by
    rw [map_append]
    exact mem_append_left _ hid
  have hnew : space.id ∈ (db.spaces ++ [space]).map (·.id) := by simp
  refine ⟨fun m' hm' => ?_, ?_, fun m' hm' => ?_, fun q hq => ?_, fun id hid => ?_⟩
  · rcases mem_append.mp hm' with hm' | hm'
    · exact h.periods m' hm'
    · rw [mem_singleton.mp hm']
      exact ⟨start, none, hspans⟩
  · -- no period of the new space precedes it
    refine pairwise_append.mpr ⟨h.apart, pairwise_singleton _ _, fun m' hm' x hx => ?_⟩
    rw [mem_singleton.mp hx]
    intro hs
    exact absurd (hm ▸ hs ▸ h.memberSpaces m' hm') hfresh
  · rcases mem_append.mp hm' with hm' | hm'
    · exact hold _ (h.memberSpaces m' hm')
    · rw [mem_singleton.mp hm', hm]
      exact hnew
  · rcases mem_append.mp hq with hq | hq
    · exact hold _ (h.policySpaces q hq)
    · rw [mem_singleton.mp hq, hp]
      exact hnew
  · rw [map_append, mem_append] at hid
    rcases hid with hid | hid
    · obtain ⟨row, hrow⟩ := h.current id hid
      exact ⟨row, others_append (fun heq => hfresh (hp ▸ heq ▸ hid)) hrow⟩
    · have hid' : id = space.id := by simpa using hid
      subst hid'
      have honly : ∀ q ∈ db.policies ++ [p], q.spaceId = space.id → q = p := by
        intro q hq hs
        rcases mem_append.mp hq with hq | hq
        · exact absurd (hs ▸ h.policySpaces q hq) hfresh
        · exact mem_singleton.mp hq
      exact ⟨p, ⟨mem_append_right _ mem_cons_self, hp, hcurrent,
        fun q hq hs _ => honly q hq hs⟩, fun q hq hs => by rw [honly q hq hs]⟩

/-- One legacy row takes the next number, and is current where its version is the legacy current
one. -/
theorem importLegacyRow_keeps {current : String} {index' : Nat}
    {row : LegacyPolicyRow} (h : Numbering db spaceId index)
    (hrun : GovernanceDb.importLegacyRow spaceId current (db, index) row = .ok (db', index')) :
    Numbering db' spaceId index' ∧ (row.version = current → WellFormed db') ∧
      db'.spaces = db.spaces := by
  simp only [GovernanceDb.importLegacyRow, bind_ok] at hrun
  obtain ⟨-, -, policy, -, -, -, db₁, hinsert, hrun⟩ := hrun
  cases hrun
  rw [insertPolicy_ok hinsert]
  by_cases hc : row.version = current
  · rw [hc, beq_self_eq_true, if_pos rfl]
    exact ⟨h.retire.append rfl rfl, fun _ => (h.promote rfl rfl rfl).2, rfl⟩
  · rw [beq_eq_false_iff_ne.mpr hc, if_neg Bool.false_ne_true]
    exact ⟨h.append rfl rfl, fun heq => absurd heq hc, rfl⟩

/-- The legacy policy that is current is the last to be imported. -/
def LegacyInOrder (db : GovernanceDb) (budgetId : String) : Prop :=
  ∀ current, db.legacyVersion budgetId = some current →
    ∃ last, (db.legacyRows budgetId).getLast? = some last ∧ last.version = current

theorem foldlM_importLegacyRow {current : String} :
    ∀ {rows : List LegacyPolicyRow} {db db' : GovernanceDb} {index index' : Nat},
      Numbering db spaceId index →
      rows.foldlM (GovernanceDb.importLegacyRow spaceId current) (db, index) = .ok (db', index') →
      ((∃ last, rows.getLast? = some last ∧ last.version = current) → WellFormed db') ∧
        db'.spaces = db.spaces
  | [], db, db', index, index', h, hrun => by
    cases hrun
    exact ⟨fun ⟨last, hlast, _⟩ => (by cases hlast), rfl⟩
  | row :: rows, db, db', index, index', h, hrun => by
    rw [foldlM_cons, bind_ok] at hrun
    obtain ⟨⟨db₁, index₁⟩, hstep, hrun⟩ := hrun
    obtain ⟨hnext, hpromote, hspaces⟩ := importLegacyRow_keeps h hstep
    obtain ⟨hlast, hspaces'⟩ := foldlM_importLegacyRow hnext hrun
    refine ⟨?_, hspaces'.trans hspaces⟩
    rintro ⟨last, hl, hv⟩
    cases rows with
    | nil =>
      cases hl
      cases hrun
      exact hpromote hv
    | cons r rs => exact hlast ⟨last, by rwa [getLast?_cons_cons] at hl, hv⟩

theorem getPolicy_eq (h : CurrentRow db.policies spaceId row) : db.getPolicy spaceId = some row := by
  unfold GovernanceDb.getPolicy
  cases hfind : db.policies.find? fun p => p.spaceId == spaceId && p.isCurrent with
  | none =>
    have := find?_eq_none.mp hfind row h.mem
    simp [h.space, h.current] at this
  | some p =>
    have hprop := find?_some hfind
    simp only [and_eq_true, beq_iff_eq] at hprop
    rw [h.unique p (mem_of_find?_eq_some hfind) hprop.1 hprop.2]

theorem importLegacy_keeps {auditId budgetId : String}
    (h : WellFormed db) (hspace : spaceId ∈ db.spaces.map (·.id)) (horder : LegacyInOrder db budgetId)
    (hrun : db.importLegacyApprovalPolicy auditId spaceId budgetId actorId now = .ok db') :
    WellFormed db' ∧ db'.spaces = db.spaces := by
  unfold GovernanceDb.importLegacyApprovalPolicy at hrun
  split at hrun
  · cases hrun
    exact ⟨h, rfl⟩
  · next current hcurrent =>
    simp only [bind_ok, Prod.exists] at hrun
    obtain ⟨-, -, -, -, db₁, index, hfold, haudit⟩ := hrun
    obtain ⟨audit, rfl⟩ := recordAudit_ok haudit
    obtain ⟨row, hrow, -⟩ := h.current spaceId hspace
    rw [getPolicy_eq hrow] at hfold
    obtain ⟨hkept, hspaces⟩ := foldlM_importLegacyRow (h.numbering hrow) hfold
    exact ⟨(hkept (horder current hcurrent)).of_untouched ⟨rfl, rfl, rfl⟩, hspaces⟩

theorem untouched_bindSpace (db : GovernanceDb) (spaceId budgetId : String) :
    Untouched db (db.bindSpace spaceId budgetId) := by
  refine ⟨rfl, rfl, ?_⟩
  simp only [GovernanceDb.bindSpace, map_map]
  refine map_congr_left fun s _ => ?_
  simp only [Function.comp_apply]
  split <;> rfl

theorem bindBudget_keeps {input : BindBudgetInput}
    (h : WellFormed db) (horder : LegacyInOrder db input.budgetId)
    (hrun : db.bindBudget ids input = .ok (db', space)) :
    WellFormed db' ∧ space.id ∈ db'.spaces.map (·.id) := by
  simp only [GovernanceDb.bindBudget, bind_ok, orStop_ok] at hrun
  obtain ⟨-, -, -, -, -, -, space₀, hspace, -, -, -, -, -, -, -, -, db₁, himport, db₂, haudit,
    hrun⟩ := hrun
  cases hrun
  obtain ⟨audit, rfl⟩ := recordAudit_ok haudit
  obtain ⟨hmem, hid⟩ := space_mem hspace
  have hbound := untouched_bindSpace db input.spaceId input.budgetId
  have hknown : space₀.id ∈ (db.bindSpace input.spaceId input.budgetId).spaces.map (·.id) := by
    rw [hbound.spaces]
    exact mem_map_of_mem hmem
  obtain ⟨hkept, hspaces⟩ := importLegacy_keeps (h.of_untouched hbound) (hid ▸ hknown) horder himport
  exact ⟨hkept.of_untouched ⟨rfl, rfl, rfl⟩, (congrArg (List.map (·.id)) hspaces).symm ▸ hknown⟩

theorem backfillMember_keeps {state state' : GovernanceDb.Backfill}
    (h : WellFormed state.db) (hspace : space.id ∈ state.db.spaces.map (·.id))
    (hrun : GovernanceDb.backfillMember ids space input start state actorId = .ok (state', m)) :
    WellFormed state'.db ∧ state'.db.spaces = state.db.spaces := by
  unfold GovernanceDb.backfillMember at hrun
  split at hrun
  · cases hrun
    exact ⟨h, rfl⟩
  · next hnone =>
    simp only [bind_ok, Prod.exists] at hrun
    obtain ⟨db₁, m₁, hcreate, hrun⟩ := hrun
    cases hrun
    refine ⟨h.createMembership hcreate hspace (fun e he => by cases he) fun m' hm' => ?_, ?_⟩
    · rw [head?_eq_none_iff.mp hnone] at hm'
      exact absurd hm' not_mem_nil
    · rw [(createMembership_ok hcreate).1]

theorem backfillActor_keeps {oldGrants : List ResourceGrant} {state state' : GovernanceDb.Backfill}
    (h : WellFormed state.db ∧ space.id ∈ state.db.spaces.map (·.id))
    (hrun : GovernanceDb.backfillActor ids space input start oldGrants state actorId = .ok state') :
    WellFormed state'.db ∧ space.id ∈ state'.db.spaces.map (·.id) := by
  simp only [GovernanceDb.backfillActor, bind_ok, Prod.exists] at hrun
  obtain ⟨state₁, m, hmember, hrun⟩ := hrun
  obtain ⟨hkept, hspaces⟩ := backfillMember_keeps h.1 h.2 hmember
  refine foldlM_inv (P := fun s : GovernanceDb.Backfill =>
    WellFormed s.db ∧ space.id ∈ s.db.spaces.map (·.id)) ?_ ⟨hkept, hspaces.symm ▸ h.2⟩ hrun
  rintro s s' legacy - ⟨hs, hid⟩ hstep
  simp only [bind_ok] at hstep
  obtain ⟨db₁, himport, hstep⟩ := hstep
  cases hstep
  obtain ⟨grants, rfl⟩ := insertGrantRow_ok himport
  exact ⟨hs.of_untouched ⟨rfl, rfl, rfl⟩, hid⟩

theorem backfill_keeps {budgetId : String} (h : WellFormed db) (horder : LegacyInOrder db budgetId)
    (hrun : db.backfillKnownBudgetSpace ids input budgetId = .ok (db', space)) :
    WellFormed db' := by
  simp only [GovernanceDb.backfillKnownBudgetSpace, bind_ok, Prod.exists] at hrun
  obtain ⟨start, -, -, -, db₁, created, hcreate, db₂, bound, hbind, state, hfold, db₃, haudit,
    hrun⟩ := hrun
  rw [Except.ok.injEq, Prod.mk.injEq] at hrun
  obtain ⟨rfl, -⟩ := hrun
  obtain ⟨audit, rfl⟩ := recordAudit_ok haudit
  have hcreated := createSpace_keeps h hcreate
  have horder' : LegacyInOrder db₁ budgetId := by
    obtain ⟨m, p, grants, audit, start, -, -, -, -, -, rfl⟩ := createSpace_ok hcreate
    exact horder
  have hbound := bindBudget_keeps hcreated horder' hbind
  exact (foldlM_inv (P := fun s : GovernanceDb.Backfill =>
    WellFormed s.db ∧ bound.id ∈ s.db.spaces.map (·.id))
    (fun _ _ _ _ hs hstep => backfillActor_keeps hs hstep) hbound hfold).1.of_untouched ⟨rfl, rfl, rfl⟩

theorem setPolicy_ok {input : SetPolicyInput} (h : db.setPolicy ids input = .ok (db', row)) :
    ∃ audit, row.spaceId = input.spaceId ∧ row.isCurrent = true ∧
      row.version = (db.getPolicy input.spaceId).elim 0 (·.version) + 1 ∧
      input.spaceId ∈ db.spaces.map (·.id) ∧
      db' = { db.retirePolicy input.spaceId with
        policies := (db.retirePolicy input.spaceId).policies ++ [row], audit } := by
  simp only [GovernanceDb.setPolicy, bind_ok] at h
  obtain ⟨-, -, m, hm, -, -, -, -, -, -, policy, -, -, -, db₁, hinsert, db₂, haudit, h⟩ := h
  cases h
  obtain ⟨audit, rfl⟩ := recordAudit_ok haudit
  rw [insertPolicy_ok hinsert]
  exact ⟨audit, rfl, rfl, rfl, known_of_manager hm, rfl⟩

theorem setPolicy_keeps {input : SetPolicyInput}
    (h : WellFormed db) (hrun : db.setPolicy ids input = .ok (db', row)) :
    WellFormed db' := by
  obtain ⟨audit, hspace, hcurrent, hversion, hknown, rfl⟩ := setPolicy_ok hrun
  obtain ⟨row', hrow', -⟩ := h.current _ hknown
  rw [getPolicy_eq hrow', Option.elim_some] at hversion
  exact ((h.numbering hrow').promote hspace hversion hcurrent).2.of_untouched ⟨rfl, rfl, rfl⟩

/-! ## The next version -/

theorem get?_append_singleton (raw : Entries) (key k : String) (v : Json) :
    Json.get? (raw ++ [(k, v)]) key =
      (Json.get? raw key).or (if k = key then some v else none) := by
  simp only [Json.get?, find?_append, find?_singleton, beq_iff_eq]
  cases raw.find? (·.1 == key) with
  | some e => rfl
  | none => split <;> rfl

theorem parsePolicy_inherit {current : Option PolicyRow} {raw : Entries} {policy : GovernancePolicy}
    (h : parsePolicy raw = .ok policy) :
    ∃ policy', parsePolicy (GovernanceDb.inheritAssistance current raw) = .ok policy' := by
  unfold GovernanceDb.inheritAssistance
  split
  · next row hnone =>
    simp only [parsePolicy, bind_ok] at h
    obtain ⟨minimum, hmin, thresholds, hthr, operations, hops, -⟩ := h
    have hword : ∃ a, parseAssistance (some (.string (GovernanceDb.assistanceText row.policy))) =
        .ok a := by
      unfold GovernanceDb.assistanceText
      split <;> exact ⟨_, rfl⟩
    obtain ⟨a, ha⟩ := hword
    simp only [parsePolicy, get?_append_singleton, hnone, Option.none_or, if_true, String.reduceEq,
      if_false, Option.or_none, hmin, hthr, hops, ha, ok_bind]
    exact ⟨_, rfl⟩
  · exact ⟨policy, h⟩

/-- With the current version expected, a valid policy and current authority, `setPolicy` makes a
greater version current. -/
def NextVersionFree (db : GovernanceDb) : Prop :=
  ∀ (ids : Ids) (input : SetPolicyInput) (manager : SpaceMembership) (row : PolicyRow)
    (raw : Entries) (policy : GovernancePolicy),
    db.controlAuth input.auth input.auth.actorId input.now = .ok () →
    db.requireManager input.spaceId input.auth.actorId "policy:manage" input.now "policy:update" =
      .ok manager →
    db.getPolicy input.spaceId = some row → input.expectedVersion = some (toString row.version) →
    input.policy = .object raw → parsePolicy raw = .ok policy →
    (row.version : Int) < maxSafeInteger → (∀ a ∈ db.audit, a.id ≠ ids 0) →
    ∃ db' row', db.setPolicy ids input = .ok (db', row') ∧ row.version < row'.version ∧
      db'.getPolicy input.spaceId = some row'

theorem isoTime_of_controlAuth {auth : OperationalAuth}
    (h : db.controlAuth auth actorId now = .ok ()) : ∃ t, isoTime now = .ok t := by
  unfold GovernanceDb.controlAuth at h
  split at h
  · obtain ⟨t, ht, -⟩ := bind_ok.mp h
    exact ⟨t, ht⟩
  · cases h

theorem recordAudit_fresh (h : ∀ a ∈ db.audit, a.id ≠ id)
    (spaceId actorId classification : String) (subjectId : Option String) (now : String)
    (details : Json) :
    ∃ audit, db.recordAudit id spaceId actorId classification subjectId now details =
      .ok { db with audit } := by
  refine ⟨db.audit ++ [{ id, spaceId, actorId, classification, subjectId, timestamp := now
                         details }], ?_⟩
  rw [GovernanceDb.recordAudit, bind_ok]
  exact ⟨_, insertRow_ok.mpr ⟨fun a ha => beq_eq_false_iff_ne.mpr (h a ha).symm, rfl⟩, rfl⟩

theorem Numbering.insertPolicy (h : Numbering db spaceId index) (hspace : new.spaceId = spaceId)
    (hversion : new.version = index + 1) :
    (db.retirePolicy spaceId).insertPolicy new = .ok { db.retirePolicy spaceId with
      policies := (db.retirePolicy spaceId).policies ++ [new] } := by
  rw [GovernanceDb.insertPolicy, bind_ok]
  refine ⟨_, insertRow_ok.mpr ⟨fun q hq => ?_, rfl⟩, rfl⟩
  by_cases hs : q.spaceId = spaceId
  · obtain ⟨-, -, -, -, hretired, -⟩ := mem_retirePolicy hq
    have hle := h.retire.taken q hq hs
    have hne : (new.version == q.version) = false := by
      rw [beq_eq_false_iff_ne, hversion]
      omega
    rw [hne, hretired hs, Bool.and_false, Bool.or_false, Bool.and_false]
  · rw [hspace, beq_eq_false_iff_ne.mpr (Ne.symm hs), Bool.false_and]

theorem WellFormed.nextVersionFree (h : WellFormed db) : NextVersionFree db := by
  intro ids input manager row raw policy hauth hmanager hrow hexpected hraw hpolicy hsafe hfresh
  obtain ⟨t, ht⟩ := isoTime_of_controlAuth hauth
  obtain ⟨policy', hpolicy'⟩ := @parsePolicy_inherit (some row) _ _ hpolicy
  obtain ⟨row₀, hrow₀, -⟩ := h.current _ (known_of_manager hmanager)
  cases hrow.symm.trans (getPolicy_eq hrow₀)
  have hnumbering := h.numbering hrow₀
  have hversion : ((row.version + 1 : Nat) : Int) ≤ maxSafeInteger := by
    push_cast
    omega
  obtain ⟨new, hnew⟩ : ∃ new : PolicyRow, new = {
      spaceId := input.spaceId, version := row.version + 1, policy := policy'
      actorId := manager.actorId, createdAt := input.now, isCurrent := true } := ⟨_, rfl⟩
  have hspace : new.spaceId = input.spaceId := by rw [hnew]
  have hnext : new.version = row.version + 1 := by rw [hnew]
  have hcurrent : new.isCurrent = true := by rw [hnew]
  obtain ⟨audit, haudit⟩ := @recordAudit_fresh { db.retirePolicy input.spaceId with
    policies := (db.retirePolicy input.spaceId).policies ++ [new] } (ids 0) hfresh input.spaceId
    manager.actorId "policy_changed" (some (toString (row.version + 1))) input.now (.object [])
  refine ⟨{ db.retirePolicy input.spaceId with
      policies := (db.retirePolicy input.spaceId).policies ++ [new], audit }, new, ?_, by omega,
    getPolicy_eq (hnumbering.promote hspace hnext hcurrent).1⟩
  simp only [GovernanceDb.setPolicy, hauth, hmanager, ht, hrow, hexpected, hraw, hpolicy',
    GovernanceDb.policyEntries, ok_bind, Option.map_some, bne_self_eq_false, reject_false,
    Option.elim_some, decide_eq_true hversion, Bool.not_true, ← hnew,
    hnumbering.insertPolicy hspace hnext, haudit]

/-! ## Runs -/

/-- One step of a history: an operation of the list, or a change that leaves memberships, policies
and the set of spaces as they are. `mayBind` restricts the budgets that may be bound. -/
inductive Step (mayBind : GovernanceDb → String → Prop) (db : GovernanceDb) : GovernanceDb → Prop
  | createSpace {db' : GovernanceDb} {ids : Ids} {input : CreateSpaceInput} {space : Space} :
    db.createSpace ids input = .ok (db', space) → Step mayBind db db'
  | bindBudget {db' : GovernanceDb} {ids : Ids} {input : BindBudgetInput} {space : Space} :
    mayBind db input.budgetId → db.bindBudget ids input = .ok (db', space) → Step mayBind db db'
  | backfill {db' : GovernanceDb} {ids : Ids} {input : CreateSpaceInput} {budgetId : String}
    {space : Space} : mayBind db budgetId →
    db.backfillKnownBudgetSpace ids input budgetId = .ok (db', space) → Step mayBind db db'
  | addMembership {db' : GovernanceDb} {ids : Ids} {input : AddMembershipInput}
    {m : SpaceMembership} : db.addMembership ids input = .ok (db', m) → Step mayBind db db'
  | acceptInvited {db' : GovernanceDb} {ids : Ids} {input : AcceptInvitedMembershipInput}
    {m : SpaceMembership} :
    db.acceptInvitedMembership ids input = .ok (db', m) → Step mayBind db db'
  | revokeMembership {db' : GovernanceDb} {ids : Ids} {input : RevokeMembershipInput} :
    db.revokeMembership ids input = .ok db' → Step mayBind db db'
  | setPolicy {db' : GovernanceDb} {ids : Ids} {input : SetPolicyInput} {row : PolicyRow} :
    db.setPolicy ids input = .ok (db', row) → Step mayBind db db'
  | other {db' : GovernanceDb} : Untouched db db' → Step mayBind db db'

/-- A store without spaces. -/
structure NoSpaces (db : GovernanceDb) : Prop where
  spaces : db.spaces = []
  memberships : db.memberships = []
  policies : db.policies = []

/-- **The well-formedness of a history.** -/
structure HistoryOk (db : GovernanceDb) : Prop where
  disjoint : db.memberships.Pairwise PeriodsApart
  unambiguous : ∀ spaceId actorId now active,
    db.activePeriods spaceId actorId now = .ok active → active.length ≤ 1
  current : ∀ id ∈ db.spaces.map (·.id), ∃ row, CurrentRow db.policies id row ∧
    VersionsUpTo db.policies id row.version
  nextFree : NextVersionFree db

theorem WellFormed.historyOk (h : WellFormed db) : HistoryOk db :=
  ⟨h.apart, fun _ _ _ _ hactive => activePeriods_length h.apart hactive, h.current,
    h.nextVersionFree⟩

theorem step_keeps (h : WellFormed db) (hstep : Step LegacyInOrder db db') : WellFormed db' := by
  cases hstep with
  | createSpace hrun => exact createSpace_keeps h hrun
  | bindBudget horder hrun => exact (bindBudget_keeps h horder hrun).1
  | backfill horder hrun => exact backfill_keeps h horder hrun
  | addMembership hrun => exact addMembership_keeps h hrun
  | acceptInvited hrun => exact acceptInvitedMembership_keeps h hrun
  | revokeMembership hrun => exact revokeMembership_keeps h hrun
  | setPolicy hrun => exact setPolicy_keeps h hrun
  | other hu => exact h.of_untouched hu

theorem wellFormed_noSpaces (h : NoSpaces db) : WellFormed db := by
  obtain ⟨hs, hm, hp⟩ := h
  refine ⟨?_, ?_, ?_, ?_, ?_⟩ <;> simp [hs, hm, hp]

/-- **Every history that imports legacy policies in order stays well formed.** -/
theorem history_ok {start db : GovernanceDb} (hstart : NoSpaces start)
    (hrun : Relation.ReflTransGen (Step LegacyInOrder) start db) : HistoryOk db := by
  refine WellFormed.historyOk ?_
  induction hrun with
  | refl => exact wellFormed_noSpaces hstart
  | tail _ hstep ih => exact step_keeps ih hstep

def founding (legacyCurrent : String) : GovernanceDb where
  identities := [{ actorId := "ada", status := "active", scope := "owner" }]
  registeredOwner := some "ada"
  legacyCurrent := [("budget", legacyCurrent)]
  legacyPolicies := [
    { budgetId := "budget", version := "first", approvalPolicy := .object [], actorId := "ada"
      createdAt := "2026-01-01T00:00:00.000Z" },
    { budgetId := "budget", version := "second", approvalPolicy := .object [], actorId := "ada"
      createdAt := "2026-01-02T00:00:00.000Z" }]

def ada : OperationalAuth where
  actorId := "ada"
  credential := .humanSession "session" "2026-02-01T00:00:00.000Z"

def lengths (offset : Nat) : Ids := fun n => String.ofList (List.replicate (offset + n) 'x')

def opening (legacyCurrent : String) : Except String (GovernanceDb × Space) :=
  (founding legacyCurrent).createSpace (lengths 0) {
    actorId := "ada", name := "Home", kind := "shared", now := "2026-02-01T00:00:00.000Z"
    auth := ada }

def stored (x : Except String (GovernanceDb × Space)) : GovernanceDb := (valueOr ({}, default) x).1

theorem eq_ok_stored {x : Except String (GovernanceDb × Space)} (h : isOk x = true) :
    ∃ space, x = .ok (stored x, space) := by
  obtain ⟨⟨db, space⟩, rfl⟩ := isOk_iff.mp h
  exact ⟨space, rfl⟩

def opened (legacyCurrent : String) : GovernanceDb := stored (opening legacyCurrent)

def binding (legacyCurrent : String) : Except String (GovernanceDb × Space) :=
  (opened legacyCurrent).bindBudget (lengths 20) {
    spaceId := lengths 0 0, budgetId := "budget", now := "2026-02-01T00:00:00.000Z", auth := ada }

def bound (legacyCurrent : String) : GovernanceDb := stored (binding legacyCurrent)

theorem opened_step (mayBind : GovernanceDb → String → Prop) {legacyCurrent : String}
    (h : isOk (opening legacyCurrent) = true) :
    Step mayBind (founding legacyCurrent) (opened legacyCurrent) := by
  obtain ⟨space, hrun⟩ := eq_ok_stored h
  exact .createSpace hrun

theorem bound_step {mayBind : GovernanceDb → String → Prop} {legacyCurrent : String}
    (hmay : mayBind (opened legacyCurrent) "budget") (h : isOk (binding legacyCurrent) = true) :
    Step mayBind (opened legacyCurrent) (bound legacyCurrent) := by
  obtain ⟨space, hrun⟩ := eq_ok_stored h
  exact .bindBudget hmay hrun

theorem bound_second_ok : HistoryOk (bound "second") := by
  refine @history_ok (founding "second") _ ⟨rfl, rfl, rfl⟩ ?_
  refine .tail (.single (opened_step _ (by decide +kernel))) (bound_step ?_ (by decide +kernel))
  intro current hcurrent
  have hsecond : (opened "second").legacyVersion "budget" = some "second" := by decide +kernel
  rw [hsecond] at hcurrent
  cases hcurrent
  exact Option.map_eq_some_iff.mp
    (by decide +kernel : ((opened "second").legacyRows "budget").getLast?.map (·.version) = _)

/-- The legacy policy saved first is the current one: it becomes version 2 of 3. -/
theorem import_out_of_order :
    ¬ ∀ start db, NoSpaces start →
      Relation.ReflTransGen (Step fun _ _ => True) start db → HistoryOk db := by
  intro h
  have hok := h (founding "first") (bound "first") ⟨rfl, rfl, rfl⟩
    (.tail (.single (opened_step _ (by decide +kernel))) (bound_step trivial (by decide +kernel)))
  obtain ⟨row, hrow, hupto⟩ := hok.current "" (by decide +kernel)
  have hversion : ((bound "first").getPolicy "").map (·.version) = some 2 := by decide +kernel
  rw [getPolicy_eq hrow, Option.map_some, Option.some.injEq] at hversion
  obtain ⟨p, hp, hs, hv⟩ : ∃ p ∈ (bound "first").policies, p.spaceId = "" ∧ p.version = 3 := by
    decide +kernel
  have := hupto p hp hs
  omega

-- the next version is taken
example : isOk ((bound "first").setPolicy (lengths 40) {
    spaceId := "", expectedVersion := some "2", policy := .object []
    now := "2026-02-01T00:00:00.000Z", auth := ada }) = false := by decide +kernel

end BalanceFrame.Governance
