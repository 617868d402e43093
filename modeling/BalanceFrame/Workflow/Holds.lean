import BalanceFrame.Workflow.Tables
import Mathlib.Data.List.Induction
import Mathlib.Data.List.Pairwise

/-!
# Economic identities are held once

Admission looks at the keys that earlier actions of the budget hold at its own time, and leaves out
those that are superseded, expired or invalidated, and of a verified one the keys that are not
permanent. `Yields` is what admission found, as a relation between an action and a later one, and it
lasts: an action that was left out can never be acquired again, because acquiring looks at
supersession and expiry too and the clock does not go back (`RowStep.yields`). So in every run no two
actions that share a permanent key are both written, and no two that share any key are both
executable (`identities_held_once`).
-/

namespace BalanceFrame.Workflow

open Library Option
open Governance
open WorkflowStore

variable {p q : ProposalRow} {key : String} {u : Int} {op : Op}

/-! ## The clock -/

/-- The instant of an operation. -/
def Op.instant (op : Op) : Option Int := op.now.bind timestampMillis

/-- The clock of a run does not go back. -/
def Clocked (ops : List Op) : Prop := (ops.filterMap Op.instant).Pairwise (· ≤ ·)

instance (ops : List Op) : Decidable (Clocked ops) := inferInstanceAs (Decidable (List.Pairwise ..))

/-- The operations of a run are over at a time. -/
def OverBy (ops : List Op) (t : Int) : Prop := ∀ u ∈ ops.filterMap Op.instant, u ≤ t

instance (ops : List Op) (t : Int) : Decidable (OverBy ops t) :=
  inferInstanceAs (Decidable (∀ u ∈ _, _))

/-! ## Shared keys -/

/-- A stored action holds a key of its plan. -/
def HasKey (p : ProposalRow) (key : String) : Prop :=
  ∃ plan keys, p.payload = .action plan ∧ holdKeys plan p.budgetId = .ok keys ∧ key ∈ keys

/-- Two actions of one budget share a key. -/
def Shares (p q : ProposalRow) (key : String) : Prop :=
  p.operation = .consequentialAction ∧ q.operation = .consequentialAction ∧
    p.budgetId = q.budgetId ∧ HasKey p key ∧ HasKey q key

/-- An action that is written or may have been. -/
def Written (p : ProposalRow) : Prop :=
  ∃ state, p.state = .action state ∧
    (state.phase = .writeIntent ∨ state.phase = .reviewRequired ∨ state.phase = .verified)

/-- An action that is neither superseded nor expired nor invalidated nor verified. -/
def Executable (t : Int) (p : ProposalRow) : Prop :=
  truthy p.supersededAt = none ∧ (timestampMillis p.expiresAt).any (t < ·) = true ∧
    ∃ state, p.state = .action state ∧ state.phase ≠ .invalidatedNoDispatch ∧
      state.phase ≠ .verified

/-- An action no longer holds a key. -/
def Releases (t : Int) (p : ProposalRow) (key : String) : Prop :=
  ∀ state, p.state = .action state → holdsAt p state.phase t = false ∨
    state.phase = .verified ∧ permanentIdentity key = false

/-- An action yields the keys it shares with a later one. -/
def Yields (t : Int) (p q : ProposalRow) : Prop := ∀ key, Shares p q key → Releases t p key

theorem shares_comm (h : Shares p q key) : Shares q p key :=
  ⟨h.2.1, h.1, h.2.2.1.symm, h.2.2.2.2, h.2.2.2.1⟩

theorem SameRow.hasKey (h : SameRow p q) : HasKey q key ↔ HasKey p key := by
  simp [HasKey, h.payload, h.budget]

theorem SameRow.shares {p' q' : ProposalRow} (hp : SameRow p p') (hq : SameRow q q')
    : Shares p' q' key ↔ Shares p q key := by
  simp [Shares, hp.operation, hq.operation, hp.budget, hq.budget, hp.hasKey, hq.hasKey]

/-! ## What an action that yields cannot do -/

theorem Releases.not_written {t : Int} (h : Releases t p key)
    (hpermanent : permanentIdentity key = true) : ¬ Written p := by
  rintro ⟨state, hstate, hphase⟩
  rcases h state hstate with hfree | ⟨-, hnot⟩
  · rcases hphase with hphase | hphase | hphase <;>
      simp [holdsAt, hphase, ActionPhase.acquired] at hfree
  · rw [hpermanent] at hnot
    cases hnot

theorem Releases.not_executable {t : Int} (h : Releases t p key) : ¬ Executable t p := by
  rintro ⟨hopen, hunexpired, state, hstate, hvalid, hunverified⟩
  rcases h state hstate with hfree | ⟨hverified, -⟩
  · simp [holdsAt, hvalid, hopen, hunexpired] at hfree
  · exact hunverified hverified

theorem Releases.mono {t : Int} (h : Releases t p key) (htu : t ≤ u) : Releases u p key := by
  intro state hstate
  refine (h state hstate).imp_left fun hfree => ?_
  revert hfree
  simp only [holdsAt, Bool.and_eq_false_iff, Bool.or_eq_false_iff, any_eq_false,
    decide_eq_false_iff_not, Int.not_lt]
  rintro (h | ⟨h, h' | h'⟩)
  · exact .inl h
  · exact .inr ⟨h, .inl h'⟩
  · exact .inr ⟨h, .inr fun e he => (h' e he).trans htu⟩

/-! ## What a write keeps -/

variable {host : Host} {time : Option String} {s s' : WorkflowStore} {t : Int}

/-- **A released key is not taken back** by a write at the time or later. -/
theorem RowStep.releases (h : RowStep time p q)
    (htime : ∀ u, time.bind timestampMillis = some u → t ≤ u)
    (hop : p.operation = .consequentialAction) (hfree : Releases t p key) : Releases t q key := by
  -- an acquired action releases nothing
  have hacquired {state : ActionState} (hstate : p.state = .action state)
      (hphase : state.phase.acquired = true) : Releases t q key := by
    rcases hfree state hstate with h | ⟨h, -⟩
    · cases hcase : state.phase <;> simp [holdsAt, hcase, ActionPhase.acquired] at h hphase
    · simp [h, ActionPhase.acquired] at hphase
  cases h with
  | same => exact hfree
  | other hnot => exact absurd hop hnot
  | withdraw hopen =>
    intro state hstate
    refine (hfree state hstate).imp_left fun h => ?_
    revert h
    simp only [holdsAt, hopen, Option.isNone_none, Bool.true_and, Bool.and_eq_false_iff,
      Bool.or_eq_false_iff]
    rintro (h | ⟨h, h'⟩)
    · exact .inl h
    · exact .inr ⟨h, .inr h'⟩
  | @toggle state phase hstate hfrom hto =>
    intro state' hstate'
    obtain rfl : { state with phase } = state' := by simpa [ProposalRow.moved] using hstate'
    rcases hfree state hstate with h | ⟨h, -⟩
    · left
      rcases hfrom with hfrom | hfrom <;> rcases hto with rfl | rfl <;>
        simpa [holdsAt, hfrom, ActionPhase.acquired, ProposalRow.moved] using h
    · rcases hfrom with hfrom | hfrom <;> rw [hfrom] at h <;> cases h
  | act hstate _ hmove =>
    cases hmove with
    | effects hphase => exact hacquired hstate hphase
    | review hphase => exact hacquired hstate hphase
  | finish hstate _ hfinish =>
    cases hfinish with
    | verified hphase => exact hacquired hstate hphase
    | invalidated hphase => exact hacquired hstate (by rw [hphase]; rfl)
  | acquire hstate hphase hnow hinstant hexpiry hopen hunsuperseded =>
    -- the key was held at the time, so it was not released
    have ht := htime _ (by rw [hnow]; exact hinstant)
    rcases hfree _ hstate with h | ⟨h, -⟩
    · rcases hphase with hphase | hphase <;>
        simp [holdsAt, hphase, hunsuperseded, hexpiry, ActionPhase.acquired] at h <;> omega
    · rcases hphase with hphase | hphase <;> rw [hphase] at h <;> cases h

/-- Every action yields what it shares with a later one. -/
def HeldOnce (t : Int) (s : WorkflowStore) : Prop := s.proposals.Pairwise (Yields t)

theorem HeldOnce.mono (h : HeldOnce t s) (htu : t ≤ u) : HeldOnce u s :=
  List.Pairwise.imp (fun hyields key hshares => (hyields key hshares).mono htu) h

theorem Change.heldOnce (hk : Keyed s) (hs : HeldOnce t s) (h : Change time s s')
    (htime : ∀ u, time.bind timestampMillis = some u → t ≤ u) : HeldOnce t s' := by
  obtain ⟨f, new, hrows, hstep, hother, hnew⟩ := h.rows hk.proposals
  rw [HeldOnce, hrows, List.pairwise_append, List.pairwise_map]
  refine ⟨List.Pairwise.imp_of_mem ?_ hs, ?_, ?_⟩
  · intro p q hp hq hyields key hshares
    have hsame := ((hstep p hp).sameRow.shares (hstep q hq).sameRow).mp hshares
    exact (hstep p hp).releases htime hsame.1 (hyields key hsame)
  · rcases hnew with rfl | ⟨row, rfl, -⟩
    · exact .nil
    · exact List.pairwise_singleton _ _
  · intro p _ q hq key hshares
    exact absurd hshares.2.1 (hother q hq)

/-! ## Admission -/

theorem checkHold_ok {requested : List String} {budgetId : String}
    (h : checkHold requested budgetId u p = .ok ()) (hkey : key ∈ requested)
    (hheld : HasKey p key) (hbudget : p.budgetId = budgetId) : Releases u p key := by
  intro state hstate
  obtain ⟨plan, keys, hpayload, hkeys, hmem⟩ := hheld
  simp only [checkHold, heldKeys, bind_ok, actionStateOf_eq_ok, reject_ok,
    List.any_eq_false, List.contains_iff_mem] at h
  obtain ⟨held, ⟨state', hstate', hheld⟩, hfree⟩ := h
  obtain rfl : state = state' := by simpa [hstate] using hstate'
  by_cases hholds : holdsAt p state.phase u = true
  · right
    rw [if_pos hholds, hpayload] at hheld
    simp only [Payload.plan?, orStop_some, ok_bind, ← hbudget, governed, hkeys,
      Except.ok.injEq] at hheld
    by_contra hnot
    refine hfree key ?_ hkey
    rw [← hheld, List.mem_filter]
    refine ⟨hmem, ?_⟩
    by_cases hverified : state.phase = .verified
    · have hpermanent : permanentIdentity key = true := by simpa [hverified] using hnot
      simp [hpermanent]
    · simp [hverified]
  · exact .inl (by simpa using hholds)

theorem assertAdmissionAvailable_ok {row : ProposalRow} {plan : Plan} {now : String}
    (hpayload : row.payload = .action plan)
    (h : s.assertAdmissionAvailable row.budgetId plan now = .ok ()) :
    ∃ u, timestampMillis now = some u ∧ ∀ p ∈ s.proposals, Yields u p row := by
  simp only [assertAdmissionAvailable, bind_ok, orStop_ok, governed_eq_ok] at h
  obtain ⟨u, hu, requested, hrequested, h⟩ := h
  refine ⟨u, hu, fun p hp key hshares => ?_⟩
  obtain ⟨hop, _, hbudget, hheld, plan', keys, hpayload', hkeys, hmem⟩ := hshares
  have hchecked : checkHold requested row.budgetId u p = .ok () := by
    refine forM_eq_ok.mp h p (List.mem_filter.mpr ⟨hp, ?_⟩)
    simp [hbudget, hop]
  rw [hpayload] at hpayload'
  cases hpayload'
  rw [hrequested] at hkeys
  cases hkeys
  exact checkHold_ok hchecked hmem hheld hbudget

theorem Direct.heldOnce (hs : HeldOnce t s) (h : Direct s op s')
    (htime : ∀ u, op.instant = some u → u = t) : HeldOnce t s' := by
  cases h with
  | @create input row hadmitted hnew havailable =>
    refine List.pairwise_append.mpr ⟨hs, List.pairwise_singleton _ _, fun p hp q hq => ?_⟩
    obtain rfl := List.mem_singleton.mp hq
    intro key hshares
    obtain ⟨plan, -, hpayload, -⟩ := hshares.2.2.2.2
    obtain ⟨u, hu, hyields⟩ := assertAdmissionAvailable_ok hpayload (havailable plan hpayload)
    obtain rfl := htime u hu
    exact hyields p hp key hshares
  | _ => exact hs

/-! ## Runs -/

theorem apply_heldOnce (hk : Keyed s) (hs : HeldOnce t s)
    (htime : ∀ u, op.instant = some u → u = t) (h : apply host s op = .ok s') :
    Keyed s' ∧ HeldOnce t s' :=
  apply_writes hk hs
    (fun _ _ hk hs hwrite => hwrite.heldOnce hk hs fun u hu => (htime u hu).ge)
    (fun _ hwrite => hwrite.heldOnce hs htime) h

theorem next_heldOnce (hk : Keyed s) (hs : HeldOnce t s)
    (htime : ∀ u, op.instant = some u → u = t) :
    Keyed (next host s op) ∧ HeldOnce t (next host s op) := by
  unfold next
  cases h : apply host s op with
  | error refusal => exact ⟨hk, hs⟩
  | ok s' => exact apply_heldOnce hk hs htime h

theorem run_heldOnce {governance : GovernanceDb}
    {policyHashes : List (String × String × String)} {ops : List Op} (hclock : Clocked ops)
    (hover : OverBy ops t) :
    Keyed (run host (emptyStore governance policyHashes) ops) ∧
      HeldOnce t (run host (emptyStore governance policyHashes) ops) := by
  induction ops using List.reverseRecOn generalizing t with
  | nil => exact ⟨emptyStore_keyed governance policyHashes, .nil⟩
  | append_singleton ops op ih =>
    unfold Clocked at hclock
    unfold OverBy at hover
    rw [List.filterMap_append] at hclock hover
    obtain ⟨hbefore, -, hlast⟩ := List.pairwise_append.mp hclock
    rw [run_append, run_cons, run_nil]
    cases hinstant : op.instant with
    | none =>
      obtain ⟨hk, hs⟩ := ih hbefore fun v hv => hover v (List.mem_append_left _ hv)
      exact next_heldOnce hk hs fun v hv => by rw [hinstant] at hv; cases hv
    | some u =>
      have hop : u ∈ [op].filterMap Op.instant := by simp [hinstant]
      -- the run so far is over by the instant of the operation, which is not after `t`
      obtain ⟨hk, hs⟩ := ih hbefore fun v hv => hlast v hv u hop
      have hsame : ∀ v, op.instant = some v → v = u := fun v hv =>
        some.inj (hv.symm.trans hinstant)
      obtain ⟨hk', hs'⟩ := next_heldOnce hk hs hsame
      exact ⟨hk', hs'.mono (hover u (List.mem_append_right _ hop))⟩

theorem Yields.exclude (h : Yields t p q) (hshares : Shares p q key) :
    (permanentIdentity key = true → ¬ (Written p ∧ Written q)) ∧
      ¬ (Executable t p ∧ Executable t q) :=
  ⟨fun hpermanent hboth => (h key hshares).not_written hpermanent hboth.1,
    fun hboth => (h key hshares).not_executable hboth.1⟩

/-- **Economic identities are held once**: after a run whose clock does not go back, no two actions
of a budget that share a permanent key are both written, and at no time since are two that share any
key both executable. -/
theorem identities_held_once {governance : GovernanceDb}
    {policyHashes : List (String × String × String)} {ops : List Op} (hclock : Clocked ops)
    (hover : OverBy ops t) {p q : ProposalRow}
    (hp : p ∈ (run host (emptyStore governance policyHashes) ops).proposals)
    (hq : q ∈ (run host (emptyStore governance policyHashes) ops).proposals) (hne : p.id ≠ q.id)
    {key : String} (hshares : Shares p q key) :
    (permanentIdentity key = true → ¬ (Written p ∧ Written q)) ∧
      ¬ (Executable t p ∧ Executable t q) := by
  have hs : HeldOnce t (run host (emptyStore governance policyHashes) ops) :=
    (run_heldOnce hclock hover).2
  -- one of the two is stored before the other
  have hordered : Yields t p q ∨ Yields t q p := by
    have : Std.Symm fun p q => Yields t p q ∨ Yields t q p := ⟨fun _ _ h => h.symm⟩
    have hpairs := List.Pairwise.imp (S := fun p q => Yields t p q ∨ Yields t q p) .inl hs
    exact hpairs.forall hp hq fun heq => hne (heq ▸ rfl)
  rcases hordered with h | h
  · exact h.exclude hshares
  · obtain ⟨hwritten, hexecutable⟩ := h.exclude (shares_comm hshares)
    exact ⟨fun hpermanent hboth => hwritten hpermanent hboth.symm,
      fun hboth => hexecutable hboth.symm⟩

def laterPlan : Plan :=
  { walletPlan with expiresAt := "2026-02-03T00:00:00.000Z", idempotencyKey := "later" }

def createLater : CreateProposalInput :=
  { createWallet with
    payload := .action laterPlan
    expiresAt := "2026-02-03T00:00:00.000Z"
    id := "later"
    now := "2026-02-01T00:00:02.000Z" }

def walletTwice : List Op :=
  [.createProposal createWallet, .supersedeProposal "proposal" "2026-02-01T00:00:01.000Z",
    .createProposal createLater]

theorem walletTwice_held_once :
    ∃ p ∈ (run walletHost walletStore walletTwice).proposals,
      ∃ q ∈ (run walletHost walletStore walletTwice).proposals, Shares p q "wallet:wallet" ∧
        ¬ (Written p ∧ Written q) ∧ ¬ (Executable 1769904002000 p ∧ Executable 1769904002000 q) := by
  have hstored : ∃ p ∈ (run walletHost walletStore walletTwice).proposals,
      ∃ q ∈ (run walletHost walletStore walletTwice).proposals, p.id ≠ q.id ∧
        (p.operation = .consequentialAction ∧ p.budgetId = "budget" ∧
          p.payload = .action walletPlan) ∧
        q.operation = .consequentialAction ∧ q.budgetId = "budget" ∧
          q.payload = .action laterPlan := by
    decide +kernel
  obtain ⟨p, hp, q, hq, hne, ⟨hop, hbudget, hpayload⟩, hop', hbudget', hpayload'⟩ := hstored
  have hshares : Shares p q "wallet:wallet" :=
    ⟨hop, hop', hbudget.trans hbudget'.symm,
      ⟨walletPlan, ["wallet:wallet"], hpayload, by rw [hbudget]; rfl, List.mem_singleton_self _⟩,
      ⟨laterPlan, ["wallet:wallet"], hpayload', by rw [hbudget']; rfl, List.mem_singleton_self _⟩⟩
  obtain ⟨hwritten, hexecutable⟩ := @identities_held_once walletHost 1769904002000 walletHome
    [("budget", "1", "policy")] walletTwice (by decide +kernel) (by decide +kernel) p q hp hq hne
    _ hshares
  exact ⟨p, hp, q, hq, hshares, hwritten (by decide +kernel), hexecutable⟩

end BalanceFrame.Workflow
