import BalanceFrame.Holds.Sound
import BalanceFrame.Library.Lists

/-!
# The lifecycle of a session completion

A completion's phase, its claim and its write are moved by different calls. `Holding` is what the
phase says about the claim, `Moves` where a phase may go, and `Moved` one move of one completion:
`deed_completions` says that a deed leaves the completions alone, moves one, or admits one.
`Lifecycle` is the invariant that follows (`completion_lifecycle`), as long as an admission names
the session of its payload (`SameSession`): the store looks for an open completion of the one and
stores the other (`second_open_completion`).
-/

namespace BalanceFrame.Holds

open Library
open Liquidity (LiquidityClaimBundle LiquidityClaimEffect LiquidityClaimState)
open Workflow (Refusal Guarded)

/-- **What a phase says about the claim.** -/
def Holding : CompletionPhase → LiquidityClaimBundle → Prop
  | .proposed, b | .approved, b => (b.state = .active ∨ b.state = .expired) ∧ b.initiated = false
  | .writeIntent, b | .reviewRequired, b => b.state = .initiated ∧ b.initiated = true
  | .verified, b => b.state = .settled
  | .closed, b => (b.state = .cancelled ∨ b.state = .expired) ∧ b.initiated = false

/-- How far a completion is: pending, written, or done. -/
def CompletionPhase.stage : CompletionPhase → Nat
  | .proposed | .approved => 0
  | .writeIntent | .reviewRequired => 1
  | .verified | .closed => 2

/-- **Where a phase may go**: what is done stays, and nothing becomes pending again. -/
def Moves (phase phase' : CompletionPhase) : Prop :=
  phase' = phase ∨ phase.stage < 2 ∧ phase.stage ≤ phase'.stage

theorem Moves.trans {a b c : CompletionPhase} (h : Moves a b) (h' : Moves b c) : Moves a c := by
  obtain rfl | ⟨hlt, hle⟩ := h
  · exact h'
  · obtain rfl | ⟨-, hle'⟩ := h'
    · exact .inr ⟨hlt, hle⟩
    · exact .inr ⟨hlt, hle.trans hle'⟩

theorem Holding.lapses {phase : CompletionPhase} {c c' : ClaimRow} (h : Holding phase c.bundle)
    (hl : Lapses c c') : Holding phase c'.bundle := by
  obtain rfl | ⟨hstate, hinit, rfl⟩ := hl
  · exact h
  · cases phase <;> simp [Holding, hstate, hinit] at h ⊢

/-- The claim of a completion. -/
def Store.holdOf (s : Store) (p : Completion) : Option ClaimRow :=
  s.ownedClaim p.budgetId .sessionCompletion p.id

/-- **One move** of a completion into a phase. -/
structure Moved (p : Completion) (phase : CompletionPhase) (s s' : Store) : Prop where
  completions : ∃ f : Completion → Completion,
    (∀ q, (f q).id = q.id ∧ (f q).budgetId = q.budgetId ∧ (f q).payload = q.payload ∧
      (f q).phase = phase) ∧
    s'.completions = s.completions.map fun q => if q.id = p.id then f q else q
  others : KeptBut .sessionCompletion p.budgetId p.id s s'
  own : ∀ c, s.holdOf p = some c → Holding p.phase c.bundle →
    ∃ c', s'.holdOf p = some c' ∧ Holding phase c'.bundle

section Moves

variable {host : Host} {supply : Supply} {budgetId now : String} {s t u s' : Store}
  {p : Completion} {phase : CompletionPhase} {outcome : Option String}

theorem Kept.holding {c : ClaimRow} (h : Kept .sessionCompletion s s') (hc : s.holdOf p = some c)
    (hh : Holding phase c.bundle) : ∃ c', s'.holdOf p = some c' ∧ Holding phase c'.bundle := by
  obtain ⟨f, hf, hl⟩ := h p.budgetId p.id
  refine ⟨f c, ?_, hh.lapses (hl c)⟩
  rw [Store.holdOf, hf, ← Store.holdOf, hc]
  rfl

theorem Moved.update (hcompletions : t.completions = s.completions)
    (hothers : KeptBut .sessionCompletion p.budgetId p.id s t)
    (hown : ∀ c, s.holdOf p = some c → Holding p.phase c.bundle →
      ∃ c', t.holdOf p = some c' ∧ Holding phase c'.bundle)
    (h : t.updateCompletion p phase outcome now = .ok s') : Moved p phase s s' := by
  have hs' := Store.updateCompletion_ok h
  have hkept : Kept .sessionCompletion t s' := by
    rw [hs']
    exact .of_claims rfl
  refine ⟨⟨fun q => { q with
      phase := phase
      outcome := outcome
      version := q.version + 1
      supersededAt := supersededBy outcome now q.supersededAt }, fun q => ⟨rfl, rfl, rfl, rfl⟩, ?_⟩,
    hothers.trans hkept.but, fun c hc hh => ?_⟩
  · rw [hs', Store.setCompletion, hcompletions]
  · obtain ⟨c', hc', hh'⟩ := hown c hc hh
    exact hkept.holding hc' hh'

theorem changed_hold {state : LiquidityClaimState} (h : s.changeCompletionClaim p state = .ok t) :
    t.completions = s.completions ∧ KeptBut .sessionCompletion p.budgetId p.id s t ∧
      ∃ c, s.holdOf p = some c ∧
      ∃ c', t.holdOf p = some c' ∧ (c.bundle.state = state ∧ c' = c ∨
        c.bundle.state ≠ state ∧ c'.bundle = inState c.bundle state) := by
  obtain ⟨c, hc, ⟨hstate, rfl⟩ | ⟨hstate, hp⟩⟩ := Store.changeCompletionClaim_ok h
  · exact ⟨rfl, (Kept.of_claims rfl).but, c, hc, c, hc, .inl ⟨hstate, rfl⟩⟩
  · obtain ⟨claims, hframe⟩ := Store.persistClaim_frame hp
    obtain ⟨d, hd, hb⟩ := Store.ownedClaim_persist_self hp
    exact ⟨by rw [hframe]; rfl, .persist hp, c, hc, d, hd, .inr ⟨hstate, hb⟩⟩

theorem closeCompletion_moved {outcome : String}
    (hpending : p.phase = .proposed ∨ p.phase = .approved)
    (h : s.closeCompletion p outcome now = .ok s') : Moved p .closed s s' := by
  unfold Store.closeCompletion at h
  dsimp only at h
  rw [if_neg (by obtain h | h := hpending <;> simp [h])] at h
  obtain ⟨t, ht, h⟩ := bind_ok.1 h
  obtain ⟨hcompletions, hbut, c, hc, c', hc', hchange⟩ := changed_hold ht
  have hclosed : closedState outcome = .cancelled ∨ closedState outcome = .expired := by
    unfold closedState
    split
    · exact .inr rfl
    · exact .inl rfl
  have hsupersede : Kept .sessionCompletion s (s.supersedeApprovals p.id) := .of_claims rfl
  refine .update hcompletions (hsupersede.but.trans hbut) (fun d hd hh => ⟨c', hc', ?_⟩) h
  obtain rfl : d = c := Option.some.inj (hd.symm.trans hc)
  have hinit : d.bundle.initiated = false := by
    obtain hp | hp := hpending <;> rw [hp] at hh <;> exact hh.2
  obtain ⟨hstate, rfl⟩ | ⟨-, hb⟩ := hchange
  · exact ⟨hstate ▸ hclosed, hinit⟩
  · rw [hb]
    refine ⟨hclosed, ?_⟩
    obtain hc | hc := hclosed <;> simp [inState, hc, hinit]

theorem updated_moved (hh : ∀ b, Holding p.phase b → Holding phase b)
    (h : s.updateCompletion p phase outcome now = .ok s') : Moved p phase s s' :=
  .update rfl (Kept.of_claims rfl).but (fun c hc hhold => ⟨c, hc, hh _ hhold⟩) h

theorem acquire_moved {set : ClaimSet} {writes : List WriteRow} (happroved : p.phase = .approved)
    (hclaimed : s.changeCompletionClaim p .initiated = .ok t)
    (hread : t.claimSet host budgetId now = .ok (set, u))
    (h : ({ u with writes } : Store).updateCompletion p .writeIntent outcome now = .ok s') :
    Moved p .writeIntent s s' := by
  obtain ⟨hcompletions, hbut, c, hc, c', hc', hchange⟩ := changed_hold hclaimed
  have hn : Neutral t u := .read hread
  have hwrites : Kept .sessionCompletion u { u with writes } := .of_claims rfl
  refine .update (t := { u with writes }) (hn.completions.trans hcompletions)
    (hbut.trans (hn.completionHolds.trans hwrites).but) (fun d hd hh => ?_) h
  obtain rfl : d = c := Option.some.inj (hd.symm.trans hc)
  refine (hn.completionHolds.trans hwrites).holding hc' ?_
  rw [happroved] at hh
  obtain ⟨hstate, rfl⟩ | ⟨-, hb⟩ := hchange
  · obtain ⟨ha | ha, -⟩ := hh <;> rw [hstate] at ha <;> cases ha
  · rw [hb]
    exact ⟨rfl, rfl⟩

theorem verify_moved {evidenceId : String} (h : s.verifyCompletion p evidenceId now = .ok s') :
    Moved p .verified s s' := by
  obtain ⟨t, ht, h⟩ := bind_ok.1 h
  obtain ⟨u, hu, h⟩ := bind_ok.1 h
  obtain ⟨w, hw, h⟩ := bind_ok.1 h
  have hinsert := insertEvidence_neutral ht
  have hconsume := consumeClaims_neutral hw
  have hwrite : Kept .sessionCompletion w (w.setWrite p .verified) := .of_claims rfl
  obtain ⟨hcompletions, hbut, c, hc, c', hc', hchange⟩ := changed_hold hu
  refine .update (t := w.setWrite p .verified)
    (hconsume.completions.trans (hcompletions.trans hinsert.completions))
    (hinsert.completionHolds.but.trans (hbut.trans (hconsume.completionHolds.trans hwrite).but))
    (fun d hd hh => (hconsume.completionHolds.trans hwrite).holding hc' ?_) h
  obtain ⟨hstate, rfl⟩ | ⟨-, hb⟩ := hchange
  · exact hstate
  · rw [hb]
    rfl

theorem release_moved (h : s.releaseWrite p now = .ok s') : Moved p .closed s s' := by
  obtain ⟨b, -, h⟩ := bind_ok.1 h
  obtain ⟨t, ht, h⟩ := bind_ok.1 h
  obtain ⟨claims, hframe⟩ := Store.persistClaim_frame ht
  obtain ⟨c', hc', hb⟩ := Store.ownedClaim_persist_self ht
  have hrest : Kept .sessionCompletion t ((t.supersedeApprovals p.id).setWrite p .reviewRequired) :=
    .of_claims rfl
  refine .update ?_ ((KeptBut.persist ht).trans hrest.but) (fun d hd hh => hrest.holding hc' ?_) h
  · rw [hframe]
    rfl
  · rw [hb]
    exact ⟨.inl rfl, rfl⟩

/-- An admission: the row is new, its claim active, and the session has no open completion. -/
structure Admitted (p : Completion) (s s' : Store) : Prop where
  completions : s'.completions = s.completions ++ [p]
  phase : p.phase = .proposed
  unused : ∀ q ∈ s.completions, q.id ≠ p.id
  single : ∀ q ∈ s.completions, q.budgetId = p.budgetId →
    q.payload.sessionId = p.payload.sessionId → q.phase = .closed
  others : KeptBut .sessionCompletion p.budgetId p.id s s'
  own : ∃ c, s'.holdOf p = some c ∧ Holding .proposed c.bundle

/-- The supply of admissions that name the session of their payload. -/
def sameSession : Supply := ⟨fun _ _ _ => True, fun _ _ => True, (· = ·), fun _ => True⟩

theorem deed_completions (h : Deed host sameSession budgetId s s') :
    CompletionsKept s s' ∨
      (∃ p phase, p ∈ s.completions ∧ p.phase ≠ .closed ∧ Moves p.phase phase ∧
        Moved p phase s s') ∨
      ∃ p, Admitted p s s' := by
  cases h with
  | neutral edit same => exact .inl same.completionsKept
  | admitCompletion supplied session budget phase fresh fits unused single read persisted =>
    rename_i t p claim now checked set
    subst budget
    obtain rfl : checked = p.payload.sessionId := session
    obtain ⟨claims, hframe⟩ := Store.persistClaim_frame persisted
    obtain ⟨c, hc, hb⟩ := Store.ownedClaim_persist_self persisted
    have hread := Neutral.read read
    have happend : Kept .sessionCompletion s { s with completions := s.completions ++ [p] } :=
      .of_claims rfl
    refine .inr (.inr ⟨p, ?_, phase, unused, single, ?_, c, hc, ?_⟩)
    · rw [hframe, Store.bump_completions]
      exact hread.completions
    · exact (happend.trans hread.completionHolds).but.trans (.persist persisted)
    · rw [hb]
      exact ⟨.inl fresh.1, fresh.2⟩
  | closeCompletion current budget pending closed =>
    refine .inr (.inl ⟨_, .closed, current, ?_, ?_, closeCompletion_moved pending closed⟩)
    · obtain h | h := pending <;> simp [h]
    · obtain h | h := pending <;> exact .inr (by simp [h, CompletionPhase.stage])
  | approveCompletion current pending next updated =>
    refine .inr (.inl ⟨_, _, current, ?_, ?_, updated_moved (fun b hb => ?_) updated⟩)
    · obtain h | h := pending <;> simp [h]
    · obtain h | h := pending <;> exact .inr (by simp [h, CompletionPhase.stage])
    · obtain h | h := pending <;> obtain rfl | rfl := next <;> rw [h] at hb <;> exact hb
  | acquire current budget approved claimed read updated =>
    refine .inr (.inl ⟨_, .writeIntent, current, by simp [approved], .inr ?_,
      acquire_moved approved claimed read updated⟩)
    simp [approved, CompletionPhase.stage]
  | verify current budget awaiting verified =>
    refine .inr (.inl ⟨_, .verified, current, ?_, ?_, verify_moved verified⟩)
    · obtain h | h := awaiting <;> simp [h]
    · obtain h | h := awaiting <;> exact .inr (by simp [h, CompletionPhase.stage])
  | release current budget intent released =>
    refine .inr (.inl ⟨_, .closed, current, by simp [intent], .inr ?_, release_moved released⟩)
    simp [intent, CompletionPhase.stage]
  | review current awaiting updated =>
    refine .inr (.inl ⟨_, .reviewRequired, current, ?_, ?_, updated_moved (fun b hb => ?_) updated⟩)
    · obtain h | h := awaiting <;> simp [h]
    · obtain h | h := awaiting <;> exact .inr (by simp [h, CompletionPhase.stage])
    · obtain h | h := awaiting <;> rw [h] at hb <;> exact hb
  | relink current verified updated =>
    refine .inr (.inl ⟨_, .verified, current, by simp [verified], .inl verified.symm,
      updated_moved (fun b hb => ?_) updated⟩)
    rwa [verified] at hb
  | admitTransfer supplied id budget phase fresh unused persisted =>
    refine .inl (.trans ?_ (.persist (by simp) persisted))
    exact .of_claims rfl rfl
  | closeTransfer current budget unconfirmed closed =>
    exact .inl (closeTransfer_completions closed)
  | markTransfer current moves updated => exact .inl (updateTransfer_completions updated)
  | initiate current budget approved reported claimed updated =>
    exact .inl ((changeClaim_completions claimed).trans (updateTransfer_completions updated))
  | settle current budget initiated accepted remaining updated settled =>
    exact .inl ((updateTransfer_completions updated).trans (settleClaim_completions settled))
  | evidence budget current added =>
    obtain ⟨_, added⟩ := rest_ok added
    cases added
    refine .inl (.of_claims ?_ ?_) <;> split <;> rfl

end Moves

/-! ## The invariant -/

/-- **The invariant**: every completion has its claim in the state its phase asks for, and a session
has at most one completion that is not closed. -/
structure Lifecycle (s : Store) : Prop where
  held : ∀ p ∈ s.completions, ∃ c, s.holdOf p = some c ∧ Holding p.phase c.bundle
  single : ∀ p ∈ s.completions, ∀ q ∈ s.completions, p.budgetId = q.budgetId →
    p.payload.sessionId = q.payload.sessionId → p.phase ≠ .closed → q.phase ≠ .closed → p = q

/-- Every completion stays, with a phase it may go to. -/
def PhasesMove (s s' : Store) : Prop :=
  ∀ p ∈ s.completions, ∃ p' ∈ s'.completions, p'.id = p.id ∧ Moves p.phase p'.phase

/-- **The condition on a step**: an admission names the session of its payload. -/
def SameSession (_ : Store) (step : Step) : Prop :=
  ∀ input, step.op = .admitSessionCompletion input → input.sessionId = input.payload.sessionId

section Invariant

variable {host : Host} {budgetId now : String} {s t s' : Store} {p : Completion}
  {phase : CompletionPhase}

theorem PhasesMove.refl (s : Store) : PhasesMove s s := fun p hp => ⟨p, hp, rfl, .inl rfl⟩

theorem PhasesMove.trans (h : PhasesMove s t) (h' : PhasesMove t s') : PhasesMove s s' := by
  intro p hp
  obtain ⟨p', hp', hid, hm⟩ := h p hp
  obtain ⟨p'', hp'', hid', hm'⟩ := h' p' hp'
  exact ⟨p'', hp'', hid'.trans hid, hm.trans hm'⟩

theorem Rows.completion_eq (hr : Rows s) {p q : Completion} (hp : p ∈ s.completions)
    (hq : q ∈ s.completions) (hid : p.id = q.id) : p = q :=
  List.inj_on_of_nodup_map hr.completionIds hp hq hid

theorem lifecycle_kept (hl : Lifecycle s) (h : CompletionsKept s s') :
    Lifecycle s' ∧ PhasesMove s s' := by
  obtain ⟨hcompletions, hkept⟩ := h
  refine ⟨⟨fun p hp => ?_, ?_⟩, fun p hp => ⟨p, hcompletions ▸ hp, rfl, .inl rfl⟩⟩
  · obtain ⟨c, hc, hh⟩ := hl.held p (hcompletions ▸ hp)
    exact hkept.holding hc hh
  · rw [hcompletions]
    exact hl.single

theorem lifecycle_moved (hr : Rows s) (hl : Lifecycle s) (hp : p ∈ s.completions)
    (hopen : p.phase ≠ .closed) (hmoves : Moves p.phase phase) (h : Moved p phase s s') :
    Lifecycle s' ∧ PhasesMove s s' := by
  obtain ⟨⟨f, hf, hcompletions⟩, hothers, hown⟩ := h
  have hself : ∀ q ∈ s.completions, q.id = p.id → q = p := fun q hq => hr.completion_eq hq hp
  refine ⟨⟨fun q' hq' => ?_, fun q' hq' r' hr' hb hsession hopenq hopenr => ?_⟩, fun q hq => ?_⟩
  · rw [hcompletions] at hq'
    obtain ⟨q, hq, rfl⟩ := List.mem_map.1 hq'
    obtain ⟨c, hc, hh⟩ := hl.held q hq
    split
    · next hid =>
      obtain rfl := hself q hq hid
      obtain ⟨hid', hb', -, hphase⟩ := hf q
      rw [Store.holdOf, hid', hb', hphase]
      exact hown c hc hh
    · next hid =>
      obtain ⟨g, hg, hlapses⟩ := hothers q.budgetId q.id fun ⟨_, he⟩ => hid he
      refine ⟨g c, ?_, hh.lapses (hlapses c)⟩
      rw [Store.holdOf, hg, ← Store.holdOf, hc]
      rfl
  · rw [hcompletions] at hq' hr'
    obtain ⟨q, hq, rfl⟩ := List.mem_map.1 hq'
    obtain ⟨r, hmemr, rfl⟩ := List.mem_map.1 hr'
    have hread : ∀ q ∈ s.completions, (if q.id = p.id then f q else q).budgetId = q.budgetId ∧
        (if q.id = p.id then f q else q).payload = q.payload ∧
          ((if q.id = p.id then f q else q).phase ≠ .closed → q.phase ≠ .closed) := by
      intro q hq
      split
      · next hid =>
        obtain rfl := hself q hq hid
        exact ⟨(hf q).2.1, (hf q).2.2.1, fun _ => hopen⟩
      · exact ⟨rfl, rfl, id⟩
    obtain ⟨hqb, hqp, hqo⟩ := hread q hq
    obtain ⟨hrb, hrp, hro⟩ := hread r hmemr
    rw [hqb, hrb] at hb
    rw [hqp, hrp] at hsession
    rw [hl.single q hq r hmemr hb hsession (hqo hopenq) (hro hopenr)]
  · refine ⟨_, hcompletions ▸ List.mem_map_of_mem hq, ?_⟩
    split
    · next hid =>
      obtain rfl := hself q hq hid
      exact ⟨(hf q).1, (hf q).2.2.2 ▸ hmoves⟩
    · exact ⟨rfl, .inl rfl⟩

theorem lifecycle_admitted (hl : Lifecycle s) (h : Admitted p s s') :
    Lifecycle s' ∧ PhasesMove s s' := by
  refine ⟨⟨fun q hq => ?_, fun q hq r hr hb hsession hopenq hopenr => ?_⟩, fun q hq =>
    ⟨q, h.completions ▸ List.mem_append_left _ hq, rfl, .inl rfl⟩⟩
  · rw [h.completions, List.mem_append, List.mem_singleton] at hq
    obtain hq | rfl := hq
    · obtain ⟨c, hc, hh⟩ := hl.held q hq
      obtain ⟨g, hg, hlapses⟩ := h.others q.budgetId q.id fun ⟨_, he⟩ => h.unused q hq he
      refine ⟨g c, ?_, hh.lapses (hlapses c)⟩
      rw [Store.holdOf, hg, ← Store.holdOf, hc]
      rfl
    · rw [h.phase]
      exact h.own
  · rw [h.completions, List.mem_append, List.mem_singleton] at hq hr
    obtain hq | rfl := hq
    · obtain hr | rfl := hr
      · exact hl.single q hq r hr hb hsession hopenq hopenr
      · exact absurd (h.single q hq hb hsession) hopenq
    · obtain hr | rfl := hr
      · exact absurd (h.single r hr hb.symm hsession.symm) hopenr
      · rfl

theorem lifecycle_deed (hr : Rows s) (hl : Lifecycle s) (h : Deed host sameSession budgetId s s') :
    Lifecycle s' ∧ PhasesMove s s' := by
  obtain h | ⟨p, phase, hp, hopen, hmoves, h⟩ | ⟨p, h⟩ := deed_completions h
  · exact lifecycle_kept hl h
  · exact lifecycle_moved hr hl hp hopen hmoves h
  · exact lifecycle_admitted hl h

theorem lifecycle_deeds (hs : Sound s) (hl : Lifecycle s)
    (h : Deeds host sameSession budgetId s s') : Lifecycle s' ∧ PhasesMove s s' := by
  refine (h.keep (P := fun u => Sound u ∧ Lifecycle u ∧ PhasesMove s u) ⟨hs, hl, .refl s⟩
    fun u u' hu hdeed => ?_).2
  obtain ⟨hlu, hmoves⟩ := lifecycle_deed hu.1.rows hu.2.1 hdeed
  exact ⟨hu.1.deeds (.single hdeed), hlu, hu.2.2.trans hmoves⟩

theorem supplies_sameSession {step : Step} (hC : SameSession s step) :
    Supplies host sameSession step := by
  obtain ⟨call, op⟩ := step
  cases op <;> first | exact trivial | skip
  case saveSpendSession input => exact fun _ _ => trivial
  case saveProspectiveClaim input => exact fun _ _ _ _ => trivial
  case admitSessionCompletion input => exact ⟨hC input rfl, fun _ _ _ _ => trivial⟩
  case verifyTransferSettlement input settlement => exact fun _ _ _ _ _ => trivial

theorem lifecycle_apply {step : Step} {answer : Answer} (hs : Sound s) (hl : Lifecycle s)
    (hC : SameSession s step) (h : apply host s step = .ok (answer, s')) :
    Lifecycle s' ∧ PhasesMove s s' := by
  by_cases hop : ∃ policy expectedVersion, step.op = .savePolicy policy expectedVersion
  · obtain ⟨call, op⟩ := step
    obtain ⟨policy, expectedVersion, rfl⟩ := hop
    obtain ⟨hlp, hmoves⟩ := @lifecycle_kept s (withPolicy s call.budgetId policy) hl
      (.of_claims rfl rfl)
    obtain ⟨hl', hmoves'⟩ := lifecycle_deeds (hs.withPolicy policy) hlp
      (@savePolicy_deeds host sameSession _ _ _ policy expectedVersion hs.distinct
        (quietly_ok h).1).2
    exact ⟨hl', hmoves.trans hmoves'⟩
  · exact lifecycle_deeds hs hl (apply_deeds hs.distinct (supplies_sameSession hC)
      (fun policy version he => hop ⟨policy, version, he⟩) h)

theorem lifecycle_run {steps : List Step} (hs : Sound s) (hl : Lifecycle s)
    (hC : Throughout host SameSession s steps) :
    Sound (run host s steps) ∧ Lifecycle (run host s steps) ∧ PhasesMove s (run host s steps) :=
  run_inv host (P := fun u => Sound u ∧ Lifecycle u ∧ PhasesMove s u) ⟨hs, hl, .refl s⟩ hC
    fun _ _ _ _ hu hstep happly =>
      let h := lifecycle_apply hu.1 hu.2.1 hstep happly
      ⟨hu.1.apply happly, h.1, hu.2.2.trans h.2⟩

theorem lifecycle_empty : Lifecycle {} where
  held := by simp
  single := by simp

/-! ## The claim in the claim set -/

theorem Rows.metadataOf_completion (hr : Rows s) {c : ClaimRow} (hc : c ∈ s.claims)
    (hkind : c.ownerKind = .sessionCompletion) : s.metadataOf c = none := by
  refine List.find?_eq_none.2 fun m hm he => ?_
  simp only [Bool.and_eq_true, beq_iff_eq] at he
  obtain ⟨d, hd, hb, hid, hprospective⟩ := hr.described m hm
  have hkey : (d.budgetId, d.id) = (c.budgetId, c.id) := by
    rw [hb, hid, he.1, he.2]
  obtain rfl := List.inj_on_of_nodup_map hr.ids hd hc hkey
  rw [hkind] at hprospective
  cases hprospective

/-- **An initiated claim of a completion is in every claim set.** -/
theorem initiated_mem_claimSet (hr : Rows s) {c : ClaimRow} {set : ClaimSet} (hc : c ∈ s.claims)
    (hb : c.budgetId = budgetId) (hkind : c.ownerKind = .sessionCompletion)
    (hstate : c.bundle.state = .initiated)
    (h : s.claimSet host budgetId now = .ok (set, t)) : c.bundle ∈ set.bundles := by
  obtain ⟨covered, -, hbundles⟩ := bind_ok.1 (Store.claimSet_ok h).1
  obtain ⟨shown, hshown, hbundles⟩ := bind_ok.1 hbundles
  have hset := Except.ok.inj hbundles
  have hmem : c ∈ (s.budgetRows budgetId).filter fun c => !lapsed host now c.bundle := by
    simp [Store.budgetRows, hc, hb, lapsed, hstate]
  obtain ⟨o, ho, hshow⟩ := exists_of_forall₂ (mapM_eq_ok.1 hshown).flip hmem
  have hself : s.shown host covered budgetId now c = .ok (some c.bundle) := by
    simp [Store.shown, Store.informational, hr.metadataOf_completion hc hkind, holds, hstate]
  obtain rfl := Except.ok.inj (hself.symm.trans hshow)
  rw [← hset]
  exact List.mem_filterMap.2 ⟨_, ho, rfl⟩

/-! ## The write -/

theorem begin_acquires {call : Call} {input : CompletionCommand} {intentId : String}
    (h : s.beginSessionCompletionWrite host call input intentId = .ok (.write true, s')) :
    ∃ p ∈ s.completions, p.id = input.proposalId ∧ p.phase = .approved ∧
      ∃ p' ∈ s'.completions, p'.id = p.id ∧ p'.phase = .writeIntent := by
  obtain ⟨candidate, -, h⟩ := bind_ok.1 h
  obtain ⟨_, h⟩ := rest_ok h
  obtain ⟨_, h⟩ := rest_ok h
  obtain ⟨_, h⟩ := rest_ok h
  obtain ⟨p, hp, h⟩ := bind_ok.1 h
  obtain ⟨replayed, -, h⟩ := bind_ok.1 h
  obtain ⟨hmem, hid, hb⟩ := completionCommand_ok hp
  split at h
  · cases h
  · obtain ⟨_, h⟩ := rest_ok h
    obtain ⟨_, hphase, h⟩ := bind_ok.1 h
    obtain ⟨_, h⟩ := rest_ok h
    obtain ⟨_, h⟩ := rest_ok h
    obtain ⟨_, h⟩ := rest_ok h
    obtain ⟨_, h⟩ := rest_ok h
    obtain ⟨_, h⟩ := rest_ok h
    have happroved : p.phase = .approved := by simpa using hphase
    split at h
    · obtain ⟨_, h⟩ := rest_ok h
      cases h
    · next t ht =>
      obtain ⟨u, hu, h⟩ := bind_ok.1 h
      simp only [Except.ok.injEq, Prod.mk.injEq] at h
      obtain ⟨-, rfl⟩ := h
      obtain ⟨set, hset, -⟩ := validate_ok ht
      have hpt : p ∈ t.completions := (claimSet_proposals hset).1 ▸ hmem
      obtain ⟨_, hu⟩ := rest_ok hu
      obtain ⟨v, hv, hu⟩ := bind_ok.1 hu
      obtain ⟨⟨set', w⟩, hw, hu⟩ := bind_ok.1 hu
      obtain ⟨x, hx, hu⟩ := bind_ok.1 hu
      obtain ⟨_, hu⟩ := rest_ok hu
      have hcompletions : w.completions = t.completions :=
        (claimSet_proposals hw).1.trans (changed_hold hv).1
      refine ⟨p, hmem, hid, happroved, ?_⟩
      cases hu
      rw [Store.updateCompletion_ok hx]
      refine ⟨_, List.mem_map_of_mem (hcompletions ▸ hpt), ?_⟩
      rw [if_pos rfl]
      exact ⟨rfl, rfl⟩

end Invariant

/-! ## Runs -/

/-- **The lifecycle of session completions**: in every run whose admissions name the session of
their payload, a session has at most one completion that is not closed; every completion has its
claim in the state its phase asks for, and while its write is open the claim is in every claim set;
what is verified or closed stays so; and a write is acquired at most once. -/
theorem completion_lifecycle (host : Host) (steps : List Step)
    (hC : Throughout host SameSession {} steps) :
    (∀ p ∈ (run host {} steps).completions, ∀ q ∈ (run host {} steps).completions,
      p.budgetId = q.budgetId → p.payload.sessionId = q.payload.sessionId →
        p.phase ≠ .closed → q.phase ≠ .closed → p = q) ∧
    (∀ p ∈ (run host {} steps).completions, ∃ c, (run host {} steps).holdOf p = some c ∧
      Holding p.phase c.bundle ∧
        (p.phase = .writeIntent ∨ p.phase = .reviewRequired → holds c.bundle = true ∧
          ∀ now set t, (run host {} steps).claimSet host p.budgetId now = .ok (set, t) →
            c.bundle ∈ set.bundles)) ∧
    (∀ before after, steps = before ++ after → ∀ p ∈ (run host {} before).completions,
      p.phase = .verified ∨ p.phase = .closed →
        ∃ p' ∈ (run host {} steps).completions, p'.id = p.id ∧ p'.phase = p.phase) ∧
    ∀ before mid after call call' input input' intentId intentId' s₁ s₂,
      steps = before ++ ⟨call, .beginSessionCompletionWrite input intentId⟩ :: mid ++
        ⟨call', .beginSessionCompletionWrite input' intentId'⟩ :: after →
      apply host (run host {} before) ⟨call, .beginSessionCompletionWrite input intentId⟩ =
        .ok (.write true, s₁) →
      apply host (run host s₁ mid) ⟨call', .beginSessionCompletionWrite input' intentId'⟩ =
        .ok (.write true, s₂) → input'.proposalId ≠ input.proposalId := by
  obtain ⟨hs, hl, -⟩ := lifecycle_run sound_empty lifecycle_empty hC
  refine ⟨hl.single, fun p hp => ?_, ?_, ?_⟩
  · obtain ⟨c, hc, hh⟩ := hl.held p hp
    refine ⟨c, hc, hh, fun hphase => ?_⟩
    have hstate : c.bundle.state = .initiated := by
      obtain h | h := hphase <;> rw [h] at hh <;> exact hh.1
    obtain ⟨hmem, hb, hkind, -⟩ := Store.ownedClaim_eq_some_iff hc
    refine ⟨by simp [holds, hstate], fun now set t hset => ?_⟩
    exact initiated_mem_claimSet hs.rows hmem hb hkind hstate hset
  · rintro before after rfl p hp hphase
    obtain ⟨hbefore, hafter⟩ := (throughout_append host).1 hC
    obtain ⟨hs₁, hl₁, -⟩ := lifecycle_run sound_empty lifecycle_empty hbefore
    obtain ⟨p', hp', hid, hmoves⟩ := (lifecycle_run hs₁ hl₁ hafter).2.2 p hp
    rw [run_append]
    refine ⟨p', hp', hid, ?_⟩
    obtain h | ⟨hlt, -⟩ := hmoves
    · exact h
    · obtain h | h := hphase <;> simp [h, CompletionPhase.stage] at hlt
  · rintro before mid after call call' input input' intentId intentId' s₁ s₂ rfl hfirst hsecond hid
    rw [List.append_assoc, List.cons_append] at hC
    obtain ⟨hbefore, hstep, hrest⟩ := (throughout_append host).1 hC
    obtain ⟨hs₀, hl₀, -⟩ := lifecycle_run sound_empty lifecycle_empty hbefore
    rw [next_of_ok host hfirst] at hrest
    obtain ⟨hmid, -⟩ := (throughout_append host).1 hrest
    obtain ⟨hs₂, -, hmoves⟩ := lifecycle_run (hs₀.apply hfirst)
      (lifecycle_apply hs₀ hl₀ hstep hfirst).1 hmid
    -- the first call leaves a write intent, from which no phase leads back to approved
    obtain ⟨p, -, hpid, -, p', hp', hpid', hwrite⟩ := begin_acquires hfirst
    obtain ⟨p'', hp'', hpid'', hmove⟩ := hmoves p' hp'
    obtain ⟨q, hq, hqid, happroved, -⟩ := begin_acquires hsecond
    obtain rfl : q = p'' := hs₂.rows.completion_eq hq hp''
      (by rw [hqid, hid, hpid'', hpid', hpid])
    rw [hwrite, happroved] at hmove
    obtain h | ⟨-, hle⟩ := hmove
    · cases h
    · simp [CompletionPhase.stage] at hle

/-! ## Two completions of one session -/

def openSession (id : String) : Step :=
  ⟨sampleCall "ada" ("session:" ++ id), .saveSpendSession {
    id, expectedVersion := 0, expectedClaimSetRevision := some "0"
    expiresAt := "2026-06-01T00:00:00.000Z", claim := none, outcome := some ⟨true, none⟩ }⟩

def completionEffect (kind : Liquidity.ClaimEffectKind) (scope id : String)
    (categoryId : Option String) : LiquidityClaimEffect where
  kind := kind
  resourceId := id
  amount := sampleMoney
  economicObligationId := "completion:s1:" ++ scope ++ ":" ++ id
  sourceEconomicObligationId := none
  categoryId := categoryId
  includedInBalance := false
  matchedTransactionIds := []

def admitCompletion (named proposalId account category revision : String) : Step :=
  ⟨sampleCall "ada" ("admit:" ++ proposalId), .admitSessionCompletion {
    sessionId := named
    payload := {
      sessionId := "s1", sessionVersion := 1, accountId := account, parentId := proposalId
      amount := -500, categoryCharges := [(category, sampleMoney)] }
    payloadHash := proposalId
    claim := {
      id := "claim:" ++ proposalId
      creationSnapshotId := "snapshot"
      creationPolicyVersion := "1"
      state := .active
      expiresAt := "2026-06-01T00:00:00.000Z"
      initiated := false
      effects := [completionEffect .category "category" category (some category),
        completionEffect .accountDebit "account" account none] }
    expectedSessionVersion := 1, expectedClaimSetRevision := revision, proposalId
    outcome := some ⟨true, none⟩ }⟩

def completionInput (expectedVersion : Nat) : CompletionCommand :=
  { proposalId := "p1", payloadHash := "p1", expectedVersion, expectedClaimSetRevision := "1"
    outcome := some ⟨true, none⟩ }

def writtenRun : List Step :=
  [firstPolicy, openSession "s1", admitCompletion "s1" "p1" "checking" "food" "0",
    ⟨sampleCall "bob" "approve", .approveSessionCompletion (completionInput 1) "a1"⟩,
    ⟨sampleCall "ada" "begin", .beginSessionCompletionWrite (completionInput 2) "w1"⟩]

theorem completion_lifecycle_written :
    ∃ p ∈ (run sampleHost {} writtenRun).completions, p.phase = .writeIntent ∧
      ∃ c, (run sampleHost {} writtenRun).holdOf p = some c ∧
        ∀ now set t, (run sampleHost {} writtenRun).claimSet sampleHost p.budgetId now =
          .ok (set, t) → c.bundle ∈ set.bundles := by
  have hrun : (run sampleHost {} writtenRun).completions.any (·.phase == .writeIntent) = true := by
    decide +kernel
  obtain ⟨p, hp, hphase⟩ := List.any_eq_true.1 hrun
  have hwrite : p.phase = .writeIntent := by simpa using hphase
  obtain ⟨-, hheld, -, -⟩ := completion_lifecycle sampleHost writtenRun
    ⟨nofun, nofun, fun input hop => by cases hop; rfl, nofun, nofun, trivial⟩
  obtain ⟨c, hc, -, hset⟩ := hheld p hp
  exact ⟨p, hp, hwrite, c, hc, (hset (.inl hwrite)).2⟩

theorem second_open_completion :
    ¬ ∀ (host : Host) (steps : List Step), ∀ p ∈ (run host {} steps).completions,
      ∀ q ∈ (run host {} steps).completions, p.budgetId = q.budgetId →
        p.payload.sessionId = q.payload.sessionId → p.phase ≠ .closed → q.phase ≠ .closed →
          p = q := by
  intro hall
  have hrun := hall sampleHost [firstPolicy, openSession "s1",
    admitCompletion "s1" "p1" "checking" "food" "0", admitCompletion "s2" "p2" "savings" "rent" "1"]
  revert hrun
  decide +kernel

end BalanceFrame.Holds
