import BalanceFrame.Holds.Revisions

/-!
# Budgets do not meet

The rows of all budgets stand in the same tables, and a call names one budget. A statement of the call
leaves the revision of every other budget as it is (`revision_edit`), and with it, by `Progress`, all
that a claim set of that budget is read from. So no run of calls for other budgets, whatever they are
and however they end, changes what a budget reads (`budgets_apart`); the revision it validates against
stays good.
-/

namespace BalanceFrame.Holds

open Library List
open Liquidity (LiquidityClaimBundle)

variable {host : Host} {s t s' : Store} {b budgetId now : String}

theorem revision_persist {kind : OwnerKind} {ownerId : String} {bundle : LiquidityClaimBundle}
    (hb : b ≠ budgetId) (h : s.persistClaim budgetId kind ownerId bundle = .ok s') :
    s'.revision b = s.revision b := by
  obtain ⟨claims, rfl⟩ := Store.persistClaim_frame h
  exact Store.revision_bump_ne _ _ hb

theorem revision_read {set : ClaimSet} (hb : b ≠ budgetId)
    (h : s.claimSet host budgetId now = .ok (set, s')) : s'.revision b = s.revision b := by
  obtain ⟨-, rfl, -⟩ := Store.claimSet_ok h
  exact Store.revision_reread_ne s budgetId host now hb

/-- **A statement leaves the revisions of other budgets.** -/
theorem revision_edit {supply : Supply} (hb : b ≠ budgetId) (he : Edit supply budgetId s s') :
    s'.revision b = s.revision b := by
  cases he with
  | restate owned id effects ends persisted => exact revision_persist hb persisted
  | supplied supplied kinds persisted => exact revision_persist hb persisted
  | prospective supplied unused entry persisted budget claim inserted =>
    obtain ⟨_, inserted⟩ := rest_ok inserted
    cases inserted
    have hrevision := revision_persist hb persisted
    exact hrevision
  | admission supplied unused fits read persisted =>
    have hrevision := revision_read hb read
    exact (revision_persist hb persisted).trans hrevision
  | read read => exact revision_read hb read
  | metadata f kept ended => rfl
  | completion id f kept => rfl
  | rest same => rw [Store.revision, Store.revision, same.revisions]

/-- Two states that a budget cannot tell apart: its revision is the same, and so is its view. -/
structure Alike (b : String) (s s' : Store) : Prop where
  revision : s'.revision b = s.revision b
  view : Store.SameView b s s'

theorem Alike.trans (h : Alike b s t) (h' : Alike b t s') : Alike b s s' :=
  ⟨h'.revision.trans h.revision, h.view.trans h'.view⟩

theorem alike_edits {supply : Supply} (hb : b ≠ budgetId) (he : Edits supply budgetId s s') :
    Alike b s s' := by
  induction he with
  | refl => exact ⟨rfl, .refl s⟩
  | tail _ hedit ih =>
    have hrevision := revision_edit hb hedit
    exact ih.trans ⟨hrevision, (progress_edit hedit).view hrevision⟩

/-- **A call leaves the other budgets**, also one that saves a policy. -/
theorem alike_apply {step : Step} {answer : Answer} (hs : Sound s) (hb : b ≠ step.call.budgetId)
    (h : apply host s step = .ok (answer, s')) : Alike b s s' := by
  by_cases hop : ∃ policy expectedVersion, step.op = .savePolicy policy expectedVersion
  · obtain ⟨call, op⟩ := step
    obtain ⟨policy, expectedVersion, rfl⟩ := hop
    obtain ⟨-, hdeeds⟩ := @savePolicy_deeds host anySupply _ _ _ policy expectedVersion hs.distinct
      (quietly_ok h).1
    have hpolicy : Alike b s (withPolicy s call.budgetId policy) :=
      ⟨rfl, rfl, rfl, fun _ old hold => ⟨old, currentPolicy_withPolicy_ne hb hold, rfl⟩,
        fun _ p hp => ⟨p, hp, rfl, rfl⟩⟩
    exact hpolicy.trans
      (alike_edits hb (deeds_edits (@Sound.withPolicy call.budgetId s hs policy).rows hdeeds))
  · exact alike_edits hb (deeds_edits hs.rows (apply_deeds hs.distinct (supplies_any step)
      (fun policy version he => hop ⟨policy, version, he⟩) h))

theorem alike_run {steps : List Step} (hs : Sound s)
    (hother : ∀ step ∈ steps, step.call.budgetId ≠ b) : Alike b s (run host s steps) := by
  induction steps generalizing s with
  | nil => exact ⟨rfl, .refl s⟩
  | cons step steps ih =>
    obtain ⟨hfirst, hrest⟩ := forall_mem_cons.mp hother
    have hnext : Sound (next host s step) ∧ Alike b s (next host s step) :=
      next_cases host (P := fun u => Sound u ∧ Alike b s u) ⟨hs, rfl, .refl s⟩ fun _ _ h => ⟨hs.apply h, alike_apply hs hfirst.symm h⟩
    exact hnext.2.trans (ih hnext.1 hrest)

/-- **Budgets are isolated.** After any run, any further calls that name other budgets, in any order
and by any actors, leave a budget's revision and the bundles of its claim set at every time. -/
theorem budgets_apart (host : Host) (before steps : List Step) (b : String)
    (hother : ∀ step ∈ steps, step.call.budgetId ≠ b) :
    (run host {} (before ++ steps)).revision b = (run host {} before).revision b ∧
      ∀ now set t, (run host {} before).claimSet host b now = .ok (set, t) →
        ∃ set' t', (run host {} (before ++ steps)).claimSet host b now = .ok (set', t') ∧
          set'.bundles = set.bundles := by
  have halike : Alike b (run host {} before) (run host {} (before ++ steps)) := by
    rw [run_append]
    exact alike_run (sound_run sound_empty before) hother
  refine ⟨halike.revision, fun now set t hread => ?_⟩
  obtain ⟨hbundles, -, -⟩ := Store.claimSet_ok hread
  obtain ⟨u, htime, -⟩ := bind_ok.1 hread
  obtain ⟨covered, hcovered, hrest⟩ :=
    bind_ok.1 (Store.bundlesAt_of_sameView halike.view hbundles)
  obtain ⟨shown, hshown, hset⟩ := bind_ok.1 hrest
  refine ⟨_, _, bind_ok.2 ⟨u, htime, bind_ok.2 ⟨covered, hcovered, bind_ok.2 ⟨shown, hshown, rfl⟩⟩⟩,
    Except.ok.inj hset⟩

/-- The first policy of another household. -/
def neighbourPolicy : Step :=
  ⟨{ sampleCall "bob" "neighbour" with budgetId := "neighbour" },
    .savePolicy (samplePolicy "1" .inform) none⟩

theorem budgets_apart_neighbour :
    (run sampleHost {} [firstPolicy, saveReservation, neighbourPolicy]).revision "budget" = 1 ∧
      ∃ set t, (run sampleHost {} [firstPolicy, saveReservation, neighbourPolicy]).claimSet sampleHost
        "budget" sampleNow = .ok (set, t) ∧ set.bundles = [reservedBundle] := by
  have hset : sampleSet (run sampleHost {} [firstPolicy, saveReservation]) =
      some ⟨1, [reservedBundle]⟩ := by decide +kernel
  obtain ⟨t, ht⟩ := claimSet_of_sampleSet hset
  obtain ⟨hrevision, hread⟩ := budgets_apart sampleHost [firstPolicy, saveReservation]
    [neighbourPolicy] "budget" (by decide)
  exact ⟨hrevision.trans (by decide +kernel), hread _ _ t ht⟩

end BalanceFrame.Holds
