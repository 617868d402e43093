import BalanceFrame.Workflow.Review
import Mathlib.Data.List.Dedup

/-!
# When an approval rests on a fresh quorum

A `history` lists what each accepted operation found and left. The list `approved_by` of an item
only grows: a name stays when the item leaves `approved` and when its category changes, which
`Entry.resets` marks. `staleNames` are the names it then held.

`fresh_quorum_iff`: over every history, each approval rests on the required number of actors who
asked for it since the last reset, and each actor who has not asked since is counted, exactly when
stale names neither include an asking actor nor complete a quorum of two or more.
-/

namespace BalanceFrame.Workflow

open Library List
open Governance

variable {item after : ReviewItem} {now : String} {out : ReviewOutcome}
  {input : TransitionReviewInput} {fresh : List String}

/-- An operation on a review item. -/
inductive ReviewOp
  | transition (gov : GovernanceDb) (now : String) (input : TransitionReviewInput)
  | publicTransition (gov : GovernanceDb) (now : String) (input : TransitionReviewInput)
  | undo (gov : GovernanceDb) (now actor : String) (reason : Option String)
    (expectedVersion : Option Int) (authorization : Option ReviewActionAuthorization)
  | publicUndo (gov : GovernanceDb) (now actor : String) (reason : Option String)
    (expectedVersion : Option Int) (authorization : Option ReviewActionAuthorization)
  | updateCategory (now categoryId : String) (expectedVersion : Int)
  | supersede (now supersededBy reason : String)
  | complete (now categoryId : String)

/-- What an operation leaves of an item. -/
def ReviewOp.apply (item : ReviewItem) : ReviewOp → Except String ReviewItem
  | .transition gov now input => (·.item) <$> transitionReviewItemInTransaction gov now item input
  | .publicTransition gov now input => (·.item) <$> transitionReviewItem gov now item input
  | .undo gov now actor reason version auth =>
    (·.item) <$> undoInternalReviewTransition gov now item actor reason version auth
  | .publicUndo gov now actor reason version auth =>
    (·.item) <$> undoReviewTransition gov now item actor reason version auth
  | .updateCategory now categoryId version =>
    (·.item) <$> updateReviewItemCategory now item categoryId version
  | .supersede now supersededBy reason => .ok (supersedeReviewItem now item supersededBy reason)
  | .complete now categoryId => .ok (completeReviewCategorization now item categoryId)

/-- The actor who asks for the approval. -/
def ReviewOp.approver : ReviewOp → Option String
  | .transition _ _ input => if input.toStatus = .approved then some input.actor else none
  | .publicTransition _ _ input => if input.toStatus = .approved then some input.actor else none
  | _ => none

/-- An accepted operation, with the item before and after it. -/
structure Entry where
  op : ReviewOp
  before : ReviewItem
  after : ReviewItem

/-- The accepted operations of a sequence. -/
def history (item : ReviewItem) : List ReviewOp → List Entry
  | [] => []
  | op :: ops =>
    match op.apply item with
    | .ok after => ⟨op, item, after⟩ :: history after ops
    | .error _ => history item ops

/-- The item leaves `approved`, or its category changes. -/
def Entry.resets (e : Entry) : Bool :=
  (e.before.status = .approved && e.after.status ≠ .approved) ||
    e.before.categoryId ≠ e.after.categoryId

/-- The entries after the last reset. -/
def sinceReset (es : List Entry) : List Entry :=
  es.foldl (fun since e => if e.resets then [] else since ++ [e]) []

/-- The distinct actors who asked for the approval. -/
def requesters (es : List Entry) : List String := (es.filterMap (·.op.approver)).dedup

/-- The names the item held at the last reset. -/
def staleNames (es : List Entry) : List String :=
  es.foldl (fun names e => if e.resets then e.after.approvedBy else names) []

/-- An approval rests on the required number of actors who asked since the last reset. -/
def FreshQuorum (past : List Entry) (e : Entry) : Prop :=
  e.before.status ≠ .approved → e.after.status = .approved →
    e.before.reviewersRequired ≤ (requesters (sinceReset (past ++ [e]))).length

/-- An actor who asks for the first time since the last reset is counted. -/
def CanApproveAgain (past : List Entry) (e : Entry) : Prop :=
  ∀ a, e.op.approver = some a → e.before.status ≠ .approved →
    a ∉ requesters (sinceReset past) → e.after.approvedBy = e.before.approvedBy ++ [a]

/-- The asking actor is no stale name, and stale names do not complete a quorum above one. -/
def Unstale (past : List Entry) (e : Entry) : Prop :=
  ∀ a, e.op.approver = some a → e.before.status ≠ .approved →
    a ∉ staleNames past ∧
      (a ∈ e.before.approvedBy ∨ staleNames past = [] ∨ e.before.reviewersRequired ≤ 1 ∨
        (e.before.approvedBy.length : Int) + 1 < e.before.reviewersRequired)

/-! ## One operation -/

/-- What an operation does to the approvers of an item. -/
inductive Effect (approver : Option String) (item after : ReviewItem) : Prop
  | idle : after = item →
    (∀ a, approver = some a → item.status ≠ .approved → a ∈ item.approvedBy) →
    Effect approver item after
  | counted {a : String} : approver = some a → item.status ≠ .approved → a ∉ item.approvedBy →
    after.approvedBy = item.approvedBy ++ [a] →
    after.reviewersRequired = item.reviewersRequired → after.categoryId = item.categoryId →
    (after.status = .approved ∧ item.reviewersRequired ≤ (item.approvedBy.length : Int) + 1 ∨
      after.status = item.status ∧ (item.approvedBy.length : Int) + 1 < item.reviewersRequired) →
    Effect approver item after
  | other : approver = none → after.approvedBy = item.approvedBy →
    after.reviewersRequired = item.reviewersRequired →
    (after.status = .approved → item.status = .approved) → Effect approver item after

theorem changeStatus_ok {approvedBy : List String}
    (h : changeStatus now item input approvedBy = .ok out) :
    out.item.status = input.toStatus ∧ out.item.reviewersRequired = item.reviewersRequired ∧
      out.item.categoryId = item.categoryId ∧
      out.item.approvedBy = if input.toStatus = .approved then approvedBy else item.approvedBy := by
  simp only [changeStatus, bind_ok, Except.ok.injEq] at h
  obtain ⟨-, -, rfl⟩ := h
  exact ⟨rfl, rfl, rfl, rfl⟩

theorem requestStatus_effect (hne : item.status ≠ input.toStatus)
    (h : requestStatus now item input = .ok out) :
    Effect (if input.toStatus = .approved then some input.actor else none) item out.item := by
  unfold requestStatus at h
  split at h
  · next happ =>
    rw [if_pos happ]
    rw [happ] at hne
    split at h
    · next hmem =>
      cases h
      refine .idle rfl fun a ha _ => ?_
      cases ha
      exact contains_iff_mem.mp hmem
    · next hmem =>
      have hmem' : input.actor ∉ item.approvedBy := fun hm =>
        hmem (contains_iff_mem.mpr hm)
      simp only [length_append, length_singleton, Nat.cast_add, Nat.cast_one] at h
      split at h
      · next hshort =>
        simp only [recordApproval, bind_ok, Except.ok.injEq] at h
        obtain ⟨-, -, rfl⟩ := h
        exact .counted rfl hne hmem' rfl rfl rfl (.inr ⟨rfl, hshort⟩)
      · next hfull =>
        obtain ⟨hstatus, hreq, hcat, hby⟩ := changeStatus_ok h
        rw [if_pos happ] at hby
        exact .counted rfl hne hmem' hby hreq hcat (.inl ⟨hstatus.trans happ, not_lt.mp hfull⟩)
  · next happ =>
    rw [if_neg happ]
    obtain ⟨hstatus, hreq, -, hby⟩ := changeStatus_ok h
    rw [if_neg happ] at hby
    exact .other rfl hby hreq fun hs => absurd (hstatus.symm.trans hs) happ

theorem transition_effect {gov : GovernanceDb}
    (h : transitionReviewItemInTransaction gov now item input = .ok out) :
    Effect (if input.toStatus = .approved then some input.actor else none) item out.item := by
  simp only [transitionReviewItemInTransaction, bind_ok] at h
  obtain ⟨-, -, -, -, h⟩ := h
  split at h
  · next hsame =>
    cases h
    refine .idle rfl fun a ha hne => ?_
    split at ha
    · next happ => exact absurd (hsame.trans happ) hne
    · cases ha
  · next hne =>
    simp only [bind_ok] at h
    obtain ⟨-, -, -, -, h⟩ := h
    exact requestStatus_effect hne h

theorem undoInternal_effect {gov : GovernanceDb} {actor : String} {reason : Option String}
    {version : Option Int} {auth : Option ReviewActionAuthorization}
    (h : undoInternalReviewTransition gov now item actor reason version auth = .ok out) :
    Effect none item out.item := by
  simp only [undoInternalReviewTransition, bind_ok] at h
  obtain ⟨-, -, h⟩ := h
  exact transition_effect h

variable {op : ReviewOp}

theorem apply_effect (h : op.apply item = .ok after) : Effect op.approver item after := by
  cases op with
  | transition gov now input =>
    obtain ⟨out, hrun, rfl⟩ := map_eq_ok.mp h
    exact transition_effect hrun
  | publicTransition gov now input =>
    obtain ⟨out, hrun, rfl⟩ := map_eq_ok.mp h
    simp only [transitionReviewItem, bind_ok] at hrun
    obtain ⟨-, -, hrun⟩ := hrun
    exact transition_effect hrun
  | undo gov now actor reason version auth =>
    obtain ⟨out, hrun, rfl⟩ := map_eq_ok.mp h
    exact undoInternal_effect hrun
  | publicUndo gov now actor reason version auth =>
    obtain ⟨out, hrun, rfl⟩ := map_eq_ok.mp h
    simp only [undoReviewTransition, bind_ok] at hrun
    obtain ⟨-, -, hrun⟩ := hrun
    exact undoInternal_effect hrun
  | updateCategory now categoryId version =>
    obtain ⟨out, hrun, rfl⟩ := map_eq_ok.mp h
    simp only [updateReviewItemCategory, bind_ok, Except.ok.injEq] at hrun
    obtain ⟨-, -, rfl⟩ := hrun
    exact .other rfl rfl rfl id
  | supersede now supersededBy reason =>
    cases h
    exact .other rfl rfl rfl fun hs => by cases hs
  | complete now categoryId =>
    cases h
    exact .other rfl rfl rfl fun hs => by cases hs

/-! ## Whole histories -/

theorem history_inv {P : List Entry → ReviewItem → Prop} {Q : List Entry → Entry → Prop}
    (hstep : ∀ {past op item after}, P past item → op.apply item = .ok after →
      Q past ⟨op, item, after⟩ → P (past ++ [⟨op, item, after⟩]) after) :
    ∀ {ops : List ReviewOp} {item : ReviewItem} {done : List Entry}, P done item →
      (∀ past e rest, history item ops = past ++ e :: rest → Q (done ++ past) e) →
      ∀ past e rest, history item ops = past ++ e :: rest →
        P (done ++ past) e.before ∧ e.op.apply e.before = .ok e.after
  | [], _, _, _, _, past, e, rest, h => by
    simp [history] at h
  | op :: ops, item, done, hP, hQ, past, e, rest, h => by
    unfold history at h hQ
    cases happly : op.apply item with
    | error _ =>
      simp only [happly] at h hQ
      exact history_inv hstep hP hQ past e rest h
    | ok after =>
      simp only [happly] at h hQ
      cases past with
      | nil =>
        obtain ⟨rfl, rfl⟩ := List.cons.inj h
        rw [append_nil]
        exact ⟨hP, happly⟩
      | cons e' past =>
        obtain ⟨rfl, htail⟩ := List.cons.inj h
        have hQe := hQ [] _ _ rfl
        rw [append_nil] at hQe
        have := history_inv hstep (hstep hP happly hQe)
          (fun past e rest hsplit => by
            rw [append_assoc, singleton_append]
            exact hQ (_ :: past) e rest (by rw [hsplit]; rfl)) past e rest htail
        rwa [append_assoc, singleton_append] at this

section Ghost

variable (past : List Entry) (e : Entry)

theorem sinceReset_snoc :
    sinceReset (past ++ [e]) = if e.resets then [] else sinceReset past ++ [e] := by
  simp [sinceReset, foldl_append]

theorem staleNames_snoc :
    staleNames (past ++ [e]) = if e.resets then e.after.approvedBy else staleNames past := by
  simp [staleNames, foldl_append]

theorem nodup_requesters (es : List Entry) : (requesters es).Nodup := nodup_dedup _

theorem mem_requesters {a : String} {es : List Entry} :
    a ∈ requesters es ↔ ∃ e ∈ es, e.op.approver = some a := by
  simp [requesters]

theorem mem_requesters_snoc {a : String} {es : List Entry} :
    a ∈ requesters (es ++ [e]) ↔ a ∈ requesters es ∨ e.op.approver = some a := by
  simp only [mem_requesters, mem_append, mem_singleton, or_and_right, exists_or,
    exists_eq_left]

end Ghost

/-- The names an item holds: the stale ones, then those of actors who asked since the reset. -/
structure Approvals (past : List Entry) (item : ReviewItem) (fresh : List String) : Prop where
  split : item.approvedBy = staleNames past ++ fresh
  nodup : item.approvedBy.Nodup
  requested : ∀ a ∈ fresh, a ∈ requesters (sinceReset past)
  short : fresh ≠ [] → item.status ≠ .approved →
    (item.approvedBy.length : Int) < item.reviewersRequired

theorem nodup_after {approver : Option String}
    (h : Effect approver item after) (hn : item.approvedBy.Nodup) : after.approvedBy.Nodup := by
  cases h with
  | idle hsame _ => rwa [hsame]
  | counted _ _ hnew hby _ _ _ =>
    rw [hby]
    exact hn.append (nodup_singleton _) (disjoint_singleton.mpr hnew)
  | other _ hby _ _ => rwa [hby]

/-- Where every earlier asker was counted, the actors who asked since the reset are fresh names. -/
def OnlyFresh (past : List Entry) (item : ReviewItem) (fresh : List String) : Prop :=
  item.status ≠ .approved → ∀ a ∈ requesters (sinceReset past), a ∈ fresh

theorem approvals_step {past : List Entry} (h : Approvals past item fresh)
    (heff : Effect op.approver item after) :
    ∃ fresh', Approvals (past ++ [⟨op, item, after⟩]) after fresh' ∧
      (OnlyFresh past item fresh → CanApproveAgain past ⟨op, item, after⟩ →
        OnlyFresh (past ++ [⟨op, item, after⟩]) after fresh') := by
  have hnodup := nodup_after heff h.nodup
  by_cases hreset : (Entry.mk op item after).resets = true
  · refine ⟨[], ⟨?_, hnodup, fun a ha => absurd ha not_mem_nil, fun hne => absurd rfl hne⟩,
      fun _ _ _ a ha => ?_⟩
    · rw [staleNames_snoc, if_pos hreset, append_nil]
    · rw [sinceReset_snoc, if_pos hreset] at ha
      exact ha
  · have hsince : ∀ a, a ∈ requesters (sinceReset (past ++ [⟨op, item, after⟩])) ↔
        a ∈ requesters (sinceReset past) ∨ op.approver = some a := by
      intro a
      rw [sinceReset_snoc, if_neg hreset, mem_requesters_snoc]
    have hkept : ∀ a ∈ fresh, a ∈ requesters (sinceReset (past ++ [⟨op, item, after⟩])) :=
      fun a ha => (hsince a).mpr (.inl (h.requested a ha))
    have hstale : staleNames (past ++ [⟨op, item, after⟩]) = staleNames past := by
      rw [staleNames_snoc, if_neg hreset]
    cases heff with
    | idle hsame _ =>
      subst hsame
      refine ⟨fresh, ⟨by rw [hstale]; exact h.split, hnodup, hkept, h.short⟩,
        fun honly hagain hne a ha => ?_⟩
      rcases (hsince a).mp ha with ha | ha
      · exact honly hne a ha
      · by_contra hnot
        -- an idle request is one of an actor who asked before
        have hby := hagain a ha hne fun hr => hnot (honly hne a hr)
        simp at hby
    | @counted a ha hne _ hby hreq hcat hquorum =>
      refine ⟨fresh ++ [a], ⟨?_, hnodup, fun b hb => ?_, fun _ hne' => ?_⟩,
        fun honly _ _ b hb => ?_⟩
      · rw [hby, h.split, hstale, append_assoc]
      · rcases mem_append.mp hb with hb | hb
        · exact hkept b hb
        · rw [mem_singleton.mp hb]
          exact (hsince a).mpr (.inr ha)
      · rcases hquorum with ⟨happ, -⟩ | ⟨-, hshort⟩
        · exact absurd happ hne'
        · rw [hby, hreq, length_append, length_singleton]
          exact_mod_cast hshort
      · rcases (hsince b).mp hb with hb | hb
        · exact mem_append_left _ (honly hne b hb)
        · rw [ha] at hb
          cases hb
          exact mem_append_right _ mem_cons_self
    | other hnone hby hreq hstatus =>
      -- leaving approved would have been a reset
      have hstay : after.status ≠ .approved → item.status ≠ .approved := fun hne happ =>
        hreset (by simp [Entry.resets, happ, hne])
      refine ⟨fresh, ⟨by rw [hby, hstale]; exact h.split, hnodup, hkept, fun hf hne => ?_⟩,
        fun honly _ hne a ha => ?_⟩
      · rw [hby, hreq]
        exact h.short hf (hstay hne)
      · rcases (hsince a).mp ha with ha | ha
        · exact honly (hstay hne) a ha
        · rw [hnone] at ha
          cases ha

/-- The two properties of an approval request. -/
def Sound (past : List Entry) (e : Entry) : Prop := FreshQuorum past e ∧ CanApproveAgain past e

theorem sound_of_unstale {past : List Entry} (h : Approvals past item fresh)
    (heff : Effect op.approver item after) (hcond : Unstale past ⟨op, item, after⟩) :
    Sound past ⟨op, item, after⟩ := by
  cases heff with
  | idle hsame hmem =>
    refine ⟨fun hne happ => absurd (hsame ▸ happ) hne, fun a ha hne hnot => ?_⟩
    have hin := hmem a ha hne
    rw [h.split] at hin
    rcases mem_append.mp hin with hin | hin
    · exact absurd hin (hcond a ha hne).1
    · exact absurd (h.requested a hin) hnot
  | @counted a ha hne hnew hby hreq hcat hquorum =>
    refine ⟨fun _ happ => ?_, fun b hb _ _ => ?_⟩
    · have hreset : (Entry.mk op item after).resets = false := by
        simp [Entry.resets, hne, hcat]
      rw [sinceReset_snoc, hreset, if_neg Bool.false_ne_true]
      rcases hquorum with ⟨-, hfull⟩ | ⟨hsame, -⟩
      · have hfresh : (fresh ++ [a]).Nodup := by
          have hn := h.nodup
          rw [h.split] at hn
          have hfreshnot : a ∉ fresh := fun hf => hnew (by
            rw [h.split]; exact mem_append_right _ hf)
          exact hn.of_append_right.append (nodup_singleton _)
            (disjoint_singleton.mpr hfreshnot)
        have hsub : fresh ++ [a] ⊆ requesters (sinceReset past ++ [⟨op, item, after⟩]) := by
          intro b hb
          rw [mem_requesters_snoc]
          rcases mem_append.mp hb with hb | hb
          · exact .inl (h.requested b hb)
          · rw [mem_singleton.mp hb]
            exact .inr ha
        have hlen := (subperm_of_subset hfresh hsub).length_le
        rw [length_append, length_singleton] at hlen
        obtain ⟨-, hin | hnil | hone | hshort⟩ := hcond a ha hne
        · exact absurd hin hnew
        · rw [h.split, hnil, nil_append] at hfull
          exact hfull.trans (by exact_mod_cast hlen)
        · exact le_trans hone (by exact_mod_cast le_trans (Nat.le_add_left 1 _) hlen)
        · exact absurd hfull (not_le.mpr hshort)
      · exact absurd (hsame ▸ happ) hne
    · rw [ha] at hb
      cases hb
      exact hby
  | other hnone _ _ hstatus =>
    exact ⟨fun hne happ => absurd (hstatus happ) hne, fun a ha => by rw [hnone] at ha; cases ha⟩

theorem unstale_of_sound {past : List Entry} (h : Approvals past item fresh)
    (honly : OnlyFresh past item fresh) (heff : Effect op.approver item after)
    (hsound : Sound past ⟨op, item, after⟩) : Unstale past ⟨op, item, after⟩ := by
  obtain ⟨hquorum, hagain⟩ := hsound
  intro a ha hne
  have hnodup := h.nodup
  constructor
  · intro hstale
    have hin : a ∈ item.approvedBy := by
      rw [h.split]
      exact mem_append_left _ hstale
    rw [h.split] at hnodup
    have hnot : a ∉ requesters (sinceReset past) := fun hr =>
      (nodup_append.mp hnodup).2.2 a hstale a (honly hne a hr) rfl
    have hafter := nodup_after heff h.nodup
    rw [hagain a ha hne hnot] at hafter
    exact (nodup_append.mp hafter).2.2 a hin a (mem_singleton_self a) rfl
  · by_contra hcond
    push Not at hcond
    obtain ⟨hnot, hstale, hmany, hfull⟩ := hcond
    cases heff with
    | idle _ hmem => exact hnot (hmem a ha hne)
    | other hnone _ _ _ =>
      rw [hnone] at ha
      cases ha
    | @counted b hb _ _ hby hreq hcat hcount =>
      rw [ha] at hb
      cases hb
      rcases hcount with ⟨happ, -⟩ | ⟨-, hshort⟩
      · have hneeded := hquorum hne happ
        have hreset : (Entry.mk op item after).resets = false := by
          simp [Entry.resets, hne, hcat]
        rw [sinceReset_snoc, hreset, if_neg Bool.false_ne_true] at hneeded
        have hsub : requesters (sinceReset past ++ [⟨op, item, after⟩]) ⊆ fresh ++ [a] := by
          intro c hc
          rcases (mem_requesters_snoc _).mp hc with hc | hc
          · exact mem_append_left _ (honly hne c hc)
          · rw [ha] at hc
            cases hc
            exact mem_append_right _ mem_cons_self
        have hlen := (subperm_of_subset (nodup_requesters _) hsub).length_le
        rw [length_append, length_singleton] at hlen
        have hpos := length_pos_iff.mpr hstale
        have hsplit := congrArg List.length h.split
        rw [length_append] at hsplit
        dsimp only at hneeded hmany hfull
        by_cases hf : fresh = []
        · rw [hf, length_nil] at hlen
          omega
        · have hshort := h.short hf hne
          omega
      · exact absurd hfull (not_le.mpr hshort)

/-- **A quorum is fresh, and an undone actor can approve again, exactly where no stale name is in
the way.** -/
theorem fresh_quorum_iff (id budgetId transactionId : String) (transactionVersion : Int)
    (categoryId : String) (reviewersRequired : Option Int) (evidence : Liquidity.Json)
    (now : String) (ops : List ReviewOp) :
    let entries := history (newReviewItem id budgetId transactionId transactionVersion categoryId
      reviewersRequired evidence now) ops
    (∀ past e rest, entries = past ++ e :: rest → FreshQuorum past e ∧ CanApproveAgain past e) ↔
      ∀ past e rest, entries = past ++ e :: rest → Unstale past e := by
  intro entries
  have hstart : ∀ item : ReviewItem, item.approvedBy = [] → Approvals [] item [] := fun item h =>
    ⟨h, by rw [h]; exact nodup_nil, fun a ha => absurd ha not_mem_nil,
      fun hne => absurd rfl hne⟩
  constructor
  · intro hsound past e rest hsplit
    obtain ⟨⟨fresh, happrovals, honly⟩, happly⟩ := history_inv
      (P := fun past item => ∃ fresh, Approvals past item fresh ∧ OnlyFresh past item fresh)
      (Q := Sound)
      (fun ⟨fresh, h, honly⟩ happly hgood => by
        obtain ⟨fresh', h', honly'⟩ := approvals_step h (apply_effect happly)
        exact ⟨fresh', h', honly' honly hgood.2⟩)
      ⟨[], hstart _ rfl, fun _ a ha => ha⟩ hsound past e rest hsplit
    exact unstale_of_sound happrovals honly (apply_effect happly) (hsound past e rest hsplit)
  · intro hcond past e rest hsplit
    obtain ⟨⟨fresh, happrovals⟩, happly⟩ := history_inv
      (P := fun past item => ∃ fresh, Approvals past item fresh) (Q := fun _ _ => True)
      (fun ⟨fresh, h⟩ happly _ => by
        obtain ⟨fresh', h', -⟩ := approvals_step h (apply_effect happly)
        exact ⟨fresh', h'⟩)
      ⟨[], hstart _ rfl⟩ (fun _ _ _ _ => trivial) past e rest hsplit
    exact sound_of_unstale happrovals (apply_effect happly) (hcond past e rest hsplit)

def twoReviewerItem : ReviewItem :=
  newReviewItem "item" "budget" "transaction" 1 "groceries" (some 2) (.object [])
    "2026-01-01T00:00:00.000Z"

def request (actor : String) (toStatus : ReviewStatus) (expectedVersion : Int) : ReviewOp :=
  .transition {} "2026-01-01T00:00:00.000Z" { toStatus, actor, expectedVersion }

def undoneApproval : List ReviewOp :=
  [request "system" .pendingReview 1, request "ada" .approved 2, request "bea" .approved 3,
    .undo {} "2026-01-01T00:00:00.000Z" "ada" none none none, request "cyd" .approved 5]

/-- Of the names that approve the item again only one asked after the undo. -/
theorem undone_approval_counts :
    ¬ ∀ past e rest, history twoReviewerItem undoneApproval = past ++ e :: rest →
      FreshQuorum past e ∧ CanApproveAgain past e := by
  intro h
  have hsplit : history twoReviewerItem undoneApproval =
      (history twoReviewerItem undoneApproval).take 4 ++
        (history twoReviewerItem undoneApproval).get ⟨4, by decide⟩ :: [] := by
    rfl
  obtain ⟨hquorum, -⟩ := h _ _ _ hsplit
  exact absurd (hquorum (by decide) (by decide)) (by decide)

end BalanceFrame.Workflow
