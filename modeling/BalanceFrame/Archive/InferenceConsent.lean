import BalanceFrame.Archive.Inference
import Mathlib.Data.List.Pairwise

/-!
# Consent is used once

The events of one preview are a `Course`: it is created, dispatched, completed or failed, and
withdrawn, each at most once and in this order. A `ConsentLog` is the journal with the dispatches
that were admitted, each with the limits in force then.
-/

namespace BalanceFrame.Archive

open Library List Bool Except

variable {access : EvidenceAccess} {p q : Preview} {journal journal' : List InferenceRow}
  {installation : Option Installation} {l : List Preview} {reader : InferenceReader}
  {previewId payloadHash : String} {h : Host}

/-! ## The course of a consent -/

/-- Both are times, and the first is before the second. -/
def Unexpired (host : Host) (now expiresAt : String) : Prop :=
  ∃ t u, host.datetime now = some t ∧ host.datetime expiresAt = some u ∧ t < u

/-- An event of a preview that comes after another one. -/
inductive Follows (host : Host) (p : Preview) : Preview → Prop
  | dispatched (at_ : String) : p.status = .preview → Unexpired host at_ p.expiresAt →
      Follows host p { p with status := .dispatched, at_ := at_ }
  | completed (at_ cacheUntil : String) (result : InferenceResult) : p.status = .dispatched →
      Unexpired host at_ p.expiresAt →
      Follows host p
        { p with
          status := .completed
          at_ := at_
          result := some result
          cacheUntil := some cacheUntil }
  | failed (at_ : String) (code : FailureCode) : p.status = .dispatched →
      Follows host p
        { p with
          status := .failed
          at_ := at_
          result := none
          cacheUntil := none
          failureCode := some code }
  | withdrawn (at_ : String) (withdrawal : Withdrawal) : p.status.withdrawn = false →
      Follows host p
        { p with status := withdrawal.status, at_ := at_, result := none, cacheUntil := none }

/-- The events of one preview. -/
inductive Course (host : Host) : List Preview → Prop
  | none : Course host []
  | created (p : Preview) : p.status = .preview → Course host [p]
  | next {l : List Preview} {p q : Preview} : Course host (l ++ [p]) → Follows host p q →
      Course host (l ++ [p] ++ [q])

/-- How far a consent has come. -/
def PreviewStatus.stage : PreviewStatus → Nat
  | .preview => 0
  | .dispatched => 1
  | .completed | .failed => 2
  | .rejected | .revoked => 3

theorem Follows.id_eq {host : Host} (h : Follows host p q) : q.id = p.id := by
  cases h <;> rfl

theorem Follows.stage_lt {host : Host} (h : Follows host p q) : p.status.stage < q.status.stage := by
  cases h with
  | dispatched at_ hstatus _ =>
    rw [hstatus]
    exact Nat.zero_lt_one
  | completed at_ cacheUntil result hstatus _ =>
    rw [hstatus]
    exact Nat.one_lt_two
  | failed at_ code hstatus =>
    rw [hstatus]
    exact Nat.one_lt_two
  | withdrawn at_ withdrawal hstatus =>
    have hlast : withdrawal.status.stage = 3 := by cases withdrawal <;> rfl
    dsimp only
    rw [hlast]
    cases h : p.status with
    | rejected =>
      rw [h] at hstatus
      cases hstatus
    | revoked =>
      rw [h] at hstatus
      cases hstatus
    | _ => decide

/-- **Every event of a preview is of a later stage** than those before it. -/
theorem Course.pairwise {host : Host} (h : Course host l) :
    l.Pairwise fun p q => p.status.stage < q.status.stage := by
  induction h with
  | none => exact List.Pairwise.nil
  | created p _ => exact pairwise_singleton _ p
  | @next l p q _ hfollows ih =>
    rw [pairwise_append]
    refine ⟨ih, pairwise_singleton _ q, fun x hx y hy => ?_⟩
    obtain rfl := mem_singleton.mp hy
    have hlt := hfollows.stage_lt
    rcases mem_append.mp hx with hx | hx
    · exact ((pairwise_append.mp ih).2.2 x hx p (mem_singleton_self p)).trans hlt
    · rwa [mem_singleton.mp hx]

theorem length_stage_le_one
    (h : l.Pairwise fun p q => p.status.stage < q.status.stage) (status : PreviewStatus) :
    (l.filter fun p => decide (p.status = status)).length ≤ 1 := by
  have hfilter := h.filter fun p => decide (p.status = status)
  cases hl : l.filter fun p => decide (p.status = status) with
  | nil => exact Nat.zero_le _
  | cons p rest =>
    rw [hl, pairwise_cons] at hfilter
    have hstatus : ∀ x ∈ p :: rest, x.status = status := by
      intro x hx
      rw [← hl] at hx
      exact of_decide_eq_true (mem_filter.mp hx).2
    cases rest with
    | nil => exact le_rfl
    | cons q rest =>
      have hlt := hfilter.1 q mem_cons_self
      rw [hstatus p mem_cons_self,
        hstatus q (mem_cons_of_mem _ mem_cons_self)] at hlt
      exact absurd hlt (lt_irrefl _)

/-! ## Runs -/

/-- A dispatch that was admitted, with the limits in force. -/
structure Admission where
  installationId : String
  day : String
  spaceId : String
  budgetId : String
  limits : Limits

structure ConsentLog where
  journal : List InferenceRow
  /-- How often `randomUUID` was called. -/
  made : Nat
  admitted : List Admission

def ConsentLog.empty : ConsentLog := { journal := [], made := 0, admitted := [] }

inductive InferenceCall
  | updatePolicy (access : EvidenceAccess) (input : PolicyUpdate)
  | create (reader : InferenceReader) (access : EvidenceAccess) (input : InferenceBinding)
      (installation : Option Installation)
  | consume (reader : InferenceReader) (access : EvidenceAccess) (ref : PreviewRef)
      (installation : Option Installation)
  | finish (reader : InferenceReader) (access : EvidenceAccess) (ref : PreviewRef)
      (result : InferenceResult) (installation : Option Installation)
  | fail (access : EvidenceAccess) (previewId payloadHash : String) (code : FailureCode)
  | withdraw (access : EvidenceAccess) (previewId payloadHash : String) (withdrawal : Withdrawal)
  | lookup (reader : InferenceReader) (access : EvidenceAccess) (bindingHash : String)
      (payloadHash : Option String) (installation : Option Installation)
  /-- Another journal appends a row. -/
  | other

variable {host : InferenceHost}

/-- The admission of a dispatch. -/
def admission (host : InferenceHost) (journal : List InferenceRow) (access : EvidenceAccess)
    (installation : Option Installation) (dispatched : Preview) : Option Admission :=
  (policiesInForce host journal access dispatched.provider installation).toOption.map fun policy =>
    { installationId := dispatched.installationId, day := dayOf access
      spaceId := access.scope.spaceId, budgetId := access.scope.budgetId, limits := policy.limits }

theorem admission_eq {dispatched : Preview} {policy : InForce}
    (h : policiesInForce host journal access dispatched.provider installation = .ok policy) :
    admission host journal access installation dispatched =
      some ⟨dispatched.installationId, dayOf access, access.scope.spaceId, access.scope.budgetId,
        policy.limits⟩ := by
  unfold admission
  rw [h]
  rfl

/-- The log after a call that appends to the journal. -/
def ConsentLog.after (s : ConsentLog) (x : Except String (List InferenceRow × Preview)) :
    ConsentLog :=
  match x with
  | .ok (journal, _) => { s with journal := journal }
  | .error _ => s

def ConsentLog.perform (host : InferenceHost) (s : ConsentLog) : InferenceCall → ConsentLog
  | .updatePolicy access input =>
    { s with journal := valueOr s.journal (Archive.updatePolicy host s.journal access input) }
  | .create reader access input installation =>
    ({ s with made := s.made + 1 } : ConsentLog).after
      (createPreview host reader s.journal access input installation (host.uuid s.made))
  | .consume reader access ref installation =>
    match consumePreview host reader s.journal access ref installation with
    | .ok (journal, dispatched) =>
      { s with
        journal := journal
        admitted := s.admitted ++
          (admission host s.journal access installation dispatched).toList }
    | .error _ => s
  | .finish reader access ref result installation =>
    s.after (finishDispatch host reader s.journal access ref result installation)
  | .fail access previewId payloadHash code =>
    s.after (failDispatch host s.journal access previewId payloadHash code)
  | .withdraw access previewId payloadHash withdrawal =>
    s.after (withdrawPreview host s.journal access previewId payloadHash withdrawal)
  | .lookup _ _ _ _ _ => s
  | .other => { s with journal := s.journal ++ [.other] }

def ConsentLog.run (host : InferenceHost) (s : ConsentLog) (calls : List InferenceCall) :
    ConsentLog := calls.foldl (ConsentLog.perform host) s

/-! ## What the calls do -/

theorem appendPreview_ok (h : appendPreview host journal access p = .ok journal') :
    p.parse host = .ok () ∧ journal' = journal ++ [.preview access.scope access.actorId p] := by
  unfold appendPreview at h
  rw [bind_ok] at h
  obtain ⟨_, hparse, h⟩ := h
  rw [bind_ok] at h
  obtain ⟨_, -, h⟩ := h
  exact ⟨hparse, (ok.inj h).symm⟩

theorem dated_of_parse (h : p.parse host = .ok ()) : ∃ t, host.datetime p.expiresAt = some t := by
  unfold Preview.parse at h
  simp only [bind_ok] at h
  obtain ⟨_, -, _, -, _, hdates, -⟩ := h
  rw [reject_ok, not_eq_false', all_eq_true] at hdates
  exact Option.isSome_iff_exists.mp (hdates p.expiresAt (by simp))

theorem validateInference_ok {now : Int}
    (h : validateInference host access = .ok now) : host.datetime access.now = some now := by
  unfold validateInference at h
  rw [bind_ok] at h
  obtain ⟨_, -, h⟩ := h
  exact orStop_ok.mp h

theorem unexpired_of_before {now : Int}
    (hnow : host.datetime access.now = some now) (hparse : p.parse host = .ok ())
    (h : before host access p.expiresAt = true) : Unexpired host.toHost access.now p.expiresAt := by
  obtain ⟨t, ht⟩ := dated_of_parse hparse
  refine ⟨now, t, hnow, ht, ?_⟩
  unfold before at h
  rw [hnow, ht] at h
  simpa using h

theorem livePolicies_ok {policy : InForce}
    (h : livePolicies host reader journal access p installation = .ok policy) :
    policiesInForce host journal access p.provider installation = .ok policy ∧
      policy.revisions = p.policyRevisions ∧ policy.installationId = p.installationId := by
  unfold livePolicies at h
  simp only [bind_ok] at h
  obtain ⟨_, -, policy', hpolicy, _, hsame, _, -, _, -, h⟩ := h
  cases h
  rw [reject_ok, or_eq_false_iff, bne_eq_false_iff_eq, bne_eq_false_iff_eq] at hsame
  exact ⟨hpolicy, hsame⟩

theorem getPreview_ok {p? : Option Preview}
    (h : getPreview host journal access previewId payloadHash = .ok p?) :
    (∃ now, host.datetime access.now = some now) ∧
      p? = (findEvent journal access fun p => p.id == previewId).filter fun p =>
        p.payloadHash == payloadHash := by
  unfold getPreview at h
  simp only [bind_ok] at h
  obtain ⟨_, -, _, -, now, hnow, h⟩ := h
  exact ⟨⟨now, validateInference_ok hnow⟩, (ok.inj h).symm⟩

/-- **A dispatch**: of a preview that is unexpired, for what it discloses and under the policies it
was granted for, within the quota. -/
theorem consumePreview_ok {ref : PreviewRef}
    (h : consumePreview host reader journal access ref installation = .ok (journal', q)) :
    ∃ p policy, findEvent journal access (fun p => p.id == ref.previewId) = some p ∧
      p.status = .preview ∧ before host access p.expiresAt = true ∧
      (∃ now, host.datetime access.now = some now) ∧
      (p.payloadHash = ref.payloadHash ∧ p.bindingHash = ref.bindingHash ∧ p.nonce = ref.nonce) ∧
      policiesInForce host journal access p.provider installation = .ok policy ∧
      policy.revisions = p.policyRevisions ∧ policy.installationId = p.installationId ∧
      withinQuota access (reservationsOf journal p.installationId (dayOf access)) policy.limits =
        true ∧
      q = { p with status := .dispatched, at_ := access.now } ∧ q.parse host = .ok () ∧
      journal' = journal ++ [.quota p.installationId (dayOf access)
        { spaceId := access.scope.spaceId, budgetId := access.scope.budgetId, at_ := access.now },
          .preview access.scope access.actorId q] := by
  unfold consumePreview at h
  simp only [bind_ok] at h
  obtain ⟨_, -, p?, hread, p, hp, policy, hlive, _, hquota, journal'', happend, h⟩ := h
  cases h
  unfold readLivePreview at hread
  simp only [bind_ok] at hread
  obtain ⟨_, -, _, -, _, -, p?, hget, hread⟩ := hread
  cases hread
  obtain ⟨hnow, rfl⟩ := getPreview_ok hget
  rw [orStop_ok, Option.filter_eq_some_iff, Option.filter_eq_some_iff,
    Option.filter_eq_some_iff] at hp
  obtain ⟨⟨⟨hfind, hpayload⟩, hchecks⟩, hnonce⟩ := hp
  simp only [and_eq_true, beq_iff_eq] at hpayload hchecks hnonce
  obtain ⟨hpolicy, hrevisions, hinstallation⟩ := livePolicies_ok hlive
  rw [reject_ok, not_eq_false'] at hquota
  obtain ⟨hparse, rfl⟩ := appendPreview_ok happend
  exact ⟨p, policy, hfind, hchecks.1.1.2, hchecks.1.2, hnow, ⟨hpayload, hchecks.1.1.1, hnonce⟩,
    hpolicy, hrevisions, hinstallation, hquota, rfl, hparse, by rw [append_assoc]; rfl⟩

theorem finishDispatch_ok {ref : PreviewRef} {result : InferenceResult}
    (h : finishDispatch host reader journal access ref result installation = .ok (journal', q)) :
    ∃ p policy until_, findEvent journal access (fun p => p.id == ref.previewId) = some p ∧
      p.status = .dispatched ∧ before host access p.expiresAt = true ∧
      (∃ now, host.datetime access.now = some now) ∧
      (p.payloadHash = ref.payloadHash ∧ p.bindingHash = ref.bindingHash ∧ p.nonce = ref.nonce) ∧
      policiesInForce host journal access p.provider installation = .ok policy ∧
      policy.revisions = p.policyRevisions ∧ policy.installationId = p.installationId ∧
      q = { p with
        status := .completed
        at_ := access.now
        result := some result
        cacheUntil := some until_ } ∧ q.parse host = .ok () ∧
      journal' = journal ++ [.preview access.scope access.actorId q] := by
  unfold finishDispatch at h
  simp only [bind_ok] at h
  obtain ⟨_, -, _, -, now, hnow, p, hp, original, -, _, -, policy, hlive, _, -, journal'', happend,
    h⟩ := h
  cases h
  rw [orStop_ok, Option.filter_eq_some_iff] at hp
  obtain ⟨hfind, hchecks⟩ := hp
  simp only [and_eq_true, beq_iff_eq] at hchecks
  obtain ⟨hpolicy, hrevisions, hinstallation⟩ := livePolicies_ok hlive
  obtain ⟨hparse, rfl⟩ := appendPreview_ok happend
  exact ⟨p, policy, _, hfind, hchecks.1.1.1.1, hchecks.2, ⟨now, validateInference_ok hnow⟩,
    ⟨hchecks.1.1.1.2, hchecks.1.1.2, hchecks.1.2⟩, hpolicy, hrevisions, hinstallation, rfl, hparse,
    rfl⟩

theorem failDispatch_ok {code : FailureCode}
    (h : failDispatch host journal access previewId payloadHash code = .ok (journal', q)) :
    ∃ p, findEvent journal access (fun p => p.id == previewId) = some p ∧
      Follows host.toHost p q ∧ q.parse host = .ok () ∧
      journal' = journal ++ [.preview access.scope access.actorId q] := by
  unfold failDispatch at h
  simp only [bind_ok] at h
  obtain ⟨p?, hget, p, hp, _, -, journal'', happend, h⟩ := h
  cases h
  obtain ⟨-, rfl⟩ := getPreview_ok hget
  rw [orStop_ok, Option.filter_eq_some_iff, Option.filter_eq_some_iff] at hp
  obtain ⟨⟨hfind, -⟩, hstatus⟩ := hp
  obtain ⟨hparse, rfl⟩ := appendPreview_ok happend
  exact ⟨p, hfind, .failed access.now code (beq_iff_eq.mp hstatus), hparse, rfl⟩

theorem withdrawPreview_ok {withdrawal : Withdrawal}
    (h : withdrawPreview host journal access previewId payloadHash withdrawal =
      .ok (journal', q)) :
    ∃ p, findEvent journal access (fun p => p.id == previewId) = some p ∧
      Follows host.toHost p q ∧ q.parse host = .ok () ∧
      journal' = journal ++ [.preview access.scope access.actorId q] := by
  unfold withdrawPreview at h
  simp only [bind_ok] at h
  obtain ⟨p?, hget, p, hp, _, -, journal'', happend, h⟩ := h
  cases h
  obtain ⟨-, rfl⟩ := getPreview_ok hget
  rw [orStop_ok, Option.filter_eq_some_iff, Option.filter_eq_some_iff] at hp
  obtain ⟨⟨hfind, -⟩, hstatus⟩ := hp
  obtain ⟨hparse, rfl⟩ := appendPreview_ok happend
  exact ⟨p, hfind, .withdrawn access.now withdrawal (by simpa using hstatus), hparse, rfl⟩

theorem createPreview_ok {input : InferenceBinding} {uuid : String}
    (h : createPreview host reader journal access input installation uuid = .ok (journal', p)) :
    p.id = uuid ∧ p.status = .preview ∧ p.parse host = .ok () ∧
      journal' = journal ++ [.preview access.scope access.actorId p] := by
  unfold createPreview at h
  simp only [bind_ok] at h
  obtain ⟨_, -, _, -, policy, -, now, -, journal'', happend, h⟩ := h
  cases h
  obtain ⟨hparse, rfl⟩ := appendPreview_ok happend
  exact ⟨rfl, rfl, hparse, rfl⟩

theorem updatePolicy_ok
    {input : PolicyUpdate} (h : updatePolicy host journal access input = .ok journal') :
    ∃ spaceId budgetId event, journal' = journal ++ [.policy spaceId budgetId event] := by
  unfold updatePolicy at h
  simp only [bind_ok] at h
  obtain ⟨_, -, _, -, _, -, _, -, _, -, state, -, _, -, h⟩ := h
  cases h
  exact ⟨_, _, _, rfl⟩

/-! ## The events of a preview -/

/-- The events of a preview, as they were appended. -/
def eventsOf (journal : List InferenceRow) (scope : EvidenceScope) (actorId id : String) :
    List Preview :=
  (previewsOf journal scope actorId).filter fun p => p.id == id

theorem previewsOf_append (journal : List InferenceRow) (row : InferenceRow)
    (scope : EvidenceScope) (actorId : String) :
    previewsOf (journal ++ [row]) scope actorId =
      previewsOf journal scope actorId ++ (row.previewOf scope actorId).toList := by
  unfold previewsOf
  rw [filterMap_append]
  cases h : row.previewOf scope actorId with
  | none => rw [filterMap_cons_none h]; rfl
  | some p => rw [filterMap_cons_some h]; rfl

theorem reservationsOf_append (journal : List InferenceRow) (row : InferenceRow)
    (installationId date : String) :
    reservationsOf (journal ++ [row]) installationId date =
      reservationsOf journal installationId date ++
        (row.reservationOf installationId date).toList := by
  unfold reservationsOf
  rw [filterMap_append]
  cases h : row.reservationOf installationId date with
  | none => rw [filterMap_cons_none h]; rfl
  | some p => rw [filterMap_cons_some h]; rfl

theorem find?_reverse_eq {α : Type} (l : List α) (f : α → Bool) :
    l.reverse.find? f = (l.filter f).getLast? := by
  rw [← head?_filter, filter_reverse, head?_reverse]

theorem getLast?_of_findEvent {id : String}
    (h : findEvent journal access (fun p => p.id == id) = some p) :
    (eventsOf journal access.scope access.actorId id).getLast? = some p ∧ p.id = id ∧
      p ∈ previewsOf journal access.scope access.actorId := by
  unfold findEvent at h
  refine ⟨(find?_reverse_eq _ _).symm.trans h, by simpa using find?_some h, ?_⟩
  exact mem_reverse.mp (mem_of_find?_eq_some h)

theorem Course.snoc (hl : Course h l)
    (hlast : l.getLast? = some p) (hfollows : Follows h p q) : Course h (l ++ [q]) := by
  obtain ⟨l', rfl⟩ := getLast?_eq_some_iff.mp hlast
  exact .next hl hfollows

/-! ## The quota -/

/-- Admissions of one installation on one day. -/
def Admission.sameDay (x y : Admission) : Bool :=
  y.installationId == x.installationId && y.day == x.day

/-- And of one space. -/
def Admission.sameSpace (x y : Admission) : Bool := x.sameDay y && y.spaceId == x.spaceId

/-- And of one budget. -/
def Admission.sameBudget (x y : Admission) : Bool := x.sameSpace y && y.budgetId == x.budgetId

/-- The admissions are within the limits that were in force for one of them. -/
structure Admission.Within (x : Admission) (admitted : List Admission) : Prop where
  installation : (admitted.filter x.sameDay).length ≤ x.limits.installation
  space : (admitted.filter x.sameSpace).length ≤ x.limits.space
  budget : (admitted.filter x.sameBudget).length ≤ x.limits.budget

/-- The reservations of a day are the admissions of that day. -/
def Reserved (s : ConsentLog) : Prop :=
  ∀ installationId day,
    (reservationsOf s.journal installationId day).map (fun r => (r.spaceId, r.budgetId)) =
      (s.admitted.filter fun x => x.installationId == installationId && x.day == day).map
        fun x => (x.spaceId, x.budgetId)

theorem length_reserved {l : List Reservation} {l' : List Admission}
    (h : l.map (fun r => (r.spaceId, r.budgetId)) = l'.map fun x => (x.spaceId, x.budgetId))
    (P : String × String → Bool) :
    (l.filter fun r => P (r.spaceId, r.budgetId)).length =
      (l'.filter fun x => P (x.spaceId, x.budgetId)).length := by
  have hfilter := congrArg (fun pairs => (pairs.filter P).length) h
  rw [filter_map, filter_map, length_map, length_map] at hfilter
  exact hfilter

variable {s : ConsentLog}

theorem within_of_quota (hs : Reserved s) {x : Admission}
    (hspace : x.spaceId = access.scope.spaceId) (hbudget : x.budgetId = access.scope.budgetId)
    (h : withinQuota access (reservationsOf s.journal x.installationId x.day) x.limits = true) :
    x.Within (s.admitted ++ [x]) := by
  have hsame := hs x.installationId x.day
  unfold withinQuota at h
  rw [and_eq_true, and_eq_true, decide_eq_true_eq, decide_eq_true_eq,
    decide_eq_true_eq] at h
  obtain ⟨⟨hinstallation, hspaces⟩, hbudgets⟩ := h
  have hall := length_reserved hsame fun _ => true
  rw [length_reserved hsame fun p => p.1 == access.scope.spaceId] at hspaces
  rw [length_reserved hsame fun p => p.1 == access.scope.spaceId && p.2 == access.scope.budgetId]
    at hbudgets
  rw [filter_true, filter_true] at hall
  rw [hall] at hinstallation
  rw [filter_filter, ← hspace] at hspaces
  rw [filter_filter, ← hspace, ← hbudget] at hbudgets
  have hday : x.sameDay x = true := by simp [Admission.sameDay]
  have hspace' : x.sameSpace x = true := by simp [Admission.sameSpace, hday]
  have hbudget' : x.sameBudget x = true := by simp [Admission.sameBudget, hspace']
  refine ⟨?_, ?_, ?_⟩
  · rw [filter_append, length_append, filter_cons, if_pos hday]
    exact hinstallation
  · rw [filter_append, length_append, filter_cons, if_pos hspace']
    refine lt_of_eq_of_lt (congrArg List.length (filter_congr fun y _ => ?_)) hspaces
    unfold Admission.sameSpace Admission.sameDay
    rw [Bool.and_comm]
  · rw [filter_append, length_append, filter_cons, if_pos hbudget']
    refine lt_of_eq_of_lt (congrArg List.length (filter_congr fun y _ => ?_)) hbudgets
    unfold Admission.sameBudget Admission.sameSpace Admission.sameDay
    rw [Bool.and_assoc, Bool.and_comm]

/-! ## The invariant -/

structure ConsentSound (host : InferenceHost) (s : ConsentLog) : Prop where
  course : ∀ scope actorId id, Course host.toHost (eventsOf s.journal scope actorId id)
  parsed : ∀ scope actorId, ∀ p ∈ previewsOf s.journal scope actorId, p.parse host = .ok ()
  named : ∀ scope actorId, ∀ p ∈ previewsOf s.journal scope actorId,
    ∃ k < s.made, p.id = host.uuid k
  reserved : Reserved s
  within : ∀ earlier x later, s.admitted = earlier ++ x :: later → x.Within (earlier ++ [x])

theorem consentSound_empty : ConsentSound host ConsentLog.empty where
  course _ _ _ := .none
  parsed _ _ _ hp := absurd hp not_mem_nil
  named _ _ _ hp := absurd hp not_mem_nil
  reserved _ _ := rfl
  within _ _ _ h := absurd h.symm (append_ne_nil_of_right_ne_nil _ (cons_ne_nil _ _))

theorem ConsentSound.other (h : ConsentSound host s) {row : InferenceRow}
    (hpreview : ∀ scope actorId, row.previewOf scope actorId = none)
    (hquota : ∀ installationId date, row.reservationOf installationId date = none) :
    ConsentSound host { s with journal := s.journal ++ [row] } := by
  have hpreviews : ∀ scope actorId,
      previewsOf (s.journal ++ [row]) scope actorId = previewsOf s.journal scope actorId := by
    intro scope actorId
    rw [previewsOf_append, hpreview]
    exact append_nil _
  refine ⟨fun scope actorId id => ?_, fun scope actorId => ?_, fun scope actorId => ?_,
    fun installationId day => ?_, h.within⟩
  · unfold eventsOf
    rw [hpreviews]
    exact h.course scope actorId id
  · rw [hpreviews]
    exact h.parsed scope actorId
  · rw [hpreviews]
    exact h.named scope actorId
  · rw [reservationsOf_append, hquota]
    refine Eq.trans ?_ (h.reserved installationId day)
    exact congrArg _ (append_nil _)

theorem ConsentSound.later (h : ConsentSound host s) :
    ConsentSound host { s with made := s.made + 1 } :=
  ⟨h.course, h.parsed, fun scope actorId p hp => by
    obtain ⟨k, hk, hid⟩ := h.named scope actorId p hp
    exact ⟨k, hk.trans (Nat.lt_succ_self _), hid⟩, h.reserved, h.within⟩

theorem ConsentSound.preview (h : ConsentSound host s) {scope : EvidenceScope}
    {actorId : String} (hparse : q.parse host = .ok ())
    (hnamed : ∃ k < s.made, q.id = host.uuid k)
    (hcourse : Course host.toHost (eventsOf s.journal scope actorId q.id ++ [q])) :
    ConsentSound host { s with journal := s.journal ++ [.preview scope actorId q] } := by
  have hpreviews : ∀ scope' actorId', previewsOf (s.journal ++ [.preview scope actorId q]) scope'
      actorId' = previewsOf s.journal scope' actorId' ++
        if scope = scope' ∧ actorId = actorId' then [q] else [] := by
    intro scope' actorId'
    rw [previewsOf_append]
    congr 1
    unfold InferenceRow.previewOf
    dsimp only
    split <;> rfl
  have hmem : ∀ {scope' actorId'} {P : Preview → Prop}, P q →
      (∀ p ∈ previewsOf s.journal scope' actorId', P p) →
        ∀ p ∈ previewsOf (s.journal ++ [.preview scope actorId q]) scope' actorId', P p := by
    intro scope' actorId' P hq hold p hp
    rw [hpreviews] at hp
    rcases mem_append.mp hp with hp | hp
    · exact hold p hp
    · split at hp
      · rwa [mem_singleton.mp hp]
      · exact absurd hp not_mem_nil
  refine ⟨fun scope' actorId' id => ?_, fun scope' actorId' => hmem hparse (h.parsed scope' actorId'),
    fun scope' actorId' => hmem hnamed (h.named scope' actorId'), fun installationId day => ?_,
    h.within⟩
  · unfold eventsOf
    rw [hpreviews, filter_append]
    split
    · rename_i hof
      obtain ⟨rfl, rfl⟩ := hof
      by_cases hid : q.id = id
      · subst hid
        rw [filter_cons, if_pos (beq_self_eq_true _)]
        exact hcourse
      · rw [filter_cons, if_neg (by simpa using hid), filter_nil, append_nil]
        exact h.course scope actorId id
    · rw [filter_nil, append_nil]
      exact h.course scope' actorId' id
  · rw [reservationsOf_append]
    refine Eq.trans ?_ (h.reserved installationId day)
    exact congrArg _ (append_nil _)

theorem ConsentSound.follow (h : ConsentSound host s) {id : String}
    (hfind : findEvent s.journal access (fun p => p.id == id) = some p)
    (hfollows : Follows host.toHost p q) (hparse : q.parse host = .ok ()) :
    ConsentSound host
      { s with journal := s.journal ++ [.preview access.scope access.actorId q] } := by
  obtain ⟨hlast, hid, hmem⟩ := getLast?_of_findEvent hfind
  refine h.preview hparse ?_ ?_
  · obtain ⟨k, hk, hk'⟩ := h.named _ _ p hmem
    exact ⟨k, hk, hfollows.id_eq.trans hk'⟩
  · rw [hfollows.id_eq, hid]
    exact (h.course _ _ id).snoc hlast hfollows

theorem ConsentSound.created (h : ConsentSound host s) {scope : EvidenceScope}
    {actorId : String} (hid : p.id = host.uuid s.made) (hstatus : p.status = .preview)
    (hparse : p.parse host = .ok ()) :
    ConsentSound host
      { s with journal := s.journal ++ [.preview scope actorId p], made := s.made + 1 } := by
  refine h.later.preview hparse ⟨s.made, Nat.lt_succ_self _, hid⟩ ?_
  have hnone : eventsOf s.journal scope actorId p.id = [] := by
    unfold eventsOf
    rw [filter_eq_nil_iff]
    intro q hq hqid
    obtain ⟨k, hk, hk'⟩ := h.named scope actorId q hq
    rw [beq_iff_eq, hk', hid] at hqid
    exact absurd (host.uuid_injective hqid) (Nat.ne_of_lt hk)
  dsimp only
  rw [hnone]
  exact .created p hstatus

theorem ConsentSound.reserve (h : ConsentSound host s)
    {x : Admission} (at_ : String) (hspace : x.spaceId = access.scope.spaceId)
    (hbudget : x.budgetId = access.scope.budgetId)
    (hquota : withinQuota access (reservationsOf s.journal x.installationId x.day) x.limits =
      true) :
    ConsentSound host
      { s with
        journal := s.journal ++ [.quota x.installationId x.day
          { spaceId := access.scope.spaceId, budgetId := access.scope.budgetId, at_ := at_ }]
        admitted := s.admitted ++ [x] } := by
  have hpreviews : ∀ scope actorId, previewsOf (s.journal ++ [.quota x.installationId x.day
      { spaceId := access.scope.spaceId, budgetId := access.scope.budgetId, at_ := at_ }]) scope
        actorId = previewsOf s.journal scope actorId := by
    intro scope actorId
    rw [previewsOf_append]
    exact append_nil _
  refine ⟨fun scope actorId id => ?_, fun scope actorId => ?_, fun scope actorId => ?_,
    fun installationId day => ?_, fun earlier y later hsplit => ?_⟩
  · unfold eventsOf
    rw [hpreviews]
    exact h.course scope actorId id
  · rw [hpreviews]
    exact h.parsed scope actorId
  · rw [hpreviews]
    exact h.named scope actorId
  · dsimp only
    rw [reservationsOf_append, filter_append, map_append, map_append,
      h.reserved installationId day]
    congr 1
    unfold InferenceRow.reservationOf
    dsimp only
    by_cases hof : x.installationId = installationId ∧ x.day = day
    · rw [if_pos hof, filter_cons, if_pos (by simp [hof.1, hof.2])]
      change [(access.scope.spaceId, access.scope.budgetId)] = [(x.spaceId, x.budgetId)]
      rw [hspace, hbudget]
    · rw [if_neg hof, filter_cons, if_neg (by simpa using hof)]
      rfl
  · -- the split is before the new admission, or at it
    dsimp only at hsplit
    rcases eq_nil_or_concat later with rfl | ⟨rest, z, rfl⟩
    · obtain ⟨rfl, hx⟩ := append_inj' hsplit rfl
      obtain rfl := singleton_inj.mp hx
      exact within_of_quota h.reserved hspace hbudget hquota
    · have hsplit' : s.admitted ++ [x] = (earlier ++ y :: rest) ++ [z] := by
        rw [hsplit]
        simp
      exact h.within earlier y rest (append_inj' hsplit' rfl).1

theorem ConsentSound.perform (h : ConsentSound host s) (call : InferenceCall) :
    ConsentSound host (s.perform host call) := by
  cases call with
  | updatePolicy access input =>
    unfold ConsentLog.perform
    dsimp only
    cases hupdate : updatePolicy host s.journal access input with
    | error e => exact h
    | ok journal =>
      obtain ⟨spaceId, budgetId, event, rfl⟩ := updatePolicy_ok hupdate
      exact h.other (fun _ _ => rfl) fun _ _ => rfl
  | create reader access input installation =>
    unfold ConsentLog.perform ConsentLog.after
    dsimp only
    cases hcreate : createPreview host reader s.journal access input installation
        (host.uuid s.made) with
    | error e => exact h.later
    | ok r =>
      obtain ⟨journal, p⟩ := r
      obtain ⟨hid, hstatus, hparse, rfl⟩ := createPreview_ok hcreate
      exact h.created hid hstatus hparse
  | consume reader access ref installation =>
    unfold ConsentLog.perform
    dsimp only
    cases hconsume : consumePreview host reader s.journal access ref installation with
    | error e => exact h
    | ok r =>
      obtain ⟨journal, q⟩ := r
      obtain ⟨p, policy, hfind, hstatus, hlive, ⟨now, hnow⟩, -, hpolicy, -, -, hquota, rfl, hparse,
        rfl⟩ := consumePreview_ok hconsume
      have hreserved := h.reserve (x := ⟨p.installationId, dayOf access, access.scope.spaceId,
        access.scope.budgetId, policy.limits⟩) access.now rfl rfl hquota
      have hparsed := h.parsed _ _ p (getLast?_of_findEvent hfind).2.2
      have hfind' : findEvent (s.journal ++ [.quota p.installationId (dayOf access)
          { spaceId := access.scope.spaceId, budgetId := access.scope.budgetId
            at_ := access.now }]) access (fun p => p.id == ref.previewId) = some p := by
        unfold findEvent at hfind ⊢
        rw [previewsOf_append, show InferenceRow.previewOf access.scope access.actorId
          (.quota p.installationId (dayOf access)
            { spaceId := access.scope.spaceId, budgetId := access.scope.budgetId
              at_ := access.now }) = none from rfl, Option.toList_none, append_nil]
        exact hfind
      have hkept := hreserved.follow hfind' (.dispatched access.now hstatus
        (unexpired_of_before hnow hparsed hlive)) hparse
      have hadmission : admission host s.journal access installation
          { p with status := .dispatched, at_ := access.now } = some _ := admission_eq hpolicy
      dsimp only at hkept ⊢
      rw [hadmission]
      rw [append_assoc] at hkept
      exact hkept
  | finish reader access ref result installation =>
    unfold ConsentLog.perform ConsentLog.after
    dsimp only
    cases hfinish : finishDispatch host reader s.journal access ref result installation with
    | error e => exact h
    | ok r =>
      obtain ⟨journal, q⟩ := r
      obtain ⟨p, policy, until_, hfind, hstatus, hlive, ⟨now, hnow⟩, -, -, -, -, rfl, hparse, rfl⟩ :=
        finishDispatch_ok hfinish
      have hparsed := h.parsed _ _ p (getLast?_of_findEvent hfind).2.2
      exact h.follow hfind (.completed access.now until_ result hstatus
        (unexpired_of_before hnow hparsed hlive)) hparse
  | fail access previewId payloadHash code =>
    unfold ConsentLog.perform ConsentLog.after
    dsimp only
    cases hfail : failDispatch host s.journal access previewId payloadHash code with
    | error e => exact h
    | ok r =>
      obtain ⟨journal, q⟩ := r
      obtain ⟨p, hfind, hfollows, hparse, rfl⟩ := failDispatch_ok hfail
      exact h.follow hfind hfollows hparse
  | withdraw access previewId payloadHash withdrawal =>
    unfold ConsentLog.perform ConsentLog.after
    dsimp only
    cases hwithdraw : withdrawPreview host s.journal access previewId payloadHash withdrawal with
    | error e => exact h
    | ok r =>
      obtain ⟨journal, q⟩ := r
      obtain ⟨p, hfind, hfollows, hparse, rfl⟩ := withdrawPreview_ok hwithdraw
      exact h.follow hfind hfollows hparse
  | lookup reader access bindingHash payloadHash installation => exact h
  | other => exact h.other (fun _ _ => rfl) fun _ _ => rfl

theorem ConsentSound.run (h : ConsentSound host s) (calls : List InferenceCall) :
    ConsentSound host (s.run host calls) := by
  induction calls generalizing s with
  | nil => exact h
  | cons call calls ih => exact ih (h.perform call)

/-! ## Single use -/

theorem Course.ended {r : List Preview} (hl : Course h (l ++ p :: r))
    (hp : p.status = .failed ∨ p.status.withdrawn = true) :
    ∀ q ∈ r, q.status ≠ .dispatched ∧ q.status ≠ .completed := by
  intro q hq
  have hlt := rel_of_pairwise_cons (pairwise_append.mp hl.pairwise).2.1 hq
  have hend : 2 ≤ p.status.stage := by
    cases hstatus : p.status with
    | preview | dispatched => rw [hstatus] at hp; simp [PreviewStatus.withdrawn] at hp
    | _ => decide
  constructor <;>
  · intro hstatus
    rw [hstatus] at hlt
    exact absurd (hend.trans_lt hlt) (by decide)

theorem Course.not_withdrawn (hl : Course h l)
    (hlast : l.getLast? = some p) (hp : p.status = .completed) :
    ∀ q ∈ l, q.status.withdrawn = false := by
  obtain ⟨l', rfl⟩ := getLast?_eq_some_iff.mp hlast
  intro q hq
  rcases mem_append.mp hq with hq | hq
  · have hlt := (pairwise_append.mp hl.pairwise).2.2 q hq p (mem_singleton_self p)
    rw [hp] at hlt
    cases hstatus : q.status with
    | rejected | revoked => rw [hstatus] at hlt; exact absurd hlt (by decide)
    | _ => rfl
  · rw [mem_singleton.mp hq, hp]
    rfl

theorem lookupResult_ok {bindingHash : String} {payloadHash : Option String}
    (h : lookupResult host reader journal access bindingHash payloadHash installation =
      .ok (some p)) :
    p.status = .completed ∧
      (eventsOf journal access.scope access.actorId p.id).getLast? = some p := by
  unfold lookupResult at h
  simp only [bind_ok] at h
  obtain ⟨_, -, _, -, _, -, h⟩ := h
  obtain ⟨hfind, hchecks⟩ := Option.filter_eq_some_iff.mp (ok.inj h)
  rw [and_eq_true, and_eq_true, beq_iff_eq] at hchecks
  have hfirst := find?_of_mem_firsts (mem_of_find?_eq_some hfind)
  rw [find?_reverse_eq] at hfirst
  refine ⟨hchecks.1.1, ?_⟩
  unfold eventsOf
  rw [← hfirst]
  exact congrArg List.getLast? (filter_congr fun q _ => rfl)

/-- A call acts on a preview of its own scope and actor that is unexpired, with the hashes and the
nonce of the call, under the policies the preview was granted for. -/
structure Granted (host : InferenceHost) (journal : List InferenceRow) (access : EvidenceAccess)
    (ref : PreviewRef) (installation : Option Installation) (p : Preview) : Prop where
  found : findEvent journal access (fun p => p.id == ref.previewId) = some p
  unexpired : Unexpired host.toHost access.now p.expiresAt
  payload : p.payloadHash = ref.payloadHash
  binding : p.bindingHash = ref.bindingHash
  nonce : p.nonce = ref.nonce
  policies : ∃ policy, policiesInForce host journal access p.provider installation = .ok policy ∧
    policy.revisions = p.policyRevisions ∧ policy.installationId = p.installationId

/-- What holds of the consents in a log. -/
structure ConsentKept (host : InferenceHost) (s : ConsentLog) : Prop where
  dispatched_once : ∀ scope actorId id, ((eventsOf s.journal scope actorId id).filter fun p =>
    decide (p.status = .dispatched)).length ≤ 1
  completed_once : ∀ scope actorId id, ((eventsOf s.journal scope actorId id).filter fun p =>
    decide (p.status = .completed)).length ≤ 1
  /-- A dispatch is of a preview as it was granted, and is admitted. -/
  dispatch : ∀ reader access ref installation journal q,
    consumePreview host reader s.journal access ref installation = .ok (journal, q) →
      ∃ p, Granted host s.journal access ref installation p ∧ p.status = .preview ∧
        q = { p with status := .dispatched, at_ := access.now } ∧
          (admission host s.journal access installation q).isSome
  /-- A completion is of the dispatch of its own preview. -/
  completion : ∀ reader access ref result installation journal q,
    finishDispatch host reader s.journal access ref result installation = .ok (journal, q) →
      ∃ p cacheUntil, Granted host s.journal access ref installation p ∧ p.status = .dispatched ∧
        q = { p with
          status := .completed
          at_ := access.now
          result := some result
          cacheUntil := some cacheUntil }
  /-- A failure or a withdrawal is the end. -/
  ended : ∀ scope actorId id l p r, eventsOf s.journal scope actorId id = l ++ p :: r →
    p.status = .failed ∨ p.status.withdrawn = true →
      ∀ q ∈ r, q.status ≠ .dispatched ∧ q.status ≠ .completed
  lookup : ∀ reader access bindingHash payloadHash installation p,
    lookupResult host reader s.journal access bindingHash payloadHash installation =
      .ok (some p) → p.status = .completed ∧
        ∀ q ∈ eventsOf s.journal access.scope access.actorId p.id, q.status.withdrawn = false
  /-- Each dispatch was within the limits in force when it was admitted. -/
  quota : ∀ earlier x later, s.admitted = earlier ++ x :: later → x.Within (earlier ++ [x])

theorem ConsentSound.kept (h : ConsentSound host s) : ConsentKept host s where
  dispatched_once scope actorId id := length_stage_le_one (h.course scope actorId id).pairwise _
  completed_once scope actorId id := length_stage_le_one (h.course scope actorId id).pairwise _
  dispatch reader access ref installation journal q hconsume := by
    obtain ⟨p, policy, hfind, hstatus, hlive, ⟨now, hnow⟩, ⟨hpayload, hbinding, hnonce⟩, hpolicy,
      hrevisions, hinstallation, -, rfl, -, -⟩ := consumePreview_ok hconsume
    have hparsed := h.parsed _ _ p (getLast?_of_findEvent hfind).2.2
    exact ⟨p, ⟨hfind, unexpired_of_before hnow hparsed hlive, hpayload, hbinding, hnonce,
      policy, hpolicy, hrevisions, hinstallation⟩, hstatus, rfl,
      Option.isSome_iff_exists.mpr ⟨_, admission_eq hpolicy⟩⟩
  completion reader access ref result installation journal q hfinish := by
    obtain ⟨p, policy, until_, hfind, hstatus, hlive, ⟨now, hnow⟩, ⟨hpayload, hbinding, hnonce⟩,
      hpolicy, hrevisions, hinstallation, hq, -, -⟩ := finishDispatch_ok hfinish
    have hparsed := h.parsed _ _ p (getLast?_of_findEvent hfind).2.2
    exact ⟨p, until_, ⟨hfind, unexpired_of_before hnow hparsed hlive, hpayload, hbinding, hnonce,
      policy, hpolicy, hrevisions, hinstallation⟩, hstatus, hq⟩
  ended scope actorId id l p r hsplit hp := by
    have hcourse := h.course scope actorId id
    rw [hsplit] at hcourse
    exact hcourse.ended hp
  lookup reader access bindingHash payloadHash installation p hlookup := by
    obtain ⟨hstatus, hlast⟩ := lookupResult_ok hlookup
    exact ⟨hstatus, (h.course _ _ p.id).not_withdrawn hlast hstatus⟩
  quota := h.within

/-- **Consent is used once**: after any calls in any order, no preview was dispatched or completed
twice, nothing was completed after a failure or a withdrawal, a call is granted only what its
preview was, and every dispatch was within the quota. -/
theorem consent_single_use (host : InferenceHost) (calls : List InferenceCall) :
    ConsentKept host (ConsentLog.empty.run host calls) :=
  (consentSound_empty.run calls).kept

end BalanceFrame.Archive
