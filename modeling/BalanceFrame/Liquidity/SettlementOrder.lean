import BalanceFrame.Liquidity.SettlementCorrect
import BalanceFrame.Library.Salvage

/-!
# Settlement reads its records in any order

A request's records and consumed identities are collections: `Reordered` puts them in another order.
Each loop over the records only asks whether a key was met before and keeps it (`checkImport`, the
sides of a pair in `addCandidate`), so two of its steps may change places and the loop finds the
same in every order. The events then come by pair, and everything after reads the records and the
consumed identities by membership alone. A loop that fails has only one reason to give.
-/

namespace BalanceFrame.Liquidity

open Library

variable {r : TransferSettlementRecord} {valid : TransferSettlementRecord → Bool}
  {s t ids : List String} {request request' : TransferSettlementRequest}

/-- The same request with its records and consumed identities in another order. -/
structure Reordered (request request' : TransferSettlementRequest) : Prop where
  plan : request'.plan = request.plan
  evaluatedAt : request'.evaluatedAt = request.evaluatedAt
  records : request'.records.Perm request.records
  consumed : request'.consumedEvidenceIds.Perm request.consumedEvidenceIds

/-- Two lists with the same members. -/
def SameMembers (s t : List String) : Prop := ∀ x, x ∈ s ↔ x ∈ t

theorem SameMembers.contains (h : SameMembers s t) (x : String) : s.contains x = t.contains x := by
  rw [List.contains_eq_mem, List.contains_eq_mem, decide_eq_decide]
  exact h x

theorem SameMembers.cons (h : SameMembers s t) (x : String) : SameMembers (x :: s) (x :: t):= fun y => by
  rw [List.mem_cons, List.mem_cons, h y]

theorem sameMembers_swap (x y : String) (s : List String) :
    SameMembers (x :: y :: s) (y :: x :: s) := fun z => by
  simp only [List.mem_cons]
  tauto

/-! ## Identities -/

theorem uniqueFrom_reason : ∀ {seen : List String} {e : String}, uniqueFrom seen ids = .error e →
      e = "duplicate_or_empty_identity" := by
  induction ids with
  | nil =>
    intro seen e h
    cases h
  | cons id rest ih =>
    intro seen e h
    rcases bind_eq_error.mp h with h | ⟨_, _, h⟩
    · exact reject_reason h
    · exact ih h

theorem unique_perm {ids' : List String} (h : ids.Perm ids') : unique ids = unique ids' := by
  have hok : ∀ {u : Unit}, unique ids = .ok u ↔ unique ids' = .ok u := by
    intro u
    unfold unique
    rw [uniqueFrom_eq_ok, uniqueFrom_eq_ok, h.nodup_iff]
    simp only [h.mem_iff]
  cases hids : unique ids with
  | ok u => exact (hok.mp hids).symm
  | error e =>
    cases hids' : unique ids' with
    | ok u => rw [hok.mpr hids'] at hids; cases hids
    | error e' => rw [uniqueFrom_reason hids, uniqueFrom_reason hids']

/-! ## Imports -/

theorem checkImport_reason {seen : List String} {e : String}
    (h : checkImport seen r = .error e) : e = "duplicate_import_candidate" := by
  unfold checkImport at h
  split at h
  · cases h
  · rcases bind_eq_error.mp h with h | ⟨_, _, h⟩
    · exact reject_reason h
    · cases h

theorem checkImport_congr (r : TransferSettlementRecord)
    (h : SameMembers s t) : Agree SameMembers (checkImport s r) (checkImport t r) := by
  unfold checkImport
  cases r.importedId with
  | none => exact h
  | some id =>
    refine (Agree.reject (R := Eq) rfl (by rw [h.contains])).bind fun _ _ _ _ _ => ?_
    exact h.cons _

theorem checkImport_swap (s : List String) (a b : TransferSettlementRecord) :
    Agree SameMembers (checkImport s a >>= fun t => checkImport t b)
      (checkImport s b >>= fun t => checkImport t a) := by
  cases ha : a.importedId with
  | none =>
    have hpass : ∀ t, checkImport t a = .ok t := fun t => by simp [checkImport, ha]
    simp only [hpass, ok_bind]
    cases checkImport s b with
    | ok t => exact fun _ => Iff.rfl
    | error e => exact agree_error
  | some x =>
    cases hb : b.importedId with
    | none =>
      have hpass : ∀ t, checkImport t b = .ok t := fun t => by simp [checkImport, hb]
      simp only [hpass, ok_bind]
      cases checkImport s a with
      | ok t => exact fun _ => Iff.rfl
      | error e => exact agree_error
    | some y =>
      simp only [checkImport, ha, hb]
      generalize scopedIdentity "import" a x = i
      generalize scopedIdentity "import" b y = j
      by_cases hij : i = j
      · subst hij
        simp only [List.contains_cons, beq_self_eq_true, Bool.true_or, Bool.or_true, bind_assoc,
          pure_ok, ok_bind, reject_true]
        cases (x == "" || s.contains i) <;> cases (y == "" || s.contains i) <;> exact agree_error
      · have hcons : ∀ k l : String, k ≠ l → (k :: s).contains l = s.contains l := fun k l h => by
          rw [List.contains_cons, beq_false_of_ne (Ne.symm h), Bool.false_or]
        simp only [hcons i j hij, hcons j i (Ne.symm hij), bind_assoc, pure_ok, ok_bind]
        cases (x == "" || s.contains i) <;> cases (y == "" || s.contains j)
        · exact sameMembers_swap j i s
        · exact agree_error
        · exact agree_error
        · exact agree_error

theorem imports_reordered {records records' : List TransferSettlementRecord}
    (h : records'.Perm records) :
    Agree SameMembers (records'.foldlM checkImport []) (records.foldlM checkImport []) :=
  Agree.foldlM_perm (fun _ _ => Iff.rfl) (fun _ _ _ hst htu x => (hst x).trans (htu x))
    (fun _ _ r hst => checkImport_congr r hst) checkImport_swap h fun _ => Iff.rfl

/-! ## Candidates -/

/-- The event of a pair so far. -/
def Candidates.eventAt (s : Candidates) (pair : String) : Event :=
  (s.pairs.get? pair).getD { source := none, destination := none }

/-- One side of an event. -/
def Event.side (e : Event) (debit : Bool) : Option TransferSettlementRecord :=
  if debit then e.source else e.destination

/-- Put a record on its side. -/
def Event.place (e : Event) (r : TransferSettlementRecord) : Event :=
  if r.amount.isNegative then { e with source := some r } else { e with destination := some r }

theorem side_place (e : Event) (r : TransferSettlementRecord) (debit : Bool) :
    (e.place r).side debit = if r.amount.isNegative = debit then some r else e.side debit := by
  unfold Event.place Event.side
  cases r.amount.isNegative <;> cases debit <;> rfl

theorem place_comm (e : Event) {a b : TransferSettlementRecord}
    (h : a.amount.isNegative ≠ b.amount.isNegative) :
    (e.place a).place b = (e.place b).place a := by
  unfold Event.place
  cases ha : a.amount.isNegative <;> cases hb : b.amount.isNegative
  · exact absurd (ha.trans hb.symm) h
  · rfl
  · rfl
  · exact absurd (ha.trans hb.symm) h

/-- A candidate added to its pair. -/
def Candidates.put (s : Candidates) (r : TransferSettlementRecord) : Candidates where
  pairs := s.pairs.insert r.pairId ((s.eventAt r.pairId).place r)
  ids := r.id :: s.ids

/-- The side of a record is taken. -/
def Candidates.taken (s : Candidates) (r : TransferSettlementRecord) : Bool :=
  ((s.eventAt r.pairId).side r.amount.isNegative).isSome

theorem addCandidate_valid (h : valid r = true) (s : Candidates) : addCandidate valid s r =
      (reject (s.taken r) "duplicate_candidate" >>= fun _ => pure (s.put r)) := by
  unfold addCandidate Candidates.taken Candidates.put Event.side Event.place Candidates.eventAt
  rw [h]
  cases r.amount.isNegative <;> rfl

theorem addCandidate_invalid (h : valid r = false) (s : Candidates) : addCandidate valid s r = .ok s := by
  unfold addCandidate
  rw [h]
  rfl

theorem addCandidate_reason {s : Candidates} {e : String} (h : addCandidate valid s r = .error e) :
    e = "duplicate_candidate" := by
  cases hr : valid r with
  | false =>
    rw [addCandidate_invalid hr] at h
    cases h
  | true =>
    rw [addCandidate_valid hr] at h
    rcases bind_eq_error.mp h with h | ⟨_, _, h⟩
    · exact reject_reason h
    · cases h

/-- The same events, and the same candidates. -/
def SameCandidates (s t : Candidates) : Prop := s.pairs = t.pairs ∧ SameMembers s.ids t.ids

theorem addCandidate_congr {s t : Candidates}
    (r : TransferSettlementRecord) (h : SameCandidates s t) :
    Agree SameCandidates (addCandidate valid s r) (addCandidate valid t r) := by
  cases hr : valid r with
  | false =>
    rw [addCandidate_invalid hr, addCandidate_invalid hr]
    exact h
  | true =>
    have hevent : s.eventAt = t.eventAt := by
      funext pair
      unfold Candidates.eventAt
      rw [h.1]
    rw [addCandidate_valid hr, addCandidate_valid hr]
    refine (Agree.reject (R := Eq) rfl ?_).bind fun _ _ _ _ _ => ⟨?_, h.2.cons r.id⟩
    · unfold Candidates.taken
      rw [hevent]
    · unfold Candidates.put
      rw [hevent, h.1]

theorem eventAt_put (s : Candidates) (r : TransferSettlementRecord) (pair : String) :
    (s.put r).eventAt pair =
      if r.pairId = pair then (s.eventAt pair).place r else s.eventAt pair := by
  unfold Candidates.put Candidates.eventAt
  rw [SortedMap.get?_insert]
  by_cases h : r.pairId = pair
  · subst h
    rw [if_pos rfl, if_pos rfl]
    rfl
  · rw [if_neg h, if_neg h]

theorem taken_put (s : Candidates) (a b : TransferSettlementRecord) :
    (s.put a).taken b =
      (decide (a.pairId = b.pairId ∧ a.amount.isNegative = b.amount.isNegative) || s.taken b) := by
  unfold Candidates.taken
  rw [eventAt_put]
  by_cases hpair : a.pairId = b.pairId
  · rw [if_pos hpair, side_place]
    by_cases hside : a.amount.isNegative = b.amount.isNegative
    · simp [hpair, hside]
    · simp [hpair, hside]
  · simp [hpair]

theorem put_comm (s : Candidates) {a b : TransferSettlementRecord}
    (h : ¬ (a.pairId = b.pairId ∧ a.amount.isNegative = b.amount.isNegative)) :
    SameCandidates ((s.put a).put b) ((s.put b).put a) := by
  refine ⟨SortedMap.ext_get? fun pair => ?_, sameMembers_swap b.id a.id s.ids⟩
  have hput : ∀ (u : Candidates) (x y : TransferSettlementRecord),
      ((u.put x).put y).pairs.get? pair =
        if y.pairId = pair then some (((u.put x).eventAt y.pairId).place y)
        else if x.pairId = pair then some ((u.eventAt x.pairId).place x)
        else u.pairs.get? pair := by
    intro u x y
    unfold Candidates.put
    rw [SortedMap.get?_insert, SortedMap.get?_insert]
  rw [hput, hput]
  by_cases ha : a.pairId = pair
  · by_cases hb : b.pairId = pair
    · rw [if_pos hb, if_pos ha, eventAt_put, eventAt_put, if_pos (ha.trans hb.symm),
        if_pos (hb.trans ha.symm), ha, hb, place_comm]
      exact fun hside => h ⟨ha.trans hb.symm, hside⟩
    · rw [if_neg hb, if_pos ha, if_pos ha, eventAt_put, if_neg (fun heq => hb (heq.trans ha))]
  · by_cases hb : b.pairId = pair
    · rw [if_pos hb, if_neg ha, if_pos hb, eventAt_put, if_neg (fun heq => ha (heq.trans hb))]
    · rw [if_neg hb, if_neg ha, if_neg ha, if_neg hb]

theorem addCandidate_swap (valid : TransferSettlementRecord → Bool) (s : Candidates)
    (a b : TransferSettlementRecord) :
    Agree SameCandidates (addCandidate valid s a >>= fun t => addCandidate valid t b)
      (addCandidate valid s b >>= fun t => addCandidate valid t a) := by
  cases ha : valid a with
  | false =>
    simp only [addCandidate_invalid ha, ok_bind]
    cases addCandidate valid s b with
    | ok t => exact ⟨rfl, fun _ => Iff.rfl⟩
    | error e => exact agree_error
  | true =>
    cases hb : valid b with
    | false =>
      simp only [addCandidate_invalid hb, ok_bind]
      cases addCandidate valid s a with
      | ok t => exact ⟨rfl, fun _ => Iff.rfl⟩
      | error e => exact agree_error
    | true =>
      simp only [addCandidate_valid ha, addCandidate_valid hb, bind_assoc, pure_ok, ok_bind,
        taken_put]
      by_cases hsame : a.pairId = b.pairId ∧ a.amount.isNegative = b.amount.isNegative
      · have hsame' : b.pairId = a.pairId ∧ b.amount.isNegative = a.amount.isNegative :=
          ⟨hsame.1.symm, hsame.2.symm⟩
        rw [decide_eq_true hsame, decide_eq_true hsame', Bool.true_or, Bool.true_or]
        cases s.taken a <;> cases s.taken b <;> exact agree_error
      · have hsame' : ¬ (b.pairId = a.pairId ∧ b.amount.isNegative = a.amount.isNegative) :=
          fun h => hsame ⟨h.1.symm, h.2.symm⟩
        have hcomm := put_comm s hsame
        rw [decide_eq_false hsame, decide_eq_false hsame', Bool.false_or, Bool.false_or]
        cases s.taken a <;> cases s.taken b
        · exact hcomm
        · exact agree_error
        · exact agree_error
        · exact agree_error

theorem candidates_reordered (valid : TransferSettlementRecord → Bool)
    {records records' : List TransferSettlementRecord} (h : records'.Perm records)
    (s : Candidates) : Agree SameCandidates (records'.foldlM (addCandidate valid) s)
    (records.foldlM (addCandidate valid) s) :=
  Agree.foldlM_perm (fun _ => ⟨rfl, fun _ => Iff.rfl⟩)
    (fun _ _ _ hst htu => ⟨hst.1.trans htu.1, fun x => (hst.2 x).trans (htu.2 x)⟩)
    (fun _ _ r hst => addCandidate_congr r hst) (addCandidate_swap valid) h
    ⟨rfl, fun _ => Iff.rfl⟩

/-! ## The settlement -/

theorem validRecord_reordered {consumed consumed' : List String} (h : consumed'.Perm consumed)
    (created now : Instant) :
    validRecord consumed' created now = validRecord consumed created now := by
  have hmem : SameMembers consumed' consumed := fun _ => h.mem_iff
  funext r leg
  unfold validRecord
  simp only [hmem.contains]

/-- The same events for the legs, and the same candidates. -/
def SameAssignment (s t : List Event × List String) : Prop := s.1 = t.1 ∧ SameMembers s.2 t.2

theorem assignment_reordered (h : Reordered request request') :
    Alike SameAssignment (settlementAssignment request') (settlementAssignment request) := by
  unfold settlementAssignment
  rw [h.plan, h.evaluatedAt, unique_perm (h.records.map (·.id)), h.records.any_eq]
  refine (alike_eq.mpr rfl).bind fun _ _ _ => ?_
  refine (alike_eq.mpr rfl).bind fun now _ hnow => ?_
  refine (alike_eq.mpr rfl).bind fun created _ hcreated => ?_
  subst hnow hcreated
  refine (alike_eq.mpr rfl).bind fun _ _ _ => (alike_eq.mpr rfl).bind fun _ _ _ => ?_
  refine ((imports_reordered h.records).alike
    (fun _ => foldlM_reason fun _ _ _ => checkImport_reason)
    fun _ => foldlM_reason fun _ _ _ => checkImport_reason).bind fun _ _ _ => ?_
  refine (alike_eq.mpr rfl).bind fun _ _ _ => ?_
  rw [validRecord_reordered h.consumed]
  refine ((candidates_reordered _ h.records _).alike
    (fun _ => foldlM_reason fun _ _ _ => addCandidate_reason)
    fun _ => foldlM_reason fun _ _ _ => addCandidate_reason).bind fun s t hst => ?_
  rw [hst.1]
  refine (alike_eq.mpr rfl).bind fun _ _ _ => (alike_eq.mpr rfl).bind fun _ _ heq => ?_
  exact ⟨heq, hst.2⟩

theorem recordLeg_reordered
    (h : Reordered request request') {ids' : List String} (hids : SameMembers ids' ids) :
    recordLeg request' ids' = recordLeg request ids := by
  funext s entry
  unfold recordLeg judgeLeg mismatched
  simp only [h.plan, h.records.any_eq, hids.contains]

theorem settlementCheck_reordered
    (h : Reordered request request') : settlementCheck request' = settlementCheck request := by
  unfold settlementCheck recording
  rw [← alike_eq]
  refine ((assignment_reordered h).mapError _).bind fun p q hpq => ?_
  obtain ⟨assigned, ids⟩ := p
  obtain ⟨assigned', ids'⟩ := q
  obtain ⟨rfl, hids⟩ := hpq
  simp only [alike_eq, h.plan, recordLeg_reordered h hids]

/-- **Settlement does not depend on the order of its records** nor on that of the consumed
identities: the whole result is the same, with its evidence, its effects and its reasons. -/
theorem settlement_reordered {request request' : TransferSettlementRequest}
    (h : Reordered request request') : settlement request' = settlement request := by
  unfold settlement
  rw [settlementCheck_reordered h]

theorem settlement_reordered_paired :
    settlement { pairedSettlement with records := pairedSettlement.records.reverse } =
      settlement pairedSettlement :=
  settlement_reordered ⟨rfl, rfl, List.reverse_perm _, List.Perm.refl _⟩

end BalanceFrame.Liquidity
