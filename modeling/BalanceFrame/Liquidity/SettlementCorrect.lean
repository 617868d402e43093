import BalanceFrame.Liquidity.Settlement
import BalanceFrame.Liquidity.AllocationCorrect

/-!
# What a settlement proves

A settlement reads its evidence from the records of the request. `Side` is what one side of a leg
has to be: a record of the request, reconciled, imported, observed and occurred since the plan was
made, and not seen before. `Settles` is a leg with both sides.
-/

namespace BalanceFrame.Liquidity

open Library List Option Except

variable {request : TransferSettlementRequest} {created now : Instant} {s s' : Recorded}
  {leg : TransferLeg} {assigned events : List Event} {id reason : String} {e : Event}
  {candidates ids : List String} {r : TransferSettlementRecord}
  {valid : TransferSettlementRecord → TransferLeg → Bool} {legs : List TransferLeg}

/-! ## What a valid record is -/

/-- The record occurred between the plan and the evaluation. An import that only has a date occurred
on a day between theirs. -/
def OccurredWithin (created now : Instant) (r : TransferSettlementRecord) : Prop :=
  (∃ t, instant r.occurredAt = .ok t ∧ created ≤ t ∧ t ≤ now) ∨
    ((bytes r.occurredAt).length = 10 ∧ r.provenance = .actualImport ∧
      ∃ day, parseNaiveDate r.occurredAt = some day ∧ dateNaive created ≤ day ∧ day ≤ dateNaive now)

/-- A record that is evidence, compared with the baseline of its side. -/
structure Side (consumed : List String) (created now : Instant)
    (baseline : AccountPlanPrecondition) (r : TransferSettlementRecord) : Prop where
  account : r.accountId = baseline.accountId
  current : r.reversed = false
  independent : r.provenance ≠ .manualLedger
  imported : ∃ id, r.importedId = some id ∧ id ≠ ""
  paired : r.pairId ≠ ""
  observed : ∃ t, instant r.observedAt = .ok t ∧ created ≤ t ∧ t ≤ now
  occurred : OccurredWithin created now r
  fresh : ∀ id ∈ settlementEvidenceIds r,
    id ∉ consumed ∧ id ∉ baseline.baselineTransactionIds
  freshImport : ∀ id, r.importedId = some id → id ∉ baseline.baselineTransactionIds
  freshReference : ∀ id, r.providerReference = some id → id ∉ baseline.baselineTransactionIds

/-- **Both sides of a leg**, as two records of one pair. -/
structure Settles (request : TransferSettlementRequest) (created now : Instant) (leg : TransferLeg)
    (sides : TransferSettlementRecord × TransferSettlementRecord) : Prop where
  recorded : sides.1 ∈ request.records ∧ sides.2 ∈ request.records
  pair : sides.1.pairId = sides.2.pairId
  reconciled : sides.1.reconciled = true ∧ sides.2.reconciled = true
  accounts : sides.1.accountId = leg.sourceAccountId ∧ sides.2.accountId = leg.destinationAccountId
  currencies : sides.1.amount.currency = leg.amount.currency ∧
    sides.2.amount.currency = leg.amount.currency
  positive : 0 < (leg.amount.minorUnits : Int)
  debit : (sides.1.amount.minorUnits : Int) = -(leg.amount.minorUnits : Int)
  credit : (sides.2.amount.minorUnits : Int) = leg.amount.minorUnits
  source : Side request.consumedEvidenceIds created now leg.sourceBefore sides.1
  destination : Side request.consumedEvidenceIds created now leg.destinationBefore sides.2

theorem chronology_spec (h : settlementChronology r created now = true) :
    (∃ t, instant r.observedAt = .ok t ∧ created ≤ t ∧ t ≤ now) ∧ OccurredWithin created now r := by
  unfold settlementChronology at h
  cases hobs : instant r.observedAt with
  | error e =>
    rw [hobs] at h
    exact absurd h (by simp)
  | ok observed =>
    simp only [hobs] at h
    split at h
    · exact absurd h (by simp)
    · rename_i hwithin
      rw [not_or, not_lt, not_lt] at hwithin
      refine ⟨⟨observed, rfl, hwithin⟩, ?_⟩
      split at h
      · rename_i hdate
        -- a bare date: the day lies between the days of plan and evaluation
        unfold dateOnlyChronology at h
        rw [Bool.and_eq_true] at h
        obtain ⟨-, h⟩ := h
        cases hday : parseNaiveDate r.occurredAt with
        | none =>
          rw [hday] at h
          exact absurd h (by simp)
        | some day =>
          simp only [hday, Bool.and_eq_true, decide_eq_true_eq] at h
          exact .inr ⟨hdate.1, hdate.2, day, hday, h.1.1, h.1.2⟩
      · cases hocc : instant r.occurredAt with
        | error e =>
          rw [hocc] at h
          exact absurd h (by simp)
        | ok occurred =>
          simp only [hocc, Bool.and_eq_true, decide_eq_true_eq] at h
          exact .inl ⟨occurred, hocc, h.1, h.2.trans hwithin.2⟩

theorem checkedAbs_eq_some {n k : I64} (h : n.checkedAbs = some k) : (k : Int) = |(n : Int)| := by
  unfold I64.checkedAbs at h
  split at h
  · rw [← some.inj h]
  · exact absurd h (by simp)

theorem nonempty_iff {text : Option String} : nonempty text = true ↔ ∃ id, text = some id ∧ id ≠ "" := by
  cases text <;> simp [nonempty]

theorem validRecord_spec {consumed : List String}
    (h : validRecord consumed created now r leg = true) :
    Side consumed created now (legBaseline r leg) r ∧
      r.amount.currency = leg.amount.currency ∧
      (leg.amount.minorUnits : Int) = |(r.amount.minorUnits : Int)| := by
  simp only [validRecord, Bool.and_eq_true, beq_iff_eq, Bool.not_eq_true', bne_iff_ne, ne_eq,
    nonempty_iff] at h
  obtain ⟨⟨⟨⟨⟨⟨⟨⟨⟨⟨⟨hacc, hcur⟩, habs⟩, hrev⟩, hman⟩, himp⟩, -⟩, hpair⟩, hids⟩, hbimp⟩, hbref⟩, hchron⟩ := h
  obtain ⟨hobs, hocc⟩ := chronology_spec hchron
  have hfresh : ∀ {text : Option String},
      text.any (legBaseline r leg).baselineTransactionIds.contains = false →
      ∀ id, text = some id → id ∉ (legBaseline r leg).baselineTransactionIds := by
    rintro text htext id rfl
    simpa using htext
  refine ⟨⟨hacc, hrev, hman, himp, hpair, hobs, hocc, fun id hid => ?_, hfresh hbimp, hfresh hbref⟩,
    hcur, checkedAbs_eq_some habs⟩
  have hno := any_eq_false.mp hids id hid
  rw [Bool.or_eq_true, not_or] at hno
  exact ⟨fun hin => hno.1 (contains_iff_mem.mpr hin),
    fun hin => hno.2 (contains_iff_mem.mpr hin)⟩

/-! ## Legs of a valid plan -/

/-- What `validate_plan` makes sure of for every leg. -/
structure LegOk (leg : TransferLeg) : Prop where
  positive : 0 < (leg.amount.minorUnits : Int)
  source : leg.sourceBefore.accountId = leg.sourceAccountId
  destination : leg.destinationBefore.accountId = leg.destinationAccountId

theorem checkLeg_legOk {currency : String} {sum sum' : I64}
    (h : checkLeg currency created sum leg = .ok sum') : LegOk leg := by
  simp only [checkLeg, bind_ok, reject_ok, Bool.or_eq_false_iff] at h
  obtain ⟨n, hn, -, ⟨⟨⟨hzero, -⟩, hsource⟩, hdestination⟩, -⟩ := h
  have hnonneg := units_nonneg hn
  obtain ⟨-, -, -, rfl⟩ := units_eq_ok.mp hn
  refine ⟨?_, by simpa using hsource, by simpa using hdestination⟩
  have hne : (leg.amount.minorUnits : Int) ≠ 0 := fun h0 => by
    rw [show leg.amount.minorUnits = 0 from I64.ext h0] at hzero
    exact absurd hzero (by simp)
  omega

theorem validatePlan_legs {plan : TransferPlan} {u : Unit} (h : validatePlan plan = .ok u) :
    ∀ leg ∈ plan.legs, LegOk leg := by
  simp only [validatePlan, bind_ok] at h
  obtain ⟨-, -, -, -, -, -, -, -, created, -, -, -, -, -, sum, hsum, -⟩ := h
  intro leg hleg
  obtain ⟨c, c', hc⟩ := foldlM_mem_ok hsum leg hleg
  exact checkLeg_legOk hc

/-! ## Events -/

/-- Every event holds candidates of one pair, a negative source and a destination that is not. -/
def Paired (records : List TransferSettlementRecord) (valid : TransferSettlementRecord → Bool)
    (pairs : SortedMap String Event) : Prop :=
  ∀ key e, pairs.get? key = some e →
    (∀ r, e.source = some r → r ∈ records ∧ valid r = true ∧ r.pairId = key ∧
      r.amount.isNegative = true) ∧
    ∀ r, e.destination = some r → r ∈ records ∧ valid r = true ∧ r.pairId = key ∧
      r.amount.isNegative = false

theorem paired_addCandidate {records : List TransferSettlementRecord}
    {valid : TransferSettlementRecord → Bool} {s s' : Candidates}
    (hr : r ∈ records) (h : Paired records valid s.pairs)
    (hstep : addCandidate valid s r = .ok s') : Paired records valid s'.pairs := by
  unfold addCandidate at hstep
  split at hstep
  · rw [← ok.inj hstep]
    exact h
  · rename_i hvalid
    have hv : valid r = true := by simpa using hvalid
    -- the event before, known to `h` or blank
    have hold : (∀ r', ((s.pairs.get? r.pairId).getD ⟨none, none⟩).source = some r' →
          r' ∈ records ∧ valid r' = true ∧ r'.pairId = r.pairId ∧ r'.amount.isNegative = true) ∧
        ∀ r', ((s.pairs.get? r.pairId).getD ⟨none, none⟩).destination = some r' →
          r' ∈ records ∧ valid r' = true ∧ r'.pairId = r.pairId ∧ r'.amount.isNegative = false := by
      cases hget : s.pairs.get? r.pairId with
      | none => simp
      | some e => exact h r.pairId e hget
    split at hstep
    all_goals
      rename_i hneg
      obtain ⟨-, hstep⟩ := rest_ok hstep
      rw [← ok.inj hstep]
      intro key e he
      rw [SortedMap.get?_insert] at he
      split at he
      · rename_i hkey
        rw [← some.inj he, ← hkey]
        refine ⟨fun r' hr' => ?_, fun r' hr' => ?_⟩
        all_goals
          first
          | exact hold.1 r' hr'
          | exact hold.2 r' hr'
          | (rw [← some.inj hr']
             exact ⟨hr, hv, rfl, by simpa using hneg⟩)
      · exact h key e he

/-- What a leg may be assigned: nothing, or an event of which every record is valid for it. -/
def Fits (valid : TransferSettlementRecord → TransferLeg → Bool) (legs : List TransferLeg)
    (events assigned : List Event) : Prop :=
  assigned.length = legs.length ∧
    ∀ (j : Nat) e, assigned[j]? = some e → e = ⟨none, none⟩ ∨
      (e ∈ events ∧ ∃ leg, legs[j]? = some leg ∧ e.fits valid leg = true)

theorem mem_matchArcs {i j : Nat} (h : .assign i j ∈ matchArcs valid legs events) :
    ∃ e leg, events[i]? = some e ∧ legs[j]? = some leg ∧ e.fits valid leg = true := by
  rcases mem_append.mp h with h | h
  · obtain ⟨⟨e, i'⟩, he, h⟩ := mem_flatMap.mp h
    have hget := mem_zipIdx_iff_getElem?.mp he
    unfold eventArcs at h
    rcases mem_cons.mp h with h | h
    · exact absurd h (by simp)
    · obtain ⟨⟨leg, j'⟩, hleg, h⟩ := mem_flatMap.mp h
      split at h
      · rename_i hfits
        obtain ⟨rfl, rfl⟩ : i = i' ∧ j = j' := by simpa using h
        exact ⟨e, leg, hget, mem_zipIdx_iff_getElem?.mp hleg, hfits⟩
      · exact absurd h not_mem_nil
  · obtain ⟨k, -, hk⟩ := mem_map.mp h
    exact absurd hk (by simp)

theorem fits_readAssignment (g : Graph)
    (h : Fits valid legs events assigned) {line : MatchArc × Nat}
    (hline : line.1 ∈ matchArcs valid legs events) :
    Fits valid legs events (readAssignment g events assigned line) := by
  unfold readAssignment
  cases harc : line.1 with
  | event i => exact h
  | leg j => exact h
  | assign i j =>
    dsimp only
    split
    · rw [harc] at hline
      obtain ⟨e, leg, he, hleg, hfits⟩ := mem_matchArcs hline
      refine ⟨by rw [length_set, h.1], fun k e' hk => ?_⟩
      rw [getElem?_set] at hk
      split at hk
      · rename_i hjk
        split at hk
        · rw [← hjk, ← some.inj hk, getD_eq_getElem?_getD, he]
          exact .inr ⟨mem_of_getElem? he, leg, hleg, hfits⟩
        · exact absurd hk (by simp)
      · exact h.2 k e' hk
    · exact h

theorem fits_assignEvents
    (h : assignEvents valid legs events = .ok assigned) : Fits valid legs events assigned := by
  simp only [assignEvents, bind_ok] at h
  obtain ⟨target, -, ⟨actual, g⟩, -, -, -, h⟩ := h
  rw [← ok.inj h]
  refine List.foldlRecOn _ _ ⟨length_replicate, fun j e hj => ?_⟩ fun a ha line hline => ?_
  · exact .inl (eq_of_mem_replicate (mem_of_getElem? hj))
  · exact fits_readAssignment g ha (of_mem_zip hline).1

/-! ## Recording -/

theorem recordId_eq_ok (h : recordId s id = .ok s') :
    id ∉ s.evidenceIds ∧ s' = { s with evidenceIds := s.evidenceIds ++ [id] } := by
  unfold recordId at h
  split at h
  · exact absurd h (by simp)
  · rename_i hno
    exact ⟨fun hin => hno (contains_iff_mem.mpr hin), (ok.inj h).symm⟩

theorem recordId_eq_error (h : recordId s id = .error (reason, s')) : id ∈ s.evidenceIds ∧ s' = s := by
  unfold recordId at h
  split at h
  · rename_i hin
    obtain ⟨-, rfl⟩ := Prod.mk.inj (Except.error.inj h)
    exact ⟨contains_iff_mem.mp hin, rfl⟩
  · exact absurd h (by simp)

theorem recordIds_eq_ok :
    ∀ {ids : List String} {s s' : Recorded}, ids.foldlM recordId s = .ok s' →
      s' = { s with evidenceIds := s.evidenceIds ++ ids } ∧
        (s.evidenceIds.Nodup → s'.evidenceIds.Nodup)
  | [], s, s', h => by
    rw [foldlM_nil, pure_ok] at h
    cases h
    exact ⟨by rw [append_nil], id⟩
  | x :: ids, s, s', h => by
    obtain ⟨t, ht, h⟩ := foldlM_cons_ok.mp h
    obtain ⟨hx, rfl⟩ := recordId_eq_ok ht
    obtain ⟨rfl, hnd⟩ := recordIds_eq_ok h
    refine ⟨by simp, fun hs => hnd ?_⟩
    rw [nodup_append]
    refine ⟨hs, by simp, fun a ha b hb => ?_⟩
    rw [mem_singleton.mp hb]
    exact fun hab => hx (hab ▸ ha)

theorem recordIds_eq_error (h : ids.foldlM recordId s = .error (reason, s')) :
    (∀ id ∈ s'.evidenceIds, id ∈ s.evidenceIds ∨ id ∈ ids) ∧ s'.evidenceIds ≠ [] := by
  obtain ⟨before, id, after, t, rfl, ht, hfail⟩ := foldlM_error h
  obtain ⟨hin, rfl⟩ := recordId_eq_error hfail
  obtain ⟨rfl, -⟩ := recordIds_eq_ok ht
  refine ⟨fun x hx => ?_, ne_nil_of_mem hin⟩
  rcases mem_append.mp hx with hx | hx
  · exact .inl hx
  · exact .inr (mem_append_left _ hx)

/-- Both sides of an event are there and reconciled. -/
def Event.reconciled (e : Event) : Bool :=
  e.source.any (·.reconciled) && e.destination.any (·.reconciled)

theorem ids_eq_nil : e.ids = [] ↔ e = ⟨none, none⟩ := by
  rcases e with ⟨_ | s, _ | d⟩ <;> simp [Event.ids, settlementEvidenceIds]

/-- What a recorded leg adds. -/
structure LegRecorded (s s' : Recorded) (e : Event) : Prop where
  ids : s'.evidenceIds = s.evidenceIds ++ e.ids
  once : s.evidenceIds.Nodup → s'.evidenceIds.Nodup
  reconciled : s'.allReconciled = (s.allReconciled && e.reconciled)

theorem judgeLeg_reconciled (request : TransferSettlementRequest) (candidates : List String)
    (leg : TransferLeg) (e : Event) (s : Recorded) :
    (judgeLeg request candidates leg e s).evidenceIds = s.evidenceIds ∧
      (judgeLeg request candidates leg e s).allReconciled = (s.allReconciled && e.reconciled) := by
  rcases e with ⟨_ | source, _ | destination⟩ <;> simp [judgeLeg, Event.reconciled]

theorem recordLeg_eq_ok {entry : (TransferLeg × Event) × Nat}
    (h : recordLeg request candidates s entry = .ok s') : LegRecorded s s' entry.1.2 := by
  obtain ⟨⟨leg, e⟩, index⟩ := entry
  unfold recordLeg at h
  simp only [bind_ok] at h
  obtain ⟨t, ht, debit, -, effects, -, h⟩ := h
  obtain ⟨rfl, hnd⟩ := recordIds_eq_ok ht
  rw [← ok.inj h]
  have hjudge := judgeLeg_reconciled request candidates leg e
  refine ⟨?_, fun hs => ?_, ?_⟩
  · rw [(hjudge _).1]
    split <;> rfl
  · rw [(hjudge _).1]
    have := hnd hs
    split <;> exact this
  · rw [(hjudge _).2]
    split <;> rfl

/-- **All legs recorded**: the evidence is the identities of all events, each once. -/
theorem recordLegs_spec : ∀ {l : List ((TransferLeg × Event) × Nat)} {s s' : Recorded},
      l.foldlM (recordLeg request candidates) s = .ok s' →
      s'.evidenceIds = s.evidenceIds ++ l.flatMap (fun entry => entry.1.2.ids) ∧
        (s.evidenceIds.Nodup → s'.evidenceIds.Nodup) ∧
        (s'.allReconciled = true → ∀ entry ∈ l, entry.1.2.reconciled = true)
  | [], s, s', h => by
    rw [foldlM_nil, pure_ok] at h
    cases h
    exact ⟨by simp, id, fun _ entry hentry => absurd hentry not_mem_nil⟩
  | entry :: l, s, s', h => by
    obtain ⟨t, ht, h⟩ := foldlM_cons_ok.mp h
    obtain ⟨hids, honce, hrec⟩ := recordLeg_eq_ok ht
    obtain ⟨hids', honce', hrec'⟩ := recordLegs_spec h
    have hflag : s'.allReconciled = true → t.allReconciled = true := by
      intro hs'
      refine foldlM_inv (P := fun u => u.allReconciled = true → t.allReconciled = true)
        (fun u u' x _ hu hstep hu' => hu ?_) id h hs'
      rw [(recordLeg_eq_ok hstep).reconciled, Bool.and_eq_true] at hu'
      exact hu'.1
    refine ⟨by rw [hids', hids, flatMap_cons, append_assoc], honce' ∘ honce,
      fun hs' x hx => ?_⟩
    rcases mem_cons.mp hx with rfl | hx
    · have := hflag hs'
      rw [hrec, Bool.and_eq_true] at this
      exact this.2
    · exact hrec' hs' x hx

/-- A failed leg: a repeated identity, after others were recorded; or no reservation, or an import
without identity, after the event's own were. -/
theorem recordLeg_eq_error {index : Nat}
    (h : recordLeg request candidates s ((leg, e), index) = .error (reason, s')) :
    ((∀ id ∈ s'.evidenceIds, id ∈ s.evidenceIds ∨ id ∈ e.ids) ∧ s'.evidenceIds ≠ []) ∨
      (s'.evidenceIds = s.evidenceIds ++ e.ids ∧
        (legDebit request.plan leg index = none ∨ e ≠ ⟨none, none⟩)) := by
  unfold recordLeg at h
  simp only [bind_eq_error] at h
  rcases h with h | ⟨t, ht, h⟩
  · exact .inl (recordIds_eq_error h)
  · right
    obtain ⟨rfl, -⟩ := recordIds_eq_ok ht
    rcases h with h | ⟨debit, hdebit, h | ⟨effects, -, h⟩⟩
    · cases hd : legDebit request.plan leg index with
      | none =>
        rw [hd] at h
        obtain ⟨-, rfl⟩ := Prod.mk.inj (Except.error.inj h)
        exact ⟨by split <;> rfl, .inl rfl⟩
      | some debit =>
        rw [hd] at h
        exact absurd h (by simp [recording, Except.mapError])
    · cases heff : legEffects leg e debit with
      | error reason' =>
        rw [heff] at h
        obtain ⟨-, rfl⟩ := Prod.mk.inj (Except.error.inj h)
        refine ⟨by split <;> rfl, .inr ?_⟩
        rintro rfl
        exact absurd heff (by simp [legEffects])
      | ok effects =>
        rw [heff] at h
        exact absurd h (by simp [recording, Except.mapError])
    · exact absurd h (by simp)

/-! ## The assignment of a request -/

/-- What an event assigned to a leg holds: records of one pair, valid for the leg. -/
structure EventOf (request : TransferSettlementRequest) (created now : Instant) (leg : TransferLeg)
    (e : Event) : Prop where
  source : ∀ r, e.source = some r → r ∈ request.records ∧ r.amount.isNegative = true ∧
    validRecord request.consumedEvidenceIds created now r leg = true
  destination : ∀ r, e.destination = some r → r ∈ request.records ∧ r.amount.isNegative = false ∧
    validRecord request.consumedEvidenceIds created now r leg = true
  pair : ∀ r r', e.source = some r → e.destination = some r' → r.pairId = r'.pairId

/-- What the checks before the legs are recorded establish. -/
structure Assigned (request : TransferSettlementRequest) (created now : Instant)
    (assigned : List Event) : Prop where
  evaluatedAt : instant request.evaluatedAt = .ok now
  createdAt : instant request.plan.evaluatedAt = .ok created
  legs : ∀ leg ∈ request.plan.legs, LegOk leg
  length : assigned.length = request.plan.legs.length
  events : ∀ (j : Nat) e, assigned[j]? = some e → e = ⟨none, none⟩ ∨
    ∃ leg, request.plan.legs[j]? = some leg ∧ EventOf request created now leg e

theorem settlementAssignment_spec (h : settlementAssignment request = .ok (assigned, ids)) :
    ∃ created now, Assigned request created now assigned := by
  simp only [settlementAssignment, bind_ok] at h
  obtain ⟨u, hplan, now, hnow, created, hcreated, -, -, -, -, -, -, -, -, candidates, hcand, -, -,
    assigned', hassign, h⟩ := h
  obtain ⟨rfl, -⟩ := Prod.mk.inj (ok.inj h)
  have hfits := fits_assignEvents hassign
  have hpaired : Paired request.records _ candidates.pairs :=
    foldlM_inv (fun s s' r hr hs hstep => paired_addCandidate hr hs hstep)
      (fun key e he => by simp at he) hcand
  refine ⟨created, now, hnow, hcreated, validatePlan_legs hplan, hfits.1, fun j e hj => ?_⟩
  rcases hfits.2 j e hj with rfl | ⟨hmem, leg, hleg, hfit⟩
  · exact .inl rfl
  · obtain ⟨key, hkey⟩ := SortedMap.mem_values_iff.mp hmem
    obtain ⟨hs, hd⟩ := hpaired key e hkey
    unfold Event.fits at hfit
    rw [Bool.and_eq_true] at hfit
    refine .inr ⟨leg, hleg, fun r hr => ?_, fun r hr => ?_, fun r r' hr hr' => ?_⟩
    · have hvalid := hfit.1
      rw [hr] at hvalid
      exact ⟨(hs r hr).1, (hs r hr).2.2.2, hvalid⟩
    · have hvalid := hfit.2
      rw [hr] at hvalid
      exact ⟨(hd r hr).1, (hd r hr).2.2.2, hvalid⟩
    · rw [(hs r hr).2.2.1, (hd r' hr').2.2.1]

theorem settles_of_event (hleg : LegOk leg) {s d : TransferSettlementRecord}
    (he : EventOf request created now leg ⟨some s, some d⟩)
    (hrec : s.reconciled = true ∧ d.reconciled = true) :
    Settles request created now leg (s, d) := by
  obtain ⟨hsmem, hneg, hsvalid⟩ := he.source s rfl
  obtain ⟨hdmem, hpos, hdvalid⟩ := he.destination d rfl
  obtain ⟨hsside, hscur, hsabs⟩ := validRecord_spec hsvalid
  obtain ⟨hdside, hdcur, hdabs⟩ := validRecord_spec hdvalid
  have hsbase : legBaseline s leg = leg.sourceBefore := by rw [legBaseline, if_pos hneg]
  have hdbase : legBaseline d leg = leg.destinationBefore := by
    rw [legBaseline, if_neg (by rw [hpos]; simp)]
  rw [hsbase] at hsside
  rw [hdbase] at hdside
  have hsneg : (s.amount.minorUnits : Int) < 0 := by simpa [Money.isNegative] using hneg
  have hdnonneg : 0 ≤ (d.amount.minorUnits : Int) := by simpa [Money.isNegative] using hpos
  rw [abs_of_neg hsneg] at hsabs
  rw [abs_of_nonneg hdnonneg] at hdabs
  exact ⟨⟨hsmem, hdmem⟩, he.pair s d rfl rfl, hrec,
    ⟨hsside.account.trans hleg.source, hdside.account.trans hleg.destination⟩, ⟨hscur, hdcur⟩,
    hleg.positive, by dsimp only; omega, by dsimp only; omega, hsside, hdside⟩

theorem fresh_of_event (he : EventOf request created now leg e)
    (hid : id ∈ e.ids) : id ∉ request.consumedEvidenceIds := by
  obtain ⟨r, hr, hid⟩ := mem_flatMap.mp hid
  rcases mem_append.mp hr with hr | hr
  · have hvalid := (he.source r (mem_toList.mp hr)).2.2
    exact ((validRecord_spec hvalid).1.fresh id hid).1
  · have hvalid := (he.destination r (mem_toList.mp hr)).2.2
    exact ((validRecord_spec hvalid).1.fresh id hid).1

/-! ## Settlement -/

theorem mem_sortTexts {texts : List String} {x : String} : x ∈ sortTexts texts ↔ x ∈ texts :=
  mem_sortOn id

theorem mem_entries (h : Assigned request created now assigned)
    {entry : (TransferLeg × Event) × Nat}
    (hmem : entry ∈ (request.plan.legs.zip assigned).zipIdx) :
    entry.1.1 ∈ request.plan.legs ∧
      (entry.1.2 = ⟨none, none⟩ ∨ EventOf request created now entry.1.1 entry.1.2) := by
  have hget := mem_zipIdx_iff_getElem?.mp hmem
  obtain ⟨hl, he⟩ := getElem?_zip_eq_some.mp hget
  refine ⟨mem_of_getElem? hl, ?_⟩
  rcases h.events entry.2 entry.1.2 he with heq | ⟨leg, hleg, hevent⟩
  · exact .inl heq
  · rw [hl] at hleg
    rw [some.inj hleg]
    exact .inr hevent

theorem recorded_fresh
    (h : id ∈ (settlement request).evidenceIds) : id ∉ request.consumedEvidenceIds := by
  unfold settlement at h
  simp only [mem_sortTexts] at h
  unfold settlementCheck at h
  cases hassign : settlementAssignment request with
  | error reason =>
    rw [hassign] at h
    exact absurd h not_mem_nil
  | ok result =>
    obtain ⟨assigned, ids⟩ := result
    obtain ⟨created, now, hspec⟩ := settlementAssignment_spec hassign
    have hfresh : ∀ entry ∈ (request.plan.legs.zip assigned).zipIdx, ∀ id ∈ entry.1.2.ids,
        id ∉ request.consumedEvidenceIds := by
      intro entry hentry id hid
      rcases (mem_entries hspec hentry).2 with hblank | hevent
      · rw [hblank] at hid
        exact absurd hid not_mem_nil
      · exact fresh_of_event hevent hid
    rw [hassign] at h
    simp only [recording, Except.mapError, ok_bind] at h
    cases hfold : (request.plan.legs.zip assigned).zipIdx.foldlM (recordLeg request ids)
        blankRecord with
    | ok s =>
      rw [hfold] at h
      have hids := (recordLegs_spec hfold).1
      change id ∈ s.evidenceIds at h
      rw [hids] at h
      obtain ⟨entry, hentry, hid⟩ := mem_flatMap.mp h
      exact hfresh entry hentry id hid
    | error failure =>
      obtain ⟨reason, s⟩ := failure
      rw [hfold] at h
      change id ∈ s.evidenceIds at h
      obtain ⟨before, ⟨⟨leg, e⟩, index⟩, after, t, hl, ht, hfail⟩ := foldlM_error hfold
      have hbefore : ∀ x ∈ t.evidenceIds, x ∉ request.consumedEvidenceIds := by
        intro x hx
        rw [(recordLegs_spec ht).1] at hx
        obtain ⟨entry, hentry, hid⟩ := mem_flatMap.mp hx
        exact hfresh entry (hl ▸ mem_append_left _ hentry) x hid
      have hown : ∀ x ∈ e.ids, x ∉ request.consumedEvidenceIds :=
        hfresh ((leg, e), index) (hl ▸ mem_append_right _ mem_cons_self)
      rcases recordLeg_eq_error hfail with ⟨hin, -⟩ | ⟨heq, -⟩
      · rcases hin id h with hx | hx
        · exact hbefore id hx
        · exact hown id hx
      · rw [heq] at h
        rcases mem_append.mp h with hx | hx
        · exact hbefore id hx
        · exact hown id hx

theorem exists_sides : ∀ {l : List (TransferLeg × Event)}, (∀ entry ∈ l, LegOk entry.1 ∧
        (entry.2 = ⟨none, none⟩ ∨ EventOf request created now entry.1 entry.2) ∧
        entry.2.reconciled = true) →
      ∃ sides : List (TransferSettlementRecord × TransferSettlementRecord),
        List.Forall₂ (fun entry => Settles request created now entry.1) l sides ∧
        List.Forall₂ (fun entry (p : TransferSettlementRecord × TransferSettlementRecord) =>
          entry.2 = ⟨some p.1, some p.2⟩) l sides
  | [], _ => ⟨[], List.Forall₂.nil, List.Forall₂.nil⟩
  | (leg, e) :: l, h => by
    obtain ⟨sides, hsides, hevents⟩ := exists_sides fun entry hentry =>
      h entry (mem_cons_of_mem _ hentry)
    obtain ⟨hleg, hevent, hrec⟩ := h (leg, e) mem_cons_self
    rcases e with ⟨_ | s, _ | d⟩
    · exact absurd hrec (by simp [Event.reconciled])
    · exact absurd hrec (by simp [Event.reconciled])
    · exact absurd hrec (by simp [Event.reconciled])
    · have hev : EventOf request created now leg ⟨some s, some d⟩ := by
        rcases hevent with hblank | hev
        · exact absurd hblank (by simp)
        · exact hev
      have hboth : s.reconciled = true ∧ d.reconciled = true := by
        simpa [Event.reconciled] using hrec
      exact ⟨(s, d) :: sides, List.Forall₂.cons (settles_of_event hleg hev hboth) hsides,
        List.Forall₂.cons rfl hevents⟩

theorem sublist_ids {l : List (TransferLeg × Event)}
    {sides : List (TransferSettlementRecord × TransferSettlementRecord)}
    (h : List.Forall₂ (fun entry (p : TransferSettlementRecord × TransferSettlementRecord) =>
      entry.2 = ⟨some p.1, some p.2⟩) l sides) :
    (sides.flatMap fun p => [p.1.id, p.2.id]).Sublist (l.flatMap fun entry => entry.2.ids) := by
  induction h with
  | nil => exact List.Sublist.slnil
  | @cons entry p l sides hentry _ ih =>
    rw [flatMap_cons, flatMap_cons, hentry]
    refine List.Sublist.append ?_ ih
    have hids : Event.ids ⟨some p.1, some p.2⟩ =
        settlementEvidenceIds p.1 ++ settlementEvidenceIds p.2 := by
      simp [Event.ids]
    rw [hids]
    exact List.Sublist.append
      (singleton_sublist.mpr mem_cons_self)
      (singleton_sublist.mpr mem_cons_self)

def verdict (check : Recording Recorded) : Bool :=
  match check with
  | .ok s => (settled s).confirmed
  | .error _ => false

def failedIds (check : Recording Recorded) : List String :=
  match check with
  | .ok _ => []
  | .error failure => failure.2.evidenceIds

theorem settlement_confirmed (request : TransferSettlementRequest) :
    (settlement request).confirmed = verdict (settlementCheck request) := by
  unfold settlement verdict
  cases settlementCheck request <;> rfl

theorem settlementCheck_of_assignment (h : settlementAssignment request = .ok (assigned, ids)) :
    settlementCheck request =
      (request.plan.legs.zip assigned).zipIdx.foldlM (recordLeg request ids) blankRecord := by
  unfold settlementCheck
  rw [h]
  rfl

theorem check_of_confirmed (h : (settlement request).confirmed = true) :
    ∃ assigned ids s, settlementAssignment request = .ok (assigned, ids) ∧
      (request.plan.legs.zip assigned).zipIdx.foldlM (recordLeg request ids) blankRecord = .ok s ∧
      s.allReconciled = true := by
  unfold settlement settlementCheck at h
  cases hassign : settlementAssignment request with
  | error reason =>
    rw [hassign] at h
    exact absurd h (by simp [recording, Except.mapError, unsettled])
  | ok result =>
    obtain ⟨assigned, ids⟩ := result
    rw [hassign] at h
    simp only [recording, Except.mapError, ok_bind] at h
    cases hfold : (request.plan.legs.zip assigned).zipIdx.foldlM (recordLeg request ids)
        blankRecord with
    | error failure =>
      rw [hfold] at h
      exact absurd h (by simp [unsettled])
    | ok s =>
      rw [hfold] at h
      simp only [settled, Bool.and_eq_true] at h
      exact ⟨assigned, ids, s, rfl, hfold, h.2⟩

theorem sides_of_confirmed (h : (settlement request).confirmed = true) :
    ∃ created now sides, instant request.plan.evaluatedAt = .ok created ∧
      instant request.evaluatedAt = .ok now ∧
      List.Forall₂ (Settles request created now) request.plan.legs sides ∧
      (sides.flatMap fun p => [p.1.id, p.2.id]).Nodup := by
  obtain ⟨assigned, ids, s, hassign, hfold, hrec⟩ := check_of_confirmed h
  obtain ⟨created, now, hspec⟩ := settlementAssignment_spec hassign
  obtain ⟨hids, honce, hall⟩ := recordLegs_spec hfold
  set l := request.plan.legs.zip assigned with hl
  have hmem : ∀ entry ∈ l, ∃ k, (entry, k) ∈ l.zipIdx := by
    intro entry hentry
    obtain ⟨k, hk⟩ := mem_iff_getElem?.mp hentry
    exact ⟨k, mem_zipIdx_iff_getElem?.mpr hk⟩
  have hentries : ∀ entry ∈ l, LegOk entry.1 ∧
      (entry.2 = ⟨none, none⟩ ∨ EventOf request created now entry.1 entry.2) ∧
      entry.2.reconciled = true := by
    intro entry hentry
    obtain ⟨k, hk⟩ := hmem entry hentry
    obtain ⟨hleg, hevent⟩ := mem_entries hspec hk
    exact ⟨hspec.legs _ hleg, hevent, hall hrec _ hk⟩
  obtain ⟨sides, hsides, hevents⟩ := exists_sides hentries
  have hlegs : l.map Prod.fst = request.plan.legs :=
    map_fst_zip (le_of_eq hspec.length.symm)
  refine ⟨created, now, sides, hspec.createdAt, hspec.evaluatedAt, ?_, ?_⟩
  · rw [← hlegs]
    exact forall₂_map_left_iff.mpr hsides
  · have hnodup := honce nodup_nil
    rw [hids] at hnodup
    refine (List.Nodup.sublist (sublist_ids hevents) ?_)
    have hflat : (l.zipIdx.flatMap fun entry => entry.1.2.ids) =
        l.flatMap fun entry => entry.2.ids := by
      conv_rhs => rw [← zipIdx_map_fst 0 l]
      rw [flatMap_map]
    rw [← hflat]
    exact hnodup

/-- **Settlement evidence is exclusive and genuine.** -/
theorem settlement_genuine :
    (∀ request : TransferSettlementRequest, (settlement request).confirmed = true →
      ∃ created now sides, instant request.plan.evaluatedAt = .ok created ∧
        instant request.evaluatedAt = .ok now ∧
        List.Forall₂ (Settles request created now) request.plan.legs sides ∧
        (sides.flatMap fun p => [p.1.id, p.2.id]).Nodup) ∧
    ∀ request request' : TransferSettlementRequest,
      (∀ id ∈ (settlement request).evidenceIds, id ∈ request'.consumedEvidenceIds) →
      ∀ id ∈ (settlement request').evidenceIds, id ∉ (settlement request).evidenceIds := by
  refine ⟨fun request h => sides_of_confirmed h, fun request request' hconsumed id hid hin => ?_⟩
  exact recorded_fresh hid (hconsumed id hin)

def seenAccount (id : String) : AccountPlanPrecondition where
  accountId := id
  recordedBalance := usd (.ofInt 100)
  signedHeadroom := usd (.ofInt 100)
  backingCapacity := usd (.ofInt 100)
  baselineTransactionIds := ["old"]

def savingsLeg (id : String) (n : I64) : TransferLeg where
  id := id
  sourceAccountId := "savings"
  destinationAccountId := "checking"
  amount := usd n
  requiredBy := "2026-01-03T00:00:00Z"
  estimatedArrival := "2026-01-02T00:00:00Z"
  timingRouteId := "route"
  sourceBefore := seenAccount "savings"
  destinationBefore := seenAccount "checking"
  sourceAfter := usd 0
  destinationAfter := usd 0

def savingsPlan (legs : List TransferLeg) (total : I64) : TransferPlan :=
  TransferPlan.hashed
    { draftPlan household "2026-01-08T00:00:00Z" "USD" total legs (identity household) with
      reservations := legs.map (legReservation "reserved") }

def importedRecord (id account pair : String) (n : I64) (reference : Option String) :
    TransferSettlementRecord where
  id := id
  accountId := account
  amount := usd n
  observedAt := "2026-01-02T12:00:00Z"
  occurredAt := "2026-01-02"
  importedId := some ("import-" ++ id)
  providerReference := reference
  pairId := pair
  reconciled := true
  reversed := false
  provenance := .actualImport

def savingsSettlement (legs : List TransferLeg) (total : I64)
    (records : List TransferSettlementRecord) : TransferSettlementRequest where
  plan := savingsPlan legs total
  evaluatedAt := "2026-01-03T00:00:00Z"
  records := records
  consumedEvidenceIds := []

def pairedSettlement : TransferSettlementRequest :=
  savingsSettlement [savingsLeg "leg-1" (.ofInt 10)] (.ofInt 10)
    [importedRecord "a" "savings" "pair" (.ofInt (-10)) none,
      importedRecord "b" "checking" "pair" (.ofInt 10) none]

theorem validatePlan_paired : validatePlan pairedSettlement.plan = .ok () := by
  unfold validatePlan pairedSettlement savingsSettlement savingsPlan
  rw [hashAndIdentity_hashed]
  decide +kernel

def pairedEvent : Event where
  source := some (importedRecord "a" "savings" "pair" (.ofInt (-10)) none)
  destination := some (importedRecord "b" "checking" "pair" (.ofInt 10) none)

theorem settlementAssignment_paired :
    settlementAssignment pairedSettlement = .ok ([pairedEvent], ["b", "a"]) := by
  unfold settlementAssignment
  rw [validatePlan_paired]
  decide +kernel

theorem settlement_genuine_paired :
    (settlement pairedSettlement).confirmed = true ∧
      ∃ created now sides, instant pairedSettlement.plan.evaluatedAt = .ok created ∧
        instant pairedSettlement.evaluatedAt = .ok now ∧
        List.Forall₂ (Settles pairedSettlement created now) pairedSettlement.plan.legs sides ∧
        (sides.flatMap fun p => [p.1.id, p.2.id]).Nodup := by
  have hconfirmed : (settlement pairedSettlement).confirmed = true := by
    rw [settlement_confirmed, settlementCheck_of_assignment settlementAssignment_paired]
    decide +kernel
  exact ⟨hconfirmed, settlement_genuine.1 pairedSettlement hconfirmed⟩

/-! ## Failed checks -/

/-- The result claims nothing. -/
def ClaimsNothing (r : TransferSettlementResult) : Prop :=
  r.confirmed = false ∧ r.evidenceIds = [] ∧ r.claimEffects = none ∧ r.sourceObserved = false ∧
    r.destinationObserved = false ∧ r.reconciled = false

/-- When the legs are recorded at all, a leg without its reservation comes before every leg that was
assigned a record. -/
def FailsEarly (request : TransferSettlementRequest) : Prop :=
  ∀ assigned ids, settlementAssignment request = .ok (assigned, ids) →
    ∃ k leg, request.plan.legs[k]? = some leg ∧ legDebit request.plan leg k = none ∧
      ∀ j ≤ k, ∀ e, assigned[j]? = some e → e = ⟨none, none⟩

theorem sortTexts_eq_nil {texts : List String} : sortTexts texts = [] ↔ texts = [] :=
  sortOn_eq_nil id

theorem claimsNothing_iff (h : settlementCheck request = .error (reason, s)) :
    ClaimsNothing (settlement request) ↔ s.evidenceIds = [] := by
  unfold ClaimsNothing settlement
  rw [h]
  simp only [unsettled, sortTexts_eq_nil, true_and, and_true]

theorem legDebit_of_recordLeg {index : Nat}
    (h : recordLeg request candidates s ((leg, e), index) = .ok s') :
    legDebit request.plan leg index ≠ none := by
  intro hnone
  unfold recordLeg at h
  simp only [bind_ok, hnone] at h
  obtain ⟨t, -, debit, hdebit, -⟩ := h
  exact absurd hdebit (by simp [recording, Except.mapError, orStop])

theorem getElem?_split {α : Type} {l : List α} {before after : List (α × Nat)} {a : α} {i : Nat}
    (h : l.zipIdx = before ++ (a, i) :: after) :
    i = before.length ∧ ∀ j b, (b, j) ∈ before → j < i := by
  have hi : l.zipIdx[before.length]? = some (a, i) := by
    rw [h, getElem?_append_right (le_refl _), Nat.sub_self]
    rfl
  rw [getElem?_zipIdx, map_eq_some_iff] at hi
  obtain ⟨a', -, heq⟩ := hi
  obtain ⟨-, hidx⟩ := Prod.mk.inj heq
  rw [Nat.zero_add] at hidx
  refine ⟨hidx.symm, fun j b hmem => ?_⟩
  obtain ⟨k, hk⟩ := mem_iff_getElem?.mp hmem
  have hlt := (List.getElem?_eq_some_iff.mp hk).1
  have hj : l.zipIdx[k]? = some (b, j) := by rw [h, getElem?_append_left hlt, hk]
  rw [getElem?_zipIdx, map_eq_some_iff] at hj
  obtain ⟨b', -, heq⟩ := hj
  obtain ⟨-, hjk⟩ := Prod.mk.inj heq
  omega

/-- **When a failed check claims nothing**: exactly when it fails before the first leg that was
assigned a record. -/
theorem settlement_claims_nothing (request : TransferSettlementRequest) (reason : String)
    (s : Recorded) (h : settlementCheck request = .error (reason, s)) :
    ClaimsNothing (settlement request) ↔ FailsEarly request := by
  rw [claimsNothing_iff h]
  unfold settlementCheck at h
  cases hassign : settlementAssignment request with
  | error reason' =>
    -- refused before any leg: nothing was recorded
    rw [hassign] at h
    obtain ⟨-, rfl⟩ := Prod.mk.inj (Except.error.inj h)
    refine ⟨fun _ assigned ids hok => ?_, fun _ => rfl⟩
    rw [hassign] at hok
    exact absurd hok (by simp)
  | ok result =>
    obtain ⟨assigned, ids⟩ := result
    rw [hassign] at h
    simp only [recording, Except.mapError, ok_bind] at h
    obtain ⟨created, now, hspec⟩ := settlementAssignment_spec hassign
    obtain ⟨before, ⟨⟨leg, e⟩, index⟩, after, t, hl, ht, hfail⟩ := foldlM_error h
    obtain ⟨hindex, hbefore⟩ := getElem?_split hl
    have htids : t.evidenceIds = before.flatMap fun entry => entry.1.2.ids := by
      rw [(recordLegs_spec ht).1]
      exact nil_append _
    have hget : ∀ {entry : (TransferLeg × Event) × Nat},
        entry ∈ before ++ ((leg, e), index) :: after →
        request.plan.legs[entry.2]? = some entry.1.1 ∧ assigned[entry.2]? = some entry.1.2 :=
      fun hentry => getElem?_zip_eq_some.mp (mem_zipIdx_iff_getElem?.mp (hl ▸ hentry))
    have hown := hget (mem_append_right _ mem_cons_self)
    constructor
    · intro hempty assigned' ids' hok
      obtain ⟨rfl, rfl⟩ := Prod.mk.inj (ok.inj (hassign.symm.trans hok))
      rcases recordLeg_eq_error hfail with ⟨-, hne⟩ | ⟨heq, hcause⟩
      · exact absurd hempty hne
      · rw [hempty, eq_comm, append_eq_nil_iff, ids_eq_nil] at heq
        refine ⟨index, leg, hown.1, hcause.resolve_right fun hne => hne heq.2, fun j hj e' he' => ?_⟩
        rcases lt_or_eq_of_le hj with hlt | rfl
        · -- an earlier leg: its entry lies in `before`
          rw [htids, flatMap_eq_nil_iff] at heq
          have hlt' : j < before.length := hindex ▸ hlt
          have hentry := getElem_mem hlt'
          have hat : ((request.plan.legs.zip assigned).zipIdx)[j]? = some before[j] := by
            rw [hl, getElem?_append_left hlt', getElem?_eq_getElem hlt']
          rw [getElem?_zipIdx, map_eq_some_iff] at hat
          obtain ⟨⟨leg', e''⟩, hzip, hpair⟩ := hat
          have hblank := ids_eq_nil.mp (heq.1 _ hentry)
          rw [← hpair] at hblank
          have hsome := (getElem?_zip_eq_some.mp hzip).2
          rw [he'] at hsome
          exact (some.inj hsome).trans hblank
        · rw [hown.2] at he'
          exact (some.inj he').symm.trans heq.2
    · intro hearly
      obtain ⟨k, leg', hleg', hdebit, hblank⟩ := hearly assigned ids hassign
      -- the fold did not get past leg `k`
      have hle : index ≤ k := by
        by_contra hgt
        have hlt : k < before.length := by omega
        have hentry := getElem_mem hlt
        obtain ⟨c, c', hc⟩ := foldlM_mem_ok ht _ hentry
        have hat : ((request.plan.legs.zip assigned).zipIdx)[k]? = some before[k] := by
          rw [hl, getElem?_append_left hlt, getElem?_eq_getElem hlt]
        rw [getElem?_zipIdx, map_eq_some_iff] at hat
        obtain ⟨⟨leg'', e''⟩, hzip, hpair⟩ := hat
        rw [← hpair] at hc
        have hsome := (getElem?_zip_eq_some.mp hzip).1
        rw [hleg'] at hsome
        obtain rfl : leg' = leg'' := some.inj hsome
        rw [Nat.zero_add] at hc
        exact legDebit_of_recordLeg hc hdebit
      have hte : t.evidenceIds = [] := by
        rw [htids, flatMap_eq_nil_iff]
        intro entry hentry
        have hj := hbefore entry.2 entry.1 hentry
        exact ids_eq_nil.mpr (hblank entry.2 (by omega) entry.1.2
          (hget (mem_append_left _ hentry)).2)
      have hee : e.ids = [] := ids_eq_nil.mpr (hblank index hle e hown.2)
      rcases recordLeg_eq_error hfail with ⟨hin, hne⟩ | ⟨heq, -⟩
      · refine absurd (eq_nil_iff_forall_not_mem.mpr fun id hid => ?_) hne
        have := hin id hid
        rw [hte, hee] at this
        simp at this
      · rw [heq, hte, hee]
        rfl

def sharedReference : TransferSettlementRequest :=
  savingsSettlement [savingsLeg "leg-1" (.ofInt 10), savingsLeg "leg-2" (.ofInt 20)] (.ofInt 30)
    [importedRecord "a" "savings" "pair-1" (.ofInt (-10)) (some "batch"),
      importedRecord "b" "savings" "pair-2" (.ofInt (-20)) (some "batch")]

theorem validatePlan_shared : validatePlan sharedReference.plan = .ok () := by
  unfold validatePlan sharedReference savingsSettlement savingsPlan
  rw [hashAndIdentity_hashed]
  decide +kernel

theorem settlementAssignment_shared :
    settlementAssignment sharedReference =
      .ok ([⟨sharedReference.records[0]?, none⟩, ⟨sharedReference.records[1]?, none⟩],
        ["b", "a"]) := by
  unfold settlementAssignment
  rw [validatePlan_shared]
  decide +kernel

theorem settlementCheck_shared :
    ∃ reason s, settlementCheck sharedReference = .error (reason, s) ∧ s.evidenceIds ≠ [] := by
  have hids : failedIds (settlementCheck sharedReference) ≠ [] := by
    rw [settlementCheck_of_assignment settlementAssignment_shared]
    decide +kernel
  cases hcheck : settlementCheck sharedReference with
  | ok s => exact absurd (by rw [hcheck]; rfl) hids
  | error failure => exact ⟨failure.1, failure.2, rfl, fun hnone => hids (by rw [hcheck]; exact hnone)⟩

theorem settlement_claims_evidence :
    ¬ ∀ (request : TransferSettlementRequest) (reason : String) (s : Recorded),
      settlementCheck request = .error (reason, s) → ClaimsNothing (settlement request) := by
  intro hall
  obtain ⟨reason, s, hcheck, hids⟩ := settlementCheck_shared
  exact hids ((claimsNothing_iff hcheck).mp (hall _ _ _ hcheck))

theorem settlement_claims_nothing_shared :
    ∃ reason s, settlementCheck sharedReference = .error (reason, s) ∧
      (ClaimsNothing (settlement sharedReference) ↔ FailsEarly sharedReference) := by
  obtain ⟨reason, s, hcheck, -⟩ := settlementCheck_shared
  exact ⟨reason, s, hcheck, settlement_claims_nothing _ reason s hcheck⟩

end BalanceFrame.Liquidity
