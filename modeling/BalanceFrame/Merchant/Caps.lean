import BalanceFrame.Merchant.Billing

/-!
# Merchant research is billed within its caps

A `BillingLog` is the tables of merchant research with what has left them or cannot be read off
them: the attempts that `prune` deleted, the dispatches and the settlements.
-/

namespace BalanceFrame.Merchant

open Library List Bool

/-! ## Runs -/

structure BillingLog where
  store : MerchantStore
  /-- How often `randomUUID` was called. -/
  made : Nat
  /-- The attempts that were deleted. -/
  removed : List AttemptRow
  /-- The attempts that were dispatched. -/
  launches : List String
  /-- The settlements that were written. -/
  settlements : List (String × AttemptOutcome)

def BillingLog.start (restored : Option RestoredRow) (scopes : List ScopeRow)
    (policies : List Policy) : BillingLog where
  store := { restored := restored, scopes := scopes, policies := policies, attempts := [] }
  made := 0
  removed := []
  launches := []
  settlements := []

/-- The attempts that a step deletes. -/
def gone (s s' : MerchantStore) : List AttemptRow :=
  s.attempts.filter fun r => !s'.attempts.any fun r' => r'.id == r.id

/-- The attempt that a call dispatches. -/
def launched (s : MerchantStore) : MerchantCall → Option String
  | .dispatch a id token =>
    match s.dispatchAttempt a id token with
    | .ok (_, true) => some id
    | _ => none
  | _ => none

/-- The settlement that a call writes. -/
def written (s : MerchantStore) : MerchantCall → Option (String × AttemptOutcome)
  | .settle a id token outcome =>
    match s.settleAttempt a id token outcome with
    | .ok (_, true) =>
      if ((s.attemptRow a.scope id).bind AttemptRow.outcome).isSome then none
      else some (id, outcome)
    | _ => none
  | _ => none

def BillingLog.perform (host : MerchantHost) (log : BillingLog) (call : MerchantCall) :
    BillingLog :=
  let s' := log.store.step host (host.uuid log.made) call
  { store := s'
    made := log.made + 1
    removed := log.removed ++ gone log.store s'
    launches := log.launches ++ (launched log.store call).toList
    settlements := log.settlements ++ (written log.store call).toList }

def BillingLog.run (host : MerchantHost) (log : BillingLog) (calls : List MerchantCall) :
    BillingLog := calls.foldl (BillingLog.perform host) log

/-- The times of the calls that give one. -/
def timesOf (calls : List MerchantCall) : List Int := calls.filterMap fun call => timestamp call.now

/-! ## The invariant -/

structure BillingSound (host : MerchantHost) (times : List Int) (log : BillingLog) : Prop where
  ids : (log.store.attempts.map AttemptRow.id).Nodup
  named : ∀ r ∈ log.store.attempts, ∃ k < log.made, r.id = host.uuid k
  dated : ∀ r ∈ log.store.attempts, Dated r
  sent : ∀ r ∈ log.store.attempts, r.dispatchedAt.isSome = true → r.phase ≠ .reserved
  unsettled : ∀ r ∈ log.store.attempts, r.outcome = none → r.settledAtoms = none
  /-- What was deleted was 90 days old. -/
  removed : ∀ r ∈ log.removed, Dated r ∧ ∃ t ∈ times, r.createdAt + billingMillis ≤ t
  launches : log.launches.Nodup
  launched : ∀ id ∈ log.launches, (∃ k < log.made, id = host.uuid k) ∧
    ∀ r ∈ log.store.attempts, r.id = id → r.phase ≠ .reserved
  settlements : (log.settlements.map Prod.fst).Nodup
  settled : ∀ x ∈ log.settlements, (∃ k < log.made, x.1 = host.uuid k) ∧
    ∀ r ∈ log.store.attempts, r.id = x.1 → r.outcome.isSome = true

section Step

variable {host : MerchantHost} {times : List Int} {log : BillingLog} {call : MerchantCall}

theorem RowChange.sent_kept {r r' : AttemptRow} (h : RowChange call r r')
    (hsent : r.dispatchedAt.isSome = true → r.phase ≠ .reserved) :
    r'.dispatchedAt.isSome = true → r'.phase ≠ .reserved := by
  intro hd hreserved
  cases h with
  | quiet h => exact hsent (h.dispatchedAt_eq ▸ hd) (h.reserved hreserved)
  | sent h a token hcall hphase hphase' => rw [hphase'] at hreserved; cases hreserved
  | settled h outcome hcall hnew hdispatched hphase hatoms hatoms' =>
    exact hsent (hdispatched ▸ hd) (h.reserved hreserved)
  | released h hcall hphase => rw [hphase] at hreserved; cases hreserved

variable {s s' : MerchantStore} {uuid id : String}

theorem StepEffect.origin (h : StepEffect call uuid s s')
    {r' : AttemptRow} (hr : r' ∈ s'.attempts) :
    (∃ r ∈ s.attempts, RowChange call r r') ∨ (r'.id = uuid ∧ Dated r' ∧ r'.phase = .reserved ∧
      r'.outcome = none ∧ r'.settledAtoms = none ∧ r'.dispatchedAt = none) := by
  cases h with
  | changed h => exact .inl (h.mem hr)
  | reserved a input t row hcall h hrows hid hdated hphase houtcome hsettled hsent =>
    rw [hrows] at hr
    rcases mem_append.mp hr with hr | hr
    · obtain ⟨r, hmem, hquiet⟩ := h.mem hr
      exact .inl ⟨r, hmem, .quiet hquiet⟩
    · rw [mem_singleton.mp hr]
      exact .inr ⟨hid, hdated, hphase, houtcome, hsettled, hsent⟩
  | pruned text now t hcall htime h hrows =>
    rw [hrows] at hr
    obtain ⟨r, hmem, hquiet⟩ := h.mem (mem_filter.mp hr).1
    exact .inl ⟨r, hmem, .quiet hquiet⟩

theorem StepEffect.ids (h : StepEffect call uuid s s')
    (hids : (s.attempts.map AttemptRow.id).Nodup) (hfresh : ∀ r ∈ s.attempts, r.id ≠ uuid) :
    (s'.attempts.map AttemptRow.id).Nodup := by
  cases h with
  | changed h => rwa [h.ids fun _ _ h => h.kept.id_eq]
  | reserved a input t row hcall h hrows hid =>
    rw [hrows, map_append, h.ids fun _ _ h => h.id_eq, nodup_append]
    refine ⟨hids, nodup_singleton _, fun x hx y hy hxy => ?_⟩
    obtain ⟨r, hr, rfl⟩ := mem_map.mp hx
    exact hfresh r hr (hxy.trans ((mem_singleton.mp hy).trans hid))
  | pruned text now t hcall htime h hrows =>
    rw [hrows]
    rw [← h.ids fun _ _ h => h.id_eq] at hids
    exact hids.sublist (filter_sublist.map _)

theorem StepEffect.old_of_gone
    (h : StepEffect call uuid s s') (hdated : ∀ r ∈ s.attempts, Dated r) {r : AttemptRow}
    (hr : r ∈ gone s s') : ∃ now, timestamp call.now = some now ∧
      r.createdAt + billingMillis ≤ now := by
  obtain ⟨hmem, hgone⟩ := mem_filter.mp hr
  rw [not_eq_true', any_eq_false] at hgone
  have habsent : ∀ r' ∈ s'.attempts, r'.id ≠ r.id := fun r' hr' hid => hgone r' hr' (by simp [hid])
  cases h with
  | changed h =>
    obtain ⟨r', hr', hchange⟩ := h.image hmem
    exact absurd hchange.kept.id_eq (habsent r' hr')
  | reserved a input t row hcall h hrows =>
    obtain ⟨r', hr', hquiet⟩ := h.image hmem
    exact absurd hquiet.id_eq (habsent r' (by rw [hrows]; exact mem_append_left _ hr'))
  | pruned text now t hcall htime h hrows =>
    obtain ⟨r', hr', hquiet⟩ := h.image hmem
    have hpruned : Merchant.pruned now r' = true := by
      by_contra hkeep
      refine habsent r' ?_ hquiet.id_eq
      rw [hrows]
      exact mem_filter.mpr ⟨hr', by simpa using hkeep⟩
    unfold Merchant.pruned at hpruned
    rw [and_eq_true, hquiet.createdAt_eq] at hpruned
    obtain ⟨text', htext', -⟩ := hdated r hmem
    have hold := le_of_textLE (yearOf_timestamp htext') hpruned.1
    exact ⟨now, by rw [hcall]; exact htime, by omega⟩

theorem launched_eq_some (host : MerchantHost) (uuid : String)
    (h : launched s call = some id) : (∃ r ∈ s.attempts, r.id = id ∧ r.phase = .reserved) ∧
      ∀ r ∈ (s.step host uuid call).attempts, r.id = id → r.phase ≠ .reserved := by
  unfold launched at h
  split at h
  · rename_i a id' token
    split at h
    · rename_i s' hdispatch
      cases h
      rcases dispatchAttempt_ok hdispatch with ⟨hv, -⟩ | ⟨-, row, hmem, now, hid, hphase, -, -, hs⟩
      · cases hv
      refine ⟨⟨row, hmem, hid, hphase⟩, fun r hr hrid => ?_⟩
      unfold MerchantStore.step at hr
      dsimp only at hr
      rw [hdispatch] at hr
      change r ∈ s'.attempts at hr
      rw [hs] at hr
      obtain ⟨r₀, -, rfl⟩ := mem_map.mp hr
      split at hrid
      · rw [if_pos ‹_›]
        exact fun h => nomatch h
      · rename_i hne
        exact absurd (hrid.trans hid.symm) (by simpa using hne)
    · cases h
  · cases h

theorem written_eq_some (host : MerchantHost) (uuid : String) {x : String × AttemptOutcome}
    (h : written s call = some x) : (∃ r ∈ s.attempts, r.id = x.1 ∧ r.outcome = none) ∧
      ∀ r ∈ (s.step host uuid call).attempts, r.id = x.1 → r.outcome.isSome = true := by
  unfold written at h
  split at h
  · rename_i a id' token outcome
    split at h
    · rename_i s' hsettle
      split at h
      · cases h
      rename_i hnone
      cases h
      rcases settleAttempt_ok hsettle with ⟨-, hsome⟩ | ⟨row, hmem, hid, -, hnew, hs⟩
      · exact absurd (hsome rfl) hnone
      refine ⟨⟨row, hmem, hid, hnew⟩, fun r hr hrid => ?_⟩
      unfold MerchantStore.step at hr
      dsimp only at hr
      rw [hsettle] at hr
      change r ∈ s'.attempts at hr
      rw [hs] at hr
      obtain ⟨r₀, -, rfl⟩ := mem_map.mp hr
      split at hrid
      · rw [if_pos ‹_›]
        rfl
      · rename_i hne
        exact absurd (hrid.trans hid.symm) (by simpa using hne)
    · cases h
  · cases h

theorem billingSound_start (host : MerchantHost) (restored : Option RestoredRow)
    (scopes : List ScopeRow) (policies : List Policy) :
    BillingSound host [] (BillingLog.start restored scopes policies) where
  ids := nodup_nil
  named _ hr := absurd hr not_mem_nil
  dated _ hr := absurd hr not_mem_nil
  sent _ hr := absurd hr not_mem_nil
  unsettled _ hr := absurd hr not_mem_nil
  removed _ hr := absurd hr not_mem_nil
  launches := nodup_nil
  launched _ hr := absurd hr not_mem_nil
  settlements := nodup_nil
  settled _ hr := absurd hr not_mem_nil

theorem ne_uuid (h : ∃ k < log.made, id = host.uuid k) : id ≠ host.uuid log.made := by
  obtain ⟨k, hk, rfl⟩ := h
  exact fun heq => absurd (host.uuid_injective heq) (Nat.ne_of_lt hk)

theorem lt_succ_made (h : ∃ k < log.made, id = host.uuid k) :
    ∃ k < log.made + 1, id = host.uuid k := by
  obtain ⟨k, hk, hid⟩ := h
  exact ⟨k, hk.trans (Nat.lt_succ_self _), hid⟩

theorem BillingSound.perform (h : BillingSound host times log) (call : MerchantCall) :
    BillingSound host (times ++ (timestamp call.now).toList) (log.perform host call) := by
  have heffect := stepEffect host (host.uuid log.made) h.ids call
  have hnew : ∀ id, (∃ k < log.made, id = host.uuid k) →
      ∀ r' ∈ (log.perform host call).store.attempts, r'.id = id →
        ∃ r ∈ log.store.attempts, r.id = id ∧ RowChange call r r' := by
    intro id hid r' hr' hrid
    rcases heffect.origin hr' with ⟨r, hr, hchange⟩ | ⟨huuid, -⟩
    · exact ⟨r, hr, hchange.kept.id_eq.symm.trans hrid, hchange⟩
    · exact absurd (hrid.symm.trans huuid) (ne_uuid hid)
  refine ⟨?_, fun r hr => ?_, fun r hr => ?_, fun r hr => ?_, fun r hr => ?_, fun r hr => ?_, ?_,
    fun id hid => ?_, ?_, fun x hx => ?_⟩
  · exact heffect.ids h.ids fun r hr => ne_uuid (h.named r hr)
  · rcases heffect.origin hr with ⟨r₀, hr₀, hchange⟩ | ⟨huuid, -⟩
    · rw [hchange.kept.id_eq]
      exact lt_succ_made (h.named r₀ hr₀)
    · exact ⟨log.made, Nat.lt_succ_self _, huuid⟩
  · rcases heffect.origin hr with ⟨r₀, hr₀, hchange⟩ | ⟨-, hdated, -⟩
    · obtain ⟨text, htext, hday, hmonth⟩ := h.dated r₀ hr₀
      have hkept := hchange.kept
      exact ⟨text, hkept.createdAt_eq ▸ htext, hkept.dayWindow_eq.trans hday,
        hkept.monthWindow_eq.trans hmonth⟩
    · exact hdated
  · rcases heffect.origin hr with ⟨r₀, hr₀, hchange⟩ | ⟨-, -, -, -, -, hsent⟩
    · exact hchange.sent_kept (h.sent r₀ hr₀)
    · rw [hsent]
      exact fun h => nomatch h
  · rcases heffect.origin hr with ⟨r₀, hr₀, hchange⟩ | ⟨-, -, -, -, hsettled, -⟩
    · exact hchange.kept.unsettled (h.unsettled r₀ hr₀)
    · exact fun _ => hsettled
  · -- what was deleted before, and what is deleted now
    rcases mem_append.mp hr with hr | hr
    · obtain ⟨hdated, t, ht, hold⟩ := h.removed r hr
      exact ⟨hdated, t, mem_append_left _ ht, hold⟩
    · obtain ⟨now, hnow, hold⟩ := heffect.old_of_gone h.dated hr
      refine ⟨h.dated r (mem_filter.mp hr).1, now, mem_append_right _ ?_, hold⟩
      rw [hnow]
      exact mem_singleton_self now
  · refine nodup_append.mpr ⟨h.launches, ?_, fun x hx y hy hxy => ?_⟩
    · cases Merchant.launched log.store call with
      | none => exact nodup_nil
      | some id => exact nodup_singleton id
    · obtain ⟨⟨r, hr, hrid, hphase⟩, -⟩ :=
        launched_eq_some host "" (Option.mem_toList.mp hy)
      exact (h.launched x hx).2 r hr (hrid.trans hxy.symm) hphase
  · rcases mem_append.mp hid with hid | hid
    · obtain ⟨hmade, hrows⟩ := h.launched id hid
      refine ⟨lt_succ_made hmade, fun r' hr' hrid hphase => ?_⟩
      obtain ⟨r, hr, hrid', hchange⟩ := hnew id hmade r' hr' hrid
      exact hrows r hr hrid' (hchange.kept.reserved hphase)
    · obtain ⟨⟨r, hr, hrid, -⟩, hafter⟩ :=
        launched_eq_some host (host.uuid log.made) (Option.mem_toList.mp hid)
      exact ⟨hrid ▸ lt_succ_made (h.named r hr), hafter⟩
  · rw [show (log.perform host call).settlements =
      log.settlements ++ (written log.store call).toList from rfl, map_append]
    refine nodup_append.mpr ⟨h.settlements, ?_, fun x hx y hy hxy => ?_⟩
    · cases written log.store call with
      | none => exact nodup_nil
      | some id => exact nodup_singleton id.1
    · obtain ⟨z, hz, rfl⟩ := mem_map.mp hx
      obtain ⟨w, hw, rfl⟩ := mem_map.mp hy
      obtain ⟨⟨r, hr, hrid, hnone⟩, -⟩ :=
        written_eq_some host "" (Option.mem_toList.mp hw)
      have hsome := (h.settled z hz).2 r hr (hrid.trans hxy.symm)
      rw [hnone] at hsome
      cases hsome
  · rcases mem_append.mp hx with hx | hx
    · obtain ⟨hmade, hrows⟩ := h.settled x hx
      refine ⟨lt_succ_made hmade, fun r' hr' hrid => ?_⟩
      obtain ⟨r, hr, hrid', hchange⟩ := hnew x.1 hmade r' hr' hrid
      exact hchange.kept.outcome (hrows r hr hrid')
    · obtain ⟨⟨r, hr, hrid, -⟩, hafter⟩ :=
        written_eq_some host (host.uuid log.made) (Option.mem_toList.mp hx)
      exact ⟨hrid ▸ lt_succ_made (h.named r hr), hafter⟩

theorem BillingSound.run (h : BillingSound host times log) (calls : List MerchantCall) :
    BillingSound host (times ++ timesOf calls) (log.run host calls) := by
  induction calls generalizing times log with
  | nil =>
    rw [show timesOf [] = [] from rfl, append_nil]
    exact h
  | cons call calls ih =>
    have hrun := ih (h.perform call)
    have htimes : times ++ timesOf (call :: calls) =
        times ++ (timestamp call.now).toList ++ timesOf calls := by
      unfold timesOf
      rw [filterMap_cons]
      cases timestamp call.now with
      | none => exact congrArg (· ++ _) (append_nil times).symm
      | some now => rw [append_assoc]; rfl
    rw [htimes]
    exact hrun

end Step

/-! ## Billed within the caps -/

theorem withinCaps_append {rows removed : List AttemptRow} {day month : String} {b : QuotaBucket}
    {row : AttemptRow} (hremoved : ∀ r ∈ removed, r.dayWindow ≠ day ∧ r.monthWindow ≠ month)
    (hdaily : (rows.filter fun r => r.inBucket b && r.dayWindow == day &&
      r.phase != .knownFailed).length < b.maxSearchesPerDay)
    (hmonthly : ((rows.filter fun r => r.inBucket b && r.monthWindow == month &&
      r.phase != .knownFailed).map AttemptRow.atoms).sum + row.atoms ≤
        b.maxSpendMinorUnitsPerMonth * 1000000) :
    WithinCaps (rows ++ [row] ++ removed) day month b := by
  have hday : (removed.filter fun r => r.inBucket b && r.dayWindow == day &&
      r.phase != .knownFailed) = [] := by
    refine filter_eq_nil_iff.mpr fun r hr h => (hremoved r hr).1 ?_
    rw [and_eq_true, and_eq_true, beq_iff_eq] at h
    exact h.1.2
  have hmonth : (removed.filter fun r => r.inBucket b && r.monthWindow == month &&
      r.phase != .knownFailed) = [] := by
    refine filter_eq_nil_iff.mpr fun r hr h => (hremoved r hr).2 ?_
    rw [and_eq_true, and_eq_true, beq_iff_eq] at h
    exact h.1.2
  constructor
  · rw [filter_append, filter_append, hday, append_nil, length_append]
    have hone := length_filter_le (fun r : AttemptRow => r.inBucket b && r.dayWindow == day &&
      r.phase != .knownFailed) [row]
    rw [length_singleton] at hone
    omega
  · rw [filter_append, filter_append, hmonth, append_nil, map_append,
      sum_append, filter_cons]
    split
    · rw [filter_nil, map_cons, map_nil, sum_cons, sum_nil]
      omega
    · rw [filter_nil, map_nil, sum_nil]
      omega

/-- An attempt after a call is still in the sums of its month, with the atoms it had or those it is
settled at. -/
structure StillBilled (call : MerchantCall) (r r' : AttemptRow) : Prop where
  id_eq : r'.id = r.id
  billed : r'.phase ≠ .knownFailed
  buckets_eq : r'.buckets = r.buckets
  dayWindow_eq : r'.dayWindow = r.dayWindow
  monthWindow_eq : r'.monthWindow = r.monthWindow
  dispatchedAt_eq : r'.dispatchedAt = r.dispatchedAt
  atoms : r'.atoms = r.atoms ∨ call.settles r (.succeeded r'.atoms)

/-- What a call does: `log` is what the calls before it left. -/
structure Billed (host : MerchantHost) (log : BillingLog) (call : MerchantCall) : Prop where
  /-- A new attempt is within the caps of its buckets, and of the policy. -/
  admission : ∀ a input s' r, call = .reserve a input →
    log.store.reserveAttempt host a input (host.uuid log.made) = .ok (s', .admitted r) →
      r.id ∉ log.store.attempts.map AttemptRow.id →
        ∃ policy, log.store.policyValue a.scope = some policy ∧ ∀ b ∈ input.buckets,
          WithinCaps (s'.attempts ++ log.removed) (dayOf a.now) (monthOf a.now)
            (b.constrained policy)
  /-- No attempt is dispatched twice. -/
  dispatched_once : (log.perform host call).launches.Nodup
  /-- A dispatch is inside the windows of its attempt. -/
  dispatched_inside : ∀ a id token s', call = .dispatch a id token →
    log.store.dispatchAttempt a id token = .ok (s', true) →
      ∃ r ∈ log.store.attempts, r.id = id ∧ r.phase = .reserved ∧ r.dayWindow = dayOf a.now ∧
        r.monthWindow = monthOf a.now
  /-- An attempt that was dispatched stays in the sums of its month, unless the provider did not bill
  it or its owner did not invoke it; the month is over when it is deleted. -/
  kept : ∀ r ∈ log.store.attempts, r.dispatchedAt.isSome = true → r.phase ≠ .knownFailed →
    (∃ r' ∈ (log.perform host call).store.attempts, StillBilled call r r') ∨
      call.settles r .knownFailed ∨ call.releases r ∨
        ∃ now, call = .prune now ∧ r.monthWindow ≠ monthOf now
  /-- No attempt is settled twice. -/
  settled_once : ((log.perform host call).settlements.map Prod.fst).Nodup

variable {r : AttemptRow}

theorem Quiet.stillBilled {call : MerchantCall} {r' : AttemptRow} (h : Quiet r r')
    (hphase : r.phase ≠ .reserved) (hbilled : r.phase ≠ .knownFailed) : StillBilled call r r' where
  id_eq := h.id_eq
  billed hf := hbilled ((h.billed hphase).2.mp hf)
  buckets_eq := h.buckets_eq
  dayWindow_eq := h.dayWindow_eq
  monthWindow_eq := h.monthWindow_eq
  dispatchedAt_eq := h.dispatchedAt_eq
  atoms := .inl (h.billed hphase).1

theorem RowChange.stillBilled {call : MerchantCall} {r' : AttemptRow} (h : RowChange call r r')
    (hphase : r.phase ≠ .reserved) (hbilled : r.phase ≠ .knownFailed)
    (hunsettled : r.outcome = none → r.settledAtoms = none) :
    StillBilled call r r' ∨ call.settles r .knownFailed ∨ call.releases r := by
  cases h with
  | quiet h => exact .inl (h.stillBilled hphase hbilled)
  | sent _ a token hcall hreserved _ => exact absurd hreserved hphase
  | released _ hcall _ => exact .inr (.inr hcall)
  | settled h outcome hcall hnew hdispatched hphase' hatoms hatoms' =>
    have hstill : r'.phase ≠ .knownFailed →
        (r'.atoms = r.atoms ∨ call.settles r (.succeeded r'.atoms)) → StillBilled call r r' :=
      fun hf hsum => ⟨h.id_eq, hf, h.buckets_eq, h.dayWindow_eq, h.monthWindow_eq, hdispatched, hsum⟩
    cases outcome with
    | knownFailed => exact .inr (.inl hcall)
    | succeeded costAtoms =>
      have hcost : r'.atoms = costAtoms := by
        unfold AttemptRow.atoms
        rw [hatoms]
        rfl
      refine .inl (hstill ?_ (.inr (hcost ▸ hcall)))
      rw [hphase']
      exact fun h => nomatch h
    | uncertain =>
      have hsame : r'.atoms = r.atoms := by
        unfold AttemptRow.atoms
        rw [hatoms, hatoms', hunsettled hnew]
        rfl
      refine .inl (hstill ?_ (.inl hsame))
      rw [hphase']
      exact fun h => nomatch h

theorem BillingSound.kept {host : MerchantHost} {times : List Int} {log : BillingLog}
    (h : BillingSound host times log) (call : MerchantCall)
    (hr : r ∈ log.store.attempts) (hsent : r.dispatchedAt.isSome = true)
    (hbilled : r.phase ≠ .knownFailed) :
    (∃ r' ∈ (log.perform host call).store.attempts, StillBilled call r r') ∨
      call.settles r .knownFailed ∨ call.releases r ∨
        ∃ now, call = .prune now ∧ r.monthWindow ≠ monthOf now := by
  have hphase := h.sent r hr hsent
  cases stepEffect host (host.uuid log.made) h.ids call with
  | changed heffect =>
    obtain ⟨r', hr', hchange⟩ := heffect.image hr
    rcases hchange.stillBilled hphase hbilled (h.unsettled r hr) with hstill | hsettles | hreleases
    · exact .inl ⟨r', hr', hstill⟩
    · exact .inr (.inl hsettles)
    · exact .inr (.inr (.inl hreleases))
  | reserved a input t row hcall heffect hrows =>
    obtain ⟨r', hr', hquiet⟩ := heffect.image hr
    exact .inl ⟨r', hrows ▸ mem_append_left _ hr', hquiet.stillBilled hphase hbilled⟩
  | pruned text now t hcall htime heffect hrows =>
    obtain ⟨r', hr', hquiet⟩ := heffect.image hr
    by_cases hgone : Merchant.pruned now r' = true
    · -- deleted at 90 days
      unfold Merchant.pruned at hgone
      rw [and_eq_true, hquiet.createdAt_eq] at hgone
      have hdated := h.dated r hr
      obtain ⟨made, hmade, -⟩ := h.dated r hr
      have hold := le_of_textLE (yearOf_timestamp hmade) hgone.1
      exact .inr (.inr (.inr ⟨text, hcall, hdated.month_ne htime (by omega)⟩))
    · refine .inl ⟨r', ?_, hquiet.stillBilled hphase hbilled⟩
      exact hrows ▸ mem_filter.mpr ⟨hr', by simpa using hgone⟩

theorem BillingSound.billed {host : MerchantHost} {times : List Int} {log : BillingLog}
    (h : BillingSound host times log) (call : MerchantCall)
    (hclock : ∀ now, timestamp call.now = some now → ∀ t ∈ times, t ≤ now) :
    Billed host log call where
  admission a input s' r hcall hreserve hnew := by
    subst hcall
    rcases reserveAttempt_ok hreserve with ⟨-, hold⟩ | ⟨now, policy, tariff, hnow, hpolicy, -, hrows,
      -, hroom⟩
    · exact absurd (hold r rfl) hnew
    refine ⟨policy, hpolicy, fun b hb => ?_⟩
    have hb' := room_of_checkBucket (hroom b hb)
    rw [hrows]
    refine withinCaps_append (fun r hr => ?_) hb'.1 hb'.2
    obtain ⟨hdated, t, ht, hold⟩ := h.removed r hr
    have hpast := hclock now hnow t ht
    exact ⟨hdated.day_ne hnow (by omega), hdated.month_ne hnow (by omega)⟩
  dispatched_once := (h.perform call).launches
  dispatched_inside a id token s' hcall hdispatch := by
    rcases dispatchAttempt_ok hdispatch with ⟨hv, -⟩ | ⟨-, r, hr, now, hid, hphase, hday, hmonth, -⟩
    · cases hv
    · exact ⟨r, hr, hid, hphase, hday, hmonth⟩
  kept r hr hsent hbilled := h.kept call hr hsent hbilled
  settled_once := (h.perform call).settlements

def plainHost : MerchantHost where
  digest
    | .key _ => "key"
    | .idempotency idempotencyKey => idempotencyKey
    | .intent .. => "intent"
  sorted := id
  uuid n := String.ofList (List.replicate (n + 1) 'u')
  uuid_injective m n h := by
    have hlength := congrArg List.length (String.ofList_injective h)
    rw [length_replicate, length_replicate] at hlength
    exact Nat.succ.inj hlength

def homeScope : MerchantScope := { spaceId := "home", budgetId := "food", connectionId := "bank" }

def homeAccess (now : String) (generation : Nat) : ViewAccess where
  scope := homeScope
  now := now
  expectedGeneration := generation
  authorize _ := .ok true
  visibility := { hash := zeroHash, privateActorId := none }
  actorId := "actor"

def search : ReserveInput where
  idempotencyKey := "first"
  key :=
    { scope := homeScope, queryFingerprint := zeroHash, locale := none, providerId := "web"
      providerVersion := "1", parametersHash := zeroHash, normalizationVersion := "1"
      egressPolicyVersion := "1", visibilityHash := zeroHash }
  sourceRefs := emptyRefs
  policyVersion := 1
  tariff := some { version := "1", billingCurrency := "EUR", costAtoms := 10 }
  buckets :=
    [⟨.installation, "here", 2, 1⟩, ⟨.space, "home", 2, 1⟩, ⟨.budget, "home/food", 2, 1⟩,
      ⟨.credential, "key", 2, 1⟩]

def searches : List MerchantCall :=
  [.setPolicy (homeAccess "2026-01-31T10:00:00Z" 0).toMerchantAccess
      { mode := .externalAllowed, allowedProviderIds := ["web"], maxSearchesPerDay := 1
        maxSpendMinorUnitsPerMonth := 1, billingCurrency := "EUR", cacheTtlHours := 1 } 0,
    .reserve (homeAccess "2026-01-31T10:00:01Z" 1) search,
    .claim (homeAccess "2026-01-31T10:00:02Z" 1) "uu",
    .dispatch (homeAccess "2026-01-31T10:00:03.500Z" 1) "uu" "uuu"]

end BalanceFrame.Merchant
