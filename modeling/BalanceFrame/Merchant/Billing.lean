import BalanceFrame.Merchant.Attempts
import BalanceFrame.Merchant.Windows

/-!
# What the calls do to the attempts

Every statement keeps an attempt's identity, windows and buckets (`Kept`), and most leave what it
holds of the quota as it is (`Quiet`). A call maps the rows one by one, inserts one, or deletes some.
-/

namespace BalanceFrame.Merchant

open Library List

/-! ## Calls -/

inductive MerchantCall
  | reserve (a : ViewAccess) (input : ReserveInput)
  | attempt (a : ViewAccess) (id : String)
  | claim (a : ViewAccess) (id : String)
  | dispatch (a : ViewAccess) (id claimToken : String)
  | abandon (a : ViewAccess) (id : String) (claimToken : Option String)
  | release (o : AttemptOwner)
  | settle (a : ViewAccess) (id claimToken : String) (outcome : AttemptOutcome)
  | setPolicy (a : MerchantAccess) (value : PolicyValue) (expectedVersion : Nat)
  | purge (a : MerchantAccess)
  | purgeBudget (a : MerchantAccess)
  | prune (now : String)

/-- The time that a call gives. -/
def MerchantCall.now : MerchantCall → String
  | .reserve a _ | .attempt a _ | .claim a _ | .dispatch a _ _ | .abandon a _ _
  | .settle a _ _ _ => a.now
  | .release o => o.now
  | .setPolicy a _ _ | .purge a | .purgeBudget a => a.now
  | .prune now => now

/-- The store after a call; a call that throws leaves it as it is. -/
def MerchantStore.after {α : Type} (s : MerchantStore) (x : Except String (MerchantStore × α)) :
    MerchantStore :=
  valueOr s (x.map Prod.fst)

def MerchantStore.step (s : MerchantStore) (host : MerchantHost) (uuid : String) :
    MerchantCall → MerchantStore
  | .reserve a input => s.after (s.reserveAttempt host a input uuid)
  | .attempt a id => s.after (s.attempt a id)
  | .claim a id => s.after (s.claimAttempt a id uuid)
  | .dispatch a id claimToken => s.after (s.dispatchAttempt a id claimToken)
  | .abandon a id claimToken => s.after (s.abandonAttempt a id claimToken)
  | .release o => s.after (s.releaseUnsentAttempt o)
  | .settle a id claimToken outcome => s.after (s.settleAttempt a id claimToken outcome)
  | .setPolicy a value expectedVersion => s.after (s.setPolicy a value expectedVersion)
  | .purge a => s.after (s.purge a)
  | .purgeBudget a => s.after (s.purgeBudget a)
  | .prune now => valueOr s (s.prune now)

/-- The call reports an outcome of a row under its token. -/
def MerchantCall.settles (call : MerchantCall) (r : AttemptRow) (outcome : AttemptOutcome) : Prop :=
  ∃ a token, call = .settle a r.id token outcome ∧ r.claimToken = some token

/-- The call is the attestation of a row's owner that it was not invoked. -/
def MerchantCall.releases (call : MerchantCall) (r : AttemptRow) : Prop :=
  ∃ o : AttemptOwner, call = .release o ∧ o.id = r.id ∧ r.claimToken = some o.claimToken

/-! ## Rows -/

/-- What every statement keeps of a row. -/
structure Kept (r r' : AttemptRow) : Prop where
  id_eq : r'.id = r.id
  createdAt_eq : r'.createdAt = r.createdAt
  buckets_eq : r'.buckets = r.buckets
  dayWindow_eq : r'.dayWindow = r.dayWindow
  monthWindow_eq : r'.monthWindow = r.monthWindow
  reserved : r'.phase = .reserved → r.phase = .reserved
  outcome : r.outcome.isSome = true → r'.outcome.isSome = true
  unsettled : (r.outcome = none → r.settledAtoms = none) → r'.outcome = none →
    r'.settledAtoms = none

/-- A row that is not reserved stays what it is in the ledger. -/
structure Quiet (r r' : AttemptRow) : Prop extends Kept r r' where
  dispatchedAt_eq : r'.dispatchedAt = r.dispatchedAt
  billed : r.phase ≠ .reserved →
    r'.atoms = r.atoms ∧ (r'.phase = .knownFailed ↔ r.phase = .knownFailed)

theorem Quiet.refl (r : AttemptRow) : Quiet r r where
  id_eq := rfl
  createdAt_eq := rfl
  buckets_eq := rfl
  dayWindow_eq := rfl
  monthWindow_eq := rfl
  reserved := id
  outcome := id
  unsettled := id
  dispatchedAt_eq := rfl
  billed _ := ⟨rfl, Iff.rfl⟩

variable {r r' row : AttemptRow} {call : MerchantCall}

theorem Kept.trans {r'' : AttemptRow} (h : Kept r r') (h' : Kept r' r'') : Kept r r'' where
  id_eq := h'.id_eq.trans h.id_eq
  createdAt_eq := h'.createdAt_eq.trans h.createdAt_eq
  buckets_eq := h'.buckets_eq.trans h.buckets_eq
  dayWindow_eq := h'.dayWindow_eq.trans h.dayWindow_eq
  monthWindow_eq := h'.monthWindow_eq.trans h.monthWindow_eq
  reserved hr := h.reserved (h'.reserved hr)
  outcome ho := h'.outcome (h.outcome ho)
  unsettled hu := h'.unsettled (h.unsettled hu)

theorem Quiet.trans {r'' : AttemptRow} (h : Quiet r r') (h' : Quiet r' r'') : Quiet r r'' where
  toKept := h.toKept.trans h'.toKept
  dispatchedAt_eq := h'.dispatchedAt_eq.trans h.dispatchedAt_eq
  billed hr := by
    obtain ⟨hatoms, hfailed⟩ := h.billed hr
    obtain ⟨hatoms', hfailed'⟩ := h'.billed fun hr' => hr (h.reserved hr')
    exact ⟨hatoms'.trans hatoms, hfailed'.trans hfailed⟩

theorem quiet_closed (h : r.phase = .reserved) (o : StoredOutcome) : Quiet r (r.closed o) where
  id_eq := rfl
  createdAt_eq := rfl
  buckets_eq := rfl
  dayWindow_eq := rfl
  monthWindow_eq := rfl
  reserved hr := nomatch hr
  outcome _ := rfl
  unsettled _ ho := nomatch ho
  dispatchedAt_eq := rfl
  billed hr := absurd h hr

/-! ## Tables -/

/-- Row by row. -/
def Mapped (R : AttemptRow → AttemptRow → Prop) (s s' : MerchantStore) : Prop :=
  ∃ f, s'.attempts = s.attempts.map f ∧ ∀ r ∈ s.attempts, R r (f r)

section Mapped

variable {R : AttemptRow → AttemptRow → Prop} {s s' s'' : MerchantStore}

theorem Mapped.of_eq (hrefl : ∀ r, R r r) (h : s'.attempts = s.attempts) : Mapped R s s' :=
  ⟨id, by rw [h, map_id], fun r _ => hrefl r⟩

theorem Mapped.update {c : AttemptRow → Bool} {f : AttemptRow → AttemptRow} (hrefl : ∀ r, R r r)
    (h : ∀ r ∈ s.attempts, c r = true → R r (f r)) : Mapped R s (s.update c f) := by
  refine ⟨_, rfl, fun r hr => ?_⟩
  split
  · exact h r hr ‹_›
  · exact hrefl r

theorem Mapped.trans {Q P : AttemptRow → AttemptRow → Prop}
    (hcomp : ∀ r ∈ s.attempts, ∀ r' r'', R r r' → Q r' r'' → P r r'')
    (h : Mapped R s s') (h' : Mapped Q s' s'') : Mapped P s s'' := by
  obtain ⟨f, hf, hR⟩ := h
  obtain ⟨g, hg, hQ⟩ := h'
  refine ⟨g ∘ f, by rw [hg, hf, map_map], fun r hr => hcomp r hr (f r) _ (hR r hr) (hQ _ ?_)⟩
  rw [hf]
  exact mem_map_of_mem hr

theorem Mapped.mono {Q : AttemptRow → AttemptRow → Prop} (h : Mapped R s s')
    (himp : ∀ r r', R r r' → Q r r') : Mapped Q s s' := by
  obtain ⟨f, hf, hR⟩ := h
  exact ⟨f, hf, fun r hr => himp r (f r) (hR r hr)⟩

theorem Mapped.mem (h : Mapped R s s') (hr : r' ∈ s'.attempts) : ∃ r ∈ s.attempts, R r r' := by
  obtain ⟨f, hf, hR⟩ := h
  rw [hf, mem_map] at hr
  obtain ⟨r, hr, rfl⟩ := hr
  exact ⟨r, hr, hR r hr⟩

theorem Mapped.image (h : Mapped R s s') (hr : r ∈ s.attempts) : ∃ r' ∈ s'.attempts, R r r' := by
  obtain ⟨f, hf, hR⟩ := h
  exact ⟨f r, by rw [hf]; exact mem_map_of_mem hr, hR r hr⟩

theorem Mapped.ids (h : Mapped R s s') (hid : ∀ r r', R r r' → r'.id = r.id) :
    s'.attempts.map AttemptRow.id = s.attempts.map AttemptRow.id := by
  obtain ⟨f, hf, hR⟩ := h
  rw [hf, map_map]
  exact map_congr_left fun r hr => hid r (f r) (hR r hr)

end Mapped

theorem quiet_trans {s s' s'' : MerchantStore} (h : Mapped Quiet s s') (h' : Mapped Quiet s' s'') :
    Mapped Quiet s s'' :=
  h.trans (fun _ _ _ _ hr hr' => hr.trans hr') h'

/-! ## Statements -/

section Statements

variable (s : MerchantStore)

variable (scope : MerchantScope) (now : Int)

theorem mapped_expireUnsent : Mapped Quiet s (s.expireUnsent now) := by
  refine .update Quiet.refl fun r _ hr => quiet_closed ?_ _
  simp only [Bool.and_eq_true, beq_iff_eq] at hr
  exact hr.1.1

theorem mapped_expireSent : Mapped Quiet s (s.expireSent now) := by
  refine .update Quiet.refl fun r _ hr => ?_
  rw [Bool.and_eq_true, beq_iff_eq] at hr
  exact { Quiet.refl r with
    reserved := fun hr' => nomatch hr'
    billed := fun _ => ⟨rfl, by rw [hr.1]; simp⟩ }

theorem mapped_reconcile : Mapped Quiet s (s.reconcile now) :=
  quiet_trans (mapped_expireUnsent s now) (mapped_expireSent _ now)

theorem mapped_cancel : Mapped Quiet s (s.cancel scope) := by
  refine .update Quiet.refl fun r _ hr => quiet_closed ?_ _
  rw [Bool.and_eq_true, beq_iff_eq, beq_iff_eq] at hr
  exact hr.2

theorem mapped_forget : Mapped Quiet s (s.forget scope) := by
  refine .update Quiet.refl fun r _ _ => ?_
  refine { Quiet.refl r with reserved := fun hr => ?_, billed := fun _ => ⟨rfl, ?_⟩ }
  · dsimp only at hr
    split at hr
    · cases hr
    · exact hr
  · dsimp only
    split
    · simp [*]
    · rfl

theorem mapped_erase : Mapped Quiet s (s.erase scope) :=
  quiet_trans (mapped_cancel s scope) (mapped_forget _ scope)

theorem mapped_erases (scopes : List MerchantScope) :
    Mapped Quiet s (scopes.foldl MerchantStore.erase s) := by
  induction scopes generalizing s with
  | nil => exact .of_eq Quiet.refl rfl
  | cons scope scopes ih => exact quiet_trans (mapped_erase s scope) (ih _)

theorem mapped_pruneContent : Mapped Quiet s (s.pruneContent now) :=
  .update Quiet.refl fun r _ _ => { Quiet.refl r with }

theorem ensure_attempts : (s.ensure scope).attempts = s.attempts := by
  unfold MerchantStore.ensure
  split <;> rfl

end Statements

/-! ## Calls on an attempt -/

section Attempts

variable {s s' : MerchantStore} {a : ViewAccess} {id token uuid : String}

theorem attemptRow_eq_some {scope : MerchantScope} (h : s.attemptRow scope id = some row) :
    row ∈ s.attempts ∧ row.id = id := by
  have hfound := find?_some h
  rw [Bool.and_eq_true, beq_iff_eq, beq_iff_eq] at hfound
  exact ⟨mem_of_find?_eq_some h, hfound.2⟩

theorem attempt_ok {v : Option AttemptRow} (h : s.attempt a id = .ok (s', v)) :
    Mapped Quiet s s' := by
  unfold MerchantStore.attempt at h
  simp only [bind_ok] at h
  obtain ⟨now, -, _, -, h⟩ := h
  split at h
  · cases h
    exact .of_eq Quiet.refl rfl
  · rw [bind_ok] at h
    obtain ⟨admitted, -, h⟩ := h
    split at h
    · cases h
      exact mapped_reconcile s now
    · cases h
      exact .of_eq Quiet.refl rfl

theorem claimAttempt_ok {v : Option AttemptRow} (h : s.claimAttempt a id uuid = .ok (s', v)) :
    Mapped Quiet s s' := by
  unfold MerchantStore.claimAttempt at h
  simp only [bind_ok] at h
  obtain ⟨now, -, _, -, h⟩ := h
  split at h
  · cases h
    exact .of_eq Quiet.refl rfl
  · rw [bind_ok] at h
    obtain ⟨admitted, -, h⟩ := h
    split at h
    · cases h
      exact .of_eq Quiet.refl rfl
    · split at h
      · cases h
        exact mapped_reconcile s now
      · cases h
        exact quiet_trans (mapped_reconcile s now)
          (.update Quiet.refl fun r _ _ => { Quiet.refl r with })

variable {v : Bool}

theorem dispatchAttempt_ok (h : s.dispatchAttempt a id token = .ok (s', v)) :
    (v = false ∧ Mapped Quiet s s') ∨ (v = true ∧ ∃ row ∈ s.attempts, ∃ now,
      row.id = id ∧ row.phase = .reserved ∧ row.dayWindow = dayOf a.now ∧
        row.monthWindow = monthOf a.now ∧ s' = (s.reconcile now).update (fun r => r.id == row.id)
          fun r => { r with phase := .dispatched, dispatchedAt := some now }) := by
  unfold MerchantStore.dispatchAttempt at h
  simp only [bind_ok] at h
  obtain ⟨now, -, _, -, _, -, h⟩ := h
  split at h
  · cases h
    exact .inl ⟨rfl, .of_eq Quiet.refl rfl⟩
  · rename_i row hrow
    rw [bind_ok] at h
    obtain ⟨admitted, -, h⟩ := h
    split at h
    · cases h
      exact .inl ⟨rfl, .of_eq Quiet.refl rfl⟩
    · split at h
      · cases h
        exact .inl ⟨rfl, mapped_reconcile s now⟩
      · rename_i hchecks
        cases h
        obtain ⟨hmem, hid⟩ := attemptRow_eq_some hrow
        simp only [Bool.or_eq_true, not_or, Bool.not_eq_true, bne_eq_false_iff_eq] at hchecks
        obtain ⟨⟨⟨⟨⟨⟨hphase, -⟩, -⟩, -⟩, hday⟩, hmonth⟩, -⟩ := hchecks
        exact .inr ⟨rfl, row, hmem, now, hid, hphase, hday, hmonth, rfl⟩

theorem abandonAttempt_ok {claimToken : Option String}
    (h : s.abandonAttempt a id claimToken = .ok (s', v))
    (hids : (s.attempts.map AttemptRow.id).Nodup) : Mapped Quiet s s' := by
  unfold MerchantStore.abandonAttempt at h
  simp only [bind_ok] at h
  obtain ⟨now, -, _, -, _, -, h⟩ := h
  split at h
  · cases h
    exact .of_eq Quiet.refl rfl
  · rename_i row hrow
    rw [bind_ok] at h
    obtain ⟨admitted, -, h⟩ := h
    split at h
    · cases h
      exact .of_eq Quiet.refl rfl
    · rename_i hchecks
      cases h
      simp only [Bool.or_eq_true, not_or, Bool.not_eq_true, bne_eq_false_iff_eq] at hchecks
      refine .update Quiet.refl fun r hr hid => quiet_closed ?_ _
      rw [inj_on_of_nodup_map hids hr (attemptRow_eq_some hrow).1 (beq_iff_eq.mp hid)]
      exact hchecks.1.1.2

theorem releaseUnsentAttempt_ok {o : AttemptOwner} (h : s.releaseUnsentAttempt o = .ok (s', v)) :
    s' = s ∨ ∃ row ∈ s.attempts, row.id = o.id ∧ row.claimToken = some o.claimToken ∧
      s' = s.update (fun r => r.id == row.id) (AttemptRow.closed .notInvoked) := by
  unfold MerchantStore.releaseUnsentAttempt at h
  rw [bind_ok] at h
  obtain ⟨now, -, h⟩ := h
  split at h
  · cases h
    exact .inl rfl
  · rename_i row hrow
    split at h
    · cases h
      exact .inl rfl
    · rename_i hchecks
      rw [bind_ok] at h
      obtain ⟨settled, -, h⟩ := h
      split at h
      · cases h
        exact .inl rfl
      · cases h
        obtain ⟨hmem, hid⟩ := attemptRow_eq_some hrow
        simp only [Bool.or_eq_true, not_or, Bool.not_eq_true, bne_eq_false_iff_eq] at hchecks
        exact .inr ⟨row, hmem, hid, hchecks.1.1.2, rfl⟩

theorem settleAttempt_ok {outcome : AttemptOutcome}
    (h : s.settleAttempt a id token outcome = .ok (s', v)) :
    (s' = s ∧ (v = true → ((s.attemptRow a.scope id).bind AttemptRow.outcome).isSome = true)) ∨
      ∃ row ∈ s.attempts, row.id = id ∧ row.claimToken = some token ∧ row.outcome = none ∧
        s' = s.update (fun r => r.id == row.id) fun r =>
        { r with
          phase := outcome.phase
          settledAtoms := outcome.atoms
          outcome := some (.provider outcome) } := by
  unfold MerchantStore.settleAttempt at h
  simp only [bind_ok] at h
  obtain ⟨_, -, _, -, _, -, _, -, h⟩ := h
  split at h
  · cases h
    exact .inl ⟨rfl, fun hv => nomatch hv⟩
  · rename_i row hrow
    rw [bind_ok] at h
    obtain ⟨admitted, -, h⟩ := h
    split at h
    · cases h
      exact .inl ⟨rfl, fun hv => nomatch hv⟩
    · rename_i hchecks
      rw [bind_ok] at h
      obtain ⟨_, -, h⟩ := h
      split at h
      · rename_i stored hstored
        rw [bind_ok] at h
        obtain ⟨_, -, h⟩ := h
        cases h
        refine .inl ⟨rfl, fun _ => ?_⟩
        rw [hrow, Option.bind_some, hstored]
        rfl
      · rename_i hnone
        split at h
        · cases h
          exact .inl ⟨rfl, fun hv => nomatch hv⟩
        · cases h
          obtain ⟨hmem, hid⟩ := attemptRow_eq_some hrow
          simp only [Bool.or_eq_true, not_or, Bool.not_eq_true, bne_eq_false_iff_eq] at hchecks
          exact .inr ⟨row, hmem, hid, hchecks.1.2, hnone, rfl⟩

end Attempts

/-! ## Policies and deletion -/

section Scopes

variable {s s' : MerchantStore} {a : MerchantAccess}

theorem mapped_bump (condition : MerchantScope → Bool) (scope : MerchantScope) :
    Mapped Quiet s ((s.ensure scope).bumpGeneration condition) :=
  .of_eq Quiet.refl (ensure_attempts s scope)

theorem setPolicy_ok {value : PolicyValue} {expectedVersion : Nat} {v : Option Policy}
    (h : s.setPolicy a value expectedVersion = .ok (s', v)) : Mapped Quiet s s' := by
  unfold MerchantStore.setPolicy at h
  simp only [bind_ok] at h
  obtain ⟨_, -, _, -, _, -, permitted, -, h⟩ := h
  split at h
  · cases h
    exact .of_eq Quiet.refl rfl
  · cases h
    exact quiet_trans (quiet_trans (mapped_bump _ a.scope) (mapped_cancel _ a.scope))
      (.of_eq Quiet.refl rfl)

theorem purge_ok {v : Nat} (h : s.purge a = .ok (s', v)) : Mapped Quiet s s' := by
  unfold MerchantStore.purge at h
  simp only [bind_ok] at h
  obtain ⟨_, -, permitted, -, h⟩ := h
  split at h
  · cases h
    exact .of_eq Quiet.refl rfl
  · cases h
    exact quiet_trans (mapped_bump _ a.scope) (mapped_erase _ a.scope)

theorem purgeBudget_ok {v : Nat} (h : s.purgeBudget a = .ok (s', v)) : Mapped Quiet s s' := by
  unfold MerchantStore.purgeBudget at h
  simp only [bind_ok] at h
  obtain ⟨_, -, permitted, -, h⟩ := h
  split at h
  · cases h
    exact .of_eq Quiet.refl rfl
  · cases h
    exact quiet_trans (mapped_bump _ a.scope) (mapped_erases _ _)

theorem prune_ok {text : String} (h : s.prune text = .ok s') :
    ∃ now t, timestamp text = some now ∧ Mapped Quiet s t ∧
      s'.attempts = t.attempts.filter fun r => !pruned now r := by
  unfold MerchantStore.prune at h
  rw [bind_ok] at h
  obtain ⟨now, hnow, h⟩ := h
  cases h
  exact ⟨now, _, orStop_ok.mp hnow,
    quiet_trans (mapped_reconcile s now) (mapped_pruneContent _ now), rfl⟩

end Scopes

/-! ## Reservations -/

/-- The attempts of a bucket are within its caps, on a day and in a month. -/
structure WithinCaps (rows : List AttemptRow) (day month : String) (b : QuotaBucket) : Prop where
  daily : (rows.filter fun r =>
    r.inBucket b && r.dayWindow == day && r.phase != .knownFailed).length ≤ b.maxSearchesPerDay
  monthly : ((rows.filter fun r => r.inBucket b && r.monthWindow == month &&
    r.phase != .knownFailed).map AttemptRow.atoms).sum ≤ b.maxSpendMinorUnitsPerMonth * 1000000

theorem room_of_checkBucket {rows : List AttemptRow} {day month : String} {tariff : Tariff}
    {b : QuotaBucket} (h : checkBucket (ledger rows day month) day month tariff b = none) :
    (rows.filter fun r => r.inBucket b && r.dayWindow == day && r.phase != .knownFailed).length <
        b.maxSearchesPerDay ∧
      ((rows.filter fun r => r.inBucket b && r.monthWindow == month &&
        r.phase != .knownFailed).map AttemptRow.atoms).sum + tariff.costAtoms ≤
          b.maxSpendMinorUnitsPerMonth * 1000000 := by
  unfold checkBucket ledger at h
  dsimp only at h
  split at h
  · cases h
  split at h
  · cases h
  rename_i hdaily
  split at h
  · cases h
  rename_i hmonthly
  rw [filter_filter, filter_filter] at hdaily hmonthly
  constructor
  · refine lt_of_eq_of_lt (congrArg List.length (filter_congr fun r _ => ?_))
      (not_le.mp hdaily)
    cases r.dayWindow == day <;> cases r.monthWindow == month <;> cases r.inBucket b <;> rfl
  · refine le_of_eq_of_le (congrArg (fun l => (l.map AttemptRow.atoms).sum + tariff.costAtoms)
      (filter_congr fun r _ => ?_)) (not_lt.mp hmonthly)
    cases r.dayWindow == day <;> cases r.monthWindow == month <;> cases r.inBucket b <;> rfl

theorem reserveNew_ok {s s' : MerchantStore} {host : MerchantHost} {a : ViewAccess}
    {input : ReserveInput} {policy : Policy} {tariff : Tariff} {now : Int} {uuid : String}
    {v : Admission} (h : s.reserveNew host a input policy tariff now uuid = .ok (s', v)) :
    (s' = s ∧ ∀ r, v ≠ .admitted r) ∨
      (v = .admitted (newAttempt host a input tariff now uuid) ∧
        s'.attempts = s.attempts ++ [newAttempt host a input tariff now uuid] ∧
        (∀ r ∈ s.attempts, r.id ≠ uuid) ∧
        ∀ b ∈ input.buckets, checkBucket (ledger s.attempts (dayOf a.now) (monthOf a.now))
          (dayOf a.now) (monthOf a.now) tariff (b.constrained policy) = none) := by
  unfold MerchantStore.reserveNew at h
  split at h
  · rw [bind_ok] at h
    obtain ⟨admitted, -, h⟩ := h
    cases h
    refine .inl ⟨rfl, fun r => ?_⟩
    split <;> simp
  · split at h
    · cases h
      exact .inl ⟨rfl, fun r => by simp⟩
    · rename_i hroom
      rw [bind_ok] at h
      obtain ⟨t, hinsert, h⟩ := h
      cases h
      unfold MerchantStore.insert at hinsert
      rw [bind_ok] at hinsert
      obtain ⟨_, hfresh, hinsert⟩ := hinsert
      cases hinsert
      rw [reject_ok, ensure_attempts, any_eq_false] at hfresh
      refine .inr ⟨rfl, by rw [ensure_attempts], fun r hr hid => hfresh r hr ?_, fun b hb => ?_⟩
      · rw [hid]
        simp [newAttempt]
      · exact findSome?_eq_none_iff.mp hroom _ (mem_map_of_mem hb)

/-- **What `reserveAttempt` does**: it answers from the attempts there are, or inserts one. -/
theorem reserveAttempt_ok {s s' : MerchantStore} {host : MerchantHost} {a : ViewAccess}
    {input : ReserveInput} {uuid : String} {v : Admission}
    (h : s.reserveAttempt host a input uuid = .ok (s', v)) :
    (Mapped Quiet s s' ∧ ∀ r, v = .admitted r → r.id ∈ s.attempts.map AttemptRow.id) ∨
      ∃ now policy tariff, timestamp a.now = some now ∧ s.policyValue a.scope = some policy ∧
        v = .admitted (newAttempt host a input tariff now uuid) ∧
        s'.attempts = (s.reconcile now).attempts ++ [newAttempt host a input tariff now uuid] ∧
        (∀ r ∈ (s.reconcile now).attempts, r.id ≠ uuid) ∧
        ∀ b ∈ input.buckets,
          checkBucket (ledger (s.reconcile now).attempts (dayOf a.now) (monthOf a.now))
            (dayOf a.now) (monthOf a.now) tariff (b.constrained policy) = none := by
  unfold MerchantStore.reserveAttempt at h
  simp only [bind_ok] at h
  obtain ⟨now, hvalid, authorized, -, h⟩ := h
  have hnow : timestamp a.now = some now := by
    unfold ReserveInput.validate ViewAccess.validate MerchantAccess.validate at hvalid
    simp only [bind_ok] at hvalid
    obtain ⟨t, ⟨u, ⟨_, -, w, hw, _, -, hu⟩, _, -, _, -, ht⟩, _, -, _, -, _, -, _, -, _, -, _, -, _, -,
      _, -, _, -, h⟩ := hvalid
    cases h
    cases ht
    cases hu
    exact orStop_ok.mp hw
  split at h
  · cases h
    exact .inl ⟨.of_eq Quiet.refl rfl, fun r hr => nomatch hr⟩
  split at h
  · cases h
    exact .inl ⟨.of_eq Quiet.refl rfl, fun r hr => nomatch hr⟩
  rename_i policy tariff hrefusal
  have hpolicy : s.policyValue a.scope = some policy := by
    unfold MerchantStore.refusal at hrefusal
    simp only [bind_ok] at hrefusal
    obtain ⟨_, -, _, -, _, -, p, hp, _, -, _, -, _, -, hrefusal⟩ := hrefusal
    cases hrefusal
    exact orStop_ok.mp hp
  unfold MerchantStore.reserveChecked at h
  split at h
  · rename_i original horiginal
    split at h
    · cases h
      exact .inl ⟨.of_eq Quiet.refl rfl, fun r hr => nomatch hr⟩
    · simp only [bind_ok] at h
      obtain ⟨_, -, current, hcurrent, admitted, -, h⟩ := h
      cases h
      refine .inl ⟨mapped_reconcile s now, fun r hr => ?_⟩
      split at hr
      · cases hr
        have hmem := mem_map_of_mem (f := AttemptRow.id)
          (attemptRow_eq_some (orStop_ok.mp hcurrent)).1
        rwa [(mapped_reconcile s now).ids fun _ _ h => h.id_eq] at hmem
      · cases hr
  · rcases reserveNew_ok h with ⟨rfl, hnot⟩ | ⟨hv, hrows, hfresh, hroom⟩
    · exact .inl ⟨mapped_reconcile s now, fun r hr => absurd hr (hnot r)⟩
    · exact .inr ⟨now, policy, tariff, hnow, hpolicy, hv, hrows, hfresh, hroom⟩

/-! ## What a call does -/

/-- What a call does to one row. -/
inductive RowChange (call : MerchantCall) (r r' : AttemptRow) : Prop
  | quiet (h : Quiet r r')
  | sent (h : Kept r r') (a : ViewAccess) (token : String) (hcall : call = .dispatch a r.id token)
      (hreserved : r.phase = .reserved) (hphase : r'.phase = .dispatched)
  | settled (h : Kept r r') (outcome : AttemptOutcome) (hcall : call.settles r outcome)
      (hnew : r.outcome = none) (hdispatched : r'.dispatchedAt = r.dispatchedAt)
      (hphase : r'.phase = outcome.phase) (hatoms : r'.settledAtoms = outcome.atoms)
      (hreserved : r'.reservedAtoms = r.reservedAtoms)
  | released (h : Kept r r') (hcall : call.releases r) (hphase : r'.phase = .knownFailed)

theorem RowChange.kept (h : RowChange call r r') : Kept r r' := by
  cases h with
  | quiet h => exact h.toKept
  | sent h => exact h
  | settled h => exact h
  | released h => exact h

/-- What a call does to the attempts. -/
inductive StepEffect (call : MerchantCall) (uuid : String) (s s' : MerchantStore) : Prop
  | changed (h : Mapped (RowChange call) s s')
  | reserved (a : ViewAccess) (input : ReserveInput) (t : MerchantStore) (row : AttemptRow)
      (hcall : call = .reserve a input) (h : Mapped Quiet s t)
      (hrows : s'.attempts = t.attempts ++ [row]) (hid : row.id = uuid)
      (hdated : Dated row) (hphase : row.phase = .reserved) (houtcome : row.outcome = none)
      (hsettled : row.settledAtoms = none) (hsent : row.dispatchedAt = none)
  | pruned (text : String) (now : Int) (t : MerchantStore) (hcall : call = .prune text)
      (htime : timestamp text = some now) (h : Mapped Quiet s t)
      (hrows : s'.attempts = t.attempts.filter fun r => !pruned now r)

theorem mapped_sent {s : MerchantStore} {a : ViewAccess} {token : String}
    (hids : (s.attempts.map AttemptRow.id).Nodup) (hmem : row ∈ s.attempts)
    (hphase : row.phase = .reserved) (now : Int) :
    Mapped (RowChange (.dispatch a row.id token)) s
      ((s.reconcile now).update (fun r => r.id == row.id) fun r =>
        { r with phase := .dispatched, dispatchedAt := some now }) := by
  refine (mapped_reconcile s now).trans
    (Q := fun r' r'' => r'' = r' ∨ r'.id = row.id ∧ Kept r' r'' ∧ r''.phase = .dispatched)
    (fun r hr r' r'' hquiet h => ?_)
    (.update (fun r => .inl rfl) fun r _ hid => .inr ⟨beq_iff_eq.mp hid, ?_, rfl⟩)
  · rcases h with rfl | ⟨hid, hkept, hphase'⟩
    · exact .quiet hquiet
    · obtain rfl := inj_on_of_nodup_map hids hr hmem (hquiet.id_eq.symm.trans hid)
      exact .sent (hquiet.toKept.trans hkept) a token rfl hphase hphase'
  · exact { (Quiet.refl r).toKept with reserved := fun h => nomatch h }

theorem mapped_settled {s : MerchantStore} {a : ViewAccess} {token : String}
    {outcome : AttemptOutcome} (hids : (s.attempts.map AttemptRow.id).Nodup)
    (hmem : row ∈ s.attempts) (htoken : row.claimToken = some token) (hnew : row.outcome = none) :
    Mapped (RowChange (.settle a row.id token outcome)) s
      (s.update (fun r => r.id == row.id) fun r =>
        { r with
          phase := outcome.phase
          settledAtoms := outcome.atoms
          outcome := some (.provider outcome) }) := by
  refine .update (fun r => .quiet (.refl r)) fun r hr hid => ?_
  obtain rfl := inj_on_of_nodup_map hids hr hmem (beq_iff_eq.mp hid)
  refine .settled { (Quiet.refl r).toKept with
    reserved := fun h => ?_, outcome := fun _ => rfl, unsettled := fun _ h => nomatch h } outcome
    ⟨a, token, rfl, htoken⟩ hnew rfl rfl rfl rfl
  cases outcome <;> cases h

theorem mapped_released {s : MerchantStore} {o : AttemptOwner}
    (hids : (s.attempts.map AttemptRow.id).Nodup) (hmem : row ∈ s.attempts) (hid : row.id = o.id)
    (htoken : row.claimToken = some o.claimToken) :
    Mapped (RowChange (.release o)) s
      (s.update (fun r => r.id == row.id) (AttemptRow.closed .notInvoked)) := by
  refine .update (fun r => .quiet (.refl r)) fun r hr hid' => ?_
  obtain rfl := inj_on_of_nodup_map hids hr hmem (beq_iff_eq.mp hid')
  exact .released { (Quiet.refl r).toKept with
    reserved := fun h => (nomatch h), outcome := fun _ => rfl, unsettled := fun _ h => nomatch h }
    ⟨o, rfl, hid.symm, htoken⟩ rfl

theorem effect_of_ok {α : Type} {uuid : String} {s : MerchantStore}
    {x : Except String (MerchantStore × α)}
    (h : ∀ s' v, x = .ok (s', v) → StepEffect call uuid s s') :
    StepEffect call uuid s (s.after x) := by
  cases x with
  | error e => exact .changed (.of_eq (fun r => .quiet (.refl r)) rfl)
  | ok v => exact h v.1 v.2 rfl

theorem StepEffect.of_quiet {uuid : String} {s s' : MerchantStore}
    (h : Mapped Quiet s s') : StepEffect call uuid s s' :=
  .changed (h.mono fun _ _ => .quiet)

theorem stepEffect (host : MerchantHost) (uuid : String) {s : MerchantStore}
    (hids : (s.attempts.map AttemptRow.id).Nodup) (call : MerchantCall) :
    StepEffect call uuid s (s.step host uuid call) := by
  cases call with
  | reserve a input =>
    refine effect_of_ok fun s' v h => ?_
    rcases reserveAttempt_ok h with ⟨hquiet, -⟩ | ⟨now, policy, tariff, hnow, -, -, hrows, -, -⟩
    · exact .of_quiet hquiet
    · exact .reserved a input _ _ rfl (mapped_reconcile s now) hrows rfl ⟨a.now, hnow, rfl, rfl⟩
        rfl rfl rfl rfl
  | attempt a id => exact effect_of_ok fun s' v h => .of_quiet (attempt_ok h)
  | claim a id => exact effect_of_ok fun s' v h => .of_quiet (claimAttempt_ok h)
  | dispatch a id token =>
    refine effect_of_ok fun s' v h => ?_
    rcases dispatchAttempt_ok h with ⟨-, hquiet⟩ | ⟨-, row, hmem, now, rfl, hphase, -, -, rfl⟩
    · exact .of_quiet hquiet
    · exact .changed (mapped_sent hids hmem hphase now)
  | abandon a id token => exact effect_of_ok fun s' v h => .of_quiet (abandonAttempt_ok h hids)
  | release o =>
    refine effect_of_ok fun s' v h => ?_
    rcases releaseUnsentAttempt_ok h with rfl | ⟨row, hmem, hid, htoken, rfl⟩
    · exact .of_quiet (.of_eq Quiet.refl rfl)
    · exact .changed (mapped_released hids hmem hid htoken)
  | settle a id token outcome =>
    refine effect_of_ok fun s' v h => ?_
    rcases settleAttempt_ok h with ⟨rfl, -⟩ | ⟨row, hmem, rfl, htoken, hnew, rfl⟩
    · exact .of_quiet (.of_eq Quiet.refl rfl)
    · exact .changed (mapped_settled hids hmem htoken hnew)
  | setPolicy a value expectedVersion =>
    exact effect_of_ok fun s' v h => .of_quiet (setPolicy_ok h)
  | purge a => exact effect_of_ok fun s' v h => .of_quiet (purge_ok h)
  | purgeBudget a => exact effect_of_ok fun s' v h => .of_quiet (purgeBudget_ok h)
  | prune text =>
    unfold MerchantStore.step
    dsimp only
    cases h : s.prune text with
    | error e => exact .of_quiet (.of_eq Quiet.refl rfl)
    | ok s' =>
      obtain ⟨now, t, hnow, hquiet, hrows⟩ := prune_ok h
      exact .pruned text now t rfl hnow hquiet hrows

end BalanceFrame.Merchant
