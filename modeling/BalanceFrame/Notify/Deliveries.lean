import BalanceFrame.Governance.Clock
import BalanceFrame.Notify.Outbox
import Mathlib.Data.List.Nodup

/-!
# Deliveries of notifications

A `Log` is the store with the claims that are held: a claim is held from the call that takes the
record until the delivery is completed, fails or is suppressed. Three things go wrong, each by a call
of its own (`Meets` leaves them out): a suppressed record keeps the token of its claim, and is
returned to it; taking a record does not look at how often it was tried; and an expiry after the year
9999 is a text before every other one.
-/

namespace BalanceFrame.Notify

open Governance (toISOString year10000 toISOString_le)
open NotificationStore List Bool Except

variable {r r' x : OutboxRow} {s s' : NotificationStore} {outboxId claimToken now : String}

/-! ## Runs -/

/-- A claim of a record, until a time. -/
structure Grant where
  outboxId : String
  token : String
  expiresAt : Int
  deriving DecidableEq

structure Log where
  store : NotificationStore
  held : List Grant
  clock : Int

def Log.empty (events : List EventRow) : Log where
  store := { events, outbox := [], attempts := [] }
  held := []
  clock := 0

inductive Call
  | enqueue (input : EnqueueInput) (id : String) (now : Int)
  | claim (outboxId claimToken : String) (claimTimeoutMs now later : Int)
  | complete (outboxId claimToken : String) (code body : Option String) (attemptId : String)
      (now : Int)
  | fail (outboxId claimToken errorMessage : String) (retryable : Bool) (attemptId : String)
      (now : Int)
  | acknowledge (outboxId : String) (now : Int)
  | suppress (outboxId reason : String) (now : Int)

/-- When the clock is read first. -/
def Call.start : Call → Int
  | .enqueue _ _ now | .claim _ _ _ now _ | .complete _ _ _ _ _ now | .fail _ _ _ _ _ now
  | .acknowledge _ now | .suppress _ _ now => now

/-- When the clock is read last. -/
def Call.finish : Call → Int
  | .claim _ _ _ _ later => later
  | call => call.start

/-- The claim that a call makes. -/
def granted (s : NotificationStore) (outboxId claimToken : String) (claimTimeoutMs now later : Int) :
    Option Grant :=
  (claimExpiry later claimTimeoutMs).bind fun expiresAt =>
    (s.takeRecord outboxId claimToken (toISOString expiresAt) (toISOString now)).map fun _ =>
      { outboxId, token := claimToken, expiresAt }

/-- The claims that are left when a delivery ends. -/
def released (held : List Grant) (outboxId : String) (changed : Option NotificationStore) :
    List Grant :=
  if changed.isSome then held.filter fun g => g.outboxId != outboxId else held

def Log.perform (s : Log) (call : Call) : Log :=
  match call with
  | .enqueue input id now => { s with store := (s.store.enqueueNotification input id now).1, clock := now }
  | .claim outboxId claimToken timeout now later =>
    { store := (s.store.claimNotificationDelivery outboxId claimToken timeout now later).1
      held := s.held ++ (granted s.store outboxId claimToken timeout now later).toList
      clock := later }
  | .complete outboxId claimToken code body attemptId now =>
    { store := (s.store.completeNotificationDelivery outboxId claimToken code body attemptId now).1
      held := released s.held outboxId (s.store.completeOutbox outboxId claimToken (toISOString now))
      clock := now }
  | .fail outboxId claimToken errorMessage retryable attemptId now =>
    { store := (s.store.failNotificationDelivery outboxId claimToken errorMessage retryable attemptId
        now).1
      held := released s.held outboxId
        (s.store.failOutbox outboxId claimToken errorMessage (toISOString now))
      clock := now }
  | .acknowledge outboxId now =>
    { s with store := (s.store.acknowledgeNotification outboxId now).1, clock := now }
  | .suppress outboxId reason now =>
    { store := (s.store.suppressNotification outboxId reason now).1
      held := released s.held outboxId (s.store.suppressOutbox outboxId reason (toISOString now))
      clock := now }

def Log.run (s : Log) (calls : List Call) : Log := calls.foldl Log.perform s

/-- The call does not reach one of the three defects: a record is enqueued for no negative number of
attempts; a claim is not made with the token that the record was suppressed under; and a claim that
takes the record finds an attempt left, and expires before the year 10000. -/
def Meets (s : Log) : Call → Prop
  | .enqueue input _ _ => 0 ≤ input.maxAttempts.getD 3
  | .claim outboxId claimToken timeout now later =>
    (∀ r ∈ s.store.outbox, r.id = outboxId → r.claimToken = some claimToken →
      r.status ≠ .suppressed) ∧
    ∀ g, granted s.store outboxId claimToken timeout now later = some g →
      g.expiresAt < year10000 ∧
        ∀ r ∈ s.store.outbox, r.id = outboxId → (r.attemptCount : Int) < r.maxAttempts
  | _ => True

/-- The clock does not go back, and every call meets the condition. -/
def Allowed (s : Log) : List Call → Prop
  | [] => True
  | call :: calls =>
    (s.clock ≤ call.start ∧ call.start ≤ call.finish) ∧ Meets s call ∧
      Allowed (s.perform call) calls

/-! ## One record -/

/-- The record of an identity is replaced. -/
def putRow (outbox : List OutboxRow) (r' : OutboxRow) : List OutboxRow :=
  outbox.map fun r => if r.id = r'.id then r' else r

theorem map_id_putRow (outbox : List OutboxRow) (r' : OutboxRow) :
    (putRow outbox r').map (·.id) = outbox.map (·.id) := by
  unfold putRow
  rw [map_map]
  refine map_congr_left fun r _ => ?_
  by_cases h : r.id = r'.id
  · simp [h]
  · simp [h]

theorem mem_putRow {outbox : List OutboxRow} (hr : r ∈ outbox)
    (hid : r'.id = r.id) : x ∈ putRow outbox r' ↔ x = r' ∨ x ∈ outbox ∧ x.id ≠ r.id := by
  unfold putRow
  rw [mem_map]
  constructor
  · rintro ⟨y, hy, rfl⟩
    by_cases h : y.id = r'.id
    · rw [if_pos h]
      exact .inl rfl
    · rw [if_neg h]
      exact .inr ⟨hy, hid ▸ h⟩
  · rintro (rfl | ⟨hx, hne⟩)
    · exact ⟨r, hr, if_pos hid.symm⟩
    · exact ⟨x, hx, if_neg (hid ▸ hne)⟩

theorem putRow_putRow (outbox : List OutboxRow) {r'' : OutboxRow} (h : r''.id = r'.id) :
    putRow (putRow outbox r') r'' = putRow outbox r'' := by
  unfold putRow
  rw [map_map]
  refine map_congr_left fun r _ => ?_
  by_cases hr : r.id = r'.id
  · simp [hr, h]
  · simp [hr, h]

/-- Identities name the records. -/
def Distinct (s : NotificationStore) : Prop := (s.outbox.map (·.id)).Nodup

theorem Distinct.eq (h : Distinct s) (hr : r ∈ s.outbox)
    (hx : x ∈ s.outbox) (hid : x.id = r.id) : x = r :=
  inj_on_of_nodup_map h hx hr hid

theorem updateOutbox_ok (hs : Distinct s) {id : String}
    {guard : OutboxRow → Bool} {f : OutboxRow → OutboxRow} (hf : ∀ r, (f r).id = r.id)
    (h : s.updateOutbox id guard f = some s') :
    ∃ r ∈ s.outbox, r.id = id ∧ guard r = true ∧
      s' = { s with outbox := putRow s.outbox (f r) } := by
  unfold updateOutbox at h
  split at h
  · rename_i hany
    obtain ⟨r, hr, hmatch⟩ := any_eq_true.mp hany
    rw [and_eq_true, beq_iff_eq] at hmatch
    obtain ⟨rfl, hguard⟩ := hmatch
    refine ⟨r, hr, rfl, hguard, ?_⟩
    cases h
    congr 1
    unfold putRow
    refine map_congr_left fun x hx => ?_
    by_cases hid : x.id = r.id
    · obtain rfl := hs.eq hr hx hid
      rw [hf, if_pos rfl, if_pos (by rw [beq_self_eq_true, hguard]; rfl)]
    · rw [hf, if_neg hid, if_neg (by simp [hid])]
  · cases h

theorem selectOutbox_put
    (hr : r ∈ s.outbox) (hid : r'.id = r.id) (h : s'.outbox = putRow s.outbox r') :
    s'.selectOutbox r.id = some r' := by
  unfold selectOutbox
  rw [h]
  have hmem : r' ∈ putRow s.outbox r' := (mem_putRow hr hid).mpr (.inl rfl)
  cases hfind : (putRow s.outbox r').find? (·.id == r.id) with
  | none =>
    rw [find?_eq_none] at hfind
    exact absurd (beq_iff_eq.mpr hid) (hfind r' hmem)
  | some x =>
    have hx := mem_of_find?_eq_some hfind
    have hxid : x.id = r.id := by simpa using find?_some hfind
    rcases (mem_putRow hr hid).mp hx with rfl | ⟨-, hne⟩
    · rfl
    · exact absurd hxid hne

/-! ## What a call can do -/

/-- A record is replaced by a later state of it. -/
structure Edit (s s' : NotificationStore) (r r' : OutboxRow) : Prop where
  mem : r ∈ s.outbox
  id_eq : r'.id = r.id
  maxAttempts_eq : r'.maxAttempts = r.maxAttempts
  outbox : s'.outbox = putRow s.outbox r'

/-- A claim takes `r`, which then is `r'`. -/
structure Taken (s s' : Log) (g : Grant) (r r' : OutboxRow) : Prop where
  edit : Edit s.store s'.store r r'
  id_eq : r.id = g.outboxId
  from_ : r.status = .pending ∨ r.status = .failed ∨ r.status = .delivering ∧
    ∃ e now, r.claimExpiresAt = some e ∧ e < toISOString now ∧ s.clock ≤ now ∧ now ≤ s'.clock
  status : r'.status = .delivering
  token : r'.claimToken = some g.token
  expires : r'.claimExpiresAt = some (toISOString g.expiresAt)
  attemptCount : r'.attemptCount = r.attemptCount + 1
  year : g.expiresAt < year10000
  left : (r.attemptCount : Int) < r.maxAttempts
  attempts : s'.store.attempts = s.store.attempts
  held : s'.held = s.held ++ [g]

/-- The delivery of `r` ends. -/
structure Ended (s s' : Log) (r r' : OutboxRow) : Prop where
  edit : Edit s.store s'.store r r'
  from_ : r.status ≠ .delivered ∧ r.status ≠ .suppressed
  status : (r'.status = .delivered ∨ r'.status = .failed) ∧ r'.claimToken = none ∨
    r'.status = .suppressed
  attemptCount : r'.attemptCount = r.attemptCount
  attempts : s'.store.attempts = s.store.attempts ∨ ∃ a, a.outboxId = r.id ∧
    (a.status = .success → r'.status = .delivered) ∧ s'.store.attempts = s.store.attempts ++ [a]
  held : s'.held = s.held.filter fun g => g.outboxId != r.id

inductive Change (s s' : Log) : Prop
  | idle (hstore : s'.store = s.store) (hheld : s'.held = s.held)
  | enqueued (row : OutboxRow) (hfresh : ∀ r ∈ s.store.outbox, r.id ≠ row.id)
      (hstatus : row.status = .pending) (htoken : row.claimToken = none)
      (hcount : row.attemptCount = 0) (hmax : 0 ≤ row.maxAttempts)
      (houtbox : s'.store.outbox = s.store.outbox ++ [row])
      (hattempts : s'.store.attempts = s.store.attempts) (hheld : s'.held = s.held)
  | taken (g : Grant) (r r' : OutboxRow) (h : Taken s s' g r r')
  | ended (r r' : OutboxRow) (h : Ended s s' r r')
  | acknowledged (r r' : OutboxRow) (hedit : Edit s.store s'.store r r')
      (hfrom : r.status = .delivered) (hto : r'.status = .delivered)
      (htoken : r'.claimToken = r.claimToken) (hcount : r'.attemptCount = r.attemptCount)
      (hattempts : s'.store.attempts = s.store.attempts) (hheld : s'.held = s.held)

theorem edit_of_update (hs : Distinct s) {id : String}
    {guard : OutboxRow → Bool} {f : OutboxRow → OutboxRow} (h : s.updateOutbox id guard f = some s')
    (hf : ∀ r, (f r).id = r.id) (hmax : ∀ r, (f r).maxAttempts = r.maxAttempts) :
    ∃ r, Edit s s' r (f r) ∧ r.id = id ∧ guard r = true ∧ s'.attempts = s.attempts := by
  obtain ⟨r, hr, hid, hguard, rfl⟩ := updateOutbox_ok hs hf h
  exact ⟨r, ⟨hr, hf r, hmax r, rfl⟩, hid, hguard, rfl⟩

theorem distinct_edit (hs : Distinct s) (h : Edit s s' r r') : Distinct s' := by
  unfold Distinct
  rw [h.outbox, map_id_putRow]
  exact hs

theorem takeRecord_ok (hs : Distinct s) {expiresAt : String}
    (h : s.takeRecord outboxId claimToken expiresAt now = some s') :
    ∃ r r', Edit s s' r r' ∧ r.id = outboxId ∧
      (r.status = .pending ∨ r.status = .failed ∨
        r.status = .delivering ∧ ∃ e, r.claimExpiresAt = some e ∧ e < now) ∧
      r'.status = .delivering ∧ r'.claimToken = some claimToken ∧
      r'.claimExpiresAt = some expiresAt ∧ r'.attemptCount = r.attemptCount + 1 ∧
      s'.attempts = s.attempts := by
  unfold takeRecord at h
  rw [Option.or_eq_some_iff, Option.or_eq_some_iff] at h
  rcases h with h | ⟨-, h | ⟨-, h⟩⟩
  · unfold claimOutboxPending at h
    obtain ⟨r, hedit, hid, hguard, hattempts⟩ :=
      edit_of_update hs h (fun _ => rfl) (fun _ => rfl)
    exact ⟨r, _, hedit, hid, .inl (beq_iff_eq.mp hguard), rfl, rfl, rfl, rfl, hattempts⟩
  · unfold claimOutboxExpired at h
    obtain ⟨r, hedit, hid, hguard, hattempts⟩ :=
      edit_of_update hs h (fun _ => rfl) (fun _ => rfl)
    unfold expiredClaim at hguard
    rw [and_eq_true, beq_iff_eq, Option.any_eq_true] at hguard
    obtain ⟨hstatus, e, he, hlt⟩ := hguard
    exact ⟨r, _, hedit, hid, .inr (.inr ⟨hstatus, e, he, of_decide_eq_true hlt⟩), rfl, rfl, rfl,
      rfl, hattempts⟩
  · unfold claimOutboxRetryable at h
    obtain ⟨r, hedit, hid, hguard, hattempts⟩ :=
      edit_of_update hs h (fun _ => rfl) (fun _ => rfl)
    unfold retryDue at hguard
    rw [and_eq_true, beq_iff_eq] at hguard
    exact ⟨r, _, hedit, hid, .inr (.inl hguard.1), rfl, rfl, rfl, rfl, hattempts⟩

theorem completeOutbox_ok (hs : Distinct s)
    (h : s.completeOutbox outboxId claimToken now = some s') :
    ∃ r r', Edit s s' r r' ∧ r.id = outboxId ∧ r.status = .delivering ∧ r'.status = .delivered ∧
      r'.claimToken = none ∧ r'.attemptCount = r.attemptCount ∧ s'.attempts = s.attempts := by
  unfold completeOutbox at h
  obtain ⟨r, hedit, hid, hguard, hattempts⟩ := edit_of_update hs h (fun _ => rfl) (fun _ => rfl)
  unfold deliveringUnder at hguard
  rw [and_eq_true, beq_iff_eq] at hguard
  exact ⟨r, _, hedit, hid, hguard.1, rfl, rfl, rfl, hattempts⟩

theorem failOutbox_ok (hs : Distinct s) {errorMessage : String}
    (h : s.failOutbox outboxId claimToken errorMessage now = some s') :
    ∃ r r', Edit s s' r r' ∧ r.id = outboxId ∧ r.status = .delivering ∧ r'.status = .failed ∧
      r'.claimToken = none ∧ r'.attemptCount = r.attemptCount ∧ s'.attempts = s.attempts := by
  unfold failOutbox at h
  obtain ⟨r, hedit, hid, hguard, hattempts⟩ := edit_of_update hs h (fun _ => rfl) (fun _ => rfl)
  unfold deliveringUnder at hguard
  rw [and_eq_true, beq_iff_eq] at hguard
  exact ⟨r, _, hedit, hid, hguard.1, rfl, rfl, rfl, hattempts⟩

theorem insertDeliveryAttempt_ok {attempt : AttemptRow}
    (h : s.insertDeliveryAttempt attempt = .ok s') :
    s' = { s with attempts := s.attempts ++ [attempt] } := by
  unfold insertDeliveryAttempt at h
  split at h
  · cases h
  · exact (ok.inj h).symm

theorem scheduleRetryOutbox_edit (hs : Distinct s)
    (h : Edit s s' r r') (nextAttemptAt now : String) :
    ∃ r'', Edit s (s'.scheduleRetryOutbox r.id nextAttemptAt now) r r'' ∧ r''.status = r'.status ∧
      r''.claimToken = r'.claimToken ∧ r''.attemptCount = r'.attemptCount ∧
      (s'.scheduleRetryOutbox r.id nextAttemptAt now).attempts = s'.attempts := by
  have hs' := distinct_edit hs h
  unfold scheduleRetryOutbox
  cases hupdate : s'.updateOutbox r.id (fun _ => true) fun x =>
      { x with nextAttemptAt := some nextAttemptAt, updatedAt := now } with
  | none => exact ⟨r', h, rfl, rfl, rfl, rfl⟩
  | some s'' =>
    obtain ⟨x, hedit, hid, -, hattempts⟩ := edit_of_update hs' hupdate (fun _ => rfl) (fun _ => rfl)
    have hmem : r' ∈ s'.outbox := by
      rw [h.outbox]
      exact (mem_putRow h.mem h.id_eq).mpr (.inl rfl)
    obtain rfl : x = r' := hs'.eq hmem hedit.mem (hid.trans h.id_eq.symm)
    refine ⟨{ x with nextAttemptAt := some nextAttemptAt, updatedAt := now },
      ⟨h.mem, hid, h.maxAttempts_eq, ?_⟩, rfl, rfl, rfl, hattempts⟩
    rw [Option.getD_some, hedit.outbox, h.outbox]
    exact putRow_putRow s.outbox rfl

theorem complete_change {s : Log} (hs : Distinct s.store) (outboxId claimToken : String)
    (code body : Option String) (attemptId : String) (now : Int) :
    Change s (s.perform (.complete outboxId claimToken code body attemptId now)) := by
  unfold Log.perform completeNotificationDelivery released
  dsimp only
  cases h : s.store.completeOutbox outboxId claimToken (toISOString now) with
  | none => exact .idle rfl rfl
  | some s' =>
    obtain ⟨r, r', hedit, rfl, hfrom, hto, htoken, hcount, hattempts⟩ := completeOutbox_ok hs h
    have hselect : s'.selectOutbox r.id = some r' :=
      selectOutbox_put hedit.mem hedit.id_eq hedit.outbox
    dsimp only
    rw [hselect]
    dsimp only
    cases hinsert : s'.insertDeliveryAttempt
        { id := attemptId, outboxId := r.id, attemptNumber := r'.attemptCount, status := .success
          responseCode := code, responseBody := body, errorMessage := none
          attemptedAt := toISOString now } with
    | error e =>
      exact .ended r r' ⟨hedit, by rw [hfrom]; exact ⟨nofun, nofun⟩, .inl ⟨.inl hto, htoken⟩, hcount,
        .inl hattempts, rfl⟩
    | ok s'' =>
      obtain rfl := insertDeliveryAttempt_ok hinsert
      exact .ended r r' ⟨⟨hedit.mem, hedit.id_eq, hedit.maxAttempts_eq, hedit.outbox⟩,
        by rw [hfrom]; exact ⟨nofun, nofun⟩, .inl ⟨.inl hto, htoken⟩, hcount,
        .inr ⟨_, rfl, fun _ => hto, by rw [hattempts]⟩, rfl⟩

theorem fail_change {s : Log} (hs : Distinct s.store) (outboxId claimToken errorMessage : String)
    (retryable : Bool) (attemptId : String) (now : Int) :
    Change s (s.perform (.fail outboxId claimToken errorMessage retryable attemptId now)) := by
  unfold Log.perform failNotificationDelivery released
  dsimp only
  cases h : s.store.failOutbox outboxId claimToken errorMessage (toISOString now) with
  | none => exact .idle rfl rfl
  | some s' =>
    obtain ⟨r, r', hedit, rfl, hfrom, hto, htoken, hcount, hattempts⟩ := failOutbox_ok hs h
    have hselect : s'.selectOutbox r.id = some r' :=
      selectOutbox_put hedit.mem hedit.id_eq hedit.outbox
    dsimp only
    rw [hselect]
    dsimp only
    generalize hattempt : ({ id := attemptId, outboxId := r.id, attemptNumber := r'.attemptCount
                             status := .failed, responseCode := none, responseBody := none
                             errorMessage := some errorMessage
                             attemptedAt := toISOString now } : AttemptRow) = attempt
    have hid : attempt.outboxId = r.id := by rw [← hattempt]
    have hsuccess : attempt.status = .success → False := by
      rw [← hattempt]
      nofun
    cases hinsert : s'.insertDeliveryAttempt attempt with
    | error e =>
      exact .ended r r' ⟨hedit, by rw [hfrom]; exact ⟨nofun, nofun⟩, .inl ⟨.inr hto, htoken⟩, hcount,
        .inl hattempts, rfl⟩
    | ok s'' =>
      obtain rfl := insertDeliveryAttempt_ok hinsert
      have hedit' : Edit s.store { s' with attempts := s'.attempts ++ [attempt] } r r' :=
        ⟨hedit.mem, hedit.id_eq, hedit.maxAttempts_eq, hedit.outbox⟩
      dsimp only
      split
      · obtain ⟨r'', hedit'', hstatus, htoken'', hcount'', hattempts''⟩ :=
          scheduleRetryOutbox_edit hs hedit' (toISOString now) (toISOString now)
        exact .ended r r'' ⟨hedit'', by rw [hfrom]; exact ⟨nofun, nofun⟩,
          .inl ⟨.inr (hstatus.trans hto), htoken''.trans htoken⟩, hcount''.trans hcount,
          .inr ⟨attempt, hid, fun h => (hsuccess h).elim, by rw [hattempts'', hattempts]⟩, rfl⟩
      · exact .ended r r' ⟨hedit', by rw [hfrom]; exact ⟨nofun, nofun⟩, .inl ⟨.inr hto, htoken⟩,
          hcount, .inr ⟨attempt, hid, fun h => (hsuccess h).elim, by rw [hattempts]⟩, rfl⟩

theorem suppress_change {s : Log} (hs : Distinct s.store) (outboxId reason : String) (now : Int) :
    Change s (s.perform (.suppress outboxId reason now)) := by
  unfold Log.perform suppressNotification readBack released
  dsimp only
  cases h : s.store.suppressOutbox outboxId reason (toISOString now) with
  | none => exact .idle rfl rfl
  | some s' =>
    unfold suppressOutbox at h
    obtain ⟨r, hedit, rfl, hguard, hattempts⟩ := edit_of_update hs h (fun _ => rfl) (fun _ => rfl)
    refine .ended r _ ⟨hedit, ⟨fun hstatus => ?_, fun hstatus => ?_⟩, .inr rfl, rfl, .inl hattempts,
      rfl⟩
    · rw [hstatus] at hguard
      cases hguard
    · rw [hstatus] at hguard
      cases hguard

theorem acknowledge_change {s : Log} (hs : Distinct s.store) (outboxId : String) (now : Int) :
    Change s (s.perform (.acknowledge outboxId now)) := by
  unfold Log.perform acknowledgeNotification readBack
  dsimp only
  cases h : s.store.acknowledgeOutbox outboxId (toISOString now) with
  | none => exact .idle rfl rfl
  | some s' =>
    unfold acknowledgeOutbox at h
    obtain ⟨r, hedit, rfl, hguard, hattempts⟩ := edit_of_update hs h (fun _ => rfl) (fun _ => rfl)
    have hfrom : r.status = .delivered := beq_iff_eq.mp hguard
    exact .acknowledged r _ hedit hfrom hfrom rfl rfl hattempts rfl

theorem enqueue_change {s : Log} (input : EnqueueInput) (id : String) (now : Int)
    (hmeets : Meets s (.enqueue input id now)) :
    Change s (s.perform (.enqueue input id now)) := by
  unfold Log.perform enqueueNotification
  dsimp only
  split
  · exact .idle rfl rfl
  · split
    · split
      · exact .idle rfl rfl
      · exact .idle rfl rfl
    · split
      · exact .idle rfl rfl
      · rename_i hfresh
        refine .enqueued (newRow input id (toISOString now)) (fun r hr hid => ?_) rfl rfl rfl hmeets
          rfl rfl rfl
        exact hfresh (any_eq_true.mpr ⟨r, hr, beq_iff_eq.mpr hid⟩)

theorem claim_change {s : Log} (hs : Distinct s.store) (outboxId claimToken : String)
    (timeout now later : Int) (hstart : s.clock ≤ now) (hfinish : now ≤ later)
    (hmeets : Meets s (.claim outboxId claimToken timeout now later)) :
    Change s (s.perform (.claim outboxId claimToken timeout now later)) := by
  obtain ⟨-, hmeets⟩ := hmeets
  unfold Log.perform claimNotificationDelivery
  dsimp only
  unfold granted at hmeets ⊢
  cases hexpiry : claimExpiry later timeout with
  | none =>
    refine .idle rfl ?_
    simp
  | some expiresAt =>
    rw [hexpiry, Option.bind_some] at hmeets
    rw [Option.bind_some]
    dsimp only
    cases htake : s.store.takeRecord outboxId claimToken (toISOString expiresAt) (toISOString now) with
    | none =>
      refine .idle rfl ?_
      simp
    | some s' =>
      rw [htake] at hmeets
      obtain ⟨hyear, hleft⟩ := hmeets _ rfl
      obtain ⟨r, r', hedit, rfl, hfrom, hstatus, htoken, hexpires, hcount, hattempts⟩ :=
        takeRecord_ok hs htake
      refine .taken ⟨r.id, claimToken, expiresAt⟩ r r' ⟨hedit, rfl, ?_, hstatus, htoken, hexpires,
        hcount, hyear, hleft r hedit.mem rfl, hattempts, rfl⟩
      rcases hfrom with h | h | ⟨h, e, he, hlt⟩
      · exact .inl h
      · exact .inr (.inl h)
      · exact .inr (.inr ⟨h, e, now, he, hlt, hstart, hfinish⟩)

theorem perform_cases {s : Log} (hs : Distinct s.store) (call : Call)
    (hclock : s.clock ≤ call.start ∧ call.start ≤ call.finish) (hmeets : Meets s call) :
    Change s (s.perform call) := by
  cases call with
  | enqueue input id now => exact enqueue_change input id now hmeets
  | claim outboxId claimToken timeout now later =>
    exact claim_change hs outboxId claimToken timeout now later hclock.1 hclock.2 hmeets
  | complete outboxId claimToken code body attemptId now =>
    exact complete_change hs outboxId claimToken code body attemptId now
  | fail outboxId claimToken errorMessage retryable attemptId now =>
    exact fail_change hs outboxId claimToken errorMessage retryable attemptId now
  | acknowledge outboxId now => exact acknowledge_change hs outboxId now
  | suppress outboxId reason now => exact suppress_change hs outboxId reason now

theorem clock_perform (s : Log) (call : Call) : (s.perform call).clock = call.finish := by
  cases call <;> rfl

/-! ## The invariant -/

/-- The record is in delivery, and under this claim if the claim has not expired. -/
def Grant.On (g : Grant) (clock : Int) (r : OutboxRow) : Prop :=
  r.status = .delivering ∧ ∃ token e, r.claimToken = some token ∧
    r.claimExpiresAt = some (toISOString e) ∧ e < year10000 ∧
      (token = g.token ∧ e = g.expiresAt ∨ g.expiresAt < clock)

/-- The recorded successes of a record. -/
def successes (s : NotificationStore) (outboxId : String) : Nat :=
  (s.attempts.filter fun a => a.outboxId == outboxId && a.status == .success).length

structure Sound (s : Log) : Prop where
  distinct : Distinct s.store
  clock : 0 ≤ s.clock
  free : ∀ r ∈ s.store.outbox, r.claimToken ≠ none → r.status = .delivering ∨ r.status = .suppressed
  bounded : ∀ r ∈ s.store.outbox, (r.attemptCount : Int) ≤ r.maxAttempts
  held : ∀ g ∈ s.held, ∃ r ∈ s.store.outbox, r.id = g.outboxId ∧ g.On s.clock r
  once : ∀ outboxId, successes s.store outboxId ≤ 1
  success : ∀ a ∈ s.store.attempts, a.status = .success →
    ∃ r ∈ s.store.outbox, r.id = a.outboxId ∧ r.status = .delivered

theorem Grant.On.later {g : Grant} {clock clock' : Int} (h : g.On clock r)
    (hle : clock ≤ clock') : g.On clock' r := by
  obtain ⟨hstatus, token, e, htoken, he, hyear, hg⟩ := h
  exact ⟨hstatus, token, e, htoken, he, hyear, hg.imp_right fun hlt => hlt.trans_le hle⟩

theorem Grant.On.expired {g : Grant} {clock now : Int} {e : String}
    (h : g.On clock r) (h0 : 0 ≤ clock) (hnow : clock ≤ now) (he : r.claimExpiresAt = some e)
    (hlt : e < toISOString now) : g.expiresAt < now := by
  obtain ⟨-, token, e', -, he', hyear, hg⟩ := h
  rcases hg with ⟨-, rfl⟩ | hg
  · rw [he'] at he
    cases he
    by_contra hle
    exact toISOString_le (h0.trans hnow) (not_lt.mp hle) hyear hlt
  · exact hg.trans_le hnow

/-- The members of a table after an edit: the new state of the record, and the others. -/
theorem Edit.forall_mem (h : Edit s s' r r')
    {P : OutboxRow → Prop} (hP : ∀ x ∈ s.outbox, P x) (hr' : P r') : ∀ x ∈ s'.outbox, P x := by
  intro x hx
  rw [h.outbox] at hx
  rcases (mem_putRow h.mem h.id_eq).mp hx with rfl | ⟨hx, -⟩
  · exact hr'
  · exact hP x hx

theorem Edit.mem_self (h : Edit s s' r r') : r' ∈ s'.outbox := by
  rw [h.outbox]
  exact (mem_putRow h.mem h.id_eq).mpr (.inl rfl)

theorem Edit.mem_other (h : Edit s s' r r') (hx : x ∈ s.outbox) (hne : x.id ≠ r.id) : x ∈ s'.outbox := by
  rw [h.outbox]
  exact (mem_putRow h.mem h.id_eq).mpr (.inr ⟨hx, hne⟩)

/-- The successes stay with their records, where a delivered one stays delivered. -/
theorem Sound.success_edit {s : Log} (h : Sound s)
    (hedit : Edit s.store s' r r') (hkeep : r.status = .delivered → r'.status = .delivered)
    {a : AttemptRow} (ha : a ∈ s.store.attempts) (hsuccess : a.status = .success) :
    ∃ x ∈ s'.outbox, x.id = a.outboxId ∧ x.status = .delivered := by
  obtain ⟨x, hx, hid, hstatus⟩ := h.success a ha hsuccess
  by_cases hxr : x.id = r.id
  · obtain rfl := h.distinct.eq hedit.mem hx hxr
    exact ⟨r', hedit.mem_self, hedit.id_eq.trans hid, hkeep hstatus⟩
  · exact ⟨x, hedit.mem_other hx hxr, hid, hstatus⟩

theorem Sound.taken {s s' : Log} (h : Sound s) (hclock : s.clock ≤ s'.clock) {g : Grant}
    (ht : Taken s s' g r r') : Sound s' where
  distinct := distinct_edit h.distinct ht.edit
  clock := h.clock.trans hclock
  free := ht.edit.forall_mem h.free fun _ => .inl ht.status
  bounded := ht.edit.forall_mem h.bounded (by
    have hleft := ht.left
    rw [ht.attemptCount, ht.edit.maxAttempts_eq]
    omega)
  held := by
    have hnew : g.On s'.clock r' :=
      ⟨ht.status, g.token, g.expiresAt, ht.token, ht.expires, ht.year, .inl ⟨rfl, rfl⟩⟩
    intro g' hg'
    rw [ht.held] at hg'
    rcases mem_append.mp hg' with hg' | hg'
    · obtain ⟨x, hx, hid, hon⟩ := h.held g' hg'
      by_cases hxr : x.id = r.id
      · -- the claims held before have expired: the record was in delivery
        obtain rfl := h.distinct.eq ht.edit.mem hx hxr
        refine ⟨r', ht.edit.mem_self, ht.edit.id_eq.trans hid, ht.status, g.token, g.expiresAt,
          ht.token, ht.expires, ht.year, .inr ?_⟩
        rcases ht.from_ with hpending | hfailed | ⟨-, e, now, he, hlt, hstart, hfinish⟩
        · exact absurd (hpending.symm.trans hon.1) nofun
        · exact absurd (hfailed.symm.trans hon.1) nofun
        · exact (hon.expired h.clock hstart he hlt).trans_le hfinish
      · exact ⟨x, ht.edit.mem_other hx hxr, hid, hon.later hclock⟩
    · obtain rfl := mem_singleton.mp hg'
      exact ⟨r', ht.edit.mem_self, ht.edit.id_eq.trans ht.id_eq, hnew⟩
  once outboxId := by
    unfold successes
    rw [ht.attempts]
    exact h.once outboxId
  success a ha hsuccess := by
    rw [ht.attempts] at ha
    refine h.success_edit ht.edit (fun hdelivered => ?_) ha hsuccess
    rcases ht.from_ with hpending | hfailed | ⟨hdelivering, -⟩
    · exact absurd (hpending.symm.trans hdelivered) nofun
    · exact absurd (hfailed.symm.trans hdelivered) nofun
    · exact absurd (hdelivering.symm.trans hdelivered) nofun

theorem Sound.ended {s s' : Log} (h : Sound s) (hclock : s.clock ≤ s'.clock)
    (he : Ended s s' r r') : Sound s' where
  distinct := distinct_edit h.distinct he.edit
  clock := h.clock.trans hclock
  free := he.edit.forall_mem h.free fun htoken => by
    rcases he.status with ⟨-, hnone⟩ | hsuppressed
    · exact absurd hnone htoken
    · exact .inr hsuppressed
  bounded := he.edit.forall_mem h.bounded (by
    rw [he.attemptCount, he.edit.maxAttempts_eq]
    exact h.bounded r he.edit.mem)
  held := by
    intro g hg
    rw [he.held] at hg
    obtain ⟨hg, hne⟩ := mem_filter.mp hg
    obtain ⟨x, hx, hid, hon⟩ := h.held g hg
    refine ⟨x, he.edit.mem_other hx ?_, hid, hon.later hclock⟩
    rw [hid]
    exact bne_iff_ne.mp hne
  once outboxId := by
    unfold successes
    rcases he.attempts with hsame | ⟨a, hid, -, hmore⟩
    · rw [hsame]
      exact h.once outboxId
    · rw [hmore, filter_append, length_append]
      by_cases hnew : (a.outboxId == outboxId && a.status == .success) = true
      · -- a success is the first: the record was not delivered
        rw [and_eq_true, beq_iff_eq] at hnew
        have hnone : s.store.attempts.filter (fun a => a.outboxId == outboxId &&
            a.status == .success) = [] := by
          rw [filter_eq_nil_iff]
          intro b hb hmatch
          rw [and_eq_true, beq_iff_eq, beq_iff_eq] at hmatch
          obtain ⟨x, hx, hxid, hstatus⟩ := h.success b hb hmatch.2
          have hxr : x.id = r.id := hxid.trans (hmatch.1.trans (hnew.1.symm.trans hid))
          obtain rfl := h.distinct.eq he.edit.mem hx hxr
          exact he.from_.1 hstatus
        rw [hnone, length_nil, Nat.zero_add]
        exact length_filter_le _ [a]
      · rw [filter_cons, if_neg hnew]
        exact h.once outboxId
  success a ha hsuccess := by
    have hold : ∀ b ∈ s.store.attempts, b.status = .success →
        ∃ x ∈ s'.store.outbox, x.id = b.outboxId ∧ x.status = .delivered := fun b hb hb' =>
      h.success_edit he.edit (fun hdelivered => absurd hdelivered he.from_.1) hb hb'
    rcases he.attempts with hsame | ⟨b, hid, hstatus, hmore⟩
    · rw [hsame] at ha
      exact hold a ha hsuccess
    · rw [hmore] at ha
      rcases mem_append.mp ha with ha | ha
      · exact hold a ha hsuccess
      · obtain rfl := mem_singleton.mp ha
        exact ⟨r', he.edit.mem_self, he.edit.id_eq.trans hid.symm, hstatus hsuccess⟩

theorem Sound.change {s s' : Log} (h : Sound s) (hclock : s.clock ≤ s'.clock)
    (hchange : Change s s') : Sound s' := by
  have hcount : ∀ {outboxId}, s'.store.attempts = s.store.attempts →
      successes s'.store outboxId ≤ 1 := by
    intro outboxId hsame
    unfold successes
    rw [hsame]
    exact h.once outboxId
  cases hchange with
  | idle hstore hheld =>
    refine ⟨by rw [hstore]; exact h.distinct, h.clock.trans hclock, by rw [hstore]; exact h.free,
      by rw [hstore]; exact h.bounded, fun g hg => ?_, by rw [hstore]; exact h.once,
      by rw [hstore]; exact h.success⟩
    rw [hheld] at hg
    obtain ⟨r, hr, hid, hon⟩ := h.held g hg
    exact ⟨r, by rwa [hstore], hid, hon.later hclock⟩
  | enqueued row hfresh hstatus htoken hzero hmax houtbox hattempts hheld =>
    have hold : ∀ r ∈ s.store.outbox, r ∈ s'.store.outbox := by
      intro r hr
      rw [houtbox]
      exact mem_append_left _ hr
    have hall : ∀ {P : OutboxRow → Prop}, (∀ r ∈ s.store.outbox, P r) → P row →
        ∀ r ∈ s'.store.outbox, P r := by
      intro P hP hrow r hr
      rw [houtbox] at hr
      rcases mem_append.mp hr with hr | hr
      · exact hP r hr
      · rwa [mem_singleton.mp hr]
    refine ⟨?_, h.clock.trans hclock, hall h.free fun hsome => absurd htoken hsome,
      hall h.bounded (by rw [hzero]; exact hmax), fun g hg => ?_, fun _ => hcount hattempts,
      fun a ha hsuccess => ?_⟩
    · unfold Distinct
      rw [houtbox, map_append, nodup_append]
      refine ⟨h.distinct, nodup_singleton _, fun i hi j hj hij => ?_⟩
      obtain ⟨r, hr, rfl⟩ := mem_map.mp hi
      exact hfresh r hr (hij.trans (mem_singleton.mp hj))
    · rw [hheld] at hg
      obtain ⟨r, hr, hid, hon⟩ := h.held g hg
      exact ⟨r, hold r hr, hid, hon.later hclock⟩
    · rw [hattempts] at ha
      obtain ⟨r, hr, hrest⟩ := h.success a ha hsuccess
      exact ⟨r, hold r hr, hrest⟩
  | taken g r r' ht => exact h.taken hclock ht
  | ended r r' he => exact h.ended hclock he
  | acknowledged r r' hedit hfrom hto htoken hattempt hattempts hheld =>
    refine ⟨distinct_edit h.distinct hedit, h.clock.trans hclock,
      hedit.forall_mem h.free fun hsome => ?_, hedit.forall_mem h.bounded ?_, fun g hg => ?_,
      fun _ => hcount hattempts, fun a ha hsuccess => ?_⟩
    · rw [htoken] at hsome
      rcases h.free r hedit.mem hsome with hstatus | hstatus
      · exact absurd (hfrom.symm.trans hstatus) nofun
      · exact absurd (hfrom.symm.trans hstatus) nofun
    · rw [hattempt, hedit.maxAttempts_eq]
      exact h.bounded r hedit.mem
    · rw [hheld] at hg
      obtain ⟨x, hx, hid, hon⟩ := h.held g hg
      refine ⟨x, hedit.mem_other hx fun hxr => ?_, hid, hon.later hclock⟩
      obtain rfl := h.distinct.eq hedit.mem hx hxr
      exact absurd (hfrom.symm.trans hon.1) nofun
    · rw [hattempts] at ha
      exact h.success_edit hedit (fun _ => hto) ha hsuccess

theorem Sound.perform {s : Log} (h : Sound s) (call : Call)
    (hclock : s.clock ≤ call.start ∧ call.start ≤ call.finish) (hmeets : Meets s call) :
    Sound (s.perform call) := by
  refine h.change ?_ (perform_cases h.distinct call hclock hmeets)
  rw [clock_perform]
  exact hclock.1.trans hclock.2

theorem Sound.run {s : Log} (h : Sound s) (calls : List Call) (hallowed : Allowed s calls) :
    Sound (s.run calls) := by
  induction calls generalizing s with
  | nil => exact h
  | cons call calls ih =>
    obtain ⟨hclock, hmeets, hrest⟩ := hallowed
    exact ih (h.perform call hclock hmeets) hrest

theorem sound_empty (events : List EventRow) : Sound (Log.empty events) where
  distinct := nodup_nil
  clock := le_refl (0 : Int)
  free _ hr := absurd hr not_mem_nil
  bounded _ hr := absurd hr not_mem_nil
  held _ hg := absurd hg not_mem_nil
  once _ := Nat.zero_le _
  success _ ha := absurd ha not_mem_nil

/-! ## Every run -/

/-- **A claim** returns the record that is delivered under its token. -/
theorem Sound.claimed {s : Log} (h : Sound s)
    {timeout now later : Int} (hmeets : Meets s (.claim outboxId claimToken timeout now later))
    (hr : (s.store.claimNotificationDelivery outboxId claimToken timeout now later).2 =
      .ok (some r)) :
    r.id = outboxId ∧ r.status = .delivering ∧ r.claimToken = some claimToken := by
  obtain ⟨hkept, -⟩ := hmeets
  unfold claimNotificationDelivery at hr
  cases hexpiry : claimExpiry later timeout with
  | none =>
    rw [hexpiry] at hr
    cases hr
  | some expiresAt =>
    rw [hexpiry] at hr
    dsimp only at hr
    cases htake : s.store.takeRecord outboxId claimToken (toISOString expiresAt)
        (toISOString now) with
    | some s' =>
      rw [htake] at hr
      obtain ⟨x, r', hedit, rfl, -, hstatus, htoken, -⟩ := takeRecord_ok h.distinct htake
      have hselect : s'.selectOutbox x.id = some r' :=
        selectOutbox_put hedit.mem hedit.id_eq hedit.outbox
      have heq : s'.selectOutbox x.id = some r := ok.inj hr
      rw [hselect, Option.some.injEq] at heq
      subst heq
      exact ⟨hedit.id_eq, hstatus, htoken⟩
    | none =>
      -- nothing is taken, so the record carries the token already
      rw [htake] at hr
      have hfind : s.store.selectClaimedOutbox outboxId claimToken = some r := ok.inj hr
      unfold selectClaimedOutbox at hfind
      have hmem := mem_of_find?_eq_some hfind
      have hmatch := find?_some hfind
      rw [and_eq_true, beq_iff_eq, beq_iff_eq] at hmatch
      obtain ⟨hid, htoken⟩ := hmatch
      refine ⟨hid, (h.free r hmem ?_).resolve_right (hkept r hmem hid htoken), htoken⟩
      rw [htoken]
      nofun

/-- **Of the claims of one record that have not expired, all are one worker's.** -/
theorem Sound.held_once {s : Log} (h : Sound s) {g g' : Grant} (hg : g ∈ s.held) (hg' : g' ∈ s.held)
    (hid : g.outboxId = g'.outboxId) (hlive : s.clock ≤ g.expiresAt)
    (hlive' : s.clock ≤ g'.expiresAt) : g.token = g'.token := by
  obtain ⟨r, hr, hrid, -, token, e, htoken, -, -, hon⟩ := h.held g hg
  obtain ⟨r', hr', hrid', -, token', e', htoken', -, -, hon'⟩ := h.held g' hg'
  obtain rfl := h.distinct.eq hr hr' (hrid'.trans (hid.symm.trans hrid.symm))
  obtain ⟨rfl, -⟩ := hon.resolve_right (not_lt.mpr hlive)
  obtain ⟨rfl, -⟩ := hon'.resolve_right (not_lt.mpr hlive')
  exact Option.some.inj (htoken.symm.trans htoken')

theorem Change.terminal {s s' : Log} (h : Change s s') (hs : Distinct s.store)
    (hr : r ∈ s.store.outbox) (hterminal : r.status = .delivered ∨ r.status = .suppressed) :
    ∃ r' ∈ s'.store.outbox, r'.id = r.id ∧ r'.status = r.status := by
  have hedited : ∀ {x x' : OutboxRow}, Edit s.store s'.store x x' →
      (x = r → x'.status = r.status) → ∃ r' ∈ s'.store.outbox, r'.id = r.id ∧ r'.status = r.status := by
    intro x x' hedit hstatus
    by_cases hid : r.id = x.id
    · obtain rfl := hs.eq hedit.mem hr hid
      exact ⟨x', hedit.mem_self, hedit.id_eq, hstatus rfl⟩
    · exact ⟨r, hedit.mem_other hr hid, rfl, rfl⟩
  cases h with
  | idle hstore hheld => exact ⟨r, by rwa [hstore], rfl, rfl⟩
  | enqueued row hfresh hstatus htoken hzero hmax houtbox hattempts hheld =>
    refine ⟨r, ?_, rfl, rfl⟩
    rw [houtbox]
    exact mem_append_left _ hr
  | taken g x x' ht =>
    refine hedited ht.edit fun hx => ?_
    subst hx
    rcases ht.from_ with hfrom | hfrom | ⟨hfrom, -⟩
    all_goals
      rw [hfrom] at hterminal
      rcases hterminal with h | h
      · cases h
      · cases h
  | ended x x' he =>
    refine hedited he.edit fun hx => ?_
    subst hx
    exact absurd hterminal (not_or.mpr he.from_)
  | acknowledged x x' hedit hfrom hto _ _ _ _ =>
    refine hedited hedit fun hx => ?_
    subst hx
    exact hto.trans hfrom.symm

theorem Sound.terminal {s : Log} (h : Sound s) (calls : List Call) (hallowed : Allowed s calls)
    (hr : r ∈ s.store.outbox)
    (hterminal : r.status = .delivered ∨ r.status = .suppressed) :
    ∃ r' ∈ (s.run calls).store.outbox, r'.id = r.id ∧ r'.status = r.status := by
  induction calls generalizing s r with
  | nil => exact ⟨r, hr, rfl, rfl⟩
  | cons call calls ih =>
    obtain ⟨hclock, hmeets, hrest⟩ := hallowed
    obtain ⟨x, hx, hid, hstatus⟩ :=
      (perform_cases h.distinct call hclock hmeets).terminal h.distinct hr hterminal
    obtain ⟨r', hr', hid', hstatus'⟩ :=
      ih (h.perform call hclock hmeets) hrest hx (by rwa [hstatus])
    exact ⟨r', hr', hid'.trans hid, hstatus'.trans hstatus⟩

/-- The lifecycle of the deliveries, in one state. -/
structure LifecycleKept (s : Log) : Prop where
  /-- A claim returns a record in delivery, under its token. -/
  claimed : ∀ outboxId claimToken timeout now later,
    Meets s (.claim outboxId claimToken timeout now later) → ∀ r,
      (s.store.claimNotificationDelivery outboxId claimToken timeout now later).2 = .ok (some r) →
        r.id = outboxId ∧ r.status = .delivering ∧ r.claimToken = some claimToken
  held_once : ∀ g ∈ s.held, ∀ g' ∈ s.held, g.outboxId = g'.outboxId → s.clock ≤ g.expiresAt →
    s.clock ≤ g'.expiresAt → g.token = g'.token
  terminal : ∀ calls, Allowed s calls → ∀ r ∈ s.store.outbox,
    r.status = .delivered ∨ r.status = .suppressed →
      ∃ r' ∈ (s.run calls).store.outbox, r'.id = r.id ∧ r'.status = r.status
  once : ∀ outboxId, successes s.store outboxId ≤ 1
  bounded : ∀ r ∈ s.store.outbox, (r.attemptCount : Int) ≤ r.maxAttempts

/-- **Deliveries keep their lifecycle**, in every state of a run whose calls all meet the
condition. -/
theorem deliveries_kept (events : List EventRow) (calls : List Call)
    (h : Allowed (Log.empty events) calls) : LifecycleKept ((Log.empty events).run calls) := by
  have hsound := (sound_empty events).run calls h
  exact
    { claimed := fun _ _ _ _ _ hmeets _ hr => hsound.claimed hmeets hr
      held_once := fun _ hg _ hg' hid hlive hlive' => hsound.held_once hg hg' hid hlive hlive'
      terminal := fun calls hallowed _ hr hterminal => hsound.terminal calls hallowed hr hterminal
      once := hsound.once
      bounded := hsound.bounded }

/-! ## Runs -/

def oneEvent : List EventRow := [{ id := "event", dedupKey := none }]

def oneNotice (maxAttempts : Int) : EnqueueInput where
  eventId := "event"
  deliveryKey := "key"
  channelType := "in_app"
  channelConfigVersion := none
  maxAttempts := some maxAttempts
  correlationId := none

def deliveredRun : List Call :=
  [.enqueue (oneNotice 3) "notice" 0, .claim "notice" "worker" 60000 1 1,
    .complete "notice" "worker" none none "attempt" 2]

theorem deliveredRun_kept : LifecycleKept ((Log.empty oneEvent).run deliveredRun) := by
  refine deliveries_kept oneEvent deliveredRun ⟨by decide, (by decide : (0 : Int) ≤ 3), by decide,
    ⟨?_, ?_⟩, by decide, trivial, trivial⟩
  · decide +kernel
  · have hgrant : granted ((Log.empty oneEvent).perform (.enqueue (oneNotice 3) "notice" 0)).store
        "notice" "worker" 60000 1 1 = some ⟨"notice", "worker", 60001⟩ := by
      decide +kernel
    intro g hg
    rw [hgrant] at hg
    cases hg
    decide +kernel

def suppressedRun : List Call :=
  [.enqueue (oneNotice 3) "notice" 0, .claim "notice" "worker" 60000 1 1,
    .suppress "notice" "mistake" 2]

def claimedTwice (maxAttempts timeout later : Int) : List Call :=
  [.enqueue (oneNotice maxAttempts) "notice" 0, .claim "notice" "worker" timeout 1 1,
    .claim "notice" "other" 60000 later later]

/-- A suppressed record is returned to the worker that had claimed it; a record is taken once more
than it may be; a record has more attempts than it may have before any; and two workers hold claims
of one record, of which none has expired. -/
theorem deliveries_broken :
    (∃ r, (((Log.empty oneEvent).run suppressedRun).store.claimNotificationDelivery "notice"
      "worker" 60000 3 3).2 = .ok (some r) ∧ r.status = .suppressed) ∧
    (∃ r ∈ ((Log.empty oneEvent).run (claimedTwice 1 60000 60002)).store.outbox,
      r.maxAttempts < r.attemptCount) ∧
    (∃ r ∈ ((Log.empty oneEvent).run [.enqueue (oneNotice (-1)) "notice" 0]).store.outbox,
      r.maxAttempts < r.attemptCount) ∧
    ∃ g ∈ ((Log.empty oneEvent).run (claimedTwice 3 year10000 2)).held,
      ∃ g' ∈ ((Log.empty oneEvent).run (claimedTwice 3 year10000 2)).held,
        g.outboxId = g'.outboxId ∧
          ((Log.empty oneEvent).run (claimedTwice 3 year10000 2)).clock ≤ g.expiresAt ∧
          ((Log.empty oneEvent).run (claimedTwice 3 year10000 2)).clock ≤ g'.expiresAt ∧
          g.token ≠ g'.token := by
  refine ⟨?_, by decide +kernel, by decide +kernel, by decide +kernel⟩
  have hclaim : (((Log.empty oneEvent).run suppressedRun).store.claimNotificationDelivery "notice"
      "worker" 60000 3 3).2.toOption.join.map (·.status) = some .suppressed := by
    decide +kernel
  obtain ⟨r, hr, hstatus⟩ := Option.map_eq_some_iff.mp hclaim
  rw [Option.join_eq_some_iff] at hr
  exact ⟨r, Library.toOption_eq_some.mp hr, hstatus⟩

/-! ## Records that can be claimed -/

/-- Every record in delivery is held, by the claim that it carries. -/
def Backed (s : Log) : Prop :=
  ∀ r ∈ s.store.outbox, r.status = .delivering → ∃ g ∈ s.held, g.outboxId = r.id ∧
    r.claimExpiresAt = some (toISOString g.expiresAt)

theorem Backed.change {s s' : Log} (h : Backed s) (hchange : Change s s') : Backed s' := by
  cases hchange with
  | idle hstore hheld => rwa [Backed, hstore, hheld]
  | enqueued row _ hstatus _ _ _ houtbox _ hheld =>
    rw [Backed, houtbox, hheld]
    intro r hr hdelivering
    rcases mem_append.mp hr with hr | hr
    · exact h r hr hdelivering
    · rw [mem_singleton.mp hr, hstatus] at hdelivering
      cases hdelivering
  | taken g x x' ht =>
    rw [Backed, ht.held]
    refine ht.edit.forall_mem (fun r hr hdelivering => ?_) fun _ =>
      ⟨g, mem_append_right _ (mem_singleton.mpr rfl), ht.id_eq.symm.trans ht.edit.id_eq.symm,
        ht.expires⟩
    obtain ⟨g', hg', hrest⟩ := h r hr hdelivering
    exact ⟨g', mem_append_left _ hg', hrest⟩
  | ended x x' he =>
    intro r hr hdelivering
    rw [he.edit.outbox] at hr
    rcases (mem_putRow he.edit.mem he.edit.id_eq).mp hr with rfl | ⟨hr, hne⟩
    · rcases he.status with ⟨hstatus | hstatus, -⟩ | hstatus
      all_goals
        rw [hstatus] at hdelivering
        cases hdelivering
    · obtain ⟨g, hg, hid, hexpires⟩ := h r hr hdelivering
      refine ⟨g, ?_, hid, hexpires⟩
      rw [he.held]
      exact mem_filter.mpr ⟨hg, bne_iff_ne.mpr (hid ▸ hne)⟩
  | acknowledged x x' hedit hfrom hto _ _ _ hheld =>
    rw [Backed, hheld]
    refine hedit.forall_mem h fun hdelivering => ?_
    rw [hto] at hdelivering
    cases hdelivering

theorem Backed.run {s : Log} (hs : Sound s) (h : Backed s) (calls : List Call)
    (hallowed : Allowed s calls) : Backed (s.run calls) := by
  induction calls generalizing s with
  | nil => exact h
  | cons call calls ih =>
    obtain ⟨hclock, hmeets, hrest⟩ := hallowed
    exact ih (hs.perform call hclock hmeets)
      (h.change (perform_cases hs.distinct call hclock hmeets)) hrest

theorem isSome_updateOutbox {id : String} {guard : OutboxRow → Bool} {f : OutboxRow → OutboxRow} :
    (s.updateOutbox id guard f).isSome = true ↔ ∃ r ∈ s.outbox, r.id = id ∧ guard r = true := by
  unfold updateOutbox
  split
  · rename_i hany
    simpa using hany
  · rename_i hany
    simpa using hany

theorem claim_isSome_iff (hs : Distinct s) (hr : r ∈ s.outbox) {timeout now later : Int}
    (hfresh : r.claimToken ≠ some claimToken) (hvalid : claimExpiry later timeout ≠ none) :
    (∃ r', (s.claimNotificationDelivery r.id claimToken timeout now later).2 = .ok (some r')) ↔
      r.status = .pending ∨ expiredClaim (toISOString now) r = true ∨
        retryDue (toISOString now) r = true := by
  obtain ⟨expiresAt, hexpiry⟩ := Option.ne_none_iff_exists'.mp hvalid
  have htakes : (s.takeRecord r.id claimToken (toISOString expiresAt) (toISOString now)).isSome = true ↔
      r.status = .pending ∨ expiredClaim (toISOString now) r = true ∨
        retryDue (toISOString now) r = true := by
    have hone : ∀ P : OutboxRow → Prop, (∃ x ∈ s.outbox, x.id = r.id ∧ P x) ↔ P r := fun P =>
      ⟨fun ⟨x, hx, hid, hP⟩ => hs.eq hr hx hid ▸ hP, fun hP => ⟨r, hr, rfl, hP⟩⟩
    unfold takeRecord claimOutboxPending claimOutboxExpired claimOutboxRetryable
    rw [Option.isSome_or, Option.isSome_or, or_eq_true, or_eq_true, isSome_updateOutbox,
      isSome_updateOutbox, isSome_updateOutbox, hone, hone, hone, beq_iff_eq]
  rw [← htakes]
  unfold claimNotificationDelivery
  rw [hexpiry]
  dsimp only
  cases htake : s.takeRecord r.id claimToken (toISOString expiresAt) (toISOString now) with
  | some s' =>
    obtain ⟨x, x', hedit, hid, -⟩ := takeRecord_ok hs htake
    refine iff_of_true ⟨x', congrArg Except.ok ?_⟩ rfl
    exact hid ▸ selectOutbox_put hedit.mem hedit.id_eq hedit.outbox
  | none =>
    refine iff_of_false (fun ⟨r', hfound⟩ => ?_) nofun
    have hfind : s.selectClaimedOutbox r.id claimToken = some r' := ok.inj hfound
    have hmatch := find?_some hfind
    rw [and_eq_true, beq_iff_eq, beq_iff_eq] at hmatch
    exact hfresh (hs.eq hr (mem_of_find?_eq_some hfind) hmatch.1 ▸ hmatch.2)

/-- **No delivery is lost with its worker.** In every state of such a run another worker gets a
record exactly if it is pending, or in delivery where every claim of it has expired, or failed and
due. -/
theorem claimable_iff (events : List EventRow) (calls : List Call)
    (hallowed : Allowed (Log.empty events) calls) (r : OutboxRow)
    (hr : r ∈ ((Log.empty events).run calls).store.outbox) (claimToken : String)
    (timeout now later : Int) (hfresh : r.claimToken ≠ some claimToken)
    (hvalid : claimExpiry later timeout ≠ none)
    (hnow : ((Log.empty events).run calls).clock ≤ now) (hyear : now < year10000) :
    (∃ r', (((Log.empty events).run calls).store.claimNotificationDelivery r.id claimToken timeout now
      later).2 = .ok (some r')) ↔
      r.status = .pending ∨
      (r.status = .delivering ∧
        ∀ g ∈ ((Log.empty events).run calls).held, g.outboxId = r.id → g.expiresAt < now) ∨
      retryDue (toISOString now) r = true := by
  have hsound := (sound_empty events).run calls hallowed
  have hbacked : Backed ((Log.empty events).run calls) :=
    Backed.run (sound_empty events) (fun _ hr => absurd hr not_mem_nil) calls hallowed
  rw [claim_isSome_iff hsound.distinct hr hfresh hvalid]
  refine or_congr Iff.rfl (or_congr ?_ Iff.rfl)
  unfold expiredClaim
  rw [and_eq_true, beq_iff_eq, Option.any_eq_true]
  refine and_congr_right fun hdelivering =>
    ⟨fun ⟨e, he, hlt⟩ g hg hid => ?_, fun hexpired => ?_⟩
  · obtain ⟨x, hx, hxid, hon⟩ := hsound.held g hg
    obtain rfl := hsound.distinct.eq hr hx (hxid.trans hid)
    exact hon.expired hsound.clock hnow he (of_decide_eq_true hlt)
  · obtain ⟨g, hg, hid, hexpires⟩ := hbacked r hr hdelivering
    obtain ⟨hlow, hhigh⟩ := Governance.year_range (hsound.clock.trans hnow) hyear
    exact ⟨_, hexpires, decide_eq_true
      (Governance.toISOString_lt_of_year (hexpired g hg hid) ⟨by omega, hhigh⟩)⟩

/-- A worker that claims a record, and is heard of no more. -/
def crashedRun : List Call :=
  [.enqueue (oneNotice 3) "notice" 0, .claim "notice" "worker" 60000 1 1]

theorem claimable_crashed : ∃ r', (((Log.empty oneEvent).run crashedRun).store.claimNotificationDelivery
    "notice" "other" 60000 60002 60002).2 = .ok (some r') := by
  have hallowed : Allowed (Log.empty oneEvent) crashedRun := by
    refine ⟨by decide, (by decide : (0 : Int) ≤ 3), by decide, ⟨by decide +kernel, ?_⟩, trivial⟩
    have hgrant : granted ((Log.empty oneEvent).perform (.enqueue (oneNotice 3) "notice" 0)).store
        "notice" "worker" 60000 1 1 = some ⟨"notice", "worker", 60001⟩ := by
      decide +kernel
    intro g hg
    rw [hgrant] at hg
    cases hg
    decide +kernel
  have hrow : ∃ r ∈ ((Log.empty oneEvent).run crashedRun).store.outbox, r.id = "notice" ∧
      r.status = .delivering ∧ r.claimToken ≠ some "other" := by
    decide +kernel
  have hexpired : ∀ g ∈ ((Log.empty oneEvent).run crashedRun).held, g.expiresAt < 60002 := by
    decide +kernel
  obtain ⟨r, hr, hid, hstatus, hfresh⟩ := hrow
  exact hid ▸ (claimable_iff oneEvent crashedRun hallowed r hr "other" 60000 60002 60002 hfresh
    (by decide) (by decide +kernel) (by decide)).mpr (.inr (.inl ⟨hstatus, fun g hg _ =>
      hexpired g hg⟩))

end BalanceFrame.Notify
