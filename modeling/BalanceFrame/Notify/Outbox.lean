import BalanceFrame.Governance.Clock

/-!
# The notification outbox

Model of `enqueueNotification`, `claimNotificationDelivery`, `completeNotificationDelivery`,
`failNotificationDelivery`, `acknowledgeNotification` and `suppressNotification` with their
statements (`packages/workflow-store/src/store.ts`). A call runs as a whole, and what its statements
have written before it throws stays written. Times are read from a clock in milliseconds and kept as
texts, which the statements compare as texts. What `randomUUID` gives is an argument.
-/

namespace BalanceFrame.Notify

open Governance (toISOString)

/-! ## Tables -/

inductive OutboxStatus
  | pending | delivering | delivered | failed | suppressed
  deriving DecidableEq

/-- `notification_outbox`. -/
structure OutboxRow where
  id : String
  eventId : String
  deliveryKey : String
  channelType : String
  channelConfigVersion : Option String
  status : OutboxStatus
  attemptCount : Nat
  maxAttempts : Int
  claimToken : Option String
  claimExpiresAt : Option String
  lastAttemptedAt : Option String
  nextAttemptAt : Option String
  acknowledgedAt : Option String
  failedAt : Option String
  failureReason : Option String
  suppressedAt : Option String
  suppressedReason : Option String
  correlationId : Option String
  createdAt : String
  updatedAt : String
  deriving DecidableEq

inductive AttemptStatus
  | success | failed
  deriving DecidableEq

/-- `delivery_attempts`. -/
structure AttemptRow where
  id : String
  outboxId : String
  attemptNumber : Nat
  status : AttemptStatus
  responseCode : Option String
  responseBody : Option String
  errorMessage : Option String
  attemptedAt : String
  deriving DecidableEq

/-- `notification_events`, of what enqueuing reads. -/
structure EventRow where
  id : String
  dedupKey : Option String
  deriving DecidableEq

structure NotificationStore where
  events : List EventRow
  outbox : List OutboxRow
  attempts : List AttemptRow

namespace NotificationStore

/-! ## Statements -/

def selectOutbox (s : NotificationStore) (id : String) : Option OutboxRow :=
  s.outbox.find? (·.id == id)

/-- An update of the record `id`, if it meets a condition; `none` if it changes nothing. -/
def updateOutbox (s : NotificationStore) (id : String) (guard : OutboxRow → Bool)
    (f : OutboxRow → OutboxRow) : Option NotificationStore :=
  if s.outbox.any fun r => r.id == id && guard r then
    some { s with outbox := s.outbox.map fun r => if r.id == id && guard r then f r else r }
  else none

/-- What the three claiming statements set. -/
def claimed (claimToken expiresAt now : String) (r : OutboxRow) : OutboxRow :=
  { r with
    status := .delivering
    claimToken := some claimToken
    claimExpiresAt := some expiresAt
    lastAttemptedAt := some now
    attemptCount := r.attemptCount + 1
    updatedAt := now }

/-- A delivery whose claim has expired. -/
def expiredClaim (now : String) (r : OutboxRow) : Bool :=
  r.status == .delivering && r.claimExpiresAt.any fun e => decide (e < now)

/-- A failure that is to be tried again. -/
def retryDue (now : String) (r : OutboxRow) : Bool :=
  r.status == .failed && r.nextAttemptAt.any fun t => !decide (now < t)

def claimOutboxPending (s : NotificationStore) (id claimToken expiresAt now : String) :
    Option NotificationStore :=
  s.updateOutbox id (·.status == .pending) (claimed claimToken expiresAt now)

def claimOutboxExpired (s : NotificationStore) (id claimToken expiresAt now : String) :
    Option NotificationStore :=
  s.updateOutbox id (expiredClaim now) (claimed claimToken expiresAt now)

def claimOutboxRetryable (s : NotificationStore) (id claimToken expiresAt now : String) :
    Option NotificationStore :=
  s.updateOutbox id (retryDue now) fun r =>
    { claimed claimToken expiresAt now r with nextAttemptAt := none }

def selectClaimedOutbox (s : NotificationStore) (id claimToken : String) : Option OutboxRow :=
  s.outbox.find? fun r => r.id == id && r.claimToken == some claimToken

/-- The record is being delivered under a token. -/
def deliveringUnder (claimToken : String) (r : OutboxRow) : Bool :=
  r.status == .delivering && r.claimToken == some claimToken

def completeOutbox (s : NotificationStore) (id claimToken now : String) :
    Option NotificationStore :=
  s.updateOutbox id (deliveringUnder claimToken) fun r =>
    { r with status := .delivered, claimToken := none, claimExpiresAt := none, updatedAt := now }

def failOutbox (s : NotificationStore) (id claimToken errorMessage now : String) :
    Option NotificationStore :=
  s.updateOutbox id (deliveringUnder claimToken) fun r =>
    { r with
      status := .failed
      claimToken := none
      claimExpiresAt := none
      failedAt := some now
      failureReason := some errorMessage
      updatedAt := now }

def scheduleRetryOutbox (s : NotificationStore) (id nextAttemptAt now : String) :
    NotificationStore :=
  (s.updateOutbox id (fun _ => true) fun r =>
    { r with nextAttemptAt := some nextAttemptAt, updatedAt := now }).getD s

def acknowledgeOutbox (s : NotificationStore) (id now : String) : Option NotificationStore :=
  s.updateOutbox id (·.status == .delivered) fun r =>
    { r with acknowledgedAt := some now, updatedAt := now }

/-- `suppressOutbox`; the claim of a record in delivery stays. -/
def suppressOutbox (s : NotificationStore) (id reason now : String) : Option NotificationStore :=
  s.updateOutbox id (fun r => r.status == .pending || r.status == .delivering || r.status == .failed)
    fun r =>
      { r with
        status := .suppressed
        suppressedAt := some now
        suppressedReason := some reason
        updatedAt := now }

def insertDeliveryAttempt (s : NotificationStore) (attempt : AttemptRow) :
    Except String NotificationStore :=
  if s.attempts.any (·.id == attempt.id) then .error "UNIQUE constraint failed"
  else .ok { s with attempts := s.attempts ++ [attempt] }

/-! ## Calls -/

/-- `EnqueueNotificationInput`. -/
structure EnqueueInput where
  eventId : String
  deliveryKey : String
  channelType : String
  channelConfigVersion : Option String
  maxAttempts : Option Int
  correlationId : Option String

/-- `insertOutbox`. -/
def newRow (input : EnqueueInput) (id now : String) : OutboxRow where
  id := id
  eventId := input.eventId
  deliveryKey := input.deliveryKey
  channelType := input.channelType
  channelConfigVersion := input.channelConfigVersion
  status := .pending
  attemptCount := 0
  maxAttempts := input.maxAttempts.getD 3
  claimToken := none
  claimExpiresAt := none
  lastAttemptedAt := none
  nextAttemptAt := none
  acknowledgedAt := none
  failedAt := none
  failureReason := none
  suppressedAt := none
  suppressedReason := none
  correlationId := input.correlationId
  createdAt := now
  updatedAt := now

def enqueueNotification (s : NotificationStore) (input : EnqueueInput) (id : String) (now : Int) :
    NotificationStore × Except String OutboxRow :=
  match s.events.find? (·.id == input.eventId) with
  | none => (s, .error s!"event does not exist: {input.eventId}")
  | some event =>
    match s.outbox.find? fun r => r.eventId == input.eventId &&
        r.channelType == input.channelType && r.deliveryKey == input.deliveryKey with
    | some existing =>
      if event.dedupKey.isSome then (s, .ok existing)
      else (s, .error
        s!"deliveryKey already exists for this eventId+channelType: {input.deliveryKey}")
    | none =>
      if s.outbox.any (·.id == id) then (s, .error "UNIQUE constraint failed")
      else
        let row := newRow input id (toISOString now)
        ({ s with outbox := s.outbox ++ [row] }, .ok row)

/-- The largest time of a `Date`. -/
def maxTime : Int := 8640000000000000

/-- The time at which a claim expires; `none` where `toISOString` throws a `RangeError`. -/
def claimExpiry (later timeout : Int) : Option Int :=
  if -maxTime ≤ later + timeout ∧ later + timeout ≤ maxTime then some (later + timeout) else none

/-- The first three statements of `claimNotificationDelivery`: they take the record. -/
def takeRecord (s : NotificationStore) (outboxId claimToken expiresAt now : String) :
    Option NotificationStore :=
  (s.claimOutboxPending outboxId claimToken expiresAt now).or
    ((s.claimOutboxExpired outboxId claimToken expiresAt now).or
      (s.claimOutboxRetryable outboxId claimToken expiresAt now))

/-- `claimNotificationDelivery`; the clock is read at `now` and at `later`. -/
def claimNotificationDelivery (s : NotificationStore) (outboxId claimToken : String)
    (claimTimeoutMs now later : Int) : NotificationStore × Except String (Option OutboxRow) :=
  match claimExpiry later claimTimeoutMs with
  | none => (s, .error "Invalid time value")
  | some expiresAt =>
    match s.takeRecord outboxId claimToken (toISOString expiresAt) (toISOString now) with
    | some s' => (s', .ok (s'.selectOutbox outboxId))
    | none => (s, .ok (s.selectClaimedOutbox outboxId claimToken))

def completeNotificationDelivery (s : NotificationStore) (outboxId claimToken : String)
    (code body : Option String) (attemptId : String) (now : Int) :
    NotificationStore × Except String OutboxRow :=
  match s.completeOutbox outboxId claimToken (toISOString now) with
  | none => (s, .error
      s!"Cannot complete delivery: claim token mismatch or invalid state for outbox {outboxId}")
  | some s' =>
    match s'.selectOutbox outboxId with
    | none => (s', .error "Outbox record missing")
    | some current =>
      match s'.insertDeliveryAttempt
        { id := attemptId, outboxId, attemptNumber := current.attemptCount, status := .success
          responseCode := code, responseBody := body, errorMessage := none
          attemptedAt := toISOString now } with
      | .error e => (s', .error e)
      | .ok s'' => (s'', .ok current)

def failNotificationDelivery (s : NotificationStore) (outboxId claimToken errorMessage : String)
    (retryable : Bool) (attemptId : String) (now : Int) :
    NotificationStore × Except String OutboxRow :=
  match s.failOutbox outboxId claimToken errorMessage (toISOString now) with
  | none => (s, .error
      s!"Cannot fail delivery: claim token mismatch or invalid state for outbox {outboxId}")
  | some s' =>
    match s'.selectOutbox outboxId with
    | none => (s', .error "Outbox record missing")
    | some current =>
      match s'.insertDeliveryAttempt
        { id := attemptId, outboxId, attemptNumber := current.attemptCount, status := .failed
          responseCode := none, responseBody := none, errorMessage := some errorMessage
          attemptedAt := toISOString now } with
      | .error e => (s', .error e)
      | .ok s'' =>
        let scheduled :=
          if retryable && decide ((current.attemptCount : Int) < current.maxAttempts) then
            s''.scheduleRetryOutbox outboxId (toISOString now) (toISOString now)
          else s''
        (scheduled, match scheduled.selectOutbox outboxId with
          | some row => .ok row
          | none => .error "Outbox record missing")

/-- The record after a statement, or an error when the statement changes nothing. -/
def readBack (s : NotificationStore) (changed : Option NotificationStore) (outboxId error : String) :
    NotificationStore × Except String OutboxRow :=
  match changed with
  | none => (s, .error error)
  | some s' => (s', match s'.selectOutbox outboxId with
      | some row => .ok row
      | none => .error "Outbox record missing")

def acknowledgeNotification (s : NotificationStore) (outboxId : String) (now : Int) :
    NotificationStore × Except String OutboxRow :=
  s.readBack (s.acknowledgeOutbox outboxId (toISOString now)) outboxId
    s!"Cannot acknowledge: outbox {outboxId} is not in delivered status"

def suppressNotification (s : NotificationStore) (outboxId reason : String) (now : Int) :
    NotificationStore × Except String OutboxRow :=
  s.readBack (s.suppressOutbox outboxId reason (toISOString now)) outboxId
    s!"Cannot suppress: outbox {outboxId} is not in a suppressible state"

end NotificationStore

end BalanceFrame.Notify
