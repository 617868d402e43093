import BalanceFrame.Library.Calls
import BalanceFrame.Notification.Policies

/-!
# The notification runtime

Model of `create`, `createNotification` and `dispatch` of `NotificationRuntime`
(`packages/application/src/notifications.ts`) with `createNotificationEvent`,
`createOrGetNotificationEvent` and `getNotificationEvent` (`packages/workflow-store/src/store.ts`).
Both are programs over the calls they make; `runtimeSystem` runs any number of them side by side
over the table of events and the governance tables, which change at any time.

The severity is not stored. `inserted` keeps it beside each event, for the proofs only; no answer
reads it.
-/

namespace BalanceFrame.Notification

open Library
open Library.Prog
open Liquidity (Json)
open Governance (GovernanceDb)

/-! ## Calls -/

structure CreateNotificationInput where
  budgetId : String
  classification : String
  severity : Severity
  payload : Json
  correlationId : Option String
  scope : Option String
  recipientId : Option String
  redactionClass : Option String
  dedupKey : Option String

/-- `CreateNotificationEventInput`, with a dedup key of `createOrGetNotificationEvent`. -/
structure CreateNotificationEventInput where
  budgetId : String
  classification : String
  payload : Json
  policyVersion : String
  recipientId : Option String
  scope : Option String
  redactionClass : Option String
  correlationId : Option String
  now : String
  dedupKey : Option String

/-- What a delivery key is the digest of. -/
structure DeliveryIdentity where
  key : String
  recipientId : String
  scope : Option String
  spaceId : Option String
  recipientMembershipId : Option String
  channelType : ChannelType

structure EnqueueNotificationInput where
  eventId : String
  deliveryKey : DeliveryIdentity
  channelType : ChannelType
  maxAttempts : Nat
  correlationId : Option String

/-- What is read of a `NotificationOutboxRecord`; the channel as a text. -/
structure NotificationOutboxRecord where
  id : String
  eventId : String
  channelType : String
  attemptCount : Nat

/-- What an adapter answers. -/
structure DeliveryResult where
  ok : Bool
  code : Option String
  body : Option String
  error : Option String

structure NotificationResult where
  event : NotificationEvent
  outboxRecords : List NotificationOutboxRecord

/-- The key of `inFlightCreations`. -/
structure InFlightKey where
  dedupKey : String
  recipientId : Option String
  scope : Option String

/-- What is thrown. -/
inductive Failure
  | runtime (code message : String)
  | other (message : String)

def Failure.message : Failure → String
  | runtime _ message => message
  | other message => message

/-- The calls of the runtime. `governance` is a read of the governance tables with the clock. -/
inductive Call
  | joinCreation (key : InFlightKey)
  | leaveCreation (key : InFlightKey)
  | governance
  | reAuthHook (actorId capability scope : String)
  | clock
  | utcMinutes
  | createNotificationEvent (input : CreateNotificationEventInput) (severity : Severity)
  | getNotificationEvent (id : String)
  | allowRate (channelType : ChannelType) (limitPerMinute : Int)
  | enqueueNotification (input : EnqueueNotificationInput)
  | recordAudit (action : String) (details : List (String × Json))
  | claimNotificationDelivery (outboxId claimToken : String)
  | failNotificationDelivery (outboxId claimToken reason : String) (isRetryable : Bool)
  | completeNotificationDelivery (outboxId claimToken : String) (code body : Option String)
  | hasAdapter (channelType : String)
  | isHealthy (channelType : String)
  | deliver (channelType : String) (payload : Json) (recipientId : String)

/-- What a call answers. -/
def Answer : Call → Type
  | .joinCreation _ => Option NotificationResult
  | .leaveCreation _ => Unit
  | .governance => GovernanceDb × String
  | .reAuthHook _ _ _ => Bool
  | .clock => String
  | .utcMinutes => Int
  | .createNotificationEvent _ _ => NotificationEvent
  | .getNotificationEvent _ => Option NotificationEvent
  | .allowRate _ _ => Bool
  | .enqueueNotification _ => NotificationOutboxRecord
  | .recordAudit _ _ => Unit
  | .claimNotificationDelivery _ _ => Option NotificationOutboxRecord
  | .failNotificationDelivery _ _ _ _ => Unit
  | .completeNotificationDelivery _ _ _ _ => Unit
  | .hasAdapter _ => Bool
  | .isHealthy _ => Bool
  | .deliver _ _ _ => DeliveryResult

abbrev Program (α : Type) := Prog Call Answer Failure α

abbrev request (c : Call) : Program (Answer c) := ask c

/-! ## Creation -/

/-- `storeBackedReAuth`, and of an event the two checks of `dispatch`; an error in the hook refuses. -/
def reAuthorize (actorId capability : String) (scope : Option String) (budgetId : String)
    (event : Option NotificationEvent) : Program Bool := do
  match ← attempt (request .governance) with
  | .error _ => return false
  | .ok (db, now) =>
    if authorizationAllows db now actorId capability scope budgetId event then
      match ← attempt (request (.reAuthHook actorId capability (scope.getD ""))) with
      | .error _ => return false
      | .ok allowed => return allowed
    else return false

/-- `recordAudit`: its failures never propagate. -/
def recordAudit (action : String) (details : List (String × Json)) : Program Unit := do
  let _ ← attempt (request (.recordAudit action details))

/-- The loop over the channels of a recipient: the records that are enqueued. -/
def enqueueChannels (policy : NotificationPolicy) (input : CreateNotificationInput)
    (event : NotificationEvent) (recipient : RecipientSpec) :
    List ChannelType → Program (List NotificationOutboxRecord)
  | [] => pure []
  | channelType :: rest => do
    match policy.channels.find? (·.type == channelType) with
    | some ⟨_, true, rateLimitPerMinute⟩ =>
      match ← request (.allowRate channelType rateLimitPerMinute) with
      | false =>
        recordAudit "notification_suppressed" [("eventId", .string event.id),
          ("channelType", .string channelType.text), ("actorId", .string recipient.actorId),
          ("reason", .string "rate_limited")]
        enqueueChannels policy input event recipient rest
      | true =>
        let enqueued ← request (.enqueueNotification
          { eventId := event.id,
            deliveryKey := ⟨input.dedupKey.getD event.id, recipient.actorId, input.scope,
              event.spaceId, event.recipientMembershipId, channelType⟩,
            channelType, maxAttempts := policy.maxRetries,
            correlationId := input.correlationId.or input.dedupKey })
        let records ← enqueueChannels policy input event recipient rest
        return enqueued :: records
    | _ => enqueueChannels policy input event recipient rest

/-- The records of a recipient, unless in quiet hours. -/
def enqueueRecipient (policy : NotificationPolicy) (input : CreateNotificationInput)
    (event : NotificationEvent) (recipient : RecipientSpec) :
    Program (List NotificationOutboxRecord) := do
  match recipient.quietHours with
  | none => enqueueChannels policy input event recipient (resolveChannels policy recipient)
  | some window =>
    let minutes ← request .utcMinutes
    if isInQuietHours window minutes then
      recordAudit "notification_suppressed" [("eventId", .string event.id),
        ("actorId", .string recipient.actorId), ("reason", .string "quiet_hours")]
      return []
    else enqueueChannels policy input event recipient (resolveChannels policy recipient)

/-- `createNotification` of a recipient who has been authorized: the event and its records. -/
def insertFor (policy : NotificationPolicy) (input : CreateNotificationInput)
    (recipient : RecipientSpec) : Program NotificationResult := do
  let now ← request .clock
  let event ← request (.createNotificationEvent
    { budgetId := input.budgetId, classification := input.classification, payload := input.payload,
      policyVersion := policy.policyVersion, recipientId := input.recipientId, scope := input.scope,
      redactionClass := some (input.redactionClass.getD policy.defaultRedactionClass),
      correlationId := input.correlationId.or input.dedupKey, now,
      dedupKey := input.dedupKey.filter (· != "") } input.severity)
  let outboxRecords ← enqueueRecipient policy input event recipient
  recordAudit "notification_created" [("eventId", .string event.id),
    ("classification", .string input.classification), ("severity", .string input.severity.text),
    ("recipientCount", .number 1), ("outboxCount", .number outboxRecords.length)]
  return { event, outboxRecords }

/-- `createNotification` with a recipient, under the rule that matches. -/
def createFor (policy : NotificationPolicy) (rule : EligibilityRule)
    (input : CreateNotificationInput) (recipientId : String) : Program NotificationResult := do
  match (resolveRecipients policy input.classification input.severity).find?
      (·.actorId == recipientId) with
  | none =>
    stop (.runtime "RECIPIENT_MISMATCH" ("Notification recipient \"" ++ recipientId ++
      "\" is not an active policy recipient"))
  | some recipient =>
    if input.scope != some (rule.scopeFor input.budgetId) then
      stop (.runtime "SCOPE_MISMATCH" ("Notification scope \"" ++ input.scope.getD "" ++
        "\" does not match required policy scope \"" ++ rule.scopeFor input.budgetId ++ "\""))
    else
      match ← reAuthorize recipient.actorId rule.capability input.scope input.budgetId none with
      | false =>
        stop (.runtime "NOT_AUTHORIZED" ("Notification recipient \"" ++ recipient.actorId ++
          "\" is not authorized for scope \"" ++ input.scope.getD "" ++ "\""))
      | true => insertFor policy input recipient

/-- The loop over the policy's recipients: the results of those who are authorized. An actor's
identity is not empty, so the inner call is one with a recipient. -/
def createForAll (policy : NotificationPolicy) (rule : EligibilityRule)
    (input : CreateNotificationInput) : List RecipientSpec → Program (List NotificationResult)
  | [] => pure []
  | recipient :: rest => do
    match ← reAuthorize recipient.actorId rule.capability (some (rule.scopeFor input.budgetId))
        input.budgetId none with
    | false => createForAll policy rule input rest
    | true =>
      let result ← createFor policy rule { input with
        recipientId := some recipient.actorId, scope := some (rule.scopeFor input.budgetId) }
        recipient.actorId
      let results ← createForAll policy rule input rest
      return result :: results

def createNotification (policy : NotificationPolicy) (input : CreateNotificationInput) :
    Program NotificationResult := do
  match findMatchingRule policy input.classification input.severity with
  | none =>
    stop (.runtime "NOT_ELIGIBLE" ("Notification classification \"" ++ input.classification ++
      "\" with severity \"" ++ input.severity.text ++ "\" does not match any eligibility rule"))
  | some rule =>
    match input.recipientId.filter (· != "") with
    | some recipientId => createFor policy rule input recipientId
    | none =>
      if input.scope.any (· != rule.scopeFor input.budgetId) then
        stop (.runtime "SCOPE_MISMATCH" "Notification scope does not match its policy")
      else
        let results ← createForAll policy rule input
          (resolveRecipients policy input.classification input.severity)
        match results with
        | [] => stop (.runtime "NOT_AUTHORIZED" "No currently authorized notification recipient")
        | first :: _ =>
          return { event := first.event, outboxRecords := results.flatMap (·.outboxRecords) }

/-- `create`: a creation in flight under the same key is joined. -/
def create (policy : NotificationPolicy) (input : CreateNotificationInput) :
    Program NotificationResult := do
  match input.dedupKey.filter (· != "") with
  | none => createNotification policy input
  | some dedupKey =>
    let key : InFlightKey := ⟨dedupKey, input.recipientId, input.scope⟩
    match ← request (.joinCreation key) with
    | some result => return result
    | none =>
      let outcome ← attempt (createNotification policy input)
      request (.leaveCreation key)
      ofExcept outcome

/-! ## Dispatch -/

inductive DeliveryStatus
  | delivered | failed | retryable
  deriving DecidableEq

structure DeliveryOutcome where
  outboxId : String
  channelType : String
  status : DeliveryStatus
  attemptNumber : Nat
  errorMessage : Option String := none

/-- A delivery that fails: the reason that is stored, and the message that is returned. -/
def failDelivery (outboxId claimToken : String) (record : NotificationOutboxRecord)
    (reason errorMessage : String) (isRetryable : Bool) : Program DeliveryOutcome := do
  request (.failNotificationDelivery outboxId claimToken reason isRetryable)
  return { outboxId, channelType := record.channelType,
           status := if isRetryable then .retryable else .failed,
           attemptNumber := record.attemptCount + 1, errorMessage := some errorMessage }

/-- The audit of an attempt. -/
def attemptDetails (outboxId : String) (record : NotificationOutboxRecord) : List (String × Json) :=
  [("outboxId", .string outboxId), ("eventId", .string record.eventId),
    ("channelType", .string record.channelType), ("attemptNumber", .number (record.attemptCount + 1))]

/-- An attempt that fails: what the adapter answered, or what was thrown. -/
def failAttempt (policy : NotificationPolicy) (outboxId claimToken : String)
    (record : NotificationOutboxRecord) (error : Option String)
    (reason errorMessage : String) (retryable : Bool) : Program DeliveryOutcome := do
  let isRetryable := retryable && decide (record.attemptCount < policy.maxRetries)
  let outcome ← failDelivery outboxId claimToken record (error.getD reason)
    (error.getD errorMessage) isRetryable
  recordAudit (if isRetryable then "notification_retried" else "notification_failed")
    (attemptDetails outboxId record ++ (error.map fun text => ("error", Json.string text)).toList)
  return outcome

/-- The `try` of `dispatch`. -/
def deliverPayload (policy : NotificationPolicy) (outboxId claimToken : String)
    (record : NotificationOutboxRecord) (event : NotificationEvent) (recipientId : String) :
    Program DeliveryOutcome := do
  match event.payload with
  | none => stop (.other "Unexpected token in JSON")
  | some parsed =>
    let result ← request (.deliver record.channelType (.object (adapterPayload policy event parsed))
      recipientId)
    if result.ok then
      request (.completeNotificationDelivery outboxId claimToken result.code result.body)
      recordAudit "notification_delivered" (attemptDetails outboxId record)
      return { outboxId, channelType := record.channelType, status := .delivered,
               attemptNumber := record.attemptCount + 1 }
    else
      failAttempt policy outboxId claimToken record result.error
        "Provider returned non-ok status" "Delivery failed"
        (classifyFailure (result.error.getD "unknown"))

/-- The delivery to a recipient who has been authorized. -/
def deliverTo (policy : NotificationPolicy) (outboxId claimToken : String)
    (record : NotificationOutboxRecord) (event : NotificationEvent) (recipientId : String) :
    Program DeliveryOutcome := do
  match ← request (.hasAdapter record.channelType) with
  | false =>
    let reason := "No adapter registered for channel type \"" ++ record.channelType ++ "\""
    failDelivery outboxId claimToken record reason reason false
  | true =>
    match ← request (.isHealthy record.channelType) with
    | false =>
      failDelivery outboxId claimToken record "Channel adapter unhealthy" "Channel adapter unhealthy"
        (decide (record.attemptCount < policy.maxRetries))
    | true =>
      match ← attempt (deliverPayload policy outboxId claimToken record event recipientId) with
      | .ok outcome => return outcome
      | .error err =>
        failAttempt policy outboxId claimToken record (some err.message) err.message err.message true

/-- `dispatch` of a record whose event names a recipient. -/
def dispatchTo (policy : NotificationPolicy) (outboxId claimToken : String)
    (record : NotificationOutboxRecord) (event : NotificationEvent) (recipientId : String) :
    Program DeliveryOutcome := do
  match findScopeRule policy event with
  | none =>
    let reason := "Notification classification is no longer eligible"
    failDelivery outboxId claimToken record reason reason false
  | some rule =>
    match ← reAuthorize recipientId rule.capability event.scope event.budgetId (some event) with
    | false =>
      let reason := "Recipient authorization revoked"
      let outcome ← failDelivery outboxId claimToken record reason reason false
      recordAudit "notification_suppressed" [("outboxId", .string outboxId),
        ("eventId", .string event.id), ("actorId", .string recipientId),
        ("reason", .string "re_authorization_failed")]
      return outcome
    | true => deliverTo policy outboxId claimToken record event recipientId

def dispatch (policy : NotificationPolicy) (outboxId claimToken : String) :
    Program DeliveryOutcome := do
  match ← request (.claimNotificationDelivery outboxId claimToken) with
  | none =>
    return { outboxId, channelType := "in_app", status := .failed, attemptNumber := 0,
             errorMessage := some
               "Could not claim outbox record (already claimed or not found)" }
  | some record =>
    match ← request (.getNotificationEvent record.eventId) with
    | none =>
      failDelivery outboxId claimToken record "Event not found" "Referenced event not found" false
    | some event =>
      match event.recipientId.filter (· != "") with
      | none =>
        failDelivery outboxId claimToken record "Recipient not found" "Recipient not found" false
      | some recipientId => dispatchTo policy outboxId claimToken record event recipientId

/-! ## The world -/

/-- `notification_events`, the governance tables, and what was inserted with which severity. -/
structure World where
  db : GovernanceDb
  events : List NotificationEvent
  inserted : List (NotificationEvent × Severity)

/-- `notificationProvenance`: the space of the budget, and the recipient's current membership. -/
def notificationProvenance (db : GovernanceDb) (input : CreateNotificationEventInput) :
    Except String (Option String × Option String) :=
  match getSpaceForBudget db input.budgetId, input.recipientId with
  | some space, some recipientId => do
    let member ← db.currentMembership space.id recipientId input.now
    .ok (some space.id, member.map (·.id))
  | space, _ => .ok (space.map (·.id), none)

/-- The row of an input. -/
def eventRow (id : String) (input : CreateNotificationEventInput)
    (provenance : Option String × Option String) : NotificationEvent where
  id := id
  budgetId := input.budgetId
  classification := input.classification
  recipientId := input.recipientId
  scope := input.scope
  spaceId := provenance.1
  recipientMembershipId := provenance.2
  redactionClass := input.redactionClass
  policyVersion := input.policyVersion
  correlationId := input.correlationId
  payload := some input.payload
  createdAt := input.now
  dedupKey := input.dedupKey

/-- `selectNotificationEventByDedupIdentity`, of a row with a key. -/
def sameDedupIdentity (row event : NotificationEvent) : Bool :=
  row.dedupKey.isSome && event.dedupKey == row.dedupKey && event.recipientId == row.recipientId &&
    event.scope == row.scope && event.budgetId == row.budgetId && event.spaceId == row.spaceId &&
      event.recipientMembershipId == row.recipientMembershipId

/-- The row is inserted, unless its key has one. -/
def insertEvent (w : World) (row : NotificationEvent) (severity : Severity) :
    NotificationEvent × World :=
  match w.events.find? (sameDedupIdentity row) with
  | some event => (event, w)
  | none => (row, { w with
      events := w.events ++ [row], inserted := w.inserted ++ [(row, severity)] })

/-- How the world answers; `randomUUID` gives an id that no row has. A call may also fail, and one
that is not about the tables answers as it may. -/
inductive Answers (w : World) : (c : Call) → Except Failure (Answer c) → World → Prop
  | governance (now : String) : Answers w .governance (.ok (w.db, now)) w
  | created {input : CreateNotificationEventInput} {severity : Severity} {id : String}
      {provenance : Option String × Option String} (hid : ∀ e ∈ w.events, e.id ≠ id)
      (hprovenance : notificationProvenance w.db input = .ok provenance) :
    Answers w (.createNotificationEvent input severity)
      (.ok (insertEvent w (eventRow id input provenance) severity).1)
      (insertEvent w (eventRow id input provenance) severity).2
  | read (id : String) :
    Answers w (.getNotificationEvent id) (.ok (w.events.find? (·.id == id))) w
  | failed (c : Call) (e : Failure) : Answers w c (.error e) w
  | other {c : Call} (hgovernance : c ≠ .governance)
      (hcreate : ∀ input severity, c ≠ .createNotificationEvent input severity)
      (hread : ∀ id, c ≠ .getNotificationEvent id) (r : Except Failure (Answer c)) : Answers w c r w

/-- What else happens: the governance tables change, and the table of events, but not what the
runtime has inserted. -/
def Others (w w' : World) : Prop := w'.inserted = w.inserted

/-- Creations and dispatches of one policy, side by side. -/
def runtimeSystem (policy : NotificationPolicy) : System World Call Answer Failure Unit where
  starts p := (∃ input, p = create policy input >>= fun _ => pure ()) ∨
    ∃ outboxId claimToken, p = dispatch policy outboxId claimToken >>= fun _ => pure ()
  answers := Answers
  others := Others

end BalanceFrame.Notification
