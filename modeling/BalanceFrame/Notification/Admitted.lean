import BalanceFrame.Governance.Authority
import BalanceFrame.Notification.Runtime

/-!
# The rule that admitted a notification

Where `dispatch` calls an adapter, over every run of creations and dispatches, whatever happens to
memberships, grants and policies in between.
-/

namespace BalanceFrame.Notification

open Library List Option
open Library.Prog
open Liquidity (Json)
open Governance (GovernanceDb household authorize)

variable {recipientId outboxId claimToken : String} {event : NotificationEvent}
  {rule : EligibilityRule} {record : NotificationOutboxRecord}

/-- The calls so far, and their answers. -/
abbrev History := List (Event Call Answer Failure)

/-! ## What is known -/

/-- The rule that matches, in whose scope it is. -/
structure AdmittedBy (policy : NotificationPolicy) (classification : String) (severity : Severity)
    (scope : Option String) (budgetId : String) (rule : EligibilityRule) : Prop where
  matching : findMatchingRule policy classification severity = some rule
  scope : scope = some (rule.scopeFor budgetId)

/-- An authorization that was found in the calls `h`. -/
def Allowed (h : History) (actorId capability : String) (scope : Option String) (budgetId : String)
    (event : Option NotificationEvent) : Prop :=
  ∃ db now, ⟨.governance, .ok (db, now)⟩ ∈ h ∧
    authorizationAllows db now actorId capability scope budgetId event = true

/-- An event that was read, and its recipient, found to be allowed. -/
structure Checked (policy : NotificationPolicy) (h : History) (recipientId : String)
    (event : NotificationEvent) : Prop where
  read : ∃ id, ⟨.getNotificationEvent id, .ok (some event)⟩ ∈ h
  recipient : event.recipientId = some recipientId
  allowed : ∃ rule, findScopeRule policy event = some rule ∧
    Allowed h recipientId rule.capability event.scope event.budgetId (some event)

/-- What is known of the event where a payload is delivered. -/
structure Delivering (policy : NotificationPolicy) (h : History) (payload : Json)
    (recipientId : String) (event : NotificationEvent) : Prop where
  checked : Checked policy h recipientId event
  payload : ∃ parsed, event.payload = some parsed ∧
    payload = .object (adapterPayload policy event parsed)

/-- Every event that is created is admitted, and every delivery is known. -/
def Guarded (policy : NotificationPolicy) (h : History) : Call → Prop
  | .createNotificationEvent input severity =>
    ∃ rule, AdmittedBy policy input.classification severity input.scope input.budgetId rule
  | .deliver _ payload recipientId => ∃ event, Delivering policy h payload recipientId event
  | _ => True

abbrev Safe {α : Type} (policy : NotificationPolicy) (h : History) (p : Program α) : Prop :=
  Prog.Safe (Guarded policy) h p

variable {policy : NotificationPolicy} {h : History}

theorem Allowed.mono {h' : History} {actorId capability budgetId : String} {scope : Option String}
    {event : Option NotificationEvent} (ha : Allowed h actorId capability scope budgetId event)
    (hle : h <+: h') : Allowed h' actorId capability scope budgetId event := by
  obtain ⟨db, now, hmem, hallows⟩ := ha
  exact ⟨db, now, hle.subset hmem, hallows⟩

/-! ## Creation -/

theorem safe_recordAudit (action : String) (details : List (String × Json)) :
    Safe policy h (recordAudit action details) :=
  safe_attempt_bind trivial fun _ => trivial

theorem reAuthorize_allowed (actorId capability : String) (scope : Option String)
    (budgetId : String) (event : Option NotificationEvent) :
    Ensures (Guarded policy) (fun h' r => r = .ok true →
      Allowed h' actorId capability scope budgetId event) h
        (reAuthorize actorId capability scope budgetId event) := by
  refine ensures_bind.mpr (ensures_attempt.mpr (ensures_ask.mpr ⟨trivial, fun r => ?_⟩))
  match r with
  | .error _ => exact nofun
  | .ok (db, now) =>
    by_cases hallows : authorizationAllows db now actorId capability scope budgetId event = true
    · have hread : Allowed (h ++ [⟨.governance, .ok (db, now)⟩]) actorId capability scope budgetId
          event := ⟨db, now, by simp, hallows⟩
      simp only [hallows, if_true]
      refine ensures_bind.mpr (ensures_attempt.mpr (ensures_ask.mpr ⟨trivial, fun r => ?_⟩))
      cases r with
      | error e => exact nofun
      | ok allowed => exact fun _ => hread.mono (prefix_append _ _)
    · simp only [hallows]
      exact nofun

theorem safe_reAuthorize_bind {β : Type} {actorId capability : String} {scope : Option String}
    {budgetId : String} {event : Option NotificationEvent} {f : Bool → Program β}
    (hno : ∀ h', h <+: h' → Safe policy h' (f false))
    (hyes : ∀ h', h <+: h' → Allowed h' actorId capability scope budgetId event →
      Safe policy h' (f true)) :
    Safe policy h (reAuthorize actorId capability scope budgetId event >>= f) := by
  refine (reAuthorize_allowed actorId capability scope budgetId event).bind
    (fun _ _ _ _ => trivial) fun h' allowed hle hallowed => ?_
  cases allowed with
  | false => exact hno h' hle
  | true => exact hyes h' hle (hallowed rfl)

theorem safe_enqueueChannels (input : CreateNotificationInput) (event : NotificationEvent)
    (recipient : RecipientSpec) : ∀ (channels : List ChannelType) (h : History),
      Safe policy h (enqueueChannels policy input event recipient channels)
  | [], h => trivial
  | channelType :: rest, h => by
    unfold enqueueChannels
    split
    · refine safe_ask_bind trivial fun allowed => ?_
      cases allowed with
      | false =>
        exact safe_bind (safe_recordAudit _ _) fun h' _ _ =>
          safe_enqueueChannels input event recipient rest h'
      | true =>
        exact safe_ask_bind trivial fun enqueued =>
          safe_bind (safe_enqueueChannels input event recipient rest _) fun _ _ _ => trivial
    · exact safe_enqueueChannels input event recipient rest h

variable (input : CreateNotificationInput)

theorem safe_enqueueRecipient (event : NotificationEvent) (recipient : RecipientSpec) :
    Safe policy h (enqueueRecipient policy input event recipient) := by
  unfold enqueueRecipient
  split
  · exact safe_enqueueChannels input event recipient _ h
  · refine safe_ask_bind trivial fun minutes => ?_
    split
    · exact safe_bind (safe_recordAudit _ _) fun _ _ _ => trivial
    · exact safe_enqueueChannels input event recipient _ _

theorem safe_insertFor {input : CreateNotificationInput} {recipient : RecipientSpec}
    (hinput : ∃ rule, AdmittedBy policy input.classification input.severity input.scope
      input.budgetId rule) : Safe policy h (insertFor policy input recipient) := by
  refine safe_ask_bind trivial fun now => safe_ask_bind hinput fun event => ?_
  refine safe_bind (safe_enqueueRecipient input event recipient) fun _ records _ => ?_
  exact safe_bind (safe_recordAudit _ _) fun _ _ _ => trivial

theorem safe_createFor
    (hrule : findMatchingRule policy input.classification input.severity = some rule)
    (recipientId : String) : Safe policy h (createFor policy rule input recipientId) := by
  unfold createFor
  split
  · trivial
  · split
    · trivial
    · rename_i hscope
      refine safe_reAuthorize_bind (fun _ _ => trivial) fun h' _ _ => ?_
      exact safe_insertFor ⟨rule, hrule, by simpa using hscope⟩

theorem safe_createForAll {input : CreateNotificationInput}
    (hrule : findMatchingRule policy input.classification input.severity = some rule) :
    ∀ (recipients : List RecipientSpec) (h : History),
      Safe policy h (createForAll policy rule input recipients)
  | [], h => trivial
  | recipient :: rest, h => by
    refine safe_reAuthorize_bind (fun h' _ => safe_createForAll hrule rest h') fun h' _ _ => ?_
    refine safe_bind (safe_createFor { input with
      recipientId := some recipient.actorId, scope := some (rule.scopeFor input.budgetId) } hrule _)
      fun h₁ result _ => ?_
    exact safe_bind (safe_createForAll hrule rest h₁) fun _ _ _ => trivial

theorem safe_createNotification : Safe policy h (createNotification policy input) := by
  unfold createNotification
  split
  · trivial
  · rename_i rule hrule
    split
    · exact safe_createFor input hrule _
    · split
      · trivial
      · refine safe_bind (safe_createForAll hrule _ h) fun _ results _ => ?_
        cases results <;> trivial

theorem safe_create : Safe policy h (create policy input) := by
  unfold create
  split
  · exact safe_createNotification input
  · refine safe_ask_bind trivial fun joined => ?_
    cases joined with
    | some result => trivial
    | none =>
      refine safe_bind (safe_attempt (safe_createNotification input)) fun _ outcome _ => ?_
      exact safe_ask_bind trivial fun _ => ensures_ofExcept.mpr trivial

/-! ## Dispatch -/

theorem safe_failDelivery (outboxId claimToken : String) (record : NotificationOutboxRecord)
    (reason errorMessage : String) (isRetryable : Bool) :
    Safe policy h (failDelivery outboxId claimToken record reason errorMessage isRetryable) :=
  safe_ask_bind trivial fun _ => trivial

theorem safe_failAttempt (outboxId claimToken : String) (record : NotificationOutboxRecord)
    (error : Option String) (reason errorMessage : String) (retryable : Bool) : Safe policy h
      (failAttempt policy outboxId claimToken record error reason errorMessage retryable) :=
  safe_bind (safe_failDelivery ..) fun _ _ _ => safe_bind (safe_recordAudit _ _) fun _ _ _ => trivial

theorem Checked.mono {h' : History} (hc : Checked policy h recipientId event) (hle : h <+: h') :
    Checked policy h' recipientId event := by
  obtain ⟨id, hread⟩ := hc.read
  obtain ⟨rule, hrule, hallowed⟩ := hc.allowed
  exact ⟨⟨id, hle.subset hread⟩, hc.recipient, rule, hrule, hallowed.mono hle⟩

theorem safe_deliverPayload (hc : Checked policy h recipientId event) :
    Safe policy h (deliverPayload policy outboxId claimToken record event recipientId) := by
  unfold deliverPayload
  split
  · trivial
  · rename_i parsed hparsed
    refine safe_ask_bind ⟨event, hc, parsed, hparsed, rfl⟩ fun result => ?_
    split
    · refine safe_ask_bind trivial fun _ => ?_
      exact safe_bind (safe_recordAudit _ _) fun _ _ _ => trivial
    · exact safe_failAttempt ..

theorem safe_deliverTo (hc : Checked policy h recipientId event) :
    Safe policy h (deliverTo policy outboxId claimToken record event recipientId) := by
  refine safe_ask_bind trivial fun hasAdapter => ?_
  cases hasAdapter with
  | false => exact safe_failDelivery ..
  | true =>
    refine safe_ask_bind trivial fun isHealthy => ?_
    cases isHealthy with
    | false => exact safe_failDelivery ..
    | true =>
      refine safe_bind (safe_attempt (safe_deliverPayload ?_)) fun _ outcome _ => ?_
      · rw [append_assoc]
        exact hc.mono (prefix_append h _)
      · cases outcome with
        | ok _ => trivial
        | error _ => exact safe_failAttempt ..

theorem safe_dispatchTo {id : String} (hread : ⟨.getNotificationEvent id, .ok (some event)⟩ ∈ h)
    (hrecipient : event.recipientId = some recipientId) :
    Safe policy h (dispatchTo policy outboxId claimToken record event recipientId) := by
  unfold dispatchTo
  split
  · exact safe_failDelivery ..
  · rename_i rule hrule
    refine safe_reAuthorize_bind (fun h' _ => ?_) fun h' hle hallowed => ?_
    · refine safe_bind (safe_failDelivery ..) fun _ outcome _ => ?_
      exact safe_bind (safe_recordAudit _ _) fun _ _ _ => trivial
    · exact safe_deliverTo ⟨⟨id, hle.subset hread⟩, hrecipient, rule, hrule, hallowed⟩

theorem safe_dispatch (outboxId claimToken : String) :
    Safe policy h (dispatch policy outboxId claimToken) := by
  refine safe_ask_bind trivial fun claimed => ?_
  cases claimed with
  | none => trivial
  | some record =>
    refine safe_ask_bind trivial fun found => ?_
    cases found with
    | none => exact safe_failDelivery ..
    | some event =>
      dsimp only
      split
      · exact safe_failDelivery ..
      · rename_i recipientId hrecipient
        refine safe_dispatchTo (mem_append_right _ mem_cons_self) ?_
        exact (filter_eq_some_iff.mp hrecipient).1

/-! ## Every run -/

/-- The events that were read. -/
def eventReads (h : History) : List NotificationEvent :=
  h.filterMap fun
    | ⟨.getNotificationEvent _, .ok found⟩ => found
    | _ => none

/-- The governance tables that were read, each with its time. -/
def governanceReads (h : History) : List (GovernanceDb × String) :=
  h.filterMap fun
    | ⟨.governance, .ok read⟩ => some read
    | _ => none

/-- The recipient of an event was found to hold a rule's capability in the rule's scope, under the
space and the membership of the event. -/
def HeldUnder (h : History) (event : NotificationEvent) (rule : EligibilityRule) : Prop :=
  ∃ read ∈ governanceReads h, ∃ recipientId spaceId membershipId,
    event.recipientId = some recipientId ∧ event.spaceId = some spaceId ∧
    event.recipientMembershipId = some membershipId ∧
    HoldsUnder read.1 read.2 recipientId rule.capability (rule.scopeFor event.budgetId)
      event.budgetId spaceId membershipId

/-- Visible fields of the event's class, and no forbidden one at any depth. -/
def Redacted (policy : NotificationPolicy) (event : NotificationEvent) (payload : Json) : Prop :=
  (∃ fields, payload = .object fields ∧ ∀ e ∈ fields, e.1 ∈ visibleFields policy.redaction
    (event.redactionClass.getD policy.defaultRedactionClass)) ∧ Clean payload

/-- The first rule with a classification and a rule's scope asks for the rule's capability. -/
def SameCapability (policy : NotificationPolicy) (classification budgetId : String)
    (rule : EligibilityRule) : Prop :=
  ∀ first, policy.eligibility.find? (fun other => other.classifications.contains classification &&
    some (other.scopeFor budgetId) == some (rule.scopeFor budgetId)) = some first →
      first.capability = rule.capability

/-- Every event that the runtime inserted was admitted. -/
def AllAdmitted (policy : NotificationPolicy) (w : World) : Prop :=
  ∀ e ∈ w.inserted, ∃ rule, AdmittedBy policy e.1.classification e.2 e.1.scope e.1.budgetId rule

theorem safe_starts {p : Program Unit} (hp : (runtimeSystem policy).starts p) :
    Safe policy [] p := by
  rcases hp with ⟨input, rfl⟩ | ⟨outboxId, claimToken, rfl⟩
  · exact safe_bind (safe_create input) fun _ _ _ => trivial
  · exact safe_bind (safe_dispatch outboxId claimToken) fun _ _ _ => trivial

theorem allAdmitted_answer {w w' : World} {c : Call} {r : Except Failure (Answer c)}
    (hw : AllAdmitted policy w) (hc : Guarded policy h c) (hr : Answers w c r w') :
    AllAdmitted policy w' := by
  cases hr with
  | governance now => exact hw
  | read id => exact hw
  | failed c e => exact hw
  | other _ _ _ r => exact hw
  | @created input severity id provenance hid hprovenance =>
    unfold insertEvent
    split
    · exact hw
    · intro e he
      rcases mem_append.mp he with he | he
      · exact hw e he
      · rw [mem_singleton.mp he]
        exact hc

theorem allAdmitted_reachable {db : GovernanceDb} {events : List NotificationEvent}
    {s : Running World Call Answer Failure Unit}
    (hs : (runtimeSystem policy).Reachable ⟨db, events, []⟩ s) : AllAdmitted policy s.world := by
  refine (hs.world (I := AllAdmitted policy) (K := fun _ _ => True) (fun p hp => safe_starts hp)
    ?_ ?_ ?_).1
  · exact fun w h c r w' hw _ hc hr => ⟨allAdmitted_answer hw hc hr, trivial, fun _ _ => trivial⟩
  · intro w w' hw hother
    refine ⟨?_, fun _ _ => trivial⟩
    rw [AllAdmitted, show w'.inserted = w.inserted from hother]
    exact hw
  · exact fun e he => absurd he not_mem_nil

theorem Checked.heldUnder {severity : Severity} (hc : Checked policy h recipientId event)
    (hadmitted : AdmittedBy policy event.classification severity event.scope event.budgetId rule)
    (hsame : SameCapability policy event.classification event.budgetId rule) :
    HeldUnder h event rule := by
  obtain ⟨first, hfirst, db, now, hread, hallows⟩ := hc.allowed
  obtain ⟨scope, spaceId, membershipId, hscope, hspace, hmembership, hholds⟩ :=
    authorizationAllows_event hc.recipient hallows
  have hcapability : first.capability = rule.capability := by
    refine hsame first ?_
    rw [findScopeRule, hadmitted.scope] at hfirst
    exact hfirst
  have hscope : scope = rule.scopeFor event.budgetId :=
    some.inj (hscope.symm.trans hadmitted.scope)
  rw [hcapability, hscope] at hholds
  exact ⟨(db, now), mem_filterMap.mpr ⟨_, hread, rfl⟩, recipientId, spaceId, membershipId,
    hc.recipient, hspace, hmembership, hholds⟩

/-! ## A household -/

def holding (capabilities : List String) : GovernanceDb :=
  { household with grants := capabilities.flatMap fun capability =>
      household.grants.map ({ · with capability }) }

def billPolicy (eligibility : List EligibilityRule) : NotificationPolicy where
  policyVersion := "1"
  eligibility := eligibility
  recipients := [⟨"ada", [.inApp], none⟩]
  channels := [⟨.inApp, true, 10⟩]
  redaction := [("summary", ["title"])]
  maxRetries := 3
  defaultRedactionClass := "summary"

def receiveRule : EligibilityRule := ⟨["bill"], .low, none, none⟩

def adminRule : EligibilityRule := ⟨["bill"], .critical, some "notification:admin", none⟩

def noon : String := "2026-02-01T12:00:00.000Z"

def bill : CreateNotificationInput where
  budgetId := "budget"
  classification := "bill"
  severity := .normal
  payload := .object [("title", .string "Rent"), ("secrets", .string "key")]
  correlationId := none
  scope := some "budget:budget"
  recipientId := some "ada"
  redactionClass := none
  dedupKey := none

def billEvent : NotificationEvent where
  id := "event"
  budgetId := "budget"
  classification := "bill"
  recipientId := some "ada"
  scope := some "budget:budget"
  spaceId := some "home"
  recipientMembershipId := some "period"
  redactionClass := some "summary"
  policyVersion := "1"
  correlationId := none
  payload := some bill.payload
  createdAt := noon
  dedupKey := none

def insertAnswer (w : World) (input : CreateNotificationEventInput) (severity : Severity) :
    Except Failure NotificationEvent × World :=
  match notificationProvenance w.db input with
  | .error message => (.error (.other message), w)
  | .ok provenance =>
    if ∀ e ∈ w.events, e.id ≠ "event" then
      (.ok (insertEvent w (eventRow "event" input provenance) severity).1,
        (insertEvent w (eventRow "event" input provenance) severity).2)
    else (.error (.other "The event exists"), w)

def answer (w : World) : (c : Call) → Except Failure (Answer c) × World
  | .joinCreation _ => (.ok (none : Option NotificationResult), w)
  | .leaveCreation _ => (.ok (), w)
  | .governance => (.ok (w.db, noon), w)
  | .reAuthHook _ _ _ => (.ok true, w)
  | .clock => (.ok noon, w)
  | .utcMinutes => (.ok (720 : Int), w)
  | .createNotificationEvent input severity => insertAnswer w input severity
  | .getNotificationEvent id => (.ok (w.events.find? (·.id == id)), w)
  | .allowRate _ _ => (.ok true, w)
  | .enqueueNotification input =>
    (.ok (⟨"outbox", input.eventId, input.channelType.text, 0⟩ : NotificationOutboxRecord), w)
  | .recordAudit _ _ => (.ok (), w)
  | .claimNotificationDelivery outboxId _ =>
    (.ok (some (⟨outboxId, "event", "in_app", 0⟩ : NotificationOutboxRecord)), w)
  | .failNotificationDelivery _ _ _ _ => (.ok (), w)
  | .completeNotificationDelivery _ _ _ _ => (.ok (), w)
  | .hasAdapter _ => (.ok true, w)
  | .isHealthy _ => (.ok true, w)
  | .deliver _ _ _ => (.ok (⟨true, none, none, none⟩ : DeliveryResult), w)

theorem answers_answer (w : World) (c : Call) : Answers w c (answer w c).1 (answer w c).2 := by
  cases c with
  | governance => exact .governance noon
  | getNotificationEvent id => exact .read id
  | createNotificationEvent input severity =>
    simp only [answer, insertAnswer]
    split
    · exact .failed _ _
    · rename_i hprovenance
      split
      · rename_i hid
        exact .created hid hprovenance
      · exact .failed _ _
  | _ => refine .other ?_ ?_ ?_ _ <;> exact nofun

def isDeliver : Call → Bool
  | .deliver _ _ _ => true
  | _ => false

def billCreated (policy : NotificationPolicy) (db : GovernanceDb) :
    World × Task Call Answer Failure Unit :=
  System.advance answer (fun _ => isDeliver) ⟨db, [], []⟩ [] (create policy bill >>= fun _ => pure ())

def billDispatched (policy : NotificationPolicy) (db db' : GovernanceDb) :
    World × Task Call Answer Failure Unit :=
  System.advance answer (fun _ => isDeliver) { (billCreated policy db).1 with db := db' } []
    (dispatch policy "outbox" "token" >>= fun _ => pure ())

def billRunning (policy : NotificationPolicy) (db db' : GovernanceDb) :
    Running World Call Answer Failure Unit :=
  ⟨(billDispatched policy db db').1, [(billCreated policy db).2, (billDispatched policy db db').2]⟩

theorem reachable_billRunning (policy : NotificationPolicy) (db db' : GovernanceDb) :
    (runtimeSystem policy).Reachable ⟨db, [], []⟩ (billRunning policy db db') := by
  have hstart := (System.Reachable.init (S := runtimeSystem policy) (w := ⟨db, [], []⟩)).step
    (.start (.inl ⟨bill, rfl⟩))
  have hcreated := System.Reachable.advance (fun _ => isDeliver)
    (fun w c _ => answers_answer w c) _ _ _ hstart
  have hchange : Others (billCreated policy db).1 { (billCreated policy db).1 with db := db' } := rfl
  have hdispatch := (hcreated.step (.other hchange)).step (.start (.inr ⟨"outbox", "token", rfl⟩))
  exact System.Reachable.advance (fun _ => isDeliver)
    (fun w c _ => answers_answer w c) _ _ _ hdispatch

theorem exists_of_isDeliver (tasks : List (Task Call Answer Failure Unit))
    {t : Task Call Answer Failure Unit} (ht : t ∈ tasks) (h : System.isAt isDeliver t = true) :
    ∃ channelType payload recipientId next,
      ⟨t.past, .call (.deliver channelType payload recipientId) next⟩ ∈ tasks := by
  obtain ⟨c, next, hc, heq⟩ := System.exists_of_isAt _ h
  cases c with
  | deliver channelType payload recipientId =>
    exact ⟨channelType, payload, recipientId, next, heq ▸ ht⟩
  | _ => cases hc

/-! ## Every delivery -/

/-- **A delivered notification was authorized under the rule that admitted it**, if the first rule
with its classification and scope asks for the same capability: where an adapter is called, an event
was read whose recipient it is, the payload is redacted, and whatever severity the event was created
with, the rule that matched asks for what the recipient was found to hold. -/
theorem delivered_authorized (policy : NotificationPolicy) (db : GovernanceDb)
    (events : List NotificationEvent) (s : Running World Call Answer Failure Unit)
    (hs : (runtimeSystem policy).Reachable ⟨db, events, []⟩ s) (past : History)
    (channelType : String) (payload : Json) (recipientId : String)
    (next : Except Failure DeliveryResult → Program Unit)
    (ht : ⟨past, .call (.deliver channelType payload recipientId) next⟩ ∈ s.tasks) :
    ∃ event ∈ eventReads past, event.recipientId = some recipientId ∧
      Redacted policy event payload ∧
      ∀ severity, (event, severity) ∈ s.world.inserted → ∃ rule,
        AdmittedBy policy event.classification severity event.scope event.budgetId rule ∧
        (SameCapability policy event.classification event.budgetId rule →
          HeldUnder past event rule) := by
  obtain ⟨event, hc, parsed, -, rfl⟩ := (hs.ensured (fun p hp => safe_starts hp) _ ht).1
  obtain ⟨id, hread⟩ := hc.read
  obtain ⟨hvisible, hclean⟩ := adapterPayload_redacted policy event parsed
  refine ⟨event, mem_filterMap.mpr ⟨_, hread, rfl⟩, hc.recipient,
    ⟨⟨_, rfl, hvisible⟩, hclean⟩, fun severity hinserted => ?_⟩
  obtain ⟨rule, hadmitted⟩ := allAdmitted_reachable hs _ hinserted
  exact ⟨rule, hadmitted, hc.heldUnder hadmitted⟩

/-- The owner holds what the only rule asks for. -/
theorem delivered_authorized_household :
    ∃ payload, HeldUnder
        (billDispatched (billPolicy [receiveRule]) (holding ["notification:receive"])
          (holding ["notification:receive"])).2.past billEvent receiveRule ∧
      Redacted (billPolicy [receiveRule]) billEvent payload := by
  have hrun := reachable_billRunning (billPolicy [receiveRule]) (holding ["notification:receive"])
    (holding ["notification:receive"])
  obtain ⟨channelType, payload, recipientId, next, htask⟩ := exists_of_isDeliver
    (billRunning (billPolicy [receiveRule]) (holding ["notification:receive"])
      (holding ["notification:receive"])).tasks
    (mem_cons_of_mem _ mem_cons_self) (by decide +kernel)
  obtain ⟨event, hevent, -, hredacted, hheld⟩ :=
    delivered_authorized _ _ _ _ hrun _ channelType payload recipientId next htask
  have hreads : eventReads (billDispatched (billPolicy [receiveRule])
      (holding ["notification:receive"]) (holding ["notification:receive"])).2.past = [billEvent] :=
    rfl
  rw [hreads, mem_singleton] at hevent
  subst hevent
  have hinserted : (billRunning (billPolicy [receiveRule]) (holding ["notification:receive"])
      (holding ["notification:receive"])).world.inserted = [(billEvent, .normal)] := rfl
  obtain ⟨rule, hadmitted, hheld⟩ := hheld .normal (hinserted ▸ mem_cons_self)
  have hrule : rule = receiveRule := some.inj (hadmitted.matching.symm.trans (by decide))
  subst hrule
  refine ⟨payload, hheld fun first hfirst => ?_, hredacted⟩
  rw [some.inj (hfirst.symm.trans (by decide : _ = some receiveRule))]

/-- A bill of normal severity is admitted under the second rule; its dispatch asks for the capability
of the first, which the owner keeps when the other is taken away. -/
theorem delivered_unauthorized :
    ¬ ∀ (policy : NotificationPolicy) (db : GovernanceDb) (events : List NotificationEvent)
      (s : Running World Call Answer Failure Unit),
      (runtimeSystem policy).Reachable ⟨db, events, []⟩ s → ∀ (past : History)
      (channelType : String) (payload : Json) (recipientId : String)
      (next : Except Failure DeliveryResult → Program Unit),
      ⟨past, .call (.deliver channelType payload recipientId) next⟩ ∈ s.tasks →
      ∃ event ∈ eventReads past, event.recipientId = some recipientId ∧
        Redacted policy event payload ∧
        ∀ severity, (event, severity) ∈ s.world.inserted → ∃ rule,
          AdmittedBy policy event.classification severity event.scope event.budgetId rule ∧
          HeldUnder past event rule := by
  intro hclaim
  have hrun := reachable_billRunning (billPolicy [adminRule, receiveRule])
    (holding ["notification:receive", "notification:admin"]) (holding ["notification:admin"])
  obtain ⟨channelType, payload, recipientId, next, htask⟩ := exists_of_isDeliver
    (billRunning (billPolicy [adminRule, receiveRule])
      (holding ["notification:receive", "notification:admin"]) (holding ["notification:admin"])).tasks
    (mem_cons_of_mem _ mem_cons_self) (by decide +kernel)
  obtain ⟨event, hevent, -, -, hheld⟩ :=
    hclaim _ _ _ _ hrun _ channelType payload recipientId next htask
  have hreads : eventReads (billDispatched (billPolicy [adminRule, receiveRule])
      (holding ["notification:receive", "notification:admin"])
      (holding ["notification:admin"])).2.past = [billEvent] := rfl
  rw [hreads, mem_singleton] at hevent
  subst hevent
  have hinserted : (billRunning (billPolicy [adminRule, receiveRule])
      (holding ["notification:receive", "notification:admin"])
      (holding ["notification:admin"])).world.inserted = [(billEvent, .normal)] := rfl
  obtain ⟨rule, hadmitted, read, hread, recipient, spaceId, membershipId, hrecipient, hspace,
    hmembership, hholds⟩ := hheld .normal (hinserted ▸ mem_cons_self)
  have hrule : rule = receiveRule := some.inj (hadmitted.matching.symm.trans (by decide))
  subst hrule
  cases hrecipient
  cases hspace
  cases hmembership
  have hreads : governanceReads (billDispatched (billPolicy [adminRule, receiveRule])
      (holding ["notification:receive", "notification:admin"])
      (holding ["notification:admin"])).2.past = [(holding ["notification:admin"], noon)] := rfl
  rw [hreads, mem_singleton] at hread
  subst hread
  obtain ⟨policy, resource, hpolicy, hresource, hallowed⟩ := hholds.allowed
  cases hpolicy
  cases hresource
  have hdenied : (authorize (holding ["notification:admin"]) (receiveRequest "ada" "home" "period" "1"
    "notification:receive" (.budget, "budget") noon)).allowed = false := by decide +kernel
  exact Bool.false_ne_true (hdenied.symm.trans hallowed)

end BalanceFrame.Notification
