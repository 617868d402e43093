import BalanceFrame.Governance.Authorize
import BalanceFrame.Governance.PayloadCorrect

/-!
# Notification policies

Model of what `packages/application/src/notifications.ts` reads of a `NotificationPolicy`: the two
searches of eligibility rules (`findMatchingRule`, and the one of `dispatch`), `authorizationAllows`,
`sanitizeAdapterPayload`, `redactPayload`, `isInQuietHours` and `classifyFailure`.
-/

namespace BalanceFrame.Notification

open Library Bool
open Liquidity (Json)
open Governance (GovernanceDb Space PolicyRow SpaceMembership ResourceKind Entries
  AuthorizationInput authorize Within within_array within_object)

/-! ## Rules -/

inductive Severity
  | critical | high | normal | low
  deriving DecidableEq

/-- `SEVERITY_ORDER.indexOf`. -/
def Severity.index : Severity → Nat
  | .critical => 0
  | .high => 1
  | .normal => 2
  | .low => 3

def Severity.text : Severity → String
  | .critical => "critical"
  | .high => "high"
  | .normal => "normal"
  | .low => "low"

structure EligibilityRule where
  classifications : List String
  minSeverity : Severity
  requiredCapability : Option String
  requiredScope : Option String
  deriving DecidableEq

/-- `requiredCapability ?? 'notification:receive'`. -/
def EligibilityRule.capability (rule : EligibilityRule) : String :=
  rule.requiredCapability.getD "notification:receive"

/-- ``requiredScope || `budget:${budgetId}` ``. -/
def EligibilityRule.scopeFor (rule : EligibilityRule) (budgetId : String) : String :=
  match rule.requiredScope with
  | some scope => if scope == "" then "budget:" ++ budgetId else scope
  | none => "budget:" ++ budgetId

inductive ChannelType
  | inApp | email | webhook
  deriving DecidableEq

def ChannelType.text : ChannelType → String
  | .inApp => "in_app"
  | .email => "email"
  | .webhook => "webhook"

structure ChannelConfig where
  type : ChannelType
  enabled : Bool
  rateLimitPerMinute : Int
  deriving DecidableEq

/-- `QuietHoursWindow`, as the minutes of the day that `Number` makes of it. -/
structure QuietHoursWindow where
  startMinutes : Option Int
  endMinutes : Option Int
  deriving DecidableEq

structure RecipientSpec where
  actorId : String
  channels : List ChannelType
  quietHours : Option QuietHoursWindow
  deriving DecidableEq

/-- `NotificationPolicy`; `redaction` gives a class its visible fields. -/
structure NotificationPolicy where
  policyVersion : String
  eligibility : List EligibilityRule
  recipients : List RecipientSpec
  channels : List ChannelConfig
  redaction : List (String × List String)
  maxRetries : Nat
  defaultRedactionClass : String

/-- `NotificationEvent`; the payload is what `JSON.parse` gives of its text, if anything. -/
structure NotificationEvent where
  id : String
  budgetId : String
  classification : String
  recipientId : Option String
  scope : Option String
  spaceId : Option String
  recipientMembershipId : Option String
  redactionClass : Option String
  policyVersion : String
  correlationId : Option String
  payload : Option Json
  createdAt : String
  dedupKey : Option String

def findMatchingRule (policy : NotificationPolicy) (classification : String) (severity : Severity) :
    Option EligibilityRule :=
  policy.eligibility.find? fun rule =>
    rule.classifications.contains classification &&
      decide (severity.index ≤ rule.minSeverity.index)

/-- The rule that `dispatch` looks for, by scope. -/
def findScopeRule (policy : NotificationPolicy) (event : NotificationEvent) :
    Option EligibilityRule :=
  policy.eligibility.find? fun rule =>
    rule.classifications.contains event.classification &&
      some (rule.scopeFor event.budgetId) == event.scope

def resolveRecipients (policy : NotificationPolicy) (classification : String) (severity : Severity) :
    List RecipientSpec :=
  if (findMatchingRule policy classification severity).isSome then policy.recipients else []

def resolveChannels (policy : NotificationPolicy) (recipient : RecipientSpec) : List ChannelType :=
  recipient.channels.filter fun channel =>
    ((policy.channels.filter (·.enabled)).map (·.type)).contains channel

/-- `isInQuietHours`, at a minute of the day; no comparison with what is not a number holds. -/
def isInQuietHours (window : QuietHoursWindow) (currentMinutes : Int) : Bool :=
  match window.startMinutes, window.endMinutes with
  | some start, some finish =>
    if start ≤ finish then
      decide (start ≠ finish) && decide (start ≤ currentMinutes) && decide (currentMinutes < finish)
    else decide (start ≤ currentMinutes) || decide (currentMinutes < finish)
  | some start, none => decide (start ≤ currentMinutes)
  | none, some finish => decide (currentMinutes < finish)
  | none, none => false

/-! ## Authorization -/

/-- The resource of a scope. -/
def scopeResource (scope budgetId : String) : Option (ResourceKind × String) :=
  if scope == "budget:" ++ budgetId then if budgetId == "" then none else some (.budget, budgetId)
  else if "category:".toList.isPrefixOf scope.toList then
    let resourceId := String.ofList (scope.toList.drop "category:".length)
    if resourceId == "" then none else some (.category, resourceId)
  else none

def getSpaceForBudget (db : GovernanceDb) (budgetId : String) : Option Space :=
  db.spaces.find? fun s => s.budgetId == some budgetId && s.deletedAt.isNone

/-- The request of `authorizationAllows`. -/
def receiveRequest (actorId spaceId membershipId policyVersion capability : String)
    (resource : ResourceKind × String) (now : String) : AuthorizationInput where
  actorId := actorId
  spaceId := spaceId
  membershipId := some membershipId
  expectedPolicyVersion := policyVersion
  phase := .read
  operation := capability
  required := [{ resourceKind := resource.1, resourceId := resource.2, capability := capability }]
  payload := .object [("operations", .array [])]
  now := now

/-- What an event asks of the space and the membership. -/
def eventMatches (event : NotificationEvent) (space : Space) (budgetId actorId : String)
    (member : SpaceMembership) : Bool :=
  event.spaceId == some space.id && event.budgetId == budgetId &&
    event.recipientMembershipId.any (· != "") &&
      !(event.recipientId == some actorId && event.recipientMembershipId != some member.id)

def authorizationAllows (db : GovernanceDb) (now actorId capability : String) (scope : Option String)
    (budgetId : String) (event : Option NotificationEvent) : Bool :=
  match scope.bind (scopeResource · budgetId), getSpaceForBudget db budgetId with
  | some resource, some space =>
    match db.getPolicy space.id, db.currentMembership space.id actorId now with
    | some policy, .ok (some member) =>
      event.all (eventMatches · space budgetId actorId member) &&
        (authorize db (receiveRequest actorId space.id member.id (toString policy.version) capability
          resource now)).allowed
    | _, _ => false
  | _, _ => false

/-- A capability held at a time: a current policy and a current membership allow it. -/
structure HoldsUnder (db : GovernanceDb) (now recipient capability scope budgetId spaceId
    membershipId : String) : Prop where
  space : ∃ space, getSpaceForBudget db budgetId = some space ∧ space.id = spaceId
  member : ∃ member, db.currentMembership spaceId recipient now = .ok (some member) ∧
    member.id = membershipId
  allowed : ∃ policy resource, db.getPolicy spaceId = some policy ∧
    scopeResource scope budgetId = some resource ∧
    (authorize db (receiveRequest recipient spaceId membershipId (toString policy.version) capability
      resource now)).allowed = true

/-- **What is allowed for an event is held under its own space and membership.** -/
theorem authorizationAllows_event {db : GovernanceDb} {now recipient capability : String}
    {event : NotificationEvent} (hrecipient : event.recipientId = some recipient)
    (h : authorizationAllows db now recipient capability event.scope event.budgetId (some event) =
      true) :
    ∃ scope spaceId membershipId, event.scope = some scope ∧ event.spaceId = some spaceId ∧
      event.recipientMembershipId = some membershipId ∧
      HoldsUnder db now recipient capability scope event.budgetId spaceId membershipId := by
  unfold authorizationAllows at h
  split at h
  · rename_i resource space hresource hspace
    split at h
    · rename_i policy member hpolicy hmember
      obtain ⟨scope, hscope, hresource⟩ := Option.bind_eq_some_iff.mp hresource
      rw [Option.all_some, and_eq_true] at h
      obtain ⟨hmatch, hallowed⟩ := h
      simp only [eventMatches, and_eq_true, beq_iff_eq, not_eq_true',
        and_eq_false_iff, beq_eq_false_iff_ne, bne_eq_false_iff_eq] at hmatch
      obtain ⟨⟨⟨hspaceId, -⟩, -⟩, hperiod⟩ := hmatch
      have hperiod := hperiod.resolve_left fun hne => hne hrecipient
      exact ⟨scope, space.id, member.id, hscope, hspaceId, hperiod, ⟨space, hspace, rfl⟩,
        ⟨member, hmember, rfl⟩, policy, resource, hpolicy, hresource, hallowed⟩
    · cases h
  · cases h

/-! ## Payloads -/

/-- The names that every object has from its prototype. -/
def prototypeNames : List String :=
  ["constructor", "__defineGetter__", "__defineSetter__", "hasOwnProperty", "__lookupGetter__",
    "__lookupSetter__", "isPrototypeOf", "propertyIsEnumerable", "toString", "valueOf", "__proto__",
    "toLocaleString"]

def adapterForbiddenPayloadFields : List String := ["rawEvidence", "rawPayload", "secrets"]

/-- `ADAPTER_FORBIDDEN_PAYLOAD_FIELDS[key]`; what an object has from its prototype is found too. -/
def isDropped (key : String) : Bool :=
  adapterForbiddenPayloadFields.contains key || prototypeNames.contains key

mutual

def sanitizeAdapterPayload : Json → Json
  | .array values => .array (sanitizeValues values)
  | .object entries => .object (sanitizeEntries entries)
  | value => value

def sanitizeValues : List Json → List Json
  | [] => []
  | value :: rest => sanitizeAdapterPayload value :: sanitizeValues rest

def sanitizeEntries : Entries → Entries
  | [] => []
  | (key, value) :: rest =>
    if isDropped key then sanitizeEntries rest
    else (key, sanitizeAdapterPayload value) :: sanitizeEntries rest

end

/-- `visibleFields` of a class; a class without a rule shows nothing. -/
def visibleFields (redaction : List (String × List String)) (redactionClass : String) :
    List String :=
  ((redaction.find? (·.1 == redactionClass)).map Prod.snd).getD []

/-- `redactPayload`, of an actor without `notification:admin`. -/
def redactPayload (payload : Entries) (redactionClass : String)
    (redaction : List (String × List String)) : Entries :=
  payload.filter fun e => (visibleFields redaction redactionClass).contains e.1

/-- The payload that an adapter is given. -/
def adapterPayload (policy : NotificationPolicy) (event : NotificationEvent) (parsed : Json) :
    Entries :=
  match sanitizeAdapterPayload parsed with
  | .object entries =>
    redactPayload entries (event.redactionClass.getD policy.defaultRedactionClass) policy.redaction
  | _ => []

theorem redactPayload_visible {payload : Entries} {redactionClass : String}
    {redaction : List (String × List String)} {e : String × Json}
    (he : e ∈ redactPayload payload redactionClass redaction) :
    e.1 ∈ visibleFields redaction redactionClass ∧ e ∈ payload := by
  obtain ⟨hmem, hvisible⟩ := List.mem_filter.mp he
  exact ⟨List.contains_iff_mem.mp hvisible, hmem⟩

/-- No object, at any depth, has a forbidden field. -/
def Clean (value : Json) : Prop :=
  ∀ entries, Within (.object entries) value → ∀ e ∈ entries, isDropped e.1 = false

theorem clean_array {values : List Json} :
    Clean (.array values) ↔ ∀ value ∈ values, Clean value := by
  constructor
  · exact fun h value hvalue entries hin => h entries (within_array.mpr ⟨value, hvalue, hin⟩)
  · intro h entries hin
    obtain ⟨value, hvalue, hin⟩ := within_array.mp hin
    exact h value hvalue entries hin

theorem clean_object {entries : Entries} :
    Clean (.object entries) ↔ ∀ e ∈ entries, isDropped e.1 = false ∧ Clean e.2 := by
  constructor
  · intro h e he
    exact ⟨h entries (within_object.mpr (.inl rfl)) e he,
      fun inner hin => h inner (within_object.mpr (.inr ⟨e, he, hin⟩))⟩
  · intro h inner hin
    rcases within_object.mp hin with rfl | ⟨e, he, hin⟩
    · exact fun e he => (h e he).1
    · exact (h e he).2 inner hin

theorem clean_of_not_container {value : Json} (harray : ∀ values, value ≠ .array values)
    (hobject : ∀ entries, value ≠ .object entries) : Clean value := by
  intro entries hin
  cases hin with
  | here => exact absurd rfl (hobject entries)
  | item => exact absurd rfl (harray _)
  | entry => exact absurd rfl (hobject _)

mutual

theorem sanitizeAdapterPayload_clean : ∀ value : Json, Clean (sanitizeAdapterPayload value)
  | .null => clean_of_not_container nofun nofun
  | .bool _ => clean_of_not_container nofun nofun
  | .number _ => clean_of_not_container nofun nofun
  | .string _ => clean_of_not_container nofun nofun
  | .array values => clean_array.mpr (sanitizeValues_clean values)
  | .object entries => clean_object.mpr (sanitizeEntries_clean entries)

theorem sanitizeValues_clean : ∀ values : List Json, ∀ value ∈ sanitizeValues values, Clean value
  | [], value, h => absurd h List.not_mem_nil
  | v :: rest, value, h => by
    rcases List.mem_cons.mp h with rfl | h
    · exact sanitizeAdapterPayload_clean v
    · exact sanitizeValues_clean rest value h

theorem sanitizeEntries_clean : ∀ entries : Entries, ∀ e ∈ sanitizeEntries entries,
    isDropped e.1 = false ∧ Clean e.2
  | [], e, h => absurd h List.not_mem_nil
  | (key, v) :: rest, e, h => by
    rw [sanitizeEntries] at h
    split at h
    · exact sanitizeEntries_clean rest e h
    · rename_i hkey
      rcases List.mem_cons.mp h with rfl | h
      · exact ⟨by simpa using hkey, sanitizeAdapterPayload_clean v⟩
      · exact sanitizeEntries_clean rest e h

end

/-- **What an adapter is given**: visible fields of the event's class, and no forbidden field at any
depth. -/
theorem adapterPayload_redacted (policy : NotificationPolicy) (event : NotificationEvent)
    (parsed : Json) :
    (∀ e ∈ adapterPayload policy event parsed, e.1 ∈ visibleFields policy.redaction
      (event.redactionClass.getD policy.defaultRedactionClass)) ∧
      Clean (.object (adapterPayload policy event parsed)) := by
  unfold adapterPayload
  have hclean := sanitizeAdapterPayload_clean parsed
  split
  · rename_i entries hentries
    rw [hentries, clean_object] at hclean
    refine ⟨fun e he => (redactPayload_visible he).1, clean_object.mpr fun e he => ?_⟩
    exact hclean e (redactPayload_visible he).2
  · exact ⟨fun e he => absurd he List.not_mem_nil,
      clean_object.mpr fun e he => absurd he List.not_mem_nil⟩

/-! ## Failures -/

/-- `toLowerCase`, as far as the words below can tell: the Kelvin sign is a `k`. -/
def lower (c : Char) : Char := if c.toNat = 0x212a then 'k' else c.toLower

def includes (text word : List Char) : Bool := text.tails.any word.isPrefixOf

def classifyFailure (error : String) : Bool :=
  let text := error.toList.map lower
  let has (word : String) : Bool := includes text word.toList
  if has "timeout" || has "network" || has "econnrefused" then true
  else if (has "5" && has "xx") || has "server_error" then true
  else if has "rate_limit" || has "quota" then true
  else if (has "4" && has "xx") || has "invalid" || has "bad_request" then false
  else true

end BalanceFrame.Notification
