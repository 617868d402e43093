import BalanceFrame.Evidence.Linking

/-!
# Economic events

Model of the middle of `resolve_transaction_evidence`: every class of linked observations becomes
one event with a type, a state and an amount (`eventCore`), and a resolved event with one reviewed
ledger effect is projected to the ledger (`projection`). Only `projection` reads effects.
-/

namespace BalanceFrame.Evidence

open Library
open Liquidity (I64 InI64 Money Checked Json)

section

variable (obs : List Observed) (days : Nat) (s : Links)

/-- The observations of each class, superseded ones left out. -/
def groups : SortedMap Nat (List Nat) :=
  SortedMap.groupOn (fun i => if s.superseded.contains i then none else some (root s.parent i))
    (List.range obs.length)

/-- What an event says before effects are looked at. -/
structure EventCore where
  id : String
  eventType : String
  state : String
  amount : Money
  observationIds : List String
  evidenceIds : List String

/-- The one known type of the observations, if they have one. -/
def eventTypeOf (group : List Nat) : String :=
  match (group.map fun i => (nth obs i).eventType).filter (· != "unknown") with
  | [] => "unknown"
  | kind :: rest => if rest.all (· == kind) then kind else "mixed"

/-- `fully`. -/
def isFull (group : List Nat) : Bool :=
  group.all fun i => s.consumption.get? i == some ((nth obs i).amount.minorUnits : Int)

def eventState (group : List Nat) : String :=
  if group.any s.ambiguous.contains then "ambiguous"
  else if isFull obs s group && s.connected.contains (group.headD 0) then "resolved"
  else "unmatched"

/-- `source_ids.contains(id)`. -/
def isSourceId (relationships : List EvidenceRelationship) (id : String) : Bool :=
  relationships.any fun rel => rel.allocates && rel.fromId == id

/-- The sum of the sources, or the first amount where there is none. -/
def eventAmount (group : List Nat) : Checked Money := do
  let first := (nth obs (group.headD 0)).amount
  let sources := group.filter fun i => isSourceId s.relationships (nth obs i).id
  let sourceAmount ← sum (sources.map fun i => (nth obs i).amount) first.currency
  pure ⟨if (sourceAmount : Int) = 0 then first.minorUnits else sourceAmount, first.currency⟩

def eventId (ids : List String) : String := "event:" ++ digest (.array (ids.map Json.string))

def eventCore (group : List Nat) : Checked EventCore := do
  let ids := group.map fun i => (nth obs i).id
  let amount ← eventAmount obs s group
  pure
    { id := eventId ids
      eventType := eventTypeOf obs group
      state := eventState obs s group
      amount := amount
      observationIds := ids
      evidenceIds := sortedSet (group.map fun i => (nth obs i).provenance.documentId) }

end

/-! ## Projections -/

/-- An amount with the sign the ledger gives it. -/
def signedUnits (o : Observed) : I64 :=
  if o.direction == "outflow" then I64.neg o.amount.minorUnits else o.amount.minorUnits

/-- `amendment_target`: the ledger transaction that the effect restates. -/
def amendmentTarget (rows : List EvidenceObservation) (e : EconomicEventLedgerEffect) :
    Option String :=
  match rows with
  | [source] =>
    if source.kind == "ledger_transaction" && source.ledgerAccountId == some e.accountId &&
        source.date == e.date && source.amount.currency == e.amount.currency &&
        signedUnits source.toObserved == e.amount.minorUnits then
      source.ledgerTransactionId
    else none
  | _ => none

def evidenceReference (kind id : String) : EvidenceReference where
  evidenceId := id
  kind := kind
  authorized := true
  redaction := .visible

/-- The observations of an event that have a ledger transaction. -/
def existingRows (members : List EvidenceObservation) : List EvidenceObservation :=
  members.filter (·.ledgerTransactionId.isSome)

/-- What a resolved event writes: its only effect, as a new transaction or over its only row. -/
def projection (core : EventCore) (members : List EvidenceObservation) :
    Option SourceObservation :=
  if core.state != "resolved" || core.eventType == "unknown" then none
  else
    match members.filterMap (·.ledgerEffect) with
    | [effect] =>
      let target := amendmentTarget (existingRows members) effect
      if I64.checkedAbs effect.amount.minorUnits == some core.amount.minorUnits &&
          ((existingRows members).isEmpty || target.isSome) then
        some
          { walletBalanceAnchor := none
            allocationReview := none
            kind := .economicEventResolution
            scope := .transaction (target.getD core.id)
            state := .resolved
            observedAt := (members.map (·.provenance.receivedAt)).max?
            contentHash := none
            version := some "1"
            ledgerEffect := some effect
            evidence := core.evidenceIds.map (evidenceReference "economic_event_resolution") }
      else none
    | _ => none

/-- A ledger row could already hold the event. -/
def overlaps (observations : List EvidenceObservation) (days : Nat) (core : EventCore)
    (members : List EvidenceObservation) : Bool :=
  observations.any fun ledger =>
    ledger.kind == "ledger_transaction" && active ledger.toObserved &&
      decide (0 < (ledger.amount.minorUnits : Int)) &&
      decide ((ledger.amount.minorUnits : Int) ≤ core.amount.minorUnits) &&
      members.any fun o =>
        compatible o.toObserved ledger.toObserved days (transferObservation o.toObserved)

instance : Inhabited EvidenceObservation := ⟨⟨default, false, none⟩⟩

/-- The observations of a group. -/
def membersOf (observations : List EvidenceObservation) (group : List Nat) :
    List EvidenceObservation :=
  group.map fun i => observations.getD i default

/-- A new transaction that a ledger row could already hold is not written. -/
def overlapping (observations : List EvidenceObservation) (days : Nat) (core : EventCore)
    (members : List EvidenceObservation) : Bool :=
  (projection core members).isSome && (existingRows members).isEmpty &&
    overlaps observations days core members

/-- The event of a group. -/
def eventOf (observations : List EvidenceObservation) (days : Nat) (core : EventCore)
    (members : List EvidenceObservation) : ResolvedEconomicEvent :=
  let overlap := overlapping observations days core members
  { projectionObservations := []
    allocationSetHash := none
    id := core.id
    version := "1"
    eventType := core.eventType
    state := core.state
    amount := core.amount
    observationIds := core.observationIds
    evidenceIds := core.evidenceIds
    reasonCodes :=
      (if (existingRows members).isEmpty then [] else ["existing_ledger_transaction"]) ++
        if overlap then ["ledger_overlap_ambiguity"] else []
    projectionObservation := if overlap then none else projection core members }

/-- What stands against the event of a group. -/
def eventBlockers (observations : List EvidenceObservation) (days : Nat) (core : EventCore)
    (members : List EvidenceObservation) : List EvidenceBlocker :=
  (if core.state == "resolved" then []
    else [⟨if core.state == "ambiguous" then "economic_event_ambiguity" else "unmatched_funds",
      core.id, core.evidenceIds⟩]) ++
  if overlapping observations days core members then
    [⟨"ledger_overlap_ambiguity", core.id, core.evidenceIds⟩]
  else []

/-- The events so far, with their blockers. -/
structure Events where
  events : List ResolvedEconomicEvent
  blockers : List EvidenceBlocker

/-- Add the event of a group. -/
def addEvent (observations : List EvidenceObservation) (days : Nat) (s : Links) (out : Events)
    (group : List Nat) : Checked Events := do
  let core ← eventCore (observations.map (·.toObserved)) s group
  let members := membersOf observations group
  pure
    { events := out.events ++ [eventOf observations days core members]
      blockers := out.blockers ++ eventBlockers observations days core members }

/-- The events of all classes. -/
def resolveEvents (observations : List EvidenceObservation) (days : Nat) (s : Links) :
    Checked Events :=
  (groups (observations.map (·.toObserved)) s).values.foldlM (addEvent observations days s) ⟨[], []⟩

end BalanceFrame.Evidence
