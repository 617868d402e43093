import BalanceFrame.Evidence.Check
import BalanceFrame.Evidence.Text
import BalanceFrame.Library.SortedMap
import BalanceFrame.Library.UnionFind

/-!
# Linking observations

Model of the phases of `resolve_transaction_evidence`
(`crates/core-protocol/src/transaction_evidence.rs`) that connect observations:

1. `confirmLink`: the confirmed relationships of the request are checked and counted;
2. `supersedePending`: a pending observation with one posted counterpart gives way to it;
3. `aggregate`: sources and ledger rows with one stable external identity fund each other when
   their totals agree;
4. `candidate`, `confirmMatch`, `markPlausible`: the remaining pairs are proposed, the unambiguous
   ones with corroborated identity are connected.

`Links` is what the phases share: relationships in the order they were made, what each observation
was spent on, the classes of connected observations (`parent`, a union-find), and the observations
that are superseded or ambiguous. Observations are numbered as they are sorted; sets are lists.
-/

namespace BalanceFrame.Evidence

open Library
open Liquidity (I64 InI64 Money Checked Json)

/-- What the phases share. -/
structure Links where
  relationships : List EvidenceRelationship
  consumption : SortedMap Nat Int
  parent : List Nat
  connected : List Nat
  returnConsumption : SortedMap Nat Int
  allocationRoles : SortedMap Nat Bool
  superseded : List Nat
  ambiguous : List Nat

section

variable (obs : List Observed) (days : Nat)

/-- `r.observations[i]`. -/
def nth (i : Nat) : Observed := obs.getD i default

/-- `index[id]`. -/
def indexOf (id : String) : Nat := obs.findIdx (·.id == id)

/-- Nothing linked yet. -/
def unlinked (relationships : List EvidenceRelationship) : Links where
  relationships := relationships
  consumption := SortedMap.empty
  parent := List.range obs.length
  connected := []
  returnConsumption := SortedMap.empty
  allocationRoles := SortedMap.empty
  superseded := []
  ambiguous := []

/-- Both ends are connected, and the class of `b` joins that of `a`. -/
def Links.connect (s : Links) (a b : Nat) : Links :=
  { s with connected := b :: a :: s.connected, parent := union s.parent a b }

/-- `consumption.entry(i).or_default()`. -/
def Links.spent (s : Links) (i : Nat) : Int := (s.consumption.get? i).getD 0

/-! ## Confirmed relationships -/

/-- One end of a confirmed allocation keeps its role and is not spent beyond its amount. -/
def allocateEnd (units : Int) (role : Bool) (s : Links) (i : Nat) : Checked Links := do
  require (noneOr (· == role) (s.allocationRoles.get? i)) "allocation_cycle"
  let total := s.spent i + units
  require (decide (InI64 total)) "amount_overflow"
  require (decide (total ≤ (nth obs i).amount.minorUnits)) "double_consumption"
  pure { s with
    allocationRoles := s.allocationRoles.insert i role
    consumption := s.consumption.insert i total }

/-- One end of a confirmed return. -/
def returnEnd (units : Int) (s : Links) (i : Nat) : Checked Links := do
  let total := (s.returnConsumption.get? i).getD 0 + units
  require (decide (InI64 total)) "amount_overflow"
  require (decide (total ≤ (nth obs i).amount.minorUnits)) "return_double_consumption"
  pure { s with returnConsumption := s.returnConsumption.insert i total }

/-- A confirmed allocation between the observations `a` and `b`. -/
def confirmAllocation (s : Links) (rel : EvidenceRelationship) (a b : Nat) : Checked Links := do
  let oa := nth obs a
  let ob := nth obs b
  require (active oa && active ob && compatible oa ob days (rel.kind == "transfer"))
    "relationship_incompatible"
  let amount ← orStop rel.allocatedAmount "allocation_required"
  require (amount.currency == oa.amount.currency && decide (0 < (amount.minorUnits : Int)))
    "allocation_currency"
  require (rel.partialLink || (amount == oa.amount && amount == ob.amount))
    "explicit_partial_required"
  let s ← allocateEnd obs amount.minorUnits true s a
  let s ← allocateEnd obs amount.minorUnits false s b
  pure (s.connect a b)

/-- A confirmed return between the observations `a` and `b`. -/
def confirmReturn (s : Links) (rel : EvidenceRelationship) (a b : Nat) : Checked Links := do
  let oa := nth obs a
  let ob := nth obs b
  require (oa.direction != ob.direction && oa.amount.currency == ob.amount.currency)
    "return_direction"
  let amount ← orStop rel.allocatedAmount "allocation_required"
  require (amount.currency == oa.amount.currency && decide (0 < (amount.minorUnits : Int)) &&
    decide ((amount.minorUnits : Int) ≤ oa.amount.minorUnits) &&
    decide ((amount.minorUnits : Int) ≤ ob.amount.minorUnits)) "return_amount"
  let s ← returnEnd obs amount.minorUnits s a
  returnEnd obs amount.minorUnits s b

/-- A relationship of the request. -/
def confirmLink (s : Links) (rel : EvidenceRelationship) : Checked Links :=
  if rel.state != "confirmed" then pure s
  else
    let a := indexOf obs rel.fromId
    let b := indexOf obs rel.toId
    if consuming rel.kind then confirmAllocation obs days s rel a b
    else if rel.kind == "same_event" then do
      require ((nth obs a).amount == (nth obs b).amount &&
        compatible (nth obs a) (nth obs b) days false) "same_event_mismatch"
      pure s
    else if ["refund", "reversal", "reimbursement"].contains rel.kind then
      confirmReturn obs s rel a b
    else pure s

/-! ## Pending observations -/

/-- The observation that `pending` was posted as. -/
def isPosted (pending other : Observed) : Bool :=
  other.sourceId == pending.sourceId && other.externalEventId == pending.externalEventId &&
    active other && other.amount == pending.amount && compatible pending other days false

def supersessionLink (o other : Observed) : EvidenceRelationship where
  id := "supersession:" ++ o.id ++ ":" ++ other.id
  fromId := o.id
  toId := other.id
  kind := "supersession"
  state := "confirmed"
  allocatedAmount := none
  partialLink := false
  score := 100
  reasonCodes := ["pending_to_posted"]
  evidenceIds := [o.provenance.documentId, other.provenance.documentId]

/-- A superseded observation is marked; a pending one with one posted counterpart gives way. -/
def supersedePending (s : Links) (p : Observed × Nat) : Links :=
  let s := if p.1.status == "superseded" then { s with superseded := p.2 :: s.superseded } else s
  if p.1.status != "pending" || p.1.externalEventId.isNone then s
  else
    match obs.filter (isPosted days p.1) with
    | [other] =>
      { s with
        superseded := p.2 :: s.superseded
        relationships := s.relationships ++ [supersessionLink p.1 other] }
    | _ => s

/-! ## Stable aggregates -/

/-- Reliable unconnected observations, by external identity. -/
def stableGroups (connected : List Nat) : SortedMap String (List Nat) :=
  SortedMap.groupOn (fun i =>
    if active (nth obs i) && !connected.contains i && decide (80 ≤ (nth obs i).reliability) then
      (nth obs i).externalEventId
    else none) (List.range obs.length)

def isLedger (i : Nat) : Bool := (nth obs i).kind == "ledger_transaction"

/-- A source and a target of an aggregate. -/
def mayFund (a b : Nat) : Bool :=
  (nth obs a).sourceId != (nth obs b).sourceId &&
    compatible (nth obs a) (nth obs b) days (transferObservation (nth obs a))

def aggregateLink (oa ob : Observed) (amount : Money) : EvidenceRelationship where
  id := "auto:" ++ oa.id ++ ":" ++ ob.id
  fromId := oa.id
  toId := ob.id
  kind := "partial_funding"
  state := "confirmed"
  allocatedAmount := some amount
  partialLink := true
  score := 100
  reasonCodes := ["stable_aggregate_identity"]
  evidenceIds := [oa.provenance.documentId, ob.provenance.documentId]

/-- What is left of the targets, and of the source at hand. -/
structure Funding where
  links : Links
  remaining : SortedMap Nat Int
  unallocated : Int

/-- Fund target `b` with what is left of source `a`. -/
def fundTarget (currency : String) (a : Nat) (f : Funding) (b : Nat) : Funding :=
  let available := (f.remaining.get? b).getD 0
  let units := min f.unallocated available
  if units = 0 then f
  else
    let s := f.links.connect a b
    let consumption := s.consumption.insert a (s.spent a + units)
    { links := { s with
        consumption := consumption.insert b ((consumption.get? b).getD 0 + units)
        relationships := s.relationships ++
          [aggregateLink (nth obs a) (nth obs b) ⟨I64.wrap units, currency⟩] }
      remaining := f.remaining.insert b (available - units)
      unallocated := f.unallocated - units }

/-- Fund the targets in turn with source `a`. -/
def fundFrom (currency : String) (targets : List Nat) (f : Funding) (a : Nat) : Funding :=
  targets.foldl (fundTarget obs currency a)
    { f with unallocated := (nth obs a).amount.minorUnits }

/-- Sources fund targets in order. -/
def fundAll (currency : String) (sources targets : List Nat) (s : Links) : Links :=
  let remaining := SortedMap.ofList (targets.map fun i => (i, ((nth obs i).amount.minorUnits : Int)))
  (sources.foldl (fundFrom obs currency targets) ⟨s, remaining, 0⟩).links

/-- One group of a stable external identity: whole totals only, and no ledger row twice. -/
def aggregate (s : Links) (group : List Nat) : Checked Links :=
  let sources := group.filter fun i => !isLedger obs i
  let targets := group.filter (isLedger obs)
  if sources.isEmpty || targets.isEmpty || (sources.length == 1 && targets.length == 1) then pure s
  else
    let currency := (nth obs (sources.headD 0)).amount.currency
    if !(sources.all fun a => targets.all (mayFund obs days a)) then pure s
    else do
      let sourceTotal ← sum (sources.map fun i => (nth obs i).amount) currency
      if (sourceTotal : Int) = 0 then pure s
      else
        let targetTotal ← sum (targets.map fun i => (nth obs i).amount) currency
        if sourceTotal ≠ targetTotal then pure s
        else if ¬ (targets.filterMap fun i => (nth obs i).ledgerTransactionId).Nodup then pure s
        else pure (fundAll obs currency sources targets s)

/-! ## Matching -/

/-- The proposed pairs, by source: those worth a confirmation, and all. -/
structure Matching where
  relationships : List EvidenceRelationship
  candidates : SortedMap Nat (List Nat)
  plausiblePairs : SortedMap Nat (List Nat)

/-- A relationship that was turned down between two observations. -/
def turnsDown (oa ob : Observed) (rel : EvidenceRelationship) : Bool :=
  ((rel.fromId == oa.id && rel.toId == ob.id) || (rel.fromId == ob.id && rel.toId == oa.id)) &&
    ["rejected", "superseded"].contains rel.state

def localPair (a b : Nat) : Bool :=
  !isLedger obs b && decide (a < b) && supportsLocalCandidate (nth obs a) (nth obs b)

/-- The pair is proposed; `relationships` are those of the request. -/
def proposes (relationships : List EvidenceRelationship) (connected : List Nat) (a b : Nat) :
    Bool :=
  let oa := nth obs a
  let ob := nth obs b
  !connected.contains b && active ob && (isLedger obs b || localPair obs a b) &&
    oa.sourceId != ob.sourceId && compatible oa ob days (transferObservation oa) &&
    oa.amount == ob.amount && decide ((oa.amount.minorUnits : Int) ≠ 0) &&
    !relationships.any (turnsDown oa ob)

/-- `stable`. -/
def stablePair (oa ob : Observed) : Bool :=
  oa.externalEventId.isSome && oa.externalEventId == ob.externalEventId

/-- `context`. -/
def contextPair (oa ob : Observed) : Bool :=
  oa.fundingInstrumentId.isSome && oa.fundingInstrumentId == ob.fundingInstrumentId &&
    oa.counterparty.isSome && oa.counterparty == ob.counterparty

/-- The kind of a link from `oa` over its whole amount. -/
def matchKind (oa : Observed) : String :=
  if transferObservation oa then "transfer" else "settlement"

def candidateLink (oa ob : Observed) (isLocal : Bool) : EvidenceRelationship where
  id := "candidate:" ++ digest (.array [.string oa.id, .string ob.id])
  fromId := oa.id
  toId := ob.id
  kind := matchKind oa
  state := "candidate"
  allocatedAmount := some oa.amount
  partialLink := false
  score := if stablePair oa ob then 75 else if contextPair oa ob then 65 else 35
  reasonCodes := ["amount_direction_date_compatible"] ++
    (if isLocal then ["evidence_to_evidence_candidate"] else []) ++
    (if stablePair oa ob then ["stable_external_identity"] else []) ++
    (if contextPair oa ob then ["funding_counterparty_corroboration"] else []) ++
    (if oa.reliability < 80 ∨ ob.reliability < 80 then ["low_source_reliability"] else [])
  evidenceIds := [oa.provenance.documentId, ob.provenance.documentId]

/-- `candidates.entry(a).or_default().push(b)`. -/
def pushEntry (m : SortedMap Nat (List Nat)) (a b : Nat) : SortedMap Nat (List Nat) :=
  m.insert a ((m.get? a).getD [] ++ [b])

/-- Look at the pair of `a` and `b`. -/
def candidate (relationships : List EvidenceRelationship) (connected : List Nat) (a : Nat)
    (m : Matching) (b : Nat) : Checked Matching :=
  let oa := nth obs a
  let ob := nth obs b
  if !proposes obs days relationships connected a b then pure m
  else do
    let proposed := m.relationships.any fun rel =>
      rel.fromId == oa.id && rel.toId == ob.id && rel.state == "candidate"
    require (proposed || decide (m.relationships.length < 20000)) "candidate_limit"
    pure
      { relationships := if proposed then m.relationships
          else m.relationships ++ [candidateLink oa ob (localPair obs a b)]
        plausiblePairs := pushEntry m.plausiblePairs a b
        candidates :=
          if isLedger obs b && (stablePair oa ob || contextPair oa ob) &&
              decide (80 ≤ oa.reliability) && decide (80 ≤ ob.reliability) then
            pushEntry m.candidates a b
          else m.candidates }

/-- Look at the pairs of `a`. -/
def candidatesOf (relationships : List EvidenceRelationship) (connected : List Nat) (m : Matching)
    (a : Nat) : Checked Matching :=
  if connected.contains a || !active (nth obs a) || isLedger obs a then pure m
  else (List.range obs.length).foldlM (candidate obs days relationships connected a) m

def matchLinkOf (oa ob : Observed) : EvidenceRelationship where
  id := "auto:" ++ oa.id ++ ":" ++ ob.id
  fromId := oa.id
  toId := ob.id
  kind := matchKind oa
  state := "confirmed"
  allocatedAmount := some oa.amount
  partialLink := false
  score := 100
  reasonCodes := ["deterministic_identity"]
  evidenceIds := [oa.provenance.documentId, ob.provenance.documentId]

/-- The number of candidates for `b`. -/
def competing (candidates : SortedMap Nat (List Nat)) (b : Nat) : Nat :=
  (candidates.values.filter (·.contains b)).length

/-- Connect a source with its only candidate when that has no other source. -/
def confirmMatch (candidates : SortedMap Nat (List Nat)) (s : Links) (e : Nat × List Nat) : Links :=
  let a := e.1
  let b := e.2.headD 0
  if e.2.length ≠ 1 ∨ competing candidates b ≠ 1 then
    { s with ambiguous := e.2 ++ a :: s.ambiguous }
  else
    { s with
      connected := b :: a :: s.connected
      parent := s.parent.set b a
      consumption := (s.consumption.insert a (nth obs a).amount.minorUnits).insert b
        (nth obs b).amount.minorUnits
      relationships := s.relationships ++ [matchLinkOf (nth obs a) (nth obs b)] }

/-- Two unconnected sources want `target`. -/
def contested (connected : List Nat) (plausiblePairs : SortedMap Nat (List Nat)) (target : Nat) :
    Bool :=
  decide (1 < (plausiblePairs.entries.filter fun e =>
    !connected.contains e.1 && e.2.contains target).length)

/-- An unconnected source with several targets, or a contested one, is ambiguous. -/
def markPlausible (plausiblePairs : SortedMap Nat (List Nat)) (s : Links) (e : Nat × List Nat) :
    Links :=
  if s.connected.contains e.1 then s
  else if decide (1 < e.2.length) || e.2.any (contested s.connected plausiblePairs) then
    { s with ambiguous := e.2 ++ e.1 :: s.ambiguous }
  else s

/-! ## The phases together -/

/-- A confirmed allocation. -/
def EvidenceRelationship.allocates (rel : EvidenceRelationship) : Bool :=
  rel.state == "confirmed" && consuming rel.kind

/-- Candidates of confirmed pairs are dropped. -/
def retained (relationships : List EvidenceRelationship) : List EvidenceRelationship :=
  let confirmedPairs := (relationships.filter (·.allocates)).map fun rel => (rel.fromId, rel.toId)
  relationships.filter fun rel =>
    rel.state != "candidate" || !confirmedPairs.contains (rel.fromId, rel.toId)

/-- The links between observations. -/
def linkEvidence (relationships : List EvidenceRelationship) : Checked Links := do
  let s ← relationships.foldlM (confirmLink obs days) (unlinked obs relationships)
  let s := obs.zipIdx.foldl (supersedePending obs days) s
  let s ← (stableGroups obs s.connected).values.foldlM (aggregate obs days) s
  let m ← (List.range obs.length).foldlM (candidatesOf obs days relationships s.connected)
    ⟨s.relationships, SortedMap.empty, SortedMap.empty⟩
  let s := m.candidates.entries.foldl (confirmMatch obs m.candidates)
    { s with relationships := m.relationships }
  let s := m.plausiblePairs.entries.foldl (markPlausible m.plausiblePairs) s
  pure { s with relationships := retained s.relationships }

end

end BalanceFrame.Evidence
