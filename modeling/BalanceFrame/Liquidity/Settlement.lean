import BalanceFrame.Liquidity.Scenario

/-!
# Settlement and revalidation of plans

Model of `settlement_chronology`, `settlement_evidence_ids`, `settlement` and `preconditions`
(`crates/financial-core/src/liquidity_settlement.rs`). The source records evidence in the result
while it still checks the legs: a failure here carries what was recorded so far (`Recorded`).

Records are matched to legs by a flow of unit capacities: a `MatchArc` names one `connect` call and
`matchLink` gives its arguments.
-/

namespace BalanceFrame.Liquidity

open Library

/-! ## Records -/

/-- The occurrence of a date-only import lies between the plan and the observation. -/
def dateOnlyChronology (occurredAt : String) (created now observed : Instant) : Bool :=
  let b := bytes occurredAt
  b[4]? == some 45 && b[7]? == some 45 &&
    (b.zipIdx.all fun p => p.2 == 4 || p.2 == 7 || isAsciiDigit p.1) &&
    match parseNaiveDate occurredAt with
    | none => false
    | some date => decide (dateNaive created ≤ date) && decide (date ≤ dateNaive now) &&
        decide (date ≤ dateNaive observed)

def settlementChronology (r : TransferSettlementRecord) (created now : Instant) : Bool :=
  match instant r.observedAt with
  | .error _ => false
  | .ok observed =>
    if observed < created ∨ now < observed then false
    else if (bytes r.occurredAt).length = 10 ∧ r.provenance = .actualImport then
      dateOnlyChronology r.occurredAt created now observed
    else
      match instant r.occurredAt with
      | .error _ => false
      | .ok occurred => decide (created ≤ occurred) && decide (occurred ≤ observed)

/-- The identity of an import or a provider reference. -/
def scopedIdentity (kind : String) (r : TransferSettlementRecord) (value : String) : String :=
  "liquidity." ++ kind ++ ".v1:" ++
    (Json.array [r.provenance.json, .string r.accountId, .string value]).toText

def settlementEvidenceIds (r : TransferSettlementRecord) : List String :=
  r.id :: ((r.importedId.toList.map (scopedIdentity "import" r)) ++
    r.providerReference.toList.map (scopedIdentity "provider" r))

/-- The side of a leg that a record is compared with. -/
def legBaseline (r : TransferSettlementRecord) (leg : TransferLeg) : AccountPlanPrecondition :=
  if r.amount.isNegative then leg.sourceBefore else leg.destinationBefore

/-- A text is present and not empty. -/
def nonempty (text : Option String) : Bool := text.any (· != "")

def validRecord (consumed : List String) (created now : Instant) (r : TransferSettlementRecord)
    (leg : TransferLeg) : Bool :=
  let baseline := legBaseline r leg
  r.accountId == baseline.accountId && r.amount.currency == leg.amount.currency &&
    r.amount.minorUnits.checkedAbs == some leg.amount.minorUnits && !r.reversed &&
    r.provenance != .manualLedger && nonempty r.importedId &&
    (r.provenance != .providerConfirmed || nonempty r.providerReference) && r.pairId != "" &&
    !((settlementEvidenceIds r).any fun id =>
      consumed.contains id || baseline.baselineTransactionIds.contains id) &&
    !r.importedId.any baseline.baselineTransactionIds.contains &&
    !r.providerReference.any baseline.baselineTransactionIds.contains &&
    settlementChronology r created now

/-! ## Candidates -/

/-- Imports are named, and no two records are one import. -/
def checkImport (seen : List String) (r : TransferSettlementRecord) : Checked (List String) :=
  match r.importedId with
  | none => pure seen
  | some id => do
    reject (id == "" || seen.contains (scopedIdentity "import" r id)) "duplicate_import_candidate"
    pure (scopedIdentity "import" r id :: seen)

/-- A reversed record concerns a leg. -/
def reversesLeg (legs : List TransferLeg) (r : TransferSettlementRecord) : Bool :=
  r.reversed && legs.any fun leg =>
    (r.accountId == leg.sourceAccountId || r.accountId == leg.destinationAccountId) &&
      r.amount.currency == leg.amount.currency &&
      r.amount.minorUnits.checkedAbs == some leg.amount.minorUnits

/-- The two sides of an observed event. -/
structure Event where
  source : Option TransferSettlementRecord
  destination : Option TransferSettlementRecord
  deriving DecidableEq

/-- The events by pair, and the candidate records. -/
structure Candidates where
  pairs : SortedMap String Event
  ids : List String

/-- Put a record on its side of its pair. -/
def addCandidate (valid : TransferSettlementRecord → Bool) (s : Candidates)
    (r : TransferSettlementRecord) : Checked Candidates :=
  if !valid r then pure s
  else do
    let event := (s.pairs.get? r.pairId).getD { source := none, destination := none }
    if r.amount.isNegative then do
      reject event.source.isSome "duplicate_candidate"
      pure { pairs := s.pairs.insert r.pairId { event with source := some r }, ids := r.id :: s.ids }
    else do
      reject event.destination.isSome "duplicate_candidate"
      pure { pairs := s.pairs.insert r.pairId { event with destination := some r }
             ids := r.id :: s.ids }

/-! ## Matching events to legs -/

/-- One `connect` call of the matching. -/
inductive MatchArc
  | event (i : Nat)
  | assign (i j : Nat)
  | leg (j : Nat)
  deriving DecidableEq

/-- The arguments of the call, for `n` events and `k` legs. -/
def matchLink (n k : Nat) : MatchArc → Link
  | .event i => ⟨0, 1 + i, 1, 0⟩
  | .assign i j => ⟨1 + i, 1 + n + j, 1, 0⟩
  | .leg j => ⟨1 + n + j, 1 + n + k, 1, 0⟩

/-- The event fits the leg: each side that was observed is valid for it. -/
def Event.fits (valid : TransferSettlementRecord → TransferLeg → Bool) (e : Event)
    (leg : TransferLeg) : Bool :=
  e.source.all (valid · leg) && e.destination.all (valid · leg)

/-- A provider and the other side name different transfers. -/
def Event.disagrees (e : Event) : Bool :=
  match e.source, e.destination with
  | some s, some d => (s.provenance == .providerConfirmed || d.provenance == .providerConfirmed) &&
      s.providerReference != d.providerReference
  | _, _ => false

/-- The calls for event `i`. -/
def eventArcs (valid : TransferSettlementRecord → TransferLeg → Bool) (legs : List TransferLeg)
    (e : Event) (i : Nat) : List MatchArc :=
  .event i :: legs.zipIdx.flatMap fun leg => if e.fits valid leg.1 then [.assign i leg.2] else []

/-- All calls, in order. -/
def matchArcs (valid : TransferSettlementRecord → TransferLeg → Bool) (legs : List TransferLeg)
    (events : List Event) : List MatchArc :=
  (events.zipIdx.flatMap fun e => eventArcs valid legs e.1 e.2) ++
    (List.range legs.length).map .leg

/-- Give a leg the event of a saturated connection. -/
def readAssignment (g : Graph) (events : List Event) (assigned : List Event)
    (line : MatchArc × Nat) : List Event :=
  match line.1 with
  | .assign i j =>
    if (edgeAt g (1 + i) line.2).capacity = 0 then
      assigned.set j (events.getD i { source := none, destination := none })
    else assigned
  | _ => assigned

/-- The event assigned to every leg. -/
def assignEvents (valid : TransferSettlementRecord → TransferLeg → Bool) (legs : List TransferLeg)
    (events : List Event) : Checked (List Event) := do
  let sink := 1 + events.length + legs.length
  let arcs := matchArcs valid legs events
  let links := arcs.map (matchLink events.length legs.length)
  let target ← orStop (if h : InI64 events.length then some (⟨events.length, h⟩ : I64) else none)
    "settlement_candidate_overflow"
  let (actual, graph) ← flow (connectAll (sink + 1) links) 0 sink target
  reject (actual != target) "ambiguous_transfer_pair"
  pure ((arcs.zip (positionsFrom (connectAll (sink + 1) []) links)).foldl
    (readAssignment graph events)
    (List.replicate legs.length { source := none, destination := none }))

/-! ## Recording the legs -/

/-- What the check of the legs has recorded. The identities used so far are the evidence. -/
structure Recorded where
  evidenceIds : List String
  reasons : List String
  allSources : Bool
  allDestinations : Bool
  allReconciled : Bool
  effects : List LiquidityClaimEffect

/-- A check that may fail with what it has recorded. -/
abbrev Recording (α : Type) := Except (String × Recorded) α

/-- Record one identity, once. -/
def recordId (s : Recorded) (id : String) : Recording Recorded :=
  if s.evidenceIds.contains id then throw ("ambiguous_transfer_pair", s)
  else pure { s with evidenceIds := s.evidenceIds ++ [id] }

/-- The identities of an event's records. -/
def Event.ids (e : Event) : List String :=
  (e.source.toList ++ e.destination.toList).flatMap settlementEvidenceIds

/-- A record that only has a date. -/
def dateOnly (r : TransferSettlementRecord) : Bool := (bytes r.occurredAt).length == 10

/-- The leg's reservation in the plan. -/
def legDebit (plan : TransferPlan) (leg : TransferLeg) (index : Nat) :
    Option LiquidityClaimEffect :=
  plan.reservations[index]?.filter fun e =>
    e.kind == .accountDebit && e.resourceId == leg.sourceAccountId && e.amount == leg.amount

/-- The record's own and imported identities. -/
def importIds (r : TransferSettlementRecord) : Checked (List String) := do
  let imported ← orStop r.importedId "missing_import_identity"
  pure [r.id, imported]

/-- The debit, and the hold of an observed destination. -/
def legEffects (leg : TransferLeg) (e : Event) (debit : LiquidityClaimEffect) :
    Checked (List LiquidityClaimEffect) := do
  let debit ← match e.source with
    | none => pure debit
    | some source => do
      let ids ← importIds source
      pure { debit with includedInBalance := true, matchedTransactionIds := ids }
  match e.destination with
  | none => pure [debit]
  | some destination => do
    let ids ← importIds destination
    pure [debit,
      { kind := .destinationHold, resourceId := leg.destinationAccountId, amount := leg.amount
        economicObligationId := debit.economicObligationId, sourceEconomicObligationId := none
        categoryId := none, includedInBalance := true, matchedTransactionIds := ids }]

/-- Some record that is no candidate looks like a side of the leg. -/
def mismatched (records : List TransferSettlementRecord) (candidates : List String)
    (leg : TransferLeg) : Bool :=
  records.any fun r => !candidates.contains r.id &&
    ((r.accountId == leg.sourceAccountId && r.amount.isNegative) ||
      (r.accountId == leg.destinationAccountId && decide (0 < (r.amount.minorUnits : Int))))

/-- A failure keeps what was recorded. -/
def recording {α : Type} (s : Recorded) (x : Checked α) : Recording α :=
  x.mapError fun reason => (reason, s)

/-- Add the leg's verdict. -/
def judgeLeg (request : TransferSettlementRequest) (candidates : List String) (leg : TransferLeg)
    (e : Event) (s : Recorded) : Recorded :=
  let s := { s with
    allSources := s.allSources && e.source.isSome
    allDestinations := s.allDestinations && e.destination.isSome }
  match e.source, e.destination with
  | some source, some destination =>
    { s with allReconciled := s.allReconciled && (source.reconciled && destination.reconciled) }
  | _, _ => { s with
      allReconciled := false
      reasons := s.reasons ++ [if mismatched request.records candidates leg then
        "amount_provenance_or_baseline_mismatch" else "one_sided_import"] }

/-- Record one leg and its event. -/
def recordLeg (request : TransferSettlementRequest) (candidates : List String) (s : Recorded)
    (entry : (TransferLeg × Event) × Nat) : Recording Recorded := do
  let ((leg, e), index) := entry
  let s ← e.ids.foldlM recordId s
  let s := if e.source.any dateOnly || e.destination.any dateOnly then
    { s with reasons := s.reasons ++ ["date_only_import_matched_after_baseline"] } else s
  let debit ← recording s (orStop (legDebit request.plan leg index) "missing_source_reservation")
  let effects ← recording s (legEffects leg e debit)
  pure (judgeLeg request candidates leg e { s with effects := s.effects ++ effects })

/-! ## Settlement -/

/-- The assignment of events to legs, with the candidate records. -/
def settlementAssignment (request : TransferSettlementRequest) :
    Checked (List Event × List String) := do
  validatePlan request.plan
  let now ← instant request.evaluatedAt
  let created ← instant request.plan.evaluatedAt
  reject (decide (now < created)) "settlement_precedes_plan"
  unique (request.records.map (·.id))
  let _ ← request.records.foldlM checkImport []
  reject (request.records.any (reversesLeg request.plan.legs)) "transfer_reversed"
  let valid := validRecord request.consumedEvidenceIds created now
  let candidates ← request.records.foldlM
    (addCandidate fun r => request.plan.legs.any (valid r)) { pairs := SortedMap.empty, ids := [] }
  let events := candidates.pairs.values
  reject (events.any Event.disagrees) "provider_actual_disagreement"
  let assigned ← assignEvents valid request.plan.legs events
  pure (assigned, candidates.ids)

/-- Nothing recorded. -/
def blankRecord : Recorded where
  evidenceIds := []
  reasons := []
  allSources := true
  allDestinations := true
  allReconciled := true
  effects := []

/-- The inner check of `settlement`. -/
def settlementCheck (request : TransferSettlementRequest) : Recording Recorded := do
  let (assigned, candidates) ← recording blankRecord (settlementAssignment request)
  (request.plan.legs.zip assigned).zipIdx.foldlM (recordLeg request candidates) blankRecord

/-- A reason that leaves the claims' effects known. -/
def harmlessReason (reason : String) : Bool :=
  reason == "one_sided_import" || reason == "reconciliation_required" ||
    reason == "date_only_import_matched_after_baseline"

/-- The result of a check that succeeds. -/
def settled (s : Recorded) : TransferSettlementResult :=
  let reasons := if s.allReconciled then s.reasons else s.reasons ++ ["reconciliation_required"]
  let confirmed := s.allSources && s.allDestinations && s.allReconciled
  { confirmed := confirmed
    sourceObserved := s.allSources
    destinationObserved := s.allDestinations
    reconciled := s.allReconciled
    evidenceIds := s.evidenceIds
    reasons := reasons
    claimEffects := if reasons.all harmlessReason then
      some (if confirmed then [] else s.effects) else none }

/-- The result of a check that fails. -/
def unsettled (reason : String) (s : Recorded) : TransferSettlementResult where
  confirmed := false
  sourceObserved := false
  destinationObserved := false
  reconciled := false
  evidenceIds := s.evidenceIds
  reasons := s.reasons ++ [reason]
  claimEffects := none

/-- Texts in order. -/
def sortTexts (texts : List String) : List String := sortOn id texts

def settlement (request : TransferSettlementRequest) : TransferSettlementResult :=
  let result := match settlementCheck request with
    | .ok s => settled s
    | .error (reason, s) => unsettled reason s
  { result with
    reasons := (sortTexts result.reasons).eraseReps
    evidenceIds := sortTexts result.evidenceIds }

/-! ## Revalidation -/

/-- The input without the plan's own claim. -/
def withoutOwnClaim (request : TransferPreconditionRequest) : Checked LiquidityInput :=
  match request.ownClaimId with
  | none => pure request.currentInput
  | some id => do
    let input := request.currentInput
    let own ← orStop (input.claimSet.bundles.find? (·.id == id)) "own_claim_missing"
    reject (own.initiated || own.state == .initiated) "initiated_plan_requires_settlement"
    reject (own.effects != request.plan.reservations) "own_claim_plan_mismatch"
    pure { input with claimSet := { input.claimSet with
      bundles := input.claimSet.bundles.filter (·.id != id) } }

/-- A leg still stands: the same move from the same accounts, arriving by the promised time. -/
def sameLeg (a b : TransferLeg) : Bool :=
  a.sourceAccountId == b.sourceAccountId && a.destinationAccountId == b.destinationAccountId &&
    a.amount == b.amount && a.sourceBefore == b.sourceBefore &&
    a.destinationBefore == b.destinationBefore &&
    match instant a.estimatedArrival, instant b.requiredBy with
    | .ok arrival, .ok required => decide (arrival ≤ required)
    | _, _ => false

/-- A plan still stands. -/
def samePlan (a b : TransferPlan) : Bool :=
  a.minimumAmount == b.minimumAmount && a.legs.length == b.legs.length &&
    (a.legs.zip b.legs).all fun legs => sameLeg legs.1 legs.2

/-- The inner check of `preconditions`. -/
def preconditionsCheck (request : TransferPreconditionRequest) : Checked Unit := do
  validatePlan request.plan
  let now ← instant request.currentInput.evaluatedAt
  let expires ← instant request.plan.expiresAt
  reject (decide (expires ≤ now)) "plan_expired"
  let input ← withoutOwnClaim request
  reject (input.scenario != request.plan.scenario ||
    inputPreconditionsHash input != request.plan.preconditionsHash)
    "financial_preconditions_changed"
  let evaluated ← checkedEvaluate input
  reject (!((evaluated.purchases.filterMap (·.transferPlan)).any (samePlan · request.plan)) ||
    !evaluated.backingBefore.feasible || !evaluated.backingAfter.feasible)
    "transfer_no_longer_feasible"

def preconditions (request : TransferPreconditionRequest) : TransferPreconditionResult :=
  match preconditionsCheck request with
  | .ok _ => { valid := true, reasons := [] }
  | .error reason => { valid := false, reasons := [reason] }

end BalanceFrame.Liquidity
