import BalanceFrame.Evidence.Check
import BalanceFrame.Evidence.Text
import BalanceFrame.Library.SortedMap
import BalanceFrame.Library.UnionFind

/-!
# Wallet statements

Model of `resolve_statement_wallet` and of what it calls
(`crates/core-protocol/src/wallet_statement.rs`): the activity of a wallet (`activity`), one
interval for each proof (`intervalOf`), intervals that overlap (`conflicts`, `components`) and the
coverage they give.

Observations and proofs come sorted by id, as `resolve_transaction_evidence` sorts them, so a list
stands for a map by id.
-/

namespace BalanceFrame.Evidence

open Library
open Liquidity (I64 InI64 Money Checked Json bytes isAsciiDigit number slice)

/-! ## Dates and manifests -/

def day (s : String) : Checked Int := orStop (evidenceDateOrdinal s) "statement_date"

/-- The fields of an observation that a manifest binds: `provenance`, `ledgerEffect` and
`reviewedLedgerEffect` are removed. -/
def boundFields (o : Observed) : Json := (Json.object (o.entries [] [])).without "provenance"

def manifest (observations : List Observed) : List WalletStatementActivity :=
  observations.map fun o =>
    { observationId := o.id
      documentId := o.provenance.documentId
      contentHash := o.provenance.contentHash
      parserVersion := o.provenance.parserVersion
      normalizedFieldsHash := digestValue (boundFields o) }

/-- `digest(&manifest)`. -/
def manifestHash (activity : List WalletStatementActivity) : String :=
  digestValue (.array (activity.map (·.json)))

def signed (o : Observed) : I64 :=
  if o.direction == "inflow" then o.amount.minorUnits else I64.neg o.amount.minorUnits

def inRange (o : Observed) (start finish : String) : Bool :=
  decide (start ≤ o.date) && decide (o.date ≤ finish)

/-! ## Activity -/

/-- The completed activity of a wallet. -/
def walletActivity (obs : List Observed) (walletId : String) : List Observed :=
  obs.filter fun o =>
    o.walletId == some walletId && isWalletKind o.kind && o.kind != "wallet_request" &&
      o.status == "completed"

/-- Links between repeated observations. -/
structure Repeats where
  edges : List (String × String)
  supersession : SortedMap String String

/-- A confirmed duplicate or supersession between two observations of the activity. -/
def addRepeat (activity : List Observed) (t : Repeats) (link : EvidenceRelationship) :
    Checked Repeats :=
  if link.state != "confirmed" || !(["same_event", "supersession"].contains link.kind) then pure t
  else
    match activity.find? (·.id == link.fromId), activity.find? (·.id == link.toId) with
    | some a, some b => do
      require (a.amount == b.amount && a.direction == b.direction && a.date == b.date)
        "statement_duplicate_mismatch"
      let edges := t.edges ++ [(link.fromId, link.toId)]
      if link.kind == "supersession" then do
        require (t.supersession.get? link.fromId).isNone "statement_supersession_fork"
        pure ⟨edges, t.supersession.insert link.fromId link.toId⟩
      else pure { t with edges := edges }
    | _, _ => pure t

/-- Follow supersessions; a repeated id is a cycle. One more step than there are supersessions
either ends or repeats. -/
def followSupersession (supersession : SortedMap String String) :
    Nat → List String → String → Checked Unit
  | 0, _, _ => .error "statement_supersession_cycle"
  | fuel + 1, seen, id =>
    match supersession.get? id with
    | none => pure ()
    | some next => do
      require (!seen.contains id) "statement_supersession_cycle"
      followSupersession supersession fuel (id :: seen) next

/-- The other ends of an id's links. -/
def neighbours (edges : List (String × String)) (id : String) : List String :=
  edges.flatMap fun e => (if e.1 = id then [e.2] else []) ++ if e.2 = id then [e.1] else []

/-- The ids linked to those reached, in as many rounds as there are links. -/
def linkedIds (edges : List (String × String)) : Nat → List String → List String
  | 0, reached => reached
  | fuel + 1, reached =>
    linkedIds edges fuel (sortedSet (reached ++ reached.flatMap (neighbours edges)))

/-- The id that stays of those linked to `id`: the first that nothing supersedes. -/
def keptOf (t : Repeats) (id : String) : Checked String :=
  orStop ((linkedIds t.edges t.edges.length [id]).find? fun other =>
    (t.supersession.get? other).isNone) "statement_supersession_cycle"

/-- The ids removed: the linked ones that do not stay. -/
def removals (t : Repeats) : Checked (List String) :=
  (sortedSet (t.edges.flatMap fun e => [e.1, e.2])).filterMapM fun id => do
    pure (if (← keptOf t id) == id then none else some id)

/-- A payment from another instrument that a ledger row already settles. -/
def passesThrough (obs : List Observed) (events : List (String × List String)) (walletId : String)
    (o : Observed) : Bool :=
  o.kind == "wallet_payment" &&
    (match o.fundingInstrumentId with
    | none => false
    | some id => id != walletId) &&
    events.any fun e => e.1 == "resolved" && e.2.length == 2 && e.2.contains o.id &&
      e.2.any fun id => obs.any fun source => source.id == id && source.kind == "ledger_transaction"

/-- One member of the activity: the wallet's currency, and no external event twice. -/
def checkIdentity (currency : String) (identities : List (String × String)) (o : Observed) :
    Checked (List (String × String)) := do
  require (o.amount.currency == currency) "wallet_currency"
  match o.externalEventId with
  | none => pure identities
  | some external => do
    require (!identities.contains (o.sourceId, external)) "duplicate_wallet_activity"
    pure ((o.sourceId, external) :: identities)

/-- `activity`; `events` are states and observation ids. -/
def activity (obs : List Observed) (relationships : List EvidenceRelationship)
    (events : List (String × List String)) (wallet : WalletEvidence) : Checked (List Observed) := do
  let all := walletActivity obs wallet.walletId
  let t ← relationships.foldlM (addRepeat all) ⟨[], SortedMap.empty⟩
  t.supersession.keys.forM
    (followSupersession t.supersession (t.supersession.entries.length + 1) [])
  let removed ← removals t
  let kept := all.filter fun o =>
    !removed.contains o.id && !passesThrough obs events wallet.walletId o
  let _ ← kept.foldlM (checkIdentity wallet.currency) []
  pure kept

/-! ## Proofs -/

/-- The fraction and the `Z` that end a review time. -/
def isReviewSuffix : List Nat → Bool
  | [90] => true
  | 46 :: rest => rest.getLast? == some 90 && !rest.dropLast.isEmpty && rest.dropLast.length ≤ 9 &&
      rest.dropLast.all isAsciiDigit
  | _ => false

def reviewTime (value : String) : Bool :=
  let b := bytes value
  isReviewSuffix (b.drop 19) && slice b 10 1 == [84] &&
    (number (slice b 17 2)).any (decide <| · ≤ 59) && evidenceTimestampValid value

def validateProof (p : WalletStatementProof) (w : WalletEvidence) : Checked Unit := do
  require (isId p.proofId && isId p.actorId && isId p.membershipId && isId p.policyVersion &&
    isId p.statement.documentId && isId p.statement.parserVersion &&
    isHash p.statement.contentHash) "statement_identity"
  require (p.authorityKind == "human_attested_statement" &&
    p.calendarBasis == "statement_printed_date") "statement_authority"
  require (p.currency == w.currency) "statement_period"
  let start ← day p.startDate
  let finish ← day p.endDate
  require (decide (start ≤ finish)) "statement_period"
  require (reviewTime p.reviewedAt) "statement_review_time"
  require (p.openingBalance.isSome || p.closingBalance.isSome) "statement_boundary_required"
  require ((p.openingBalance.toList ++ p.closingBalance.toList).all fun x =>
    x.currency == w.currency && decide (0 ≤ (x.minorUnits : Int))) "statement_balance"
  require (decide (p.activityManifest.length ≤ 10000)) "statement_manifest_size"
  require (p.activityManifest.all fun x =>
    isId x.observationId && isId x.documentId && isId x.parserVersion && isHash x.contentHash &&
      isHash x.normalizedFieldsHash) "statement_manifest_identity"

/-- `Interval`; whether it is valid is whether it has no reasons. -/
structure Interval where
  proof : WalletStatementProof
  opening : I64
  closing : I64
  reasons : List String
  orderUnknown : List String
  boundaryChanges : SortedMap Int I64

def Interval.valid (i : Interval) : Bool := i.reasons.isEmpty

/-- The flows of a day, and its outflows' ids. -/
structure DayFlows where
  inflow : I64
  outflow : I64
  outflowIds : List String

/-- The net so far, and the flows by day. -/
structure ProofFlows where
  net : I64
  daily : SortedMap String DayFlows

def addFlow (t : ProofFlows) (o : Observed) : Checked ProofFlows := do
  let net ← addAmount t.net (signed o)
  let flows := (t.daily.get? o.date).getD ⟨0, 0, []⟩
  if o.direction == "inflow" then do
    let inflow ← addAmount flows.inflow o.amount.minorUnits
    pure ⟨net, t.daily.insert o.date { flows with inflow := inflow }⟩
  else do
    let outflow ← addAmount flows.outflow o.amount.minorUnits
    pure ⟨net, t.daily.insert o.date ⟨flows.inflow, outflow, flows.outflowIds ++ [o.id]⟩⟩

/-- The balance so far. -/
structure Running where
  balance : I64
  reasons : List String
  unknown : List String
  changes : SortedMap Int I64

def runDay (t : Running) (e : String × DayFlows) : Checked Running := do
  let next ← subAmount (← addAmount t.balance e.2.inflow) e.2.outflow
  let ordinal ← day e.1
  pure
    { balance := next
      reasons :=
        if (next : Int) < 0 ∧ "statement_balance_discontinuity" ∉ t.reasons then
          t.reasons ++ ["statement_balance_discontinuity"]
        else t.reasons
      unknown :=
        if 0 ≤ (next : Int) ∧ (t.balance : Int) < e.2.outflow then t.unknown ++ e.2.outflowIds
        else t.unknown
      changes := t.changes.insert ordinal next }

/-- The opening balance, as stated or counted back from the closing one. -/
def openingOf (p : WalletStatementProof) (net : I64) : Checked I64 :=
  match p.openingBalance with
  | some x => pure x.minorUnits
  | none => do
    let closing ← orStop p.closingBalance "statement_boundary_required"
    subAmount closing.minorUnits net

/-- What a proof attests over the activity in its range. -/
def intervalOf (policyVersion : String) (wallet : WalletEvidence) (activity : List Observed)
    (proof : WalletStatementProof) : Checked Interval := do
  validateProof proof wallet
  let selected := activity.filter fun o => inRange o proof.startDate proof.endDate
  let key := fun (x : WalletStatementActivity) => x.observationId
  let changed := sortOn key (manifest selected) != sortOn key proof.activityManifest
  let flows ← selected.foldlM addFlow ⟨0, SortedMap.empty⟩
  let opening ← openingOf proof flows.net
  let closing ← addAmount opening flows.net
  let broken := decide ((opening : Int) < 0) || decide ((closing : Int) < 0) ||
    proof.closingBalance.any fun x => x.minorUnits != closing
  let reasons := (if changed then ["statement_manifest_changed"] else []) ++
    (if proof.policyVersion != policyVersion then ["statement_policy_changed"] else []) ++
    if broken then ["statement_balance_discontinuity"] else []
  let t ← flows.daily.entries.foldlM runDay ⟨opening, reasons, [], SortedMap.empty⟩
  pure
    { proof := proof
      opening := opening
      closing := closing
      reasons := t.reasons
      orderUnknown := sortedSet t.unknown
      boundaryChanges := t.changes }

/-! ## Overlaps -/

def balanceAt (i : Interval) (boundary : Int) : I64 :=
  ((i.boundaryChanges.entries.filter fun e => decide (e.1 < boundary)).getLast?.map (·.2)).getD
    i.opening

/-- The first day of both intervals, and the day after the last. -/
def overlapOf (x y : Interval) : Int × Int :=
  (max (ordinal x.proof.startDate) (ordinal y.proof.startDate),
    min (ordinal x.proof.endDate + 1) (ordinal y.proof.endDate + 1))

/-- Two valid intervals that meet disagree on the balance. -/
def conflicting (x y : Interval) : Bool :=
  x.valid && y.valid && decide ((overlapOf x y).1 ≤ (overlapOf x y).2) &&
    balanceAt x (overlapOf x y).1 != balanceAt y (overlapOf x y).1

/-- Every interval gets one reason for each interval it conflicts with. -/
def conflicts (intervals : List Interval) : List Interval :=
  intervals.zipIdx.map fun p =>
    { p.1 with
      reasons := p.1.reasons ++
        ((intervals.zipIdx.filter fun q => q.2 != p.2 && conflicting p.1 q.1).map fun _ =>
          "statement_overlap_conflict") }

/-- Two valid intervals meet. -/
def meeting (x y : Interval) : Bool :=
  x.valid && y.valid && decide ((overlapOf x y).1 ≤ (overlapOf x y).2)

/-- The classes of meeting intervals. -/
def intervalClasses (intervals : List Interval) : List Nat :=
  (intervals.zipIdx.flatMap fun p => (intervals.zipIdx.filter fun q => decide (p.2 < q.2)).map
    fun q => (p, q)).foldl (fun parent pair =>
      if meeting pair.1.1 pair.2.1 then union parent pair.1.2 pair.2.2 else parent)
    (List.range intervals.length)

structure Component where
  proofIds : List String
  evidenceIds : List String
  proofSetHash : String
  activityManifestHash : String
  observedAt : String

def componentOf (activity : List Observed) (proofs : List WalletStatementProof) : Component :=
  let start := ((proofs.map (·.startDate)).min?).getD ""
  let finish := ((proofs.map (·.endDate)).max?).getD ""
  let selected := activity.filter fun o => inRange o start finish
  let activityManifestHash := manifestHash (manifest selected)
  { proofIds := proofs.map (·.proofId)
    evidenceIds := sortedSet (selected.map (·.provenance.documentId) ++
      proofs.map (·.statement.documentId))
    proofSetHash := digestValue (.array [.string "wallet-statement-v1",
      .array (proofs.map (·.json)), .string activityManifestHash])
    activityManifestHash := activityManifestHash
    observedAt := ((proofs.map (·.reviewedAt)).max?).getD "" }

/-- The component of each valid interval's class. -/
def components (activity : List Observed) (intervals : List Interval) (parent : List Nat)
    (i : Nat) : Component :=
  componentOf activity ((intervals.zipIdx.filter fun q =>
    q.1.valid && root parent q.2 == root parent i).map (·.1.proof))

/-! ## Coverage -/

def anchorReference (id : String) : EvidenceReference where
  evidenceId := id
  kind := "human_attested_statement"
  authorized := true
  redaction := .visible

/-- The two anchors of a valid interval. -/
def anchorsOf (wallet : WalletEvidence) (c : Component) (i : Interval) :
    List WalletStatementBalanceAnchor :=
  let anchor (amount : I64) (date boundary : String) : WalletStatementBalanceAnchor :=
    { walletId := wallet.walletId
      amount := ⟨amount, wallet.currency⟩
      asOfDate := date
      boundary := boundary
      proofIds := c.proofIds
      proofSetHash := c.proofSetHash
      activityManifestHash := c.activityManifestHash
      evidenceIds := c.evidenceIds }
  [anchor i.opening i.proof.startDate "before_day_activity",
    anchor i.closing i.proof.endDate "after_day_activity"]

def anchorObservation (wallet : WalletEvidence) (c : Component)
    (anchor : WalletStatementBalanceAnchor) : SourceObservation where
  walletBalanceAnchor := some anchor
  allocationReview := none
  kind := .walletStatementAnchor
  scope := .claim wallet.walletId
  state := .resolved
  observedAt := some c.observedAt
  contentHash := some c.proofSetHash
  version := some "wallet-statement-v1"
  ledgerEffect := none
  evidence := c.evidenceIds.map anchorReference

/-- The reasons shown for an interval. -/
def shownReasons (i : Interval) : List String :=
  i.reasons ++ if i.orderUnknown.isEmpty then [] else ["wallet_statement_order_unknown"]

def coverageInterval (wallet : WalletEvidence) (evidence : List String) (i : Interval) :
    WalletStatementCoverageInterval where
  startDate := i.proof.startDate
  endDate := i.proof.endDate
  proofIds := [i.proof.proofId]
  evidenceIds := evidence
  openingBalance := if i.valid then some ⟨i.opening, wallet.currency⟩ else none
  closingBalance := if i.valid then some ⟨i.closing, wallet.currency⟩ else none
  state := if i.valid then "covered" else "invalid"
  reasonCodes := shownReasons i

/-- The evidence shown for an interval. -/
def intervalEvidence (activity : List Observed) (c : Component) (i : Interval) : List String :=
  if i.valid then c.evidenceIds
  else sortedSet (((activity.filter fun o => inRange o i.proof.startDate i.proof.endDate).map
    (·.provenance.documentId)) ++ [i.proof.statement.documentId])

/-- The valid intervals, by start, leave no day out; carries the last day reached. -/
def continues (t : Bool × String) (i : Interval) : Bool × String :=
  (t.1 && decide (ordinal i.proof.startDate ≤ ordinal t.2 + 1), max t.2 i.proof.endDate)

/-- The last of the intervals with the greatest end. -/
def latest : List Interval → Option Interval
  | [] => none
  | i :: rest => some (rest.foldl (fun best j =>
      if best.proof.endDate ≤ j.proof.endDate then j else best) i)

/-- `resolve_statement_wallet`, with the blockers it adds. -/
def resolveStatementWallet (policyVersion : String) (proofs : List WalletStatementProof)
    (obs : List Observed) (relationships : List EvidenceRelationship)
    (events : List (String × List String)) (wallet : WalletEvidence) :
    Checked (WalletEvidenceResolution × List EvidenceBlocker) := do
  let activity ← activity obs relationships events wallet
  let own := proofs.filter (·.walletId == wallet.walletId)
  let intervals ← own.mapM (intervalOf policyVersion wallet activity)
  require (own.map (·.proofId)).Nodup "statement_duplicate_proof"
  let intervals := conflicts intervals
  let parent := intervalClasses intervals
  let parts := intervals.zipIdx.map fun p => (p.1, components activity intervals parent p.2)
  let valid := intervals.filter (·.valid)
  let coveredIds := (valid.flatMap fun i =>
    activity.filter fun o => inRange o i.proof.startDate i.proof.endDate).map (·.id)
  let uncovered := (activity.filter fun o => !coveredIds.contains o.id).map (·.id)
  let blocked := sortedSet (valid.flatMap (·.orderUnknown) ++ uncovered)
  let anchors := (parts.filter (·.1.valid)).flatMap fun p => anchorsOf wallet p.2 p.1
  let ordered := sortOn (fun i => i.proof.startDate) valid
  let continuous := !valid.isEmpty &&
    (ordered.foldl continues (true, ((ordered.head?.map (·.proof.endDate)).getD ""))).1
  let known := continuous && uncovered.isEmpty && blocked.isEmpty && intervals.all (·.valid)
  let stored := wallet.requiresStoredValue ||
    anchors.any (fun a => decide (0 < (a.amount.minorUnits : Int))) ||
    activity.any (·.direction == "inflow")
  pure (
    { coverage := some
        { intervals := parts.map fun p =>
            coverageInterval wallet (intervalEvidence activity p.2 p.1) p.1
          uncoveredObservationIds := uncovered
          blockedObservationIds := blocked }
      balanceAnchors := some anchors
      anchorObservations := some ((parts.filter (·.1.valid)).flatMap fun p =>
        (anchorsOf wallet p.2 p.1).map (anchorObservation wallet p.2))
      walletId := wallet.walletId
      openingBalance :=
        if known then ordered.head?.map fun i => ⟨i.opening, wallet.currency⟩ else none
      closingBalance :=
        if known then (latest ordered).map fun i => ⟨i.closing, wallet.currency⟩ else none
      balanceState := if known then "known" else "balance_unknown"
      projection :=
        if wallet.materializedAccountId.isSome then "materialized"
        else if stored then "materialize" else "unresolved"
      reasonCodes := sortedSet ("human_attested_statement" :: intervals.flatMap shownReasons ++
        if continuous then [] else ["wallet_statement_coverage_gap"]) },
    blocked.filterMap fun subject => (activity.find? (·.id == subject)).map fun o =>
      ⟨if coveredIds.contains subject then "wallet_statement_order_unknown"
        else "wallet_statement_balance_unknown", subject, [o.provenance.documentId]⟩)

end BalanceFrame.Evidence
