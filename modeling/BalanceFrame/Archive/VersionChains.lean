import BalanceFrame.Archive.Latest
import BalanceFrame.Archive.ReceiptVersions

/-!
# Receipt versions in chains

The validator reads only the reviews of one membership and policy. That suffices: a review of a child
takes the place of every review of it before, whatever the membership and the policy.
-/

namespace BalanceFrame.Archive

open Library List Bool

/-! ## Runs -/

/-- A call of the workflow, with the archive as it is then. -/
inductive ReviewCall
  | link (reader : Reader) (access : EvidenceAccess) (link : ReceiptVersionLink)
      (expectedFoldHash : String)
  | revoke (access : EvidenceAccess) (input : RevokeInput)

variable {host : Host} {schemas : Schemas}

/-- The journal after a call; a call that throws is rolled back. -/
def performReview (host : Host) (schemas : Schemas) (journal : List ReviewRow) :
    ReviewCall → List ReviewRow
  | .link reader access link expected =>
    valueOr journal (linkReceipt host schemas reader journal access link expected)
  | .revoke access input => valueOr journal (revokeReceipt host journal access input)

def runReviews (host : Host) (schemas : Schemas) (journal : List ReviewRow)
    (calls : List ReviewCall) : List ReviewRow := calls.foldl (performReview host schemas) journal

/-! ## What the calls do -/

variable {access : EvidenceAccess} {journal journal' : List ReviewRow} {reader : Reader}
  {actorId : String} {event : ReviewEvent} {review : Review} {s : ReviewState}

theorem foldedEvents_ok
    {events : List ReviewEvent} (h : foldedEvents host journal access = .ok events) :
    events.Perm (latestOf journal access.scope access.actorId) := by
  unfold foldedEvents at h
  rw [bind_ok] at h
  obtain ⟨rows, hrows, h⟩ := h
  unfold reviewEvents at hrows
  simp only [bind_ok] at hrows
  obtain ⟨_, -, _, -, _, -, _, -, _, -, _, -, hrows⟩ := hrows
  cases hrows
  cases h
  apply perm_sortOn

/-- **A link**: the review that it appends keeps the graph of its membership and policy valid. -/
theorem linkReceipt_ok {link : ReceiptVersionLink} {expected : String}
    (h : linkReceipt host schemas reader journal access link expected = .ok journal') :
    journal' = journal ++
        [{ scope := access.scope, actorId := access.actorId, event := .link link }] ∧
      link.actorId = access.actorId ∧
      ∃ events, events.Perm (latestOf journal access.scope access.actorId) ∧
        validateReceiptVersionGraph (otherLinks access link events ++ [link]) = some (.ok ()) := by
  unfold linkReceipt at h
  simp only [bind_ok] at h
  obtain ⟨_, -, _, -, _, -, _, hfresh, _, -, events, hevents, valid, hvalid, _, hok, h⟩ := h
  cases h
  unfold freshReview at hfresh
  simp only [bind_ok] at hfresh
  obtain ⟨now, -, reviewed, -, hfresh⟩ := hfresh
  rw [reject_ok, or_eq_false_iff, or_eq_false_iff] at hfresh
  refine ⟨rfl, by simpa using hfresh.1.1, events, foldedEvents_ok hevents, ?_⟩
  rw [orStop_ok] at hvalid
  rw [hvalid, hok]

theorem revokeReceipt_ok
    {input : RevokeInput} (h : revokeReceipt host journal access input = .ok journal') :
    ∃ revocation, ReviewEvent.key (.revoke revocation) = input.key ∧
      journal' = journal ++
        [{ scope := access.scope, actorId := access.actorId, event := .revoke revocation }] := by
  unfold revokeReceipt at h
  simp only [bind_ok] at h
  obtain ⟨_, -, _, -, _, -, _, -, _, -, _, -, events, -, _, -, h⟩ := h
  cases h
  exact ⟨_, rfl, rfl⟩

theorem extends_performReview (journal : List ReviewRow) (call : ReviewCall) :
    journal <+: performReview host schemas journal call := by
  cases call with
  | link reader access link expected =>
    unfold performReview
    dsimp only
    cases h : linkReceipt host schemas reader journal access link expected with
    | error e => exact prefix_rfl
    | ok journal' =>
      rw [(linkReceipt_ok h).1]
      exact prefix_append _ _
  | revoke access input =>
    unfold performReview
    dsimp only
    cases h : revokeReceipt host journal access input with
    | error e => exact prefix_rfl
    | ok journal' =>
      obtain ⟨_, -, rfl⟩ := revokeReceipt_ok h
      exact prefix_append _ _

theorem extends_runReviews (journal : List ReviewRow) (calls : List ReviewCall) :
    journal <+: runReviews host schemas journal calls := by
  induction calls generalizing journal with
  | nil => exact prefix_rfl
  | cons call calls ih => exact (extends_performReview journal call).trans (ih _)

/-! ## The last review of a child -/

theorem latestOf_append (journal : List ReviewRow) (row : ReviewRow) (scope : EvidenceScope)
    (actorId : String) :
    latestOf (journal ++ [row]) scope actorId =
      if row.scope = scope ∧ row.actorId = actorId then
        row.event :: (latestOf journal scope actorId).filter fun e => decide (e.key ≠ row.event.key)
      else latestOf journal scope actorId := by
  have hof : (row.scope == scope && row.actorId == actorId) = true ↔
      row.scope = scope ∧ row.actorId = actorId := by
    rw [and_eq_true, beq_iff_eq, beq_iff_eq]
  unfold latestOf reviewsOf
  rw [filter_append, filter_cons, filter_nil]
  split
  · rename_i h
    rw [if_pos (hof.mp h), map_append, reverse_append]
    exact firsts_cons ReviewEvent.key row.event _
  · rename_i h
    rw [if_neg fun h' => h (hof.mpr h'), append_nil]

/-- The row at a place is a review, and no row of its child follows it. -/
def LastAt (journal : List ReviewRow) (scope : EvidenceScope) (actorId : String)
    (event : ReviewEvent) (i : Nat) : Prop :=
  journal[i]? = some { scope, actorId, event } ∧
    ∀ (j : Nat) (row : ReviewRow), i < j → journal[j]? = some row → row.scope = scope →
      row.actorId = actorId → row.event.key ≠ event.key

theorem LastAt.append {scope : EvidenceScope}
    {i : Nat} (h : LastAt journal scope actorId event i) {last : ReviewRow}
    (hlast : last.scope = scope → last.actorId = actorId → last.event.key ≠ event.key) :
    LastAt (journal ++ [last]) scope actorId event i := by
  obtain ⟨hi, hafter⟩ := h
  obtain ⟨hlen, -⟩ := List.getElem?_eq_some_iff.mp hi
  refine ⟨by rwa [getElem?_append_left hlen], fun j row hij hj => ?_⟩
  by_cases hjlen : j < journal.length
  · rw [getElem?_append_left hjlen] at hj
    exact hafter j row hij hj
  · have hlt := (List.getElem?_eq_some_iff.mp hj).1
    rw [length_append, length_singleton] at hlt
    obtain rfl : j = journal.length := by omega
    rw [getElem?_concat_length] at hj
    cases hj
    exact hlast

theorem lastAt_of_mem_latestOf {scope : EvidenceScope}
    (h : event ∈ latestOf journal scope actorId) :
    ∃ i, LastAt journal scope actorId event i := by
  induction journal using List.reverseRecOn with
  | nil => cases h
  | append_singleton journal last ih =>
    rw [latestOf_append] at h
    split at h
    · rename_i hof
      rcases mem_cons.mp h with rfl | hmem
      · refine ⟨journal.length, ?_, fun j row hij hj => ?_⟩
        · rw [getElem?_concat_length, ← hof.1, ← hof.2]
        · have hlt := (List.getElem?_eq_some_iff.mp hj).1
          rw [length_append, length_singleton] at hlt
          omega
      · obtain ⟨hmem, hkey⟩ := mem_filter.mp hmem
        obtain ⟨i, hi⟩ := ih hmem
        exact ⟨i, hi.append fun _ _ heq => of_decide_eq_true hkey heq.symm⟩
    · rename_i hof
      obtain ⟨i, hi⟩ := ih h
      exact ⟨i, hi.append fun hscope hactor => absurd ⟨hscope, hactor⟩ hof⟩

/-! ## The invariant -/

/-- The links that the reviews in force of an actor, a membership and a policy approve. -/
def approvedLinks (journal : List ReviewRow) (scope : EvidenceScope) (actorId : String)
    (review : Review) : List ReceiptVersionLink :=
  (latestOf journal scope actorId).filterMap (ReviewEvent.approved actorId review)

/-- The reviews in force of an actor, a membership and a policy make chains. -/
def KeepsChains (journal : List ReviewRow) : Prop :=
  ∀ scope actorId review,
    Chained ((approvedLinks journal scope actorId review).map ReceiptVersionLink.edge)

theorem approved_eq_some
    {link : ReceiptVersionLink} (h : event.approved actorId review = some link) :
    event = .link link := by
  cases event with
  | link l =>
    dsimp only [ReviewEvent.approved] at h
    split at h
    · exact congrArg ReviewEvent.link (Option.some.inj h)
    · cases h
  | revoke r => cases h

theorem filterMap_approved_filter (actorId : String) (review : Review) (key : VersionKey)
    (events : List ReviewEvent) :
    (events.filter fun e => decide (e.key ≠ key)).filterMap (·.approved actorId review) =
      (events.filterMap (·.approved actorId review)).filter fun l => l.child.key != key := by
  rw [filterMap_filter, filter_filterMap]
  refine filterMap_congr fun e _ => ?_
  cases h : e.approved actorId review with
  | none => simp
  | some l =>
    obtain rfl := approved_eq_some h
    by_cases hkey : l.child.key = key
    · simp [Option.filter, ReviewEvent.key, hkey]
    · simp [Option.filter, ReviewEvent.key, hkey]

theorem KeepsChains.append_other (h : KeepsChains journal)
    (row : ReviewRow) (scope : EvidenceScope) (actorId : String) (review : Review)
    (hother : row.event.approved actorId review = none) :
    Chained ((approvedLinks (journal ++ [row]) scope actorId review).map
      ReceiptVersionLink.edge) := by
  refine (h scope actorId review).sublist (List.Sublist.map _ ?_)
  unfold approvedLinks
  rw [latestOf_append]
  split
  · rw [filterMap_cons_none hother]
    exact List.Sublist.filterMap _ filter_sublist
  · exact List.Sublist.refl _

theorem KeepsChains.link {link : ReceiptVersionLink} {expected : String}
    (h : KeepsChains journal)
    (hlink : linkReceipt host schemas reader journal access link expected = .ok journal') :
    KeepsChains journal' := by
  obtain ⟨rfl, hactor, events, hperm, hvalid⟩ := linkReceipt_ok hlink
  intro scope actorId review
  cases happroved : ReviewEvent.approved actorId review (.link link) with
  | none => exact h.append_other _ scope actorId review happroved
  | some l =>
    obtain rfl : link = l := by
      have heq := approved_eq_some happroved
      cases heq
      rfl
    obtain ⟨rfl, hmembership, hpolicy⟩ : link.actorId = actorId ∧
        link.membershipId = review.membershipId ∧ link.policyVersion = review.policyVersion := by
      dsimp only [ReviewEvent.approved] at happroved
      split at happroved
      · assumption
      · cases happroved
    obtain rfl : review = ⟨link.membershipId, link.policyVersion⟩ := by
      cases review
      cases hmembership
      cases hpolicy
      rfl
    by_cases hscope : access.scope = scope
    · -- the links after it are those the validator has read
      subst hscope
      unfold approvedLinks
      rw [latestOf_append, if_pos ⟨rfl, hactor.symm⟩, filterMap_cons_some happroved]
      have hchained := ((validateReceiptVersionGraph_ok _).mp hvalid).2.chained
      refine hchained.perm (List.Perm.map _ ?_)
      refine perm_append_singleton _ _ |>.trans (List.Perm.cons _ ?_)
      change (otherLinks access link events).Perm
        (((latestOf journal access.scope link.actorId).filter
          fun e => decide (e.key ≠ link.child.key)).filterMap
            (ReviewEvent.approved link.actorId ⟨link.membershipId, link.policyVersion⟩))
      rw [filterMap_approved_filter]
      unfold otherLinks
      rw [hactor]
      exact (hperm.filterMap _).filter _
    · have hsame : approvedLinks (journal ++
          [{ scope := access.scope, actorId := access.actorId, event := .link link }]) scope
            link.actorId ⟨link.membershipId, link.policyVersion⟩ =
          approvedLinks journal scope link.actorId ⟨link.membershipId, link.policyVersion⟩ := by
        unfold approvedLinks
        rw [latestOf_append, if_neg fun hof => hscope hof.1]
      rw [hsame]
      exact h scope link.actorId _

theorem KeepsChains.perform (h : KeepsChains journal)
    (call : ReviewCall) : KeepsChains (performReview host schemas journal call) := by
  cases call with
  | link reader access link expected =>
    unfold performReview
    dsimp only
    cases hlink : linkReceipt host schemas reader journal access link expected with
    | error e => exact h
    | ok journal' => exact h.link hlink
  | revoke access input =>
    unfold performReview
    dsimp only
    cases hrevoke : revokeReceipt host journal access input with
    | error e => exact h
    | ok journal' =>
      obtain ⟨revocation, -, rfl⟩ := revokeReceipt_ok hrevoke
      intro scope actorId review
      exact h.append_other ⟨access.scope, access.actorId, .revoke revocation⟩ scope actorId review rfl

theorem KeepsChains.run (h : KeepsChains journal)
    (calls : List ReviewCall) : KeepsChains (runReviews host schemas journal calls) := by
  induction calls generalizing journal with
  | nil => exact h
  | cons call calls ih => exact ih (h.perform call)

theorem keepsChains_nil : KeepsChains [] :=
  fun _ _ _ => ⟨nodup_nil, nodup_nil, fun _ => .stop rfl⟩

/-! ## The links in force -/

theorem reviewState_links (h : reviewState host schemas reader journal access review = .ok s) :
    ∃ events : List ReviewEvent, events.Perm (latestOf journal access.scope access.actorId) ∧
      s.links.Sublist (events.filterMap (ReviewEvent.approved access.actorId review)) := by
  unfold reviewState at h
  simp only [bind_ok] at h
  obtain ⟨_, -, events, hevents, visited, hvisited, h⟩ := h
  cases h
  refine ⟨events, foldedEvents_ok hevents, ?_⟩
  dsimp only
  unfold visitEvents at hvisited
  split at hvisited
  · refine foldlM_runAt (P := fun done v =>
      v.1.Sublist (done.filterMap (ReviewEvent.approved access.actorId review)))
      (fun done event rest v v' _ hv hstep => ?_) (List.Sublist.refl _) hvisited
    rw [filterMap_append]
    have hskip := hv.trans (sublist_append_left _
      ([event].filterMap (ReviewEvent.approved access.actorId review)))
    unfold visitEvent at hstep
    cases happroved : event.approved access.actorId review with
    | none =>
      rw [happroved] at hstep
      cases hstep
      exact hskip
    | some link =>
      rw [happroved] at hstep
      dsimp only at hstep
      rw [bind_ok] at hstep
      obtain ⟨child, -, hstep⟩ := hstep
      cases child with
      | none =>
        cases hstep
        exact hskip
      | some child =>
        dsimp only at hstep
        split at hstep
        · cases hstep
          exact hskip
        · split at hstep
          · cases hstep
            exact hskip
          · rw [bind_ok] at hstep
            obtain ⟨parent, -, hstep⟩ := hstep
            split at hstep
            · cases hstep
              rw [filterMap_cons_some happroved]
              exact hv.append (List.Sublist.refl _)
            · cases hstep
              exact hskip
  · cases hvisited
    exact nil_sublist _

theorem KeepsChains.state (h : KeepsChains journal)
    (hs : reviewState host schemas reader journal access review = .ok s) :
    Chained (s.links.map ReceiptVersionLink.edge) := by
  obtain ⟨events, hperm, hsub⟩ := reviewState_links hs
  have hall := (h access.scope access.actorId review).perm
    ((hperm.filterMap (ReviewEvent.approved access.actorId review)).map ReceiptVersionLink.edge).symm
  exact hall.sublist (hsub.map _)

theorem lastAt_of_mem_links (hs : reviewState host schemas reader journal access review = .ok s)
    {link : ReceiptVersionLink} (hlink : link ∈ s.links) :
    ∃ i, LastAt journal access.scope access.actorId (.link link) i := by
  obtain ⟨events, hperm, hsub⟩ := reviewState_links hs
  obtain ⟨event, hmem, happroved⟩ := mem_filterMap.mp (hsub.subset hlink)
  obtain rfl := approved_eq_some happroved
  exact lastAt_of_mem_latestOf (hperm.mem_iff.mp hmem)

/-! ## Every run -/

/-- What holds of the journal after some calls. -/
structure VersionsKept (host : Host) (schemas : Schemas) (journal : List ReviewRow) : Prop where
  /-- The links in force of an actor, a membership and a policy: no receipt has two predecessors or
  two successors, and none comes back to itself. -/
  chained : ∀ reader access review s,
    reviewState host schemas reader journal access review = .ok s →
      Chained (s.links.map ReceiptVersionLink.edge)
  /-- After a child is revoked, a link of it is in force only by a review that was made later. -/
  revoked : ∀ access input journal',
    revokeReceipt host journal access input = .ok journal' → ∀ later reader reading review s,
      reading.scope = access.scope → reading.actorId = access.actorId →
      reviewState host schemas reader (runReviews host schemas journal' later) reading review =
        .ok s →
      ∀ link ∈ s.links, link.child.key = input.key → ∃ i, journal'.length ≤ i ∧
        (runReviews host schemas journal' later)[i]? =
          some { scope := access.scope, actorId := access.actorId, event := .link link }

theorem KeepsChains.kept (h : KeepsChains journal) : VersionsKept host schemas journal where
  chained _ _ _ _ hs := h.state hs
  revoked access input journal' hrevoke later reader reading review s hscope hactor hs link hlink
      hkey := by
    obtain ⟨i, hi, hafter⟩ := lastAt_of_mem_links hs hlink
    rw [hscope, hactor] at hi hafter
    refine ⟨i, ?_, hi⟩
    obtain ⟨revocation, hrevoked, rfl⟩ := revokeReceipt_ok hrevoke
    -- the row of the revocation stands where it was appended
    have hrow : (runReviews host schemas (journal ++ [(⟨access.scope, access.actorId,
        .revoke revocation⟩ : ReviewRow)]) later)[journal.length]? =
          some ⟨access.scope, access.actorId, .revoke revocation⟩ := by
      have hprefix : journal ++ [(⟨access.scope, access.actorId, .revoke revocation⟩ : ReviewRow)] <+:
          runReviews host schemas (journal ++ [⟨access.scope, access.actorId, .revoke revocation⟩])
            later := extends_runReviews _ later
      obtain ⟨rest, hrest⟩ := hprefix
      rw [← hrest, getElem?_append_left (by simp), getElem?_concat_length]
    rw [length_append, length_singleton]
    rcases Nat.lt_trichotomy i journal.length with hlt | rfl | hgt
    · exact absurd (hrevoked.trans hkey.symm) (hafter _ _ hlt hrow rfl rfl)
    · rw [hrow] at hi
      cases hi
    · exact hgt

/-- **Receipt versions are disjoint chains**, after every run of links and revocations, and a revoked
review is not in force again; the validator ends, and accepts what it should up to 1000 links. -/
theorem receipt_versions_chained (host : Host) (schemas : Schemas) :
    (∀ calls, VersionsKept host schemas (runReviews host schemas [] calls)) ∧
      ∀ links, (validateReceiptVersionGraph links).isSome = true ∧
        (validateReceiptVersionGraph links = some (.ok ()) ↔
          links.length ≤ 1000 ∧ DisjointPaths (links.map ReceiptVersionLink.edge)) :=
  ⟨fun calls => (keepsChains_nil.run calls).kept, fun links =>
    ⟨validateReceiptVersionGraph_isSome links, validateReceiptVersionGraph_ok links⟩⟩

/-! ## Two receipts of one document -/

theorem hashSchema_sha256Hex (message : List UInt8) : hashSchema (sha256Hex message) = .ok () := by
  have hdigit : ∀ n < 16, (n.digitChar.isDigit || decide ('a' ≤ n.digitChar ∧ n.digitChar ≤ 'f')) =
      true := by decide
  have hchars : (sha256Hex message).toList = (Sha256.digest message).flatMap Sha256.hexWord :=
    String.toList_ofList
  have hlength : ((Sha256.digest message).flatMap Sha256.hexWord).length = 64 := rfl
  have hall : ((Sha256.digest message).flatMap Sha256.hexWord).all
      (fun c => c.isDigit || decide ('a' ≤ c ∧ c ≤ 'f')) = true := by
    rw [all_eq_true]
    intro c hc
    obtain ⟨w, -, hc⟩ := mem_flatMap.mp hc
    obtain ⟨shift, -, rfl⟩ := mem_map.mp hc
    exact hdigit _ (Nat.mod_lt _ (by decide))
  unfold hashSchema
  rw [hchars, hlength, hall]
  rfl

theorem linkReceipt_of
    {link : ReceiptVersionLink} {events : List ReviewEvent} (hparse : link.parse host = .ok ())
    (hpermitted : access.permitted none = true) (hfresh : freshReview host access link = .ok ())
    (hsources : admitSources schemas reader access link = .ok ())
    (hevents : foldedEvents host journal access = .ok events)
    (hvalid : validateReceiptVersionGraph (otherLinks access link events ++ [link]) =
      some (.ok ())) :
    linkReceipt host schemas reader journal access link (foldDigest events) =
      .ok (journal ++
        [{ scope := access.scope, actorId := access.actorId, event := .link link }]) := by
  have hhash : hashSchema (foldDigest events) = .ok () := hashSchema_sha256Hex _
  have hfence : fence host journal access (foldDigest events) = .ok () := by
    unfold fence
    rw [hhash, hpermitted, hevents]
    simp
  unfold linkReceipt
  rw [hparse, hhash, hfence, hfresh, hsources, hevents]
  simp [hvalid]

def textOf (entries : List (String × Value)) (name : String) : Except String String :=
  match (entries.find? fun e => e.1 == name).map Prod.snd with
  | some (.string s) => .ok s
  | _ => .error "Invalid text"

def currencyOf (entries : List (String × Value)) (name : String) : Except String String :=
  match (entries.find? fun e => e.1 == name).map Prod.snd with
  | some (.object amount) => textOf amount "currency"
  | _ => .error "Invalid amount"

def plainReceipt : Value → Except String ReceiptEvidence
  | .object entries => do
    let id ← textOf entries "id"
    let observationId ← textOf entries "observationId"
    let currency ← currencyOf entries "total"
    pure { id, observationId, currency, lines := [] }
  | _ => .error "Invalid receipt"

def plainObservation : Value → Except String EvidenceObservation
  | .object entries => do
    let id ← textOf entries "id"
    let currency ← currencyOf entries "amount"
    let counterparty ← textOf entries "counterparty"
    pure
      { id, kind := .receipt, externalEventId := none, currency, direction := .outflow
        status := .completed, counterparty := some counterparty }
  | _ => .error "Invalid observation"

def plainSchemas : Schemas where
  receipts
    | .array values => values.mapM plainReceipt
    | _ => .error "Invalid receipts"
  observations
    | .array values => values.mapM plainObservation
    | _ => .error "Invalid observations"

def dollars (minorUnits : String) : Value :=
  .object [("minorUnits", .string minorUnits), ("currency", .string "USD")]

def receiptValue (id : String) : Value :=
  .object
    [("id", .string id), ("observationId", .string id), ("version", .number (.finite 1)),
      ("supersedesId", .null), ("fulfillmentGroupId", .null), ("total", dollars "500"),
      ("discount", dollars "0"), ("tax", dollars "0"), ("lines", .array []), ("tenders", .array [])]

def observationValue (id : String) : Value :=
  .object
    [("id", .string id), ("kind", .string "receipt"), ("sourceId", .string "market"),
      ("externalEventId", .null), ("date", .string "2026-01-01"), ("amount", dollars "500"),
      ("direction", .string "outflow"), ("status", .string "completed"),
      ("eventType", .string "purchase"), ("counterparty", .string "Market"),
      ("fundingInstrumentId", .null), ("walletId", .null), ("ledgerTransactionId", .null),
      ("ledgerEffect", .null), ("reliability", .number (.finite 90))]

def oneHash : String := String.ofList (List.replicate 64 'a')

def receiptDocument (id : String) (receiptIds : List String) : EvidenceDocument where
  connectorId := "mail"
  sourceId := id
  sourceTimestamp := "2026-01-01T00:00:00Z"
  mediaType := "text"
  parserVersion := "parser"
  privateActorId := none
  retentionUntil := "2026-01-09T00:00:00Z"
  parseStatus := .parsed
  quality := []
  extraction := [("receipts", .array (receiptIds.map receiptValue)),
    ("observations", .array (receiptIds.map observationValue))]
  id := id
  scope := ⟨"home", "budget", "bank"⟩
  receivedAt := "2026-01-01T00:00:00Z"
  contentHash := oneHash
  supersedesId := none

def EvidenceDocument.row (d : EvidenceDocument) : Row where
  scope := d.scope
  id := d.id
  connectorId := d.connectorId
  sourceId := d.sourceId
  contentHash := d.contentHash
  parserVersion := d.parserVersion
  value := d
  raw := none

def parcels : Reader :=
  EvidenceStore.reader
    { rows := [(receiptDocument "first" ["a"]).row, (receiptDocument "second" ["b"]).row,
        (receiptDocument "statement" ["a", "b"]).row]
      audit := [] } plainHost

def parcelLink (documentId receiptId : String) : ReceiptVersionLink where
  child := ⟨"statement", oneHash, "parser", receiptId⟩
  predecessor := ⟨documentId, oneHash, "parser", receiptId⟩
  predecessorVersion := 1
  version := 2
  predecessorLineageHash := oneHash
  identityBasis := .humanAttestedSameReceipt
  actorId := "owner"
  membershipId := "member"
  policyVersion := "policy"
  reviewedAt := "2026-01-02T00:00:00Z"

def parcelCalls : List ReviewCall :=
  [.link parcels (homeAccess true) (parcelLink "first" "a") (foldDigest []),
    .link parcels (homeAccess true) (parcelLink "second" "b")
      (foldDigest [.link (parcelLink "first" "a")])]

theorem run_parcelCalls : runReviews plainHost plainSchemas [] parcelCalls =
    [⟨⟨"home", "budget", "bank"⟩, "owner", .link (parcelLink "first" "a")⟩,
      ⟨⟨"home", "budget", "bank"⟩, "owner", .link (parcelLink "second" "b")⟩] := by
  have hfirst : linkReceipt plainHost plainSchemas parcels [] (homeAccess true)
      (parcelLink "first" "a") (foldDigest []) =
        .ok ([] ++ [⟨⟨"home", "budget", "bank"⟩, "owner", .link (parcelLink "first" "a")⟩]) :=
    linkReceipt_of (by decide +kernel) rfl (by decide +kernel) (by decide +kernel) rfl
      (by decide +kernel)
  have hsecond : linkReceipt plainHost plainSchemas parcels
      [⟨⟨"home", "budget", "bank"⟩, "owner", .link (parcelLink "first" "a")⟩] (homeAccess true)
      (parcelLink "second" "b") (foldDigest [.link (parcelLink "first" "a")]) =
        .ok ([⟨⟨"home", "budget", "bank"⟩, "owner", .link (parcelLink "first" "a")⟩] ++
          [⟨⟨"home", "budget", "bank"⟩, "owner", .link (parcelLink "second" "b")⟩]) :=
    linkReceipt_of (by decide +kernel) rfl (by decide +kernel) (by decide +kernel) rfl
      (by decide +kernel)
  unfold runReviews parcelCalls
  rw [foldl_cons, foldl_cons, foldl_nil]
  unfold performReview
  dsimp only
  rw [hfirst]
  exact congrArg (valueOr _) hsecond

/-! ## A thousand links and one more -/

def glyph (n : Nat) : String := String.ofList [Char.ofNat (0x4e00 + n)]

theorem glyph_inj {m n : Nat} (hm : m < 10000) (hn : n < 10000) (h : glyph m = glyph n) :
    m = n := by
  have hchar : Char.ofNat (0x4e00 + m) = Char.ofNat (0x4e00 + n) :=
    List.cons.inj (String.ofList_injective h) |>.1
  have hvalid : ∀ k, k.isValidChar → (Char.ofNat k).toNat = k := by
    intro k hk
    unfold Char.ofNat
    rw [dif_pos hk]
    rfl
  have hnat := congrArg Char.toNat hchar
  rw [hvalid _ (.inl (by omega)), hvalid _ (.inl (by omega))] at hnat
  omega

def apartLink (n : Nat) : ReceiptVersionLink :=
  { parcelLink "first" "a" with
    child := ⟨glyph (2 * n + 1), oneHash, "parser", "a"⟩
    predecessor := ⟨glyph (2 * n), oneHash, "parser", "a"⟩ }

theorem disjointPaths_apartLinks :
    DisjointPaths (((List.range 1001).map apartLink).map ReceiptVersionLink.edge) := by
  have hedges : ((List.range 1001).map apartLink).map ReceiptVersionLink.edge =
      (List.range 1001).map fun n => ((glyph (2 * n + 1), "a"), (glyph (2 * n), "a")) := by
    rw [map_map]
    rfl
  have hsources : (((List.range 1001).map fun n => ((glyph (2 * n + 1), "a"), (glyph (2 * n), "a"))).map
      Prod.fst).Nodup := by
    rw [map_map]
    refine List.Nodup.map_on (fun m hm n hn h => ?_) nodup_range
    rw [mem_range] at hm hn
    have := glyph_inj (by omega) (by omega) (congrArg Prod.fst h)
    omega
  have htargets : (((List.range 1001).map fun n => ((glyph (2 * n + 1), "a"), (glyph (2 * n), "a"))).map
      Prod.snd).Nodup := by
    rw [map_map]
    refine List.Nodup.map_on (fun m hm n hn h => ?_) nodup_range
    rw [mem_range] at hm hn
    have := glyph_inj (by omega) (by omega) (congrArg Prod.fst h)
    omega
  rw [disjointPaths_iff, hedges]
  refine ⟨hsources, htargets, fun x => ?_⟩
  cases hx : next? _ x with
  | none => exact .stop hx
  | some y =>
    -- the predecessor of a link is no child
    refine .step hx (.stop (next?_eq_none fun hy => ?_))
    obtain ⟨m, hm, hm'⟩ := mem_map.mp (mem_of_next? hx)
    rw [map_map] at hy
    obtain ⟨n, hn, hn'⟩ := mem_map.mp hy
    rw [mem_range] at hm hn
    have hglyph : glyph (2 * n + 1) = glyph (2 * m) :=
      congrArg Prod.fst (hn'.trans (congrArg Prod.snd hm').symm)
    have := glyph_inj (by omega) (by omega) hglyph
    omega

/-- Two links in force may give one document two predecessors, by two of its receipts; and the
validator refuses a thousand and one links that have no document in common. -/
theorem receipts_of_one_document :
    (∃ s, reviewState plainHost plainSchemas parcels
        (runReviews plainHost plainSchemas [] parcelCalls) (homeAccess true)
          ⟨"member", "policy"⟩ = .ok s ∧
      ∃ link ∈ s.links, ∃ link' ∈ s.links, link.child.documentId = link'.child.documentId ∧
        link.predecessor.documentId ≠ link'.predecessor.documentId) ∧
      ∃ links : List ReceiptVersionLink, DisjointPaths (links.map ReceiptVersionLink.edge) ∧
        validateReceiptVersionGraph links ≠ some (.ok ()) := by
  refine ⟨?_, (List.range 1001).map apartLink, disjointPaths_apartLinks, fun h => ?_⟩
  · have hlinks : (reviewState plainHost plainSchemas parcels
        [⟨⟨"home", "budget", "bank"⟩, "owner", .link (parcelLink "first" "a")⟩,
          ⟨⟨"home", "budget", "bank"⟩, "owner", .link (parcelLink "second" "b")⟩] (homeAccess true)
            ⟨"member", "policy"⟩).toOption.map (·.links) =
        some [parcelLink "first" "a", parcelLink "second" "b"] := by
      decide +kernel
    rw [run_parcelCalls]
    obtain ⟨s, hs, hlinks⟩ := Option.map_eq_some_iff.mp hlinks
    refine ⟨s, toOption_eq_some.mp hs, ?_⟩
    rw [hlinks]
    exact ⟨_, mem_cons_self, _, mem_cons_of_mem _ mem_cons_self, rfl, by decide⟩
  · have hlength := ((validateReceiptVersionGraph_ok _).mp h).1
    rw [length_map, length_range] at hlength
    omega

end BalanceFrame.Archive
