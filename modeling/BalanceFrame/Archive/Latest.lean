import BalanceFrame.Archive.History

/-!
# The current document of a source
-/

namespace BalanceFrame.Archive

open Library List Option

variable {host : Host} {gcm : Gcm} {s : Log}

/-! ## Finding rows -/

theorem Recorded.find? (h : Recorded host gcm s) {r : Row} (hr : r ∈ s.store.rows) :
    s.store.find? r.scope r.id = some r := by
  have hnodup : (s.store.rows.map fun r => (r.scope, r.id)).Nodup := by
    have hsame : s.store.rows.map (fun r => (r.scope, r.id)) =
        s.made.map fun c => (c.document.scope, c.document.id) := by
      have hrows := h.rows
      generalize s.store.rows = rows at hrows
      generalize s.made = made at hrows
      induction hrows with
      | nil => rfl
      | cons hof _ ih => rw [map_cons, map_cons, ih, hof.scope, hof.id]
    rw [hsame]
    exact h.distinct
  unfold EvidenceStore.find?
  cases hfound : s.store.rows.find? fun q => q.scope == r.scope && q.id == r.id with
  | none => exact absurd (find?_eq_none.mp hfound r hr) (by simp)
  | some q =>
    have hq := find?_some hfound
    rw [Bool.and_eq_true, beq_iff_eq, beq_iff_eq] at hq
    rw [inj_on_of_nodup_map hnodup (mem_of_find?_eq_some hfound) hr
      (Prod.ext hq.1 hq.2)]

theorem Recorded.newest_id (h : Recorded host gcm s) (d : EvidenceDocument) :
    (s.store.newest d.scope d.connectorId d.sourceId d.privateActorId).map (·.id) =
      (priorOf s.made d).map (·.document.id) := by
  have hnewest := h.newest d
  generalize s.store.newest d.scope d.connectorId d.sourceId d.privateActorId = newest at hnewest
  generalize priorOf s.made d = prior at hnewest
  cases hnewest with
  | none => rfl
  | some hof => exact congrArg some hof.id

/-- The access may read the document's normalization. -/
structure Reads (host : Host) (access : EvidenceAccess) (d : EvidenceDocument) : Prop where
  scope : access.scope = d.scope
  valid : ∃ now, access.validate host = .ok now
  allowed : access.allowed .normalizedEvidence (some d.stored) = true

variable {c : Delivery} {d : EvidenceDocument} {before : List Delivery}

theorem Recorded.isCurrent (h : Recorded host gcm s) (hc : c ∈ s.made)
    {access : EvidenceAccess} (hreads : Reads host access c.document) :
    ∃ a', s.store.isCurrent host access c.document.id =
      .ok (a', (priorOf s.made c.document).map (·.document.id) == some c.document.id) := by
  obtain ⟨r, hr, hof⟩ := h.row hc
  obtain ⟨now, hvalid⟩ := hreads.valid
  have hid := (h.sound c hc).id
  have hfind := h.find? hr
  rw [hof.scope, hof.id, ← hreads.scope] at hfind
  have hget : s.store.get host access c.document.id =
      .ok (s.store.expired host access now r.value, some r.value) := by
    unfold EvidenceStore.get EvidenceStore.row
    rw [hvalid, ok_bind, hid]
    simp only [ok_bind, pure_ok, hfind]
    rw [if_pos (by rw [hof.value]; exact hreads.allowed)]
  have hlater : Recorded host gcm { s with store := s.store.expired host access now r.value } :=
    h.fades (fades_expired host)
  refine ⟨s.store.expired host access now r.value, ?_⟩
  unfold EvidenceStore.isCurrent
  rw [hget, ok_bind]
  dsimp only
  rw [pure_ok, hreads.scope, hof.value]
  have hnewest := hlater.newest_id c.document
  change ((s.store.expired host access now r.value).newest c.document.scope c.document.connectorId
    c.document.sourceId c.document.privateActorId).map (·.id) = _ at hnewest
  rw [hof.value] at hnewest
  change Except.ok (_, ((s.store.expired host access now c.document.stored).newest
    c.document.scope c.document.connectorId c.document.sourceId
    c.document.privateActorId).map (·.id) == some c.document.id) = _
  rw [hnewest]

/-! ## The last delivery of a source -/

theorem sameSource_iff {e : EvidenceDocument} : d.sameSource e = true ↔
    e.scope = d.scope ∧ e.connectorId = d.connectorId ∧ e.sourceId = d.sourceId ∧
      e.privateActorId = d.privateActorId := by
  unfold EvidenceDocument.sameSource EvidenceDocument.of
  simp only [Bool.and_eq_true, beq_iff_eq, and_assoc]

theorem sameSource_refl (d : EvidenceDocument) : d.sameSource d = true :=
  sameSource_iff.mpr ⟨rfl, rfl, rfl, rfl⟩

theorem priorOf_congr {e : EvidenceDocument}
    (h : d.sameSource e = true) : priorOf before e = priorOf before d := by
  obtain ⟨h₁, h₂, h₃, h₄⟩ := sameSource_iff.mp h
  unfold priorOf EvidenceDocument.sameSource
  rw [h₁, h₂, h₃, h₄]

theorem mem_of_priorOf {p : Delivery}
    (h : priorOf before d = some p) : p ∈ before ∧ d.sameSource p.document = true := by
  have hmem := mem_of_getLast? h
  exact ⟨(mem_filter.mp hmem).1, (mem_filter.mp hmem).2⟩

theorem exists_priorOf
    (hc : c ∈ before) (h : d.sameSource c.document = true) : ∃ p, priorOf before d = some p := by
  have hne : before.filter (fun c => d.sameSource c.document) ≠ [] :=
    ne_nil_of_mem (mem_filter.mpr ⟨hc, h⟩)
  exact ⟨_, getLast?_eq_some_getLast hne⟩

theorem priorOf_snoc (before : List Delivery) (c : Delivery) :
    priorOf (before ++ [c]) c.document = some c := by
  unfold priorOf
  rw [filter_append, filter_singleton, sameSource_refl, cond_true,
    getLast?_append, getLast?_singleton]
  rfl

theorem Recorded.no_branch (h : Recorded host gcm s) {c' : Delivery} (hc : c ∈ s.made)
    (hc' : c' ∈ s.made) (hscope : c.document.scope = c'.document.scope) {i : String}
    (hs : c.document.supersedesId = some i) (hs' : c'.document.supersedesId = some i) : c = c' := by
  have hinj : ∀ x ∈ s.made, ∀ y ∈ s.made, x.document.scope = y.document.scope →
      x.document.id = y.document.id → x = y := fun x hx y hy hsc hid =>
    inj_on_of_nodup_map h.distinct hx hy (Prod.ext hsc hid)
  have hnodup : s.made.Nodup := h.distinct.of_map
  -- the earlier of two such documents would be the one superseded
  have hearlier : ∀ before mid after (x y : Delivery), s.made = before ++ x :: mid ++ y :: after →
      x.document.scope = y.document.scope → x.document.supersedesId = some i →
        y.document.supersedesId = some i → False := by
    intro before mid after x y hsplit hxy hx hy
    have hmem : ∀ z, z ∈ before ++ x :: mid → z ∈ s.made := fun z hz => by
      rw [hsplit]
      exact mem_append_left _ hz
    rw [h.linked before x (mid ++ y :: after) (by rw [hsplit]; simp)] at hx
    rw [h.linked (before ++ x :: mid) y after hsplit] at hy
    obtain ⟨p, hp, hpi⟩ := map_eq_some_iff.mp hx
    obtain ⟨q, hq, hqi⟩ := map_eq_some_iff.mp hy
    obtain ⟨hpb, hpx⟩ := mem_of_priorOf (eq_some_of_filter_eq_some hp)
    obtain ⟨hqb, hqy⟩ := mem_of_priorOf (eq_some_of_filter_eq_some hq)
    have hpq : p = q := by
      refine hinj p (hmem p (mem_append_left _ hpb)) q (hmem q hqb) ?_ (hpi.trans hqi.symm)
      rw [(sameSource_iff.mp hpx).1, (sameSource_iff.mp hqy).1, hxy]
    subst hpq
    have hyx : y.document.sameSource x.document = true := by
      obtain ⟨-, h₂, h₃, h₄⟩ := sameSource_iff.mp hpx
      obtain ⟨-, g₂, g₃, g₄⟩ := sameSource_iff.mp hqy
      exact sameSource_iff.mpr ⟨hxy, h₂.symm.trans g₂, h₃.symm.trans g₃, h₄.symm.trans g₄⟩
    have hlast := eq_some_of_filter_eq_some hq
    unfold priorOf at hlast
    rw [filter_append, filter_cons, if_pos hyx, getLast?_append,
      getLast?_cons, some_or, Option.some.injEq] at hlast
    rw [hsplit, append_assoc, nodup_append] at hnodup
    refine hnodup.2.2 p hpb p ?_ rfl
    rw [← hlast]
    cases hrest : (mid.filter fun c => y.document.sameSource c.document).getLast? with
    | none => simp
    | some z =>
      have hz := mem_of_getLast? hrest
      exact mem_append_left _ (mem_cons_of_mem _ (mem_filter.mp hz).1)
  by_contra hne
  obtain ⟨before, rest, hsplit⟩ := append_of_mem hc
  rw [hsplit] at hc'
  rcases mem_append.mp hc' with hb | hr
  · obtain ⟨b₁, b₂, rfl⟩ := append_of_mem hb
    exact hearlier b₁ b₂ rest c' c (by rw [hsplit]) hscope.symm hs' hs
  · rcases mem_cons.mp hr with heq | hr
    · exact hne heq.symm
    · obtain ⟨b₁, b₂, rfl⟩ := append_of_mem hr
      exact hearlier before b₁ b₂ c c' (by rw [hsplit]; simp) hscope hs hs'

/-! ## Runs -/

theorem Recorded.current_of_delivery (h : Recorded host gcm s) {access reader : EvidenceAccess}
    {input : EvidenceIngestInput} {key : List UInt8} {random : Random} {a' : EvidenceStore}
    {r : Ingested} (hr : s.store.ingest host gcm access input key random = .ok (a', r))
    (hnew : r.duplicate = false) (hreads : Reads host reader r.document) :
    ∃ a'', a'.isCurrent host reader r.document.id = .ok (a'', true) := by
  obtain ⟨read, hread, ⟨row, -, rfl, -⟩ | ⟨hfresh, hdocument, hrows⟩⟩ := ingest_cases hr
  · cases hnew
  · have hmade := h.made hread hfresh (congrArg Ingested.document hdocument) hrows
    have hmem : (⟨access, key, input.content, r.document⟩ : Delivery) ∈
        s.made ++ [⟨access, key, input.content, r.document⟩] :=
      mem_append_right _ (mem_singleton_self _)
    obtain ⟨a'', hcurrent⟩ := hmade.isCurrent hmem hreads
    have hlast := priorOf_snoc s.made ⟨access, key, input.content, r.document⟩
    dsimp only at hlast hcurrent
    rw [hlast, map_some, beq_self_eq_true] at hcurrent
    exact ⟨a'', hcurrent⟩

/-- The archive keeps track of its sources. -/
structure Tracks (host : Host) (gcm : Gcm) (s : Log) : Prop where
  /-- One document of a source is current, for all who may read it. -/
  current : ∀ c ∈ s.made, ∃ latest ∈ s.made, c.document.sameSource latest.document = true ∧
    ∀ c' ∈ s.made, c.document.sameSource c'.document = true →
      ∀ access, Reads host access c'.document → ∃ a',
        s.store.isCurrent host access c'.document.id =
          .ok (a', decide (c'.document.id = latest.document.id))
  /-- A delivery that makes a document makes the current one. -/
  delivered : ∀ access input key random a' r,
    s.store.ingest host gcm access input key random = .ok (a', r) → r.duplicate = false →
      ∀ reader, Reads host reader r.document →
        ∃ a'', a'.isCurrent host reader r.document.id = .ok (a'', true)
  linked : Linked s.made
  unbranched : ∀ c ∈ s.made, ∀ c' ∈ s.made, c.document.scope = c'.document.scope →
    ∀ i, c.document.supersedesId = some i → c'.document.supersedesId = some i → c = c'

theorem Recorded.tracks (h : Recorded host gcm s) : Tracks host gcm s where
  current c hc := by
    obtain ⟨latest, hlatest⟩ := exists_priorOf hc (sameSource_refl c.document)
    obtain ⟨hmem, hsame⟩ := mem_of_priorOf hlatest
    refine ⟨latest, hmem, hsame, fun c' hc' hc's access hreads => ?_⟩
    obtain ⟨a', hcurrent⟩ := h.isCurrent hc' hreads
    refine ⟨a', hcurrent.trans ?_⟩
    rw [priorOf_congr hc's, hlatest, map_some]
    by_cases hid : c'.document.id = latest.document.id
    · rw [decide_eq_true hid, hid, beq_self_eq_true]
    · rw [decide_eq_false hid, beq_eq_false_iff_ne.mpr fun heq => hid (some.inj heq).symm]
  delivered _ _ _ _ _ _ hr hnew _ hreads := h.current_of_delivery hr hnew hreads
  linked := h.linked
  unbranched _ hc _ hc' hscope _ hs hs' := h.no_branch hc hc' hscope hs hs'

def plainHost : Host where
  datetime := Governance.timestampMillis
  julianday := Governance.timestampMillis
  collationKey s := s.toList.map Char.toNat
  numberText x := toString x.num

def plainGcm : Gcm where
  encrypt key iv data content :=
    (content, key ++ iv ++ (data.toList.map fun c => c.toNat.toUInt8))
  decrypt key iv data sealed_ :=
    if sealed_.2 = key ++ iv ++ (data.toList.map fun c => c.toNat.toUInt8) then some sealed_.1
    else none
  decrypt_encrypt _ _ _ _ := if_pos rfl
  authentic h := by
    dsimp only at h
    split at h
    · exact (some.inj h).symm
    · cases h

def homeAccess (reads : Bool) : EvidenceAccess where
  scope := ⟨"home", "budget", "bank"⟩
  actorId := "owner"
  now := "2026-01-02T00:00:00Z"
  authorize capability _ := reads || capability == .ingest

def statement (byte : UInt8) : EvidenceIngestInput where
  connectorId := "bank"
  sourceId := "january"
  sourceTimestamp := "2026-01-01T00:00:00Z"
  mediaType := "text"
  parserVersion := "parser"
  privateActorId := none
  retentionUntil := "2026-01-09T00:00:00Z"
  parseStatus := .parsed
  quality := []
  extraction := []
  content := [byte]

def firstRandom : Random := ⟨"first", [], by decide⟩

def secondRandom : Random := ⟨"second", [], by decide⟩

def installationKey : List UInt8 := List.replicate 32 0

def twoStatements (reads : Bool) : Log :=
  Log.empty.run plainHost plainGcm
    [.ingest (homeAccess true) (statement 1) installationKey firstRandom,
      .ingest (homeAccess reads) (statement 2) installationKey secondRandom]

def deliveredAgain : Except String (EvidenceScope × Option String × Bool) := do
  let (a, r) ← (twoStatements true).store.ingest plainHost plainGcm (homeAccess true) (statement 1)
    installationKey secondRandom
  let (_, current) ← a.isCurrent plainHost (homeAccess true) r.document.id
  pure (r.document.scope, r.document.privateActorId, current)

def secondLink : List Delivery → Option (Option String × Option String)
  | [c, c'] => some (c'.document.supersedesId, (priorOf [c] c'.document).map (·.document.id))
  | _ => none

end BalanceFrame.Archive
