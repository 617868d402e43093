import BalanceFrame.Archive.Documents
import BalanceFrame.Library.Lists

/-!
# Histories of the archive

A `Log` is the archive with what its runs remember: for each document the access, the key and the
content of the delivery that made it. Every call either only erases raw content (`Fades`) or makes
one more document.
-/

namespace BalanceFrame.Archive

open Library List Bool Option
open Governance (trim)

/-! ## Runs -/

/-- A delivery that made a document. -/
structure Delivery where
  access : EvidenceAccess
  key : List UInt8
  content : List UInt8
  document : EvidenceDocument

structure Log where
  store : EvidenceStore
  made : List Delivery

def Log.empty : Log := { store := { rows := [], audit := [] }, made := [] }

inductive Call
  | ingest (access : EvidenceAccess) (input : EvidenceIngestInput) (key : List UInt8)
      (random : Random)
  | get (access : EvidenceAccess) (identity : String)
  | isCurrent (access : EvidenceAccess) (identity : String)
  | list (access : EvidenceAccess)
  | readRaw (access : EvidenceAccess) (identity : String) (key : List UInt8)
  | deleteRaw (access : EvidenceAccess) (identity : String)
  | expireRaw (now : String)
  | quarantineRestore (now : String)

/-- The archive after a call that returns; a call that throws is rolled back. -/
def Log.after {α : Type} (s : Log) (x : Except String (EvidenceStore × α)) : Log :=
  match x with
  | .ok (a, _) => { s with store := a }
  | .error _ => s

/-- The log after a delivery. -/
def Log.delivered (s : Log) (access : EvidenceAccess) (input : EvidenceIngestInput)
    (key : List UInt8) : Except String (EvidenceStore × Ingested) → Log
  | .ok (a, r) =>
    { store := a
      made := if r.duplicate then s.made
        else s.made ++ [{ access, key, content := input.content, document := r.document }] }
  | .error _ => s

variable (host : Host) (gcm : Gcm)

def Log.perform (s : Log) : Call → Log
  | .ingest access input key random =>
    s.delivered access input key (s.store.ingest host gcm access input key random)
  | .get access identity => s.after (s.store.get host access identity)
  | .isCurrent access identity => s.after (s.store.isCurrent host access identity)
  | .list access => s.after (s.store.list host access)
  | .readRaw access identity key => s.after (s.store.readRaw host gcm access identity key)
  | .deleteRaw access identity => s.after (s.store.deleteRaw host access identity)
  | .expireRaw now => s.after (s.store.expireRaw host now)
  | .quarantineRestore now =>
    s.after ((s.store.quarantineRestore host now).map fun a => (a, ()))

def Log.run (s : Log) (calls : List Call) : Log := calls.foldl (Log.perform host gcm) s

/-! ## Fading -/

/-- A row, with its raw content or without it. -/
def Row.Fades (r r' : Row) : Prop := r' = r ∨ r' = { r with raw := none }

theorem Row.Fades.trans {r r' r'' : Row} (h : r.Fades r') (h' : r'.Fades r'') : r.Fades r'' := by
  rcases h with rfl | rfl
  · exact h'
  · rcases h' with rfl | rfl
    · exact .inr rfl
    · exact .inr rfl

/-- The same rows, some of them without their raw content. -/
def Fades (a a' : EvidenceStore) : Prop := List.Forall₂ Row.Fades a.rows a'.rows

theorem Fades.refl (a : EvidenceStore) : Fades a a := forall₂_same.mpr fun _ _ => .inl rfl

theorem Fades.trans {a b c : EvidenceStore} (h : Fades a b) (h' : Fades b c) : Fades a c := by
  have hall : ∀ {l l' : List Row}, List.Forall₂ Row.Fades l l' → ∀ {l''}, List.Forall₂ Row.Fades l' l'' →
      List.Forall₂ Row.Fades l l'' := by
    intro l l' hl
    induction hl with
    | nil =>
      intro l'' hl'
      cases hl'
      exact .nil
    | cons hr _ ih =>
      intro l'' hl'
      cases hl' with
      | cons hr' hrest => exact .cons (hr.trans hr') (ih hrest)
  exact hall h h'

theorem rows_erase (a : EvidenceStore) (access : EvidenceAccess) (d : EvidenceDocument)
    (action : AuditAction) :
    (a.erase access d action).1.rows = a.rows.map fun r =>
      if r.scope == access.scope && r.id == d.id then { r with raw := none } else r := by
  have hmap : (a.rows.map fun r => if r.scope == access.scope && r.id == d.id && r.raw.isSome then
      { r with raw := none } else r) = a.rows.map fun r =>
        if r.scope == access.scope && r.id == d.id then { r with raw := none } else r := by
    refine map_congr_left fun r _ => ?_
    cases hraw : r.raw with
    | none =>
      have hsame : { r with raw := none } = r := by rw [← hraw]
      by_cases h : (r.scope == access.scope && r.id == d.id) = true
      · rw [hsame]
        split <;> rfl
      · rw [if_neg h, if_neg (by simp)]
    | some raw => rw [Option.isSome_some, Bool.and_true]
  unfold EvidenceStore.erase
  dsimp only
  split
  · exact hmap
  · rename_i hnone
    rw [← hmap]
    conv_lhs => rw [← map_id a.rows]
    refine map_congr_left fun r hr => ?_
    rw [if_neg]
    · rfl
    · intro hhit
      exact hnone (any_eq_true.mpr ⟨r, hr, hhit⟩)

theorem fades_map {a a' : EvidenceStore} {p : Row → Bool}
    (h : a'.rows = a.rows.map fun r => if p r then { r with raw := none } else r) : Fades a a' := by
  unfold Fades
  rw [h, forall₂_map_right_iff]
  refine forall₂_same.mpr fun r _ => ?_
  by_cases hp : p r = true
  · rw [if_pos hp]
    exact .inr rfl
  · rw [if_neg hp]
    exact .inl rfl

theorem fades_erase (a : EvidenceStore) (access : EvidenceAccess) (d : EvidenceDocument)
    (action : AuditAction) : Fades a (a.erase access d action).1 :=
  fades_map (p := fun r => r.scope == access.scope && r.id == d.id) (rows_erase a access d action)

theorem fades_expired {a : EvidenceStore} {access : EvidenceAccess} {now : Int}
    {d : EvidenceDocument} : Fades a (a.expired host access now d) := by
  unfold EvidenceStore.expired
  split
  · exact Fades.refl a
  · exact fades_erase a access d .rawExpired

theorem fades_foldl {α : Type} {f : EvidenceStore → α → EvidenceStore}
    (hf : ∀ a x, Fades a (f a x)) (l : List α) (a : EvidenceStore) : Fades a (l.foldl f a) := by
  induction l generalizing a with
  | nil => exact Fades.refl a
  | cons x l ih => exact (hf a x).trans (ih (f a x))

section Calls

variable {host gcm} {a a' : EvidenceStore} {access : EvidenceAccess} {identity now : String}

theorem fades_get {d : Option EvidenceDocument} (h : a.get host access identity = .ok (a', d)) :
    Fades a a' := by
  obtain ⟨now, -, h⟩ := bind_ok.mp h
  obtain ⟨row, -, h⟩ := bind_ok.mp h
  cases row with
  | none =>
    cases h
    exact Fades.refl a
  | some row =>
    dsimp only at h
    split at h
    · cases h
      exact fades_expired host
    · cases h
      exact Fades.refl a

theorem fades_isCurrent {b : Bool} (h : a.isCurrent host access identity = .ok (a', b)) :
    Fades a a' := by
  obtain ⟨⟨a₁, d⟩, hget, h⟩ := bind_ok.mp h
  cases d <;> cases h <;> exact fades_get hget

theorem fades_list {l : List EvidenceDocument} (h : a.list host access = .ok (a', l)) :
    Fades a a' := by
  obtain ⟨now, -, h⟩ := bind_ok.mp h
  cases h
  exact fades_foldl (fun _ _ => fades_expired host) _ a

theorem fades_readRaw {key : List UInt8} {content : Option (List UInt8)}
    (h : a.readRaw host gcm access identity key = .ok (a', content)) : Fades a a' := by
  obtain ⟨now, -, h⟩ := bind_ok.mp h
  obtain ⟨row, -, h⟩ := bind_ok.mp h
  cases row with
  | none =>
    cases h
    exact Fades.refl a
  | some row =>
    obtain ⟨_, h⟩ := rest_ok h
    split at h
    · obtain ⟨content, -, h⟩ := bind_ok.mp h
      cases h
      exact Fades.refl a
    · cases h
      exact fades_expired host

theorem fades_deleteRaw {b : Bool} (h : a.deleteRaw host access identity = .ok (a', b)) :
    Fades a a' := by
  obtain ⟨_, h⟩ := rest_ok h
  obtain ⟨row, -, h⟩ := bind_ok.mp h
  cases row with
  | none =>
    cases h
    exact Fades.refl a
  | some row =>
    obtain ⟨_, h⟩ := rest_ok h
    obtain rfl : (a.erase access row.value .rawDeleted).1 = a' :=
      congrArg Prod.fst (Except.ok.inj h)
    exact fades_erase a access row.value .rawDeleted

theorem fades_quarantineRestore (h : a.quarantineRestore host now = .ok a') : Fades a a' := by
  obtain ⟨_, h⟩ := rest_ok h
  cases h
  exact fades_foldl (fun _ _ => fades_erase _ _ _ _) _ a

theorem fades_expireRaw {n : Nat} (h : a.expireRaw host now = .ok (a', n)) : Fades a a' := by
  obtain ⟨_, h⟩ := rest_ok h
  obtain rfl : ((a.rows.filter fun r => r.due host now).foldl (EvidenceStore.expireNext now) (a, 0)).1 =
      a' := congrArg Prod.fst (Except.ok.inj h)
  have hall : ∀ (l : List Row) (s : EvidenceStore × Nat),
      Fades s.1 (l.foldl (EvidenceStore.expireNext now) s).1 := by
    intro l
    induction l with
    | nil => exact fun s => Fades.refl s.1
    | cons r l ih =>
      intro s
      exact (fades_erase s.1 _ r.value .rawExpired).trans (ih (EvidenceStore.expireNext now s r))
  exact hall _ (a, 0)

end Calls

/-! ## Deliveries -/

section Deliveries

variable {host gcm} {a a' : EvidenceStore} {access : EvidenceAccess} {input : EvidenceIngestInput}
  {key : List UInt8} {random : Random} {r : Ingested}

/-- What the schema reads of an input. -/
structure Admitted (host : Host) (access : EvidenceAccess) (untrusted input : EvidenceIngestInput)
    (key : List UInt8) : Prop where
  valid : ∃ now, access.validate host = .ok now
  content : input.content = untrusted.content
  owner : ∀ p, input.privateActorId = some p → p ≠ "" ∧ p = access.actorId
  retention : ∃ until_, host.datetime input.retentionUntil = some until_
  key : key.length = 32

theorem idSchema_ok {s t : String} (h : idSchema s = .ok t) : t = trim s ∧ t ≠ "" := by
  obtain ⟨_, hlength, h⟩ := bind_ok.mp h
  cases h
  refine ⟨rfl, fun hempty => ?_⟩
  rw [hempty, reject_ok] at hlength
  exact absurd hlength (by decide)

variable {untrusted : EvidenceIngestInput}

theorem parse_ok (h : untrusted.parse host = .ok input) :
    input.content = untrusted.content ∧ (∀ p, input.privateActorId = some p → p ≠ "") ∧
      ∃ until_, host.datetime input.retentionUntil = some until_ := by
  obtain ⟨connectorId, -, h⟩ := bind_ok.mp h
  obtain ⟨sourceId, -, h⟩ := bind_ok.mp h
  obtain ⟨_, h⟩ := rest_ok h
  obtain ⟨mediaType, -, h⟩ := bind_ok.mp h
  obtain ⟨parserVersion, -, h⟩ := bind_ok.mp h
  obtain ⟨owner, howner, h⟩ := bind_ok.mp h
  obtain ⟨until_, hretention, h⟩ := bind_ok.mp h
  obtain ⟨_, h⟩ := rest_ok h
  obtain ⟨quality, -, h⟩ := bind_ok.mp h
  obtain ⟨_, h⟩ := rest_ok h
  obtain ⟨_, h⟩ := rest_ok h
  cases h
  refine ⟨rfl, fun p hp => ?_, until_, orStop_ok.mp hretention⟩
  change owner = some p at hp
  subst hp
  cases hraw : untrusted.privateActorId with
  | none =>
    rw [hraw] at howner
    cases howner
  | some raw =>
    cases hq : idSchema raw with
    | error e =>
      rw [hraw, mapM_some, hq] at howner
      cases howner
    | ok q =>
      rw [hraw, mapM_some, hq] at howner
      cases howner
      exact (idSchema_ok hq).2

theorem admitDelivery_ok (h : admitDelivery host access untrusted key = .ok input) :
    Admitted host access untrusted input key := by
  unfold admitDelivery at h
  rw [bind_ok] at h
  obtain ⟨now, hvalid, h⟩ := h
  rw [bind_ok] at h
  obtain ⟨parsed, hparse, h⟩ := h
  rw [bind_ok] at h
  obtain ⟨retention, -, h⟩ := h
  rw [bind_ok] at h
  obtain ⟨_, hkey, h⟩ := h
  rw [bind_ok] at h
  obtain ⟨_, howner, h⟩ := h
  rw [bind_ok] at h
  obtain ⟨_, -, h⟩ := h
  cases h
  obtain ⟨hcontent, hblank, hretention⟩ := parse_ok hparse
  rw [reject_ok, or_eq_false_iff, or_eq_false_iff] at hkey
  rw [reject_ok] at howner
  refine ⟨⟨now, hvalid⟩, hcontent, fun p hp => ⟨hblank p hp, ?_⟩, hretention, ?_⟩
  · rw [hp, any_some] at howner
    simpa using howner
  · simpa using hkey.1.1

theorem ingest_cases (h : a.ingest host gcm access untrusted key random = .ok (a', r)) :
    ∃ input, Admitted host access untrusted input key ∧
      ((∃ row, a.existing access.scope input (sha256Hex input.content) = some row ∧
          r = { document := row.value, duplicate := true } ∧ a'.rows = a.rows) ∨
        (a.find? access.scope random.uuid = none ∧
          r = { document := newDocument a access input (sha256Hex input.content) random.uuid
                duplicate := false } ∧
          a'.rows = a.rows ++ [newRow host gcm key random input.content r.document])) := by
  obtain ⟨input, hinput, h⟩ := bind_ok.mp h
  refine ⟨input, admitDelivery_ok hinput, ?_⟩
  cases hexisting : a.existing access.scope input (sha256Hex input.content) with
  | some row =>
    rw [hexisting] at h
    obtain ⟨_, h⟩ := rest_ok h
    obtain ⟨_, h⟩ := rest_ok h
    cases h
    exact .inl ⟨row, rfl, rfl, rfl⟩
  | none =>
    rw [hexisting] at h
    obtain ⟨_, hfresh, h⟩ := bind_ok.mp h
    cases h
    rw [reject_ok, isSome_eq_false_iff, isNone_iff_eq_none] at hfresh
    exact .inr ⟨hfresh, rfl, rfl⟩

end Deliveries

/-! ## What a call can do -/

/-- What a call can do: erase raw content, or make one more document. -/
inductive Change (s : Log) : Log → Prop
  | fades {a' : EvidenceStore} : Fades s.store a' → Change s { s with store := a' }
  | made {access : EvidenceAccess} {untrusted input : EvidenceIngestInput} {key : List UInt8}
      {random : Random} {a' : EvidenceStore} {d : EvidenceDocument} :
      Admitted host access untrusted input key → s.store.find? access.scope random.uuid = none →
        d = newDocument s.store access input (sha256Hex input.content) random.uuid →
          a'.rows = s.store.rows ++ [newRow host gcm key random input.content d] →
            Change s { store := a', made := s.made ++ [⟨access, key, untrusted.content, d⟩] }

theorem Change.after {s : Log} {α : Type} {x : Except String (EvidenceStore × α)}
    (hx : ∀ a' v, x = .ok (a', v) → Fades s.store a') : Change host gcm s (s.after x) := by
  cases hcase : x with
  | error e => exact .fades (Fades.refl s.store)
  | ok v => exact .fades (hx v.1 v.2 hcase)

theorem Change.delivered (s : Log) (access : EvidenceAccess) (input : EvidenceIngestInput)
    (key : List UInt8) (random : Random) : Change host gcm s
      (s.delivered access input key (s.store.ingest host gcm access input key random)) := by
  cases hingest : s.store.ingest host gcm access input key random with
  | error e => exact .fades (Fades.refl s.store)
  | ok r =>
    obtain ⟨a', r⟩ := r
    obtain ⟨read, hread, ⟨row, -, rfl, hrows⟩ | ⟨hfresh, hr, hrows⟩⟩ := ingest_cases hingest
    · refine .fades ?_
      unfold Fades
      rw [hrows]
      exact Fades.refl s.store
    · have hmade := Change.made hread hfresh (congrArg Ingested.document hr) hrows
      unfold Log.delivered
      rw [hr] at hmade ⊢
      exact hmade

theorem perform_cases (s : Log) (call : Call) : Change host gcm s (s.perform host gcm call) := by
  cases call with
  | ingest access input key random =>
    rw [Log.perform]
    exact Change.delivered host gcm s access input key random
  | get access identity =>
    rw [Log.perform]
    exact Change.after host gcm fun _ _ hx => fades_get hx
  | isCurrent access identity =>
    rw [Log.perform]
    exact Change.after host gcm fun _ _ hx => fades_isCurrent hx
  | list access =>
    rw [Log.perform]
    exact Change.after host gcm fun _ _ hx => fades_list hx
  | readRaw access identity key =>
    rw [Log.perform]
    exact Change.after host gcm fun _ _ hx => fades_readRaw hx
  | deleteRaw access identity =>
    rw [Log.perform]
    exact Change.after host gcm fun _ _ hx => fades_deleteRaw hx
  | expireRaw now =>
    rw [Log.perform]
    exact Change.after host gcm fun _ _ hx => fades_expireRaw hx
  | quarantineRestore now =>
    rw [Log.perform]
    refine Change.after host gcm fun a' _ hx => ?_
    obtain ⟨a, ha, hpair⟩ := map_eq_ok.mp hx
    cases hpair
    exact fades_quarantineRestore ha

/-! ## What a log records -/

/-- The row is that of a delivery, with its raw content or without it. -/
structure Row.Of (host : Host) (gcm : Gcm) (r : Row) (c : Delivery) : Prop where
  scope : r.scope = c.document.scope
  id : r.id = c.document.id
  connectorId : r.connectorId = c.document.connectorId
  sourceId : r.sourceId = c.document.sourceId
  value : r.value = c.document.stored
  raw : ∀ raw, r.raw = some raw → (raw.ciphertext, raw.tag) =
    gcm.encrypt c.key raw.iv (c.document.associatedData host) c.content

/-- A delivery made a document that its access may own. -/
structure Delivery.Sound (host : Host) (c : Delivery) : Prop where
  scope : c.document.scope = c.access.scope
  id : idSchema c.document.id = .ok c.document.id
  owner : ∀ p, c.document.privateActorId = some p → p ≠ "" ∧ p = c.access.actorId
  retention : ∃ until_, host.datetime c.document.retentionUntil = some until_
  key : c.key.length = 32

/-- The document is one of a scope, a connector, a source and an owner. -/
def EvidenceDocument.of (d : EvidenceDocument) (scope : EvidenceScope) (connectorId sourceId : String)
    (privateActorId : Option String) : Bool :=
  d.scope == scope && d.connectorId == connectorId && d.sourceId == sourceId &&
    d.privateActorId == privateActorId

/-- Two documents of one scope, connector, source and owner. -/
def EvidenceDocument.sameSource (d e : EvidenceDocument) : Bool :=
  e.of d.scope d.connectorId d.sourceId d.privateActorId

/-- The last delivery before that made a document of the same source. -/
def priorOf (before : List Delivery) (d : EvidenceDocument) : Option Delivery :=
  (before.filter fun c => d.sameSource c.document).getLast?

/-- Every document supersedes the one before it of its source, if its access may read that. -/
def Linked (made : List Delivery) : Prop :=
  ∀ before c after, made = before ++ c :: after →
    c.document.supersedesId = ((priorOf before c.document).filter fun p =>
      c.access.allowed .normalizedEvidence (some p.document.stored)).map (·.document.id)

/-- **What a log records.** -/
structure Recorded (s : Log) : Prop where
  rows : List.Forall₂ (Row.Of host gcm) s.store.rows s.made
  sound : ∀ c ∈ s.made, c.Sound host
  distinct : (s.made.map fun c => (c.document.scope, c.document.id)).Nodup
  linked : Linked s.made

theorem linked_snoc {made : List Delivery} {c : Delivery} (h : Linked made)
    (hc : c.document.supersedesId = ((priorOf made c.document).filter fun p =>
      c.access.allowed .normalizedEvidence (some p.document.stored)).map (·.document.id)) :
    Linked (made ++ [c]) := by
  intro before d after hsplit
  rcases eq_nil_or_concat after with rfl | ⟨after', last, rfl⟩
  · obtain ⟨rfl, hcd⟩ := append_inj' hsplit rfl
    cases hcd
    exact hc
  · refine h before d after' ?_
    rw [concat_eq_append, ← cons_append, ← append_assoc] at hsplit
    exact (append_inj' hsplit rfl).1

section Recording

variable {host gcm} {s : Log}

theorem Row.Of.fades {r r' : Row} {c : Delivery} (h : r.Of host gcm c) (hr : r.Fades r') :
    r'.Of host gcm c := by
  rcases hr with rfl | rfl
  · exact h
  · exact ⟨h.scope, h.id, h.connectorId, h.sourceId, h.value, nofun⟩

theorem Recorded.fades {a' : EvidenceStore} (h : Recorded host gcm s) (hf : Fades s.store a') :
    Recorded host gcm { s with store := a' } := by
  refine ⟨?_, h.sound, h.distinct, h.linked⟩
  have hall : ∀ {l l' : List Row}, List.Forall₂ Row.Fades l l' → ∀ {m},
      List.Forall₂ (Row.Of host gcm) l m → List.Forall₂ (Row.Of host gcm) l' m := by
    intro l l' hl
    induction hl with
    | nil => exact fun hm => hm
    | cons hr _ ih =>
      intro m hm
      cases hm with
      | cons hof hrest => exact .cons (hof.fades hr) (ih hrest)
  exact hall hf h.rows

theorem Recorded.newest (h : Recorded host gcm s) (d : EvidenceDocument) :
    Option.Rel (Row.Of host gcm)
      (s.store.newest d.scope d.connectorId d.sourceId d.privateActorId) (priorOf s.made d) := by
  have hfilter : List.Forall₂ (Row.Of host gcm)
      (s.store.rows.filter fun r => r.of d.scope d.connectorId d.sourceId d.privateActorId)
      (s.made.filter fun c => d.sameSource c.document) := by
    have hrows := h.rows
    generalize s.store.rows = rows at hrows
    generalize s.made = made at hrows
    induction hrows with
    | nil => exact .nil
    | @cons r c rows made hof _ ih =>
      have hsame : r.of d.scope d.connectorId d.sourceId d.privateActorId =
          d.sameSource c.document := by
        unfold Row.of EvidenceDocument.sameSource EvidenceDocument.of
        rw [hof.scope, hof.connectorId, hof.sourceId, hof.value]
        rfl
      rw [filter_cons, filter_cons, hsame]
      split
      · exact .cons hof ih
      · exact ih
  unfold EvidenceStore.newest priorOf
  generalize s.store.rows.filter _ = rows at hfilter
  generalize s.made.filter _ = made at hfilter
  rcases eq_nil_or_concat rows with rfl | ⟨rows', r, rfl⟩
  · cases hfilter
    exact .none
  · rcases eq_nil_or_concat made with rfl | ⟨made', c, rfl⟩
    · have := hfilter.length_eq
      simp at this
    · rw [concat_eq_append, concat_eq_append] at hfilter ⊢
      rw [getLast?_append, getLast?_append]
      have hreverse := rel_reverse hfilter
      rw [reverse_append, reverse_append] at hreverse
      cases hreverse with
      | cons hof _ => exact .some hof

theorem Recorded.delivery (h : Recorded host gcm s) {r : Row} (hr : r ∈ s.store.rows) :
    ∃ c ∈ s.made, r.Of host gcm c :=
  exists_of_forall₂ (List.Forall₂.flip h.rows) hr

theorem Recorded.row (h : Recorded host gcm s) {c : Delivery} (hc : c ∈ s.made) :
    ∃ r ∈ s.store.rows, r.Of host gcm c := exists_of_forall₂ h.rows hc

theorem Recorded.made {access : EvidenceAccess} {untrusted input : EvidenceIngestInput}
    {key : List UInt8} {random : Random} {a' : EvidenceStore} {d : EvidenceDocument}
    (h : Recorded host gcm s) (hinput : Admitted host access untrusted input key)
    (hfresh : s.store.find? access.scope random.uuid = none)
    (hd : d = newDocument s.store access input (sha256Hex input.content) random.uuid)
    (hrows : a'.rows = s.store.rows ++ [newRow host gcm key random input.content d]) :
    Recorded host gcm
      { store := a', made := s.made ++ [{ access, key, content := untrusted.content, document := d }] } := by
  have hscope : d.scope = access.scope := by rw [hd]; rfl
  have hid : d.id = random.uuid := by rw [hd]; rfl
  have howner : d.privateActorId = input.privateActorId := by rw [hd]; rfl
  refine ⟨?_, ?_, ?_, ?_⟩
  · change List.Forall₂ _ a'.rows _
    rw [hrows]
    refine rel_append h.rows (.cons ?_ .nil)
    refine ⟨rfl, rfl, rfl, rfl, rfl, fun raw hraw => ?_⟩
    cases hraw
    rw [← hinput.content]
  · intro c hc
    rcases mem_append.mp hc with hc | hc
    · exact h.sound c hc
    · obtain rfl := mem_singleton.mp hc
      refine ⟨hscope, ?_, ?_, ?_, hinput.key⟩
      · change idSchema d.id = .ok d.id
        rw [hid]
        exact random.uuid_ok
      · intro p hp
        exact hinput.owner p (howner ▸ hp)
      · have hsame : d.retentionUntil = input.retentionUntil := by rw [hd]; rfl
        obtain ⟨until_, huntil⟩ := hinput.retention
        exact ⟨until_, by rw [← huntil, ← hsame]⟩
  · rw [map_append, nodup_append]
    refine ⟨h.distinct, nodup_singleton _, ?_⟩
    intro x hx y hy hxy
    obtain ⟨c, hc, rfl⟩ := mem_map.mp hx
    obtain rfl := mem_singleton.mp hy
    obtain ⟨r, hr, hof⟩ := h.row hc
    have hnone := find?_eq_none.mp hfresh r hr
    obtain ⟨hs, hi⟩ := Prod.ext_iff.mp hxy
    refine hnone ?_
    rw [and_eq_true, beq_iff_eq, beq_iff_eq, hof.scope, hof.id]
    exact ⟨hs.trans hscope, hi.trans hid⟩
  · refine linked_snoc h.linked ?_
    change d.supersedesId = ((priorOf s.made d).filter _).map _
    have hsupersedes : d.supersedesId =
        ((s.store.newest d.scope d.connectorId d.sourceId d.privateActorId).filter fun prior =>
          access.allowed .normalizedEvidence (some prior.value)).map (·.id) := by
      rw [hd]
      rfl
    rw [hsupersedes]
    have hnewest := h.newest d
    generalize s.store.newest d.scope d.connectorId d.sourceId d.privateActorId = newest at hnewest
    generalize priorOf s.made d = prior at hnewest
    cases hnewest with
    | none => rfl
    | some hof =>
      rw [filter_some, filter_some, hof.value]
      split
      · exact congrArg some hof.id
      · rfl

theorem Recorded.perform (h : Recorded host gcm s) (call : Call) :
    Recorded host gcm (s.perform host gcm call) := by
  have hchange := perform_cases host gcm s call
  generalize s.perform host gcm call = s' at hchange
  cases hchange with
  | fades hf => exact h.fades hf
  | made hinput hfresh hd hrows => exact h.made hinput hfresh hd hrows

theorem Recorded.run (h : Recorded host gcm s) (calls : List Call) :
    Recorded host gcm (s.run host gcm calls) := by
  induction calls generalizing s with
  | nil => exact h
  | cons call calls ih => exact ih (h.perform call)

theorem recorded_empty : Recorded host gcm Log.empty where
  rows := .nil
  sound _ hc := absurd hc not_mem_nil
  distinct := nodup_nil
  linked before c after h := by
    have := congrArg List.length h
    simp [Log.empty] at this

end Recording

end BalanceFrame.Archive
