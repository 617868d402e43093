import BalanceFrame.Archive.Latest

/-!
# Raw content
-/

namespace BalanceFrame.Archive

open Library Bool Option Except
open Governance (trim)

variable {access : EvidenceAccess} {a' : EvidenceStore} {identity id : String}
  {scope : EvidenceScope} {key content : List UInt8} {r : Row}

variable {host : Host} {gcm : Gcm} {s : Log}

/-! ## What is read -/

theorem allowed_owner {capability : Capability} {d : EvidenceDocument}
    (h : access.allowed capability (some d) = true) {p : String} (hp : d.privateActorId = some p)
    (hne : p ≠ "") : p = access.actorId := by
  unfold EvidenceAccess.allowed at h
  rw [bind_some, hp, any_some] at h
  by_contra hother
  rw [if_pos] at h
  · exact absurd h false_ne_true
  · rw [and_eq_true, bne_iff_ne, bne_iff_ne]
    exact ⟨hne, hother⟩

/-- The delivery whose content an access reads. -/
structure ReadsRaw (host : Host) (access : EvidenceAccess) (identity : String) (c : Delivery) :
    Prop where
  scope : c.document.scope = access.scope
  id : c.document.id = trim identity
  owner : ∀ p, c.document.privateActorId = some p → p = access.actorId
  allowed : access.allowed .rawDocument (some c.document.stored) = true
  intime : ∃ now until_, host.datetime access.now = some now ∧
    host.datetime c.document.retentionUntil = some until_ ∧ now < until_

theorem validate_now {now : Int} (h : access.validate host = .ok now) :
    host.datetime access.now = some now := by
  obtain ⟨_, h⟩ := rest_ok h
  obtain ⟨_, h⟩ := rest_ok h
  obtain ⟨_, h⟩ := rest_ok h
  obtain ⟨_, h⟩ := rest_ok h
  exact orStop_ok.mp h

theorem readRaw_cases {a : EvidenceStore}
    (h : a.readRaw host gcm access identity key = .ok (a', some content)) :
    ∃ row now, row ∈ a.rows ∧ row.scope = access.scope ∧ row.id = trim identity ∧
      host.datetime access.now = some now ∧ access.allowed .rawDocument (some row.value) = true ∧
      retained host row.value now = true ∧ row.readContent host gcm key = .ok (some content) := by
  unfold EvidenceStore.readRaw at h
  rw [bind_ok] at h
  obtain ⟨now, hvalid, h⟩ := h
  rw [bind_ok] at h
  obtain ⟨found, hfound, h⟩ := h
  cases found with
  | none =>
    have hnone := congrArg Prod.snd (ok.inj h)
    cases hnone
  | some row =>
    obtain ⟨id, hid, hfound⟩ := bind_ok.mp hfound
    have hfind : a.find? access.scope id = some row := ok.inj hfound
    have hmatch := List.find?_some hfind
    rw [and_eq_true, beq_iff_eq, beq_iff_eq] at hmatch
    dsimp only at h
    rw [bind_ok] at h
    obtain ⟨_, hallowed, h⟩ := h
    rw [reject_ok, not_eq_false'] at hallowed
    split at h
    · rename_i hretained
      rw [bind_ok] at h
      obtain ⟨read, hread, h⟩ := h
      have hcontent : read = some content := congrArg Prod.snd (ok.inj h)
      subst hcontent
      exact ⟨row, now, List.mem_of_find?_eq_some hfind, hmatch.1, hmatch.2.trans (idSchema_ok hid).1,
        validate_now hvalid, hallowed, hretained, hread⟩
    · have hnone := congrArg Prod.snd (ok.inj h)
      cases hnone

theorem readContent_ok {row : Row}
    (h : row.readContent host gcm key = .ok (some content)) : ∃ raw, row.raw = some raw ∧
      gcm.decrypt key raw.iv (row.value.associatedData host) (raw.ciphertext, raw.tag) =
        some content := by
  unfold Row.readContent at h
  cases hraw : row.raw with
  | none =>
    rw [hraw] at h
    cases h
  | some raw =>
    rw [hraw] at h
    obtain ⟨_, h⟩ := rest_ok h
    obtain ⟨read, hread, h⟩ := bind_ok.mp h
    cases h
    exact ⟨raw, rfl, orStop_ok.mp hread⟩

/-- **What is read is what was delivered**, by its owner and in time. -/
theorem Recorded.readRaw_ok (h : Recorded host gcm s)
    (hread : s.store.readRaw host gcm access identity key = .ok (a', some content)) :
    ∃ c ∈ s.made, ReadsRaw host access identity c ∧ content = c.content := by
  obtain ⟨row, now, hrow, hscope, hid, hnow, hallowed, hretained, hread⟩ := readRaw_cases hread
  obtain ⟨c, hc, hof⟩ := h.delivery hrow
  have hsound := h.sound c hc
  rw [hof.value] at hallowed hretained
  refine ⟨c, hc, ⟨hof.scope.symm.trans hscope, hof.id.symm.trans hid, fun p hp => ?_, hallowed, ?_⟩, ?_⟩
  · exact allowed_owner hallowed (d := c.document.stored) hp (hsound.owner p hp).1
  · obtain ⟨until_, huntil⟩ := hsound.retention
    refine ⟨now, until_, hnow, huntil, ?_⟩
    unfold retained at hretained
    rw [show c.document.stored.retentionUntil = c.document.retentionUntil from rfl, huntil,
      any_some, not_eq_true', decide_eq_false_iff_not] at hretained
    exact not_le.mp hretained
  · obtain ⟨raw, hraw, hopened⟩ := readContent_ok hread
    rw [hof.raw raw hraw] at hopened
    exact gcm.authentic hopened

/-- **What is kept can be read** with the key of its delivery: the associated data is the same. -/
theorem Recorded.readContent (h : Recorded host gcm s) {row : Row} (hrow : row ∈ s.store.rows) :
    ∃ c ∈ s.made, c.document.scope = row.scope ∧ c.document.id = row.id ∧
      row.value.associatedData host = c.document.associatedData host ∧
      (row.raw.isSome = true → row.readContent host gcm c.key = .ok (some c.content)) := by
  obtain ⟨c, hc, hof⟩ := h.delivery hrow
  have hdata : row.value.associatedData host = c.document.associatedData host := by
    rw [hof.value]
    exact canonical_stored host c.document
  refine ⟨c, hc, hof.scope.symm, hof.id.symm, hdata, fun hkept => ?_⟩
  obtain ⟨raw, hraw⟩ := isSome_iff_exists.mp hkept
  unfold Row.readContent
  rw [hraw]
  dsimp only
  rw [(h.sound c hc).key, hdata, hof.raw raw hraw, gcm.decrypt_encrypt]
  rfl

/-! ## What is erased -/

/-- Every row of the identity is without its content. -/
def Erased (a : EvidenceStore) (scope : EvidenceScope) (id : String) : Prop :=
  ∀ r ∈ a.rows, r.scope = scope → r.id = id → r.raw = none

theorem Fades.erased {a : EvidenceStore} (hf : Fades a a')
    (h : Erased a scope id) : Erased a' scope id := by
  intro r' hr' hscope hid
  obtain ⟨r, hr, hfade⟩ := exists_of_forall₂ hf hr'
  rcases hfade with rfl | rfl
  · exact h _ hr hscope hid
  · rfl

theorem erased_erase (a : EvidenceStore) (access : EvidenceAccess) (d : EvidenceDocument)
    (action : AuditAction) : Erased (a.erase access d action).1 access.scope d.id := by
  intro r hr hscope hid
  rw [rows_erase] at hr
  obtain ⟨q, -, rfl⟩ := List.mem_map.mp hr
  by_cases hhit : (q.scope == access.scope && q.id == d.id) = true
  · rw [if_pos hhit]
  · rw [if_neg hhit] at hscope hid
    rw [hscope, hid, beq_self_eq_true, beq_self_eq_true] at hhit
    exact absurd rfl hhit

theorem erased_foldl {α : Type} {f : EvidenceStore → α → EvidenceStore} {s : α → EvidenceScope}
    {i : α → String} (hfades : ∀ a x, Fades a (f a x))
    (hf : ∀ a x, Erased (f a x) (s x) (i x)) {l : List α} {x : α} (hx : x ∈ l)
    (a : EvidenceStore) : Erased (l.foldl f a) (s x) (i x) := by
  induction l generalizing a with
  | nil => cases hx
  | cons y l ih =>
    rcases List.mem_cons.mp hx with rfl | hx
    · exact (fades_foldl hfades l (f a x)).erased (hf a x)
    · exact ih hx (f a y)

theorem Recorded.erased (h : Recorded host gcm s) (hr : r ∈ s.store.rows)
    (hraw : r.raw = none) : Erased s.store r.scope r.id := by
  intro q hq hscope hid
  have hfound := h.find? hq
  rw [hscope, hid, h.find? hr] at hfound
  rw [← some.inj hfound]
  exact hraw

theorem Recorded.deleteRaw_erased (h : Recorded host gcm s) {b : Bool}
    (hdelete : s.store.deleteRaw host access identity = .ok (a', b)) :
    Erased a' access.scope (trim identity) := by
  obtain ⟨_, hdelete⟩ := rest_ok hdelete
  obtain ⟨found, hfound, hdelete⟩ := bind_ok.mp hdelete
  obtain ⟨id, hid, hfound⟩ := bind_ok.mp hfound
  have hfind : s.store.find? access.scope id = found := ok.inj hfound
  rw [← (idSchema_ok hid).1]
  cases found with
  | none =>
    cases hdelete
    intro r hr hscope hrid
    have := List.find?_eq_none.mp hfind r hr
    rw [hscope, hrid] at this
    simp at this
  | some row =>
    obtain ⟨_, hdelete⟩ := rest_ok hdelete
    obtain rfl : (s.store.erase access row.value .rawDeleted).1 = a' :=
      congrArg Prod.fst (ok.inj hdelete)
    obtain ⟨c, -, hof⟩ := h.delivery (List.mem_of_find?_eq_some hfind)
    have hmatch := List.find?_some hfind
    rw [and_eq_true, beq_iff_eq, beq_iff_eq] at hmatch
    have hvalue : row.value.id = id := by
      rw [hof.value, ← hmatch.2, hof.id]
      rfl
    rw [← hvalue]
    exact erased_erase s.store access row.value .rawDeleted

theorem Recorded.expireRaw_erased (h : Recorded host gcm s) {now : String}
    {n : Nat} (hexpire : s.store.expireRaw host now = .ok (a', n))
    (hr : r ∈ s.store.rows) (hdue : r.due host now = true) : Erased a' r.scope r.id := by
  obtain ⟨_, hexpire⟩ := rest_ok hexpire
  have hstore : ∀ (l : List Row) (t : EvidenceStore × Nat),
      (l.foldl (EvidenceStore.expireNext now) t).1 = l.foldl (fun a r =>
        (a.erase (systemAccess r.value "system:retention" now false) r.value .rawExpired).1) t.1 := by
    intro l
    induction l with
    | nil => exact fun t => rfl
    | cons q l ih => exact fun t => ih (EvidenceStore.expireNext now t q)
  obtain rfl : ((s.store.rows.filter fun r => r.due host now).foldl
      (EvidenceStore.expireNext now) (s.store, 0)).1 = a' :=
    congrArg Prod.fst (ok.inj hexpire)
  obtain ⟨c, -, hof⟩ := h.delivery hr
  have hvalue : r.value.scope = r.scope ∧ r.value.id = r.id := by
    rw [hof.value, hof.scope, hof.id]
    exact ⟨rfl, rfl⟩
  rw [hstore, ← hvalue.1, ← hvalue.2]
  exact erased_foldl (s := fun r : Row => r.value.scope) (i := fun r : Row => r.value.id)
    (fun _ _ => fades_erase _ _ _ _) (fun a r => erased_erase a _ r.value .rawExpired)
    (List.mem_filter.mpr ⟨hr, hdue⟩) s.store

theorem Recorded.quarantine_erased (h : Recorded host gcm s) {now : String}
    (hquarantine : s.store.quarantineRestore host now = .ok a')
    (hr : r ∈ s.store.rows) : Erased a' r.scope r.id := by
  cases hraw : r.raw with
  | none => exact (fades_quarantineRestore hquarantine).erased (h.erased hr hraw)
  | some raw =>
    obtain ⟨_, hquarantine⟩ := rest_ok hquarantine
    cases hquarantine
    obtain ⟨c, -, hof⟩ := h.delivery hr
    have hvalue : r.value.scope = r.scope ∧ r.value.id = r.id := by
      rw [hof.value, hof.scope, hof.id]
      exact ⟨rfl, rfl⟩
    rw [← hvalue.1, ← hvalue.2]
    exact erased_foldl (s := fun r : Row => r.value.scope) (i := fun r : Row => r.value.id)
      (fun _ _ => fades_erase _ _ _ _) (fun a r => erased_erase a _ r.value .rawDeleted)
      (List.mem_filter.mpr ⟨hr, by rw [hraw]; rfl⟩) s.store

/-! ## Runs -/

/-- A document is in the archive, and its content is not. -/
structure Lost (s : Log) (scope : EvidenceScope) (id : String) : Prop where
  row : ∃ r ∈ s.store.rows, r.scope = scope ∧ r.id = id
  erased : Erased s.store scope id

theorem Lost.perform (h : Lost s scope id) (call : Call) : Lost (s.perform host gcm call) scope id := by
  obtain ⟨⟨r, hr, hscope, hid⟩, herased⟩ := h
  have hchange := perform_cases host gcm s call
  generalize s.perform host gcm call = s' at hchange
  cases hchange with
  | fades hf =>
    refine ⟨?_, hf.erased herased⟩
    obtain ⟨r', hr', hfade⟩ := exists_of_forall₂ (List.Forall₂.flip hf) hr
    rcases hfade with rfl | rfl
    · exact ⟨_, hr', hscope, hid⟩
    · exact ⟨_, hr', hscope, hid⟩
  | made hinput hfresh hd hrows =>
    refine ⟨⟨r, by rw [hrows]; exact List.mem_append_left _ hr, hscope, hid⟩, ?_⟩
    intro q hq hqscope hqid
    rw [hrows] at hq
    rcases List.mem_append.mp hq with hq | hq
    · exact herased q hq hqscope hqid
    · -- the identity of a new row is not one of a row
      obtain rfl := List.mem_singleton.mp hq
      subst hd
      have hother := List.find?_eq_none.mp hfresh r hr
      rw [hscope, hid, ← hqscope, ← hqid] at hother
      exact absurd hother (by simp [newRow, newDocument])

theorem Lost.run (h : Lost s scope id) (calls : List Call) : Lost (s.run host gcm calls) scope id := by
  induction calls generalizing s with
  | nil => exact h
  | cons call calls ih => exact ih (h.perform call)

theorem Lost.not_read (h : Lost s scope id) (hscope : access.scope = scope)
    (hid : trim identity = id) (key : List UInt8) (a' : EvidenceStore) (content : List UInt8) :
    s.store.readRaw host gcm access identity key ≠ .ok (a', some content) := by
  intro hread
  obtain ⟨row, now, hrow, hrscope, hrid, -, -, -, hcontent⟩ := readRaw_cases hread
  obtain ⟨raw, hraw, -⟩ := readContent_ok hcontent
  rw [h.erased row hrow (hrscope.trans hscope) (hrid.trans hid)] at hraw
  cases hraw

/-- The archive keeps raw content exactly, until it is erased. -/
structure KeepsRaw (host : Host) (gcm : Gcm) (s : Log) : Prop where
  /-- What is read is what was delivered, by its owner and in time. -/
  exact_ : ∀ access identity key a' content,
    s.store.readRaw host gcm access identity key = .ok (a', some content) →
      ∃ c ∈ s.made, ReadsRaw host access identity c ∧ content = c.content
  /-- What is kept can be read: its associated data is that of its encryption. -/
  readable : ∀ row ∈ s.store.rows, ∃ c ∈ s.made,
    c.document.scope = row.scope ∧ c.document.id = row.id ∧
      row.value.associatedData host = c.document.associatedData host ∧
      (row.raw.isSome = true → row.readContent host gcm c.key = .ok (some c.content))
  deleted : ∀ access identity a' b, s.store.deleteRaw host access identity = .ok (a', b) →
    Erased a' access.scope (trim identity)
  expired : ∀ now a' n, s.store.expireRaw host now = .ok (a', n) →
    ∀ r ∈ s.store.rows, r.due host now = true → Erased a' r.scope r.id
  quarantined : ∀ now a', s.store.quarantineRestore host now = .ok a' →
    ∀ r ∈ s.store.rows, Erased a' r.scope r.id
  /-- What is erased stays erased. -/
  lost : ∀ scope id, Lost s scope id → ∀ calls access identity key a' content,
    access.scope = scope → trim identity = id →
      (s.run host gcm calls).store.readRaw host gcm access identity key ≠ .ok (a', some content)

/-- **Raw content is exact while it is kept and gone once it is erased**, in every state of every
run. -/
theorem raw_exact (host : Host) (gcm : Gcm) (calls : List Call) :
    KeepsRaw host gcm (Log.empty.run host gcm calls) := by
  have h : Recorded host gcm (Log.empty.run host gcm calls) := recorded_empty.run calls
  exact
    { exact_ := fun _ _ _ _ _ hread => h.readRaw_ok hread
      readable := fun _ hrow => h.readContent hrow
      deleted := fun _ _ _ _ hdelete => h.deleteRaw_erased hdelete
      expired := fun _ _ _ hexpire _ hr hdue => h.expireRaw_erased hexpire hr hdue
      quarantined := fun _ _ hquarantine _ hr => h.quarantine_erased hquarantine hr
      lost := fun _ _ hlost later _ _ key a' content hscope hid =>
        (hlost.run later).not_read hscope hid key a' content }

end BalanceFrame.Archive
