import BalanceFrame.Governance.Payload

/-!
# What the walks over a payload find

`Within` is the relation "at any depth of". The two walks of `Payload.lean` are told apart from it:
`NamedIn` says which resources a value names, `operationObjects` which operations it holds, without
the checks at which the walks stop.
-/

namespace BalanceFrame.Governance

open Library List
open Liquidity (Json)
open Liquidity.Json (get? asStr)

variable {ref : ResourceRef} {o entries : Entries} {rs : List ResourceRef}
  {ops : List PayloadOperation} {op : PayloadOperation} {totals : List (String × Nat)}

theorem bind_asStr {x : Option Json} {s : String} :
    x.bind asStr = some s ↔ x = some (.string s) := by
  cases x with
  | none => simp
  | some v => cases v <;> simp [asStr]

/-- `inner` stands in `outer`, at any depth. -/
inductive Within (inner : Json) : Json → Prop
  | here : Within inner inner
  | item {value : Json} {values : List Json} :
    value ∈ values → Within inner value → Within inner (.array values)
  | entry {key : String} {value : Json} {entries : Entries} :
    (key, value) ∈ entries → Within inner value → Within inner (.object entries)

theorem within_array {values : List Json} :
    Within (.object o) (.array values) ↔ ∃ v ∈ values, Within (.object o) v := by
  constructor
  · intro h
    cases h with
    | item hv h => exact ⟨_, hv, h⟩
  · rintro ⟨v, hv, h⟩
    exact .item hv h

theorem within_object : Within (.object o) (.object entries) ↔
      o = entries ∨ ∃ e ∈ entries, Within (.object o) e.2 := by
  constructor
  · intro h
    cases h with
    | here => exact .inl rfl
    | entry he h => exact .inr ⟨_, he, h⟩
  · rintro (rfl | ⟨e, he, h⟩)
    · exact .here
    · exact .entry he h

/-! ## Resources -/

/-- What an object names itself: by an id field, by a kind and an id, or as a claim effect. -/
inductive Names (entries : Entries) (ref : ResourceRef) : Prop
  | idField {key : String} : (key, ref.resourceKind) ∈ fieldKinds →
    get? entries key = some (.string ref.resourceId) → Names entries ref
  | pair {kind : String} : get? entries "resourceKind" = some (.string kind) →
    ResourceKind.ofText kind = some ref.resourceKind →
    get? entries "resourceId" = some (.string ref.resourceId) → Names entries ref
  | effect {kind : String} : get? entries "resourceKind" = none →
    get? entries "kind" = some (.string kind) → effectKinds kind = some ref.resourceKind →
    get? entries "resourceId" = some (.string ref.resourceId) → Names entries ref

/-- A resource named somewhere in a value. -/
def NamedIn (value : Json) (ref : ResourceRef) : Prop :=
  ∃ entries, Within (.object entries) value ∧ Names entries ref

theorem namedIn_array {values : List Json} :
    NamedIn (.array values) ref ↔ ∃ v ∈ values, NamedIn v ref := by
  simp only [NamedIn, within_array]
  constructor
  · rintro ⟨o, ⟨v, hv, h⟩, hn⟩
    exact ⟨v, hv, o, h, hn⟩
  · rintro ⟨v, hv, o, h, hn⟩
    exact ⟨o, ⟨v, hv, h⟩, hn⟩

theorem namedIn_object :
    NamedIn (.object entries) ref ↔ Names entries ref ∨ ∃ e ∈ entries, NamedIn e.2 ref := by
  simp only [NamedIn, within_object]
  constructor
  · rintro ⟨o, rfl | ⟨e, he, h⟩, hn⟩
    · exact .inl hn
    · exact .inr ⟨e, he, o, h, hn⟩
  · rintro (hn | ⟨e, he, o, h, hn⟩)
    · exact ⟨entries, .inl rfl, hn⟩
    · exact ⟨o, .inr ⟨e, he, h⟩, hn⟩

theorem resourceRef_eq_some {kind : ResourceKind} {id : String}
    (h : resourceRef kind id = some ref) : ref = ⟨kind, id⟩ := by
  unfold resourceRef at h
  split at h
  · cases h
  · exact (Option.some.inj h).symm

theorem mem_pairResource (h : pairResource entries = some rs) : ref ∈ rs ↔
      (∃ kind, get? entries "resourceKind" = some (.string kind) ∧
        ResourceKind.ofText kind = some ref.resourceKind ∧
        get? entries "resourceId" = some (.string ref.resourceId)) ∨
      (get? entries "resourceKind" = none ∧ ∃ kind, get? entries "kind" = some (.string kind) ∧
        effectKinds kind = some ref.resourceKind ∧
        get? entries "resourceId" = some (.string ref.resourceId)) := by
  unfold pairResource at h
  split at h
  · next hk hi =>
    cases h
    simp [hk, hi]
  · next kind id hk hi =>
    obtain ⟨r, hr, rfl⟩ := Option.map_eq_some_iff.mp h
    obtain ⟨k, hkind, hr⟩ := Option.bind_eq_some_iff.mp hr
    rw [resourceRef_eq_some hr, mem_singleton]
    constructor
    · rintro rfl
      exact .inl ⟨kind, hk, hkind, hi⟩
    · rintro (⟨kind', hk', hkind', hi'⟩ | ⟨hk', -⟩)
      · rw [hk] at hk'
        rw [hi] at hi'
        cases hk'
        cases hi'
        rw [hkind] at hkind'
        cases hkind'
        rfl
      · rw [hk] at hk'
        cases hk'
  · next id hk hi =>
    obtain ⟨r, hr, rfl⟩ := Option.map_eq_some_iff.mp h
    obtain ⟨k, hkind, hr⟩ := Option.bind_eq_some_iff.mp hr
    obtain ⟨word, hword, hkind⟩ := Option.bind_eq_some_iff.mp hkind
    have hv := bind_asStr.mp hword
    rw [resourceRef_eq_some hr, mem_singleton]
    constructor
    · rintro rfl
      exact .inr ⟨hk, word, hv, hkind, hi⟩
    · rintro (⟨kind', hk', -⟩ | ⟨-, kind', hv', hkind', hi'⟩)
      · rw [hk] at hk'
        cases hk'
      · rw [hv] at hv'
        rw [hi] at hi'
        cases hv'
        cases hi'
        rw [hkind] at hkind'
        cases hkind'
        rfl
  · cases h

theorem mem_fieldResource {fk : String × ResourceKind} (h : fieldResource entries fk = some rs) :
    ref ∈ rs ↔ ref.resourceKind = fk.2 ∧ get? entries fk.1 = some (.string ref.resourceId) := by
  unfold fieldResource at h
  split at h
  · next hg =>
    cases h
    simp [hg]
  · next hg =>
    cases h
    simp [hg]
  · next id hg =>
    obtain ⟨r, hr, rfl⟩ := Option.map_eq_some_iff.mp h
    rw [resourceRef_eq_some hr, mem_singleton, hg]
    constructor
    · rintro rfl
      exact ⟨rfl, rfl⟩
    · rintro ⟨hk, hi⟩
      cases hi
      rw [← hk]
  · cases h

theorem mem_mapM_flatten {α β : Type} {f : α → Option (List β)} {b : β} :
    ∀ {l : List α} {rs : List (List β)}, l.mapM f = some rs →
      (b ∈ rs.flatten ↔ ∃ a ∈ l, ∃ r, f a = some r ∧ b ∈ r)
  | [], rs, h => by
    cases h
    simp
  | a :: l, rs, h => by
    simp only [mapM_cons, Option.bind_eq_bind, Option.bind_eq_some_iff] at h
    obtain ⟨r, hr, rest, hrest, h⟩ := h
    cases h
    rw [flatten_cons, mem_append, mem_mapM_flatten hrest]
    constructor
    · rintro (hb | ⟨x, hx, y, hy, hb⟩)
      · exact ⟨a, mem_cons_self, r, hr, hb⟩
      · exact ⟨x, mem_cons_of_mem _ hx, y, hy, hb⟩
    · rintro ⟨x, hx, y, hy, hb⟩
      rcases mem_cons.mp hx with rfl | hx
      · rw [hr] at hy
        cases hy
        exact .inl hb
      · exact .inr ⟨x, hx, y, hy, hb⟩

theorem mapM_some_mem {α β : Type} {f : α → Option β} :
    ∀ {l : List α} {rs : List β}, l.mapM f = some rs → ∀ a ∈ l, ∃ r, f a = some r
  | [], _, _, _, ha => absurd ha not_mem_nil
  | a :: l, rs, h, x, hx => by
    simp only [mapM_cons, Option.bind_eq_bind, Option.bind_eq_some_iff] at h
    obtain ⟨r, hr, rest, hrest, -⟩ := h
    rcases mem_cons.mp hx with rfl | hx
    · exact ⟨r, hr⟩
    · exact mapM_some_mem hrest x hx

theorem mem_ownResources (h : ownResources entries = some rs) : ref ∈ rs ↔ Names entries ref := by
  simp only [ownResources, Option.bind_eq_bind, Option.bind_eq_some_iff] at h
  obtain ⟨pair, hpair, fields, hfields, h⟩ := h
  cases h
  rw [mem_append, mem_pairResource hpair, mem_mapM_flatten hfields]
  constructor
  · rintro ((⟨kind, hk, ht, hi⟩ | ⟨hn, kind, hk, ht, hi⟩) | ⟨fk, hfk, r, hr, hm⟩)
    · exact .pair hk ht hi
    · exact .effect hn hk ht hi
    · obtain ⟨hkind, hid⟩ := (mem_fieldResource hr).mp hm
      exact .idField (by rw [hkind]; exact hfk : (fk.1, _) ∈ fieldKinds) hid
  · rintro (⟨hmem, hid⟩ | ⟨hk, ht, hi⟩ | ⟨hn, hk, ht, hi⟩)
    · obtain ⟨r, hr⟩ := mapM_some_mem hfields _ hmem
      exact .inr ⟨_, hmem, r, hr, (mem_fieldResource hr).mpr ⟨rfl, hid⟩⟩
    · exact .inl (.inl ⟨_, hk, ht, hi⟩)
    · exact .inl (.inr ⟨hn, _, hk, ht, hi⟩)

mutual

theorem mem_visitResources : ∀ {v : Json} {rs : List ResourceRef}, visitResources v = some rs →
      (ref ∈ rs ↔ NamedIn v ref)
  | .null, rs, h | .bool _, rs, h | .number _, rs, h | .string _, rs, h => by
    cases h
    constructor
    · intro h
      cases h
    · rintro ⟨o, h, -⟩
      cases h
  | .array values, rs, h => by
    rw [visitResources] at h
    rw [namedIn_array, mem_visitResourceValues h]
  | .object entries, rs, h => by
    simp only [visitResources, Option.bind_eq_bind, Option.bind_eq_some_iff] at h
    obtain ⟨own, hown, below, hbelow, h⟩ := h
    cases h
    rw [mem_append, mem_ownResources hown, mem_visitResourceEntries hbelow, namedIn_object]

theorem mem_visitResourceValues :
    ∀ {values : List Json} {rs : List ResourceRef}, visitResourceValues values = some rs →
      (ref ∈ rs ↔ ∃ v ∈ values, NamedIn v ref)
  | [], rs, h => by
    cases h
    simp
  | v :: rest, rs, h => by
    simp only [visitResourceValues, Option.bind_eq_bind, Option.bind_eq_some_iff] at h
    obtain ⟨here, hhere, below, hbelow, h⟩ := h
    cases h
    rw [mem_append, mem_visitResources hhere, mem_visitResourceValues hbelow,
      exists_mem_cons_iff]

theorem mem_visitResourceEntries : ∀ {entries : List (String × Json)} {rs : List ResourceRef},
      visitResourceEntries entries = some rs → (ref ∈ rs ↔ ∃ e ∈ entries, NamedIn e.2 ref)
  | [], rs, h => by
    cases h
    simp
  | (key, v) :: rest, rs, h => by
    simp only [visitResourceEntries, Option.bind_eq_bind, Option.bind_eq_some_iff] at h
    obtain ⟨here, hhere, below, hbelow, h⟩ := h
    cases h
    rw [mem_append, mem_visitResources hhere, mem_visitResourceEntries hbelow,
      exists_mem_cons_iff]

end

/-- **The walk finds what is named at some depth, and nothing else.** -/
theorem mem_payloadResources {payload : Json}
    (h : payloadResources payload = some rs) : ref ∈ rs ↔ NamedIn payload ref :=
  mem_visitResources h

/-! ## Operations -/

mutual

/-- The objects with the key `operation`, in the order of the walk. -/
def operationObjects : Json → List Entries
  | .array values => operationObjectsOf values
  | .object entries =>
    (if (get? entries "operation").isSome then [entries] else []) ++ operationObjectsIn entries
  | _ => []

def operationObjectsOf : List Json → List Entries
  | [] => []
  | value :: rest => operationObjects value ++ operationObjectsOf rest

def operationObjectsIn : List (String × Json) → List Entries
  | [] => []
  | (_, value) :: rest => operationObjects value ++ operationObjectsIn rest

end

mutual

theorem mem_operationObjects : ∀ {v : Json}, o ∈ operationObjects v ↔
      Within (.object o) v ∧ (get? o "operation").isSome = true
  | .null | .bool _ | .number _ | .string _ => by
    constructor
    · intro h
      cases h
    · rintro ⟨h, -⟩
      cases h
  | .array values => by rw [operationObjects, mem_operationObjectsOf, within_array]
  | .object entries => by
    rw [operationObjects, mem_append, mem_operationObjectsIn, within_object]
    constructor
    · rintro (h | ⟨h, hop⟩)
      · split at h
        · next hop =>
          rw [mem_singleton] at h
          exact ⟨.inl h, h ▸ hop⟩
        · cases h
      · exact ⟨.inr h, hop⟩
    · rintro ⟨rfl | h, hop⟩
      · exact .inl (by rw [if_pos hop]; exact mem_singleton_self _)
      · exact .inr ⟨h, hop⟩

theorem mem_operationObjectsOf : ∀ {values : List Json}, o ∈ operationObjectsOf values ↔
      (∃ v ∈ values, Within (.object o) v) ∧ (get? o "operation").isSome = true
  | [] => by simp [operationObjectsOf]
  | v :: rest => by
    rw [operationObjectsOf, mem_append, mem_operationObjects, mem_operationObjectsOf,
      exists_mem_cons_iff, or_and_right]

theorem mem_operationObjectsIn :
    ∀ {entries : List (String × Json)}, o ∈ operationObjectsIn entries ↔
      (∃ e ∈ entries, Within (.object o) e.2) ∧ (get? o "operation").isSome = true
  | [] => by simp [operationObjectsIn]
  | (key, v) :: rest => by
    rw [operationObjectsIn, mem_append, mem_operationObjects, mem_operationObjectsIn,
      exists_mem_cons_iff, or_and_right]

end

/-- The walk read every object. -/
abbrev Reads (ops : List PayloadOperation) (objects : List Entries) : Prop :=
  List.Forall₂ (fun op o => readOperation o = some op) ops objects

theorem ownOperation_reads (h : ownOperation entries = some ops) :
    Reads ops (if (get? entries "operation").isSome then [entries] else []) := by
  unfold ownOperation at h
  split at h
  · next hop =>
    obtain ⟨op, hread, rfl⟩ := Option.map_eq_some_iff.mp h
    rw [if_pos hop]
    exact .cons hread .nil
  · next hop =>
    cases h
    rw [if_neg hop]
    exact .nil

mutual

theorem visitOperations_reads :
    ∀ {v : Json} {ops : List PayloadOperation}, visitOperations v = some ops →
      Reads ops (operationObjects v)
  | .null, _, h | .bool _, _, h | .number _, _, h | .string _, _, h => by
    cases h
    exact .nil
  | .array values, ops, h => by
    rw [visitOperations] at h
    exact visitOperationValues_reads h
  | .object entries, ops, h => by
    simp only [visitOperations, Option.bind_eq_bind, Option.bind_eq_some_iff] at h
    obtain ⟨own, hown, below, hbelow, h⟩ := h
    cases h
    exact rel_append (ownOperation_reads hown) (visitOperationEntries_reads hbelow)

theorem visitOperationValues_reads :
    ∀ {values : List Json} {ops : List PayloadOperation}, visitOperationValues values = some ops →
      Reads ops (operationObjectsOf values)
  | [], _, h => by
    cases h
    exact .nil
  | v :: rest, ops, h => by
    simp only [visitOperationValues, Option.bind_eq_bind, Option.bind_eq_some_iff] at h
    obtain ⟨here, hhere, below, hbelow, h⟩ := h
    cases h
    exact rel_append (visitOperations_reads hhere) (visitOperationValues_reads hbelow)

theorem visitOperationEntries_reads :
    ∀ {entries : List (String × Json)} {ops : List PayloadOperation},
      visitOperationEntries entries = some ops → Reads ops (operationObjectsIn entries)
  | [], _, h => by
    cases h
    exact .nil
  | (key, v) :: rest, ops, h => by
    simp only [visitOperationEntries, Option.bind_eq_bind, Option.bind_eq_some_iff] at h
    obtain ⟨here, hhere, below, hbelow, h⟩ := h
    cases h
    exact rel_append (visitOperations_reads hhere) (visitOperationEntries_reads hbelow)

end

/-- The operation objects of a payload: those under its `operations`. -/
def payloadOperations (payload : Json) : List Entries :=
  ((field payload "operations").map operationObjects).getD []

theorem operationList_reads {payload : Json}
    (h : operationList (field payload "operations") = some ops) :
    Reads ops (payloadOperations payload) := by
  unfold operationList at h
  split at h
  · next values hfield =>
    rw [payloadOperations, hfield]
    exact visitOperationValues_reads h
  · cases h

theorem readOperation_eq_some (h : readOperation o = some op) :
    get? o "operation" = some (.string op.operation) ∧
      readDirection (get? o "direction") = some op.direction ∧
      readAmount (get? o "amount") = some op.amount := by
  simp only [readOperation, Option.bind_eq_bind] at h
  obtain ⟨name, hname, h⟩ := Option.bind_eq_some_iff.mp h
  split at h
  · cases h
  · simp only [Option.bind_eq_some_iff] at h
    obtain ⟨direction, hdir, amount, hamount, h⟩ := h
    cases h
    exact ⟨bind_asStr.mp hname, hdir, hamount⟩

/-- The name of an operation of the payload. -/
def OperationName (payload : Json) (name : String) : Prop :=
  ∃ o ∈ payloadOperations payload, get? o "operation" = some (.string name)

/-! ## Totals -/

/-- The currency and amount of an outgoing operation object. -/
def outgoing (o : Entries) : Option (String × Nat) :=
  match get? o "direction", get? o "amount" with
  | some (.string "outgoing"), some (.object amount) => do
    let currency ← (get? amount "currency").bind asStr
    let minor ← ((get? amount "minorUnits").bind asStr).bind decimal
    some (currency, minor)
  | _, _ => none

/-- The same of an operation that was read. -/
def PayloadOperation.outgoing (op : PayloadOperation) : Option (String × Nat) :=
  if op.direction = some .outgoing then op.amount else none

theorem outgoing_read (h : readOperation o = some op) : Governance.outgoing o = op.outgoing := by
  obtain ⟨-, hdir, hamount⟩ := readOperation_eq_some h
  unfold PayloadOperation.outgoing Governance.outgoing
  revert hdir hamount
  generalize get? o "direction" = d
  generalize get? o "amount" = a
  intro hdir hamount
  unfold readDirection at hdir
  split at hdir
  · rw [← Option.some.inj hdir, if_neg (fun h => nomatch h)]
  · rw [← Option.some.inj hdir, if_neg (fun h => nomatch h)]
    simp
  · rw [← Option.some.inj hdir, if_pos rfl]
    unfold readAmount at hamount
    split at hamount
    · rw [← Option.some.inj hamount]
      simp
    · simp only [Option.bind_eq_bind, Option.bind_eq_some_iff] at hamount
      obtain ⟨currency, hc, minor, hm, h⟩ := hamount
      split at h
      · rw [← Option.some.inj h]
        simp only [safeMinor, Option.bind_eq_bind, Option.bind_eq_some_iff] at hm
        obtain ⟨s, hs, n, hn, hle⟩ := hm
        split at hle
        · cases hle
          simp only [Option.bind_eq_bind, Option.bind_eq_some_iff.mpr hc,
            Option.bind_eq_some_iff.mpr hs, Option.bind_some, hn]
        · cases hle
      · cases h
    · cases hamount
  · cases hdir

/-- The gross outgoing amount of a currency. -/
def grossOf (amounts : List (String × Nat)) (currency : String) : Nat :=
  ((amounts.filter (·.1 == currency)).map Prod.snd).sum

theorem grossOf_cons (e : String × Nat) (amounts : List (String × Nat)) (currency : String) :
    grossOf (e :: amounts) currency =
      (if e.1 = currency then e.2 else 0) + grossOf amounts currency := by
  unfold grossOf
  by_cases h : e.1 = currency
  · rw [filter_cons_of_pos (by simpa using h), map_cons, sum_cons, if_pos h]
  · rw [filter_cons_of_neg (by simpa using h), if_neg h, Nat.zero_add]

theorem totalOf_setTotal (totals : List (String × Nat)) (currency c : String) (n : Nat) :
    totalOf (setTotal totals currency n) c = if c = currency then n else totalOf totals c := by
  unfold totalOf setTotal
  rw [find?_append, find?_filter]
  by_cases h : c = currency
  · subst h
    rw [if_pos rfl, find?_eq_none.mpr fun e _ => by simp]
    simp
  · rw [if_neg h]
    have hsame : (fun e : String × Nat => decide ((e.1 != currency) = true ∧ (e.1 == c) = true)) =
        fun e => e.1 == c := by
      funext e
      by_cases he : e.1 = c
      · simp [he, h]
      · simp [he]
    rw [hsame]
    cases totals.find? fun e => e.1 == c with
    | none => simp [Ne.symm h]
    | some e => simp

theorem mem_setTotal {currency : String} {n : Nat} {e : String × Nat} :
    e ∈ setTotal totals currency n ↔ (e ∈ totals ∧ e.1 ≠ currency) ∨ e = (currency, n) := by
  simp [setTotal]

/-- A table of totals: every entry is the total of its currency. -/
def Totals (totals : List (String × Nat)) : Prop := ∀ e ∈ totals, e.2 = totalOf totals e.1

theorem totals_setTotal (h : Totals totals) (currency : String)
    (n : Nat) : Totals (setTotal totals currency n) := by
  intro e he
  rw [totalOf_setTotal]
  rcases mem_setTotal.mp he with ⟨he, hne⟩ | rfl
  · rw [if_neg hne, h e he]
  · rw [if_pos rfl]

theorem foldlM_addTotal :
    ∀ {ops : List PayloadOperation} {totals totals' : List (String × Nat)}, Totals totals →
      ops.foldlM addTotal totals = some totals' →
      Totals totals' ∧
      (∀ c, totalOf totals' c = totalOf totals c + grossOf (ops.filterMap (·.outgoing)) c) ∧
      ∀ c, (∃ e ∈ totals', e.1 = c) ↔
        (∃ e ∈ totals, e.1 = c) ∨ ∃ e ∈ ops.filterMap (·.outgoing), e.1 = c
  | [], _, _, ht, h => by
    cases h
    exact ⟨ht, fun c => rfl, fun c => by simp⟩
  | op :: ops, totals, totals', ht, h => by
    rw [foldlM_cons] at h
    obtain ⟨t, hstep, h⟩ := Option.bind_eq_some_iff.mp h
    unfold addTotal at hstep
    split at hstep
    · next hdir =>
      simp only [Option.bind_eq_bind, Option.bind_eq_some_iff] at hstep
      obtain ⟨⟨currency, amount⟩, hamount, hstep⟩ := hstep
      have hout : op.outgoing = some (currency, amount) := by
        rw [PayloadOperation.outgoing, if_pos hdir, hamount]
      split at hstep
      · cases hstep
        obtain ⟨htotals, hsum, hkeys⟩ := foldlM_addTotal (totals_setTotal ht currency _) h
        refine ⟨htotals, fun c => ?_, fun c => ?_⟩
        · rw [hsum, totalOf_setTotal, filterMap_cons_some hout, grossOf_cons]
          by_cases hc : c = currency
          · subst hc
            rw [if_pos rfl, if_pos rfl, Nat.add_assoc]
          · rw [if_neg hc, if_neg (Ne.symm hc), Nat.zero_add]
        · rw [hkeys, filterMap_cons_some hout, exists_mem_cons_iff, ← or_assoc]
          refine or_congr_left ?_
          constructor
          · rintro ⟨e, he, rfl⟩
            rcases mem_setTotal.mp he with ⟨he, -⟩ | rfl
            · exact .inl ⟨e, he, rfl⟩
            · exact .inr rfl
          · rintro (⟨e, he, rfl⟩ | rfl)
            · by_cases hc : e.1 = currency
              · exact ⟨_, mem_setTotal.mpr (.inr rfl), hc.symm⟩
              · exact ⟨e, mem_setTotal.mpr (.inl ⟨he, hc⟩), rfl⟩
            · exact ⟨_, mem_setTotal.mpr (.inr rfl), rfl⟩
      · cases hstep
    · next hdir =>
      cases hstep
      have hout : op.outgoing = none := by rw [PayloadOperation.outgoing, if_neg hdir]
      rw [filterMap_cons_none hout]
      exact foldlM_addTotal ht h

theorem financialTotals_spec (h : financialTotals ops = some totals) :
    (∀ c, totalOf totals c = grossOf (ops.filterMap (·.outgoing)) c) ∧
      ∀ e ∈ ops.filterMap (·.outgoing), ∃ n, (e.1, n) ∈ totals := by
  obtain ⟨-, hsum, hkeys⟩ := foldlM_addTotal (fun _ he => absurd he not_mem_nil) h
  refine ⟨fun c => (hsum c).trans (Nat.zero_add _), fun e he => ?_⟩
  obtain ⟨x, hx, hxe⟩ := (hkeys e.1).mpr (.inr ⟨e, he, rfl⟩)
  exact ⟨x.2, hxe ▸ hx⟩

/-- The outgoing amounts of a payload. -/
def payloadOutgoing (payload : Json) : List (String × Nat) :=
  (payloadOperations payload).filterMap outgoing

theorem filterMap_outgoing_of_reads :
    ∀ {ops : List PayloadOperation} {objects : List Entries}, Reads ops objects →
      ops.filterMap (·.outgoing) = objects.filterMap outgoing
  | _, _, .nil => rfl
  | _, _, .cons h hrest => by
    rw [filterMap_cons, filterMap_cons, outgoing_read h,
      filterMap_outgoing_of_reads hrest]

/-! ## The prepared payload -/

theorem prepareOperation_spec {p p' : PreparedPayload} (h : prepareOperation p op = .ok p') :
    p'.operationNames = p.operationNames ++ [op.operation] ∧
      p'.operationCount = p.operationCount ∧ p'.accountIds = p.accountIds ∧
      p'.categoryIds = p.categoryIds ∧ p'.gross = p.gross := by
  unfold prepareOperation at h
  split at h
  · obtain ⟨scope, -, h⟩ := bind_ok.mp h
    split at h <;> cases h <;> exact ⟨rfl, rfl, rfl, rfl, rfl⟩
  · cases h
    exact ⟨rfl, rfl, rfl, rfl, rfl⟩

/-- **The complete payload**: its operations, its accounts and categories, and its totals. -/
theorem prepareAuthorizationPayload_spec {operation : String}
    {resources : List ResourceRef} {gross : List (String × Nat)} {p : PreparedPayload}
    (h : prepareAuthorizationPayload operation ops resources gross = .ok p) :
    p.operationNames = operation :: ops.map (·.operation) ∧ p.operationCount = ops.length ∧
      (∀ id, id ∈ p.accountIds ↔ (⟨.account, id⟩ : ResourceRef) ∈ resources) ∧
      (∀ id, id ∈ p.categoryIds ↔ (⟨.category, id⟩ : ResourceRef) ∈ resources) ∧
      p.gross = gross := by
  have hmem : ∀ (kind : ResourceKind) (id : String),
      id ∈ (resources.filter (·.resourceKind = kind)).map (·.resourceId) ↔
        (⟨kind, id⟩ : ResourceRef) ∈ resources := by
    intro kind id
    simp only [mem_map, mem_filter, decide_eq_true_eq]
    constructor
    · rintro ⟨r, ⟨hr, rfl⟩, rfl⟩
      exact hr
    · intro hr
      exact ⟨_, ⟨hr, rfl⟩, rfl⟩
  have hrun := foldlM_run (P := fun (done : List PayloadOperation) (p : PreparedPayload) =>
    p.operationNames = operation :: done.map (·.operation) ∧ p.operationCount = ops.length ∧
      (∀ id, id ∈ p.accountIds ↔ (⟨.account, id⟩ : ResourceRef) ∈ resources) ∧
      (∀ id, id ∈ p.categoryIds ↔ (⟨.category, id⟩ : ResourceRef) ∈ resources) ∧
      p.gross = gross) ?_ ⟨rfl, rfl, hmem .account, hmem .category, rfl⟩ h
  · exact hrun
  · rintro done p p' op ⟨hnames, hcount, hacc, hcat, hgross⟩ hstep
    obtain ⟨h1, h2, h3, h4, h5⟩ := prepareOperation_spec hstep
    refine ⟨?_, h2.trans hcount, ?_, ?_, h5.trans hgross⟩
    · rw [h1, hnames, map_append]
      rfl
    · rw [h3]
      exact hacc
    · rw [h4]
      exact hcat

end BalanceFrame.Governance
