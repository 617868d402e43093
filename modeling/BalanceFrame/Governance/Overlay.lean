import BalanceFrame.Governance.Authority

/-!
# The overlay of an evidence subject

`authorizeReadEvidenceSubjects` (`packages/workflow-store/src/governance.ts`) evaluates one read
request and admits each evidence key by an overlay on its prepared payload. `withSubject` is the
request that the overlay stands for: one more operation on the key, and the two rights on it.
-/

namespace BalanceFrame.Governance

open Library List
open Liquidity (Json)
open Liquidity.Json (get? asStr)

/-! ## The request of one subject -/

/-- The two rights on an evidence subject. -/
def subjectRights (key : String) : List RequiredRef :=
  ["evidence", "normalized-evidence"].map fun capability =>
    { resourceKind := .evidence, resourceId := key, capability, visibility := some .resource }

/-- `{ operation, evidenceId }`. -/
def inspection (operation key : String) : Entries :=
  [("operation", .string operation), ("evidenceId", .string key)]

/-- `[...values, item]`. -/
def appendItem (item : Json) : Json → Json
  | .array values => .array (values ++ [item])
  | v => v

/-- An entry of the payload; `operations` gets one more. -/
def appendEntry (item : Json) (entry : String × Json) : String × Json :=
  if entry.1 == "operations" then (entry.1, appendItem item entry.2) else entry

/-- `{ ...payload, operations: [...payload.operations, item] }`. -/
def appendOperation (item : Json) : Json → Json
  | .object entries => .object (entries.map (appendEntry item))
  | v => v

/-- The request that inspects one evidence subject besides. -/
def withSubject (input : AuthorizationInput) (key : String) : AuthorizationInput :=
  { input with
    required := input.required ++ subjectRights key
    payload := appendOperation (.object (inspection input.operation key)) input.payload }

/-- What the declared type of `payload.operations` says of it. -/
def OperationsTyped (payload : Json) : Prop :=
  ∃ operations, field payload "operations" = some (.array operations) ∧
    ∀ op ∈ operations, ∃ entries name, op = .object entries ∧
      get? entries "operation" = some (.string name)

/-! ## Reading the longer payload -/

theorem get?_map_appendEntry (item : Json) (entries : Entries) (key : String) :
    get? (entries.map (appendEntry item)) key =
      (get? entries key).map fun v => if key == "operations" then appendItem item v else v := by
  unfold get?
  rw [find?_map, Option.map_map, Option.map_map]
  have hkey : ((fun e : String × Json => e.1 == key) ∘ appendEntry item) = fun e => e.1 == key := by
    funext e
    unfold appendEntry
    simp only [Function.comp]
    split <;> rfl
  rw [hkey]
  cases hfind : entries.find? (·.1 == key) with
  | none => rfl
  | some e =>
    have he : e.1 = key := by simpa using find?_some hfind
    simp only [Option.map_some, Function.comp, appendEntry, he]
    split <;> rfl

theorem get?_of_ne (item : Json) (entries : Entries) {key : String} (h : key ≠ "operations") :
    get? (entries.map (appendEntry item)) key = get? entries key := by
  rw [get?_map_appendEntry]
  simp [h]

theorem mapM_congr_mem {α β : Type} {f g : α → Option β} :
    ∀ {l : List α}, (∀ a ∈ l, f a = g a) → l.mapM f = l.mapM g
  | [], _ => rfl
  | a :: l, h => by
    rw [mapM_cons, mapM_cons, h a mem_cons_self,
      mapM_congr_mem fun b hb => h b (mem_cons_of_mem a hb)]

theorem ownResources_append (item : Json) (entries : Entries) :
    ownResources (entries.map (appendEntry item)) = ownResources entries := by
  have hfields : fieldKinds.mapM (fieldResource (entries.map (appendEntry item))) =
      fieldKinds.mapM (fieldResource entries) := by
    refine mapM_congr_mem fun fk hfk => ?_
    have hne : fk.1 ≠ "operations" := by
      have hall : ∀ fk ∈ fieldKinds, fk.1 ≠ "operations" := by decide
      exact hall fk hfk
    unfold fieldResource
    rw [get?_of_ne item entries hne]
  unfold ownResources pairResource
  rw [hfields, get?_of_ne item entries (by decide), get?_of_ne item entries (by decide),
    get?_of_ne item entries (by decide)]

theorem visitResourceValues_append (item : Json) (values : List Json) :
    visitResourceValues (values ++ [item]) = (do
      let here ← visitResourceValues values
      let below ← visitResources item
      some (here ++ below)) := by
  induction values with
  | nil => simp [visitResourceValues]
  | cons v values ih =>
    simp only [cons_append, visitResourceValues, ih]
    cases visitResources v with
    | none => rfl
    | some here =>
      cases visitResourceValues values with
      | none => rfl
      | some rest =>
        cases visitResources item with
        | none => rfl
        | some below => simp

theorem visitOperationValues_append (item : Json) (values : List Json) :
    visitOperationValues (values ++ [item]) = (do
      let here ← visitOperationValues values
      let below ← visitOperations item
      some (here ++ below)) := by
  induction values with
  | nil => simp [visitOperationValues]
  | cons v values ih =>
    simp only [cons_append, visitOperationValues, ih]
    cases visitOperations v with
    | none => rfl
    | some here =>
      cases visitOperationValues values with
      | none => rfl
      | some rest =>
        cases visitOperations item with
        | none => rfl
        | some below => simp

/-- The longer payload differs in one resource. -/
def SameBut (e : ResourceRef) (rs rs' : List ResourceRef) : Prop :=
  rs'.filter (· ≠ e) = rs.filter (· ≠ e)

section Walk

variable {e : ResourceRef} {item : Json}

theorem rel_refl (x : Option (List ResourceRef)) : Option.Rel (SameBut e) x x := by
  cases x with
  | none => exact .none
  | some rs => exact .some rfl

theorem rel_append {x y x' y' : Option (List ResourceRef)} (hx : Option.Rel (SameBut e) x x')
    (hy : Option.Rel (SameBut e) y y') :
    Option.Rel (SameBut e) (do let here ← x; let below ← y; some (here ++ below))
      (do let here ← x'; let below ← y'; some (here ++ below)) := by
  cases hx with
  | none => exact .none
  | some hx =>
    cases hy with
    | none => exact .none
    | some hy =>
      refine .some ?_
      unfold SameBut at hx hy ⊢
      rw [filter_append, filter_append, hx, hy]

theorem rel_appendItem (hitem : visitResources item = some [e]) (v : Json) :
    Option.Rel (SameBut e) (visitResources v) (visitResources (appendItem item v)) := by
  cases v with
  | array values =>
    simp only [appendItem, visitResources, visitResourceValues_append, hitem]
    cases visitResourceValues values with
    | none => exact .none
    | some rs =>
      refine .some ?_
      unfold SameBut
      rw [filter_append]
      simp
  | null => exact rel_refl _
  | bool b => exact rel_refl _
  | number n => exact rel_refl _
  | string s => exact rel_refl _
  | object entries => exact rel_refl _

theorem rel_entries (hitem : visitResources item = some [e]) :
    ∀ entries : Entries, Option.Rel (SameBut e) (visitResourceEntries entries)
      (visitResourceEntries (entries.map (appendEntry item)))
  | [] => .some rfl
  | (key, v) :: rest => by
    have hv : Option.Rel (SameBut e) (visitResources v)
        (visitResources (appendEntry item (key, v)).2) := by
      unfold appendEntry
      split
      · exact rel_appendItem hitem v
      · exact rel_refl _
    exact rel_append hv (rel_entries hitem rest)

theorem rel_payloadResources (hitem : visitResources item = some [e]) (payload : Json) :
    Option.Rel (SameBut e) (payloadResources payload)
      (payloadResources (appendOperation item payload)) := by
  unfold payloadResources
  cases payload with
  | object entries =>
    simp only [appendOperation, visitResources, ownResources_append]
    exact rel_append (rel_refl _) (rel_entries hitem entries)
  | null => exact rel_refl _
  | bool b => exact rel_refl _
  | number n => exact rel_refl _
  | string s => exact rel_refl _
  | array values => exact rel_refl _

theorem SameBut.mem_iff {rs rs' : List ResourceRef} (h : SameBut e rs rs') {r : ResourceRef}
    (hr : r ≠ e) : r ∈ rs' ↔ r ∈ rs := by
  have hmem : ∀ l : List ResourceRef, r ∈ l.filter (· ≠ e) ↔ r ∈ l := fun l => by
    simp [hr]
  rw [← hmem rs', ← hmem rs, h]

theorem SameBut.filter_kind {rs rs' : List ResourceRef} (h : SameBut e rs rs')
    {kind : ResourceKind} (hkind : kind ≠ e.resourceKind) :
    rs'.filter (·.resourceKind = kind) = rs.filter (·.resourceKind = kind) := by
  have hboth : ∀ l : List ResourceRef,
      l.filter (·.resourceKind = kind) = (l.filter (· ≠ e)).filter (·.resourceKind = kind) := by
    intro l
    rw [filter_filter]
    refine filter_congr fun r _ => ?_
    by_cases hr : r.resourceKind = kind
    · have hne : r ≠ e := by
        rintro rfl
        exact hkind hr.symm
      simp [hr, hne]
    · simp [hr]
  rw [hboth rs', hboth rs, h]

end Walk

theorem field_appendOperation (item payload : Json) :
    field (appendOperation item payload) "operations" =
      (field payload "operations").map (appendItem item) := by
  cases payload with
  | object entries => exact get?_map_appendEntry item entries "operations"
  | _ => rfl

theorem mem_of_get? {entries : Entries} {key : String} {v : Json} (h : get? entries key = some v) :
    (key, v) ∈ entries := by
  unfold get? at h
  obtain ⟨e, he, rfl⟩ := Option.map_eq_some_iff.mp h
  have hkey : e.1 = key := by simpa using find?_some he
  rw [← hkey]
  exact mem_of_find?_eq_some he

variable {rs : List ResourceRef}

theorem mem_appended {item payload : Json} {values : List Json} {e : ResourceRef}
    (hfield : field payload "operations" = some (.array values)) (hitem : NamedIn item e)
    (hrs : payloadResources (appendOperation item payload) = some rs) : e ∈ rs := by
  rw [mem_payloadResources hrs]
  have hlong := field_appendOperation item payload
  rw [hfield] at hlong
  cases hp : appendOperation item payload with
  | object entries =>
    rw [hp] at hlong
    refine namedIn_object.mpr (.inr ⟨_, mem_of_get? hlong, ?_⟩)
    exact namedIn_array.mpr ⟨item, mem_append_right values mem_cons_self, hitem⟩
  | _ =>
    rw [hp] at hlong
    cases hlong

section Inspection

variable {operation key : String}

theorem visitResources_inspection (operation : String) (hkey : isBlank key = false) :
    visitResources (.object (inspection operation key)) = some [⟨.evidence, key⟩] := by
  simp [inspection, visitResources, ownResources, pairResource, fieldKinds, fieldResource,
    resourceRef, hkey, visitResourceEntries, get?]

/-- The operation that the walk reads off an inspection. -/
def inspected (operation : String) : PayloadOperation :=
  { operation, direction := none, amount := none, accountScope := none }

theorem visitOperations_inspection (hop : isBlank operation = false) :
    visitOperations (.object (inspection operation key)) = some [inspected operation] := by
  simp [inspection, visitOperations, ownOperation, readOperation, readDirection, readAmount,
    asStr, hop, visitOperationEntries, get?, inspected]

theorem operationList_append {payload : Json} {values : List Json}
    (hfield : field payload "operations" = some (.array values)) (hop : isBlank operation = false) :
    operationList
        (field (appendOperation (.object (inspection operation key)) payload) "operations") =
      (operationList (field payload "operations")).map (· ++ [inspected operation]) := by
  rw [field_appendOperation, hfield]
  simp only [Option.map_some, appendItem, operationList, visitOperationValues_append,
    visitOperations_inspection hop]
  cases visitOperationValues values <;> rfl

theorem financialTotals_append (ops : List PayloadOperation) :
    financialTotals (ops ++ [inspected operation]) = financialTotals ops := by
  unfold financialTotals
  rw [foldlM_append]
  cases ops.foldlM addTotal [] <;> rfl

end Inspection

/-! ## The prepared payload -/

/-- The batch's overlay of one subject. -/
def overlay (p : PreparedPayload) (operation : String) : PreparedPayload :=
  { p with operationCount := p.operationCount + 1, subjectOperation := some operation }

/-- The payload with one more operation that has no account scope. -/
def oneMore (p : PreparedPayload) (operation : String) : PreparedPayload :=
  { p with
    operationCount := p.operationCount + 1
    operationNames := p.operationNames ++ [operation]
    ruleOperationNames :=
      if isRuleOperation operation then p.ruleOperationNames ++ [operation]
      else p.ruleOperationNames
    invalidRuleScope := p.invalidRuleScope || isRuleOperation operation }

theorem prepareOperation_count (p : PreparedPayload) (n : Nat) (op : PayloadOperation) :
    prepareOperation { p with operationCount := n } op =
      (prepareOperation p op).map ({ · with operationCount := n }) := by
  unfold prepareOperation
  by_cases hrule : isRuleOperation op.operation = true
  · simp only [hrule, if_true]
    cases scopeAccountIds op.accountScope with
    | error e => rfl
    | ok ids => cases ids <;> rfl
  · simp only [if_neg hrule]
    rfl

theorem foldlM_prepareOperation_count (n : Nat) :
    ∀ (ops : List PayloadOperation) (p : PreparedPayload),
      ops.foldlM prepareOperation { p with operationCount := n } =
        (ops.foldlM prepareOperation p).map ({ · with operationCount := n })
  | [], p => rfl
  | op :: ops, p => by
    rw [foldlM_cons, foldlM_cons, prepareOperation_count]
    cases prepareOperation p op with
    | error e => rfl
    | ok q => exact foldlM_prepareOperation_count n ops q

theorem prepareOperation_inspected (p : PreparedPayload) (n : Nat) (operation : String) :
    prepareOperation { p with operationCount := n } (inspected operation) =
      .ok { oneMore p operation with operationCount := n } := by
  unfold prepareOperation oneMore inspected
  by_cases hrule : isRuleOperation operation = true
  · simp [hrule, scopeAccountIds]
  · simp [hrule]

/-- **The longer request is prepared as the shorter one with one more operation.** -/
theorem prepare_append {operation : String} {ops : List PayloadOperation} {rs' : List ResourceRef}
    {gross : List (String × Nat)}
    (haccounts : rs'.filter (·.resourceKind = .account) = rs.filter (·.resourceKind = .account))
    (hcategories :
      rs'.filter (·.resourceKind = .category) = rs.filter (·.resourceKind = .category)) :
    prepareAuthorizationPayload operation (ops ++ [inspected operation]) rs' gross =
      (prepareAuthorizationPayload operation ops rs gross).map (oneMore · operation) := by
  have hcount : ∀ p, prepareAuthorizationPayload operation ops rs gross = .ok p →
      p.operationCount = ops.length := fun p h => (prepareAuthorizationPayload_spec h).2.1
  unfold prepareAuthorizationPayload at hcount ⊢
  rw [haccounts, hcategories, foldlM_append, length_append, length_singleton]
  have hfold := foldlM_prepareOperation_count (ops.length + 1) ops
    { operationCount := ops.length
      operationNames := [operation]
      accountIds := (rs.filter (·.resourceKind = .account)).map (·.resourceId)
      categoryIds := (rs.filter (·.resourceKind = .category)).map (·.resourceId)
      ruleOperationNames := []
      ruleAccountIds := []
      invalidRuleScope := false
      gross }
  dsimp only at hfold
  rw [hfold]
  revert hcount
  cases ops.foldlM prepareOperation _ with
  | error e => exact fun _ => rfl
  | ok p =>
    intro hcount
    have hp := hcount p rfl
    simp only [Except.map, ok_bind, foldlM_cons, foldlM_nil, prepareOperation_inspected,
      pure_ok]
    rw [← hp]
    rfl

theorem prepared_subject {operation : String} {ops : List PayloadOperation}
    {gross : List (String × Nat)} {p : PreparedPayload}
    (h : prepareAuthorizationPayload operation ops rs gross = .ok p) :
    p.subjectOperation = none := by
  refine foldlM_inv (P := fun p : PreparedPayload => p.subjectOperation = none) ?_ rfl h
  intro p p' op _ hp hstep
  unfold prepareOperation at hstep
  split at hstep
  · obtain ⟨scope, -, hstep⟩ := bind_ok.mp hstep
    split at hstep <;> cases hstep <;> exact hp
  · cases hstep
    exact hp

/-- **A restriction on a read allows the overlay iff it allows the longer request.** -/
theorem restrictionsAllow_overlay {input input' : AuthorizationInput} {p : PreparedPayload}
    (hphase : input.phase = .read) (hphase' : input'.phase = .read)
    (hoperation : input'.operation = input.operation) (hnames : input.operation ∈ p.operationNames)
    (hsubject : p.subjectOperation = none) (r : ResourceGrantRestrictions)
    (visibility : Option Visibility) :
    restrictionsAllow r input' (oneMore p input.operation) visibility .operation =
      restrictionsAllow r input (overlay p input.operation) visibility .operation := by
  have hoperations : ∀ allowed : List String,
      (p.operationNames ++ [input.operation]).all allowed.contains =
        p.operationNames.all allowed.contains := by
    intro allowed
    rw [Bool.eq_iff_iff, all_append, Bool.and_eq_true]
    refine and_iff_left_of_imp fun hall => ?_
    rw [all_cons, all_nil, Bool.and_true]
    exact all_eq_true.mp hall _ hnames
  have haccounts : ∀ allowed : List String,
      accountsAllow allowed input' (oneMore p input.operation) .operation =
        accountsAllow allowed input (overlay p input.operation) .operation := by
    intro allowed
    unfold accountsAllow oneMore overlay
    rw [hoperation, hsubject]
    by_cases hrule : isRuleOperation input.operation = true
    · simp [hrule]
    · simp [hrule]
  unfold restrictionsAllow
  simp only [hphase, hphase', haccounts]
  simp only [oneMore, overlay, hoperations]
  simp

end BalanceFrame.Governance
