import BalanceFrame.Governance.Overlay
import BalanceFrame.Governance.Rights

/-!
# The evidence subjects of a batch

`authorizeReadEvidenceSubjects` against `authorize` on each key's own request.
-/

namespace BalanceFrame.Governance

open Library List
open Liquidity (Json)
open Liquidity.Json (get? asStr)

variable {p : PreparedPayload} {values : List Json} {keys : List String}
  {resources rs' : List ResourceRef} {d : Denial} {a : Admission}

/-! ## The evaluation -/

/-- What an evaluation reads before it looks at coverage and rights. -/
structure Ready (db : GovernanceDb) (input : AuthorizationInput) (space : Space)
    (policy : PolicyRow) (resources : List ResourceRef) (p : PreparedPayload) (acting : Acting) :
    Prop where
  request : checkRequest db input .operation = .ok (space, policy)
  principal : checkPrincipal db input (some (toString policy.version)) = .ok ()
  approval : checkApproval db input (some (toString policy.version)) = .ok ()
  resources_eq : payloadResources input.payload = some resources
  prepared : ∃ operations totals,
    operationList (field input.payload "operations") = some operations ∧
      financialTotals operations = some totals ∧
      prepareAuthorizationPayload input.operation operations resources totals = .ok p
  wellFormed : (input.required.any fun r => isBlank r.capability || isBlank r.resourceId) = false
  delegable : ((agentAuth input).isSome &&
    input.required.any fun r => nonDelegableAgentCapability r.capability) = false
  member : resolveMember db input (some (toString policy.version)) = .ok acting

theorem Ready.unique {db : GovernanceDb} {input : AuthorizationInput} {space space' : Space}
    {policy policy' : PolicyRow} {rs : List ResourceRef} {p' : PreparedPayload}
    {acting acting' : Acting} (h : Ready db input space policy rs p acting)
    (h' : Ready db input space' policy' rs' p' acting') :
    space = space' ∧ policy = policy' ∧ rs = rs' ∧ p = p' ∧ acting = acting' := by
  have hrequest := h.request
  rw [h'.request] at hrequest
  cases hrequest
  have hresources := h.resources_eq
  rw [h'.resources_eq] at hresources
  cases hresources
  have hmember := h.member
  rw [h'.member] at hmember
  cases hmember
  obtain ⟨ops, totals, hops, htotals, hp⟩ := h.prepared
  obtain ⟨ops', totals', hops', htotals', hp'⟩ := h'.prepared
  rw [hops'] at hops
  cases hops
  rw [htotals'] at htotals
  cases htotals
  rw [hp'] at hp
  cases hp
  exact ⟨rfl, rfl, rfl, rfl, rfl⟩

theorem allowed_iff_ready {db : GovernanceDb} {input : AuthorizationInput} :
    (authorize db input).allowed = true ↔
      ∃ space policy resources p acting, Ready db input space policy resources p acting ∧
        input.required.isEmpty = false ∧ (∀ r ∈ resources, isCovered input r = true) ∧
        ∀ required ∈ input.required, Granted db input space.budgetId p acting required := by
  rw [allowed_iff_passes]
  constructor
  · rintro ⟨space, policy, resources, operations, totals, p, acting, h⟩
    exact ⟨space, policy, resources, p, acting,
      ⟨h.request, h.principal, h.approval, h.resources_eq,
        ⟨operations, totals, h.operations_eq, h.totals_eq, h.prepared⟩, h.wellFormed, h.delegable,
        h.member⟩, h.nonempty, h.covered, h.granted⟩
  · rintro ⟨space, policy, resources, p, acting, h, hne, hcov, hgranted⟩
    obtain ⟨operations, totals, hops, htotals, hp⟩ := h.prepared
    exact ⟨space, policy, resources, operations, totals, p, acting,
      ⟨h.request, h.principal, h.approval, h.resources_eq, hops, hne, htotals, hp, h.wellFormed,
        h.delegable, hcov, h.member, hgranted⟩⟩

/-- A batch is evaluated iff its request is ready, leaves only evidence uncovered and holds its
rights, whatever their restrictions. -/
theorem evaluate_batch {db : GovernanceDb} {input : AuthorizationInput}
    (h : evaluate db input .operation (some keys) none = .ok a) :
    ∃ space policy resources p acting uncovered common,
      Ready db input space policy resources p acting ∧ input.required.isEmpty = false ∧
        checkCoverage input true (some (toString policy.version)) resources = .ok uncovered ∧
        (∀ q ∈ input.required,
          (imposed db input space.budgetId acting q.toResourceRef q.capability).isSome) ∧
        (∀ c, c ∈ common ↔ ∃ q ∈ input.required, ∃ l,
          imposed db input space.budgetId acting q.toResourceRef q.capability = some l ∧
            ∃ r ∈ l, c = (visibilityOf input q, r)) ∧
        a.admitted = keys.filter
          (checkSubject db input .operation space.budgetId p acting common uncovered) := by
  simp only [evaluate, bind_ok, orStop_ok, reject_ok, attempt_eq_ok, Prod.exists] at h
  obtain ⟨space, policy, hreq, _, hprin, _, happ, resources, hres, operations, hops, _, hne,
    totals, htot, p, hp, _, hwf, _, hdel, u, hcov, acting, hact, common, hcommon, h⟩ := h
  obtain ⟨hheld, hmem⟩ := checkRights_batch hcommon
  cases h
  exact ⟨space, policy, resources, p, acting, u, common,
    ⟨hreq, hprin, happ, hres, ⟨operations, totals, hops, htot, hp⟩, hwf, hdel, hact⟩, hne, hcov,
    hheld, fun c => by rw [hmem]; simp, rfl⟩

theorem evaluate_batch_total {db : GovernanceDb} {input : AuthorizationInput}
    {space : Space} {policy : PolicyRow}
    {acting : Acting} (h : Ready db input space policy resources p acting)
    (hne : input.required.isEmpty = false)
    (hcov : ∀ r ∈ resources, isCovered input r = true ∨ r.resourceKind = .evidence)
    (hheld : ∀ q ∈ input.required,
      (imposed db input space.budgetId acting q.toResourceRef q.capability).isSome) :
    ∃ a, evaluate db input .operation (some keys) none = .ok a := by
  obtain ⟨u, hu⟩ := checkCoverage_batch_total (some (toString policy.version)) hcov
  have hrights := fun deny => checkRights_batch_total p deny hheld
  obtain ⟨operations, totals, hops, htotals, hp⟩ := h.prepared
  simp only [evaluate, h.request, h.principal, h.approval, h.resources_eq, hops, hne, htotals, hp,
    h.wellFormed, h.delegable, h.member, orStop_some, reject_false, ok_bind, Option.isSome_some, hu,
    attempt]
  obtain ⟨common, hcommon⟩ := hrights _
  rw [hcommon]
  exact ⟨_, rfl⟩

/-! ### The longer request -/

section Subject

variable {db : GovernanceDb} {input : AuthorizationInput} {key : String}

theorem isCovered_withSubject (r : ResourceRef) :
    isCovered (withSubject input key) r = (isCovered input r || decide (r = ⟨.evidence, key⟩)) := by
  have hrequired : (withSubject input key).required.any (·.toResourceRef = r) =
      (input.required.any (·.toResourceRef = r) || decide (r = ⟨.evidence, key⟩)) := by
    simp [withSubject, subjectRights, eq_comm]
  have haggregate : aggregateGrant (withSubject input key) = aggregateGrant input := by
    simp [aggregateGrant, withSubject, subjectRights]
  have hconclusion :
      aggregateConclusionRead (withSubject input key) = aggregateConclusionRead input := by
    simp [aggregateConclusionRead, withSubject, subjectRights]
  have hbudget : budgetResourceRead (withSubject input key) = budgetResourceRead input := by
    simp [budgetResourceRead, withSubject, subjectRights]
  unfold isCovered
  rw [hrequired, haggregate, hconclusion, hbudget]
  cases decide (r = ⟨.evidence, key⟩) <;> simp

theorem account_ne_evidence : ResourceKind.account ≠ .evidence := by decide

theorem category_ne_evidence : ResourceKind.category ≠ .evidence := by decide

theorem evidenceField : ("evidenceId", ResourceKind.evidence) ∈ fieldKinds := by decide

theorem namedIn_inspection (operation key : String) :
    NamedIn (.object (inspection operation key)) ⟨.evidence, key⟩ :=
  namedIn_object.mpr (.inl (.idField evidenceField rfl))

variable {space : Space} {policy : PolicyRow} {acting : Acting}

theorem operation_of_ready
    (h : Ready db input space policy resources p acting) : isBlank input.operation = false := by
  have hrequest := h.request
  simp only [checkRequest, bind_ok, attempt_eq_ok] at hrequest
  obtain ⟨_, _, _, htext, _⟩ := hrequest
  exact reject_ok.mp htext

/-- **The longer request is ready where the shorter one is**, with one more resource and one more
operation. -/
theorem ready_withSubject (hfield : field input.payload "operations" = some (.array values))
    (hkey : isBlank key = false)
    (h : Ready db input space policy resources p acting) :
    ∃ rs', SameBut ⟨.evidence, key⟩ resources rs' ∧ ⟨.evidence, key⟩ ∈ rs' ∧
      Ready db (withSubject input key) space policy rs' (oneMore p input.operation) acting := by
  have hop := operation_of_ready h
  have hrel := rel_payloadResources (visitResources_inspection input.operation hkey) input.payload
  rw [h.resources_eq] at hrel
  cases hlong : payloadResources
      (appendOperation (.object (inspection input.operation key)) input.payload) with
  | none =>
    rw [hlong] at hrel
    cases hrel
  | some rs' =>
    rw [hlong] at hrel
    cases hrel with
    | some hsame =>
      refine ⟨rs', hsame, mem_appended hfield (namedIn_inspection _ _) hlong, ?_⟩
      obtain ⟨operations, totals, hops, htotals, hp⟩ := h.prepared
      refine ⟨h.request, h.principal, h.approval, hlong, ⟨operations ++ [inspected input.operation],
        totals, ?_, ?_, ?_⟩, ?_, ?_, h.member⟩
      · have hlist : operationList (field (appendOperation
            (.object (inspection input.operation key)) input.payload) "operations") = _ :=
          operationList_append hfield hop
        rw [hops] at hlist
        exact hlist
      · rw [financialTotals_append, htotals]
      · have happend : prepareAuthorizationPayload input.operation
            (operations ++ [inspected input.operation]) rs' totals = _ :=
          prepare_append (hsame.filter_kind account_ne_evidence)
            (hsame.filter_kind category_ne_evidence)
        rw [hp] at happend
        exact happend
      · rw [withSubject, any_append, h.wellFormed]
        simp [subjectRights, hkey]
        decide
      · rw [withSubject, any_append]
        have hnone : (subjectRights key).any
            (fun r => nonDelegableAgentCapability r.capability) = false := by
          simp only [subjectRights, map_cons, map_nil, any_cons, any_nil]
          decide
        rw [hnone, Bool.or_false]
        exact h.delegable

theorem ready_of_withSubject (hfield : field input.payload "operations" = some (.array values))
    (hkey : isBlank key = false) {p' : PreparedPayload}
    (h : Ready db (withSubject input key) space policy rs' p' acting) :
    ∃ resources p, Ready db input space policy resources p acting := by
  have hop : isBlank (withSubject input key).operation = false := operation_of_ready h
  change isBlank input.operation = false at hop
  have hrel := rel_payloadResources (visitResources_inspection input.operation hkey) input.payload
  have hlong : payloadResources
      (appendOperation (.object (inspection input.operation key)) input.payload) = some rs' :=
    h.resources_eq
  rw [hlong] at hrel
  cases hshort : payloadResources input.payload with
  | none =>
    rw [hshort] at hrel
    cases hrel
  | some resources =>
    rw [hshort] at hrel
    cases hrel with
    | some hsame =>
      obtain ⟨ops', totals, hops, htotals, hp⟩ := h.prepared
      have hlist : operationList (field (appendOperation
          (.object (inspection input.operation key)) input.payload) "operations") = _ :=
        operationList_append hfield hop
      obtain ⟨ops, hshortOps, rfl⟩ := Option.map_eq_some_iff.mp (hlist.symm.trans hops)
      have happend : prepareAuthorizationPayload input.operation
          (ops ++ [inspected input.operation]) rs' totals = _ :=
        prepare_append (hsame.filter_kind account_ne_evidence)
          (hsame.filter_kind category_ne_evidence)
      obtain ⟨p, hshortP, -⟩ := map_eq_ok.mp (happend.symm.trans hp)
      have hwf := h.wellFormed
      have hdel := h.delegable
      simp only [withSubject, any_append, Bool.or_eq_false_iff] at hwf
      refine ⟨resources, p, h.request, h.principal, h.approval, hshort,
        ⟨ops, totals, hshortOps, ?_, hshortP⟩, hwf.1, ?_, h.member⟩
      · rwa [financialTotals_append] at htotals
      · simp only [withSubject, any_append, Bool.and_eq_false_iff,
          Bool.or_eq_false_iff] at hdel
        rcases hdel with hdel | hdel
        · exact Bool.and_eq_false_iff.mpr (.inl hdel)
        · exact Bool.and_eq_false_iff.mpr (.inr hdel.1)

theorem covered_withSubject {rs : List ResourceRef} (hsame : SameBut ⟨.evidence, key⟩ rs rs') :
    (∀ r ∈ rs', isCovered (withSubject input key) r = true) ↔
      ∀ r ∈ rs, isCovered input r = true ∨ r = ⟨.evidence, key⟩ := by
  simp only [isCovered_withSubject, Bool.or_eq_true, decide_eq_true_eq]
  constructor
  · intro h r hr
    by_cases he : r = ⟨.evidence, key⟩
    · exact .inr he
    · exact h r ((hsame.mem_iff he).mpr hr)
  · intro h r hr
    by_cases he : r = ⟨.evidence, key⟩
    · exact .inr he
    · exact h r ((hsame.mem_iff he).mp hr)

theorem allowed_withSubject_iff (hread : input.phase = .read)
    (hfield : field input.payload "operations" = some (.array values))
    (hkey : isBlank key = false)
    (h : Ready db input space policy resources p acting) :
    (authorize db (withSubject input key)).allowed = true ↔
      (∀ r ∈ resources, isCovered input r = true ∨ r = ⟨.evidence, key⟩) ∧
        ∀ q ∈ input.required ++ subjectRights key, ∃ l,
          imposed db input space.budgetId acting q.toResourceRef q.capability = some l ∧
            ∀ r ∈ l, restrictionsAllow r input (overlay p input.operation) (visibilityOf input q)
              .operation = true := by
  obtain ⟨rs', hsame, -, hlong⟩ := ready_withSubject hfield hkey h
  obtain ⟨ops, totals, -, -, hp⟩ := h.prepared
  have hnames : input.operation ∈ p.operationNames := by
    rw [(prepareAuthorizationPayload_spec hp).1]
    exact mem_cons_self
  have hallow : ∀ (r : ResourceGrantRestrictions) (visibility : Option Visibility),
      restrictionsAllow r (withSubject input key) (oneMore p input.operation) visibility
          .operation =
        restrictionsAllow r input (overlay p input.operation) visibility .operation :=
    restrictionsAllow_overlay hread hread rfl hnames (prepared_subject hp)
  have hgranted : ∀ q : RequiredRef,
      Granted db (withSubject input key) space.budgetId (oneMore p input.operation) acting q ↔
        ∃ l, imposed db input space.budgetId acting q.toResourceRef q.capability = some l ∧
          ∀ r ∈ l, restrictionsAllow r input (overlay p input.operation) (visibilityOf input q)
            .operation = true := by
    intro q
    rw [granted_iff]
    simp only [hallow]
    rfl
  rw [allowed_iff_ready, ← covered_withSubject hsame]
  simp only [← hgranted]
  constructor
  · rintro ⟨space', policy', rs, p', acting', h', -, hcov, hall⟩
    obtain ⟨rfl, rfl, rfl, rfl, rfl⟩ := hlong.unique h'
    exact ⟨hcov, hall⟩
  · rintro ⟨hcov, hall⟩
    refine ⟨space, policy, rs', _, acting, hlong, ?_, hcov, hall⟩
    simp [withSubject, subjectRights]

theorem checkSubject_iff {common : CommonRestrictions} {uncovered : List String} :
    checkSubject db input .operation space.budgetId p acting common uncovered key = true ↔
      (uncovered.isEmpty || uncovered == [key]) = true ∧
        (∀ c ∈ common,
          restrictionsAllow c.2 input (overlay p input.operation) c.1 .operation = true) ∧
        ∀ q ∈ subjectRights key, ∃ l,
          imposed db input space.budgetId acting q.toResourceRef q.capability = some l ∧
            ∀ r ∈ l, restrictionsAllow r input (overlay p input.operation) (visibilityOf input q)
              .operation = true := by
  simp only [checkSubject, Bool.and_eq_true, all_eq_true, Option.any_eq_true,
    evidenceRestrictions_eq, subjectRights, forall_mem_map, and_assoc]
  rfl

/-- **A batch admits a key iff the key's own request is allowed.** -/
theorem admits_iff (hread : input.phase = .read)
    (hfield : field input.payload "operations" = some (.array values))
    (hkey : isBlank key = false) (hmem : key ∈ keys)
    (h : evaluate db input .operation (some keys) none = .ok a) :
    key ∈ a.admitted ↔ (authorize db (withSubject input key)).allowed = true := by
  obtain ⟨space, policy, resources, p, acting, uncovered, common, hready, -, hcov, hheld, hcommon,
    hadmitted⟩ := evaluate_batch h
  rw [hadmitted, mem_filter, and_iff_right hmem, checkSubject_iff, uncovered_only hcov,
    allowed_withSubject_iff hread hfield hkey hready, forall_mem_append]
  refine and_congr_right fun _ => and_congr_left fun _ => ?_
  constructor
  · intro hall q hq
    obtain ⟨l, hl⟩ := Option.isSome_iff_exists.mp (hheld q hq)
    exact ⟨l, hl, fun r hr => hall _ ((hcommon _).mpr ⟨q, hq, l, hl, r, hr, rfl⟩)⟩
  · intro hall c hc
    obtain ⟨q, hq, l, hl, r, hr, rfl⟩ := (hcommon c).mp hc
    obtain ⟨l', hl', hallow⟩ := hall q hq
    rw [hl] at hl'
    cases hl'
    exact hallow r hr

theorem evaluated_of_allowed (hread : input.phase = .read)
    (hfield : field input.payload "operations" = some (.array values))
    (hkey : isBlank key = false) (hne : input.required.isEmpty = false) (keys : List String)
    (h : (authorize db (withSubject input key)).allowed = true) :
    ∃ a, evaluate db input .operation (some keys) none = .ok a := by
  obtain ⟨space, policy, rs', p', acting, hlong, -, -, -⟩ := allowed_iff_ready.mp h
  obtain ⟨resources, p, hready⟩ := ready_of_withSubject hfield hkey hlong
  obtain ⟨hcov, hall⟩ := (allowed_withSubject_iff hread hfield hkey hready).mp h
  refine evaluate_batch_total hready hne (fun r hr => ?_) fun q hq => ?_
  · refine (hcov r hr).imp_right fun he => ?_
    rw [he]
  · obtain ⟨l, hl, -⟩ := hall q (mem_append_left _ hq)
    rw [hl]
    rfl

end Subject

/-! ## The batch -/

/-- The reasons of a denial for a restriction and for evidence left uncovered. -/
def scopeReasons : List String :=
  ["Grant restrictions deny complete payload",
    "Payload resource omitted from authorization: evidence"]

/-- The request itself is denied, neither for a restriction nor for uncovered evidence. -/
def ownPartDenied (db : GovernanceDb) (input : AuthorizationInput) : Bool :=
  let result := authorize db input
  !result.allowed && !scopeReasons.contains result.reason

theorem ownPartDenied_iff {db : GovernanceDb} {input : AuthorizationInput} :
    ownPartDenied db input = true ↔
      ∃ d, evaluate db input .operation none none = .error d ∧ d.reason ∉ scopeReasons := by
  unfold ownPartDenied authorize resultOf
  cases evaluate db input .operation none none with
  | ok a => simp
  | error d => simp

/-- A computation that is denied, if at all, for another reason. -/
def DeniedOtherwise {α : Type} (x : Except Denial α) : Prop :=
  ∀ d, x = .error d → d.reason ∉ scopeReasons

namespace DeniedOtherwise

variable {α β : Type}

theorem ok (a : α) : DeniedOtherwise (.ok a) := fun d h => by cases h

theorem error (hd : d.reason ∉ scopeReasons) : DeniedOtherwise (.error d : Except Denial α):= fun d' h => by
  cases h
  exact hd

theorem bind {x : Except Denial α} {f : α → Except Denial β} (hx : DeniedOtherwise x)
    (hf : ∀ a, DeniedOtherwise (f a)) : DeniedOtherwise (x >>= f) := by
  intro d h
  rcases bind_eq_error.mp h with h | ⟨a, -, h⟩
  · exact hx d h
  · exact hf a d h

theorem reject {bad : Bool} (hd : d.reason ∉ scopeReasons) : DeniedOtherwise (reject bad d) := by
  cases bad with
  | false => exact ok ()
  | true => exact error hd

theorem orStop {x : Option α} (hd : d.reason ∉ scopeReasons) : DeniedOtherwise (orStop x d) := by
  cases x with
  | none => exact error hd
  | some a => exact ok a

theorem attempt (x : Except String α) : DeniedOtherwise (attempt x) := by
  cases x with
  | ok a => exact ok a
  | error e => exact error (by decide)

end DeniedOtherwise

section Denials

variable {db : GovernanceDb} {input : AuthorizationInput}

theorem checkRequest_denial : DeniedOtherwise (checkRequest db input .operation) := by
  unfold checkRequest
  refine .bind (.attempt _) fun _ => .bind (.attempt _) fun _ => ?_
  refine .bind (.orStop (by simp [scopeReasons])) fun _ => ?_
  refine .bind (.reject (by simp [scopeReasons])) fun _ => ?_
  refine .bind (.orStop (by simp [scopeReasons])) fun _ => ?_
  refine .bind (.reject (by simp [scopeReasons])) fun _ => ?_
  refine .bind (.reject (by simp [scopeReasons])) fun _ => ?_
  refine .bind (.reject (by simp [scopeReasons])) fun _ => ?_
  exact .bind (.reject (by simp [scopeReasons])) fun _ => .ok _

theorem checkPrincipal_denial (version : Option String) :
    DeniedOtherwise (checkPrincipal db input version) := by
  unfold checkPrincipal
  split
  · exact .ok ()
  · split
    · exact .bind (.attempt _) fun _ => .reject (by simp [scopeReasons])
    · exact .bind (.attempt _) fun _ => .reject (by simp [scopeReasons])
    · exact .ok ()

theorem checkApproval_denial (version : Option String) :
    DeniedOtherwise (checkApproval db input version) := by
  unfold checkApproval
  split
  · split
    · refine .bind (.reject (by simp [scopeReasons])) fun _ => ?_
      split
      · exact .ok ()
      · exact .error (by simp [scopeReasons])
    · exact .error (by simp [scopeReasons])
  · exact .ok ()

theorem ownPartDenied_of_empty (h : input.required.isEmpty = true) :
    ownPartDenied db input = true := by
  have hother : DeniedOtherwise (evaluate db input .operation none none) := by
    unfold evaluate
    refine .bind checkRequest_denial fun _ => .bind (checkPrincipal_denial _) fun _ =>
      .bind (checkApproval_denial _) fun _ => .bind (.orStop (by simp [scopeReasons])) fun _ =>
      .bind (.orStop (by simp [scopeReasons])) fun _ => ?_
    rw [h, reject_true, error_bind]
    exact .error (by simp [scopeReasons])
  cases hrun : evaluate db input .operation none none with
  | error d => exact ownPartDenied_iff.mpr ⟨d, hrun, hother d hrun⟩
  | ok a =>
    simp only [evaluate, bind_ok, reject_ok, h] at hrun
    obtain ⟨_, _, _, _, _, _, _, _, _, _, _, hne, -⟩ := hrun
    cases hne

theorem checkRestriction_denial {visibility : Option Visibility}
    {deny : String → Denial} {common : CommonRestrictions} {r : ResourceGrantRestrictions}
    (h : checkRestriction input .operation false p none visibility deny common r = .error d) :
    d = deny "Grant restrictions deny complete payload" := by
  simp only [checkRestriction, Option.any_none, reject_false, ok_bind] at h
  split at h
  · cases h
  · rcases bind_eq_error.mp h with h | ⟨_, -, h⟩
    · unfold reject at h
      split at h <;> cases h
      rfl
    · cases h

/-- **What an evaluated batch says of its request**: it is denied for its scope alone. -/
theorem ownPartDenied_of_batch (h : evaluate db input .operation (some keys) none = .ok a) :
    ownPartDenied db input = false := by
  obtain ⟨space, policy, resources, p, acting, uncovered, common, hready, hne, hcov, hheld, -, -⟩ :=
    evaluate_batch h
  rw [Bool.eq_false_iff]
  intro hdenied
  obtain ⟨d, hrun, hd⟩ := ownPartDenied_iff.mp hdenied
  refine hd ?_
  obtain ⟨operations, totals, hops, htotals, hp⟩ := hready.prepared
  simp only [evaluate, hready.request, hready.principal, hready.approval, hready.resources_eq, hops,
    hne, htotals, hp, hready.wellFormed, hready.delegable, hready.member, orStop_some, reject_false,
    ok_bind, Option.isSome_none, attempt, bind_eq_error] at hrun
  obtain hrun | ⟨_, -, hrun | ⟨_, -, hrun⟩⟩ := hrun
  · -- evidence is the only kind that the batch leaves uncovered
    obtain ⟨before, r, after, u, rfl, -, hstep⟩ := foldlM_error hrun
    have hr := (checkCoverage_batch hcov).2.1 r (mem_append_right _ mem_cons_self)
    unfold coverResource at hstep
    split at hstep
    · cases hstep
    · next hnot =>
      rw [Bool.false_and, if_neg Bool.false_ne_true] at hstep
      cases hstep
      rw [hr.resolve_left hnot]
      exact mem_cons_of_mem _ (mem_singleton.mpr rfl)
  · -- every right is held, so a restriction denies
    obtain ⟨before, q, after, c, hq, -, hstep⟩ := foldlM_error hrun
    have hmem : q ∈ input.required := hq ▸ mem_append_right _ mem_cons_self
    obtain ⟨l, hl⟩ := Option.isSome_iff_exists.mp (hheld q hmem)
    obtain ⟨hright, grant, hgrant, -⟩ := imposed_eq_some.mp hl
    simp only [checkRight, hright, reject_false, ok_bind, hgrant, orStop_some, disclosureOf,
      Option.map_none] at hstep
    obtain ⟨_, r, _, c', -, -, hrestriction⟩ := foldlM_error hstep
    rw [checkRestriction_denial hrestriction]
    exact mem_cons_self
  · cases hrun

end Denials

theorem named_of_operations {operations : List Json} {ops : List PayloadOperation}
    (htyped : ∀ op ∈ operations, ∃ entries name, op = .object entries ∧
      get? entries "operation" = some (.string name))
    (h : visitOperationValues operations = some ops) : operations.all isNamedOperation = true := by
  induction operations generalizing ops with
  | nil => rfl
  | cons op rest ih =>
    simp only [visitOperationValues, Option.bind_eq_bind, Option.bind_eq_some_iff] at h
    obtain ⟨here, hhere, below, hbelow, -⟩ := h
    rw [all_cons, Bool.and_eq_true]
    refine ⟨?_, ih (fun o ho => htyped o (mem_cons_of_mem _ ho)) hbelow⟩
    obtain ⟨entries, name, rfl, hname⟩ := htyped op mem_cons_self
    simp only [visitOperations, Option.bind_eq_bind, Option.bind_eq_some_iff, ownOperation, hname,
      Option.isSome_some, if_true, Option.map_eq_some_iff] at hhere
    obtain ⟨_, ⟨read, hread, -⟩, -⟩ := hhere
    simp only [readOperation, hname, Option.bind_eq_bind, Option.bind_some, asStr] at hread
    simp only [isNamedOperation, hname]
    split at hread
    · cases hread
    · next hblank => simpa using hblank

/-- **Batch admission is admission one by one.** For a read and distinct nonblank keys, the batch
returns the keys whose own requests `authorize` allows, in order, and none where the request itself
is denied for another reason than its scope. -/
theorem authorizeReadEvidenceSubjects_eq (db : GovernanceDb) (input : AuthorizationInput)
    (keys : List String) (hread : input.phase = .read) (htyped : OperationsTyped input.payload)
    (hnodup : keys.Nodup) (hkeys : ∀ key ∈ keys, isBlank key = false) :
    authorizeReadEvidenceSubjects db input keys =
      if ownPartDenied db input then []
      else keys.filter fun key => (authorize db (withSubject input key)).allowed := by
  obtain ⟨operations, hfield, hops⟩ := htyped
  have hcall : ∀ a, evaluate db input .operation (some keys) none = .ok a →
      a.admitted = keys.filter fun key => (authorize db (withSubject input key)).allowed := by
    intro a ha
    obtain ⟨space, policy, resources, p, acting, uncovered, common, -, -, -, -, -, hadmitted⟩ :=
      evaluate_batch ha
    rw [hadmitted]
    refine filter_congr fun key hmem => ?_
    rw [Bool.eq_iff_iff, ← admits_iff hread hfield (hkeys key hmem) hmem ha, hadmitted,
      mem_filter, and_iff_right hmem]
  unfold authorizeReadEvidenceSubjects
  rw [hfield]
  cases hrun : evaluate db input .operation (some keys) none with
  | ok a =>
    obtain ⟨space, policy, resources, p, acting, uncovered, common, hready, -⟩ :=
      evaluate_batch hrun
    obtain ⟨ops, -, hlist, -, -⟩ := hready.prepared
    rw [hfield] at hlist
    rw [ownPartDenied_of_batch hrun, if_neg Bool.false_ne_true, ← hcall a hrun]
    cases keys with
    | nil => simp [hcall a hrun]
    | cons key rest =>
      have hnamed := named_of_operations hops hlist
      have hnonblank : (key :: rest).all (!isBlank ·) = true :=
        all_eq_true.mpr fun k hk => by rw [hkeys k hk]; rfl
      refine if_pos ?_
      simp only [hread, hnodup, hnamed, hnonblank, decide_true, isEmpty_cons, Bool.not_false,
        Bool.and_true]
  | error d =>
    have hfilter : ownPartDenied db input = false →
        keys.filter (fun key => (authorize db (withSubject input key)).allowed) = [] := by
      intro hown
      have hne : input.required.isEmpty = false := by
        rw [Bool.eq_false_iff]
        intro hempty
        rw [ownPartDenied_of_empty hempty] at hown
        cases hown
      refine filter_eq_nil_iff.mpr fun key hmem hallowed => ?_
      obtain ⟨a, ha⟩ := evaluated_of_allowed hread hfield (hkeys key hmem) hne keys hallowed
      rw [hrun] at ha
      cases ha
    cases hown : ownPartDenied db input with
    | true => simp
    | false => simp [hfilter hown]

def grantOf (ref : ResourceRef) (capability : String)
    (restrictions : ResourceGrantRestrictions) : ResourceGrant where
  id := capability
  spaceId := some "home"
  membershipId := some "period"
  actorId := "ada"
  budgetId := some "budget"
  toResourceRef := ref
  capability
  granted := true
  restrictions
  createdAt := "2026-01-01T00:00:00.000Z"
  updatedAt := "2026-01-01T00:00:00.000Z"
  revokedAt := none

def archive : GovernanceDb :=
  { household with
    grants := [grantOf ⟨.budget, "budget"⟩ "read" { maxOperationCount := some 2 },
      grantOf ⟨.evidence, "receipt-a"⟩ "evidence" {},
      grantOf ⟨.evidence, "receipt-a"⟩ "normalized-evidence" {}] }

def budgetRead : AuthorizationInput where
  actorId := "ada"
  spaceId := "home"
  expectedPolicyVersion := "1"
  phase := .read
  operation := "evidence"
  required := [{
    resourceKind := .budget, resourceId := "budget", capability := "read"
    visibility := some .resource }]
  payload := .object [("operations", .array [.object [("operation", .string "budget")]])]
  now := "2026-02-01T00:00:00.000Z"

theorem archive_admits_one :
    authorizeReadEvidenceSubjects archive budgetRead ["receipt-a", "receipt-b"] =
      ["receipt-a"] := by
  have htyped : OperationsTyped budgetRead.payload :=
    ⟨_, rfl, fun op hop => ⟨_, "budget", mem_singleton.mp hop, rfl⟩⟩
  rw [authorizeReadEvidenceSubjects_eq archive budgetRead _ rfl htyped (by decide)
    (by decide +kernel)]
  decide +kernel

end BalanceFrame.Governance
