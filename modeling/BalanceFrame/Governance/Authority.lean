import BalanceFrame.Governance.Authorize
import BalanceFrame.Governance.PayloadCorrect
import BalanceFrame.Library.Lists

/-!
# What an allowed request implies

`Passes` spells out an evaluation that ends in an admission; `allowed_iff_passes` is its law.
-/

namespace BalanceFrame.Governance

open Library List Bool
open Liquidity (Json)
open Liquidity.Json (get?)

variable {version : Option String} {visibility : Option Visibility} {resources : List ResourceRef}
  {r : ResourceGrantRestrictions} {required : RequiredRef} {spaceId actorId : String}
  {m : SpaceMembership}

/-! ## The evaluation -/

/-- The restrictions that a requirement meets: its grant's, and those of the delegated right. -/
def Granted (db : GovernanceDb) (input : AuthorizationInput) (budgetId : Option String)
    (p : PreparedPayload) (acting : Acting) (required : RequiredRef) : Prop :=
  let right := delegatedRight acting required.toResourceRef required.capability
  (acting.delegation.isSome = true → right.isSome = true) ∧
  ∃ grant, db.currentGrant acting.principalActorId input.spaceId acting.member.id budgetId
      required.toResourceRef required.capability = some grant ∧
    ∀ r ∈ grant.restrictions :: (right.bind (·.restrictions)).toList,
      restrictionsAllow r input p (visibilityOf input required) .operation = true

/-- An evaluation that passes every check. -/
structure Passes (db : GovernanceDb) (input : AuthorizationInput) (space : Space)
    (policy : PolicyRow) (resources : List ResourceRef) (operations : List PayloadOperation)
    (totals : List (String × Nat)) (p : PreparedPayload) (acting : Acting) : Prop where
  request : checkRequest db input .operation = .ok (space, policy)
  principal : checkPrincipal db input (some (toString policy.version)) = .ok ()
  approval : checkApproval db input (some (toString policy.version)) = .ok ()
  resources_eq : payloadResources input.payload = some resources
  operations_eq : operationList (field input.payload "operations") = some operations
  nonempty : input.required.isEmpty = false
  totals_eq : financialTotals operations = some totals
  prepared : prepareAuthorizationPayload input.operation operations resources totals = .ok p
  wellFormed : (input.required.any fun r => isBlank r.capability || isBlank r.resourceId) = false
  delegable : ((agentAuth input).isSome &&
    input.required.any fun r => nonDelegableAgentCapability r.capability) = false
  covered : ∀ r ∈ resources, isCovered input r = true
  member : resolveMember db input (some (toString policy.version)) = .ok acting
  granted : ∀ required ∈ input.required, Granted db input space.budgetId p acting required

theorem coverResource_ok {input : AuthorizationInput} {u u' : List String} {r : ResourceRef} :
    coverResource input false version u r = .ok u' ↔ isCovered input r = true ∧ u = u' := by
  unfold coverResource
  by_cases h : isCovered input r = true
  · rw [if_pos h]
    simp [h]
  · rw [if_neg h, Bool.false_and, if_neg Bool.false_ne_true]
    simp [h]

theorem checkCoverage_ok {input : AuthorizationInput} :
    (∃ u, checkCoverage input false version resources = .ok u) ↔
      ∀ r ∈ resources, isCovered input r = true := by
  constructor
  · rintro ⟨u, h⟩ r hr
    obtain ⟨b, b', hstep⟩ := foldlM_mem_ok h r hr
    exact (coverResource_ok.mp hstep).1
  · intro h
    obtain ⟨u, hu, -⟩ := foldlM_total (P := fun _ => True)
      (fun u r hr _ => ⟨u, coverResource_ok.mpr ⟨h r hr, rfl⟩, trivial⟩)
      (b := []) trivial
    exact ⟨u, hu⟩

section Restrictions

variable {input : AuthorizationInput} {p : PreparedPayload} {deny : String → Denial}

/-- Every restriction met so far allows the payload. -/
def AllAllow (input : AuthorizationInput) (p : PreparedPayload) (common : CommonRestrictions) :
    Prop :=
  ∀ c ∈ common, restrictionsAllow c.2 input p c.1 .operation = true

theorem checkRestriction_ok {common common' : CommonRestrictions} (hc : AllAllow input p common)
    (h : checkRestriction input .operation false p none visibility deny common r = .ok common') :
    AllAllow input p common' ∧ restrictionsAllow r input p visibility .operation = true := by
  simp only [checkRestriction, Option.any_none, reject_false, ok_bind, Bool.not_false,
    Bool.true_and] at h
  split at h
  · next hmem =>
    cases h
    exact ⟨hc, hc _ (contains_iff_mem.mp hmem)⟩
  · simp only [bind_ok, reject_ok, not_eq_false'] at h
    obtain ⟨-, hallow, h⟩ := h
    cases h
    refine ⟨fun c hmem => ?_, hallow⟩
    rcases mem_append.mp hmem with hmem | hmem
    · exact hc c hmem
    · rw [mem_singleton] at hmem
      subst hmem
      exact hallow

theorem checkRestriction_total (common : CommonRestrictions)
    (h : restrictionsAllow r input p visibility .operation = true) :
    ∃ common',
      checkRestriction input .operation false p none visibility deny common r = .ok common' := by
  simp only [checkRestriction, Option.any_none, reject_false, ok_bind, h, Bool.not_true,
    Bool.and_false]
  split <;> exact ⟨_, rfl⟩

theorem checkRestrictions_ok :
    ∀ {rs : List ResourceGrantRestrictions} {common common' : CommonRestrictions},
      AllAllow input p common →
      rs.foldlM (checkRestriction input .operation false p none visibility deny) common =
        .ok common' →
      AllAllow input p common' ∧
        ∀ r ∈ rs, restrictionsAllow r input p visibility .operation = true
  | [], _, _, hc, h => by
    cases h
    exact ⟨hc, fun r hr => absurd hr not_mem_nil⟩
  | r :: rs, common, common', hc, h => by
    rw [foldlM_cons, bind_ok] at h
    obtain ⟨c, hstep, h⟩ := h
    obtain ⟨hc', hr⟩ := checkRestriction_ok hc hstep
    obtain ⟨hc'', hrs⟩ := checkRestrictions_ok hc' h
    exact ⟨hc'', forall_mem_cons.mpr ⟨hr, hrs⟩⟩

variable {db : GovernanceDb} {budgetId : Option String} {acting : Acting}

theorem checkRight_ok {common common' : CommonRestrictions} (hc : AllAllow input p common)
    (h : checkRight db input .operation false none budgetId p acting deny common required =
      .ok common') :
    AllAllow input p common' ∧ Granted db input budgetId p acting required := by
  simp only [checkRight, bind_ok, reject_ok, orStop_ok, disclosureOf,
    Option.map_none] at h
  obtain ⟨-, hright, grant, hgrant, h⟩ := h
  obtain ⟨hc', hallow⟩ := checkRestrictions_ok hc h
  refine ⟨hc', ?_, grant, hgrant, hallow⟩
  intro hd
  rw [hd, Bool.true_and, Option.isNone_eq_false_iff] at hright
  exact hright

theorem checkRight_total (common : CommonRestrictions)
    (h : Granted db input budgetId p acting required) :
    ∃ common',
      checkRight db input .operation false none budgetId p acting deny common required =
        .ok common' := by
  obtain ⟨hright, grant, hgrant, hallow⟩ := h
  have hsome : (acting.delegation.isSome &&
      (delegatedRight acting required.toResourceRef required.capability).isNone) = false := by
    cases hd : acting.delegation.isSome with
    | false => rfl
    | true => rw [Bool.true_and, Option.isNone_eq_false_iff]; exact hright hd
  simp only [checkRight, hsome, reject_false, ok_bind, hgrant, orStop_some, disclosureOf,
    Option.map_none]
  obtain ⟨c, hcommon, -⟩ := foldlM_total (P := fun _ => True)
    (f := checkRestriction input .operation false p none (visibilityOf input required) deny)
    (fun b r hr _ => by
      obtain ⟨b', hb'⟩ := checkRestriction_total b (hallow r hr)
      exact ⟨b', hb', trivial⟩) (b := common) trivial
  exact ⟨c, hcommon⟩

theorem checkRights_ok {rs : List RequiredRef} :
    (∃ common, rs.foldlM (checkRight db input .operation false none budgetId p acting deny) [] =
      .ok common) ↔ ∀ required ∈ rs, Granted db input budgetId p acting required := by
  constructor
  · rintro ⟨common, h⟩ required hmem
    have hrun := foldlM_run (P := fun (done : List RequiredRef) (common : CommonRestrictions) =>
      AllAllow input p common ∧ ∀ required ∈ done, Granted db input budgetId p acting required)
      ?_ ⟨fun c hc => absurd hc not_mem_nil, fun c hc => absurd hc not_mem_nil⟩ h
    · exact hrun.2 required hmem
    · rintro done c c' r ⟨hc, hdone⟩ hstep
      obtain ⟨hc', hr⟩ := checkRight_ok hc hstep
      refine ⟨hc', fun x hx => ?_⟩
      rcases mem_append.mp hx with hx | hx
      · exact hdone x hx
      · rw [mem_singleton] at hx
        subst hx
        exact hr
  · intro h
    obtain ⟨c, hc, -⟩ := foldlM_total (P := fun _ => True)
      (f := checkRight db input .operation false none budgetId p acting deny)
      (fun b r hr _ => by
        obtain ⟨b', hb'⟩ := checkRight_total b (h r hr)
        exact ⟨b', hb', trivial⟩) (b := []) trivial
    exact ⟨c, hc⟩

end Restrictions

theorem allowed_iff_passes {db : GovernanceDb} {input : AuthorizationInput} :
    (authorize db input).allowed = true ↔
      ∃ space policy resources operations totals p acting,
        Passes db input space policy resources operations totals p acting := by
  rw [allowed_iff]
  constructor
  · rintro ⟨a, h⟩
    simp only [evaluate, bind_ok, orStop_ok, reject_ok, attempt_eq_ok, Prod.exists] at h
    obtain ⟨space, policy, hreq, _, hprin, _, happ, resources, hres, operations, hops, _, hne,
      totals, htot, p, hp, _, hwf, _, hdel, u, hcov, acting, hact, common, hcommon, -⟩ := h
    exact ⟨space, policy, resources, operations, totals, p, acting, hreq, hprin, happ, hres, hops,
      hne, htot, hp, hwf, hdel, checkCoverage_ok.mp ⟨u, hcov⟩, hact,
      checkRights_ok.mp ⟨common, hcommon⟩⟩
  · rintro ⟨space, policy, resources, operations, totals, p, acting, h⟩
    obtain ⟨u, hu⟩ := (@checkCoverage_ok (some (toString policy.version)) _ _).mpr h.covered
    have hrights := fun deny => (@checkRights_ok _ _ deny _ _ _ _).mpr h.granted
    simp only [evaluate, h.request, h.principal, h.approval, h.resources_eq, h.operations_eq,
      h.nonempty, h.totals_eq, h.prepared, h.wellFormed, h.delegable, h.member, orStop_some,
      reject_false, ok_bind, Option.isSome_none, hu, attempt]
    obtain ⟨common, hcommon⟩ := hrights _
    rw [hcommon]
    exact ⟨_, rfl⟩

theorem resolveHuman_ok {db : GovernanceDb} {input : AuthorizationInput} {acting : Acting} :
    resolveHuman db input version = .ok acting ↔
      ∃ m, db.currentMembership input.spaceId input.actorId input.now = .ok (some m) ∧
        input.membershipId.all (· == m.id) = true ∧ (m.id == "") = false ∧
        acting = { principalActorId := input.actorId, member := m, delegation := none } := by
  simp only [resolveHuman, bind_ok, attempt_eq_ok, orStop_ok, reject_ok,
    not_eq_false', Except.ok.injEq]
  constructor
  · rintro ⟨_, h, m, rfl, -, hid, -, hne, rfl⟩
    exact ⟨m, h, hid, hne, rfl⟩
  · rintro ⟨m, h, hid, hne, rfl⟩
    exact ⟨_, h, m, rfl, (), hid, (), hne, rfl⟩

theorem currentDelegation_some {db : GovernanceDb} {id version now : String} {d : AgentDelegation}
    (h : db.currentDelegation id version now = .ok (some d)) : db.delegation id version = some d := by
  unfold GovernanceDb.currentDelegation at h
  split at h
  · cases h
  · next d' hd =>
    simp only [bind_ok] at h
    obtain ⟨current, -, h⟩ := h
    split at h
    · split at h
      · simp only [bind_ok, Except.ok.injEq] at h
        obtain ⟨issuer, -, h⟩ := h
        split at h
        · cases h
          exact hd
        · cases h
      · cases h
    · cases h

theorem resolveAgent_ok {db : GovernanceDb} {input : AuthorizationInput}
    {auth : AgentAuth} {acting : Acting} (h : resolveAgent db input version auth = .ok acting) :
    input.phase ≠ .approve ∧ ∃ d m,
      db.delegation auth.delegationId auth.delegationVersion = some d ∧
      d.agentId = auth.actorId ∧ input.actorId = auth.actorId ∧
      db.currentMembership input.spaceId d.issuerActorId input.now = .ok (some m) ∧
      input.membershipId.all (· == m.id) = true ∧ (m.id == "") = false ∧
      acting = { principalActorId := d.issuerActorId, member := m, delegation := some d } := by
  simp only [resolveAgent, bind_ok, attempt_eq_ok, orStop_ok, reject_ok,
    not_eq_false', Bool.and_eq_true, beq_iff_eq, bne_iff_ne, Except.ok.injEq] at h
  obtain ⟨-, ⟨⟨⟨⟨⟨⟨hactor, -⟩, -⟩, -⟩, -⟩, hphase⟩, -⟩, _, hd, d, rfl, -, ⟨-, hagent⟩, _, hm, -, -,
    m, rfl, -, ⟨-, hid⟩, _, -, -, -, -, hne, rfl⟩ := h
  exact ⟨hphase, d, m, currentDelegation_some hd, hagent, hactor, hm, hid, hne, rfl⟩

/-! ## Restrictions over the complete payload -/

/-- The payload satisfies a restriction. -/
structure Satisfies (r : ResourceGrantRestrictions) (input : AuthorizationInput) : Prop where
  notAggregateOnly : r.aggregateOnly ≠ some true
  proposalOnly : r.proposalOnly = some true → input.phase = .propose
  operations : ∀ allowed, r.operations = some allowed →
    input.operation ∈ allowed ∧ ∀ name, OperationName input.payload name → name ∈ allowed
  accounts : ∀ allowed, r.accountIds = some allowed →
    ∀ id, NamedIn input.payload ⟨.account, id⟩ → id ∈ allowed
  categories : ∀ allowed, r.categoryIds = some allowed →
    ∀ id, NamedIn input.payload ⟨.category, id⟩ → id ∈ allowed
  count : ∀ n, r.maxOperationCount = some n → (payloadOperations input.payload).length ≤ n
  gross : ∀ limits, r.maxGrossOutgoing = some limits → ∀ currency,
    (∀ limit ∈ limits, limit.currency = currency →
      grossOf (payloadOutgoing input.payload) currency ≤ limit.minorUnits) ∧
    ((∃ e ∈ payloadOutgoing input.payload, e.1 = currency) →
      ∃ limit ∈ limits, limit.currency = currency)

theorem satisfies_of_passes {db : GovernanceDb} {input : AuthorizationInput} {space : Space}
    {policy : PolicyRow} {operations : List PayloadOperation}
    {totals : List (String × Nat)} {p : PreparedPayload} {acting : Acting}
    (h : Passes db input space policy resources operations totals p acting)
    (hphase : input.phase ≠ .read)
    (hallow : restrictionsAllow r input p visibility .operation = true) : Satisfies r input := by
  obtain ⟨hnames, hcount, haccounts, hcategories, hgross⟩ :=
    prepareAuthorizationPayload_spec h.prepared
  have hreads := operationList_reads h.operations_eq
  obtain ⟨htotals, hkeys⟩ := financialTotals_spec h.totals_eq
  rw [filterMap_outgoing_of_reads hreads] at htotals hkeys
  have hphase' : (input.phase != .read) = true := by simpa using hphase
  simp only [restrictionsAllow, financialRestrictionsAllow, Bool.and_eq_true, not_eq_true',
    hphase', Bool.or_true, Bool.and_true, decide_eq_false_iff_not] at hallow
  obtain ⟨⟨⟨⟨⟨⟨hagg, hprop⟩, -⟩, hops⟩, hacc⟩, hcat⟩, hmax, hlimits⟩ := hallow
  constructor
  · exact hagg
  · intro hp
    by_contra hne
    have : (input.phase != .propose) = true := by simpa using hne
    simp [hp, this] at hprop
  · intro allowed hr
    rw [hr, Option.all_some, hnames, all_cons, Bool.and_eq_true, contains_iff_mem] at hops
    refine ⟨hops.1, ?_⟩
    rintro name ⟨o, ho, hname⟩
    obtain ⟨op, hop, hread⟩ := exists_of_forall₂ hreads ho
    obtain ⟨hopname, -⟩ := readOperation_eq_some hread
    rw [hname] at hopname
    cases hopname
    exact contains_iff_mem.mp (all_eq_true.mp hops.2 _ (mem_map_of_mem hop))
  · intro allowed hr id hid
    rw [hr, Option.all_some, accountsAllow, Bool.and_eq_true] at hacc
    have hmem := (haccounts id).mpr ((mem_payloadResources h.resources_eq).mpr hid)
    exact contains_iff_mem.mp (all_eq_true.mp hacc.2 id hmem)
  · intro allowed hr id hid
    rw [hr, Option.all_some] at hcat
    have hmem := (hcategories id).mpr ((mem_payloadResources h.resources_eq).mpr hid)
    exact contains_iff_mem.mp (all_eq_true.mp hcat id hmem)
  · intro n hr
    rw [hr, Option.all_some, hcount, decide_eq_true_eq] at hmax
    rwa [← hreads.length_eq]
  · intro limits hr currency
    rw [hr, Option.all_some, Bool.and_eq_true, hgross] at hlimits
    constructor
    · rintro limit hlimit rfl
      have := all_eq_true.mp hlimits.1 limit hlimit
      rw [decide_eq_true_eq, htotals] at this
      exact this
    · rintro ⟨e, he, rfl⟩
      obtain ⟨n, hn⟩ := hkeys e he
      have := all_eq_true.mp hlimits.2 _ hn
      rw [Option.any_eq_true] at this
      obtain ⟨limit, hfind, -⟩ := this
      exact ⟨limit, mem_of_find?_eq_some hfind, by simpa using find?_some hfind⟩

/-! ## The whole payload is covered -/

/-- The actor itself, or the issuer of the delegation its credential names. -/
inductive ActsFor (db : GovernanceDb) (input : AuthorizationInput) :
    String → Option AgentDelegation → Prop
  | human : agentAuth input = none → ActsFor db input input.actorId none
  | agent {auth : AgentAuth} {d : AgentDelegation} : agentAuth input = some auth →
    d ∈ db.delegations → d.id = auth.delegationId → d.version = auth.delegationVersion →
    d.revokedAt = none → d.agentId = input.actorId → ActsFor db input d.issuerActorId (some d)

/-- The only membership period of an actor that is current. -/
structure UniquePeriod (db : GovernanceDb) (spaceId actorId now : String) (m : SpaceMembership) :
    Prop where
  mem : m ∈ db.periods spaceId actorId
  current : isCurrentAt m.validFrom m.validUntil now = .ok true
  unique : ∀ m' ∈ db.periods spaceId actorId,
    isCurrentAt m'.validFrom m'.validUntil now = .ok true → m' = m

/-- An unrevoked grant of a period for a requirement. -/
structure Grants (db : GovernanceDb) (m : SpaceMembership) (required : RequiredRef)
    (grant : ResourceGrant) : Prop where
  mem : grant ∈ db.grants
  member : grant.membershipId = some m.id
  space : grant.spaceId = some m.spaceId
  actor : grant.actorId = m.actorId
  resource : grant.toResourceRef = required.toResourceRef
  capability : grant.capability = required.capability
  granted : grant.granted = true
  unrevoked : grant.revokedAt = none

/-- Every requirement rests on a grant, and on a delegated right for an agent, whose restrictions
the payload satisfies. -/
def Backed (db : GovernanceDb) (input : AuthorizationInput) : Prop :=
  ∃ actor delegation m, ActsFor db input actor delegation ∧
    UniquePeriod db input.spaceId actor input.now m ∧
    ∀ required ∈ input.required,
      (∃ grant, Grants db m required grant ∧ Satisfies grant.restrictions input) ∧
      ∀ d, delegation = some d → ∃ right ∈ d.rights,
        right.toResourceRef = required.toResourceRef ∧ right.capability = required.capability ∧
        ∀ r, right.restrictions = some r → Satisfies r input

/-- Every named resource is required, and every requirement is backed. -/
def CoversPayload (db : GovernanceDb) (input : AuthorizationInput) : Prop :=
  (∀ ref, NamedIn input.payload ref → ∃ required ∈ input.required, required.toResourceRef = ref) ∧
    Backed db input

/-- An account or category that only a required aggregate budget covers. -/
def AggregateExempts (input : AuthorizationInput) : Prop :=
  aggregateGrant input = true ∧ ∃ ref, NamedIn input.payload ref ∧
    (ref.resourceKind = .account ∨ ref.resourceKind = .category) ∧
    ∀ required ∈ input.required, required.toResourceRef ≠ ref

theorem mem_filterAuxM {α : Type} {f : α → Except String Bool} (a : α) :
    ∀ {l acc r : List α}, l.filterAuxM f acc = .ok r →
      (a ∈ r ↔ a ∈ acc ∨ a ∈ l ∧ f a = .ok true)
  | [], acc, r, h => by
    cases h
    simp
  | x :: l, acc, r, h => by
    rw [List.filterAuxM, bind_ok] at h
    obtain ⟨b, hb, h⟩ := h
    rw [mem_filterAuxM a h, mem_cons]
    cases b with
    | false =>
      rw [cond_false]
      constructor
      · rintro (h | ⟨h, hf⟩)
        · exact .inl h
        · exact .inr ⟨.inr h, hf⟩
      · rintro (h | ⟨rfl | h, hf⟩)
        · exact .inl h
        · rw [hb] at hf
          cases hf
        · exact .inr ⟨h, hf⟩
    | true =>
      rw [cond_true, mem_cons]
      constructor
      · rintro ((rfl | h) | ⟨h, hf⟩)
        · exact .inr ⟨.inl rfl, hb⟩
        · exact .inl h
        · exact .inr ⟨.inr h, hf⟩
      · rintro (h | ⟨rfl | h, hf⟩)
        · exact .inl (.inr h)
        · exact .inl (.inl rfl)
        · exact .inr ⟨h, hf⟩

theorem mem_filterM {α : Type} {f : α → Except String Bool} {l r : List α}
    (h : l.filterM f = .ok r) (a : α) : a ∈ r ↔ a ∈ l ∧ f a = .ok true := by
  obtain ⟨r', hr, h⟩ := bind_ok.mp h
  cases h
  rw [mem_reverse, mem_filterAuxM a hr]
  simp

theorem uniquePeriod_of_current {db : GovernanceDb} {now : String}
    (h : db.currentMembership spaceId actorId now = .ok (some m)) :
    UniquePeriod db spaceId actorId now m := by
  unfold GovernanceDb.currentMembership at h
  split at h
  · obtain ⟨active, hactive, h⟩ := bind_ok.mp h
    split at h
    · cases h
      have hmem := mem_filterM hactive
      have hm := (hmem m).mp mem_cons_self
      exact ⟨hm.1, hm.2, fun m' h' hc => mem_singleton.mp ((hmem m').mpr ⟨h', hc⟩)⟩
    · cases h
  · cases h

theorem resourceRef_ext {a b : ResourceRef} (hk : a.resourceKind = b.resourceKind)
    (hi : a.resourceId = b.resourceId) : a = b := by
  cases a
  cases b
  cases hk
  cases hi
  rfl

theorem grants_of_currentGrant {db : GovernanceDb}
    {budgetId : Option String} {grant : ResourceGrant}
    (hspace : m.spaceId = spaceId) (hactor : m.actorId = actorId)
    (h : db.currentGrant actorId spaceId m.id budgetId required.toResourceRef
      required.capability = some grant) : Grants db m required grant := by
  obtain ⟨row, hrow, h⟩ := Option.bind_eq_some_iff.mp h
  split at h
  · cases h
  · cases h
    have hmem := mem_of_find?_eq_some hrow
    have hprop := find?_some hrow
    simp only [Bool.and_eq_true, beq_iff_eq, Option.isNone_iff_eq_none] at hprop
    obtain ⟨⟨⟨⟨⟨⟨⟨ha, hs⟩, hm⟩, hc⟩, hk⟩, hi⟩, hg⟩, hr⟩ := hprop
    refine ⟨hmem, hm, hs.trans (by rw [hspace]), ha.trans hactor.symm, ?_, hc, hg, hr⟩
    exact resourceRef_ext hk hi

theorem mem_periods {db : GovernanceDb}
    (h : m ∈ db.periods spaceId actorId) : m.spaceId = spaceId ∧ m.actorId = actorId := by
  have := (mem_filter.mp h).2
  simp only [Bool.and_eq_true, beq_iff_eq] at this
  exact this.1

theorem backed_of_passes {db : GovernanceDb} {input : AuthorizationInput} {space : Space}
    {policy : PolicyRow} {operations : List PayloadOperation}
    {totals : List (String × Nat)} {p : PreparedPayload} {acting : Acting}
    (h : Passes db input space policy resources operations totals p acting)
    (hphase : input.phase ≠ .read) : Backed db input := by
  have hacting : ∃ m, ActsFor db input acting.principalActorId acting.delegation ∧
      UniquePeriod db input.spaceId acting.principalActorId input.now m ∧ acting.member = m := by
    have hmember := h.member
    unfold resolveMember at hmember
    split at hmember
    · next auth hauth =>
      obtain ⟨-, d, m, hd, hagent, hactor, hm, -, -, rfl⟩ := resolveAgent_ok hmember
      have hprop := find?_some hd
      simp only [Bool.and_eq_true, beq_iff_eq, Option.isNone_iff_eq_none] at hprop
      exact ⟨m, .agent hauth (mem_of_find?_eq_some hd) hprop.1.1 hprop.1.2 hprop.2
        (hagent.trans hactor.symm), uniquePeriod_of_current hm, rfl⟩
    · next hauth =>
      obtain ⟨m, hm, -, -, rfl⟩ := resolveHuman_ok.mp hmember
      exact ⟨m, .human hauth, uniquePeriod_of_current hm, rfl⟩
  obtain ⟨m, hacts, hunique, hmem⟩ := hacting
  refine ⟨_, _, m, hacts, hunique, fun required hreq => ?_⟩
  obtain ⟨hright, grant, hgrant, hallow⟩ := h.granted required hreq
  rw [hmem] at hgrant
  obtain ⟨hspace, hactor⟩ := mem_periods hunique.mem
  refine ⟨⟨grant, grants_of_currentGrant hspace hactor hgrant,
    satisfies_of_passes h hphase (hallow _ mem_cons_self)⟩, fun d hd => ?_⟩
  obtain ⟨right, hr⟩ := Option.isSome_iff_exists.mp (hright (by rw [hd]; rfl))
  rw [hr] at hallow
  have hfind : d.rights.find? (fun right => right.toResourceRef = required.toResourceRef &&
      right.capability == required.capability) = some right := by
    rw [delegatedRight, hd, Option.bind_some] at hr
    exact hr
  have hprop := find?_some hfind
  simp only [Bool.and_eq_true, decide_eq_true_eq, beq_iff_eq] at hprop
  refine ⟨right, mem_of_find?_eq_some hfind, hprop.1, hprop.2, fun r hrr => ?_⟩
  refine satisfies_of_passes h hphase (hallow r (mem_cons_of_mem _ ?_))
  rw [Option.bind_some, hrr]
  exact mem_singleton_self r

/-- **Outside the read phase, an allowed request covers its whole payload unless the aggregate
exemption leaves an account or a category out.** -/
theorem authorization_covers_payload (db : GovernanceDb) (input : AuthorizationInput)
    (hphase : input.phase ≠ .read) (hallowed : (authorize db input).allowed = true) :
    CoversPayload db input ↔ ¬ AggregateExempts input := by
  obtain ⟨space, policy, resources, operations, totals, p, acting, h⟩ :=
    allowed_iff_passes.mp hallowed
  constructor
  · rintro ⟨hall, -⟩ ⟨-, ref, hnamed, -, hout⟩
    obtain ⟨required, hmem, heq⟩ := hall ref hnamed
    exact hout required hmem heq
  · intro hexempt
    refine ⟨fun ref hnamed => ?_, backed_of_passes h hphase⟩
    have hcovered := h.covered ref ((mem_payloadResources h.resources_eq).mpr hnamed)
    have hread : decide (input.phase = .read) = false := decide_eq_false hphase
    simp only [isCovered, budgetResourceRead, aggregateConclusionRead, hread, Bool.false_and,
      Bool.or_false, Bool.or_eq_true, any_eq_true, decide_eq_true_eq, Bool.and_eq_true] at hcovered
    rcases hcovered with hreq | ⟨hkind, hagg⟩
    · exact hreq
    · by_contra hnone
      push Not at hnone
      exact hexempt ⟨hagg, ref, hnamed, hkind, hnone⟩

def household : GovernanceDb where
  spaces := [{
    id := "home", name := "Home", kind := "household", budgetId := some "budget"
    createdBy := "ada", createdAt := "2026-01-01T00:00:00.000Z", deletedAt := none }]
  memberships := [{
    id := "period", spaceId := "home", actorId := "ada", grantedBy := "ada"
    validFrom := "2026-01-01T00:00:00.000Z", validUntil := none, revokedAt := none
    createdAt := "2026-01-01T00:00:00.000Z", origin := "governed" }]
  policies := [{
    spaceId := "home", version := 1, actorId := "ada", createdAt := "2026-01-01T00:00:00.000Z"
    isCurrent := true
    policy := {
      minimumApprovers := 1, approvalThresholds := [], operationApprovers := []
      assistanceMaximum := none } }]
  grants := [{
    id := "grant", spaceId := some "home", membershipId := some "period", actorId := "ada"
    budgetId := some "budget", resourceKind := .budget, resourceId := "budget"
    capability := "propose", granted := true, restrictions := {}
    createdAt := "2026-01-01T00:00:00.000Z", updatedAt := "2026-01-01T00:00:00.000Z"
    revokedAt := none }]
  identities := [{ actorId := "ada", status := "active", scope := "home" }]

def proposalFor (visibility : Visibility) (operation : Entries) : AuthorizationInput where
  actorId := "ada"
  spaceId := "home"
  expectedPolicyVersion := "1"
  phase := .propose
  operation := "transfer"
  required := [{
    resourceKind := .budget, resourceId := "budget", capability := "propose"
    visibility := some visibility }]
  payload := .object [("operations", .array [.object operation])]
  now := "2026-02-01T00:00:00.000Z"

theorem household_covers :
    CoversPayload household
      (proposalFor .resource [("operation", .string "transfer"), ("budgetId", .string "budget")]) :=
  (authorization_covers_payload household _ (by decide) (by decide +kernel)).mpr
    fun h => absurd h.1 (by decide)

theorem aggregate_proposal_uncovered :
    ¬ ∀ db input, input.phase ≠ .read → (authorize db input).allowed = true →
      CoversPayload db input := by
  intro h
  obtain ⟨hall, -⟩ := h household
    (proposalFor .aggregate [("operation", .string "transfer"), ("accountId", .string "checking")])
    (by decide) (by decide +kernel)
  obtain ⟨required, hmem, heq⟩ := hall ⟨.account, "checking"⟩
    ⟨_, .entry mem_cons_self (.item mem_cons_self .here),
      .idField (by decide : ("accountId", _) ∈ fieldKinds) rfl⟩
  rw [mem_singleton.mp hmem] at heq
  exact absurd heq (by decide)

end BalanceFrame.Governance
