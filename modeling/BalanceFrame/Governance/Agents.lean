import BalanceFrame.Governance.Authority
import Mathlib.Logic.Relation

/-!
# An agent acts within its issuer's authority

`issuerRequest` is the request of an agent made by the issuer of its delegation. The two runs of
`authorizeForPurpose` part in the identity checks and in `resolveMember` only; every other check
reads the same request (`issuer_passes`).

A `StoreChange` is any change of the store whose writes to `agent_delegations` are those of
`delegate`, `revokeDelegation` and `setAgentStatus`: the other tables change freely. The issuer of a
delegation survives it (`issuer_kept`), so a later denial of the issuer denies the agent.
-/

namespace BalanceFrame.Governance

open Library Bool

/-- A live session of an actor. -/
structure LiveSession (auth : OperationalAuth) (actorId now : String) : Prop where
  actor : auth.actorId = actorId
  session : (∃ s, auth.credential = .session s) ∨ ∃ s r, auth.credential = .humanSession s r
  live : credentialLifetimeValid auth now = true

/-- The same request by the issuer under a session. -/
def issuerRequest (input : AuthorizationInput) (issuer : String) (auth : OperationalAuth) :
    AuthorizationInput :=
  { input with
    actorId := issuer, auth := some auth, agentId := none, delegationId := none
    delegationVersion := none }

section Issuer

variable {db : GovernanceDb} {input : AuthorizationInput} {auth : OperationalAuth}
  {issuer : String}

theorem agentAuth_issuerRequest (hs : LiveSession auth issuer input.now) :
    agentAuth (issuerRequest input issuer auth) = none := by
  obtain ⟨s, h⟩ | ⟨s, r, h⟩ := hs.session <;> simp [agentAuth, issuerRequest, h]

theorem checkRequest_issuer {space : Space} {policy : PolicyRow}
    (hs : LiveSession auth issuer input.now)
    (h : checkRequest db input .operation = .ok (space, policy)) :
    checkRequest db (issuerRequest input issuer auth) .operation = .ok (space, policy) := by
  simp only [checkRequest, bind_ok, attempt_eq_ok, orStop_ok, reject_ok] at h ⊢
  obtain ⟨t, ht, u, hop, s, hspace, u₁, hrule, p, hpolicy, u₂, hversion, -, -, -, -, -, -, h⟩ := h
  refine ⟨t, ht, u, hop, s, hspace, u₁, hrule, p, hpolicy, u₂, hversion, (), ?_, (), ?_, (), rfl, h⟩
  · simp [issuerRequest, hs.actor]
  · simp [issuerRequest, hs.live]

theorem checkPrincipal_issuer {version : Option String}
    (hs : LiveSession auth issuer input.now) :
    checkPrincipal db (issuerRequest input issuer auth) version = .ok () := by
  obtain ⟨s, h⟩ | ⟨s, r, h⟩ := hs.session <;> simp [checkPrincipal, issuerRequest, h]

/-- A requirement granted to the acting issuer under a delegation is granted without it: the
delegated right only adds a restriction. -/
theorem granted_issuer {budgetId : Option String} {p : PreparedPayload} {m : SpaceMembership}
    {d : AgentDelegation} {required : RequiredRef}
    (h : Granted db input budgetId p ⟨issuer, m, some d⟩ required) :
    Granted db (issuerRequest input issuer auth) budgetId p ⟨issuer, m, none⟩ required := by
  obtain ⟨-, grant, hgrant, hallow⟩ := h
  refine ⟨fun h => absurd h false_ne_true, grant, hgrant, fun r hr => ?_⟩
  rw [List.mem_singleton.mp hr]
  exact hallow _ List.mem_cons_self

theorem issuer_passes {space : Space} {policy : PolicyRow} {resources : List ResourceRef}
    {operations : List PayloadOperation} {totals : List (String × Nat)} {p : PreparedPayload}
    {acting : Acting} {a : AgentAuth} (ha : agentAuth input = some a)
    (h : Passes db input space policy resources operations totals p acting) :
    input.phase ≠ .approve ∧ ∃ d, db.delegation a.delegationId a.delegationVersion = some d ∧
      ∀ auth, LiveSession auth d.issuerActorId input.now →
        Passes db (issuerRequest input d.issuerActorId auth) space policy resources operations
          totals p { acting with delegation := none } := by
  have hmember := h.member
  rw [resolveMember, ha] at hmember
  obtain ⟨hphase, d, m, hd, -, -, hm, hid, hne, rfl⟩ := resolveAgent_ok hmember
  refine ⟨hphase, d, hd, fun auth hs => ?_⟩
  exact {
    request := checkRequest_issuer hs h.request
    principal := checkPrincipal_issuer hs
    approval := if_neg hphase
    resources_eq := h.resources_eq
    operations_eq := h.operations_eq
    nonempty := h.nonempty
    totals_eq := h.totals_eq
    prepared := h.prepared
    wellFormed := h.wellFormed
    delegable := by rw [agentAuth_issuerRequest hs]; rfl
    covered := h.covered
    member := by
      rw [resolveMember, agentAuth_issuerRequest hs]
      exact resolveHuman_ok.mpr ⟨m, hm, hid, hne, rfl⟩
    granted := fun required hreq => granted_issuer (h.granted required hreq) }

theorem issuer_allowed {a : AgentAuth} (ha : agentAuth input = some a)
    (h : (authorize db input).allowed = true) :
    input.phase ≠ .approve ∧ ∃ d, db.delegation a.delegationId a.delegationVersion = some d ∧
      ∀ auth, LiveSession auth d.issuerActorId input.now →
        (authorize db (issuerRequest input d.issuerActorId auth)).allowed = true := by
  obtain ⟨space, policy, resources, operations, totals, p, acting, h⟩ := allowed_iff_passes.mp h
  obtain ⟨hphase, d, hd, hall⟩ := issuer_passes ha h
  exact ⟨hphase, d, hd, fun auth hs => allowed_iff_passes.mpr ⟨_, _, _, _, _, _, _, hall auth hs⟩⟩

end Issuer

/-! ## Changes of the store -/

/-- The primary key of `agent_delegations`. -/
def AgentDelegation.key (d : AgentDelegation) : String × String := (d.id, d.version)

/-- The statements that write `agent_delegations`: the `INSERT` of `delegate`, and the `UPDATE`s of
`delegate`, `revokeDelegation` and `setAgentStatus`, each with its own `WHERE`. -/
inductive DelegationWrite (rows : List AgentDelegation) : List AgentDelegation → Prop
  | none : DelegationWrite rows rows
  | insert {row : AgentDelegation} : row.key ∉ rows.map AgentDelegation.key →
    DelegationWrite rows (rows ++ [row])
  | revoke (hits : AgentDelegation → Bool) (now : String) :
    DelegationWrite rows
      (rows.map fun d => if hits d then { d with revokedAt := some now } else d)

/-- A change of the store. -/
def StoreChange (db db' : GovernanceDb) : Prop := DelegationWrite db.delegations db'.delegations

/-- A store later in the history. -/
abbrev Later : GovernanceDb → GovernanceDb → Prop := Relation.ReflTransGen StoreChange

/-- The table's key holds. -/
def Keyed (db : GovernanceDb) : Prop := (db.delegations.map AgentDelegation.key).Nodup

/-- Every row is still there, under its key and with its issuer. -/
def IssuersKept (rows rows' : List AgentDelegation) : Prop :=
  ∀ d ∈ rows, ∃ d' ∈ rows', d'.key = d.key ∧ d'.issuerActorId = d.issuerActorId

theorem delegationWrite_keeps {rows rows' : List AgentDelegation}
    (hk : (rows.map AgentDelegation.key).Nodup) (h : DelegationWrite rows rows') :
    (rows'.map AgentDelegation.key).Nodup ∧ IssuersKept rows rows' := by
  cases h with
  | none => exact ⟨hk, fun d hd => ⟨d, hd, rfl, rfl⟩⟩
  | insert hfresh =>
    refine ⟨?_, fun d hd => ⟨d, List.mem_append_left _ hd, rfl, rfl⟩⟩
    rw [List.map_append, List.map_singleton]
    exact hk.append (List.nodup_singleton _) (List.disjoint_singleton.mpr hfresh)
  | revoke hits now =>
    have hkey : ∀ d : AgentDelegation,
        (if hits d then { d with revokedAt := some now } else d).key = d.key ∧
          (if hits d then { d with revokedAt := some now } else d).issuerActorId =
            d.issuerActorId := by
      intro d
      split <;> exact ⟨rfl, rfl⟩
    refine ⟨?_, fun d hd => ⟨_, List.mem_map_of_mem hd, hkey d⟩⟩
    rw [List.map_map]
    exact List.map_congr_left (fun d _ => (hkey d).1) ▸ hk

theorem later_keeps {db db' : GovernanceDb} (hk : Keyed db) (h : Later db db') :
    Keyed db' ∧ IssuersKept db.delegations db'.delegations := by
  induction h with
  | refl => exact ⟨hk, fun d hd => ⟨d, hd, rfl, rfl⟩⟩
  | tail _ hstep ih =>
    obtain ⟨hk', hkept⟩ := ih
    obtain ⟨hk'', hkept'⟩ := delegationWrite_keeps hk' hstep
    refine ⟨hk'', fun d hd => ?_⟩
    obtain ⟨d', hd', hkey, hissuer⟩ := hkept d hd
    obtain ⟨d'', hd'', hkey', hissuer'⟩ := hkept' d' hd'
    exact ⟨d'', hd'', hkey'.trans hkey, hissuer'.trans hissuer⟩

theorem delegation_some {db : GovernanceDb} {id version : String} {d : AgentDelegation}
    (h : db.delegation id version = some d) : d ∈ db.delegations ∧ d.key = (id, version) := by
  have hprop := List.find?_some h
  simp only [and_eq_true, beq_iff_eq] at hprop
  exact ⟨List.mem_of_find?_eq_some h, Prod.ext hprop.1.1 hprop.1.2⟩

theorem issuer_kept {db db' : GovernanceDb} (hk : Keyed db) (h : Later db db') {id version : String}
    {d d' : AgentDelegation} (hd : db.delegation id version = some d)
    (hd' : db'.delegation id version = some d') : d'.issuerActorId = d.issuerActorId := by
  obtain ⟨hk', hkept⟩ := later_keeps hk h
  obtain ⟨hmem, hkey⟩ := delegation_some hd
  obtain ⟨hmem', hkey'⟩ := delegation_some hd'
  obtain ⟨e, he, hekey, hissuer⟩ := hkept d hmem
  rw [List.inj_on_of_nodup_map hk' hmem' he (hkey'.trans (hkey.symm.trans hekey.symm)), hissuer]

/-- **An allowed agent's issuer is allowed the same, and where the issuer is denied later the agent
is denied too; an agent never approves.** -/
theorem agent_within_issuer (db : GovernanceDb) (hkeyed : Keyed db) (input : AuthorizationInput)
    (a : AgentAuth) (hagent : agentAuth input = some a)
    (hallowed : (authorize db input).allowed = true) :
    input.phase ≠ .approve ∧ ∃ d, db.delegation a.delegationId a.delegationVersion = some d ∧
      (∀ auth, LiveSession auth d.issuerActorId input.now →
        (authorize db (issuerRequest input d.issuerActorId auth)).allowed = true) ∧
      ∀ db', Later db db' → ∀ later a', agentAuth later = some a' →
        a'.delegationId = a.delegationId → a'.delegationVersion = a.delegationVersion →
        ∀ auth, LiveSession auth d.issuerActorId later.now →
          (authorize db' (issuerRequest later d.issuerActorId auth)).allowed = false →
          (authorize db' later).allowed = false := by
  obtain ⟨hphase, d, hd, hissuer⟩ := issuer_allowed hagent hallowed
  refine ⟨hphase, d, hd, hissuer, ?_⟩
  intro db' hlater later a' hagent' hid hversion auth hs hdenied
  by_contra hne
  obtain ⟨-, d', hd', hissuer'⟩ := issuer_allowed hagent' (not_eq_false _ ▸ hne)
  rw [hid, hversion] at hd'
  rw [issuer_kept hkeyed hlater hd hd'] at hissuer'
  rw [hissuer' auth hs] at hdenied
  cases hdenied

def proposerDelegation : AgentDelegation where
  id := "delegation"
  version := "1"
  spaceId := "home"
  agentId := "helper"
  issuerActorId := "ada"
  issuerMembershipId := "period"
  rights := [{
    resourceKind := .budget, resourceId := "budget", capability := "propose"
    restrictions := some { maxOperationCount := some 1 } }]
  validFrom := "2026-01-01T00:00:00.000Z"
  validUntil := none
  revokedAt := none

def householdWithAgent : GovernanceDb :=
  { household with
    agents := [{ agentId := "helper", registeredSpaceId := "home", status := .active }]
    delegations := [proposerDelegation]
    credentials := [{
      spaceId := "home", credentialId := "key", credentialOwnerId := "ada"
      principalType := .agent, principalId := "helper", delegationId := some "delegation"
      delegationVersion := some "1", issuerMembershipId := "period", revokedAt := none }] }

def agentProposal : AuthorizationInput :=
  { proposalFor .resource [("operation", .string "transfer"), ("budgetId", .string "budget")] with
    actorId := "helper"
    auth := some { actorId := "helper", credential := .agentKey "key" "ada" "delegation" "1" }
    agentId := some "helper", delegationId := some "delegation", delegationVersion := some "1" }

theorem agentProposal_issuer_allowed :
    (authorize householdWithAgent
      (issuerRequest agentProposal "ada" ⟨"ada", .session "s", none, none⟩)).allowed = true := by
  obtain ⟨-, d, hd, hissuer, -⟩ := agent_within_issuer householdWithAgent
    (List.nodup_singleton _) agentProposal ⟨"helper", "ada", "delegation", "1"⟩ rfl
    (by decide +kernel)
  have : householdWithAgent.delegation "delegation" "1" = some proposerDelegation := by
    decide +kernel
  rw [this] at hd
  cases hd
  exact hissuer _ ⟨rfl, .inl ⟨"s", rfl⟩, by decide +kernel⟩

/-! ## Revocation -/

/-- Every revoked row is still there, revoked. -/
def RevokedKept (rows rows' : List AgentDelegation) : Prop :=
  ∀ d ∈ rows, d.revokedAt ≠ none → ∃ d' ∈ rows', d'.key = d.key ∧ d'.revokedAt ≠ none

theorem delegationWrite_revoked {rows rows' : List AgentDelegation}
    (h : DelegationWrite rows rows') : RevokedKept rows rows' := by
  intro d hd hrevoked
  cases h with
  | none => exact ⟨d, hd, rfl, hrevoked⟩
  | insert hfresh => exact ⟨d, List.mem_append_left _ hd, rfl, hrevoked⟩
  | revoke hits now =>
    refine ⟨_, List.mem_map_of_mem hd, ?_⟩
    split
    · exact ⟨rfl, nofun⟩
    · exact ⟨rfl, hrevoked⟩

theorem later_revoked {db db' : GovernanceDb} (h : Later db db') :
    RevokedKept db.delegations db'.delegations := by
  induction h with
  | refl => exact fun d hd hrevoked => ⟨d, hd, rfl, hrevoked⟩
  | tail _ hstep ih =>
    intro d hd hrevoked
    obtain ⟨d', hd', hkey, hrevoked'⟩ := ih d hd hrevoked
    obtain ⟨d'', hd'', hkey', hrevoked''⟩ := delegationWrite_revoked hstep d' hd' hrevoked'
    exact ⟨d'', hd'', hkey'.trans hkey, hrevoked''⟩

/-- **A revoked delegation never acts again**, whatever is written later, by whatever request. -/
theorem revoked_never_acts (db : GovernanceDb) (hkeyed : Keyed db) (d : AgentDelegation)
    (hd : d ∈ db.delegations) (hrevoked : d.revokedAt ≠ none) (db' : GovernanceDb)
    (hlater : Later db db') (input : AuthorizationInput) (a : AgentAuth)
    (hagent : agentAuth input = some a) (hid : a.delegationId = d.id)
    (hversion : a.delegationVersion = d.version) : (authorize db' input).allowed = false := by
  by_contra hne
  obtain ⟨-, e, he, -⟩ := issuer_allowed hagent (not_eq_false _ ▸ hne)
  obtain ⟨d', hd', hkey, hrevoked'⟩ := later_revoked hlater d hd hrevoked
  obtain ⟨hmem, hekey⟩ := delegation_some he
  rw [hid, hversion] at hekey
  have hsame : e = d' :=
    List.inj_on_of_nodup_map (later_keeps hkeyed hlater).1 hmem hd' (hekey.trans hkey.symm)
  have hlive := List.find?_some he
  simp only [and_eq_true, Option.isNone_iff_eq_none] at hlive
  exact hrevoked' (hsame ▸ hlive.2)

/-- The household after the delegation of `householdWithAgent` is revoked. -/
def householdRevoked : GovernanceDb :=
  { householdWithAgent with
    delegations := [{ proposerDelegation with revokedAt := some "2026-01-02T00:00:00.000Z" }] }

/-- The household after a new version of the delegation is issued. -/
def householdRenewed : GovernanceDb :=
  { householdRevoked with
    delegations := householdRevoked.delegations ++ [{ proposerDelegation with version := "2" }] }

theorem agentProposal_revoked : (authorize householdRenewed agentProposal).allowed = false := by
  have hrenewed : StoreChange householdRevoked householdRenewed :=
    DelegationWrite.insert (by decide +kernel)
  exact revoked_never_acts householdRevoked (List.nodup_singleton _) _ List.mem_cons_self nofun _
    (.single hrenewed) agentProposal ⟨"helper", "ada", "delegation", "1"⟩ rfl rfl rfl

end BalanceFrame.Governance
