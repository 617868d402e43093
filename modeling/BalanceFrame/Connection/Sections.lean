import BalanceFrame.Connection.Lifecycle

/-!
# The sections of the connection manager

What every operation of a manager finds and leaves, call by call: from a settled state it makes a
settled one, however its calls end (`upholds_connectBudget`, `upholds_discoverBudgets`,
`upholds_useConnection`, `upholds_disconnectCurrentConnection`), and every call on the way meets
`Guard`.
-/

namespace BalanceFrame.Connection

open Library
open Library.Prog
open Liquidity (Json)

variable {credentials : Credentials} {connected : ConnectedBudget} {config : ConnectionConfig}

variable {h : History} {v : Lifecycle} {manager connector : Nat}

/-- A program that leaves everything as it is. -/
abbrev Reads {α : Type} (h : History) (v : Lifecycle) (p : Program α) : Prop :=
  Spec (fun _ v' _ => v' = v) h v p

theorem reads_loadConfig (hone : OneLive v.log) : Reads h v (loadConfig manager) := by
  refine remote_bind hone trivial rfl (fun _ _ _ => rfl) fun found => ?_
  cases found with
  | none => rfl
  | some value =>
    dsimp only
    split <;> rfl

theorem reads_checkExpected (hone : OneLive v.log) (expectedBudgetId : Option String) :
    Reads h v (checkExpected manager expectedBudgetId) := by
  cases expectedBudgetId with
  | none => rfl
  | some expected =>
    refine (reads_loadConfig hone).bind (fun _ _ _ _ hv => hv) fun h' v' config _ hv => ?_
    exact upholds_ite (fun _ => hv) fun _ => hv

theorem reads_resolveCredentials (hone : OneLive v.log) (credentials : Option Credentials) :
    Reads h v (resolveCredentials manager credentials) := by
  cases credentials with
  | some credentials => rfl
  | none =>
    refine remote_bind hone trivial rfl (fun _ _ _ => rfl) fun found => ?_
    cases found <;> rfl

/-! ## A new connector -/

/-- A connector that was made by its manager, which is the owner. -/
structure Trying (v : Lifecycle) (manager connector : Nat) (entry : ConnectorLog) : Prop
    extends Fresh v connector where
  owner : v.owner = some manager
  logged : v.log connector = some entry
  live : entry.disconnected = false
  ok : entry.failed = false

theorem Trying.usable {entry : ConnectorLog} (hv : Trying v manager connector entry) :
    Usable v.log connector := ⟨entry, hv.logged, hv.live, hv.ok⟩

theorem Trying.record {entry : ConnectorLog} {f : ConnectorLog → ConnectorLog}
    (hv : Trying v manager connector entry)
    (hlive : ∀ entry, (f entry).disconnected = entry.disconnected)
    (hok : ∀ entry, (f entry).failed = entry.failed) :
    Trying (v.record connector f) manager connector (f entry) where
  only := hv.only.record hlive
  slots := hv.slots
  owner := hv.owner
  logged := by rw [record_log_self, hv.logged]; rfl
  live := (hlive entry).trans hv.live
  ok := (hok entry).trans hv.ok

theorem Idle.trying (hv : Idle v) (howner : v.owner = some manager) (credentials : Credentials) :
    Trying { v with log := Function.update v.log connector (some { credentials }) } manager connector
      { credentials } where
  only := by
    refine ⟨⟨_, Function.update_self _ _ _, rfl⟩, fun c hc => ?_⟩
    by_contra hne
    obtain ⟨entry, hentry, hlive⟩ := hc
    exact hv.dead c ⟨entry, (Function.update_of_ne hne _ _).symm.trans hentry, hlive⟩
  slots := hv.slots
  owner := howner
  logged := Function.update_self _ _ _
  live := rfl
  ok := rfl

section Calls

variable {β : Type} {Q : History → Lifecycle → Except Failure β → Prop} {entry : ConnectorLog}

theorem create_bind {f : Except Failure Nat → Program β}
    (hv : Idle v) (howner : v.owner = some manager)
    (herror : ∀ h' e, h <+: h' → Spec Q h' v (f (.error e)))
    (hok : ∀ h' v' connector, h <+: h' → Trying v' manager connector { credentials } →
      Spec Q h' v' (f (.ok connector))) :
    Spec Q h v (attempt (request (.createConnector manager credentials)) >>= f) := by
  refine upholds_bind.mpr (upholds_attempt.mpr (upholds_ask.mpr ⟨⟨hv.oneLive, trivial⟩,
    fun r v' hr => ?_⟩))
  cases hr with
  | created hnew => exact hok _ _ _ (List.prefix_append _ _) (hv.trying howner credentials)
  | failed hc e => exact herror _ e (List.prefix_append _ _)
  | external hc => cases hc

theorem connect_bind {f : List BudgetInfo → Program β}
    (hv : Trying v manager connector entry) (herror : ∀ h' e, h <+: h' → Q h' v (.error e))
    (hok : ∀ h' v' budgets, h <+: h' →
      Trying v' manager connector { entry with connectedWith := some credentials } →
        Spec Q h' v' (f budgets)) :
    Spec Q h v (request (.connectConnector connector credentials) >>= f) := by
  refine upholds_request_bind ⟨hv.only.oneLive, hv.usable⟩ fun r v' hr => ?_
  cases hr with
  | connected c k budgets =>
    exact hok _ _ budgets (List.prefix_append _ _) (hv.record (fun _ => rfl) fun _ => rfl)
  | failed hc e => exact herror _ e (List.prefix_append _ _)
  | external hc => cases hc

theorem select_bind {id : String} {password : Option String} {f : BudgetInfo → Program β}
    (hv : Trying v manager connector entry) (herror : ∀ h' e, h <+: h' → Q h' v (.error e))
    (hok : ∀ h' v' budget, h <+: h' →
      Trying v' manager connector { entry with selected := some (id, budget) } →
        Spec Q h' v' (f budget)) :
    Spec Q h v (request (.selectBudget connector id password) >>= f) := by
  refine upholds_request_bind ⟨hv.only.oneLive, hv.usable⟩ fun r v' hr => ?_
  cases hr with
  | selected c i p budget =>
    exact hok _ _ budget (List.prefix_append _ _) (hv.record (fun _ => rfl) fun _ => rfl)
  | failed hc e => exact herror _ e (List.prefix_append _ _)
  | external hc => cases hc

end Calls

/-- What a manager has after it has made a connector and used it. -/
def Used (manager : Nat) (credentials : Credentials) (v : Lifecycle) (connected : ConnectedBudget) :
    Prop :=
  Connected v manager connected.connector connected.config credentials

theorem upholds_setConnected {entry : ConnectorLog}
    (hv : Trying v manager connected.connector entry)
    (hfits : Fits entry connected.config.budgetId credentials) :
    Spec (fun _ v' r => r = .ok () ∧ Used manager credentials v' connected) h v
      (setConnected manager connected credentials) := by
  refine slots_bind hv.only.oneLive fun h₁ _ => ?_
  refine upholds_ask.mpr ⟨⟨hv.only.oneLive, trivial⟩, fun r v' hr => ?_⟩
  cases hr with
  | setSlots =>
    refine ⟨rfl, ⟨hv.only, hv.owner, fun other hother => ?_⟩, ⟨connected, rfl, ?_⟩, entry, hv.logged,
      hfits⟩
    · exact (Function.update_of_ne hother _ _).trans (hv.slots other)
    · rw [hv.slots manager]
      exact Function.update_self _ _ _
  | failed hc => cases hc
  | external hc => cases hc

theorem upholds_connectNew {budgetId : String} (hv : Trying v manager connector { credentials }) :
    Spec (fun _ v' r => match r with
      | .ok connected => Used manager credentials v' connected
      | .error _ => Fresh v' connector) h v (connectNew manager connector budgetId credentials) := by
  refine connect_bind hv (fun _ _ _ => hv.toFresh) fun h₁ v₁ budgets _ hv₁ => ?_
  split
  · exact hv₁.toFresh
  · refine select_bind hv₁ (fun _ _ _ => hv₁.toFresh) fun h₂ v₂ selected _ hv₂ => ?_
    refine remote_bind hv₂.only.oneLive hv₂.usable rfl (fun _ _ _ => hv₂.toFresh)
      fun synchronization => ?_
    refine remote_bind hv₂.only.oneLive trivial rfl (fun _ _ _ => hv₂.toFresh) fun _ => ?_
    refine (upholds_setConnected hv₂ ?_).bind (fun _ _ _ _ hr => nomatch hr.1)
      fun _ _ _ _ hr => hr.2
    exact ⟨rfl, rfl, rfl, rfl, _, _, rfl, .inr rfl⟩

theorem upholds_restoreNew {synchronize : Bool} (hv : Trying v manager connector { credentials }) :
    Spec (fun _ v' r => match r with
      | .ok connected => Used manager credentials v' connected ∧ connected.config = config
      | .error _ => Fresh v' connector) h v
        (restoreNew manager connector config credentials synchronize) := by
  refine connect_bind hv (fun _ _ _ => hv.toFresh) fun h₁ v₁ _ _ hv₁ => ?_
  refine select_bind hv₁ (fun _ _ _ => hv₁.toFresh) fun h₂ v₂ budget _ hv₂ => ?_
  have hset : ∀ (h' : History) (synchronization : Option Json), Spec (fun _ v' r => match r with
      | .ok connected => Used manager credentials v' connected ∧ connected.config = config
      | .error _ => Fresh v' connector) h' v₂ (do
        setConnected manager { config, budget, connector, synchronization } credentials
        return { config, budget, connector, synchronization }) := by
    intro h' synchronization
    refine (upholds_setConnected hv₂ ?_).bind (fun _ _ _ _ hr => nomatch hr.1)
      fun _ _ _ _ hr => ⟨hr.2, rfl⟩
    exact ⟨rfl, rfl, rfl, rfl, _, _, rfl, .inl rfl⟩
  cases synchronize with
  | false => exact hset _ none
  | true =>
    exact remote_bind hv₂.only.oneLive hv₂.usable rfl (fun _ _ _ => hv₂.toFresh)
      fun synchronization => hset _ synchronization

/-! ## Cleaning up -/

theorem Fresh.disconnect (hv : Fresh v connector) :
    Spec (fun _ v' r => match r with
      | .ok _ => Idle v'
      | .error _ => Quarantined v' manager connector) h v (disconnectConnector manager connector) := by
  refine (upholds_disconnectConnector hv.only).mono fun _ v' r _ hr => ?_
  cases r with
  | ok _ =>
    rw [show v' = _ from hr]
    refine ⟨hv.only.disconnected, fun other => ?_⟩
    by_cases hother : other = manager
    · subst hother
      simp [discarded, hv.slots]
    · exact (Function.update_of_ne hother _ _).trans (hv.slots other)
  | error e =>
    rw [show v' = _ from hr]
    refine hv.only.quarantined (fun other _ => hv.slots other) fun budget hbudget => ?_
    rw [hv.slots] at hbudget
    cases hbudget

theorem upholds_cleanUp_none (hv : Idle v) (error : Failure) :
    Spec (fun _ v' r => (∀ a, r ≠ .ok a) ∧ Mine v' manager) h v (cleanUp manager none error) := by
  refine (upholds_releaseOwner hv.oneLive).bind (fun _ _ _ _ hr => nomatch hr.1) fun _ v' _ _ hr => ?_
  exact ⟨nofun, hr.2 ▸ (hv.released manager).mine manager⟩

theorem upholds_cleanUp_some (hv : Fresh v connector) (error : Failure) :
    Spec (fun _ v' r => (∀ a, r ≠ .ok a) ∧ Mine v' manager) h v
      (cleanUp manager (some connector) error) := by
  refine upholds_bind.mpr (upholds_attempt.mpr (hv.disconnect.mono fun h₁ v₁ r _ hr => ?_))
  cases r with
  | ok _ =>
    refine (upholds_releaseOwner (Idle.oneLive hr)).bind (fun _ _ _ _ hr => nomatch hr.1)
      fun _ v' _ _ hr' => ?_
    exact ⟨nofun, hr'.2 ▸ (Idle.released hr manager).mine manager⟩
  | error e => exact ⟨nofun, .inr ⟨connector, hr⟩⟩

/-- **A new connector is put to use, or disconnected, or kept in quarantine.** -/
theorem upholds_withNewConnector {use : Nat → Program ConnectedBudget}
    {P : ConnectedBudget → Prop} (hv : Idle v) (howner : v.owner = some manager)
    (huse : ∀ h v connector, Trying v manager connector { credentials } →
      Spec (fun _ v' r => match r with
        | .ok connected => Used manager credentials v' connected ∧ P connected
        | .error _ => Fresh v' connector) h v (use connector)) :
    Spec (fun _ v' r => match r with
      | .ok connected => Used manager credentials v' connected ∧ P connected
      | .error _ => Mine v' manager) h v (withNewConnector manager credentials use) := by
  refine create_bind hv howner (fun h₁ e _ => ?_) fun h₁ v₁ connector _ hv₁ => ?_
  · refine (upholds_cleanUp_none hv e).mono fun _ v' r _ hr => ?_
    cases r with
    | ok a => exact absurd rfl (hr.1 a)
    | error e => exact hr.2
  · refine upholds_bind.mpr (upholds_attempt.mpr ((huse h₁ v₁ connector hv₁).mono
      fun h₂ v₂ r _ hr => ?_))
    cases r with
    | ok connected => exact hr
    | error e =>
      refine (upholds_cleanUp_some hr e).mono fun _ v' r _ hr => ?_
      cases r with
      | ok a => exact absurd rfl (hr.1 a)
      | error e => exact hr.2

/-! ## The operations -/

/-- What `runWithLifecycle` leaves to an operation. -/
structure Working (v : Lifecycle) (manager : Nat) : Prop where
  ready : Ready v manager
  owner : v.owner = some manager

theorem Ready.mine (hv : Ready v manager) : Mine v manager := .inl hv

theorem Ready.withOwner (hv : Ready v manager) :
    Working { v with owner := some manager } manager := by
  refine ⟨?_, rfl⟩
  rcases hv with hidle | ⟨connector, config, credentials, hconnected⟩
  · exact .inl ⟨hidle.dead, hidle.slots⟩
  · exact .inr ⟨connector, config, credentials, ⟨hconnected.only, rfl, hconnected.others⟩,
      hconnected.slots, hconnected.fits⟩

theorem disconnected_bind {β : Type} {Q : History → Lifecycle → Except Failure β → Prop}
    {f : Unit → Program β} (hv : Mine v manager)
    (herror : ∀ h' v' e, h <+: h' → Mine v' manager → Q h' v' (.error e))
    (hok : ∀ h' v', h <+: h' → Idle v' → Spec Q h' v' (f ())) :
    Spec Q h v (disconnectConnected manager >>= f) :=
  (upholds_disconnectConnected hv).bind (fun h' v' e hle hr => herror h' v' e hle hr)
    fun h' v' _ hle hr => hok h' v' hle hr

theorem upholds_connectBudget (budgetId : String) (credentials : Option Credentials)
    (hv : Working v manager) :
    Spec (fun _ v' _ => Settled v') h v (connectBudget manager budgetId credentials) := by
  refine disconnected_bind hv.ready.mine (fun _ _ _ _ hr => hr.settled) fun h₁ v₁ _ hidle => ?_
  refine setOwner_bind hidle.oneLive fun h₂ _ => ?_
  have hidle₂ : Idle { v₁ with owner := some manager } := ⟨hidle.dead, hidle.slots⟩
  refine (reads_resolveCredentials hidle₂.oneLive credentials).bind
    (fun _ _ _ _ hv => hv ▸ hidle₂.settled) fun h₃ v₃ found _ hv₃ => ?_
  subst hv₃
  refine (upholds_withNewConnector (P := fun _ => True) hidle₂ rfl fun h v connector hv => ?_).mono
    fun _ v' r _ hr => ?_
  · refine (upholds_connectNew hv).mono fun _ v' r _ hr => ?_
    cases r with
    | ok connected => exact ⟨hr, trivial⟩
    | error e => exact hr
  · cases r with
    | ok connected => exact ⟨manager, .inl (.inr ⟨_, _, _, hr.1⟩)⟩
    | error e => exact Mine.settled hr

theorem upholds_discoverBudgets (credentials : Option Credentials) (hv : Working v manager) :
    Spec (fun _ v' _ => Settled v') h v (discoverBudgets manager credentials) := by
  refine disconnected_bind hv.ready.mine (fun _ _ _ _ hr => hr.settled) fun h₁ v₁ _ hidle => ?_
  refine setOwner_bind hidle.oneLive fun h₂ _ => ?_
  have hidle₂ : Idle { v₁ with owner := some manager } := ⟨hidle.dead, hidle.slots⟩
  refine (reads_resolveCredentials hidle₂.oneLive credentials).bind
    (fun _ _ _ _ hv => hv ▸ hidle₂.settled) fun h₃ v₃ found _ hv₃ => ?_
  subst hv₃
  refine upholds_request_bind ⟨hidle₂.oneLive, trivial⟩ fun r v₄ hr => ?_
  cases hr with
  | failed hc e => exact hidle₂.settled
  | external hc => cases hc
  | @created _ connector _ hnew =>
    have hv₄ : Trying _ manager connector _ := hidle₂.trying rfl found
    have hquarantined : ∀ {v}, Quarantined v manager connector → Settled v :=
      fun hq => ⟨manager, .inr ⟨connector, hq⟩⟩
    refine upholds_bind.mpr (upholds_attempt.mpr (upholds_ask.mpr
      ⟨⟨hv₄.only.oneLive, hv₄.usable⟩, fun r v₅ hr => ?_⟩))
    have hfresh : Fresh v₅ connector := by
      cases hr with
      | connected c k budgets =>
        exact (hv₄.record (f := ({ · with connectedWith := some found })) (fun _ => rfl)
          fun _ => rfl).toFresh
      | failed hc e => exact hv₄.toFresh
      | external hc => cases hc
    cases r with
    | error e =>
      refine upholds_bind.mpr (upholds_attempt.mpr (hfresh.disconnect.mono fun h₆ v₆ r _ hr => ?_))
      cases r with
      | ok _ =>
        refine (upholds_releaseOwner (Idle.oneLive hr)).bind (fun _ _ _ _ hr => nomatch hr.1)
          fun _ v' _ _ hr' => ?_
        exact hr'.2 ▸ (Idle.released hr manager).settled
      | error e => exact hquarantined hr
    | ok budgets =>
      refine upholds_bind.mpr (upholds_attempt.mpr (hfresh.disconnect.mono fun h₆ v₆ r _ hr => ?_))
      have hreleased : Spec (fun _ v' _ => Settled v') h₆ v₆ (releaseUnlessQuarantined manager) := by
        cases r with
        | ok _ =>
          have hidle₆ : Idle v₆ := hr
          refine slots_bind hidle₆.oneLive fun h₇ _ => upholds_ite (fun _ => ?_) fun _ => hidle₆.settled
          refine (upholds_releaseOwner hidle₆.oneLive).mono fun _ v' _ _ hr' => ?_
          exact hr'.2 ▸ (hidle₆.released manager).settled
        | error e =>
          have hq : Quarantined v₆ manager connector := hr
          refine slots_bind hq.only.oneLive fun h₇ _ => upholds_ite (fun hnone => ?_)
            fun _ => hquarantined hq
          rw [hq.quarantined] at hnone
          cases hnone
      refine hreleased.bind (fun _ _ _ _ hr => hr) fun _ v' _ _ hsettled => ?_
      cases r <;> exact hsettled

/-! ## Restoring -/

theorem upholds_tryDisconnect (hv : Mine v manager) :
    Spec (fun _ v' r => r = .ok () ∧ Mine v' manager) h v (tryDisconnect manager) := by
  refine upholds_bind.mpr (upholds_attempt.mpr ((upholds_disconnectConnected hv).mono
    fun _ v' r _ hr => ⟨rfl, ?_⟩))
  cases r with
  | ok _ => exact Idle.mine hr manager
  | error e => exact hr

/-- What a manager hands out: a connector of a configuration, with the credentials that it read. -/
def HandsOut (h : History) (v : Lifecycle) (manager : Nat) (budgetId : String)
    (credentials : Credentials) (connected : ConnectedBudget) : Prop :=
  ⟨.loadCredentials manager, .ok (some credentials)⟩ ∈ h ∧ ∃ config,
    Connected v manager connected.connector config credentials ∧ config.budgetId = budgetId

variable (expectedBudgetId : Option String) (synchronize : Bool)

theorem upholds_reuse (hv : Connected v manager connected.connector config credentials) :
    Spec (fun _ v' r => match r with
      | .ok used => Connected v' manager used.connector config credentials
      | .error _ => Mine v' manager) h v (reuse manager connected synchronize) := by
  cases synchronize with
  | false => exact hv
  | true =>
    have husable : Usable v.log connected.connector := by
      obtain ⟨entry, hentry, hfits⟩ := hv.fits
      exact ⟨entry, hentry, hfits.live, hfits.ok⟩
    refine upholds_bind.mpr (upholds_attempt.mpr (upholds_ask.mpr
      ⟨⟨hv.only.oneLive, husable⟩, fun r v' hr => ?_⟩))
    have hsame := hr.of_isRemote rfl
    subst hsame
    cases r with
    | error e =>
      exact (upholds_tryDisconnect (.inl (.inr ⟨_, _, _, hv⟩))).bind (fun _ _ _ _ hr => nomatch hr.1)
        fun _ _ _ _ hr => hr.2
    | ok synchronization =>
      refine slots_bind hv.only.oneLive fun h₁ _ => setSlots_bind hv.only.oneLive fun h₂ _ => ?_
      obtain ⟨budget, hbudget, hslots⟩ := hv.slots
      refine ⟨⟨hv.only, hv.owner, fun other hother => ?_⟩, ⟨{ connected with synchronization }, rfl, ?_⟩,
        hv.fits⟩
      · exact (Function.update_of_ne hother _ _).trans (hv.others other hother)
      · rw [hslots]
        exact Function.update_self _ _ _

theorem reusable_connected (hv : Ready v manager)
    (hreusable : reusable (v.slots manager) config credentials = some connected) :
    ∃ used, Connected v manager connected.connector used credentials ∧
      used.budgetId = config.budgetId := by
  rcases hv with hidle | ⟨connector, used, stored, hconnected⟩
  · simp [reusable, hidle.slots] at hreusable
  · obtain ⟨budget, hbudget, hslots⟩ := hconnected.slots
    simp only [reusable, hslots] at hreusable
    split at hreusable
    · rename_i hsame
      cases hreusable
      rw [Bool.and_eq_true, sameConfig, sameCredentials] at hsame
      simp only [Bool.and_eq_true, beq_iff_eq] at hsame
      obtain ⟨⟨⟨-, hid⟩, -⟩, ⟨hurl, hkey⟩, hpassword⟩ := hsame
      have hcredentials : stored = credentials := by
        cases stored
        cases credentials
        simp_all
      rw [hbudget, ← hcredentials]
      exact ⟨used, hconnected, hid⟩
    · cases hreusable

theorem upholds_restoreUnder (config : ConnectionConfig) (credentials : Credentials)
    (synchronize : Bool) (hv : Ready v manager) :
    Spec (fun _ v' r => match r with
      | .ok connected => ∃ used, Connected v' manager connected.connector used credentials ∧
        used.budgetId = config.budgetId
      | .error _ => Mine v' manager) h v (restoreUnder manager config credentials synchronize) := by
  refine slots_bind hv.mine.oneLive fun h₁ _ => ?_
  split
  · rename_i connected hreusable
    obtain ⟨used, hconnected, hid⟩ := reusable_connected hv hreusable
    refine (upholds_reuse synchronize hconnected).mono fun _ v' r _ hr => ?_
    cases r with
    | ok connected => exact ⟨used, hr, hid⟩
    | error e => exact hr
  · refine disconnected_bind hv.mine (fun _ _ _ _ hr => hr) fun h₂ v₂ _ hidle => ?_
    refine setOwner_bind hidle.oneLive fun h₃ _ => ?_
    have hidle₃ : Idle { v₂ with owner := some manager } := ⟨hidle.dead, hidle.slots⟩
    refine (upholds_withNewConnector (P := fun connected => connected.config = config)
      hidle₃ rfl fun h v connector hv => upholds_restoreNew hv).mono fun _ v' r _ hr => ?_
    cases r with
    | ok connected => exact ⟨_, hr.1, by rw [hr.2]⟩
    | error e => exact hr

/-- **A restored connector is of the expected budget, with the stored credentials.** -/
theorem upholds_restoreConfiguredBudget (hv : Ready v manager) :
    Spec (fun h' v' r => match r with
      | .ok connected => ∃ budgetId credentials, HandsOut h' v' manager budgetId credentials connected ∧
        ∀ expected, expectedBudgetId = some expected → budgetId = expected
      | .error _ => Mine v' manager) h v
        (restoreConfiguredBudget manager expectedBudgetId synchronize) := by
  have hstop : ∀ {h : History} {e : Failure}, Spec (fun h' v' r => match r with
      | .ok connected => ∃ budgetId credentials, HandsOut h' v' manager budgetId credentials connected ∧
        ∀ expected, expectedBudgetId = some expected → budgetId = expected
      | .error _ => Mine v' manager) h v (do
        disconnectConnected manager
        stop e) := fun {h e} =>
    disconnected_bind hv.mine (fun _ _ _ _ hr => hr) fun _ _ _ hidle => hidle.mine manager
  refine (reads_loadConfig hv.mine.oneLive).bind (fun _ _ _ _ hr => hr ▸ hv.mine)
    fun h₁ v₁ found _ hv₁ => ?_
  subst hv₁
  cases found with
  | none => exact hstop
  | some config =>
    refine upholds_ite (fun _ => hv.mine) fun hexpected => ?_
    refine remote_bind hv.mine.oneLive trivial rfl (fun _ _ _ => hv.mine) fun stored => ?_
    cases stored with
    | none => exact hstop
    | some credentials =>
      refine upholds_ite (fun _ => hstop) fun _ => ?_
      refine (upholds_restoreUnder config credentials synchronize hv).mono fun h' v' r hle hr => ?_
      cases r with
      | error e => exact hr
      | ok connected =>
        obtain ⟨used, hconnected, hid⟩ := hr
        refine ⟨config.budgetId, credentials, ⟨hle.subset ?_, used, hconnected, hid⟩,
          fun expected heq => ?_⟩
        · exact List.mem_append_right _ List.mem_cons_self
        · rw [heq] at hexpected
          simp only [Option.any_some, bne_iff_ne, ne_eq, not_not] at hexpected
          exact hexpected.symm

theorem upholds_useConnection (options : ConnectionUseOptions) (hv : Working v manager) :
    Spec (fun _ v' _ => Settled v') h v (useConnection manager options) := by
  refine (upholds_restoreConfiguredBudget _ _ hv.ready).bind (fun _ _ _ _ hr => Mine.settled hr)
    fun h₁ v₁ connected _ hr => ?_
  obtain ⟨budgetId, credentials, ⟨hread, config, hconnected, hid⟩, hexpected⟩ := hr
  obtain ⟨entry, hentry, hfits⟩ := hconnected.fits
  have hmine : Mine v₁ manager := .inl (.inr ⟨_, _, _, hconnected⟩)
  refine upholds_bind.mpr (upholds_attempt.mpr (upholds_ask.mpr
    ⟨⟨hmine.oneLive, ⟨entry, hentry, hfits.live, hfits.ok⟩, fun expected heq => ?_⟩,
      fun r v' hr => ?_⟩))
  · rw [← hexpected expected heq, ← hid]
    exact ⟨entry, credentials, hentry, hfits, hread⟩
  · have hsame := hr.of_isRemote rfl
    subst hsame
    refine upholds_ite (fun _ => ?_) fun _ => upholds_ofExcept.mpr hmine.settled
    exact (upholds_tryDisconnect hmine).bind (fun _ _ _ _ hr => hr.2.settled)
      fun _ _ _ _ hr => upholds_ofExcept.mpr hr.2.settled

/-! ## Sections -/

theorem Settled.owner (hv : Settled v) : Idle v ∨ ∃ owner, v.owner = some owner ∧ Mine v owner := by
  obtain ⟨owner, hmine⟩ := hv
  rcases hmine with (hidle | ⟨c, config, credentials, hconnected⟩) | ⟨c, hquarantined⟩
  · exact .inl hidle
  · exact .inr ⟨owner, hconnected.owner, .inl (.inr ⟨c, config, credentials, hconnected⟩)⟩
  · exact .inr ⟨owner, hquarantined.owner, .inr ⟨c, hquarantined⟩⟩

theorem Mine.ready (hv : Mine v manager)
    (hnone : ¬(v.slots manager).quarantinedConnector.isSome = true) : Ready v manager := by
  rcases hv with hready | ⟨c, hquarantined⟩
  · exact hready
  · rw [hquarantined.quarantined] at hnone
    exact absurd rfl hnone

theorem upholds_disconnectOthers (hv : Settled v) :
    Spec (fun _ v' r => match r with
      | .ok _ => Ready v' manager
      | .error _ => Settled v') h v (disconnectOthers manager) := by
  have hone : OneLive v.log := by
    obtain ⟨owner, hmine⟩ := hv
    exact hmine.oneLive
  have hdisconnect : ∀ {h : History} {owner : Nat}, Mine v owner →
      Spec (fun _ v' r => match r with
        | .ok _ => Ready v' manager
        | .error _ => Settled v') h v (disconnectConnected owner) := by
    intro h owner hmine
    refine (upholds_disconnectConnected hmine).mono fun _ v' r _ hr => ?_
    cases r with
    | ok _ => exact .inl hr
    | error e => exact Mine.settled hr
  have hmine : ∀ owner, v.owner = some owner → Mine v owner := by
    intro owner howner
    rcases hv.owner with hidle | ⟨other, hother, hmine⟩
    · exact hidle.mine owner
    · rw [howner] at hother
      cases hother
      exact hmine
  refine owner_bind hone fun h₁ _ => ?_
  cases howner : v.owner with
  | none =>
    have hidle : Idle v := by
      rcases hv.owner with hidle | ⟨other, hother, -⟩
      · exact hidle
      · rw [howner] at hother
        cases hother
    refine slots_bind hone fun h₂ _ => upholds_ite (fun hsome => ?_) fun _ => .inl hidle
    rw [hidle.slots] at hsome
    cases hsome
  | some owner =>
    refine slots_bind hone fun h₂ _ => upholds_ite (fun _ => hdisconnect (hmine owner howner))
      fun hown => ?_
    rw [not_or, not_not] at hown
    obtain ⟨rfl, hnone⟩ := hown
    exact slots_bind hone fun h₃ _ => upholds_ite (fun hsome => absurd hsome hnone)
      fun _ => (hmine owner howner).ready hnone

theorem upholds_inLifecycle {α : Type} {operation : Program α} (hv : Settled v)
    (hoperation : ∀ h v, Working v manager → Spec (fun _ v' _ => Settled v') h v operation) :
    Spec (fun _ v' _ => Settled v') h v (inLifecycle manager operation expectedBudgetId) := by
  have hone : OneLive v.log := by
    obtain ⟨owner, hmine⟩ := hv
    exact hmine.oneLive
  refine (reads_checkExpected hone expectedBudgetId).bind (fun _ _ _ _ hr => hr ▸ hv)
    fun h₁ v₁ _ _ hv₁ => ?_
  subst hv₁
  refine (upholds_disconnectOthers hv).bind (fun _ _ _ _ hr => hr) fun h₂ v₂ _ _ hready => ?_
  have hready : Ready v₂ manager := hready
  exact setOwner_bind hready.mine.oneLive fun h₃ _ => hoperation h₃ _ hready.withOwner

theorem upholds_disconnectCurrentConnection (hv : Settled v) :
    Spec (fun _ v' _ => Settled v') h v
      (disconnectCurrentConnection manager expectedBudgetId) := by
  have hone : ∀ {v}, Settled v → OneLive v.log := by
    rintro v ⟨owner, hmine⟩
    exact hmine.oneLive
  have howner : Spec (fun _ v' _ => Settled v') h v (disconnectOwner manager expectedBudgetId) := by
    refine owner_bind (hone hv) fun h₁ _ => ?_
    cases v.owner with
    | none => exact hv
    | some owner =>
      exact slots_bind (hone hv) fun h₂ _ =>
        upholds_ite (fun _ => upholds_disconnectConnected_settled hv owner) fun _ => hv
  refine howner.bind (fun _ _ _ _ hr => hr) fun h₁ v₁ _ _ hv₁ => ?_
  exact slots_bind (hone hv₁) fun h₂ _ =>
    upholds_ite (fun _ => upholds_disconnectConnected_settled hv₁ manager) fun _ => hv₁

end BalanceFrame.Connection
