import BalanceFrame.Connection.Manager
import Mathlib.Logic.Function.Basic

/-!
# The lifecycle of connectors

What the calls of the managers do to the owner, the managers' fields and the connectors (`Effect`),
the states that a section may find and leave (`Idle`, `Connected`, `Quarantined`), and what
disconnecting makes of them.
-/

namespace BalanceFrame.Connection

open Library
open Library.Prog
open Liquidity (Json)

/-- The calls so far, and their answers. -/
abbrev History := List (Event Call Answer Failure)

/-! ## Effects -/

/-- A call that leaves the owner, the managers and the connectors' logs as they are. -/
def Call.isRemote : Call → Bool
  | .readConfigFile _ | .writeConfigFile _ _ | .deleteConfigFile _ | .loadCredentials _
  | .synchronize _ _ | .operate _ _ _ | .joinRestore _ | .leaveRestore _ => true
  | _ => false

/-- A call that leaves them when it fails. -/
def Call.isConnecting : Call → Bool
  | .createConnector _ _ | .connectConnector _ _ | .selectBudget _ _ _ => true
  | _ => false

/-- An entry of a connector's log. -/
def Lifecycle.record (v : Lifecycle) (connector : Nat) (f : ConnectorLog → ConnectorLog) :
    Lifecycle :=
  { v with log := Function.update v.log connector ((v.log connector).map f) }

/-- What a call does. The factory makes a connector that there was not. -/
inductive Effect (v : Lifecycle) : (c : Call) → Except Failure (Answer c) → Lifecycle → Prop
  | owner : Effect v .owner (.ok v.owner) v
  | setOwner (owner : Option Nat) : Effect v (.setOwner owner) (.ok ()) { v with owner }
  | slots (manager : Nat) : Effect v (.slots manager) (.ok (v.slots manager)) v
  | setSlots (manager : Nat) (slots : Slots) :
    Effect v (.setSlots manager slots) (.ok ())
      { v with slots := Function.update v.slots manager slots }
  | created {manager connector : Nat} {credentials : Credentials} (hnew : v.log connector = none) :
    Effect v (.createConnector manager credentials) (.ok connector)
      { v with log := Function.update v.log connector (some { credentials }) }
  | connected (connector : Nat) (credentials : Credentials) (budgets : List BudgetInfo) :
    Effect v (.connectConnector connector credentials) (.ok budgets)
      (v.record connector ({ · with connectedWith := some credentials }))
  | selected (connector : Nat) (id : String) (password : Option String) (budget : BudgetInfo) :
    Effect v (.selectBudget connector id password) (.ok budget)
      (v.record connector ({ · with selected := some (id, budget) }))
  | disconnected (connector : Nat) :
    Effect v (.disconnectConnector connector) (.ok ())
      (v.record connector ({ · with disconnected := true }))
  | undisconnected (connector : Nat) (e : Failure) :
    Effect v (.disconnectConnector connector) (.error e)
      (v.record connector ({ · with failed := true }))
  | failed {c : Call} (hc : c.isConnecting = true) (e : Failure) : Effect v c (.error e) v
  | external {c : Call} (hc : c.isRemote = true) (r : Except Failure (Answer c)) : Effect v c r v

/-! ## States -/

/-- The connector was made, and its `disconnect` has not succeeded. -/
def Live (log : Nat → Option ConnectorLog) (connector : Nat) : Prop :=
  ∃ entry, log connector = some entry ∧ entry.disconnected = false

/-- No two connectors are live. -/
def OneLive (log : Nat → Option ConnectorLog) : Prop :=
  ∀ c d, Live log c → Live log d → c = d

/-- The connector is live, and its `disconnect` never failed. -/
def Usable (log : Nat → Option ConnectorLog) (connector : Nat) : Prop :=
  ∃ entry, log connector = some entry ∧ entry.disconnected = false ∧ entry.failed = false

/-- The connector is live, and no other one is. -/
structure Only (log : Nat → Option ConnectorLog) (connector : Nat) : Prop where
  live : Live log connector
  unique : ∀ c, Live log c → c = connector

/-- The identity of a budget. -/
def BudgetInfo.identity (budget : BudgetInfo) : String :=
  (truthy (some budget.id)).getD budget.groupId

/-- A connector that selected a budget: it was asked for, or it is the one that was answered. -/
def SelectedBudget (entry : ConnectorLog) (budgetId : String) : Prop :=
  ∃ requested answered, entry.selected = some (requested, answered) ∧
    (requested = budgetId ∨ answered.identity = budgetId)

/-- A usable connector of a configuration, made and connected with some credentials. -/
structure Fits (entry : ConnectorLog) (budgetId : String) (credentials : Credentials) : Prop where
  live : entry.disconnected = false
  ok : entry.failed = false
  made : entry.credentials = credentials
  connected : entry.connectedWith = some credentials
  selected : SelectedBudget entry budgetId

/-- No connector is live, and no manager has one. -/
structure Idle (v : Lifecycle) : Prop where
  dead : ∀ c, ¬Live v.log c
  slots : ∀ manager, v.slots manager = {}

/-- One connector is live, and no manager has it yet. -/
structure Fresh (v : Lifecycle) (connector : Nat) : Prop where
  only : Only v.log connector
  slots : ∀ manager, v.slots manager = {}

/-- One connector is live, and only the owner has it. -/
structure Owned (v : Lifecycle) (manager connector : Nat) : Prop where
  only : Only v.log connector
  owner : v.owner = some manager
  others : ∀ other, other ≠ manager → v.slots other = {}

/-- It is connected. -/
structure Connected (v : Lifecycle) (manager connector : Nat) (config : ConnectionConfig)
    (credentials : Credentials) : Prop extends Owned v manager connector where
  slots : ∃ budget, budget.connector = connector ∧
    v.slots manager = ⟨some budget, some config, some credentials, none⟩
  fits : ∃ entry, v.log connector = some entry ∧ Fits entry config.budgetId credentials

/-- Its `disconnect` failed. -/
structure Quarantined (v : Lifecycle) (manager connector : Nat) : Prop
    extends Owned v manager connector where
  quarantined : (v.slots manager).quarantinedConnector = some connector
  budget : ∀ budget, (v.slots manager).connectedBudget = some budget → budget.connector = connector

/-- A manager may start to work. -/
def Ready (v : Lifecycle) (manager : Nat) : Prop :=
  Idle v ∨ ∃ connector config credentials, Connected v manager connector config credentials

/-- What is live is the manager's. -/
def Mine (v : Lifecycle) (manager : Nat) : Prop :=
  Ready v manager ∨ ∃ connector, Quarantined v manager connector

/-- What a section finds, and leaves. -/
def Settled (v : Lifecycle) : Prop := ∃ manager, Mine v manager

theorem Idle.oneLive {v : Lifecycle} (h : Idle v) : OneLive v.log :=
  fun c _ hc _ => absurd hc (h.dead c)

theorem Only.oneLive {log : Nat → Option ConnectorLog} {connector : Nat} (h : Only log connector) :
    OneLive log :=
  fun c d hc hd => (h.unique c hc).trans (h.unique d hd).symm

theorem Mine.oneLive {v : Lifecycle} {manager : Nat} (h : Mine v manager) : OneLive v.log := by
  rcases h with (hidle | ⟨_, _, _, hconnected⟩) | ⟨_, hquarantined⟩
  · exact hidle.oneLive
  · exact hconnected.only.oneLive
  · exact hquarantined.only.oneLive

theorem Idle.mine {v : Lifecycle} (h : Idle v) (manager : Nat) : Mine v manager := .inl (.inl h)

theorem Mine.settled {v : Lifecycle} {manager : Nat} (h : Mine v manager) : Settled v := ⟨manager, h⟩

theorem Idle.settled {v : Lifecycle} (h : Idle v) : Settled v := (h.mine 0).settled

/-! ## Logs -/

section Logs

variable {v : Lifecycle} {connector : Nat} {f : ConnectorLog → ConnectorLog}

@[simp] theorem record_owner : (v.record connector f).owner = v.owner := rfl

@[simp] theorem record_slots : (v.record connector f).slots = v.slots := rfl

theorem record_log_self : (v.record connector f).log connector = (v.log connector).map f :=
  Function.update_self _ _ _

theorem record_log_of_ne {c : Nat} (hc : c ≠ connector) :
    (v.record connector f).log c = v.log c :=
  Function.update_of_ne hc _ _

theorem live_record (hf : ∀ entry, (f entry).disconnected = entry.disconnected) (c : Nat) :
    Live (v.record connector f).log c ↔ Live v.log c := by
  by_cases hc : c = connector
  · subst hc
    rw [Live, record_log_self, Live]
    cases v.log c with
    | none => simp
    | some entry => simp [hf]
  · rw [Live, record_log_of_ne hc, Live]

theorem Only.record (h : Only v.log connector)
    (hf : ∀ entry, (f entry).disconnected = entry.disconnected) :
    Only (v.record connector f).log connector :=
  ⟨(live_record hf _).mpr h.live, fun c hc => h.unique c ((live_record hf c).mp hc)⟩

theorem Only.disconnected (h : Only v.log connector) (c : Nat) :
    ¬Live (v.record connector ({ · with disconnected := true })).log c := by
  rintro ⟨entry, hentry, hlive⟩
  by_cases hc : c = connector
  · subst hc
    rw [record_log_self] at hentry
    obtain ⟨old, -, rfl⟩ := Option.map_eq_some_iff.mp hentry
    cases hlive
  · rw [record_log_of_ne hc] at hentry
    exact hc (h.unique c ⟨entry, hentry, hlive⟩)

end Logs

/-! ## What every call meets -/

/-- The connector selected the budget, under the credentials that were read from the manager's
store. -/
def SelectedFor (h : History) (v : Lifecycle) (manager connector : Nat) (budgetId : String) : Prop :=
  ∃ entry credentials, v.log connector = some entry ∧ Fits entry budgetId credentials ∧
    ⟨.loadCredentials manager, .ok (some credentials)⟩ ∈ h

/-- What is used is usable, and an operation finds the budget that it expects. -/
def Uses (h : History) (v : Lifecycle) : Call → Prop
  | .connectConnector connector _ => Usable v.log connector
  | .selectBudget connector _ _ => Usable v.log connector
  | .synchronize connector _ => Usable v.log connector
  | .operate manager connected expectedBudgetId => Usable v.log connected.connector ∧
    ∀ budgetId, expectedBudgetId = some budgetId →
      SelectedFor h v manager connected.connector budgetId
  | _ => True

/-- At most one connector is live where a call is made. -/
def Guard (h : History) (v : Lifecycle) (c : Call) : Prop := OneLive v.log ∧ Uses h v c

abbrev Spec {α : Type} (Q : History → Lifecycle → Except Failure α → Prop) (h : History)
    (v : Lifecycle) (p : Program α) : Prop :=
  Upholds Effect Guard Q h v p

/-! ## Rules of the calls -/

section Rules

variable {α β : Type} {Q : History → Lifecycle → Except Failure β → Prop} {h : History}
  {v : Lifecycle}

theorem upholds_request_bind {c : Call} {f : Answer c → Program β} (hc : Guard h v c)
    (hf : ∀ r v', Effect v c r v' → match r with
      | .ok a => Spec Q (h ++ [⟨c, .ok a⟩]) v' (f a)
      | .error e => Q (h ++ [⟨c, .error e⟩]) v' (.error e)) :
    Spec Q h v (request c >>= f) := by
  refine upholds_bind.mpr (upholds_ask.mpr ⟨hc, fun r v' hv => ?_⟩)
  have := hf r v' hv
  cases r <;> exact this

theorem owner_bind {f : Option Nat → Program β} (hone : OneLive v.log)
    (hf : ∀ h', h <+: h' → Spec Q h' v (f v.owner)) : Spec Q h v (request .owner >>= f) := by
  refine upholds_request_bind ⟨hone, trivial⟩ fun r v' hv => ?_
  cases hv with
  | owner => exact hf _ (List.prefix_append _ _)
  | failed hc => cases hc
  | external hc => cases hc

theorem setOwner_bind {owner : Option Nat} {f : Unit → Program β} (hone : OneLive v.log)
    (hf : ∀ h', h <+: h' → Spec Q h' { v with owner } (f ())) :
    Spec Q h v (request (.setOwner owner) >>= f) := by
  refine upholds_request_bind ⟨hone, trivial⟩ fun r v' hv => ?_
  cases hv with
  | setOwner => exact hf _ (List.prefix_append _ _)
  | failed hc => cases hc
  | external hc => cases hc

theorem slots_bind {manager : Nat} {f : Slots → Program β} (hone : OneLive v.log)
    (hf : ∀ h', h <+: h' → Spec Q h' v (f (v.slots manager))) :
    Spec Q h v (request (.slots manager) >>= f) := by
  refine upholds_request_bind ⟨hone, trivial⟩ fun r v' hv => ?_
  cases hv with
  | slots => exact hf _ (List.prefix_append _ _)
  | failed hc => cases hc
  | external hc => cases hc

theorem setSlots_bind {manager : Nat} {slots : Slots} {f : Unit → Program β} (hone : OneLive v.log)
    (hf : ∀ h', h <+: h' →
      Spec Q h' { v with slots := Function.update v.slots manager slots } (f ())) :
    Spec Q h v (request (.setSlots manager slots) >>= f) := by
  refine upholds_request_bind ⟨hone, trivial⟩ fun r v' hv => ?_
  cases hv with
  | setSlots => exact hf _ (List.prefix_append _ _)
  | failed hc => cases hc
  | external hc => cases hc

theorem Effect.of_isRemote {c : Call} {r : Except Failure (Answer c)} {v' : Lifecycle}
    (hr : Effect v c r v') (hremote : c.isRemote = true) : v' = v := by
  cases hr <;> first | rfl | cases hremote

theorem remote_bind {c : Call} {f : Answer c → Program β} (hone : OneLive v.log)
    (huses : Uses h v c) (hremote : c.isRemote = true)
    (herror : ∀ h' e, h <+: h' → Q h' v (.error e))
    (hok : ∀ a, Spec Q (h ++ [⟨c, .ok a⟩]) v (f a)) : Spec Q h v (request c >>= f) := by
  refine upholds_request_bind ⟨hone, huses⟩ fun r v' hv => ?_
  have hsame := hv.of_isRemote hremote
  subst hsame
  cases r with
  | ok a => exact hok a
  | error e => exact herror _ e (List.prefix_append _ _)

end Rules

/-! ## Disconnecting -/

section Disconnecting

variable {h : History} {v : Lifecycle} {manager connector : Nat}

/-- `releaseOwner`. -/
def released (v : Lifecycle) (manager : Nat) : Lifecycle :=
  if v.owner = some manager then { v with owner := none } else v

@[simp] theorem released_log : (released v manager).log = v.log := by
  unfold released
  split <;> rfl

@[simp] theorem released_slots : (released v manager).slots = v.slots := by
  unfold released
  split <;> rfl

theorem Idle.released (hv : Idle v) (manager : Nat) : Idle (released v manager) :=
  ⟨by rw [released_log]; exact hv.dead, by rw [released_slots]; exact hv.slots⟩

theorem upholds_releaseOwner (hone : OneLive v.log) :
    Spec (fun _ v' r => r = .ok () ∧ v' = released v manager) h v (releaseOwner manager) := by
  refine owner_bind hone fun h₁ _ => ?_
  refine upholds_ite (fun howner => ?_) fun howner => ?_
  · refine upholds_ask.mpr ⟨⟨hone, trivial⟩, fun r v' hv => ?_⟩
    cases hv with
    | setOwner => exact ⟨rfl, by rw [released, if_pos howner]⟩
    | failed hc => cases hc
    | external hc => cases hc
  · exact ⟨rfl, by rw [released, if_neg howner]⟩

/-- What `disconnectConnector` leaves, when it succeeds. -/
def discarded (v : Lifecycle) (manager connector : Nat) : Lifecycle :=
  { v.record connector ({ · with disconnected := true }) with
    owner := some manager
    slots := Function.update v.slots manager
      { v.slots manager with quarantinedConnector := none } }

/-- What it leaves, when it fails. -/
def quarantined (v : Lifecycle) (manager connector : Nat) : Lifecycle :=
  { v.record connector ({ · with failed := true }) with
    owner := some manager
    slots := Function.update v.slots manager
      { v.slots manager with quarantinedConnector := some connector } }

theorem upholds_disconnectConnector (hlive : Only v.log connector) :
    Spec (fun _ v' r => match r with
      | .ok _ => v' = discarded v manager connector
      | .error _ => v' = quarantined v manager connector) h v
        (disconnectConnector manager connector) := by
  refine slots_bind hlive.oneLive fun h₁ _ => setSlots_bind hlive.oneLive fun h₂ _ =>
    setOwner_bind hlive.oneLive fun h₃ _ => ?_
  refine upholds_request_bind ⟨hlive.oneLive, trivial⟩ fun r v' hv => ?_
  cases hv with
  | disconnected =>
    have hone : OneLive (v.record connector ({ · with disconnected := true })).log :=
      fun c _ hc _ => absurd hc (hlive.disconnected c)
    refine slots_bind hone fun h₄ _ => ?_
    simp only [record_slots, Function.update_self]
    refine upholds_ite (fun _ => ?_) fun hne => absurd trivial hne
    refine upholds_ask.mpr ⟨⟨hone, trivial⟩, fun r v' hv => ?_⟩
    cases hv with
    | setSlots => simp [discarded, Lifecycle.record]
    | failed hc => cases hc
    | external hc => cases hc
  | undisconnected e => rfl
  | failed hc => cases hc
  | external hc => cases hc

/-- What `disconnectConnected` leaves, when it disconnects the manager's connector. -/
def emptied (v : Lifecycle) (manager connector : Nat) : Lifecycle :=
  { v.record connector ({ · with disconnected := true }) with
    owner := none
    slots := Function.update v.slots manager {} }

theorem Owned.emptied (hv : Owned v manager connector) : Idle (emptied v manager connector) where
  dead := hv.only.disconnected
  slots other := by
    by_cases hother : other = manager
    · subst hother
      exact Function.update_self _ _ _
    · exact (Function.update_of_ne hother _ _).trans (hv.others other hother)

theorem Only.quarantined (hv : Only v.log connector)
    (hothers : ∀ other, other ≠ manager → v.slots other = {})
    (hbudget : ∀ budget, (v.slots manager).connectedBudget = some budget →
      budget.connector = connector) : Quarantined (quarantined v manager connector) manager connector where
  only := hv.record fun _ => rfl
  owner := rfl
  others other hother := (Function.update_of_ne hother _ _).trans (hothers other hother)
  quarantined := by simp [Connection.quarantined]
  budget := by simpa [Connection.quarantined] using hbudget

theorem upholds_clear (hone : OneLive v.log) :
    Spec (fun _ v' r => r = .ok () ∧ v' = released
      { v with slots := Function.update v.slots manager { v.slots manager with
        connectedBudget := none, connectedConfig := none, connectedCredentials := none } } manager)
      h v (do
        let slots : Slots ← request (.slots manager)
        request (.setSlots manager { slots with
          connectedBudget := none, connectedConfig := none, connectedCredentials := none })
        releaseOwner manager) :=
  slots_bind hone fun _ _ => setSlots_bind hone fun _ _ => upholds_releaseOwner hone

theorem upholds_disconnectConnected_empty (hone : OneLive v.log) (hslots : v.slots manager = {}) :
    Spec (fun _ v' r => r = .ok () ∧ v' = released v manager) h v (disconnectConnected manager) := by
  refine slots_bind hone fun h₁ _ => ?_
  rw [hslots]
  refine (upholds_clear hone).mono fun _ v' r _ hr => ⟨hr.1, ?_⟩
  have hsame : Function.update v.slots manager { v.slots manager with
      connectedBudget := none, connectedConfig := none, connectedCredentials := none } = v.slots := by
    rw [Function.update_eq_self_iff, hslots]
  rw [hr.2, hsame]

theorem upholds_disconnectConnected_held (hlive : Only v.log connector)
    (hheld : heldConnectors (v.slots manager) = [connector]) :
    Spec (fun _ v' r => match r with
      | .ok _ => v' = emptied v manager connector
      | .error _ => v' = quarantined v manager connector) h v (disconnectConnected manager) := by
  refine slots_bind hlive.oneLive fun h₁ _ => ?_
  rw [hheld]
  have hall : Spec (fun _ v' r => match r with
      | .ok _ => v' = discarded v manager connector
      | .error _ => v' = quarantined v manager connector) h₁ v (disconnectAll manager [connector]) :=
    (upholds_disconnectConnector hlive).bind (fun _ _ _ _ hr => hr) fun _ _ _ _ hr => hr
  refine hall.bind (fun _ _ _ _ hr => hr) fun h₂ v₂ _ _ hv₂ => ?_
  dsimp only at hv₂
  subst hv₂
  have hone : OneLive (discarded v manager connector).log :=
    fun c _ hc _ => absurd hc (hlive.disconnected c)
  refine (upholds_clear hone).mono fun _ v' r _ hr => ?_
  rw [hr.1]
  dsimp only
  rw [hr.2]
  simp [released, discarded, emptied, Lifecycle.record]

/-- **Whoever has what is live disconnects it, or keeps it in quarantine.** -/
theorem upholds_disconnectConnected (hv : Mine v manager) :
    Spec (fun _ v' r => match r with
      | .ok _ => Idle v'
      | .error _ => Mine v' manager) h v (disconnectConnected manager) := by
  rcases hv with (hidle | ⟨connector, config, credentials, hconnected⟩) | ⟨connector, hquarantined⟩
  · refine (upholds_disconnectConnected_empty hidle.oneLive (hidle.slots manager)).mono
      fun _ v' r _ hr => ?_
    rw [hr.1, hr.2]
    exact hidle.released manager
  · obtain ⟨budget, hbudget, hslots⟩ := hconnected.slots
    have hheld : heldConnectors (v.slots manager) = [connector] := by rw [hslots, ← hbudget]; rfl
    refine (upholds_disconnectConnected_held hconnected.only hheld).mono fun _ v' r _ hr => ?_
    cases r with
    | ok _ =>
      rw [show v' = _ from hr]
      exact hconnected.toOwned.emptied
    | error e =>
      rw [show v' = _ from hr]
      refine .inr ⟨connector, hconnected.only.quarantined hconnected.others fun other hother => ?_⟩
      rw [hslots] at hother
      cases hother
      exact hbudget
  · have hheld : heldConnectors (v.slots manager) = [connector] := by
      rw [heldConnectors, hquarantined.quarantined]
      cases hbudget : (v.slots manager).connectedBudget with
      | none => rfl
      | some budget => exact if_pos (hquarantined.budget budget hbudget)
    refine (upholds_disconnectConnected_held hquarantined.only hheld).mono fun _ v' r _ hr => ?_
    cases r with
    | ok _ =>
      rw [show v' = _ from hr]
      exact hquarantined.toOwned.emptied
    | error e =>
      rw [show v' = _ from hr]
      exact .inr ⟨connector, hquarantined.only.quarantined hquarantined.others hquarantined.budget⟩

theorem upholds_disconnectConnected_settled (hv : Settled v) (manager : Nat) :
    Spec (fun _ v' _ => Settled v') h v (disconnectConnected manager) := by
  obtain ⟨owner, hmine⟩ := hv
  by_cases howner : owner = manager
  · subst howner
    refine (upholds_disconnectConnected hmine).mono fun _ v' r _ hr => ?_
    cases r with
    | ok _ => exact Idle.settled hr
    | error e => exact Mine.settled hr
  · have hother : v.slots manager = {} ∧ released v manager = v ∨ Idle v := by
      have hrelease : ∀ {connector}, Owned v owner connector →
          v.slots manager = {} ∧ released v manager = v := by
        intro connector howned
        refine ⟨howned.others manager fun h => howner h.symm, if_neg ?_⟩
        rw [howned.owner]
        exact fun h => howner (Option.some.inj h)
      rcases hmine with (hidle | ⟨_, _, _, hconnected⟩) | ⟨_, hquarantined⟩
      · exact .inr hidle
      · exact .inl (hrelease hconnected.toOwned)
      · exact .inl (hrelease hquarantined.toOwned)
    rcases hother with ⟨hslots, hreleased⟩ | hidle
    · refine (upholds_disconnectConnected_empty hmine.oneLive hslots).mono fun _ v' r _ hr => ?_
      rw [hr.2, hreleased]
      exact hmine.settled
    · refine (upholds_disconnectConnected (hidle.mine manager)).mono fun _ v' r _ hr => ?_
      cases r with
      | ok _ => exact Idle.settled hr
      | error e => exact Mine.settled hr

end Disconnecting

end BalanceFrame.Connection
