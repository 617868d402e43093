import BalanceFrame.Connection.Sections

/-!
# One live connection

Any number of managers over `actualLifecycleState`, and any number of their operations side by side.
-/

namespace BalanceFrame.Connection

open Library
open Library.Prog
open Liquidity (Json)
open Locking (turn within exclusive)

/-! ## Operations side by side -/

/-- The calls that `restore` makes outside its section. -/
def Call.isOutside : Call → Bool
  | .joinRestore _ | .leaveRestore _ => true
  | _ => false

/-- Sections find what is settled, and leave it so. -/
def lifecycle : Discipline Call Answer Failure Lifecycle where
  effect := Effect
  isQuiet c := c.isOutside = true
  guard := Guard
  invariant := Settled
  quiet_effect {v c r v'} hc hr := by
    refine hr.of_isRemote ?_
    cases c <;> first | rfl | cases hc

/-- The public operations of the managers. -/
inductive Starts : Operation Unit → Prop
  | connect (manager : Nat) (budgetId : String) (credentials : Option Credentials) :
    Starts (connect manager budgetId credentials >>= fun _ => pure ())
  | listBudgets (manager : Nat) (credentials : Option Credentials) :
    Starts (listBudgets manager credentials >>= fun _ => pure ())
  | restore (manager : Nat) : Starts (restore manager >>= fun _ => pure ())
  | withConnection (manager : Nat) (options : ConnectionUseOptions) :
    Starts (withConnection manager options >>= fun _ => pure ())
  | disconnect (manager : Nat) (expectedBudgetId : Option String) :
    Starts (disconnect manager expectedBudgetId)
  | removeConnection (manager : Nat) (expectedBudgetId : String) :
    Starts (removeConnection manager expectedBudgetId)

abbrev lifecycleSystem := lifecycle.system Starts

/-- No owner, and no connector. -/
def initial : Lifecycle := ⟨none, fun _ => {}, fun _ => none⟩

theorem initial_idle : Idle initial :=
  ⟨fun _ ⟨_, hentry, _⟩ => (nomatch hentry), fun _ => rfl⟩

section Keeps

variable {v : Lifecycle} {α : Type}

theorem keeps_section_pure {body : Program α} (hbody : ∀ h v, Settled v →
    Spec (fun _ v' _ => Settled v') h v body) :
    lifecycle.Keeps [] v (exclusive body >>= fun _ => pure ()) :=
  (Discipline.keeps_exclusive rfl hbody).bind fun _ _ _ hturn => hturn

theorem keeps_restore (manager : Nat) :
    lifecycle.Keeps [] v (restore manager >>= fun _ => pure ()) := by
  refine Discipline.Keeps.bind ?_ fun _ _ _ hturn => hturn
  refine Discipline.keeps_outside_bind rfl rfl fun h₁ pending hturn => ?_
  cases pending with
  | some connected => exact hturn
  | none =>
    have hbody : ∀ h v, Settled v → Spec (fun _ v' _ => Settled v') h v
        (inLifecycle manager (restoreConfiguredBudget manager none true) none) := by
      refine fun h v hv => upholds_inLifecycle none hv fun h v hworking => ?_
      refine (upholds_restoreConfiguredBudget none true hworking.ready).mono fun _ v' r _ hr => ?_
      cases r with
      | error e => exact Mine.settled hr
      | ok connected =>
        obtain ⟨_, _, ⟨-, _, hconnected, -⟩, -⟩ := hr
        exact ⟨manager, .inl (.inr ⟨_, _, _, hconnected⟩)⟩
    refine (Discipline.Keeps.attempt (Discipline.keeps_exclusive hturn hbody)).bind
      fun h₂ v₂ outcome hturn₂ => ?_
    exact Discipline.keeps_outside_bind hturn₂ rfl fun h₃ _ hturn₃ =>
      Discipline.keeps_ofExcept hturn₃

theorem upholds_checkDisconnect {h : History} (manager : Nat) (expectedBudgetId : Option String)
    (hv : Settled v) : Spec (fun _ v' _ => Settled v') h v (do
      checkExpected manager expectedBudgetId
      disconnectCurrentConnection manager expectedBudgetId) := by
  obtain ⟨owner, hmine⟩ := hv
  refine (reads_checkExpected hmine.oneLive expectedBudgetId).bind
    (fun _ _ _ _ hr => hr ▸ hmine.settled) fun h₁ v₁ _ _ hv₁ => ?_
  exact upholds_disconnectCurrentConnection expectedBudgetId (hv₁ ▸ hmine.settled)

theorem keeps_starts {p : Operation Unit} (hp : Starts p) : lifecycle.Keeps [] v p := by
  cases hp with
  | connect manager budgetId credentials =>
    exact keeps_section_pure fun h v hv => upholds_inLifecycle none hv fun h v hworking =>
      upholds_connectBudget budgetId credentials hworking
  | listBudgets manager credentials =>
    exact keeps_section_pure fun h v hv => upholds_inLifecycle none hv fun h v hworking =>
      upholds_discoverBudgets credentials hworking
  | restore manager => exact keeps_restore manager
  | withConnection manager options =>
    exact keeps_section_pure fun h v hv => upholds_inLifecycle _ hv fun h v hworking =>
      upholds_useConnection options hworking
  | disconnect manager expectedBudgetId =>
    exact Discipline.keeps_exclusive rfl fun h v hv =>
      upholds_checkDisconnect manager expectedBudgetId hv
  | removeConnection manager expectedBudgetId =>
    refine Discipline.keeps_exclusive rfl fun h v hv => ?_
    obtain ⟨owner, hmine⟩ := hv
    refine (reads_checkExpected hmine.oneLive (some expectedBudgetId)).bind
      (fun _ _ _ _ hr => hr ▸ hmine.settled) fun h₁ v₁ _ _ hv₁ => ?_
    refine (upholds_disconnectCurrentConnection (some expectedBudgetId)
      (hv₁ ▸ hmine.settled)).bind (fun _ _ _ _ hr => hr) fun h₂ v₂ _ _ hv₂ => ?_
    have hone : OneLive v₂.log := by
      obtain ⟨owner, hmine⟩ := hv₂
      exact hmine.oneLive
    refine upholds_ask.mpr ⟨⟨hone, trivial⟩, fun r v' hr => ?_⟩
    rw [hr.of_isRemote rfl]
    exact hv₂

end Keeps

/-! ## A household -/

def storedCredentials : Credentials := ⟨"https://actual", "key", none⟩

def storedConfig : ConnectionConfig := ⟨"https://actual", "home", "Home", "group"⟩

def answerLifecycle (v : Lifecycle) : (c : Call) → Except Failure (Answer c) × Lifecycle
  | .owner => (.ok v.owner, v)
  | .setOwner owner => (.ok (), { v with owner })
  | .slots manager => (.ok (v.slots manager), v)
  | .setSlots manager slots => (.ok (), { v with slots := Function.update v.slots manager slots })
  | .readConfigFile _ => (.ok (some (⟨some 1, some storedConfig.serverUrl, some storedConfig.budgetId,
      some storedConfig.budgetName, some storedConfig.groupId⟩ : PartialConfig)), v)
  | .writeConfigFile _ _ => (.ok (), v)
  | .deleteConfigFile _ => (.ok (), v)
  | .loadCredentials _ => (.ok (some storedCredentials), v)
  | .createConnector _ credentials => if v.log 0 = none
    then (.ok (0 : Nat), { v with log := Function.update v.log 0 (some { credentials }) })
    else (.error (.other "The connector exists"), v)
  | .connectConnector connector credentials => (.ok ([] : List BudgetInfo),
      v.record connector ({ · with connectedWith := some credentials }))
  | .selectBudget connector id _ => (.ok (⟨id, "group", "Home", false⟩ : BudgetInfo),
      v.record connector ({ · with selected := some (id, ⟨id, "group", "Home", false⟩) }))
  | .synchronize _ _ => (.ok (none : Option Json), v)
  | .disconnectConnector connector =>
    (.ok (), v.record connector ({ · with disconnected := true }))
  | .operate _ _ _ => (.ok Json.null, v)
  | .joinRestore _ => (.ok (none : Option ConnectedBudget), v)
  | .leaveRestore _ => (.ok (), v)

theorem effect_answerLifecycle (v : Lifecycle) (c : Call) :
    Effect v c (answerLifecycle v c).1 (answerLifecycle v c).2 := by
  cases c with
  | owner => exact .owner
  | setOwner owner => exact .setOwner owner
  | slots manager => exact .slots manager
  | setSlots manager slots => exact .setSlots manager slots
  | createConnector manager credentials =>
    unfold answerLifecycle
    split
    · rename_i hnew
      exact .created hnew
    · exact .failed rfl _
  | connectConnector connector credentials => exact .connected connector credentials []
  | selectBudget connector id password => exact .selected connector id password _
  | disconnectConnector connector => exact .disconnected connector
  | _ => exact .external rfl _

def answerLocked (w : Locked Lifecycle) :
    (c : Locking Call) → Except Failure (Locking.Answer Answer c) × Locked Lifecycle
  | .take => (.ok (w.tail, w.tail + 1), { w with tail := w.tail + 1 })
  | .await _ => (.ok (), w)
  | .settle mine => (.ok (), { w with settled := mine :: w.settled })
  | .inner c => ((answerLifecycle w.state c).1, { w with state := (answerLifecycle w.state c).2 })

def isLast (w : Locked Lifecycle) : Locking Call → Bool
  | .await predecessor => !decide (predecessor ∈ w.settled)
  | .inner (.operate _ _ _) => true
  | _ => false

theorem answers_answerLocked (w : Locked Lifecycle) (c : Locking Call) (hlast : isLast w c = false) :
    lifecycleSystem.answers w c (answerLocked w c).1 (answerLocked w c).2 := by
  cases c with
  | take => exact .take
  | await predecessor => exact .await (by simpa [isLast] using hlast)
  | settle mine => exact .settle mine
  | inner c => exact .inner (effect_answerLifecycle w.state c)

def homeRunning : Locked Lifecycle × Task (Locking Call) (Locking.Answer Answer) Failure Unit :=
  System.advance answerLocked isLast (Discipline.start initial) []
    (withConnection 1 ⟨false, some "home", true⟩ >>= fun _ => pure ())

theorem reachable_homeRunning : lifecycleSystem.Reachable (Discipline.start initial)
    ⟨homeRunning.1, [homeRunning.2]⟩ := by
  have hstart := (System.Reachable.init (S := lifecycleSystem) (w := Discipline.start initial)).step
    (.start (.withConnection 1 ⟨false, some "home", true⟩))
  exact System.Reachable.advance isLast answers_answerLocked _ _ _ hstart

def isHome : Locking Call → Bool
  | .inner (.operate manager _ expected) => decide (manager = 1 ∧ expected = some "home")
  | _ => false

/-! ## One connection -/

/-- The connector that a call uses; `disconnect` is no use. -/
def Call.connector : Call → Option Nat
  | .connectConnector connector _ => some connector
  | .selectBudget connector _ _ => some connector
  | .synchronize connector _ => some connector
  | .operate _ connected _ => some connected.connector
  | _ => none

theorem usable_of_guard {h : History} {v : Lifecycle} {c : Call} (hc : Guard h v c) {connector : Nat}
    (hconnector : c.connector = some connector) : Usable v.log connector := by
  have huses := hc.2
  cases c with
  | connectConnector c credentials => cases hconnector; exact huses
  | selectBudget c id password => cases hconnector; exact huses
  | synchronize c refresh => cases hconnector; exact huses
  | operate manager connected expected => cases hconnector; exact huses.1
  | _ => cases hconnector

/-- **One live connection per process.** In every state of every run of the managers' operations: at
most one connector is live and at most one task is in its section; a task that is about to use a
connector finds it live, with no failed `disconnect`; and one that runs an operation with an expected
budget is in its section, and its connector selected that budget, made and connected with credentials
that were read from the manager's store for this operation. -/
theorem one_connection (s : Running (Locked Lifecycle) (Locking Call) (Locking.Answer Answer) Failure
    Unit) (hs : lifecycleSystem.Reachable (Discipline.start initial) s) :
    OneLive s.world.state.log ∧
    (s.tasks.Pairwise fun t u =>
      ¬((turn t.past).isHolding = true ∧ (turn u.past).isHolding = true)) ∧
    ∀ past (c : Call) next, ⟨past, .call (.inner c) next⟩ ∈ s.tasks →
      (∀ connector, c.connector = some connector → Usable s.world.state.log connector) ∧
      ∀ manager connected budgetId, c = .operate manager connected (some budgetId) →
        (turn past).isHolding = true ∧
          SelectedFor (within past) s.world.state manager connected.connector budgetId := by
  have hsound : lifecycle.Sound s :=
    Discipline.Reachable.sound (fun p hp v => keeps_starts hp) initial_idle.settled hs
  refine ⟨hsound.safe (fun v hv => ?_) fun h v c hc => hc.1, hsound.alone,
    fun past c next ht => ⟨fun connector hconnector => ?_, fun manager connected budgetId hc => ?_⟩⟩
  · obtain ⟨manager, hmine⟩ := hv
    exact hmine.oneLive
  · refine usable_of_guard (hsound.guarded ht fun hquiet => ?_).2 hconnector
    cases c with
    | joinRestore manager => cases hconnector
    | leaveRestore manager => cases hconnector
    | _ => cases hquiet
  · subst hc
    obtain ⟨hholding, hguard⟩ := hsound.guarded ht nofun
    exact ⟨hholding, hguard.2.2 budgetId rfl⟩

theorem one_connection_home : ∃ connected : ConnectedBudget,
    Usable homeRunning.1.state.log connected.connector ∧
      (turn homeRunning.2.past).isHolding = true ∧
      SelectedFor (within homeRunning.2.past) homeRunning.1.state 1 connected.connector "home" := by
  obtain ⟨c, next, hc, heq⟩ := System.exists_of_isAt isHome (t := homeRunning.2)
    (by decide +kernel)
  cases c with
  | inner c =>
    cases c with
    | operate manager connected expected =>
      obtain ⟨rfl, rfl⟩ := of_decide_eq_true hc
      obtain ⟨husable, hselected⟩ := (one_connection _ reachable_homeRunning).2.2 homeRunning.2.past _
        next (heq ▸ List.mem_cons_self)
      exact ⟨connected, husable _ rfl, hselected 1 connected "home" rfl⟩
    | _ => cases hc
  | _ => cases hc

/-! ## Progress -/

/-- **No operation is left waiting.** In every state of every run: while an operation has a call to
make, some operation has one that is answered; the sections are entered in the order of their
promises; and where no operation is in its section or on its way to it, no promise is open and the
managers are settled. -/
theorem sections_move (s : Running (Locked Lifecycle) (Locking Call) (Locking.Answer Answer) Failure
    Unit) (hs : lifecycleSystem.Reachable (Discipline.start initial) s) :
    (∀ past c next, ⟨past, .call c next⟩ ∈ s.tasks → ∃ past c next r w,
      ⟨past, .call c next⟩ ∈ s.tasks ∧ lifecycleSystem.answers s.world c r w) ∧
    (∀ t ∈ s.tasks, ∀ u ∈ s.tasks, ∀ i p j, turn t.past = .holding i → turn u.past = .waiting p j →
      i < j) ∧
    ((∀ t ∈ s.tasks, turn t.past = .idle) →
      (∀ i ≤ s.world.tail, i ∈ s.world.settled) ∧ Settled s.world.state) := by
  have hsound : lifecycle.Sound s :=
    Discipline.Reachable.sound (fun p hp v => keeps_starts hp) initial_idle.settled hs
  have howed := Discipline.Reachable.owed (fun p hp v => keeps_starts hp) initial_idle.settled hs
  refine ⟨fun past c next ht => ?_, fun t ht u hu i p j => hsound.served_first ht hu,
    hsound.quiet howed⟩
  obtain ⟨past', c', next', ht', hmoves⟩ := hsound.moves howed ht
  refine ⟨past', c', next', ?_⟩
  cases c' with
  | take => exact ⟨_, _, ht', .take⟩
  | await predecessor => exact ⟨_, _, ht', .await (hmoves predecessor rfl)⟩
  | settle mine => exact ⟨_, _, ht', .settle mine⟩
  | inner c => exact ⟨_, _, ht', .inner (effect_answerLifecycle s.world.state c)⟩

/-- Another manager, that waits for `homeRunning`. -/
def homeWaiting : Locked Lifecycle × Task (Locking Call) (Locking.Answer Answer) Failure Unit :=
  System.advance answerLocked isLast homeRunning.1 []
    (withConnection 2 ⟨false, some "home", true⟩ >>= fun _ => pure ())

theorem sections_move_home : ∃ past c next r w,
    ⟨past, .call c next⟩ ∈ [homeRunning.2, homeWaiting.2] ∧
      lifecycleSystem.answers homeWaiting.1 c r w := by
  have hstart := reachable_homeRunning.step (.start (.withConnection 2 ⟨false, some "home", true⟩))
  have hs : lifecycleSystem.Reachable _ ⟨homeWaiting.1, [homeRunning.2] ++ [homeWaiting.2]⟩ :=
    System.Reachable.advance isLast answers_answerLocked _ _ _ hstart
  obtain ⟨c, next, -, heq⟩ := System.exists_of_isAt isHome (t := homeRunning.2) (by decide +kernel)
  exact (sections_move _ hs).1 homeRunning.2.past c next (heq ▸ List.mem_cons_self)

end BalanceFrame.Connection
