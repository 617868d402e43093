import BalanceFrame.Library.Locks
import BalanceFrame.Liquidity.Json

/-!
# The connection manager

Model of `packages/application/src/connection-manager.ts`: `connect`, `listBudgets`, `restore`,
`withConnection`, `disconnect` and `removeConnection` of any number of managers that share
`actualLifecycleState`, as programs over the calls they make. The sections of
`runActualLifecycleExclusive` are those of a lock of promises (`Locking.exclusive`).

A manager and a connector are numbers. `Lifecycle` holds the owner and the fields of every manager,
and, for the proofs only, what has become of every connector (`ConnectorLog`); files, credentials,
the factory and the connectors answer as they may. What is only logged is left out.
-/

namespace BalanceFrame.Connection

open Library
open Library.Prog
open Liquidity (Json)

/-! ## Data -/

/-- `ConnectionConfig`; its `version` is 1. -/
structure ConnectionConfig where
  serverUrl : String
  budgetId : String
  budgetName : String
  groupId : String
  deriving DecidableEq

/-- What `JSON.parse` gives of the configuration file, as it is cast. -/
structure PartialConfig where
  version : Option Int
  serverUrl : Option String
  budgetId : Option String
  budgetName : Option String
  groupId : Option String

structure Credentials where
  serverUrl : String
  secretKey : String
  budgetPassword : Option String
  deriving DecidableEq

structure BudgetInfo where
  id : String
  groupId : String
  name : String
  encrypted : Bool
  deriving DecidableEq

/-- `ConnectedBudget`; no `synchronization` is `null`. -/
structure ConnectedBudget where
  config : ConnectionConfig
  budget : BudgetInfo
  connector : Nat
  synchronization : Option Json

/-- `ConnectionUseOptions`, with `synchronize` of `true` where it is absent. -/
structure ConnectionUseOptions where
  dispose : Bool
  expectedBudgetId : Option String
  synchronize : Bool

/-- The fields of a manager that its sections write. -/
structure Slots where
  connectedBudget : Option ConnectedBudget := none
  connectedConfig : Option ConnectionConfig := none
  connectedCredentials : Option Credentials := none
  quarantinedConnector : Option Nat := none

/-- What has become of a connector: the credentials it was made and connected with, the budget it
selected last and the identity that was asked for, and how `disconnect` went. -/
structure ConnectorLog where
  credentials : Credentials
  connectedWith : Option Credentials := none
  selected : Option (String × BudgetInfo) := none
  disconnected : Bool := false
  failed : Bool := false

/-- `actualLifecycleState.owner`, the managers, and the connectors that were made. -/
structure Lifecycle where
  owner : Option Nat
  slots : Nat → Slots
  log : Nat → Option ConnectorLog

/-- What is thrown. -/
inductive Failure
  | notConnected
  | other (message : String)

/-! ## Calls -/

/-- The calls of the managers; the first argument is the manager or the connector. -/
inductive Call
  | owner
  | setOwner (owner : Option Nat)
  | slots (manager : Nat)
  | setSlots (manager : Nat) (slots : Slots)
  | readConfigFile (manager : Nat)
  | writeConfigFile (manager : Nat) (config : ConnectionConfig)
  | deleteConfigFile (manager : Nat)
  | loadCredentials (manager : Nat)
  | createConnector (manager : Nat) (credentials : Credentials)
  | connectConnector (connector : Nat) (credentials : Credentials)
  | selectBudget (connector : Nat) (id : String) (password : Option String)
  | synchronize (connector : Nat) (refresh : Option Bool)
  | disconnectConnector (connector : Nat)
  | operate (manager : Nat) (connected : ConnectedBudget) (expectedBudgetId : Option String)
  | joinRestore (manager : Nat)
  | leaveRestore (manager : Nat)

/-- What a call answers; an operation's value as a JSON one. -/
def Answer : Call → Type
  | .owner => Option Nat
  | .setOwner _ => Unit
  | .slots _ => Slots
  | .setSlots _ _ => Unit
  | .readConfigFile _ => Option PartialConfig
  | .writeConfigFile _ _ => Unit
  | .deleteConfigFile _ => Unit
  | .loadCredentials _ => Option Credentials
  | .createConnector _ _ => Nat
  | .connectConnector _ _ => List BudgetInfo
  | .selectBudget _ _ _ => BudgetInfo
  | .synchronize _ _ => Option Json
  | .disconnectConnector _ => Unit
  | .operate _ _ _ => Json
  | .joinRestore _ => Option ConnectedBudget
  | .leaveRestore _ => Unit

abbrev Program (α : Type) := Prog Call Answer Failure α

abbrev request (c : Call) : Program (Answer c) := ask c

/-- A program with sections. -/
abbrev Operation (α : Type) := Prog (Locking Call) (Locking.Answer Answer) Failure α

/-! ## Sections -/

/-- A text that is not empty. -/
def truthy (text : Option String) : Option String := text.filter (· != "")

/-- `loadConfig`: the file and its check. -/
def checkConfig (value : PartialConfig) : Option ConnectionConfig :=
  if value.version == some 1 then
    match truthy value.serverUrl, truthy value.budgetId, truthy value.budgetName,
      truthy value.groupId with
    | some serverUrl, some budgetId, some budgetName, some groupId =>
      some { serverUrl, budgetId, budgetName, groupId }
    | _, _, _, _ => none
  else none

def loadConfig (manager : Nat) : Program (Option ConnectionConfig) := do
  match ← request (.readConfigFile manager) with
  | none => return none
  | some value =>
    match checkConfig value with
    | some config => return some config
    | none => stop (.other "Invalid BalanceFrame connection configuration.")

/-- `if (actualLifecycleState.owner === this) actualLifecycleState.owner = null`. -/
def releaseOwner (manager : Nat) : Program Unit := do
  let owner : Option Nat ← request .owner
  if owner = some manager then request (.setOwner none) else pure ()

def disconnectConnector (manager connector : Nat) : Program Unit := do
  let slots : Slots ← request (.slots manager)
  request (.setSlots manager { slots with quarantinedConnector := some connector })
  request (.setOwner (some manager))
  request (.disconnectConnector connector)
  let slots : Slots ← request (.slots manager)
  if slots.quarantinedConnector = some connector then
    request (.setSlots manager { slots with quarantinedConnector := none })
  else pure ()

/-- The connectors that `disconnectConnected` disconnects, in its order. -/
def heldConnectors (slots : Slots) : List Nat :=
  match slots.quarantinedConnector, slots.connectedBudget with
  | some quarantined, some connected =>
    if connected.connector = quarantined then [quarantined] else [quarantined, connected.connector]
  | some quarantined, none => [quarantined]
  | none, some connected => [connected.connector]
  | none, none => []

/-- `disconnectConnector` of each. -/
def disconnectAll (manager : Nat) : List Nat → Program Unit
  | [] => pure ()
  | connector :: rest => do
    disconnectConnector manager connector
    disconnectAll manager rest

def disconnectConnected (manager : Nat) : Program Unit := do
  let slots : Slots ← request (.slots manager)
  disconnectAll manager (heldConnectors slots)
  let slots : Slots ← request (.slots manager)
  request (.setSlots manager { slots with
    connectedBudget := none, connectedConfig := none, connectedCredentials := none })
  releaseOwner manager

/-- The `catch` around a new connector: it is disconnected, and the owner released unless that
fails. -/
def cleanUp (manager : Nat) (connector : Option Nat) (error : Failure) : Program ConnectedBudget := do
  match connector with
  | none =>
    releaseOwner manager
    stop error
  | some connector =>
    match ← attempt (disconnectConnector manager connector) with
    | .ok _ =>
      releaseOwner manager
      stop error
    | .error _ => stop error

/-- The three fields of a connected manager. -/
def setConnected (manager : Nat) (connected : ConnectedBudget) (credentials : Credentials) :
    Program Unit := do
  let slots : Slots ← request (.slots manager)
  request (.setSlots manager { slots with
    connectedBudget := some connected, connectedConfig := some connected.config,
    connectedCredentials := some credentials })

/-- The `try` of `connect`, of a connector that was made. -/
def connectNew (manager connector : Nat) (budgetId : String) (credentials : Credentials) :
    Program ConnectedBudget := do
  let budgets : List BudgetInfo ← request (.connectConnector connector credentials)
  match budgets.find? fun candidate => candidate.id == budgetId || candidate.groupId == budgetId with
  | none => stop (.other ("Budget \"" ++ budgetId ++ "\" not found on server."))
  | some budget =>
    let selected : BudgetInfo ← request (.selectBudget connector
      ((truthy (some budget.id)).getD budget.groupId) credentials.budgetPassword)
    let synchronization : Option Json ← request (.synchronize connector (some false))
    let config : ConnectionConfig := {
      serverUrl := credentials.serverUrl
      budgetId := (truthy (some selected.id)).getD selected.groupId
      budgetName := selected.name
      groupId := selected.groupId }
    request (.writeConfigFile manager config)
    let connected : ConnectedBudget := { config, budget := selected, connector, synchronization }
    setConnected manager connected credentials
    return connected

/-- A connector is made and put to use, or cleaned up. -/
def withNewConnector (manager : Nat) (credentials : Credentials)
    (use : Nat → Program ConnectedBudget) : Program ConnectedBudget := do
  match ← attempt (request (.createConnector manager credentials)) with
  | .error error => cleanUp manager none error
  | .ok connector =>
    match ← attempt (use connector) with
    | .ok connected => return connected
    | .error error => cleanUp manager (some connector) error

/-- `input.credentials ?? (await this.credentialStore.load())`. -/
def resolveCredentials (manager : Nat) (credentials : Option Credentials) : Program Credentials := do
  match credentials with
  | some credentials => return credentials
  | none =>
    match ← request (.loadCredentials manager) with
    | some credentials => return credentials
    | none => stop (.other "No Actual credentials configured.")

/-- The operation of `connect`. -/
def connectBudget (manager : Nat) (budgetId : String) (credentials : Option Credentials) :
    Program ConnectedBudget := do
  disconnectConnected manager
  request (.setOwner (some manager))
  let credentials ← resolveCredentials manager credentials
  withNewConnector manager credentials fun connector =>
    connectNew manager connector budgetId credentials

/-- The `finally` of `listBudgets`. -/
def releaseUnlessQuarantined (manager : Nat) : Program Unit := do
  let slots : Slots ← request (.slots manager)
  if slots.quarantinedConnector.isNone then releaseOwner manager else pure ()

/-- The operation of `listBudgets`. -/
def discoverBudgets (manager : Nat) (credentials : Option Credentials) :
    Program (List BudgetInfo) := do
  disconnectConnected manager
  request (.setOwner (some manager))
  let credentials ← resolveCredentials manager credentials
  let connector : Nat ← request (.createConnector manager credentials)
  match ← attempt (request (.connectConnector connector credentials)) with
  | .error error =>
    match ← attempt (disconnectConnector manager connector) with
    | .ok _ =>
      releaseOwner manager
      stop error
    | .error _ => stop error
  | .ok budgets =>
    let outcome ← attempt (disconnectConnector manager connector)
    releaseUnlessQuarantined manager
    ofExcept outcome
    return budgets

/-- `sameConfig`; both versions are 1. -/
def sameConfig (left right : ConnectionConfig) : Bool :=
  left.serverUrl == right.serverUrl && left.budgetId == right.budgetId && left.groupId == right.groupId

def sameCredentials (left right : Credentials) : Bool :=
  left.serverUrl == right.serverUrl && left.secretKey == right.secretKey &&
    left.budgetPassword == right.budgetPassword

/-- The connected budget of the same configuration and credentials. -/
def reusable (slots : Slots) (config : ConnectionConfig) (credentials : Credentials) :
    Option ConnectedBudget :=
  match slots.connectedBudget, slots.connectedConfig, slots.connectedCredentials with
  | some connected, some connectedConfig, some connectedCredentials =>
    if sameConfig connectedConfig config && sameCredentials connectedCredentials credentials then
      some connected
    else none
  | _, _, _ => none

/-- A failed attempt to disconnect is logged. -/
def tryDisconnect (manager : Nat) : Program Unit := do
  let _ ← attempt (disconnectConnected manager)

/-- The connected budget is used again. -/
def reuse (manager : Nat) (connected : ConnectedBudget) (synchronize : Bool) :
    Program ConnectedBudget := do
  if synchronize then
    match ← attempt (request (.synchronize connected.connector none)) with
    | .ok synchronization =>
      let connected := { connected with synchronization }
      let slots : Slots ← request (.slots manager)
      request (.setSlots manager { slots with connectedBudget := some connected })
      return connected
    | .error error =>
      tryDisconnect manager
      stop error
  else return { connected with synchronization := none }

/-- The `try` of `restoreConfiguredBudget`, of a connector that was made. -/
def restoreNew (manager connector : Nat) (config : ConnectionConfig) (credentials : Credentials)
    (synchronize : Bool) : Program ConnectedBudget := do
  let _ ← request (.connectConnector connector credentials)
  let budget : BudgetInfo ← request (.selectBudget connector config.budgetId
    credentials.budgetPassword)
  let synchronization : Option Json ←
    if synchronize then request (.synchronize connector (some false)) else pure none
  let connected : ConnectedBudget := { config, budget, connector, synchronization }
  setConnected manager connected credentials
  return connected

/-- `restoreConfiguredBudget` under the stored credentials. -/
def restoreUnder (manager : Nat) (config : ConnectionConfig) (credentials : Credentials)
    (synchronize : Bool) : Program ConnectedBudget := do
  let slots : Slots ← request (.slots manager)
  match reusable slots config credentials with
  | some connected => reuse manager connected synchronize
  | none =>
    disconnectConnected manager
    request (.setOwner (some manager))
    withNewConnector manager credentials fun connector =>
      restoreNew manager connector config credentials synchronize

def restoreConfiguredBudget (manager : Nat) (expectedBudgetId : Option String)
    (synchronize : Bool) : Program ConnectedBudget := do
  match ← loadConfig manager with
  | none =>
    disconnectConnected manager
    stop .notConnected
  | some config =>
    if expectedBudgetId.any (· != config.budgetId) then stop (.other "Selected budget changed")
    else
      match ← request (.loadCredentials manager) with
      | none =>
        disconnectConnected manager
        stop (.other "No Actual credentials configured.")
      | some credentials =>
        if credentials.serverUrl != config.serverUrl then
          disconnectConnected manager
          stop (.other "Stored credentials do not match the configured server.")
        else restoreUnder manager config credentials synchronize

/-- The configured budget has to be the expected one. -/
def checkExpected (manager : Nat) (expectedBudgetId : Option String) : Program Unit := do
  match expectedBudgetId with
  | none => return
  | some expectedBudgetId =>
    let config ← loadConfig manager
    if config.map (·.budgetId) = some expectedBudgetId then return
    else stop (.other "Selected budget changed")

/-- What `runWithLifecycle` disconnects before the operation. -/
def disconnectOthers (manager : Nat) : Program Unit := do
  match ← request .owner with
  | some owner =>
    let ownerSlots : Slots ← request (.slots owner)
    if owner ≠ manager ∨ ownerSlots.quarantinedConnector.isSome then disconnectConnected owner
    else
      let slots : Slots ← request (.slots manager)
      if slots.quarantinedConnector.isSome then disconnectConnected manager else pure ()
  | none =>
    let slots : Slots ← request (.slots manager)
    if slots.quarantinedConnector.isSome then disconnectConnected manager else pure ()

/-- The section of `runWithLifecycle`. -/
def inLifecycle {α : Type} (manager : Nat) (operation : Program α)
    (expectedBudgetId : Option String) : Program α := do
  checkExpected manager expectedBudgetId
  disconnectOthers manager
  request (.setOwner (some manager))
  operation

/-- The operation of `withConnection`. -/
def useConnection (manager : Nat) (options : ConnectionUseOptions) : Program Json := do
  let connected ← restoreConfiguredBudget manager options.expectedBudgetId options.synchronize
  let outcome ← attempt (request (.operate manager connected options.expectedBudgetId))
  if options.dispose then
    tryDisconnect manager
    ofExcept outcome
  else ofExcept outcome

/-- The expected budget is any, or the connected one. -/
def isExpected (slots : Slots) (expectedBudgetId : Option String) : Bool :=
  expectedBudgetId.isNone || slots.connectedConfig.map (·.budgetId) == expectedBudgetId

/-- Another manager that is the owner is disconnected first. -/
def disconnectOwner (manager : Nat) (expectedBudgetId : Option String) : Program Unit := do
  match ← request .owner with
  | none => return
  | some owner =>
    let ownerSlots : Slots ← request (.slots owner)
    if owner ≠ manager ∧ isExpected ownerSlots expectedBudgetId = true then
      disconnectConnected owner
    else pure ()

def disconnectCurrentConnection (manager : Nat) (expectedBudgetId : Option String) :
    Program Unit := do
  disconnectOwner manager expectedBudgetId
  let slots : Slots ← request (.slots manager)
  if isExpected slots expectedBudgetId then disconnectConnected manager else pure ()

/-! ## Operations -/

def connect (manager : Nat) (budgetId : String) (credentials : Option Credentials) :
    Operation ConnectedBudget :=
  Locking.exclusive (inLifecycle manager (connectBudget manager budgetId credentials) none)

def listBudgets (manager : Nat) (credentials : Option Credentials) : Operation (List BudgetInfo) :=
  Locking.exclusive (inLifecycle manager (discoverBudgets manager credentials) none)

/-- `restore`: a restoration under way is joined. -/
def restore (manager : Nat) : Operation ConnectedBudget := do
  let pending : Option ConnectedBudget ← Locking.outside (A := Answer) (Call.joinRestore manager)
  match pending with
  | some connected => return connected
  | none =>
    let outcome ← attempt (Locking.exclusive
      (inLifecycle manager (restoreConfiguredBudget manager none true) none))
    let _ ← Locking.outside (A := Answer) (Call.leaveRestore manager)
    ofExcept outcome

def withConnection (manager : Nat) (options : ConnectionUseOptions) : Operation Json :=
  Locking.exclusive
    (inLifecycle manager (useConnection manager options) options.expectedBudgetId)

def disconnect (manager : Nat) (expectedBudgetId : Option String) : Operation Unit :=
  Locking.exclusive do
    checkExpected manager expectedBudgetId
    disconnectCurrentConnection manager expectedBudgetId

def removeConnection (manager : Nat) (expectedBudgetId : String) : Operation Unit :=
  Locking.exclusive do
    checkExpected manager (some expectedBudgetId)
    disconnectCurrentConnection manager (some expectedBudgetId)
    request (.deleteConfigFile manager)

end BalanceFrame.Connection
