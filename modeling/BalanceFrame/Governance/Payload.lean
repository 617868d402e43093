import BalanceFrame.Governance.Record
import BalanceFrame.Library.Checked

/-!
# Operations and resources of a payload

Model of `safeMinor`, `operationList`, `payloadResources`, `financialTotals` and
`prepareAuthorizationPayload` (`packages/workflow-store/src/governance.ts`). A payload is a JSON
value; where the source returns `null` or throws inside a walk, the model returns `none`. The
source keeps resources and totals in objects keyed by `kind:id` and by currency; here they are
lists, read by membership.
-/

namespace BalanceFrame.Governance

open Library
open Liquidity (Json)
open Liquidity.Json (get? asStr)

abbrev Entries := List (String × Json)

def maxI64 : Nat := 9223372036854775807

/-- `/^[A-Z]{3}$/`. -/
def isCurrencyText (s : String) : Bool :=
  s.toList.length == 3 && s.toList.all fun c => 'A' ≤ c && c ≤ 'Z'

/-- `/^(0|[1-9]\d*)$/` and `BigInt`. -/
def decimal (s : String) : Option Nat :=
  let b := s.toList
  if b.all (fun c => '0' ≤ c && c ≤ '9') && !b.isEmpty && (b.length == 1 || b.head? != some '0') then
    some (b.foldl (fun n c => 10 * n + (c.toNat - 48)) 0)
  else none

def safeMinor (value : Option Json) : Option Nat := do
  let amount ← decimal (← value.bind asStr)
  if amount ≤ maxI64 then some amount else none

/-! ## Operations -/

inductive Direction
  | incoming
  | outgoing
  deriving DecidableEq

/-- What the evaluator reads of a `GovernanceOperation`. -/
structure PayloadOperation where
  operation : String
  direction : Option Direction
  amount : Option (String × Nat)
  accountScope : Option Json

/-- A direction that is absent or one of the two words. -/
def readDirection : Option Json → Option (Option Direction)
  | none => some none
  | some (.string "incoming") => some (some .incoming)
  | some (.string "outgoing") => some (some .outgoing)
  | some _ => none

/-- An amount that is absent or well formed. -/
def readAmount : Option Json → Option (Option (String × Nat))
  | none => some none
  | some (.object entries) => do
    let currency ← (get? entries "currency").bind asStr
    let minor ← safeMinor (get? entries "minorUnits")
    if isCurrencyText currency then some (some (currency, minor)) else none
  | some _ => none

/-- The checks on an object that has the key `operation`. -/
def readOperation (entries : Entries) : Option PayloadOperation := do
  let operation ← (get? entries "operation").bind asStr
  if isBlank operation then none
  else
    let direction ← readDirection (get? entries "direction")
    let amount ← readAmount (get? entries "amount")
    some { operation, direction, amount, accountScope := get? entries "accountScope" }

/-- The operation an object is, when it has the key. -/
def ownOperation (entries : Entries) : Option (List PayloadOperation) :=
  if (get? entries "operation").isSome then (readOperation entries).map ([·]) else some []

mutual

/-- `visit` of `operationList`. -/
def visitOperations : Json → Option (List PayloadOperation)
  | .array values => visitOperationValues values
  | .object entries => do
    let own ← ownOperation entries
    let below ← visitOperationEntries entries
    some (own ++ below)
  | _ => some []

def visitOperationValues : List Json → Option (List PayloadOperation)
  | [] => some []
  | value :: rest => do
    let here ← visitOperations value
    let below ← visitOperationValues rest
    some (here ++ below)

def visitOperationEntries : List (String × Json) → Option (List PayloadOperation)
  | [] => some []
  | (_, value) :: rest => do
    let here ← visitOperations value
    let below ← visitOperationEntries rest
    some (here ++ below)

end

def operationList : Option Json → Option (List PayloadOperation)
  | some (.array values) => visitOperationValues values
  | _ => none

/-- The field of an object. -/
def field : Json → String → Option Json
  | .object entries, key => get? entries key
  | _, _ => none

/-! ## Resources -/

def fieldKinds : List (String × ResourceKind) :=
  [("accountId", .account), ("sourceAccountId", .account), ("destinationAccountId", .account),
    ("fromAccountId", .account), ("toAccountId", .account), ("categoryId", .category),
    ("sourceCategoryId", .category), ("destinationCategoryId", .category),
    ("transactionId", .transaction), ("ruleId", .rule), ("evidenceId", .evidence),
    ("walletId", .wallet), ("receiptId", .receipt), ("commitmentId", .commitment),
    ("scenarioId", .scenario), ("reservationId", .reservation), ("purchaseId", .purchase),
    ("transferId", .transfer), ("transferRecommendationId", .transfer), ("sessionId", .session),
    ("proposalId", .proposal), ("ledgerEffectId", .ledgerEffect)]

def effectKinds : String → Option ResourceKind
  | "category" => some .category
  | "account_debit" => some .account
  | "destination_hold" => some .account
  | _ => none

/-- A nonblank id. -/
def resourceRef (kind : ResourceKind) (id : String) : Option ResourceRef :=
  if isBlank id then none else some ⟨kind, id⟩

/-- A `resourceKind` and `resourceId` pair, or the resource of a claim effect. -/
def pairResource (entries : Entries) : Option (List ResourceRef) :=
  match get? entries "resourceKind", get? entries "resourceId" with
  | none, none => some []
  | some (.string kind), some (.string id) =>
    ((ResourceKind.ofText kind).bind fun k => resourceRef k id).map ([·])
  | none, some (.string id) =>
    ((((get? entries "kind").bind asStr).bind effectKinds).bind fun k => resourceRef k id).map ([·])
  | _, _ => none

/-- The resource of one id field. -/
def fieldResource (entries : Entries) (fieldKind : String × ResourceKind) :
    Option (List ResourceRef) :=
  match get? entries fieldKind.1 with
  | none => some []
  | some .null => some []
  | some (.string id) => (resourceRef fieldKind.2 id).map ([·])
  | some _ => none

/-- The resources an object names itself. -/
def ownResources (entries : Entries) : Option (List ResourceRef) := do
  let pair ← pairResource entries
  let fields ← fieldKinds.mapM (fieldResource entries)
  some (pair ++ fields.flatten)

mutual

/-- `visit` of `payloadResources`. -/
def visitResources : Json → Option (List ResourceRef)
  | .array values => visitResourceValues values
  | .object entries => do
    let own ← ownResources entries
    let below ← visitResourceEntries entries
    some (own ++ below)
  | _ => some []

def visitResourceValues : List Json → Option (List ResourceRef)
  | [] => some []
  | value :: rest => do
    let here ← visitResources value
    let below ← visitResourceValues rest
    some (here ++ below)

def visitResourceEntries : List (String × Json) → Option (List ResourceRef)
  | [] => some []
  | (_, value) :: rest => do
    let here ← visitResources value
    let below ← visitResourceEntries rest
    some (here ++ below)

end

def payloadResources (value : Json) : Option (List ResourceRef) := visitResources value

/-! ## Totals -/

/-- The total of a currency; zero when there is none. -/
def totalOf (totals : List (String × Nat)) (currency : String) : Nat :=
  (totals.find? (·.1 == currency)).elim 0 Prod.snd

/-- `totals[currency] = total`. -/
def setTotal (totals : List (String × Nat)) (currency : String) (total : Nat) :
    List (String × Nat) :=
  totals.filter (·.1 != currency) ++ [(currency, total)]

/-- One step of `financialTotals`. -/
def addTotal (totals : List (String × Nat)) (op : PayloadOperation) :
    Option (List (String × Nat)) :=
  if op.direction = some .outgoing then do
    let (currency, amount) ← op.amount
    let total := totalOf totals currency + amount
    if total ≤ maxI64 then some (setTotal totals currency total) else none
  else some totals

def financialTotals (operations : List PayloadOperation) : Option (List (String × Nat)) :=
  operations.foldlM addTotal []

/-! ## The prepared payload -/

/-- `PreparedAuthorizationPayload`; of `subjectOperation` only its name is read. A rule scope may
hold ids that are no texts: `none`. -/
structure PreparedPayload where
  operationCount : Nat
  operationNames : List String
  accountIds : List String
  categoryIds : List String
  ruleOperationNames : List String
  ruleAccountIds : List (Option String)
  invalidRuleScope : Bool
  gross : List (String × Nat)
  subjectOperation : Option String := none

/-- `ruleOperation`. -/
def isRuleOperation (name : String) : Bool :=
  ["create_rule", "update_rule", "delete_rule"].contains name

/-- The account ids of a rule scope: `none` when the scope is not bounded by accounts, an error
where iterating over `accountIds` throws. -/
def scopeAccountIds : Option Json → Except String (Option (List (Option String)))
  | some (.object scope) =>
    if (get? scope "kind").bind asStr == some "accounts" then
      match get? scope "accountIds" with
      | some (.array []) => .ok none
      | some (.array ids) => .ok (some (ids.map asStr))
      | some (.string "") => .ok none
      | some (.string s) => .ok (some (s.toList.map fun c => some (String.singleton c)))
      | some (.object entries) =>
        match get? entries "length" with
        | some (.number 0) => .ok none
        | _ => .error "accountIds is not iterable"
      | _ => .error "accountIds is not iterable"
    else .ok none
  | _ => .ok none

/-- One step over the operations: names, and the scopes of rule operations. -/
def prepareOperation (p : PreparedPayload) (op : PayloadOperation) :
    Except String PreparedPayload :=
  let p := { p with operationNames := p.operationNames ++ [op.operation] }
  if isRuleOperation op.operation then do
    let p := { p with ruleOperationNames := p.ruleOperationNames ++ [op.operation] }
    match ← scopeAccountIds op.accountScope with
    | none => .ok { p with invalidRuleScope := true }
    | some ids => .ok { p with
        ruleAccountIds := p.ruleAccountIds ++ ids
        invalidRuleScope := p.invalidRuleScope ||
          !ids.all fun id => id.any fun id => p.accountIds.contains id }
  else .ok p

def prepareAuthorizationPayload (operation : String) (operations : List PayloadOperation)
    (resources : List ResourceRef) (gross : List (String × Nat)) :
    Except String PreparedPayload :=
  operations.foldlM prepareOperation
    { operationCount := operations.length
      operationNames := [operation]
      accountIds := (resources.filter (·.resourceKind = .account)).map (·.resourceId)
      categoryIds := (resources.filter (·.resourceKind = .category)).map (·.resourceId)
      ruleOperationNames := []
      ruleAccountIds := []
      invalidRuleScope := false
      gross }

end BalanceFrame.Governance
