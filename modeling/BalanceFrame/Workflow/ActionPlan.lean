import BalanceFrame.Governance.Spaces

/-!
# Plans of consequential actions

Model of the plan, ledger and atom types (`packages/protocol-generated/src/validators.ts`) and of
`consequentialActionAtoms`, `consequentialActionStableIdentity` and `consequentialActionHoldKeys`
(`packages/workflow-store/src/proposal.ts`). Values are those the schemas accept, so an amount is a
number with its currency. Of a value that is only compared through `canonicalProposalJson`, the
fields that no function here reads are kept as one text, `rest`.
-/

namespace BalanceFrame.Workflow

open Library
open Governance
open Liquidity (Json Money)

/-! ## Atoms -/

/-- The `kind` of an atom. -/
inductive ActionKind
  | reallocation
  | manualTransaction
  | evidenceCredit
  | evidenceAmendment
  | evidenceProjection
  | walletMaterialization
  | transfer
  deriving DecidableEq

def ActionKind.text : ActionKind → String
  | .reallocation => "reallocation"
  | .manualTransaction => "manual_transaction"
  | .evidenceCredit => "evidence_credit"
  | .evidenceAmendment => "evidence_amendment"
  | .evidenceProjection => "evidence_projection"
  | .walletMaterialization => "wallet_materialization"
  | .transfer => "transfer"

/-- `actionSplit`. -/
structure Split where
  categoryId : String
  amount : Money
  deriving DecidableEq

structure ReallocationAssignment where
  sourceCategoryId : String
  sourceAsOfMonth : String
  destinationCategoryId : String
  destinationAsOfMonth : String
  amount : Money
  deriving DecidableEq

/-- `manualTransactionIntent`. -/
structure ManualTransaction where
  parentId : String
  correlationId : String
  accountId : String
  amount : Money
  date : String
  categoryId : Option String
  payeeName : Option String
  notes : Option String
  splits : List Split
  deriving DecidableEq

/-- The atom kinds that project evidence. -/
inductive EvidenceKind
  | credit
  | amendment
  | projection
  deriving DecidableEq

/-- The `transfer` atom. -/
structure TransferIntent where
  transferId : String
  correlationId : String
  sourceAccountId : String
  destinationAccountId : String
  amount : Money
  date : String
  deriving DecidableEq

/-- `atomicAction`. -/
inductive Atom
  | reallocation (assignments : List ReallocationAssignment)
  | manualTransaction (transaction : ManualTransaction)
  | evidence (kind : EvidenceKind) (transaction : ManualTransaction) (evidenceIds : List String)
      (resolutionSubjectId : Option String) (rest : String)
  | walletMaterialization (walletId accountName currency : String) (rest : String)
  | transfer (intent : TransferIntent)
  deriving DecidableEq

def Atom.kind : Atom → ActionKind
  | .reallocation _ => .reallocation
  | .manualTransaction _ => .manualTransaction
  | .evidence .credit .. => .evidenceCredit
  | .evidence .amendment .. => .evidenceAmendment
  | .evidence .projection .. => .evidenceProjection
  | .walletMaterialization .. => .walletMaterialization
  | .transfer _ => .transfer

/-- The values of `consequentialActionStableIdentity`. -/
inductive StableIdentity
  | assignments (assignments : List ReallocationAssignment)
  | parent (parentId : String)
  | evidence (parentId : String) (resolutionSubjectId : Option String) (evidenceIds : List String)
      (accountId date : String) (amount : Money) (categoryId : Option String) (splits : List Split)
  | wallet (walletId : String)
  | transfer (transferId : String)
  deriving DecidableEq

/-- `consequentialActionStableIdentity`. -/
def Atom.stableIdentity : Atom → StableIdentity
  | .reallocation assignments => .assignments assignments
  | .manualTransaction t => .parent t.parentId
  | .evidence _ t evidenceIds resolutionSubjectId _ =>
    .evidence t.parentId resolutionSubjectId evidenceIds t.accountId t.date t.amount t.categoryId
      t.splits
  | .walletMaterialization walletId .. => .wallet walletId
  | .transfer t => .transfer t.transferId

/-! ## Plans -/

/-- `consequentialActionIntentSchema`. -/
inductive ActionIntent
  | atomic (atom : Atom)
  | composite (actions : List Atom)
  deriving DecidableEq

/-- `actionSource`. -/
structure PlanSource where
  financialPolicyVersion : String
  rest : String
  deriving DecidableEq

/-- `actionEvidence`. -/
structure EvidenceReference where
  evidenceId : String
  subjectId : String
  rest : String
  deriving DecidableEq

/-- An assignment of `dispatchPrecondition`. -/
structure DispatchAssignment where
  categoryId : String
  asOfMonth : String
  amount : Money
  postAmount : Money
  deriving DecidableEq

structure DispatchPrecondition where
  atomIndex : Nat
  accountBalances : List (String × Money)
  assignments : List DispatchAssignment
  deriving DecidableEq

/-- `actionPostcondition`; the kinds that are not read back are one. -/
inductive Postcondition
  | assignment (categoryId asOfMonth : String) (amount : Money)
  | walletMapping (walletId accountName : String) (openingBalance : Money)
  | other (kind rest : String)
  deriving DecidableEq

/-- `consequentialActionPlanSchema`. -/
structure Plan where
  action : ActionIntent
  source : PlanSource
  evidenceReferences : List EvidenceReference
  expiresAt : String
  idempotencyKey : String
  expectedPostconditions : List Postcondition
  dispatchPreconditions : List DispatchPrecondition
  actionHash : String
  rest : String
  deriving DecidableEq

/-- `consequentialActionAtoms`. -/
def Plan.atoms (plan : Plan) : List Atom :=
  match plan.action with
  | .atomic atom => [atom]
  | .composite actions => actions

/-! ## Ledgers -/

/-- `actionAccount`. -/
structure LedgerAccount where
  accountId : String
  name : String
  onBudget : Bool
  closed : Bool
  currency : String
  deriving DecidableEq

/-- `actionAssignment`. -/
structure LedgerAssignment where
  categoryId : String
  asOfMonth : String
  amount : Money
  deriving DecidableEq

/-- `actionWallet`. -/
structure LedgerWallet where
  walletId : String
  accountId : String
  deriving DecidableEq

/-- `actionLedgerTransaction`. -/
structure LedgerTransaction where
  parentId : String
  accountId : String
  amount : Money
  date : String
  categoryId : Option String
  payeeName : Option String
  notes : Option String
  splits : List Split
  transferAccountId : Option String
  deriving DecidableEq

/-- `actionTransfer`. -/
structure LedgerTransfer where
  transferId : String
  correlationId : String
  marker : String
  sourceTransactionId : String
  destinationTransactionId : String
  sourceAccountId : String
  destinationAccountId : String
  amount : Money
  date : String
  deriving DecidableEq

/-- `consequentialActionLedgerSchema`. -/
structure ActionLedger where
  accounts : List LedgerAccount
  assignments : List LedgerAssignment
  wallets : List LedgerWallet
  transactions : List LedgerTransaction
  transfers : List LedgerTransfer
  rest : String
  deriving DecidableEq

/-! ## Hold keys -/

def categoryMonth (categoryId month : String) : String := s!"category-month:{categoryId}:{month}"

/-- The category months a transaction touches. -/
def transactionMonths (t : ManualTransaction) : List String :=
  (t.categoryId.toList ++ t.splits.map (·.categoryId)).map fun categoryId =>
    categoryMonth categoryId (String.ofList (t.date.toList.take 7))

/-- The key of one evidence id of an atom: its one native reference names the subject. -/
def evidenceEffectKey (plan : Plan) (sourceLedgerNamespace : String)
    (resolutionSubjectId : Option String) (evidenceId : String) : Except String String :=
  match plan.evidenceReferences.filter fun reference =>
      reference.evidenceId == evidenceId &&
        resolutionSubjectId.all (reference.subjectId == ·) with
  | [reference] => .ok ("evidence-effect:" ++ Json.toText (.object
      [("sourceLedgerNamespace", .string sourceLedgerNamespace),
        ("subjectId", .string reference.subjectId)]))
  | _ => .error "Evidence projection lacks its exact native reference"

/-- The keys one atom adds. -/
def atomHoldKeys (plan : Plan) (sourceLedgerNamespace : String) :
    Atom → Except String (List String)
  | .reallocation assignments => .ok (assignments.flatMap fun a =>
      [categoryMonth a.sourceCategoryId a.sourceAsOfMonth,
        categoryMonth a.destinationCategoryId a.destinationAsOfMonth])
  | .manualTransaction t => .ok (s!"transaction-parent:{t.parentId}" :: transactionMonths t)
  | .evidence _ t evidenceIds resolutionSubjectId _ => do
    let effects ← evidenceIds.mapM
      (evidenceEffectKey plan sourceLedgerNamespace resolutionSubjectId)
    .ok (s!"transaction-parent:{t.parentId}" :: transactionMonths t ++ effects)
  | .walletMaterialization walletId .. => .ok [s!"wallet:{walletId}"]
  | .transfer t => .ok [s!"transfer:{t.transferId}"]

/-- `consequentialActionHoldKeys`; the source's sorted set is read by membership. -/
def holdKeys (plan : Plan) (sourceLedgerNamespace : String) : Except String (List String) := do
  reject (isBlank sourceLedgerNamespace) "Missing consequential-action ledger namespace"
  let keys ← plan.atoms.mapM (atomHoldKeys plan sourceLedgerNamespace)
  .ok keys.flatten

def permanentIdentity (key : String) : Bool :=
  key.startsWith "transaction-parent:" || key.startsWith "wallet:" || key.startsWith "transfer:" ||
    key.startsWith "evidence-effect:"

end BalanceFrame.Workflow
