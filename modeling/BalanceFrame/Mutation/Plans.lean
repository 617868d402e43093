import BalanceFrame.Governance.Payload
import BalanceFrame.Merchant.RuleOrder

/-!
# Approved plans of a categorization

Model of `categoryPreconditionsSchema` and `checkPreconditions`
(`packages/application/src/mutation.ts`), of `indexCanonicalTransactions`
(`packages/application/src/review-persistence.ts`) and of `normalizedJson`
(`packages/workflow-store/src/proposal.ts`). A text of preconditions is kept as the value that
`JSON.parse` gives of it, if any; two values are compared where the source compares their
canonical texts. A time that is not one is `none`.
-/

namespace BalanceFrame.Mutation

open Library Option
open Liquidity (Json Money I64)
open Liquidity.Json (get? asStr)
open Governance (Direction Entries isCurrencyText)
open Merchant (units16)

/-! ## Canonical values -/

mutual

/-- `normalizedJson`: keys in the order of their UTF-16 units. -/
def normalizedJson : Json → Json
  | .array values => .array (normalizedValues values)
  | .object entries => .object (sortOn (fun e => units16 e.1) (normalizedEntries entries))
  | value => value

def normalizedValues : List Json → List Json
  | [] => []
  | value :: rest => normalizedJson value :: normalizedValues rest

def normalizedEntries : Entries → Entries
  | [] => []
  | (key, value) :: rest => (key, normalizedJson value) :: normalizedEntries rest

end

mutual

/-- The same value. -/
def sameJson : Json → Json → Bool
  | .null, .null => true
  | .bool a, .bool b => a == b
  | .number a, .number b => a == b
  | .string a, .string b => a == b
  | .array a, .array b => sameValues a b
  | .object a, .object b => sameEntries a b
  | _, _ => false

def sameValues : List Json → List Json → Bool
  | [], [] => true
  | a :: l, b :: m => sameJson a b && sameValues l m
  | _, _ => false

def sameEntries : Entries → Entries → Bool
  | [], [] => true
  | (key, a) :: l, (key', b) :: m => key == key' && sameJson a b && sameEntries l m
  | _, _ => false

end

/-- One `canonicalProposalJson`. -/
def sameCanonical (a b : Json) : Bool := sameJson (normalizedJson a) (normalizedJson b)

/-! ## Preconditions -/

/-- An optional field. -/
def optional {α : Type} (read : Json → Option α) (entries : Entries) (key : String) :
    Option (Option α) :=
  match get? entries key with
  | none => some none
  | some value => (read value).map some

/-- A required field. -/
def required {α : Type} (read : Json → Option α) (entries : Entries) (key : String) : Option α :=
  (get? entries key).bind read

/-- `z.string().min(1)`. -/
def readText (value : Json) : Option String := (asStr value).filter (· != "")

/-- `z.string().nullable()`. -/
def readNullable : Json → Option (Option String)
  | .null => some none
  | value => (asStr value).map some

/-- `signedI64StringSchema`. -/
def readMinorUnits (value : Json) : Option I64 := do
  let text ← asStr value
  let n ← match text.toList with
    | '-' :: digits =>
      (Governance.decimal (String.ofList digits)).bind fun n => if n = 0 then none else some (-(n : Int))
    | _ => (Governance.decimal text).map Int.ofNat
  if h : Liquidity.InI64 n then some ⟨n, h⟩ else none

/-- `moneySchema`. -/
def readMoney : Json → Option Money
  | .object entries => do
    let minorUnits ← required readMinorUnits entries "minorUnits"
    let currency ← (required asStr entries "currency").filter isCurrencyText
    some { minorUnits, currency }
  | _ => none

/-- `z.enum(['incoming', 'outgoing'])`. -/
def readDirection : Json → Option Direction
  | .string "incoming" => some .incoming
  | .string "outgoing" => some .outgoing
  | _ => none

/-- `reviewProvenance`, of which only the presence is read. -/
def readProvenance : Json → Option Unit
  | .object entries => do
    let _ ← required readText entries "budgetId"
    let _ ← required readText entries "transactionId"
    let _ ← required asStr entries "categoryId"
    let _ ← (required asStr entries "status").filter
      fun status => status == "pending_review" || status == "correcting"
    let _ ← required (fun
      | .number n => if 0 < n then some n else none
      | _ => none) entries "version"
    if entries.all fun e =>
        ["budgetId", "transactionId", "categoryId", "status", "version"].contains e.1 then some ()
    else none
  | _ => none

/-- `transaction` of the preconditions; `categoryId` is absent, `null` or a text. -/
structure ExpectedTransaction where
  id : Option String
  accountId : String
  categoryId : Option (Option String)
  direction : Direction
  amount : Money

def readExpectedTransaction : Json → Option ExpectedTransaction
  | .object entries => do
    let id ← optional readText entries "id"
    let accountId ← required readText entries "accountId"
    let categoryId ← optional readNullable entries "categoryId"
    let direction ← required readDirection entries "direction"
    let amount ← required readMoney entries "amount"
    some { id, accountId, categoryId, direction, amount }
  | _ => none

/-- `categoryPreconditionsSchema`. -/
structure CategoryPreconditions where
  transactionId : Option String
  accountId : Option String
  currentCategoryId : Option (Option String)
  amount : Option Money
  actualVersion : Option String
  snapshotSchemaVersion : Option String
  reviewId : Option String
  reviewProvenance : Option Unit
  transaction : Option ExpectedTransaction
  nativePlan : Option Json

def readPreconditions : Json → Option CategoryPreconditions
  | .object entries => do
    let transactionId ← optional asStr entries "transactionId"
    let accountId ← optional asStr entries "accountId"
    let currentCategoryId ← optional readNullable entries "currentCategoryId"
    let amount ← optional readMoney entries "amount"
    let actualVersion ← optional asStr entries "actualVersion"
    let snapshotSchemaVersion ← optional asStr entries "snapshotSchemaVersion"
    let reviewId ← optional readText entries "reviewId"
    let reviewProvenance ← optional readProvenance entries "reviewProvenance"
    let transaction ← optional readExpectedTransaction entries "transaction"
    some { transactionId, accountId, currentCategoryId, amount, actualVersion, snapshotSchemaVersion,
           reviewId, reviewProvenance, transaction, nativePlan := get? entries "nativePlan" }
  | _ => none

/-! ## Plans -/

structure Postcondition where
  type : String
  categoryId : String
  deriving DecidableEq

structure MutationPlan where
  planId : String
  transactionId : String
  currentCategoryId : Option String
  proposedCategoryId : String
  hash : String
  postconditions : List Postcondition
  deriving DecidableEq

def MutationPlan.entries (p : MutationPlan) : Entries :=
  [("planId", .string p.planId), ("transactionId", .string p.transactionId),
    ("currentCategoryId", Json.option .string p.currentCategoryId),
    ("proposedCategoryId", .string p.proposedCategoryId), ("hash", .string p.hash),
    ("postconditions", Json.list (fun c => .object [("type", .string c.type),
      ("categoryId", .string c.categoryId)]) p.postconditions)]

def MutationPlan.json (p : MutationPlan) : Json := .object p.entries

/-- The `currentCategoryId` of an approved plan: `none` where it is `null`. -/
def approvedCategory : Json → Option (Option String)
  | .object entries => required readNullable entries "currentCategoryId"
  | _ => none

/-! ## Snapshots -/

/-- What is read of a `Transaction`. -/
inductive Transaction
  | mk (id accountId : String) (categoryId : Option String) (amount : Money)
    (subtransactions : List Transaction)

namespace Transaction

def id : Transaction → String
  | mk id _ _ _ _ => id

def accountId : Transaction → String
  | mk _ accountId _ _ _ => accountId

def categoryId : Transaction → Option String
  | mk _ _ categoryId _ _ => categoryId

def amount : Transaction → Money
  | mk _ _ _ amount _ => amount

end Transaction

structure Category where
  id : String
  deleted : Bool
  deriving DecidableEq

/-- What is read of a `ProtocolSnapshot`. -/
structure ProtocolSnapshot where
  schemaVersion : String
  actualVersion : String
  snapshotDate : Option Int
  transactions : List Transaction
  categories : List Category

mutual

/-- `collect` of one transaction. -/
def collect (met : List Transaction) : Transaction → Option (List Transaction)
  | .mk id accountId categoryId amount subtransactions =>
    if id == "" || met.any (·.id == id) then none
    else collectAll (met ++ [.mk id accountId categoryId amount subtransactions]) subtransactions

def collectAll (met : List Transaction) : List Transaction → Option (List Transaction)
  | [] => some met
  | t :: rest => (collect met t).bind fun met' => collectAll met' rest

end

/-- `indexCanonicalTransactions`: `none` where it throws. -/
def indexCanonicalTransactions (rows : List Transaction) : Option (List Transaction) :=
  collectAll [] rows

/-! ## The check -/

/-- What `set_category` proposes, with what is read of its envelope. -/
structure Composite where
  operations : List (String × String × String)
  reallocations : Nat
  transferRecommendations : Nat
  ledgerProjections : Nat
  nativePayloadHash : Option String
  deriving DecidableEq

structure SetCategoryPayload where
  transactionId : String
  categoryId : String
  composite : Option Composite
  deriving DecidableEq

structure ActionProposal where
  operation : String
  budgetId : String
  payload : SetCategoryPayload
  payloadHash : String
  preconditions : Option Json
  policyVersion : String
  governancePolicyVersion : Option String
  supersededAt : Option String
  expiresAt : Option Int
  providerModel : Option String

/-- A field that is absent, or as given. -/
def absentOr (expected : Option String) (actual : String) : Bool :=
  match expected with
  | none => true
  | some text => text == actual

/-- `checkPreconditions`: the reason, where they are not met. -/
def checkPreconditions (proposal : ActionProposal) (plan : MutationPlan) (transaction : Transaction)
    (snapshot : ProtocolSnapshot) : Except String Unit :=
  match proposal.preconditions.bind readPreconditions with
  | none => .error "Invalid preconditions JSON in proposal"
  | some expected => do
    reject (!(expected.nativePlan.any fun approved => sameCanonical approved plan.json) ||
      proposal.payload.composite.bind Composite.nativePayloadHash != some plan.hash)
      "Approved native plan no longer matches the current algorithm"
    let currentAmount : Int := transaction.amount.minorUnits
    let direction : Direction := if currentAmount < 0 then .outgoing else .incoming
    let expectedCategory := (expected.transaction.bind ExpectedTransaction.categoryId).getD
      (expected.currentCategoryId.getD none)
    let amountMatches := expected.amount.all fun amount =>
      amount.currency == transaction.amount.currency &&
        (amount.minorUnits : Int) == transaction.amount.minorUnits
    let transactionMatches := expected.transaction.all fun facts =>
      absentOr facts.id transaction.id && facts.accountId == transaction.accountId &&
        facts.direction == direction && facts.amount.currency == transaction.amount.currency &&
          (facts.amount.minorUnits : Int) == |currentAmount|
    reject (expectedCategory != plan.currentCategoryId ||
      transaction.categoryId != plan.currentCategoryId ||
      !absentOr expected.transactionId transaction.id ||
      !absentOr expected.accountId transaction.accountId ||
      expected.actualVersion != some snapshot.actualVersion ||
      expected.snapshotSchemaVersion != some snapshot.schemaVersion ||
      !amountMatches || !transactionMatches)
      "Approved transaction facts no longer match the current ledger"

/-! ## What the check gives -/

mutual

theorem eq_of_sameJson : ∀ {a b : Json}, sameJson a b = true → a = b
  | .null, b, h => by
    cases b <;> first | rfl | cases h
  | .bool a, b, h => by
    cases b with
    | bool b => rw [beq_iff_eq.mp h]
    | _ => cases h
  | .number a, b, h => by
    cases b with
    | number b => rw [beq_iff_eq.mp h]
    | _ => cases h
  | .string a, b, h => by
    cases b with
    | string b => rw [beq_iff_eq.mp h]
    | _ => cases h
  | .array a, b, h => by
    cases b with
    | array b =>
      have hvalues : sameValues a b = true := h
      rw [eq_of_sameValues hvalues]
    | _ => cases h
  | .object a, b, h => by
    cases b with
    | object b =>
      have hentries : sameEntries a b = true := h
      rw [eq_of_sameEntries hentries]
    | _ => cases h

theorem eq_of_sameValues : ∀ {a b : List Json}, sameValues a b = true → a = b
  | [], [], _ => rfl
  | [], _ :: _, h => by cases h
  | _ :: _, [], h => by cases h
  | a :: l, b :: m, h => by
    rw [sameValues, Bool.and_eq_true] at h
    rw [eq_of_sameJson h.1, eq_of_sameValues h.2]

theorem eq_of_sameEntries : ∀ {a b : Entries}, sameEntries a b = true → a = b
  | [], [], _ => rfl
  | [], _ :: _, h => by cases h
  | _ :: _, [], h => by cases h
  | (key, a) :: l, (key', b) :: m, h => by
    rw [sameEntries, Bool.and_eq_true, Bool.and_eq_true, beq_iff_eq] at h
    rw [h.1.1, eq_of_sameJson h.1.2, eq_of_sameEntries h.2]

end

theorem normalizedEntries_eq_map (entries : Entries) :
    normalizedEntries entries = entries.map fun e => (e.1, normalizedJson e.2) := by
  induction entries with
  | nil => rfl
  | cons e entries ih => rw [normalizedEntries, ih, List.map_cons]

theorem get?_eq_some_iff {entries : Entries} (hkeys : (entries.map Prod.fst).Nodup) {key : String}
    {value : Json} : get? entries key = some value ↔ (key, value) ∈ entries := by
  induction entries with
  | nil => simp [get?]
  | cons e entries ih =>
    obtain ⟨k, v⟩ := e
    rw [List.map_cons, List.nodup_cons] at hkeys
    have ih := ih hkeys.2
    unfold get? at ih ⊢
    rw [List.find?_cons]
    by_cases hk : k = key
    · subst hk
      have hnot : (k, value) ∉ entries := fun h => hkeys.1 (List.mem_map.mpr ⟨_, h, rfl⟩)
      simp [hnot, eq_comm]
    · have hk' : (k == key) = false := beq_false_of_ne hk
      simp only [hk', ih, List.mem_cons, Prod.mk.injEq, Ne.symm hk, false_and, false_or]

theorem normalizedJson_field {a b : Entries} (hb : (b.map Prod.fst).Nodup)
    (h : normalizedJson (.object a) = normalizedJson (.object b)) (key : String) :
    (get? a key).map normalizedJson = (get? b key).map normalizedJson := by
  rw [normalizedJson, normalizedJson, Json.object.injEq] at h
  have hperm : (a.map fun e => (e.1, normalizedJson e.2)).Perm
      (b.map fun e => (e.1, normalizedJson e.2)) := by
    rw [← normalizedEntries_eq_map, ← normalizedEntries_eq_map]
    exact (perm_sortOn _ _).symm.trans ((List.Perm.of_eq h).trans (perm_sortOn _ _))
  have hkeys : ∀ l : Entries, (l.map fun e => (e.1, normalizedJson e.2)).map Prod.fst =
      l.map Prod.fst := fun l => by rw [List.map_map]; rfl
  have ha : (a.map Prod.fst).Nodup := by
    rw [← hkeys a, (hperm.map Prod.fst).nodup_iff, hkeys b]
    exact hb
  have hget : ∀ l : Entries, get? (l.map fun e => (e.1, normalizedJson e.2)) key =
      (get? l key).map normalizedJson := fun l => by
    rw [get?, get?, List.find?_map, map_map, map_map]
    rfl
  rw [← hget a, ← hget b]
  refine Option.ext fun value => ?_
  rw [get?_eq_some_iff (by rw [hkeys]; exact ha), get?_eq_some_iff (by rw [hkeys]; exact hb)]
  exact hperm.mem_iff

theorem readNullable_normalized {value : Json} {c : Option String}
    (h : normalizedJson value = normalizedJson (Json.option .string c)) :
    readNullable value = some c := by
  cases c with
  | none =>
    cases value with
    | null => rfl
    | _ => cases h
  | some text =>
    cases value with
    | string text' =>
      cases h
      rfl
    | _ => cases h

theorem approvedCategory_of_same {approved : Json} {plan : MutationPlan}
    (h : sameCanonical approved plan.json = true) :
    approvedCategory approved = some plan.currentCategoryId := by
  have heq := eq_of_sameJson h
  cases approved with
  | object entries =>
    have hkeys : (plan.entries.map Prod.fst).Nodup := by
      simp [MutationPlan.entries]
    have hfield := normalizedJson_field hkeys heq "currentCategoryId"
    have hplan : get? plan.entries "currentCategoryId" =
        some (Json.option .string plan.currentCategoryId) := rfl
    rw [hplan] at hfield
    obtain ⟨value, hvalue, hnormal⟩ := map_eq_some_iff.mp hfield
    rw [approvedCategory, required, hvalue, bind_some]
    exact readNullable_normalized hnormal
  | _ => cases heq

theorem checkPreconditions_ok {proposal : ActionProposal} {plan : MutationPlan}
    {transaction : Transaction} {snapshot : ProtocolSnapshot}
    (h : checkPreconditions proposal plan transaction snapshot = .ok ()) :
    ∃ expected approved, proposal.preconditions.bind readPreconditions = some expected ∧
      expected.nativePlan = some approved ∧
      approvedCategory approved = some plan.currentCategoryId ∧
      transaction.categoryId = plan.currentCategoryId := by
  unfold checkPreconditions at h
  split at h
  · cases h
  · rename_i expected hexpected
    obtain ⟨u, hplan, h⟩ := bind_ok.mp h
    rw [reject_ok, Bool.or_eq_false_iff, Bool.not_eq_false', any_eq_true] at hplan
    obtain ⟨⟨approved, happroved, hsame⟩, -⟩ := hplan
    simp only [reject_ok, Bool.or_eq_false_iff, bne_eq_false_iff_eq] at h
    exact ⟨expected, approved, hexpected, happroved, approvedCategory_of_same hsame,
      h.1.1.1.1.1.1.2⟩

end BalanceFrame.Mutation
