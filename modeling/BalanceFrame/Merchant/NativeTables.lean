import BalanceFrame.Library.Checked
import BalanceFrame.Library.Sorting
import BalanceFrame.Merchant.RuleOrder

/-!
# Native rule tables

Model of `validateNativeRuleTables` with `nativeRuleSetHasWitness`
(`packages/protocol-generated/src/merchant-validators.ts`) and of `validate_native_tables` with
`native_set_has_witness` (`crates/financial-core/src/merchant_intelligence.rs`). An index is a
`u32`, which is what the schema `unsigned` admits; an identity is a text of Unicode scalar values,
which is what its pattern admits. A source that is stepped through is kept as what is left of it.
-/

namespace BalanceFrame.Merchant

open Library

/-! ## Tables -/

abbrev U32 := Fin 4294967296

/-- `MerchantNativeRuleSet`: a union of parts, the operands of an intersection, and the part of a
category. -/
structure NativeRuleSet where
  orPartIndexes : List U32
  andPartIndexes : List (List U32)
  categoryPartIndex : U32
  deriving DecidableEq

/-- Blocks of rule identities, parts of block indexes, and sets. -/
structure NativeRuleTables where
  nativeRuleBlocks : List (List String)
  nativeRuleParts : List (List U32)
  nativeRuleSets : List NativeRuleSet
  deriving DecidableEq

/-- The blocks of a part. -/
def partAt (parts : List (List U32)) (index : U32) : List U32 := parts.getD index.val []

/-- Some part of an operand has the block. -/
def inOperand (parts : List (List U32)) (operand : List U32) (block : U32) : Bool :=
  operand.any fun reference => (partAt parts reference).contains block

/-- The blocks that a set stands for: of its category, those in the union or in every operand. -/
def NativeRuleSet.decoded (parts : List (List U32)) (s : NativeRuleSet) : List U32 :=
  (partAt parts s.categoryPartIndex).filter fun block =>
    inOperand parts s.orPartIndexes block ||
      (s.andPartIndexes.length == 4 && s.andPartIndexes.all fun o => inOperand parts o block)

/-- A check of every member with the one before it. -/
def adjacent {α : Type} (before : α → α → Bool) : List α → Bool
  | a :: b :: l => before a b && adjacent before (b :: l)
  | _ => true

/-! ## Candidates -/

/-- A source of candidates: what is left of its two lists. -/
structure WitnessDomain where
  first : List U32
  second : List U32
  other : List U32
  kind : Nat
  cost : Nat

/-- The next candidate; one that both lists have is one candidate. -/
def WitnessDomain.next (d : WitnessDomain) : Option (U32 × WitnessDomain) :=
  let step (index : U32) : U32 × WitnessDomain :=
    (index, { d with
      first := if d.first.head? == some index then d.first.tail else d.first
      second := if d.second.head? == some index then d.second.tail else d.second })
  match d.first.head?, d.second.head? with
  | none, none => none
  | some first, none => some (step first)
  | none, some second => some (step second)
  | some first, some second => some (step (min first second))

/-- A round: every domain gives its next candidate, until one matches. What is found, whether a
domain had a candidate, and what is left. -/
def searchRound (isMatch : WitnessDomain → U32 → Bool) :
    List WitnessDomain → Bool × Bool × List WitnessDomain
  | [] => (false, false, [])
  | d :: rest =>
    match d.next with
    | none =>
      let r := searchRound isMatch rest
      (r.1, r.2.1, d :: r.2.2)
    | some (index, d') =>
      if isMatch d' index then (true, true, d' :: rest)
      else
        let r := searchRound isMatch rest
        (r.1, true, d' :: r.2.2)

/-- The rounds; `fuel` is more than the candidates left. -/
def searchRounds (isMatch : WitnessDomain → U32 → Bool) : Nat → List WitnessDomain → Bool
  | 0, _ => false
  | fuel + 1, domains =>
    let r := searchRound isMatch domains
    if r.1 then true
    else if r.2.1 then searchRounds isMatch fuel r.2.2
    else false

/-- The candidates left. -/
def candidatesLeft (domains : List WitnessDomain) : Nat :=
  (domains.map fun d => d.first.length + d.second.length).sum

/-- The loop of both searches, over the domains in the order of cost and kind. -/
def searchDomains (isMatch : WitnessDomain → U32 → Bool) (domains : List WitnessDomain) : Bool :=
  searchRounds isMatch (candidatesLeft domains + 1)
    (sortOn (fun d => toLex (d.cost, d.kind)) domains)

/-- The domain of a part of the union: the shorter of operand and category, to be found in the
other. -/
def orDomain (parts : List (List U32)) (category : List U32) (kind : Nat) (reference : U32) :
    WitnessDomain :=
  let operand := partAt parts reference
  if operand.length < category.length then
    { first := operand, second := [], other := category, kind := kind, cost := operand.length }
  else
    { first := category, second := [], other := operand, kind := kind, cost := category.length }

/-- The domains of the union, of the kinds 0 to 3. -/
def orDomains (parts : List (List U32)) (s : NativeRuleSet) : List WitnessDomain :=
  s.orPartIndexes.mapIdx (orDomain parts (partAt parts s.categoryPartIndex))

/-- The blocks of an operand's parts, counted. -/
def operandSize (parts : List (List U32)) (operand : List U32) : Nat :=
  (operand.map fun reference => (partAt parts reference).length).sum

/-- Both parts of an operand, as sources. -/
def operandDomain (parts : List (List U32)) (operand : List U32) (cost : Nat) : WitnessDomain where
  first := (operand[0]?.map (partAt parts)).getD []
  second := (operand[1]?.map (partAt parts)).getD []
  other := []
  kind := 4
  cost := cost

/-- The category as the source of the intersection. -/
def categoryDomain (category : List U32) : WitnessDomain where
  first := category
  second := []
  other := []
  kind := 4
  cost := category.length

/-! ## In TypeScript -/

/-- The loop of `containsIndex`. -/
def containsFrom (values : List U32) (index : U32) : Nat → Nat → Nat → Nat
  | 0, start, _ => start
  | fuel + 1, start, stop =>
    if start < stop then
      let middle := start + (stop - start) / 2
      if values.getD middle 0 < index then containsFrom values index fuel (middle + 1) stop
      else containsFrom values index fuel start middle
    else start

def containsIndex (values : List U32) (index : U32) : Bool :=
  values[containsFrom values index values.length 0 values.length]? == some index

/-- The operand with the fewest blocks, where it has fewer than the category. -/
def shortestOperand (parts : List (List U32)) (category : List U32) (operands : List (List U32)) :
    Option (List U32) × Nat :=
  operands.foldl (fun best operand =>
    if operandSize parts operand < best.2 then (some operand, operandSize parts operand) else best)
    (none, category.length)

/-- The domain of the intersection. -/
def andDomain (parts : List (List U32)) (category : List U32) (operands : List (List U32)) :
    WitnessDomain :=
  match shortestOperand parts category operands with
  | (none, _) => categoryDomain category
  | (some operand, cost) => operandDomain parts operand cost

def nativeRuleSetHasWitness (s : NativeRuleSet) (parts : List (List U32)) : Bool :=
  let category := partAt parts s.categoryPartIndex
  let isMatch (d : WitnessDomain) (index : U32) : Bool :=
    if d.kind < 4 then containsIndex d.other index
    else containsIndex category index && s.andPartIndexes.all fun operand =>
      operand.any fun reference => containsIndex (partAt parts reference) index
  let intersection := s.andPartIndexes.length != 0 && s.andPartIndexes.all fun o => o.length != 0
  searchDomains isMatch (orDomains parts s ++
    if intersection then [andDomain parts category s.andPartIndexes] else [])

def nativeRuleBlockSchema (ruleIds : List String) : Bool :=
  ruleIds.all (· != "") && decide (1 ≤ ruleIds.length) && adjacent nativeIdBefore ruleIds

def partReferences (indexes : List U32) : Bool := adjacent (fun a b => decide (a < b)) indexes

def nativeRulePartSchema (blockIndexes : List U32) : Bool :=
  partReferences blockIndexes && decide (0 < blockIndexes.length)

def nativeRuleSetSchema (s : NativeRuleSet) : Bool :=
  partReferences s.orPartIndexes && decide (s.orPartIndexes.length ≤ 4) &&
    s.andPartIndexes.all (fun o => partReferences o && decide (o.length ≤ 2)) &&
      (s.andPartIndexes.length == 0 || s.andPartIndexes.length == 4)

/-- One identity: those met, and the issues. -/
def noteId (met : List String × List String) (id : String) : List String × List String :=
  (id :: met.1, if met.1.contains id then met.2 ++ ["Native blocks must have disjoint IDs"] else met.2)

/-- The issues of a part. -/
def checkPart (blocks : Nat) (part : List U32) : List String :=
  if part.length == 0 || decide (blocks < part.length) || part.any (fun i => decide (blocks ≤ i.val)) ||
      !adjacent (fun a b => decide (a < b)) part then ["Native part references a missing block"]
  else []

/-- The issues of a set. -/
def checkSet (valid : Bool) (parts : List (List U32)) (s : NativeRuleSet) : List String :=
  let present (index : U32) : Bool := decide (index.val < parts.length)
  if decide (4 < s.orPartIndexes.length) ||
      (s.andPartIndexes.length != 0 && s.andPartIndexes.length != 4) ||
      s.andPartIndexes.any (fun o => decide (2 < o.length)) then
    ["Native expression has noncanonical operands"]
  else if !present s.categoryPartIndex || !s.orPartIndexes.all present ||
      !s.andPartIndexes.all (·.all present) then ["Native expression references a missing part"]
  else if valid && !nativeRuleSetHasWitness s parts then ["Native classified expression is empty"]
  else []

/-- `checkNativeRuleTables`: the issues. -/
def checkNativeRuleTables (t : NativeRuleTables) (used : List U32) : List String :=
  let sets := t.nativeRuleSets.length
  let partIssues := t.nativeRuleParts.flatMap (checkPart t.nativeRuleBlocks.length)
  let usedSets := (used.filter fun i => decide (i.val < sets)).dedup
  (t.nativeRuleBlocks.flatten.foldl noteId ([], [])).2 ++
    (if 13 * sets < t.nativeRuleParts.length then ["Native parts exceed referenced expression edges"]
      else []) ++ partIssues ++
    used.flatMap (fun i => if sets ≤ i.val then ["Native outcome references a missing set"] else []) ++
    (if usedSets.length != sets then ["Native sets must be used by outcomes"] else []) ++
    t.nativeRuleSets.flatMap (checkSet partIssues.isEmpty t.nativeRuleParts)

/-- A set with its operands dropped where one of them is empty. -/
def canonicalNativeRuleSet (s : NativeRuleSet) : NativeRuleSet :=
  if s.andPartIndexes.any (fun o => o.length == 0) then { s with andPartIndexes := [] } else s

def canonicalNativeRuleTables (t : NativeRuleTables) : NativeRuleTables :=
  { t with nativeRuleSets := t.nativeRuleSets.map canonicalNativeRuleSet }

def validateNativeRuleTables (t : NativeRuleTables) (used : List U32) : Option NativeRuleTables :=
  if t.nativeRuleBlocks.all nativeRuleBlockSchema && t.nativeRuleParts.all nativeRulePartSchema &&
      t.nativeRuleSets.all nativeRuleSetSchema && (checkNativeRuleTables t used).isEmpty then
    some (canonicalNativeRuleTables t)
  else none

/-! ## In Rust -/

/-- `binary_search(..).is_ok()`, of a sorted slice. -/
def binarySearch (values : List U32) (index : U32) : Bool := values.contains index

/-- `min_by_key`: the first of the operands with the fewest blocks. -/
def minOperand (parts : List (List U32)) : List (List U32) → Option (List U32 × Nat)
  | [] => none
  | operand :: rest => some (rest.foldl (fun best o =>
      if operandSize parts o < best.2 then (o, operandSize parts o) else best)
      (operand, operandSize parts operand))

/-- A slot without candidates. -/
def emptyDomain : WitnessDomain where
  first := []
  second := []
  other := []
  kind := 18446744073709551615
  cost := 18446744073709551615

/-- The fifth slot. -/
def andSlot (parts : List (List U32)) (category : List U32) (operands : List (List U32)) :
    WitnessDomain :=
  if !operands.isEmpty && operands.all (!·.isEmpty) then
    match minOperand parts operands with
    | none => emptyDomain
    | some (operand, size) =>
      if category.length ≤ size then categoryDomain category else operandDomain parts operand size
  else emptyDomain

def nativeSetHasWitness (s : NativeRuleSet) (parts : List (List U32)) : Bool :=
  let category := partAt parts s.categoryPartIndex
  let isMatch (d : WitnessDomain) (index : U32) : Bool :=
    if d.kind < 4 then binarySearch d.other index
    else binarySearch category index && s.andPartIndexes.all fun operand =>
      operand.any fun reference => binarySearch (partAt parts reference) index
  searchDomains isMatch (orDomains parts s ++
    List.replicate (4 - s.orPartIndexes.length) emptyDomain ++
      [andSlot parts category s.andPartIndexes])

/-- `MerchantNativeRuleBlock::validate`. -/
def validateBlock (ruleIds : List String) : Except String Unit :=
  reject (ruleIds.isEmpty || ruleIds.any (· == "") || !adjacent utf8Before ruleIds) "native_rule_block"

/-- `MerchantNativeRulePart::validate`. -/
def validatePart (blockIndexes : List U32) : Except String Unit :=
  reject (blockIndexes.isEmpty || !adjacent (fun a b => decide (a < b)) blockIndexes)
    "native_rule_part"

/-- `MerchantNativeRuleSet::validate`. -/
def validateSet (s : NativeRuleSet) : Except String Unit :=
  reject (!(decide (s.orPartIndexes.length ≤ 4) &&
    adjacent (fun a b => decide (a < b)) s.orPartIndexes &&
    (s.andPartIndexes.isEmpty || s.andPartIndexes.length == 4) &&
    s.andPartIndexes.all fun o => decide (o.length ≤ 2) && adjacent (fun a b => decide (a < b)) o))
    "native_rule_set"

def insertId (ids : List String) (id : String) : Except String (List String) := do
  reject (ids.contains id) "native_block_duplicate_id"
  pure (id :: ids)

/-- One block. -/
def validateBlockIds (ids : List String) (block : List String) : Except String (List String) := do
  validateBlock block
  block.foldlM insertId ids

/-- One used index. -/
def markUsed (referenced : List Bool) (index : U32) : Except String (List Bool) := do
  reject (decide (referenced.length ≤ index.val)) "native_rule_set_index"
  pure (referenced.set index.val true)

/-- `validate_native_tables`; the product cannot overflow, a vector being as long as it is. -/
def validateNativeTables (t : NativeRuleTables) (used : List U32) : Except String Unit := do
  reject (decide (t.nativeRuleSets.length * 13 < t.nativeRuleParts.length)) "native_part_bound"
  let _ ← t.nativeRuleBlocks.foldlM validateBlockIds []
  t.nativeRuleParts.forM fun part => do
    validatePart part
    reject (decide (t.nativeRuleBlocks.length < part.length) ||
      part.any fun i => decide (t.nativeRuleBlocks.length ≤ i.val)) "native_part_block_index"
  let referenced ← used.foldlM markUsed (List.replicate t.nativeRuleSets.length false)
  reject (!referenced.all id) "native_unused_set"
  t.nativeRuleSets.forM fun s => do
    validateSet s
    reject (!(decide (s.categoryPartIndex.val < t.nativeRuleParts.length) &&
      (s.orPartIndexes ++ s.andPartIndexes.flatten).all
        fun i => decide (i.val < t.nativeRuleParts.length))) "native_set_part_index"
    reject (!nativeSetHasWitness s t.nativeRuleParts) "native_empty_classified_expression"

def writeAndPartIndexes (s : NativeRuleSet) : NativeRuleSet :=
  if s.andPartIndexes.any List.isEmpty then { s with andPartIndexes := [] } else s

end BalanceFrame.Merchant
