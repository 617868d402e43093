import BalanceFrame.Governance.Spaces

/-!
# Delegated restrictions

Model of `parseRestrictions` and `delegatedRestrictions`
(`packages/workflow-store/src/governance.ts`). A delegated right is stored under the issuer's
restrictions overridden by the requested ones; the containment test compares the two, and
`restrictionsAllow` enforces what is stored.
-/

namespace BalanceFrame.Governance

open Library List Bool
open Liquidity (Json)
open Liquidity.Json (get? asStr)

variable {gross : List (String × Nat)} {currency : String} {limits : List GrossLimit}

/-! ## Parsing -/

/-- `allowed`. -/
def restrictionKeys : List String :=
  ["aggregateOnly", "accountIds", "categoryIds", "operations", "proposalOnly", "maxGrossOutgoing",
    "maxOperationCount"]

/-- A flag that is absent or a boolean. -/
def parseFlag : Option Json → Except String (Option Bool)
  | none => .ok none
  | some (.bool b) => .ok (some b)
  | some _ => .error "Invalid grant restriction"

/-- A text of an id list. -/
def parseText : Json → Except String String
  | .string s => if isBlank s then .error "Invalid grant restriction" else .ok s
  | _ => .error "Invalid grant restriction"

/-- A list that is absent or holds nonblank texts. -/
def parseTexts : Option Json → Except String (Option (List String))
  | none => .ok none
  | some (.array values) => some <$> values.mapM parseText
  | some _ => .error "Invalid grant restriction"

/-- `safeMinor`, with its errors. -/
def checkMinor : Option Json → Except String Nat
  | some (.string s) => do
    let amount ← orStop (decimal s) "Invalid money amount"
    reject (maxI64 < amount) "Money amount exceeds i64"
    .ok amount
  | _ => .error "Invalid money amount"

/-- An element of `maxGrossOutgoing`. -/
def parseLimit : Json → Except String GrossLimit
  | .object entries =>
    match get? entries "currency" with
    | some (.string currency) => do
      reject (!isCurrencyText currency) "Invalid gross outgoing limit"
      let minorUnits ← checkMinor (get? entries "minorUnits")
      .ok { currency, minorUnits }
    | _ => .error "Invalid gross outgoing limit"
  | _ => .error "Invalid gross outgoing limit"

/-- `maxGrossOutgoing`, absent or a list of limits. -/
def parseLimits : Option Json → Except String (Option (List GrossLimit))
  | none => .ok none
  | some (.array values) => some <$> values.mapM parseLimit
  | some _ => .error "Invalid gross outgoing limit"

/-- `safeCount(value, 0)` where the count is present. -/
def parseCount : Option Json → Except String (Option Nat)
  | none => .ok none
  | some (.number n) =>
    if 0 ≤ n ∧ n ≤ maxSafeInteger then .ok (some n.toNat) else .error "Invalid governance count"
  | some _ => .error "Invalid governance count"

def parseRestrictions : Json → Except String ResourceGrantRestrictions
  | .object entries => do
    reject (entries.any fun entry => !restrictionKeys.contains entry.1) "Unknown grant restriction"
    let aggregateOnly ← parseFlag (get? entries "aggregateOnly")
    let proposalOnly ← parseFlag (get? entries "proposalOnly")
    let accountIds ← parseTexts (get? entries "accountIds")
    let categoryIds ← parseTexts (get? entries "categoryIds")
    let operations ← parseTexts (get? entries "operations")
    let maxGrossOutgoing ← parseLimits (get? entries "maxGrossOutgoing")
    let maxOperationCount ← parseCount (get? entries "maxOperationCount")
    .ok { aggregateOnly, accountIds, categoryIds, operations, proposalOnly, maxGrossOutgoing,
          maxOperationCount }
  | _ => .error "Invalid grant restrictions"

/-! ## Containment -/

def listWithin (values bounds : Option (List String)) : Bool :=
  values.all fun values => bounds.all fun bounds => values.all bounds.contains

/-- `grossWithin`: each requested limit against the issuer's first for its currency. -/
def grossWithin (requested issuer : Option (List GrossLimit)) : Bool :=
  requested.all fun limits => issuer.all fun bounds => limits.all fun limit =>
    (bounds.find? (·.currency == limit.currency)).any fun bound =>
      limit.minorUnits ≤ bound.minorUnits

/-- `{ ...issuer, ...requested }`. -/
def overrideWith (issuer requested : ResourceGrantRestrictions) : ResourceGrantRestrictions where
  aggregateOnly := requested.aggregateOnly.or issuer.aggregateOnly
  accountIds := requested.accountIds.or issuer.accountIds
  categoryIds := requested.categoryIds.or issuer.categoryIds
  operations := requested.operations.or issuer.operations
  proposalOnly := requested.proposalOnly.or issuer.proposalOnly
  maxGrossOutgoing := requested.maxGrossOutgoing.or issuer.maxGrossOutgoing
  maxOperationCount := requested.maxOperationCount.or issuer.maxOperationCount

/-- `requestedValue === undefined ? {} : parseRestrictions(requestedValue)`. -/
def parseRequested : Option Json → Except String ResourceGrantRestrictions
  | none => .ok {}
  | some value => parseRestrictions value

/-- The containment test of `delegatedRestrictions`. -/
def exceeds (requested issuer : ResourceGrantRestrictions) : Bool :=
  (issuer.aggregateOnly = some true && requested.aggregateOnly = some false) ||
  (issuer.proposalOnly = some true && requested.proposalOnly = some false) ||
  !listWithin requested.accountIds issuer.accountIds ||
  !listWithin requested.categoryIds issuer.categoryIds ||
  !listWithin requested.operations issuer.operations ||
  !grossWithin requested.maxGrossOutgoing issuer.maxGrossOutgoing ||
  requested.maxOperationCount.any fun count => issuer.maxOperationCount.any fun bound =>
    bound < count

def delegatedRestrictions (requestedValue : Option Json) (issuerValue : Json) :
    Except String ResourceGrantRestrictions := do
  let requested ← parseRequested requestedValue
  let issuer ← parseRestrictions issuerValue
  reject (exceeds requested issuer) "Delegation restrictions exceed issuer grant"
  .ok (overrideWith issuer requested)

theorem delegatedRestrictions_ok {requestedValue : Option Json} {issuerValue : Json}
    {r : ResourceGrantRestrictions} :
    delegatedRestrictions requestedValue issuerValue = .ok r ↔
      ∃ requested issuer, parseRequested requestedValue = .ok requested ∧
        parseRestrictions issuerValue = .ok issuer ∧ exceeds requested issuer = false ∧
          r = overrideWith issuer requested := by
  simp only [delegatedRestrictions, bind_ok, reject_ok, Except.ok.injEq]
  constructor
  · rintro ⟨requested, hreq, issuer, hiss, -, hwithin, rfl⟩
    exact ⟨requested, issuer, hreq, hiss, hwithin, rfl⟩
  · rintro ⟨requested, issuer, hreq, hiss, hwithin, rfl⟩
    exact ⟨requested, hreq, issuer, hiss, (), hwithin, rfl⟩

/-- What the containment test says. -/
structure Contained (requested issuer : ResourceGrantRestrictions) : Prop where
  aggregate : issuer.aggregateOnly = some true → requested.aggregateOnly ≠ some false
  proposal : issuer.proposalOnly = some true → requested.proposalOnly ≠ some false
  accounts : listWithin requested.accountIds issuer.accountIds = true
  categories : listWithin requested.categoryIds issuer.categoryIds = true
  operations : listWithin requested.operations issuer.operations = true
  gross : grossWithin requested.maxGrossOutgoing issuer.maxGrossOutgoing = true
  count : ∀ n bound, requested.maxOperationCount = some n → issuer.maxOperationCount = some bound →
    n ≤ bound

theorem contained_of_exceeds {requested issuer : ResourceGrantRestrictions}
    (h : exceeds requested issuer = false) : Contained requested issuer := by
  simp only [exceeds, or_eq_false_iff, and_eq_false_iff, decide_eq_false_iff_not,
    not_eq_false'] at h
  obtain ⟨⟨⟨⟨⟨⟨hagg, hprop⟩, hacc⟩, hcat⟩, hops⟩, hgross⟩, hcount⟩ := h
  refine ⟨fun hi hr => ?_, fun hi hr => ?_, hacc, hcat, hops, hgross, fun n bound hn hb => ?_⟩
  · exact hagg.elim (absurd hi) (absurd hr)
  · exact hprop.elim (absurd hi) (absurd hr)
  · rw [hn, hb] at hcount
    simpa using hcount

/-! ## Enforcement -/

section Enforcement

variable {requested issuer : ResourceGrantRestrictions}

theorem flag_or {requested issuer : Option Bool} (hi : issuer = some true)
    (hr : requested ≠ some false) : requested.or issuer = some true := by
  subst hi
  cases requested with
  | none => rfl
  | some b =>
    cases b with
    | true => rfl
    | false => exact absurd rfl hr

theorem listWithin_or {values bounds : Option (List String)} (h : listWithin values bounds = true)
    {bound : List String} (hb : bounds = some bound) :
    ∃ stored, values.or bounds = some stored ∧ ∀ x, stored.contains x = true →
      bound.contains x = true := by
  subst hb
  cases values with
  | none => exact ⟨bound, rfl, fun x hx => hx⟩
  | some stored =>
    refine ⟨stored, rfl, fun x hx => ?_⟩
    simp only [listWithin, Option.all_some, all_eq_true] at h
    exact h x (contains_iff_mem.mp hx)

theorem accountsAllow_mono {allowed bound : List String}
    (h : ∀ x, allowed.contains x = true → bound.contains x = true) {input : AuthorizationInput}
    {p : PreparedPayload} {purpose : Purpose}
    (hallow : accountsAllow allowed input p purpose = true) :
    accountsAllow bound input p purpose = true := by
  simp only [accountsAllow, and_eq_true, or_eq_true, all_eq_true] at hallow ⊢
  obtain ⟨hrules, haccounts⟩ := hallow
  refine ⟨hrules.imp_right fun ⟨hscope, hids⟩ => ⟨hscope, fun id hid => ?_⟩,
    fun id hid => h id (haccounts id hid)⟩
  have := hids id hid
  cases id with
  | none => cases this
  | some account => exact h account this

/-- The part of `financialRestrictionsAllow` under `maxGrossOutgoing`. -/
def capsAllow (limits : List GrossLimit) (gross : List (String × Nat)) : Bool :=
  limits.all (fun limit => totalOf gross limit.currency ≤ limit.minorUnits) &&
    gross.all fun entry =>
      (limits.find? (·.currency == entry.1)).any fun limit => entry.2 ≤ limit.minorUnits

/-- Every cap of the issuer on a currency that the request caps too has a requested cap under it. -/
def CapsUnder (requested issuer : List GrossLimit) : Prop :=
  ∀ bound ∈ issuer, (∃ limit ∈ requested, limit.currency = bound.currency) →
    ∃ limit ∈ requested, limit.currency = bound.currency ∧ limit.minorUnits ≤ bound.minorUnits

theorem totalOf_eq_zero (h : ∀ entry ∈ gross, entry.1 ≠ currency) : totalOf gross currency = 0 := by
  unfold totalOf
  rw [find?_eq_none.mpr fun entry hentry => by simpa using h entry hentry]
  rfl

theorem capsAllow_mono {bounds : List GrossLimit}
    (hwithin : grossWithin (some limits) (some bounds) = true) (hunder : CapsUnder limits bounds)
    (h : capsAllow limits gross = true) :
    capsAllow bounds gross = true := by
  simp only [capsAllow, and_eq_true, all_eq_true, decide_eq_true_eq,
    Option.any_eq_true, grossWithin, Option.all_some] at h hwithin ⊢
  obtain ⟨hlimits, hentries⟩ := h
  constructor
  · intro bound hbound
    by_cases hcap : ∃ limit ∈ limits, limit.currency = bound.currency
    · obtain ⟨limit, hlimit, hcurrency, hle⟩ := hunder bound hbound hcap
      rw [← hcurrency]
      exact (hlimits limit hlimit).trans hle
    · -- a currency without a requested cap has no outgoing amount at all
      refine (totalOf_eq_zero fun entry hentry heq => ?_).trans_le (Nat.zero_le _)
      obtain ⟨limit, hfind, -⟩ := hentries entry hentry
      have hcurrency : limit.currency = entry.1 := by simpa using find?_some hfind
      exact hcap ⟨limit, mem_of_find?_eq_some hfind, hcurrency.trans heq⟩
  · intro entry hentry
    obtain ⟨limit, hfind, hle⟩ := hentries entry hentry
    obtain ⟨bound, hbound, hlimit⟩ := hwithin limit (mem_of_find?_eq_some hfind)
    have hcurrency : limit.currency = entry.1 := by simpa using find?_some hfind
    rw [hcurrency] at hbound
    exact ⟨bound, hbound, hle.trans hlimit⟩

/-- What is stored allows nothing: a read that must be a proposal. -/
def AllowsNothing (requested issuer : ResourceGrantRestrictions) : Prop :=
  (overrideWith issuer requested).aggregateOnly = some true ∧
    (overrideWith issuer requested).proposalOnly = some true

/-- The requested caps hold the issuer's. -/
def HoldsCaps (requested issuer : ResourceGrantRestrictions) : Prop :=
  ∀ limits bounds, requested.maxGrossOutgoing = some limits →
    issuer.maxGrossOutgoing = some bounds → CapsUnder limits bounds

theorem not_allowed_of_allowsNothing (h : AllowsNothing requested issuer)
    (input : AuthorizationInput) (p : PreparedPayload) (visibility : Option Visibility)
    (purpose : Purpose) :
    restrictionsAllow (overrideWith issuer requested) input p visibility purpose = false := by
  obtain ⟨hagg, hprop⟩ := h
  unfold restrictionsAllow
  rw [hagg, hprop]
  cases hphase : input.phase <;> simp

theorem financial_mono (hwithin : Contained requested issuer) (hcaps : HoldsCaps requested issuer)
    {count : Nat}
    (h : financialRestrictionsAllow (overrideWith issuer requested) count gross = true) :
    financialRestrictionsAllow issuer count gross = true := by
  simp only [financialRestrictionsAllow, overrideWith, and_eq_true] at h ⊢
  refine ⟨?_, ?_⟩
  · cases hb : issuer.maxOperationCount with
    | none => rfl
    | some bound =>
      cases hn : requested.maxOperationCount with
      | none =>
        rw [hn, hb] at h
        exact h.1
      | some n =>
        have hle : count ≤ n := by
          rw [hn] at h
          simpa using h.1
        simpa using hle.trans (hwithin.count n bound hn hb)
  · cases hb : issuer.maxGrossOutgoing with
    | none => rfl
    | some bounds =>
      cases hl : requested.maxGrossOutgoing with
      | none =>
        rw [hl, hb] at h
        exact h.2
      | some limits =>
        have hgross := hwithin.gross
        rw [hl, hb] at hgross
        rw [hl] at h
        exact capsAllow_mono hgross (hcaps limits bounds hl hb) h.2

/-- **Contained restrictions narrow, where the requested caps hold the issuer's.** -/
theorem restrictionsAllow_mono (hwithin : Contained requested issuer)
    (hcaps : HoldsCaps requested issuer) {input : AuthorizationInput} {p : PreparedPayload}
    {visibility : Option Visibility} {purpose : Purpose}
    (h : restrictionsAllow (overrideWith issuer requested) input p visibility purpose = true) :
    restrictionsAllow issuer input p visibility purpose = true := by
  unfold restrictionsAllow at h ⊢
  simp only [and_eq_true] at h ⊢
  obtain ⟨⟨⟨⟨⟨⟨hagg, hprop⟩, hrule⟩, hops⟩, hacc⟩, hcat⟩, hfin⟩ := h
  refine ⟨⟨⟨⟨⟨⟨?_, ?_⟩, ?_⟩, ?_⟩, ?_⟩, ?_⟩, financial_mono hwithin hcaps hfin⟩
  · by_cases hi : issuer.aggregateOnly = some true
    · have hstored : (overrideWith issuer requested).aggregateOnly = some true :=
        flag_or hi (hwithin.aggregate hi)
      rw [hstored] at hagg
      rw [hi]
      exact hagg
    · simp [hi]
  · by_cases hi : issuer.proposalOnly = some true
    · have hstored : (overrideWith issuer requested).proposalOnly = some true :=
        flag_or hi (hwithin.proposal hi)
      rw [hstored] at hprop
      rw [hi]
      exact hprop
    · simp [hi]
  · -- a restriction that denies rule creation by its presence is still present
    have hpresent : (issuer.categoryIds.isSome || issuer.maxOperationCount.isSome ||
        issuer.maxGrossOutgoing.isSome) = true →
        ((overrideWith issuer requested).categoryIds.isSome ||
          (overrideWith issuer requested).maxOperationCount.isSome ||
          (overrideWith issuer requested).maxGrossOutgoing.isSome) = true := by
      simp only [overrideWith, Option.isSome_or, or_eq_true]
      tauto
    cases hi : (issuer.categoryIds.isSome || issuer.maxOperationCount.isSome ||
        issuer.maxGrossOutgoing.isSome) with
    | false => simp
    | true =>
      rw [hpresent hi] at hrule
      exact hrule
  · cases hb : issuer.operations with
    | none => rfl
    | some bound =>
      obtain ⟨stored, hstored, hsub⟩ := listWithin_or hwithin.operations hb
      simp only [overrideWith, hstored, Option.all_some, all_eq_true] at hops ⊢
      exact fun x hx => hsub x (hops x hx)
  · cases hb : issuer.accountIds with
    | none => rfl
    | some bound =>
      obtain ⟨stored, hstored, hsub⟩ := listWithin_or hwithin.accounts hb
      simp only [overrideWith, hstored, Option.all_some] at hacc ⊢
      exact accountsAllow_mono hsub hacc
  · cases hb : issuer.categoryIds with
    | none => rfl
    | some bound =>
      obtain ⟨stored, hstored, hsub⟩ := listWithin_or hwithin.categories hb
      simp only [overrideWith, hstored, Option.all_some, all_eq_true] at hcat ⊢
      exact fun x hx => hsub x (hcat x hx)

/-! ### Caps that are not held -/

/-- A request that meets a flag: a read where only aggregates may be read, else a proposal. -/
def meeting (aggregateOnly : Option Bool) : AuthorizationInput where
  actorId := ""
  spaceId := ""
  expectedPolicyVersion := ""
  phase := if aggregateOnly = some true then .read else .propose
  operation := ""
  required := []
  payload := .null
  now := ""

/-- A payload with one outgoing total. -/
def spending (currency : String) (amount : Nat) : PreparedPayload where
  operationCount := 0
  operationNames := []
  accountIds := []
  categoryIds := []
  ruleOperationNames := []
  ruleAccountIds := []
  invalidRuleScope := false
  gross := [(currency, amount)]

theorem totalOf_spending (currency c : String) (amount : Nat) :
    totalOf (spending currency amount).gross c = if currency = c then amount else 0 := by
  unfold totalOf spending
  by_cases h : currency = c
  · simp [h]
  · simp [h]

theorem capsAllow_spending {amount : Nat} (hcap : ∃ limit ∈ limits, limit.currency = currency)
    (hle : ∀ limit ∈ limits, limit.currency = currency → amount ≤ limit.minorUnits) :
    capsAllow limits (spending currency amount).gross = true := by
  rw [capsAllow, and_eq_true, all_eq_true]
  constructor
  · intro limit hlimit
    rw [decide_eq_true_eq, totalOf_spending]
    split
    · next heq => exact hle limit hlimit heq.symm
    · exact Nat.zero_le _
  · obtain ⟨limit, hlimit, hcurrency⟩ := hcap
    have hfound : (limits.find? (·.currency == currency)).isSome = true :=
      find?_isSome.mpr ⟨limit, hlimit, by simpa using hcurrency⟩
    obtain ⟨first, hfirst⟩ := Option.isSome_iff_exists.mp hfound
    have hcap : first.currency = currency := by simpa using find?_some hfirst
    simp only [spending, all_cons, all_nil, Bool.and_true, hfirst, Option.any_some,
      decide_eq_true_eq]
    exact hle first (mem_of_find?_eq_some hfirst) hcap

theorem allowed_spending {r : ResourceGrantRestrictions}
    (hflags : ¬(r.aggregateOnly = some true ∧ r.proposalOnly = some true))
    (hlimits : r.maxGrossOutgoing = some limits) {amount : Nat}
    (hcaps : capsAllow limits (spending currency amount).gross = true) :
    restrictionsAllow r (meeting r.aggregateOnly) (spending currency amount) (some .aggregate)
      .operation = true := by
  have hfin : financialRestrictionsAllow r 0 (spending currency amount).gross = true := by
    rw [financialRestrictionsAllow, and_eq_true, hlimits]
    exact ⟨by cases r.maxOperationCount <;> simp, hcaps⟩
  have hrest : ∀ allowed : List String,
      accountsAllow allowed (meeting r.aggregateOnly) (spending currency amount) .operation =
        true := by
    intro allowed
    simp [accountsAllow, meeting, spending, isRuleOperation]
  have hops : r.operations.all
      (fun allowed => (spending currency amount).operationNames.all allowed.contains) = true := by
    cases r.operations <;> rfl
  have hcat : r.categoryIds.all
      (fun allowed => (spending currency amount).categoryIds.all allowed.contains) = true := by
    cases r.categoryIds <;> rfl
  have hacc : r.accountIds.all (fun allowed => accountsAllow allowed (meeting r.aggregateOnly)
      (spending currency amount) .operation) = true := by
    simp only [hrest, Option.all_eq_true, implies_true]
  unfold restrictionsAllow
  rw [hops, hcat, hacc]
  have hcount : (spending currency amount).operationCount = 0 := rfl
  rw [hcount, hfin]
  by_cases hagg : r.aggregateOnly = some true
  · have hprop : r.proposalOnly ≠ some true := fun h => hflags ⟨hagg, h⟩
    simp [meeting, spending, hagg, hprop]
  · simp [meeting, spending, hagg]

end Enforcement

/-! ## Delegation -/

/-- **When a delegation narrows**: exactly when it allows nothing, or every issuer's cap on a
currency that the request caps has a requested cap on it that is no larger. -/
theorem delegated_narrows_iff {requestedValue : Option Json} {issuerValue : Json}
    {requested issuer r : ResourceGrantRestrictions}
    (hrequested : parseRequested requestedValue = .ok requested)
    (hissuer : parseRestrictions issuerValue = .ok issuer)
    (h : delegatedRestrictions requestedValue issuerValue = .ok r) :
    (∀ input p visibility purpose, restrictionsAllow r input p visibility purpose = true →
      restrictionsAllow issuer input p visibility purpose = true) ↔
      AllowsNothing requested issuer ∨ HoldsCaps requested issuer := by
  obtain ⟨requested', issuer', hrequested', hissuer', hexceeds, rfl⟩ :=
    delegatedRestrictions_ok.mp h
  rw [hrequested] at hrequested'
  cases hrequested'
  rw [hissuer] at hissuer'
  cases hissuer'
  have hwithin := contained_of_exceeds hexceeds
  constructor
  · intro hnarrow
    by_cases hnothing : AllowsNothing requested issuer
    · exact .inl hnothing
    · refine .inr fun limits bounds hl hb bound hbound hcap => ?_
      by_contra hnone
      push Not at hnone
      have hstored : (overrideWith issuer requested).maxGrossOutgoing = some limits := by
        simp [overrideWith, hl]
      have hcaps : capsAllow limits
          (spending bound.currency (bound.minorUnits + 1)).gross = true :=
        capsAllow_spending hcap fun limit hlimit hcurrency => hnone limit hlimit hcurrency
      have hdenied := hnarrow _ _ _ _ (allowed_spending hnothing hstored hcaps)
      simp only [restrictionsAllow, financialRestrictionsAllow, and_eq_true, hb,
        Option.all_some, all_eq_true, decide_eq_true_eq] at hdenied
      have hle := hdenied.2.2.1 bound hbound
      rw [totalOf_spending, if_pos rfl] at hle
      omega
  · rintro (hnothing | hcaps) input p visibility purpose hallow
    · rw [not_allowed_of_allowsNothing hnothing] at hallow
      cases hallow
    · exact restrictionsAllow_mono hwithin hcaps hallow

def capValue (currency minorUnits : String) : Json :=
  .object [("currency", .string currency), ("minorUnits", .string minorUnits)]

def capsValue (caps : List Json) : Json := .object [("maxGrossOutgoing", .array caps)]

theorem delegated_narrows_one_cap :
    delegatedRestrictions (some (capsValue [capValue "USD" "80"]))
        (capsValue [capValue "USD" "100"]) = .ok { maxGrossOutgoing := some [⟨"USD", 80⟩] } ∧
      ∀ input p visibility purpose,
        restrictionsAllow { maxGrossOutgoing := some [⟨"USD", 80⟩] } input p visibility purpose =
            true →
          restrictionsAllow { maxGrossOutgoing := some [⟨"USD", 100⟩] } input p visibility
            purpose = true :=
  ⟨rfl, (@delegated_narrows_iff (some (capsValue [capValue "USD" "80"]))
    (capsValue [capValue "USD" "100"]) _ _ _ rfl rfl rfl).mpr
    (.inr fun _ _ hl hb => by
      cases hl
      cases hb
      intro bound hbound hcap
      rw [mem_singleton.mp hbound]
      exact ⟨_, mem_singleton.mpr rfl, rfl, by decide⟩)⟩

def transferInput : AuthorizationInput where
  actorId := "ada"
  spaceId := "home"
  expectedPolicyVersion := "1"
  phase := .propose
  operation := "transfer"
  required := []
  payload := .object [("operations", .array [.object [("operation", .string "transfer"),
    ("direction", .string "outgoing"), ("amount", capValue "USD" "70")]])]
  now := "2026-02-01T00:00:00.000Z"

/-- **An issuer that repeats a currency**: caps of 100 and 50 dollars bound it to 50, a request of
80 is within the first, and the delegation then allows the transfer of 70 that the issuer may not
make. -/
theorem delegated_exceeds_repeated_currency :
    ∃ issuer r resources operations totals p,
      parseRestrictions (capsValue [capValue "USD" "100", capValue "USD" "50"]) = .ok issuer ∧
      delegatedRestrictions (some (capsValue [capValue "USD" "80"]))
          (capsValue [capValue "USD" "100", capValue "USD" "50"]) = .ok r ∧
      payloadResources transferInput.payload = some resources ∧
      operationList (field transferInput.payload "operations") = some operations ∧
      financialTotals operations = some totals ∧
      prepareAuthorizationPayload transferInput.operation operations resources totals = .ok p ∧
      restrictionsAllow r transferInput p (some .resource) .operation = true ∧
      restrictionsAllow issuer transferInput p (some .resource) .operation = false :=
  ⟨_, _, _, _, _, _, rfl, rfl, rfl, rfl, rfl, rfl, by decide +kernel, by decide +kernel⟩

end BalanceFrame.Governance
