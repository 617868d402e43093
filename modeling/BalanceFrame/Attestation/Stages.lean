import BalanceFrame.Attestation.Merge

/-!
# Rejections of an observation

`capture` drops an observation that no longer fits the ledger, when it recognises the rejection by
its text, and lets every other rejection through. `Blocked` says which observations meet one of
the others first: a confirmation of an account whose balance is no longer the ledger's, holds that
differ from holds the ledger has come to know, and credit whose payment category or account has
changed. `mergeObservation_cases` is the outcome of the loop body in these terms, from one lemma
for each of its stages.
-/

namespace BalanceFrame.Attestation

open Library Liquidity List Option

/-! ## What the rejections are about -/

variable (digests : Digests) (snapshot : SnapshotContent) (facts : LiquidityFacts)
  (o : PersistedObservation) (account : AccountLiquidityFact)

/-- A confirmation is of the material the account has now. -/
def Confirmed : Prop :=
  o.currentLedgerConfirmed = true → Authoritative account ∧
    o.ledgerConfirmationHash = some (confirmationHash digests snapshot account)

instance : Decidable (Confirmed digests snapshot o account) :=
  inferInstanceAs (Decidable (_ → _))

/-- The account has known holds, and others are attested. -/
def HoldsConflict : Prop :=
  ∃ holds ∈ o.holds, account.holdsEvidence.state = .known ∧ account.holds ≠ holds

instance : Decidable (HoldsConflict o account) := Option.decidableExistsMem _

/-- Two entries are told apart by both of their names. -/
def Entry.Differs (entry other : Entry) : Prop :=
  entry.id ≠ other.id ∧ entry.economicObligationId ≠ other.economicObligationId

instance : DecidableRel Entry.Differs := fun _ _ => inferInstanceAs (Decidable (_ ∧ _))

/-- Entries that name nothing the ledger has, and nothing twice. -/
structure Additional (baseline : List String) (existing entries : List Entry) : Prop where
  unmatched : ∀ entry ∈ entries, ∀ id ∈ entry.matchedTransactionIds, id ∉ baseline
  fresh : ∀ entry ∈ entries, ∀ other ∈ existing, other.Differs entry
  distinct : entries.Pairwise Entry.Differs

instance (baseline : List String) (existing entries : List Entry) :
    Decidable (Additional baseline existing entries) :=
  decidable_of_iff
    ((∀ entry ∈ entries, ∀ id ∈ entry.matchedTransactionIds, id ∉ baseline) ∧
      (∀ entry ∈ entries, ∀ other ∈ existing, other.Differs entry) ∧
      entries.Pairwise Entry.Differs)
    ⟨fun h => ⟨h.1, h.2.1, h.2.2⟩, fun h => ⟨h.unmatched, h.fresh, h.distinct⟩⟩

/-- The attested flows and obligations add to what the account has. -/
def Adds : Prop :=
  Additional account.baselineTransactionIds (account.unsettledFlows.map entryOfFlow)
      ((o.unsettledFlows.getD []).map entryOfFlow) ∧
    Additional account.baselineTransactionIds (account.obligations.map entryOfObligation)
      ((o.obligations.getD []).map entryOfObligation)

instance : Decidable (Adds o account) := inferInstanceAs (Decidable (_ ∧ _))

/-- One current entry of the category, which a payment in this currency may use. -/
def HasPayment (categoryId currency : String) : Prop :=
  (currentEntries facts categoryId).length = 1 ∧
    ∀ category ∈ currentEntries facts categoryId,
      Usable category ∧ category.availability.currency = currency

instance (categoryId currency : String) : Decidable (HasPayment facts categoryId currency) :=
  inferInstanceAs (Decidable (_ ∧ _))

/-- A declaration of credit for an account of this id, currency and kind. -/
def CreditStands (accountId currency : String) (kind : LiquidityAccountKind)
    (credit : CreditDeclaration) : Prop :=
  HasPayment facts credit.paymentCategoryId currency ∧
    credit.authorizationAvailable.currency = currency ∧ credit.reservedCash.currency = currency ∧
    kind = .credit ∧ credit.paymentAccountId ≠ accountId ∧
    credit.paymentAccountId ∈ facts.accounts.map (·.accountId)

instance (accountId currency : String) (kind : LiquidityAccountKind) (credit : CreditDeclaration) :
    Decidable (CreditStands facts accountId currency kind credit) :=
  inferInstanceAs (Decidable (_ ∧ _))

/-- Credit is declared, and does not stand. -/
def CreditRefused : Prop :=
  ∃ credit ∈ o.credit.join, ¬ CreditStands facts account.accountId
    (o.currency.getD account.currency) (o.kind.getD account.kind) credit

instance : Decidable (CreditRefused facts o account) := Option.decidableExistsMem _

/-- **An observation `capture` does not drop and cannot merge.** The cases are in the order of the
source: what comes before the rejection has to pass, or the observation is dropped. -/
def Blocked : Prop :=
  ∃ account ∈ findAccount facts o.accountId,
    (o.currentLedgerConfirmed = true ∧ ¬ Authoritative account) ∨
    (Confirmed digests snapshot o account ∧ HoldsConflict o account) ∨
    (Confirmed digests snapshot o account ∧ ¬ HoldsConflict o account ∧ Adds o account ∧
      CreditRefused facts o account)

instance : Decidable (Blocked digests snapshot facts o) := Option.decidableExistsMem _

/-- An observation that fits the ledger. -/
def Fits : Prop :=
  ∃ account ∈ findAccount facts o.accountId,
    (Confirmed digests snapshot o account ∧ ¬ HoldsConflict o account ∧ Adds o account) ∧
      ¬ CreditRefused facts o account

instance : Decidable (Fits digests snapshot facts o) := Option.decidableExistsMem _

/-! ## Rejections that are not recognised -/

section Stages

variable {digests : Digests} {snapshot : SnapshotContent} {facts : LiquidityFacts}
  {o : PersistedObservation} {a b : AccountLiquidityFact} {α β : Type}

theorem isStale_false {e : MergeError}
    (h : e = .balanceUnavailable ∨ e = .holdEvidence ∨ e = .paymentCategory ∨
      e = .paymentCurrency ∨ e = .paymentAccount) : e.isStale = false := by
  rw [← Bool.not_eq_true, MergeError.isStale_iff]
  rcases h with rfl | rfl | rfl | rfl | rfl <;> simp

/-! ## The stages of one observation -/

theorem confirm_cases (digests : Digests) (snapshot : SnapshotContent) (o : PersistedObservation)
    (a : AccountLiquidityFact) :
    (o.currentLedgerConfirmed = true ∧ ¬ Authoritative a ∧
      confirm digests snapshot o a = .error .balanceUnavailable) ∨
    (Authoritative a ∧ ¬ Confirmed digests snapshot o a ∧
      confirm digests snapshot o a = .error .materialMismatch) ∨
    (Confirmed digests snapshot o a ∧ ∃ evidence,
      confirm digests snapshot o a = .ok { a with freshnessEvidence := evidence }) := by
  unfold confirm ledgerConfirmationHash
  by_cases hconfirmed : o.currentLedgerConfirmed = true
  · by_cases hauthoritative : Authoritative a
    · by_cases hhash : o.ledgerConfirmationHash = some (confirmationHash digests snapshot a)
      · refine .inr (.inr ⟨fun _ => ⟨hauthoritative, hhash⟩, o.attested, ?_⟩)
        simp [hconfirmed, hauthoritative, hhash]
      · refine .inr (.inl ⟨hauthoritative, fun h => hhash (h hconfirmed).2, ?_⟩)
        simp [hconfirmed, hauthoritative, bne_iff_ne.mpr hhash]
    · exact .inl ⟨hconfirmed, hauthoritative, by simp [hconfirmed, hauthoritative]⟩
  · refine .inr (.inr ⟨fun h => absurd h hconfirmed, a.freshnessEvidence, ?_⟩)
    rw [if_neg hconfirmed]

theorem declare_eq (o : PersistedObservation) (a : AccountLiquidityFact) :
    ∃ currencyEvidence kindEvidence owned ownershipEvidence,
      declareOwned o (declareKind o (declareCurrency o a)) =
        { a with
          currency := o.currency.getD a.currency, currencyEvidence := currencyEvidence
          kind := o.kind.getD a.kind, kindEvidence := kindEvidence
          owned := owned, ownershipEvidence := ownershipEvidence } := by
  unfold declareOwned declareKind declareCurrency
  rcases o.currency with _ | currency <;> rcases o.kind with _ | kind <;>
    rcases o.owned with _ | owned <;> exact ⟨_, _, _, _, rfl⟩

theorem mergeHolds_cases (o : PersistedObservation) (a : AccountLiquidityFact) :
    (HoldsConflict o a ∧ mergeHolds o a = .error .holdEvidence) ∨
    (¬ HoldsConflict o a ∧ ∃ holds evidence,
      mergeHolds o a = .ok { a with holds := holds, holdsEvidence := evidence }) := by
  unfold mergeHolds HoldsConflict
  cases o.holds with
  | none => exact .inr ⟨by simp, a.holds, a.holdsEvidence, rfl⟩
  | some holds =>
    by_cases hknown : a.holdsEvidence.state = .known
    · by_cases hsame : a.holds = holds
      · refine .inr ⟨by simp [hsame], holds, o.attested, ?_⟩
        simp [hsame]
      · exact .inl ⟨⟨holds, rfl, hknown, hsame⟩, by simp [hknown, bne_iff_ne.mpr hsame]⟩
    · refine .inr ⟨by simp [hknown], holds, o.attested, ?_⟩
      simp [beq_eq_false_iff_ne.mpr hknown]

theorem additional_cons {baseline : List String} {existing entries : List Entry} {entry : Entry} :
    Additional baseline existing (entry :: entries) ↔
      entry.replaces existing baseline = false ∧
        Additional baseline (existing ++ [entry]) entries := by
  have hreplaces : entry.replaces existing baseline = false ↔
      (∀ other ∈ existing, other.Differs entry) ∧
        ∀ id ∈ entry.matchedTransactionIds, id ∉ baseline := by
    simp [Entry.replaces, Entry.Differs]
  rw [hreplaces]
  constructor
  · rintro ⟨hunmatched, hfresh, hdistinct⟩
    rw [forall_mem_cons] at hunmatched hfresh
    rw [pairwise_cons] at hdistinct
    refine ⟨⟨hfresh.1, hunmatched.1⟩, hunmatched.2, fun e he other hother => ?_, hdistinct.2⟩
    rcases mem_append.mp hother with hother | hother
    · exact hfresh.2 e he other hother
    · rw [mem_singleton.mp hother]
      exact hdistinct.1 e he
  · rintro ⟨⟨hfirst, hmatched⟩, hunmatched, hfresh, hdistinct⟩
    refine ⟨forall_mem_cons.mpr ⟨hmatched, hunmatched⟩,
      forall_mem_cons.mpr ⟨hfirst, fun e he other hother => ?_⟩,
      pairwise_cons.mpr ⟨fun e he => ?_, hdistinct⟩⟩
    · exact hfresh e he other (mem_append_left _ hother)
    · exact hfresh e he entry (mem_append_right _ (mem_singleton_self entry))

/-- **Pushing entries one after another**: they are all added, or one of them names what is
there. -/
theorem foldlM_push {ξ : Type} (entry : ξ → Entry) (existing : AccountLiquidityFact → List ξ)
    (put : AccountLiquidityFact → List ξ → AccountLiquidityFact) (e : MergeError)
    (hread : ∀ a l, existing (put a l) = l) (hput : ∀ a l l', put (put a l) l' = put a l')
    (hself : ∀ a, put a (existing a) = a)
    (hbaseline : ∀ a l, (put a l).baselineTransactionIds = a.baselineTransactionIds) :
    ∀ (xs : List ξ) (a : AccountLiquidityFact), xs.foldlM (push entry existing put e) a =
      if Additional a.baselineTransactionIds ((existing a).map entry) (xs.map entry) then
        .ok (put a (existing a ++ xs)) else .error e
  | [], a => by
    have hnone : Additional a.baselineTransactionIds ((existing a).map entry) ([].map entry) :=
      ⟨by simp, by simp, List.Pairwise.nil⟩
    rw [if_pos hnone, append_nil, hself]
    rfl
  | x :: xs, a => by
    rw [foldlM_cons, push, map_cons]
    cases hx : (entry x).replaces ((existing a).map entry) a.baselineTransactionIds with
    | true =>
      rw [if_neg fun h => by simp [(additional_cons.mp h).1] at hx]
      rfl
    | false =>
      have hrest := foldlM_push entry existing put e hread hput hself hbaseline xs
        (put a (existing a ++ [x]))
      rw [hread, hput, hbaseline, append_assoc, map_append] at hrest
      simp only [additional_cons, hx, true_and]
      exact hrest

theorem foldlM_pushFlow (flows : List UnsettledFlow) (a : AccountLiquidityFact) :
    flows.foldlM pushFlow a =
      if Additional a.baselineTransactionIds (a.unsettledFlows.map entryOfFlow)
          (flows.map entryOfFlow) then
        .ok { a with unsettledFlows := a.unsettledFlows ++ flows }
      else .error .activityEvidence :=
  foldlM_push entryOfFlow (·.unsettledFlows) (fun a flows => { a with unsettledFlows := flows })
    .activityEvidence (fun _ _ => rfl) (fun _ _ _ => rfl) (fun _ => rfl) (fun _ _ => rfl) flows a

theorem foldlM_pushObligation (obligations : List CashObligation) (a : AccountLiquidityFact) :
    obligations.foldlM pushObligation a =
      if Additional a.baselineTransactionIds (a.obligations.map entryOfObligation)
          (obligations.map entryOfObligation) then
        .ok { a with obligations := a.obligations ++ obligations }
      else .error .obligationEvidence :=
  foldlM_push entryOfObligation (·.obligations)
    (fun a obligations => { a with obligations := obligations }) .obligationEvidence
    (fun _ _ => rfl) (fun _ _ _ => rfl) (fun _ => rfl) (fun _ _ => rfl) obligations a

theorem mergeFlows_cases (o : PersistedObservation) (a : AccountLiquidityFact) :
    (¬ Additional a.baselineTransactionIds (a.unsettledFlows.map entryOfFlow)
        ((o.unsettledFlows.getD []).map entryOfFlow) ∧
      mergeFlows o a = .error .activityEvidence) ∨
    (Additional a.baselineTransactionIds (a.unsettledFlows.map entryOfFlow)
        ((o.unsettledFlows.getD []).map entryOfFlow) ∧
      ∃ flows evidence,
        mergeFlows o a = .ok { a with unsettledFlows := flows, activityEvidence := evidence }) := by
  unfold mergeFlows
  cases o.unsettledFlows with
  | none => exact .inr ⟨⟨by simp, by simp, List.Pairwise.nil⟩, _, _, rfl⟩
  | some flows =>
    have hpush := foldlM_pushFlow flows a
    by_cases hadds : Additional a.baselineTransactionIds (a.unsettledFlows.map entryOfFlow)
      (flows.map entryOfFlow)
    · rw [if_pos hadds] at hpush
      simp only [hpush, ok_bind]
      refine .inr ⟨hadds, a.unsettledFlows ++ flows, ?_⟩
      split
      · exact ⟨_, rfl⟩
      · exact ⟨_, rfl⟩
    · rw [if_neg hadds] at hpush
      simp only [hpush, error_bind]
      exact .inl ⟨hadds, trivial⟩

theorem mergeObligations_cases (o : PersistedObservation) (a : AccountLiquidityFact) :
    (¬ Additional a.baselineTransactionIds (a.obligations.map entryOfObligation)
        ((o.obligations.getD []).map entryOfObligation) ∧
      mergeObligations o a = .error .obligationEvidence) ∨
    (Additional a.baselineTransactionIds (a.obligations.map entryOfObligation)
        ((o.obligations.getD []).map entryOfObligation) ∧
      ∃ obligations evidence, mergeObligations o a =
        .ok { a with obligations := obligations, scheduleEvidence := evidence }) := by
  unfold mergeObligations
  cases o.obligations with
  | none => exact .inr ⟨⟨by simp, by simp, List.Pairwise.nil⟩, _, _, rfl⟩
  | some obligations =>
    have hpush := foldlM_pushObligation obligations a
    by_cases hadds : Additional a.baselineTransactionIds (a.obligations.map entryOfObligation)
      (obligations.map entryOfObligation)
    · rw [if_pos hadds] at hpush
      simp only [hpush, ok_bind]
      refine .inr ⟨hadds, a.obligations ++ obligations, ?_⟩
      split
      · exact ⟨_, rfl⟩
      · exact ⟨_, rfl⟩
    · rw [if_neg hadds] at hpush
      simp only [hpush, error_bind]
      exact .inl ⟨hadds, trivial⟩

theorem isStale_true {e : MergeError}
    (h : e = .unknownAccount ∨ e = .materialMismatch ∨ e = .activityEvidence ∨
      e = .obligationEvidence) : ¬ e.isStale = false := by
  rw [MergeError.isStale_iff.mpr h]
  decide

/-- What `mergeAccount` does: the account keeps its id, with the declared currency and kind. -/
theorem mergeAccount_cases (digests : Digests) (snapshot : SnapshotContent)
    (o : PersistedObservation) (a : AccountLiquidityFact) :
    (¬ (Confirmed digests snapshot o a ∧ ¬ HoldsConflict o a ∧ Adds o a) ∧
      ∃ e, mergeAccount digests snapshot o a = .error e ∧
        (e.isStale = false ↔ (o.currentLedgerConfirmed = true ∧ ¬ Authoritative a) ∨
          (Confirmed digests snapshot o a ∧ HoldsConflict o a))) ∨
    ((Confirmed digests snapshot o a ∧ ¬ HoldsConflict o a ∧ Adds o a) ∧
      ∃ b, mergeAccount digests snapshot o a = .ok b ∧ b.accountId = a.accountId ∧
        b.currency = o.currency.getD a.currency ∧ b.kind = o.kind.getD a.kind) := by
  unfold mergeAccount
  rcases confirm_cases digests snapshot o a with ⟨hc, ha, h⟩ | ⟨ha, hn, h⟩ | ⟨hc, fresh, h⟩ <;>
    rw [h]
  · refine .inl ⟨fun hok => ha (hok.1 hc).1, _, rfl, iff_of_true ?_ (.inl ⟨hc, ha⟩)⟩
    exact isStale_false (.inl rfl)
  · refine .inl ⟨fun hok => hn hok.1, _, rfl, iff_of_false (isStale_true (by simp)) ?_⟩
    rintro (⟨-, hbad⟩ | ⟨hbad, -⟩)
    · exact hbad ha
    · exact hn hbad
  have hpassed : ¬ (o.currentLedgerConfirmed = true ∧ ¬ Authoritative a) := fun hbad =>
    hbad.2 (hc hbad.1).1
  obtain ⟨currencyEvidence, kindEvidence, owned, ownershipEvidence, hdeclare⟩ :=
    declare_eq o { a with freshnessEvidence := fresh }
  rw [ok_bind, hdeclare]
  rcases mergeHolds_cases o _ with ⟨hholds, h⟩ | ⟨hholds, holds, holdsEvidence, h⟩ <;> rw [h]
  · exact .inl ⟨fun hok => hok.2.1 hholds, _, rfl,
      iff_of_true (isStale_false (by simp)) (.inr ⟨hc, hholds⟩)⟩
  have hunblocked : ¬ ((o.currentLedgerConfirmed = true ∧ ¬ Authoritative a) ∨
      (Confirmed digests snapshot o a ∧ HoldsConflict o a)) := by
    rintro (hbad | ⟨-, hbad⟩)
    · exact hpassed hbad
    · exact hholds hbad
  rw [ok_bind]
  rcases mergeFlows_cases o _ with ⟨hflows, h⟩ | ⟨hflows, flows, activity, h⟩ <;> rw [h]
  · exact .inl ⟨fun hok => hflows hok.2.2.1, _, rfl,
      iff_of_false (isStale_true (by simp)) hunblocked⟩
  rw [ok_bind]
  rcases mergeObligations_cases o _ with
    ⟨hobligations, h⟩ | ⟨hobligations, obligations, schedule, h⟩ <;> rw [h]
  · exact .inl ⟨fun hok => hobligations hok.2.2.2, _, rfl,
      iff_of_false (isStale_true (by simp)) hunblocked⟩
  · exact .inr ⟨⟨hc, hholds, hflows, hobligations⟩, _, rfl, rfl, rfl, rfl⟩

theorem paymentCategory_cases (facts : LiquidityFacts) (credit : CreditDeclaration) :
    ((∀ currency, ¬ HasPayment facts credit.paymentCategoryId currency) ∧
      paymentCategory facts credit = .error .paymentCategory) ∨
    ∃ category, paymentCategory facts credit = .ok category ∧
      category.categoryId = credit.paymentCategoryId ∧ ∀ currency,
        HasPayment facts credit.paymentCategoryId currency ↔
          category.availability.currency = currency := by
  unfold paymentCategory HasPayment
  split
  · rename_i category hentries
    have hmem : category ∈ currentEntries facts credit.paymentCategoryId := by simp [hentries]
    split
    · rename_i husable
      refine .inr ⟨category, rfl, ?_, fun currency => by simp [hentries, husable]⟩
      have hnamed := (mem_filter.mp hmem).2
      simp only [Bool.and_eq_true, beq_iff_eq] at hnamed
      exact hnamed.1.1
    · rename_i husable
      exact .inl ⟨fun currency h => husable (h.2 _ hmem).1, rfl⟩
  · rename_i hentries
    refine .inl ⟨fun currency h => ?_, rfl⟩
    obtain ⟨category, hcategory⟩ := length_eq_one_iff.mp h.1
    exact hentries category hcategory

theorem mergeCredit_cases (facts : LiquidityFacts) (o : PersistedObservation)
    (hid : b.accountId = a.accountId) (hcurrency : b.currency = o.currency.getD a.currency)
    (hkind : b.kind = o.kind.getD a.kind) :
    (CreditRefused facts o a ∧ ∃ e, mergeCredit o facts b = .error e ∧ e.isStale = false) ∨
    (¬ CreditRefused facts o a ∧ ∃ facts' b', mergeCredit o facts b = .ok (facts', b') ∧
      b'.accountId = a.accountId ∧ (facts' = facts ∨
        ∃ categoryId currency, HasPayment facts categoryId currency ∧
          facts' = setPayment facts categoryId)) := by
  unfold mergeCredit CreditRefused
  rcases o.credit with _ | _ | credit
  · exact .inr ⟨by simp, facts, b, rfl, hid, .inl rfl⟩
  · exact .inr ⟨by simp, facts, _, rfl, hid, .inl rfl⟩
  rw [← hid, ← hcurrency, ← hkind]
  simp only [join_some, mem_def, Option.some.injEq, exists_eq_left']
  rcases paymentCategory_cases facts credit with ⟨hnone, h⟩ | ⟨category, h, hname, hpays⟩ <;> rw [h]
  · exact .inl ⟨fun hstands => hnone _ hstands.1, _, rfl, isStale_false (by simp)⟩
  rw [ok_bind]
  have hcurrencies : (category.availability.currency != b.currency ||
      credit.authorizationAvailable.currency != b.currency ||
      credit.reservedCash.currency != b.currency) = false ↔
      HasPayment facts credit.paymentCategoryId b.currency ∧
        credit.authorizationAvailable.currency = b.currency ∧
        credit.reservedCash.currency = b.currency := by
    rw [hpays]
    simp [and_assoc]
  have haccounts : (b.kind != .credit || credit.paymentAccountId == b.accountId ||
      !facts.accounts.any (·.accountId == credit.paymentAccountId)) = false ↔
      b.kind = .credit ∧ credit.paymentAccountId ≠ b.accountId ∧
        credit.paymentAccountId ∈ facts.accounts.map (·.accountId) := by
    simp [and_assoc]
  cases hc : (category.availability.currency != b.currency ||
      credit.authorizationAvailable.currency != b.currency ||
      credit.reservedCash.currency != b.currency) with
  | true =>
    refine .inl ⟨fun hstands => ?_, _, rfl, isStale_false (by simp)⟩
    rw [hcurrencies.mpr ⟨hstands.1, hstands.2.1, hstands.2.2.1⟩] at hc
    cases hc
  | false =>
    rw [reject_false, ok_bind]
    cases ha : (b.kind != .credit || credit.paymentAccountId == b.accountId ||
      !facts.accounts.any (·.accountId == credit.paymentAccountId)) with
    | true =>
      refine .inl ⟨fun hstands => ?_, _, rfl, isStale_false (by simp)⟩
      rw [haccounts.mpr hstands.2.2.2] at ha
      cases ha
    | false =>
      obtain ⟨hpayment, hcurrencies⟩ := hcurrencies.mp hc
      refine .inr ⟨not_not.mpr ⟨hpayment, hcurrencies.1, hcurrencies.2, haccounts.mp ha⟩,
        _, _, rfl, rfl, .inr ⟨credit.paymentCategoryId, b.currency, hpayment, ?_⟩⟩
      rw [hname]

theorem accountId_of_findAccount {id : String} (h : findAccount facts id = some a) :
    a.accountId = id := by
  simpa using find?_some h

/-- **What one observation does**: it fits and edits its own account, and perhaps the kind of the
category it names for payment; or it is rejected, and then the rejection is recognised as staleness
unless the observation is blocked. -/
theorem mergeObservation_cases (digests : Digests) (snapshot : SnapshotContent)
    (facts : LiquidityFacts) (o : PersistedObservation) :
    (¬ Fits digests snapshot facts o ∧ ∃ e, mergeObservation digests snapshot facts o = .error e ∧
      (e.isStale = false ↔ Blocked digests snapshot facts o)) ∨
    (Fits digests snapshot facts o ∧ ¬ Blocked digests snapshot facts o ∧ ∃ facts' b,
      mergeObservation digests snapshot facts o = .ok (putAccount facts' b) ∧
        b.accountId = o.accountId ∧ (facts' = facts ∨
          ∃ categoryId currency, HasPayment facts categoryId currency ∧
            facts' = setPayment facts categoryId)) := by
  unfold mergeObservation Fits Blocked
  cases hfind : findAccount facts o.accountId with
  | none =>
    exact .inl ⟨by simp, _, rfl, iff_of_false (isStale_true (by simp)) (by simp)⟩
  | some a =>
    have hid := accountId_of_findAccount hfind
    simp only [mem_def, Option.some.injEq, exists_eq_left', orStop_some, ok_bind]
    rcases mergeAccount_cases digests snapshot o a with
      ⟨hunfit, e, h, hstale⟩ | ⟨⟨hc, hholds, hadds⟩, b, h, hb, hcurrency, hkind⟩ <;> rw [h]
    · refine .inl ⟨fun hfits => hunfit hfits.1, e, rfl,
        hstale.trans ⟨fun hbad => ?_, fun hbad => ?_⟩⟩
      · rcases hbad with hbad | hbad
        · exact .inl hbad
        · exact .inr (.inl hbad)
      · rcases hbad with hbad | hbad | ⟨hc, hholds, hadds, -⟩
        · exact .inl hbad
        · exact .inr hbad
        · exact absurd ⟨hc, hholds, hadds⟩ hunfit
    · rw [ok_bind]
      rcases mergeCredit_cases facts o hb hcurrency hkind with
        ⟨hrefused, e, h, hstale⟩ | ⟨hcredit, facts', b', h, hb', hfacts⟩ <;> rw [h]
      · exact .inl ⟨fun hfits => hfits.2 hrefused, e, rfl,
          iff_of_true hstale (.inr (.inr ⟨hc, hholds, hadds, hrefused⟩))⟩
      · refine .inr ⟨⟨⟨hc, hholds, hadds⟩, hcredit⟩, ?_, facts', b', rfl, hb'.trans hid, hfacts⟩
        rintro (⟨hconfirmed, hbad⟩ | ⟨-, hbad⟩ | ⟨-, -, -, hbad⟩)
        · exact hbad (hc hconfirmed).1
        · exact hholds hbad
        · exact hcredit hbad

end Stages

end BalanceFrame.Attestation
