import BalanceFrame.Evidence.LinkingCorrect

/-!
# Matched pairs spend each observation once

The last phase of linking: `Proposed` says what stands in the tables of candidates, `Settled` what
holds while unambiguous pairs are connected one by one. A pair is connected only when its target has
no other source, so no observation is connected twice; the headline is `linkEvidence_linked`.
-/

namespace BalanceFrame.Evidence

open Library List Option
open Liquidity (I64 InI64 Money Checked)

variable {s : Links} {a b : Nat} {requested : List EvidenceRelationship} {m : Matching}
  {e : Nat × List Nat}

variable {obs : List Observed} {days : Nat} {relationships : List EvidenceRelationship}
  {connected : List Nat}

/-! ## Candidates -/

/-- A source that may be matched. -/
structure Open (obs : List Observed) (connected : List Nat) (a : Nat) : Prop where
  range : a < obs.length
  free : a ∉ connected
  isActive : active (nth obs a) = true
  notLedger : isLedger obs a = false

/-- A pair that may be matched. -/
structure Pairs (obs : List Observed) (connected : List Nat) (a b : Nat) : Prop where
  source : Open obs connected a
  range : b < obs.length
  free : b ∉ connected
  isActive : active (nth obs b) = true
  ledger : isLedger obs b = true
  same : (nth obs a).amount = (nth obs b).amount
  nonzero : ((nth obs a).amount.minorUnits : Int) ≠ 0

/-- The candidates are pairs that may be matched, and proposals allocate nothing. -/
structure Proposed (obs : List Observed) (connected : List Nat)
    (relationships : List EvidenceRelationship) (m : Matching) : Prop where
  pairs : ∀ a bs, m.candidates.get? a = some bs → ∀ b ∈ bs, Pairs obs connected a b
  spends : spendsOf obs m.relationships = spendsOf obs relationships

theorem candidateLink_allocates (oa ob : Observed) (isLocal : Bool) :
    (candidateLink oa ob isLocal).allocates = false := rfl

theorem get?_pushEntry (m : SortedMap Nat (List Nat)) (a b i : Nat) :
    (pushEntry m a b).get? i = if a = i then some ((m.get? a).getD [] ++ [b]) else m.get? i :=
  SortedMap.get?_insert m a _ i

theorem pairs_of_proposes (ha : Open obs connected a) (hb : b < obs.length)
    (h : proposes obs days relationships connected a b = true) (hledger : isLedger obs b = true) :
    Pairs obs connected a b := by
  simp only [proposes, Bool.and_eq_true, Bool.not_eq_true', contains_eq_mem,
    decide_eq_false_iff_not, decide_eq_true_eq, beq_iff_eq] at h
  obtain ⟨⟨⟨⟨⟨⟨⟨hfree, hactive⟩, -⟩, -⟩, -⟩, hsame⟩, hnonzero⟩, -⟩ := h
  exact ⟨ha, hb, hfree, hactive, hledger, hsame, hnonzero⟩

theorem candidate_proposed {m' : Matching}
    (h : Proposed obs connected relationships m) (ha : Open obs connected a) (hb : b < obs.length)
    (hstep : candidate obs days requested connected a m b = .ok m') :
    Proposed obs connected relationships m' := by
  unfold candidate at hstep
  dsimp only at hstep
  split at hstep
  · cases hstep
    exact h
  rename_i hproposes
  rw [Bool.not_eq_true', Bool.not_eq_false] at hproposes
  obtain ⟨-, hstep⟩ := rest_ok hstep
  cases hstep
  refine ⟨fun i bs hget b' hb' => ?_, ?_⟩
  · dsimp only at hget
    split at hget
    · rename_i hcand
      rw [Bool.and_eq_true, Bool.and_eq_true, Bool.and_eq_true] at hcand
      rw [get?_pushEntry] at hget
      split at hget
      · rename_i heq
        subst heq
        cases hget
        rcases mem_append.mp hb' with hb' | hb'
        · cases hold : m.candidates.get? a with
          | none =>
            rw [hold] at hb'
            exact absurd hb' not_mem_nil
          | some old =>
            rw [hold, getD_some] at hb'
            exact h.pairs a old hold b' hb'
        · rw [mem_singleton.mp hb']
          exact pairs_of_proposes ha hb hproposes hcand.1.1.1
      · exact h.pairs i bs hget b' hb'
    · exact h.pairs i bs hget b' hb'
  · dsimp only
    split
    · exact h.spends
    · exact (spendsOf_snoc_of_not obs _ (candidateLink_allocates _ _ _)).trans h.spends

theorem candidatesOf_proposed {m' : Matching}
    (h : Proposed obs connected relationships m) (ha : a < obs.length)
    (hstep : candidatesOf obs days requested connected m a = .ok m') :
    Proposed obs connected relationships m' := by
  unfold candidatesOf at hstep
  split at hstep
  · cases hstep
    exact h
  rename_i hopen
  simp only [Bool.or_eq_true, not_or, contains_eq_mem, decide_eq_true_eq, Bool.not_eq_true',
    Bool.not_eq_false, Bool.not_eq_true] at hopen
  refine foldlM_inv (fun t t' b hb ht => ?_) h hstep
  exact candidate_proposed ht ⟨ha, hopen.1.1, hopen.1.2, hopen.2⟩ (mem_range.mp hb)

theorem candidates_proposed
    (h : (List.range obs.length).foldlM (candidatesOf obs days requested connected)
      ⟨relationships, SortedMap.empty, SortedMap.empty⟩ = .ok m) :
    Proposed obs connected relationships m := by
  refine foldlM_inv (fun t t' a ha ht => candidatesOf_proposed ht (mem_range.mp ha))
    ⟨fun a bs hget => ?_, rfl⟩ h
  exact absurd hget (by simp [SortedMap.get?, SortedMap.empty, lookupList])

/-! ## Matches -/

/-- A pair that is connected: the only candidate of its source, wanted by no other. -/
def IsMatch (candidates : SortedMap Nat (List Nat)) (e : Nat × List Nat) (b : Nat) : Prop :=
  e.2 = [b] ∧ competing candidates b = 1

/-- While pairs are connected, what is connected was so before or is in a pair. -/
structure Settled (obs : List Observed) (candidates : SortedMap Nat (List Nat)) (s : Links)
    (done : List (Nat × List Nat)) (t : Links) : Prop where
  linked : Linked obs t.relationships t
  superseded : t.superseded = s.superseded
  connected : ∀ i ∈ t.connected,
    i ∈ s.connected ∨ ∃ e ∈ done, ∃ b, IsMatch candidates e b ∧ (i = e.1 ∨ i = b)

theorem not_wanted_before {candidates : SortedMap Nat (List Nat)} {done rest : List (Nat × List Nat)}
    {e' : Nat × List Nat} (hl : candidates.entries = done ++ e :: rest)
    (hb : b ∈ e.2) (hb' : b ∈ e'.2) (hcompeting : competing candidates b = 1) : e' ∉ done := by
  intro he'
  have hbefore : 0 < ((done.map Prod.snd).filter (·.contains b)).length := by
    refine length_pos_of_mem (a := e'.2) (mem_filter.mpr ⟨mem_map_of_mem he', ?_⟩)
    rw [contains_eq_mem]
    exact decide_eq_true hb'
  unfold competing SortedMap.values at hcompeting
  rw [hl, map_append, map_cons, filter_append, length_append,
    filter_cons_of_pos (by rw [contains_eq_mem]; exact decide_eq_true hb),
    length_cons] at hcompeting
  omega

theorem Linked.root_of_free (h : Linked obs relationships s) {i : Nat}
    (hfree : i ∉ s.connected) : root s.parent i = i := by
  refine h.once.alone i (fun ht => hfree ((h.connected i).mpr ht)) _ ?_
  exact root_of_up (h.forest.up_root i)

theorem Linked.spent_of_free (h : Linked obs relationships s) {i : Nat}
    (hfree : i ∉ s.connected) : s.spent i = 0 := by
  rw [h.counted, spent_of_not_touched fun ht => hfree ((h.connected i).mpr ht)]

theorem matchLinkOf_allocates (oa ob : Observed) : (matchLinkOf oa ob).allocates = true := by
  unfold matchLinkOf EvidenceRelationship.allocates matchKind
  dsimp only
  split <;> rfl

theorem Linked.matched (hnum : Numbered obs) {s' : Links}
    (h : Linked obs s.relationships s) (hpairs : Pairs obs s.connected a b)
    (hs' : s' = { s with
      connected := b :: a :: s.connected
      parent := s.parent.set b a
      consumption := (s.consumption.insert a (nth obs a).amount.minorUnits).insert b
        (nth obs b).amount.minorUnits
      relationships := s.relationships ++ [matchLinkOf (nth obs a) (nth obs b)] }) :
    Linked obs s'.relationships s' := by
  subst hs'
  have hab : a ≠ b := by
    intro heq
    have hkind := hpairs.source.notLedger
    rw [heq, hpairs.ledger] at hkind
    exact absurd hkind (by decide)
  have huntouched : ∀ {i}, i ∉ s.connected → ¬ Touched (spendsOf obs s.relationships) i :=
    fun hi ht => hi ((h.connected _).mpr ht)
  have hspentA := h.spent_of_free hpairs.source.free
  have hspentB := h.spent_of_free hpairs.free
  have hnonneg : 0 ≤ budgetOf obs a := hnum.budget_nonneg hpairs.source.range
  have hnonzero : budgetOf obs a ≠ 0 := hpairs.nonzero
  have hsame : budgetOf obs a = budgetOf obs b :=
    congrArg (fun m : Money => (m.minorUnits : Int)) hpairs.same
  have hrels : spendsOf obs (s.relationships ++ [matchLinkOf (nth obs a) (nth obs b)]) =
      spendsOf obs s.relationships ++ [⟨a, b, budgetOf obs a⟩] := by
    rw [spendsOf_snoc obs _ (matchLinkOf_allocates _ _),
      hnum.spendOf_between hpairs.source.range hpairs.range rfl rfl rfl]
    rfl
  have hlinkable : Linkable obs s.relationships a b (budgetOf obs a) :=
    { positive := by omega
      ne := hab
      source := ⟨hpairs.source.range, hpairs.source.isActive⟩
      target := ⟨hpairs.range, hpairs.isActive⟩
      sourceRoom := by rw [← h.counted, hspentA]; omega
      targetRoom := by rw [← h.counted, hspentB]; omega
      sourceRole := fun ht => huntouched hpairs.source.free (Or.inr ht)
      targetRole := fun hs => huntouched hpairs.free (Or.inl hs) }
  -- both ends are roots, so the class of `b` is joined by its own parent
  have hunion : s.parent.set b a = union s.parent a b := by
    unfold union
    rw [h.root_of_free hpairs.source.free, h.root_of_free hpairs.free]
  refine h.connect hlinkable hrels hunion (fun i => ?_) fun i => ?_
  · unfold Links.spent
    rw [get?_insert_two]
    by_cases hbi : b = i
    · subst hbi
      unfold Links.spent at hspentB
      rw [if_pos rfl, if_pos rfl, if_neg hab, hspentB, getD_some, hsame]
      change budgetOf obs b = 0 + 0 + budgetOf obs b
      omega
    · rw [if_neg hbi, if_neg hbi, Int.add_zero]
      by_cases hai : a = i
      · subst hai
        unfold Links.spent at hspentA
        rw [if_pos rfl, if_pos rfl, hspentA, getD_some]
        change budgetOf obs a = 0 + budgetOf obs a
        omega
      · rw [if_neg hai, if_neg hai, Int.add_zero]
  · rw [mem_cons, mem_cons, eq_comm (a := i), eq_comm (a := i)]
    tauto

theorem confirmMatch_settled (hnum : Numbered obs) {candidates : SortedMap Nat (List Nat)}
    {t : Links} {done rest : List (Nat × List Nat)}
    (hpairs : ∀ a bs, candidates.get? a = some bs → ∀ b ∈ bs, Pairs obs s.connected a b)
    (hl : candidates.entries = done ++ e :: rest) (h : Settled obs candidates s done t) :
    Settled obs candidates s (done ++ [e]) (confirmMatch obs candidates t e) := by
  have hmem : ∀ {e'}, e' ∈ done ∨ e' = e → candidates.get? e'.1 = some e'.2 := by
    intro e' he'
    refine SortedMap.mem_entries_iff.mp ?_
    rw [hl]
    rcases he' with he' | rfl
    · exact mem_append_left _ he'
    · simp
  have hkeep : ∀ i, (i ∈ s.connected ∨ ∃ e ∈ done, ∃ b, IsMatch candidates e b ∧ (i = e.1 ∨ i = b)) →
      i ∈ s.connected ∨ ∃ e' ∈ done ++ [e], ∃ b, IsMatch candidates e' b ∧ (i = e'.1 ∨ i = b) := by
    rintro i (hi | ⟨e', he', hrest⟩)
    · exact Or.inl hi
    · exact Or.inr ⟨e', mem_append_left _ he', hrest⟩
  unfold confirmMatch
  dsimp only
  split
  · exact ⟨h.linked.congr rfl rfl rfl rfl, h.superseded, fun i hi => hkeep i (h.connected i hi)⟩
  rename_i hmatch
  rw [not_or, Decidable.not_not, Decidable.not_not] at hmatch
  obtain ⟨hone, hcompeting⟩ := hmatch
  obtain ⟨b, hb⟩ := length_eq_one_iff.mp hone
  rw [hb, headD_cons] at hcompeting ⊢
  have hpair := hpairs e.1 e.2 (hmem (Or.inr rfl)) b (by rw [hb]; exact mem_singleton_self b)
  have hkeys : (candidates.entries.map Prod.fst).Nodup := candidates.nodup_keys
  -- neither end was in an earlier pair
  have hfree : e.1 ∉ t.connected ∧ b ∉ t.connected := by
    constructor <;> intro hi <;> rcases h.connected _ hi with hi | ⟨e', he', b', ⟨hb', -⟩, heq | heq⟩
    · exact hpair.source.free hi
    · rw [hl, map_append, map_cons, nodup_append] at hkeys
      exact hkeys.2.2 _ (mem_map_of_mem he') _ mem_cons_self heq.symm
    · have hledger := (hpairs e'.1 e'.2 (hmem (Or.inl he')) b'
        (by rw [hb']; exact mem_singleton_self b')).ledger
      rw [← heq, hpair.source.notLedger] at hledger
      exact absurd hledger (by decide)
    · exact hpair.free hi
    · have hnot := (hpairs e'.1 e'.2 (hmem (Or.inl he')) b'
        (by rw [hb']; exact mem_singleton_self b')).source.notLedger
      rw [← heq, hpair.ledger] at hnot
      exact absurd hnot (by decide)
    · subst heq
      exact not_wanted_before hl (by rw [hb]; exact mem_singleton_self b)
        (by rw [hb']; exact mem_singleton_self b) hcompeting he'
  refine ⟨Linked.matched hnum h.linked (a := e.1) (b := b) ?_ rfl, h.superseded, fun i hi => ?_⟩
  · exact { hpair with
      source := { hpair.source with free := hfree.1 }
      free := hfree.2 }
  · have hlast : e ∈ done ++ [e] := by simp
    rcases mem_cons.mp hi with rfl | hi
    · exact Or.inr ⟨e, hlast, i, ⟨hb, hcompeting⟩, Or.inr rfl⟩
    rcases mem_cons.mp hi with rfl | hi
    · exact Or.inr ⟨e, hlast, b, ⟨hb, hcompeting⟩, Or.inl rfl⟩
    · exact hkeep i (h.connected i hi)

/-! ## The phases together -/

theorem confirmLink_frame {rel : EvidenceRelationship} {s' : Links}
    (h : confirmLink obs days s rel = .ok s') :
    s'.relationships = s.relationships ∧ s'.superseded = s.superseded := by
  unfold confirmLink at h
  split at h
  · cases h
    exact ⟨rfl, rfl⟩
  dsimp only at h
  split at h
  · simp only [confirmAllocation, bind_ok, require_eq_ok, orStop_ok, Bool.and_eq_true,
      decide_eq_true_eq, pure_ok, Except.ok.injEq] at h
    obtain ⟨-, -, amount, -, -, -, -, -, t, hsource, u, htarget, rfl⟩ := h
    obtain ⟨-, -, rfl⟩ := allocateEnd_eq_ok hsource
    obtain ⟨-, -, rfl⟩ := allocateEnd_eq_ok htarget
    exact ⟨rfl, rfl⟩
  split at h
  · simp only [bind_ok, pure_ok, Except.ok.injEq] at h
    obtain ⟨-, -, rfl⟩ := h
    exact ⟨rfl, rfl⟩
  split at h
  · rw [confirmReturn_eq h]
    exact ⟨rfl, rfl⟩
  · cases h
    exact ⟨rfl, rfl⟩

theorem markPlausible_linked {plausiblePairs : SortedMap Nat (List Nat)}
    (h : Linked obs s.relationships s ∧ Closed obs s) :
    Linked obs (markPlausible plausiblePairs s e).relationships (markPlausible plausiblePairs s e) ∧
      Closed obs (markPlausible plausiblePairs s e) := by
  unfold markPlausible
  split
  · exact h
  split
  · exact ⟨h.1.congr rfl rfl rfl rfl, h.2⟩
  · exact h

/-- **The links spend each observation once**, and superseded observations are closed. -/
theorem linkEvidence_linked (hnum : Numbered obs) (hends : ∀ rel ∈ relationships, Ends obs rel)
    (h : linkEvidence obs days relationships = .ok s) :
    Linked obs s.relationships s ∧ Closed obs s := by
  simp only [linkEvidence, bind_ok, pure_ok, Except.ok.injEq] at h
  obtain ⟨s₁, h₁, s₃, h₃, m, hm, rfl⟩ := h
  have hlinked₁ := confirmLinks_linked hends h₁
  obtain ⟨hrels₁, hsup₁⟩ : s₁.relationships = relationships ∧ s₁.superseded = [] := by
    refine foldlM_inv (P := fun t => t.relationships = relationships ∧ t.superseded = [])
      (fun t t' rel _ ht hstep => ?_) ⟨rfl, rfl⟩ h₁
    obtain ⟨hr, hs⟩ := confirmLink_frame hstep
    exact ⟨hr.trans ht.1, hs.trans ht.2⟩
  rw [← hrels₁] at hlinked₁
  have hclosed₁ : Closed obs s₁ := by
    intro i hi
    rw [hsup₁] at hi
    exact absurd hi not_mem_nil
  obtain ⟨hlinked₂, hclosed₂⟩ := supersede_linked days hlinked₁ hclosed₁
  obtain ⟨hlinked₃, hsup₃⟩ := aggregates_linked hnum hlinked₂ h₃
  have hproposed := candidates_proposed hm
  have hstart : Settled obs m.candidates { s₃ with relationships := m.relationships } []
      { s₃ with relationships := m.relationships } :=
    ⟨hlinked₃.congr hproposed.spends rfl rfl rfl, rfl, fun i hi => Or.inl hi⟩
  have hsettled := foldl_runAt (f := confirmMatch obs m.candidates) (l := m.candidates.entries)
    (P := Settled obs m.candidates { s₃ with relationships := m.relationships })
    (fun done e rest t hl ht => confirmMatch_settled hnum hproposed.pairs hl ht) hstart
  have hclosed : Closed obs (m.candidates.entries.foldl (confirmMatch obs m.candidates)
      { s₃ with relationships := m.relationships }) := by
    intro i hi
    rw [hsettled.superseded] at hi
    change i ∈ s₃.superseded at hi
    rw [hsup₃] at hi
    exact hclosed₂ i hi
  obtain ⟨hlinked, hclosed⟩ := foldl_runAt (f := markPlausible m.plausiblePairs)
    (l := m.plausiblePairs.entries) (P := fun _ t => Linked obs t.relationships t ∧ Closed obs t)
    (fun done e rest t _ ht => markPlausible_linked ht) ⟨hsettled.linked, hclosed⟩
  exact ⟨hlinked.congr (spendsOf_retained _) rfl rfl rfl, hclosed⟩

end BalanceFrame.Evidence
