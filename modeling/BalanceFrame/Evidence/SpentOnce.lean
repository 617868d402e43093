import BalanceFrame.Evidence.CaptureOrder
import BalanceFrame.Evidence.MatchingCorrect

/-!
# Evidence is spent once

What `linkEvidence_linked` means for the result of a whole resolution.
-/

namespace BalanceFrame.Evidence

open Library List
open Liquidity (I64 InI64 Money Checked)

variable {obs' : List Observed} {rel : EvidenceRelationship} {group : List Nat} {i : Nat}
  {events : List ResolvedEconomicEvent} {r : TransactionEvidenceRequest}

variable {obs : List Observed} {days : Nat} {relationships : List EvidenceRelationship} {s : Links}

/-! ## Currencies -/

/-- A confirmed allocation has an amount, in the currency of both its ends. -/
def Priced (obs : List Observed) (rel : EvidenceRelationship) : Prop :=
  rel.allocates = true → ∃ amount, rel.allocatedAmount = some amount ∧
    (nth obs (indexOf obs rel.fromId)).amount.currency = amount.currency ∧
    (nth obs (indexOf obs rel.toId)).amount.currency = amount.currency

theorem priced_of_not (h : rel.allocates = false) : Priced obs rel := by
  intro htrue
  rw [h] at htrue
  exact absurd htrue Bool.false_ne_true

theorem forall_priced_snoc {l : List EvidenceRelationship}
    (hl : ∀ r ∈ l, Priced obs r) (h : Priced obs rel) : ∀ r ∈ l ++ [rel], Priced obs r := by
  intro r hr
  rcases mem_append.mp hr with hr | hr
  · exact hl r hr
  · rw [mem_singleton.mp hr]
    exact h

theorem Numbered.priced (h : Numbered obs) {a b : Nat}
    (ha : a < obs.length) (hb : b < obs.length) (hfrom : rel.fromId = (nth obs a).id)
    (hto : rel.toId = (nth obs b).id) {amount : Money} (hamount : rel.allocatedAmount = some amount)
    (hca : (nth obs a).amount.currency = amount.currency)
    (hcb : (nth obs b).amount.currency = amount.currency) : Priced obs rel := by
  intro _
  rw [hfrom, hto, h.indexOf_nth ha, h.indexOf_nth hb]
  exact ⟨amount, hamount, hca, hcb⟩

theorem compatible_currency {a b : Observed} {inverse : Bool}
    (h : compatible a b days inverse = true) : a.amount.currency = b.amount.currency := by
  simp only [compatible, Bool.and_eq_true, beq_iff_eq] at h
  exact h.1.1.1

theorem confirmLink_priced {s' : Links} (h : confirmLink obs days s rel = .ok s') :
    Priced obs rel := by
  intro hallocates
  unfold EvidenceRelationship.allocates at hallocates
  rw [Bool.and_eq_true, beq_iff_eq] at hallocates
  unfold confirmLink at h
  rw [if_neg (by rw [hallocates.1]; decide)] at h
  dsimp only at h
  rw [if_pos hallocates.2] at h
  simp only [confirmAllocation, bind_ok, require_eq_ok, orStop_ok, Bool.and_eq_true,
    decide_eq_true_eq, beq_iff_eq] at h
  obtain ⟨-, ⟨-, hcompatible⟩, amount, hamount, -, ⟨hcurrency, -⟩, -⟩ := h
  exact ⟨amount, hamount, hcurrency.symm, (compatible_currency hcompatible).symm.trans hcurrency.symm⟩

theorem supersede_priced (days : Nat) (h : ∀ rel ∈ s.relationships, Priced obs rel) :
    ∀ rel ∈ (obs.zipIdx.foldl (supersedePending obs days) s).relationships, Priced obs rel := by
  refine foldl_runAt (P := fun _ (t : Links) => ∀ rel ∈ t.relationships, Priced obs rel)
    (fun done p rest t _ ht => ?_) h
  unfold supersedePending
  dsimp only
  have hkeep : ∀ rel ∈ (if p.1.status == "superseded" then
      { t with superseded := p.2 :: t.superseded } else t).relationships, Priced obs rel := by
    split <;> exact ht
  generalize (if p.1.status == "superseded" then
      { t with superseded := p.2 :: t.superseded } else t) = t' at hkeep
  split
  · exact hkeep
  split
  · exact forall_priced_snoc hkeep (priced_of_not (supersessionLink_allocates _ _))
  · exact hkeep

theorem sum_currency {values : List Money} {currency : String} {t : I64}
    (h : sum values currency = .ok t) : ∀ x ∈ values, x.currency = currency := by
  intro x hx
  obtain ⟨c, c', hstep⟩ := foldlM_mem_ok h x hx
  simp only [sumStep, bind_ok, require_eq_ok, Bool.and_eq_true, beq_iff_eq] at hstep
  obtain ⟨-, ⟨-, hcurrency⟩, -⟩ := hstep
  exact hcurrency

theorem fundAll_priced (hnum : Numbered obs) {currency : String} {sources targets : List Nat}
    (hmembers : ∀ i, i ∈ sources ∨ i ∈ targets →
      i < obs.length ∧ (nth obs i).amount.currency = currency)
    (h : ∀ rel ∈ s.relationships, Priced obs rel) :
    ∀ rel ∈ (fundAll obs currency sources targets s).relationships, Priced obs rel := by
  unfold fundAll
  refine foldl_runAt (P := fun _ (f : Funding) => ∀ rel ∈ f.links.relationships, Priced obs rel)
    (fun done a rest f hl hf => ?_) h
  have ha := hmembers a (Or.inl (by rw [hl]; simp))
  unfold fundFrom
  refine foldl_runAt (P := fun _ (f : Funding) => ∀ rel ∈ f.links.relationships, Priced obs rel)
    (fun done b rest f hl hf => ?_) hf
  have hb := hmembers b (Or.inr (by rw [hl]; simp))
  unfold fundTarget
  dsimp only
  split
  · exact hf
  · exact forall_priced_snoc hf (hnum.priced ha.1 hb.1 rfl rfl rfl ha.2 hb.2)

theorem aggregate_priced (hnum : Numbered obs) {s' : Links} (hrange : ∀ i ∈ group, i < obs.length)
    (h : ∀ rel ∈ s.relationships, Priced obs rel) (hstep : aggregate obs days s group = .ok s') :
    ∀ rel ∈ s'.relationships, Priced obs rel := by
  have hstay : s' = s → ∀ rel ∈ s'.relationships, Priced obs rel := by
    rintro rfl
    exact h
  unfold aggregate at hstep
  dsimp only at hstep
  split at hstep
  · exact hstay (Except.ok.inj hstep).symm
  split at hstep
  · exact hstay (Except.ok.inj hstep).symm
  obtain ⟨sourceTotal, hsources, hstep⟩ := bind_ok.mp hstep
  split at hstep
  · exact hstay (Except.ok.inj hstep).symm
  obtain ⟨targetTotal, htargets, hstep⟩ := bind_ok.mp hstep
  split at hstep
  · exact hstay (Except.ok.inj hstep).symm
  split at hstep
  · exact hstay (Except.ok.inj hstep).symm
  rw [← Except.ok.inj hstep]
  refine fundAll_priced hnum (fun i hi => ?_) h
  rcases hi with hi | hi
  · exact ⟨hrange i (mem_filter.mp hi).1,
      sum_currency hsources _ (mem_map_of_mem hi)⟩
  · exact ⟨hrange i (mem_filter.mp hi).1,
      sum_currency htargets _ (mem_map_of_mem hi)⟩

theorem candidates_priced {requested : List EvidenceRelationship} {connected : List Nat}
    {m m' : Matching} (hm : ∀ rel ∈ m.relationships, Priced obs rel)
    (h : (List.range obs.length).foldlM (candidatesOf obs days requested connected) m = .ok m') :
    ∀ rel ∈ m'.relationships, Priced obs rel := by
  refine foldlM_inv (P := fun m : Matching => ∀ rel ∈ m.relationships, Priced obs rel)
    (fun t t' a _ ht hstep => ?_) hm h
  unfold candidatesOf at hstep
  split at hstep
  · cases hstep
    exact ht
  refine foldlM_inv (P := fun m : Matching => ∀ rel ∈ m.relationships, Priced obs rel)
    (fun t t' b _ ht hstep => ?_) ht hstep
  unfold candidate at hstep
  dsimp only at hstep
  split at hstep
  · cases hstep
    exact ht
  obtain ⟨-, hstep⟩ := rest_ok hstep
  cases hstep
  dsimp only
  split
  · exact ht
  · exact forall_priced_snoc ht (priced_of_not (candidateLink_allocates _ _ _))

theorem confirmMatches_priced (hnum : Numbered obs) {candidates : SortedMap Nat (List Nat)}
    {connected : List Nat}
    (hpairs : ∀ a bs, candidates.get? a = some bs → ∀ b ∈ bs, Pairs obs connected a b)
    (h : ∀ rel ∈ s.relationships, Priced obs rel) :
    ∀ rel ∈ (candidates.entries.foldl (confirmMatch obs candidates) s).relationships,
      Priced obs rel := by
  refine foldl_runAt (P := fun _ (t : Links) => ∀ rel ∈ t.relationships, Priced obs rel)
    (fun done e rest t hl ht => ?_) h
  unfold confirmMatch
  dsimp only
  split
  · exact ht
  rename_i hmatch
  rw [not_or, Decidable.not_not] at hmatch
  obtain ⟨b, hb⟩ := length_eq_one_iff.mp hmatch.1
  have hget : candidates.get? e.1 = some e.2 :=
    SortedMap.mem_entries_iff.mp (by rw [hl]; exact mem_append_right _ mem_cons_self)
  have hpair := hpairs e.1 e.2 hget b (by rw [hb]; exact mem_singleton_self b)
  rw [hb, headD_cons]
  exact forall_priced_snoc ht (hnum.priced hpair.source.range hpair.range rfl rfl rfl rfl
    (congrArg Money.currency hpair.same).symm)

theorem linkEvidence_priced (hnum : Numbered obs)
    (h : linkEvidence obs days relationships = .ok s) :
    ∀ rel ∈ s.relationships, Priced obs rel := by
  simp only [linkEvidence, bind_ok, pure_ok, Except.ok.injEq] at h
  obtain ⟨s₁, h₁, s₃, h₃, m, hm, rfl⟩ := h
  have hpriced₁ : ∀ rel ∈ s₁.relationships, Priced obs rel := by
    have hrels : s₁.relationships = relationships :=
      foldlM_inv (P := fun t => t.relationships = relationships)
        (fun t t' rel _ ht hstep => (confirmLink_frame hstep).1.trans ht) rfl h₁
    rw [hrels]
    intro rel hrel
    obtain ⟨c, c', hstep⟩ := foldlM_mem_ok h₁ rel hrel
    exact confirmLink_priced hstep
  have hpriced₃ : ∀ rel ∈ s₃.relationships, Priced obs rel := by
    refine foldlM_inv (P := fun t : Links => ∀ rel ∈ t.relationships, Priced obs rel)
      (fun t t' group hgroup ht hstep => ?_) (supersede_priced days hpriced₁) h₃
    exact aggregate_priced hnum (fun i hi => ((stableGroups_free hgroup).2 i hi).1) ht hstep
  have hpriced₄ := confirmMatches_priced hnum (candidates_proposed hm).pairs
    (s := { s₃ with relationships := m.relationships }) (candidates_priced hpriced₃ hm)
  have hpriced := foldl_runAt (f := markPlausible m.plausiblePairs) (l := m.plausiblePairs.entries)
    (P := fun _ t => ∀ rel ∈ t.relationships, Priced obs rel) (fun done e rest t _ ht => by
      unfold markPlausible
      split
      · exact ht
      split
      · exact ht
      · exact ht) hpriced₄
  exact fun rel hrel => hpriced rel (mem_filter.mp hrel).1

/-! ## Groups -/

/-- What a group of a resolved event is. -/
structure Balanced (obs : List Observed) (s : Links) (group : List Nat) : Prop where
  nodup : group.Nodup
  range : ∀ i ∈ group, i < obs.length
  closed : ∀ l ∈ spendsOf obs s.relationships, (l.source ∈ group ↔ l.target ∈ group)

theorem groups_closed (h : Linked obs s.relationships s) (hclosed : Closed obs s)
    (hgroup : group ∈ (groups obs s).values) : Balanced obs s group := by
  obtain ⟨k, hget⟩ := SortedMap.mem_values_iff.mp hgroup
  obtain ⟨-, rfl⟩ := SortedMap.get?_groupOn_eq_some.mp hget
  have hin : ∀ i, Touched (spendsOf obs s.relationships) i →
      (i ∈ (List.range obs.length).filter (fun i => decide
        ((if s.superseded.contains i then none else some (root s.parent i)) = some k)) ↔
        root s.parent i = k) := by
    intro i hi
    obtain ⟨hlt, hactive⟩ := h.inside i ((h.connected i).mpr hi)
    have hnot : s.superseded.contains i = false := by
      rw [contains_eq_mem, decide_eq_false_iff_not]
      intro hmem
      rw [hclosed i hmem] at hactive
      exact absurd hactive (by decide)
    rw [mem_filter, mem_range, decide_eq_true_eq, hnot, if_neg Bool.false_ne_true,
      Option.some.injEq]
    exact ⟨And.right, fun hk => ⟨hlt, hk⟩⟩
  refine ⟨nodup_range.filter _, fun i hi => mem_range.mp (mem_filter.mp hi).1,
    fun l hl => ?_⟩
  rw [hin l.source (Or.inl ⟨l, hl, rfl⟩), hin l.target (Or.inr ⟨l, hl, rfl⟩), h.once.closed l hl]

theorem isFull_spent (h : Linked obs s.relationships s) (hfull : isFull obs s group = true) :
    ∀ i ∈ group, spent (spendsOf obs s.relationships) i = budgetOf obs i := by
  intro i hi
  have hget := all_eq_true.mp hfull i hi
  rw [beq_iff_eq] at hget
  rw [← h.counted, Links.spent, hget, Option.getD_some]
  rfl

/-! ## Roles by id -/

/-- `target_ids.contains(id)`. -/
def isTargetId (relationships : List EvidenceRelationship) (id : String) : Bool :=
  relationships.any fun rel => rel.allocates && rel.toId == id

theorem Numbered.indexOf_eq_iff (h : Numbered obs) (hi : i < obs.length) {id : String} :
    indexOf obs id = i ↔ id = (nth obs i).id := by
  constructor
  · intro heq
    have hmem : id ∈ obs.map (·.id) := by
      have hfound := findIdx_getElem (w := (show indexOf obs id < obs.length from heq ▸ hi))
      rw [beq_iff_eq] at hfound
      exact mem_map.mpr ⟨_, getElem_mem _, hfound⟩
    rw [← heq, nth_indexOf hmem]
  · rintro rfl
    exact h.indexOf_nth hi

theorem Numbered.isSource_iff (h : Numbered obs) (hi : i < obs.length) :
    IsSource (spendsOf obs relationships) i ↔ isSourceId relationships (nth obs i).id = true := by
  unfold IsSource spendsOf isSourceId
  rw [any_eq_true]
  constructor
  · rintro ⟨l, hl, hsource⟩
    obtain ⟨rel, hrel, rfl⟩ := mem_map.mp hl
    obtain ⟨hrel, hallocates⟩ := mem_filter.mp hrel
    refine ⟨rel, hrel, ?_⟩
    rw [hallocates, Bool.true_and, beq_iff_eq]
    exact (h.indexOf_eq_iff hi).mp hsource
  · rintro ⟨rel, hrel, hsource⟩
    rw [Bool.and_eq_true, beq_iff_eq] at hsource
    exact ⟨_, mem_map_of_mem (mem_filter.mpr ⟨hrel, hsource.1⟩),
      (h.indexOf_eq_iff hi).mpr hsource.2⟩

theorem Numbered.isTarget_iff (h : Numbered obs) (hi : i < obs.length) :
    IsTarget (spendsOf obs relationships) i ↔ isTargetId relationships (nth obs i).id = true := by
  unfold IsTarget spendsOf isTargetId
  rw [any_eq_true]
  constructor
  · rintro ⟨l, hl, htarget⟩
    obtain ⟨rel, hrel, rfl⟩ := mem_map.mp hl
    obtain ⟨hrel, hallocates⟩ := mem_filter.mp hrel
    refine ⟨rel, hrel, ?_⟩
    rw [hallocates, Bool.true_and, beq_iff_eq]
    exact (h.indexOf_eq_iff hi).mp htarget
  · rintro ⟨rel, hrel, htarget⟩
    rw [Bool.and_eq_true, beq_iff_eq] at htarget
    exact ⟨_, mem_map_of_mem (mem_filter.mpr ⟨hrel, htarget.1⟩),
      (h.indexOf_eq_iff hi).mpr htarget.2⟩

/-- What an observation's confirmed allocations add up to. -/
def allocatedTotal (relationships : List EvidenceRelationship) (id : String) : Int :=
  ((relationships.filter fun rel => rel.allocates && (rel.fromId == id || rel.toId == id)).map
    fun rel => rel.allocatedAmount.elim 0 fun amount => amount.minorUnits).sum

theorem Numbered.allocatedTotal_eq (h : Numbered obs) (hi : i < obs.length) :
    ∀ {relationships : List EvidenceRelationship},
      (∀ l ∈ spendsOf obs relationships, l.source ≠ l.target) →
        allocatedTotal relationships (nth obs i).id = spent (spendsOf obs relationships) i
  | [], _ => rfl
  | rel :: rest, hne => by
    by_cases hallocates : rel.allocates = true
    · have hspends : spendsOf obs (rel :: rest) = spendOf obs rel :: spendsOf obs rest := by
        unfold spendsOf
        rw [filter_cons_of_pos hallocates, map_cons]
      rw [hspends, forall_mem_cons] at hne
      have ih := h.allocatedTotal_eq hi hne.2
      have hends : ¬ (rel.fromId = (nth obs i).id ∧ rel.toId = (nth obs i).id) := fun heq =>
        hne.1 (((h.indexOf_eq_iff hi).mpr heq.1).trans ((h.indexOf_eq_iff hi).mpr heq.2).symm)
      have hfrom : (spendOf obs rel).source = i ↔ rel.fromId = (nth obs i).id := h.indexOf_eq_iff hi
      have hto : (spendOf obs rel).target = i ↔ rel.toId = (nth obs i).id := h.indexOf_eq_iff hi
      unfold allocatedTotal spent spentBy spentOn at ih ⊢
      rw [hspends]
      by_cases h1 : rel.fromId = (nth obs i).id <;> by_cases h2 : rel.toId = (nth obs i).id
      · exact absurd ⟨h1, h2⟩ hends
      · simp only [filter_cons, hallocates, hfrom, hto, h1, h2, beq_self_eq_true, Bool.true_or,
          Bool.and_self, if_true, decide_true, decide_false, Bool.false_eq_true, if_false,
          map_cons, sum_cons, ih]
        change (spendOf obs rel).amount + _ = _
        omega
      · simp only [filter_cons, hallocates, hfrom, hto, h1, h2, beq_self_eq_true, Bool.or_true,
          Bool.and_self, if_true, decide_true, decide_false, Bool.false_eq_true, if_false,
          map_cons, sum_cons, ih]
        change (spendOf obs rel).amount + _ = _
        omega
      · simp only [filter_cons, hfrom, hto, h1, h2, Bool.or_self, Bool.and_false,
          decide_false, Bool.false_eq_true, if_false, beq_eq_false_iff_ne.mpr h1,
          beq_eq_false_iff_ne.mpr h2, ih]
    · have hspends : spendsOf obs (rel :: rest) = spendsOf obs rest := by
        unfold spendsOf
        rw [filter_cons_of_neg hallocates]
      rw [hspends] at hne ⊢
      rw [← h.allocatedTotal_eq hi hne]
      unfold allocatedTotal
      rw [filter_cons_of_neg (by simp [hallocates])]

/-! ## Events -/

/-- The amounts of the observations with one of the ids, in a role. -/
def unitsOf (observations : List Observed) (ids : List String) (role : String → Bool) : Int :=
  ((observations.filter fun o => ids.contains o.id && role o.id).map
    fun o => (o.amount.minorUnits : Int)).sum

theorem map_nth_range (obs : List Observed) : (List.range obs.length).map (nth obs) = obs := by
  refine ext_getElem (by rw [length_map, length_range]) fun i hi hi' => ?_
  rw [getElem_map, getElem_range, nth, getD_eq_getElem _ _ hi']

theorem Numbered.unitsOf_group (h : Numbered obs) (hnd : group.Nodup)
    (hrange : ∀ i ∈ group, i < obs.length) (role : String → Bool) :
    unitsOf obs (group.map fun i => (nth obs i).id) role =
      ((group.filter fun i => role (nth obs i).id).map (budgetOf obs)).sum := by
  have hperm : (group.filter fun i => role (nth obs i).id).Perm
      ((List.range obs.length).filter fun i =>
        (group.map fun i => (nth obs i).id).contains (nth obs i).id && role (nth obs i).id) := by
    refine (perm_ext_iff_of_nodup (hnd.filter _) (nodup_range.filter _)).mpr fun i => ?_
    rw [mem_filter, mem_filter, mem_range, Bool.and_eq_true, contains_eq_mem,
      decide_eq_true_eq, mem_map]
    constructor
    · rintro ⟨hi, hrole⟩
      exact ⟨hrange i hi, ⟨i, hi, rfl⟩, hrole⟩
    · rintro ⟨hlt, ⟨j, hj, heq⟩, hrole⟩
      rw [← h.eq_of_id (hrange j hj) hlt heq]
      exact ⟨hj, by rwa [h.eq_of_id (hrange j hj) hlt heq]⟩
  rw [(hperm.map _).sum_eq]
  generalize group.map (fun i => (nth obs i).id) = ids
  conv_lhs => rw [← map_nth_range obs]
  rw [unitsOf, filter_map, map_map]
  rfl

/-- What a resolved event says of its observations. -/
structure EventBalanced (obs : List Observed) (relationships : List EvidenceRelationship)
    (ids : List String) (amount : Money) : Prop where
  sources : unitsOf obs ids (isSourceId relationships) = amount.minorUnits
  targets : unitsOf obs ids (isTargetId relationships) = amount.minorUnits
  currency : ∀ o ∈ obs, o.id ∈ ids →
    (isSourceId relationships o.id || isTargetId relationships o.id) = true →
      o.amount.currency = amount.currency

theorem groups_balanced (hnum : Numbered obs) (h : Linked obs s.relationships s)
    (hclosed : Closed obs s) (hpriced : ∀ rel ∈ s.relationships, Priced obs rel)
    (hgroup : group ∈ (groups obs s).values) {core : EventCore}
    (hcore : eventCore obs s group = .ok core) (hstate : core.state = "resolved") :
    EventBalanced obs s.relationships core.observationIds core.amount := by
  obtain ⟨hnd, hrange, hstay⟩ := groups_closed h hclosed hgroup
  simp only [eventCore, eventAmount, bind_ok, pure_ok, Except.ok.injEq] at hcore
  obtain ⟨amount, ⟨t, ht, rfl⟩, rfl⟩ := hcore
  dsimp only at hstate ⊢
  obtain ⟨hfull, hhead⟩ : isFull obs s group = true ∧ group.headD 0 ∈ s.connected := by
    unfold eventState at hstate
    split at hstate
    · exact absurd hstate (by decide)
    · split at hstate
      · rename_i hboth
        rwa [Bool.and_eq_true, contains_eq_mem, decide_eq_true_eq] at hboth
      · exact absurd hstate (by decide)
  have hspent := isFull_spent h hfull
  have hbalance := h.once.balanced hnd hstay hspent
  have hsources : (group.filter fun i => decide (IsSource (spendsOf obs s.relationships) i)) =
      group.filter fun i => isSourceId s.relationships (nth obs i).id :=
    filter_congr fun i hi => by
      rw [Bool.eq_iff_iff, decide_eq_true_eq]
      exact hnum.isSource_iff (hrange i hi)
  have htargets : (group.filter fun i => decide (IsTarget (spendsOf obs s.relationships) i)) =
      group.filter fun i => isTargetId s.relationships (nth obs i).id :=
    filter_congr fun i hi => by
      rw [Bool.eq_iff_iff, decide_eq_true_eq]
      exact hnum.isTarget_iff (hrange i hi)
  rw [hsources, htargets] at hbalance
  have hsum : (t : Int) =
      ((group.filter fun i => isSourceId s.relationships (nth obs i).id).map (budgetOf obs)).sum := by
    rw [sum_eq_ok ht, map_map]
    rfl
  obtain ⟨hmem, hmem'⟩ : group.headD 0 ∈ group ∧ Touched (spendsOf obs s.relationships)
      (group.headD 0) := by
    refine ⟨?_, (h.connected _).mp hhead⟩
    obtain ⟨k, hget⟩ := SortedMap.mem_values_iff.mp hgroup
    cases group with
    | nil => exact absurd rfl (SortedMap.get?_groupOn_eq_some.mp hget).1
    | cons i rest => exact mem_cons_self
  have hpos := h.once.spent_pos hmem'
  rw [hspent _ hmem] at hpos
  have hne : (t : Int) ≠ 0 := by
    have hle : ∀ role : String → Bool, role (nth obs (group.headD 0)).id = true →
        budgetOf obs (group.headD 0) ≤
          ((group.filter fun i => role (nth obs i).id).map (budgetOf obs)).sum := by
      intro role hrole
      refine single_le_sum (fun v hv => ?_) _
        (mem_map_of_mem (mem_filter.mpr ⟨hmem, hrole⟩))
      obtain ⟨i, hi, rfl⟩ := mem_map.mp hv
      exact hnum.budget_nonneg (hrange i (mem_filter.mp hi).1)
    rcases hmem' with hs | ht
    · have := hle _ ((hnum.isSource_iff (hrange _ hmem)).mp hs)
      omega
    · have := hle _ ((hnum.isTarget_iff (hrange _ hmem)).mp ht)
      omega
  rw [if_neg hne]
  refine ⟨?_, ?_, fun o ho hid hrole => ?_⟩
  · rw [hnum.unitsOf_group hnd hrange, hsum]
  · rw [hnum.unitsOf_group hnd hrange, ← hbalance, hsum]
  · obtain ⟨i, hi, hio⟩ := mem_map.mp hid
    have hsame : nth obs i = o := inj_on_of_nodup_map hnum.apart (nth_mem (hrange i hi)) ho hio
    have hcurrency : ∀ j ∈ group, IsSource (spendsOf obs s.relationships) j →
        (nth obs j).amount.currency = (nth obs (group.headD 0)).amount.currency := by
      intro j hj hs
      refine sum_currency ht _ (mem_map.mpr ⟨j, mem_filter.mpr ⟨hj, ?_⟩, rfl⟩)
      exact (hnum.isSource_iff (hrange j hj)).mp hs
    rw [← hsame]
    rw [← hsame, Bool.or_eq_true, ← hnum.isSource_iff (hrange i hi),
      ← hnum.isTarget_iff (hrange i hi)] at hrole
    rcases hrole with hs | ⟨l, hl, htarget⟩
    · exact hcurrency i hi hs
    · -- a target has the currency of its source
      subst htarget
      have hsource := (hstay l hl).mpr hi
      rw [← hcurrency _ hsource ⟨l, hl, rfl⟩]
      obtain ⟨rel, hrel, rfl⟩ := mem_map.mp hl
      obtain ⟨hrel, hallocates⟩ := mem_filter.mp hrel
      obtain ⟨amount, -, hfrom, hto⟩ := hpriced rel hrel hallocates
      exact hto.trans hfrom.symm

theorem resolveEvents_spec {observations : List EvidenceObservation} {out : Events}
    (h : resolveEvents observations days s = .ok out) :
    List.Forall₂ (fun group event => ∃ core,
      eventCore (observations.map (·.toObserved)) s group = .ok core ∧
        event = eventOf observations days core (membersOf observations group))
      (groups (observations.map (·.toObserved)) s).values out.events := by
  refine foldlM_run (P := fun done (out : Events) => List.Forall₂ (fun group event => ∃ core,
      eventCore (observations.map (·.toObserved)) s group = .ok core ∧
        event = eventOf observations days core (membersOf observations group)) done out.events)
    (fun done out out' group hdone hstep => ?_) List.Forall₂.nil h
  simp only [addEvent, bind_ok, pure_ok, Except.ok.injEq] at hstep
  obtain ⟨core, hcore, rfl⟩ := hstep
  exact rel_append hdone (List.Forall₂.cons ⟨core, hcore, rfl⟩ List.Forall₂.nil)

/-! ## After the events -/

/-- What an event says apart from its evidence, reasons and projections. -/
def ResolvedEconomicEvent.sketch (event : ResolvedEconomicEvent) :
    String × String × String × Money × List String :=
  (event.id, event.eventType, event.state, event.amount, event.observationIds)

@[simp] theorem sketch_stampEvent (involved : List String) (hash : String)
    (event : ResolvedEconomicEvent) : (stampEvent involved hash event).sketch = event.sketch := by
  unfold stampEvent
  split <;> rfl

@[simp] theorem sketch_settleSingle (event : ResolvedEconomicEvent) :
    (settleSingle event).sketch = event.sketch := by
  unfold settleSingle
  split <;> rfl

theorem sketch_attachProof {eventId : String} {proof : SourceObservation} :
    ∀ {events events' : List ResolvedEconomicEvent},
      attachProof eventId proof events = some events' →
        events'.map (·.sketch) = events.map (·.sketch)
  | [], _, h => by cases h
  | event :: rest, events', h => by
    unfold attachProof at h
    split at h
    · cases h
      rfl
    · obtain ⟨rest', hrest, rfl⟩ := Option.map_eq_some_iff.mp h
      rw [map_cons, map_cons, sketch_attachProof hrest]

theorem sketch_publish {request : TransactionEvidenceRequest} {review : EvidenceAllocationReview}
    {plan : EvidenceAllocationPlan} {hash : String} {events' : List ResolvedEconomicEvent}
    (h : publish request review plan hash events = .ok events') :
    events'.map (·.sketch) = events.map (·.sketch) := by
  simp only [publish, bind_ok, pure_ok, Except.ok.injEq] at h
  obtain ⟨attached, hattached, rfl⟩ := h
  have hrun := foldlM_inv (P := fun t : List ResolvedEconomicEvent =>
    t.map (·.sketch) = events.map (·.sketch)) (fun t t' projection _ ht hstep => by
      rw [orStop_ok] at hstep
      exact (sketch_attachProof hstep).trans ht) (by simp) hattached
  rw [map_map, ← hrun]
  exact map_congr_left fun event _ => sketch_settleSingle event

theorem applyAllocationReview_frame
    {result result' : TransactionEvidenceResult} (h : applyAllocationReview r result = .ok result') :
    result'.relationships = result.relationships ∧
      result'.events.map (·.sketch) = result.events.map (·.sketch) := by
  unfold applyAllocationReview at h
  split at h
  · cases h
    exact ⟨rfl, rfl⟩
  · simp only [bind_ok, pure_ok, Except.ok.injEq] at h
    obtain ⟨-, -, plan, -, -, -, -, -, events, hevents, rfl⟩ := h
    exact ⟨rfl, sketch_publish hevents⟩

/-! ## Superseded receipts -/

theorem supersedeObservation_map {β : Type} (f : EvidenceObservation → β)
    (hf : ∀ o : EvidenceObservation, f { o with status := "superseded" } = f o) (id : String) :
    ∀ l : List EvidenceObservation, (supersedeObservation id l).map f = l.map f
  | [] => rfl
  | o :: rest => by
    unfold supersedeObservation
    split
    · rw [map_cons, map_cons, hf]
    · rw [map_cons, map_cons, supersedeObservation_map f hf id rest]

theorem replaceReceipts_frame {r' : TransactionEvidenceRequest} (h : replaceReceipts r = .ok r') :
    r' = { r with observations := r'.observations } ∧
      ∀ {β : Type} (f : EvidenceObservation → β),
        (∀ o : EvidenceObservation, f { o with status := "superseded" } = f o) →
          r'.observations.map f = r.observations.map f := by
  simp only [replaceReceipts, bind_ok, pure_ok, Except.ok.injEq] at h
  obtain ⟨t, ht, rfl⟩ := h
  refine ⟨rfl, fun f hf => ?_⟩
  refine foldlM_inv (P := fun t : Replaced => t.observations.map f = r.observations.map f)
    (fun t t' receipt _ hmap hstep => ?_) rfl ht
  unfold replaceReceipt at hstep
  split at hstep
  · cases hstep
    exact hmap
  · simp only [bind_ok, pure_ok, Except.ok.injEq] at hstep
    obtain ⟨prior, -, -, -, -, -, source, -, previous, -, -, -, rfl⟩ := hstep
    exact (supersedeObservation_map f hf _ _).trans hmap

/-! ## The resolution -/

/-- **Nothing is spent twice**: allocations have amounts, in the currency of their ends; those of an
observation stay within its amount; no source of one is the target of another; and resolved events
balance. -/
structure SpentOnce (obs : List Observed) (relationships : List EvidenceRelationship)
    (events : List ResolvedEconomicEvent) : Prop where
  priced : ∀ rel ∈ relationships, rel.allocates = true →
    ∃ amount, rel.allocatedAmount = some amount ∧
      ∀ o ∈ obs, o.id = rel.fromId ∨ o.id = rel.toId → o.amount.currency = amount.currency
  within : ∀ o ∈ obs, allocatedTotal relationships o.id ≤ o.amount.minorUnits
  roles : ∀ rel ∈ relationships, ∀ rel' ∈ relationships,
    rel.allocates = true → rel'.allocates = true → rel.fromId ≠ rel'.toId
  balanced : ∀ event ∈ events, event.state = "resolved" →
    EventBalanced obs relationships event.observationIds event.amount

/-- An id with its amount, which no phase changes. -/
def stake (o : Observed) : String × Money := (o.id, o.amount)

theorem exists_of_stakes (h : (obs.map stake).Perm (obs'.map stake)) {o' : Observed}
    (ho' : o' ∈ obs') : ∃ o ∈ obs, o.id = o'.id ∧ o.amount = o'.amount := by
  obtain ⟨o, ho, heq⟩ := mem_map.mp (h.mem_iff.mpr (mem_map_of_mem ho'))
  exact ⟨o, ho, congrArg Prod.fst heq, congrArg Prod.snd heq⟩

theorem unitsOf_stakes (h : (obs.map stake).Perm (obs'.map stake)) (ids : List String)
    (role : String → Bool) : unitsOf obs ids role = unitsOf obs' ids role := by
  have hstakes : ∀ l : List Observed, unitsOf l ids role =
      (((l.map stake).filter fun e => ids.contains e.1 && role e.1).map
        fun e => (e.2.minorUnits : Int)).sum := by
    intro l
    rw [filter_map, map_map]
    rfl
  rw [hstakes, hstakes, ((h.filter _).map _).sum_eq]

theorem EventBalanced.of_stakes (h : (obs.map stake).Perm (obs'.map stake)) {ids : List String}
    {amount : Money} (hb : EventBalanced obs relationships ids amount) :
    EventBalanced obs' relationships ids amount where
  sources := unitsOf_stakes h ids _ ▸ hb.sources
  targets := unitsOf_stakes h ids _ ▸ hb.targets
  currency := by
    intro o' ho' hid hrole
    obtain ⟨o, ho, hoid, hamount⟩ := exists_of_stakes h ho'
    rw [← hoid] at hid hrole
    rw [← hamount]
    exact hb.currency o ho hid hrole

theorem SpentOnce.of_stakes (h : (obs.map stake).Perm (obs'.map stake))
    (hs : SpentOnce obs relationships events) :
    SpentOnce obs' relationships events where
  priced := by
    intro rel hrel hallocates
    obtain ⟨amount, hamount, hcurrency⟩ := hs.priced rel hrel hallocates
    refine ⟨amount, hamount, fun o' ho' hend => ?_⟩
    obtain ⟨o, ho, hoid, hsame⟩ := exists_of_stakes h ho'
    rw [← hsame]
    exact hcurrency o ho (hoid ▸ hend)
  within := by
    intro o' ho'
    obtain ⟨o, ho, hoid, hsame⟩ := exists_of_stakes h ho'
    rw [← hoid, ← hsame]
    exact hs.within o ho
  roles := hs.roles
  balanced := fun event hevent hstate => (hs.balanced event hevent hstate).of_stakes h

theorem SpentOnce.of_perm {relationships' : List EvidenceRelationship}
    (h : relationships.Perm relationships')
    (hs : SpentOnce obs relationships events) : SpentOnce obs relationships' events := by
  have hsource : isSourceId relationships = isSourceId relationships' := by
    funext id
    exact h.any_eq
  have htarget : isTargetId relationships = isTargetId relationships' := by
    funext id
    exact h.any_eq
  refine ⟨fun rel hrel => hs.priced rel (h.mem_iff.mpr hrel), fun o ho => ?_,
    fun rel hrel rel' hrel' => hs.roles rel (h.mem_iff.mpr hrel) rel' (h.mem_iff.mpr hrel'),
    fun event hevent hstate => ?_⟩
  · have htotal := hs.within o ho
    unfold allocatedTotal at htotal ⊢
    rwa [← ((h.filter _).map _).sum_eq]
  · obtain ⟨h1, h2, h3⟩ := hs.balanced event hevent hstate
    rw [hsource] at h1 h3
    rw [htarget] at h2 h3
    exact ⟨h1, h2, h3⟩

theorem Linked.spentOnce (hnum : Numbered obs) (h : Linked obs s.relationships s)
    (hpriced : ∀ rel ∈ s.relationships, Priced obs rel)
    (hevents : ∀ event ∈ events, event.state = "resolved" →
      EventBalanced obs s.relationships event.observationIds event.amount) :
    SpentOnce obs s.relationships events := by
  have hnumber : ∀ o ∈ obs, ∃ i, i < obs.length ∧ nth obs i = o := by
    intro o ho
    rw [← map_nth_range obs] at ho
    obtain ⟨i, hi, hio⟩ := mem_map.mp ho
    exact ⟨i, mem_range.mp hi, hio⟩
  refine ⟨fun rel hrel hallocates => ?_, fun o ho => ?_,
    fun rel hrel rel' hrel' hallocates hallocates' heq => ?_, hevents⟩
  · obtain ⟨amount, hamount, hfrom, hto⟩ := hpriced rel hrel hallocates
    refine ⟨amount, hamount, fun o ho hend => ?_⟩
    obtain ⟨i, hi, rfl⟩ := hnumber o ho
    rcases hend with hend | hend
    · rwa [← hend, hnum.indexOf_nth hi] at hfrom
    · rwa [← hend, hnum.indexOf_nth hi] at hto
  · obtain ⟨i, hi, rfl⟩ := hnumber o ho
    rw [hnum.allocatedTotal_eq hi fun l hl => h.once.roles l hl l hl]
    by_cases htouched : Touched (spendsOf obs s.relationships) i
    · exact h.once.within i htouched
    · rw [spent_of_not_touched htouched]
      exact hnum.budget_nonneg hi
  · have hmem : ∀ {rel}, rel ∈ s.relationships → rel.allocates = true →
        spendOf obs rel ∈ spendsOf obs s.relationships := fun hr ha =>
      mem_map_of_mem (mem_filter.mpr ⟨hr, ha⟩)
    exact h.once.roles _ (hmem hrel hallocates) _ (hmem hrel' hallocates')
      (congrArg (indexOf obs) heq)

theorem validate_numbered (h : validate r = .ok ()) : Numbered (r.observations.map (·.toObserved)) ∧
      ∀ rel ∈ r.relationships, Ends (r.observations.map (·.toObserved)) rel := by
  obtain ⟨-, -, ⟨hnd, hobs⟩, -, hrels⟩ := validate_eq_ok.mp h
  have hids : (r.observations.map (·.toObserved)).map (·.id) = r.observations.map fun o => o.id := by
    rw [map_map]
    rfl
  refine ⟨⟨hids ▸ hnd, fun o ho => ?_⟩, fun rel hrel => ?_⟩
  · obtain ⟨e, he, rfl⟩ := mem_map.mp ho
    have hcheck := hobs e he
    simp only [checkObservation, checkObserved, bind_ok, require_eq_ok, Bool.and_eq_true,
      isMoney, decide_eq_true_eq] at hcheck
    obtain ⟨-, ⟨-, hhead, -⟩, -⟩ := hcheck
    exact hhead.1.2.1
  · have hcheck := hrels rel hrel
    simp only [checkRelationship, bind_ok, require_eq_ok, Bool.and_eq_true, bne_iff_ne,
      contains_eq_mem, decide_eq_true_eq] at hcheck
    obtain ⟨-, hhead, -⟩ := hcheck
    unfold Ends
    rw [hids]
    exact ⟨hhead.1.1.1.2, hhead.1.1.2, hhead.1.2⟩

theorem Numbered.of_stakes (h : (obs.map stake).Perm (obs'.map stake)) (hnum : Numbered obs) :
    Numbered obs' where
  apart := by
    have hids := h.map Prod.fst
    rw [map_map, map_map] at hids
    exact hids.nodup_iff.mp hnum.apart
  nonneg := by
    intro o' ho'
    obtain ⟨o, ho, -, hsame⟩ := exists_of_stakes h ho'
    rw [← hsame]
    exact hnum.nonneg o ho

theorem Ends.of_stakes (h : (obs.map stake).Perm (obs'.map stake)) (hends : Ends obs rel) :
    Ends obs' rel := by
  have hids := h.map Prod.fst
  rw [map_map, map_map] at hids
  exact ⟨hends.1, hids.mem_iff.mp hends.2.1, hids.mem_iff.mp hends.2.2⟩

theorem replaced_stakes {r' : TransactionEvidenceRequest}
    (h : replaceReceipts (sortRequest r) = .ok r') :
    ((r.observations.map (·.toObserved)).map stake).Perm
      ((r'.observations.map (·.toObserved)).map stake) := by
  rw [map_map, map_map, (replaceReceipts_frame h).2 _ fun o => rfl]
  exact ((perm_sortOn _ r.observations).map _).symm

/-- **The resolver never spends evidence twice.** -/
theorem resolution_spends_once {r : TransactionEvidenceRequest} {result : TransactionEvidenceResult}
    (h : resolveTransactionEvidence r = .ok result) :
    SpentOnce (r.observations.map (·.toObserved)) result.relationships result.events := by
  simp only [resolveTransactionEvidence, resolveSorted, resolveReplaced, bind_ok, pure_ok,
    Except.ok.injEq] at h
  obtain ⟨u, hvalid, r', hreplaced, base, ⟨s, hlinks, out, hout, receipts, -, wallets, -, rfl⟩,
    happly⟩ := h
  obtain ⟨hnum, hends⟩ := validate_numbered hvalid
  have hstakes := replaced_stakes hreplaced
  have hnum' := hnum.of_stakes hstakes
  have hends' : ∀ rel ∈ r'.relationships, Ends (r'.observations.map (·.toObserved)) rel := by
    rw [(replaceReceipts_frame hreplaced).1]
    intro rel hrel
    exact (hends rel ((perm_sortOn _ r.relationships).mem_iff.mp hrel)).of_stakes hstakes
  obtain ⟨hlinked, hclosed⟩ := linkEvidence_linked hnum' hends' hlinks
  have hpriced := linkEvidence_priced hnum' hlinks
  obtain ⟨hrels, hsketch⟩ := applyAllocationReview_frame happly
  rw [hrels]
  refine ((hlinked.spentOnce hnum' hpriced fun event hevent hstate => ?_).of_perm
    (perm_sortOn (·.id) s.relationships).symm).of_stakes hstakes.symm
  -- the event's group, which blocking and the review leave as it was
  have hmem := mem_map_of_mem (f := fun e : ResolvedEconomicEvent => e.sketch) hevent
  rw [hsketch, map_map] at hmem
  obtain ⟨event', hevent', hsame⟩ := mem_map.mp hmem
  obtain ⟨group, hgroup, core, hcore, rfl⟩ := exists_of_forall₂ (resolveEvents_spec hout) hevent'
  unfold Function.comp finishEvent ResolvedEconomicEvent.sketch at hsame
  dsimp only at hsame
  split at hsame <;> simp only [Prod.mk.injEq] at hsame
  · rw [← hsame.2.2.1] at hstate
    exact absurd hstate (by decide)
  · rw [← hsame.2.2.1] at hstate
    rw [← hsame.2.2.2.1, ← hsame.2.2.2.2]
    exact groups_balanced hnum' hlinked hclosed hpriced hgroup hcore hstate

theorem resolution_spends_once_coffee :
    ∃ result, resolveTransactionEvidence coffeeRequest = .ok result ∧
      SpentOnce (coffeeRequest.observations.map (·.toObserved)) result.relationships
        result.events := by
  obtain ⟨result, h⟩ := isOk_iff.mp
    (show isOk (resolveTransactionEvidence coffeeRequest) = true by decide +kernel)
  exact ⟨result, h, resolution_spends_once h⟩

end BalanceFrame.Evidence
