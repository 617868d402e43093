import BalanceFrame.Evidence.Linking
import BalanceFrame.Library.Spending

/-!
# Links spend each observation once

The confirmed allocations among the relationships are spends of numbered observations (`spendsOf`).
`Linked` is what every phase keeps: nothing is spent twice, `consumption` counts the spends,
`connected` marks the observations in them, and the classes of the union-find contain them.
`Linked.connect` is the step that all phases share; the headline is `linkEvidence_linked`.
-/

namespace BalanceFrame.Evidence

open Library List Except
open Liquidity (I64 InI64 Money Checked)

variable {s' : Links} {i : Nat} {rel : EvidenceRelationship} {units : Int}
  {done : List EvidenceRelationship}

/-- The spend that a relationship stands for. -/
def spendOf (obs : List Observed) (rel : EvidenceRelationship) : Spend Nat where
  source := indexOf obs rel.fromId
  target := indexOf obs rel.toId
  amount := rel.allocatedAmount.elim 0 fun amount => amount.minorUnits

/-- The spends of the confirmed allocations. -/
def spendsOf (obs : List Observed) (relationships : List EvidenceRelationship) : List (Spend Nat) :=
  (relationships.filter (·.allocates)).map (spendOf obs)

/-- What there is to spend of an observation. -/
def budgetOf (obs : List Observed) (i : Nat) : Int := (nth obs i).amount.minorUnits

/-- **The phases' invariant**, over the allocations of `relationships`. -/
structure Linked (obs : List Observed) (relationships : List EvidenceRelationship) (s : Links) :
    Prop where
  forest : Forest s.parent
  size : s.parent.length = obs.length
  once : SpendsOnce (budgetOf obs) (spendsOf obs relationships) (root s.parent)
  counted : ∀ i, s.spent i = spent (spendsOf obs relationships) i
  connected : ∀ i, i ∈ s.connected ↔ Touched (spendsOf obs relationships) i
  inside : ∀ i ∈ s.connected, i < obs.length ∧ active (nth obs i) = true

/-- What an accepted request says of its sorted observations. -/
structure Numbered (obs : List Observed) : Prop where
  apart : (obs.map (·.id)).Nodup
  nonneg : ∀ o ∈ obs, 0 ≤ (o.amount.minorUnits : Int)

variable {obs : List Observed} {days : Nat} {relationships : List EvidenceRelationship}
  {s : Links}

/-! ## Numbers and ids -/

theorem nth_mem (hi : i < obs.length) : nth obs i ∈ obs := by
  unfold nth
  rw [getD_eq_getElem _ _ hi]
  exact getElem_mem hi

theorem indexOf_lt {id : String} (h : id ∈ obs.map (·.id)) : indexOf obs id < obs.length := by
  obtain ⟨o, ho, rfl⟩ := mem_map.mp h
  exact findIdx_lt_length_of_exists ⟨o, ho, beq_self_eq_true _⟩

theorem nth_indexOf {id : String} (h : id ∈ obs.map (·.id)) : (nth obs (indexOf obs id)).id = id := by
  have hlt := indexOf_lt h
  have hid := findIdx_getElem (w := hlt)
  rw [beq_iff_eq] at hid
  unfold nth
  rw [getD_eq_getElem _ _ hlt]
  exact hid

theorem Numbered.eq_of_id (h : Numbered obs) {j : Nat} (hi : i < obs.length)
    (hj : j < obs.length) (hid : (nth obs i).id = (nth obs j).id) : i = j := by
  unfold nth at hid
  rw [getD_eq_getElem _ _ hi, getD_eq_getElem _ _ hj] at hid
  have hsame : obs[i] = obs[j] :=
    inj_on_of_nodup_map h.apart (getElem_mem hi) (getElem_mem hj) hid
  exact (List.Nodup.of_map _ h.apart).getElem_inj_iff.mp hsame

theorem Numbered.indexOf_nth (h : Numbered obs) (hi : i < obs.length) :
    indexOf obs (nth obs i).id = i := by
  have hmem : (nth obs i).id ∈ obs.map (·.id) := mem_map_of_mem (nth_mem hi)
  exact h.eq_of_id (indexOf_lt hmem) hi (nth_indexOf hmem)

theorem Numbered.budget_nonneg (h : Numbered obs) (hi : i < obs.length) : 0 ≤ budgetOf obs i :=
  h.nonneg _ (nth_mem hi)

/-! ## Spends of relationships -/

theorem spendsOf_append (l l' : List EvidenceRelationship) :
    spendsOf obs (l ++ l') = spendsOf obs l ++ spendsOf obs l' := by
  unfold spendsOf
  rw [filter_append, map_append]

theorem spendsOf_of_none {l : List EvidenceRelationship} (h : ∀ rel ∈ l, rel.allocates = false) :
    spendsOf obs l = [] := by
  unfold spendsOf
  rw [filter_eq_nil_iff.mpr fun rel hrel => by rw [h rel hrel]; exact Bool.false_ne_true,
    map_nil]

theorem spendsOf_snoc (obs : List Observed) (relationships : List EvidenceRelationship)
    (h : rel.allocates = true) :
    spendsOf obs (relationships ++ [rel]) = spendsOf obs relationships ++ [spendOf obs rel] := by
  rw [spendsOf_append]
  unfold spendsOf
  rw [filter_cons_of_pos h, filter_nil, map_singleton]

theorem spendsOf_snoc_of_not (obs : List Observed) (relationships : List EvidenceRelationship)
    (h : rel.allocates = false) :
    spendsOf obs (relationships ++ [rel]) = spendsOf obs relationships := by
  rw [spendsOf_append, spendsOf_of_none (l := [rel]), append_nil]
  intro r hr
  rw [mem_singleton.mp hr]
  exact h

theorem spendsOf_retained (l : List EvidenceRelationship) :
    spendsOf obs (retained l) = spendsOf obs l := by
  unfold spendsOf retained
  rw [filter_filter]
  congr 1
  refine filter_congr fun rel _ => ?_
  rw [Bool.and_eq_left_iff_imp]
  intro h
  unfold EvidenceRelationship.allocates at h
  rw [Bool.and_eq_true, beq_iff_eq] at h
  rw [h.1]
  rfl

/-! ## The shared step -/

theorem Linked.congr {relationships' : List EvidenceRelationship}
    (h : Linked obs relationships s) (hrels : spendsOf obs relationships' = spendsOf obs relationships)
    (hparent : s'.parent = s.parent) (hconsumption : s'.consumption = s.consumption)
    (hconnected : s'.connected = s.connected) : Linked obs relationships' s' where
  forest := hparent ▸ h.forest
  size := hparent ▸ h.size
  once := by
    rw [hrels, hparent]
    exact h.once
  counted := by
    intro i
    rw [hrels, ← h.counted i]
    unfold Links.spent
    rw [hconsumption]
  connected := by
    intro i
    rw [hrels, hconnected]
    exact h.connected i
  inside := by
    rw [hconnected]
    exact h.inside

/-- Two observations that may be linked. -/
structure Linkable (obs : List Observed) (relationships : List EvidenceRelationship) (a b : Nat)
    (units : Int) : Prop where
  positive : 0 < units
  ne : a ≠ b
  source : a < obs.length ∧ active (nth obs a) = true
  target : b < obs.length ∧ active (nth obs b) = true
  sourceRoom : spent (spendsOf obs relationships) a + units ≤ budgetOf obs a
  targetRoom : spent (spendsOf obs relationships) b + units ≤ budgetOf obs b
  sourceRole : ¬ IsTarget (spendsOf obs relationships) a
  targetRole : ¬ IsSource (spendsOf obs relationships) b

theorem Linked.connect (h : Linked obs relationships s) {a b : Nat}
    (hl : Linkable obs relationships a b units) {relationships' : List EvidenceRelationship}
    (hrels : spendsOf obs relationships' = spendsOf obs relationships ++ [⟨a, b, units⟩])
    (hparent : s'.parent = union s.parent a b)
    (hspent : ∀ i, s'.spent i =
      s.spent i + (if a = i then units else 0) + if b = i then units else 0)
    (hconnected : ∀ i, i ∈ s'.connected ↔ i ∈ s.connected ∨ a = i ∨ b = i) :
    Linked obs relationships' s' := by
  have hunion := root_union h.forest (h.size ▸ hl.source.1) (h.size ▸ hl.target.1)
  refine ⟨hparent ▸ hunion.1, ?_, ?_, fun i => ?_, fun i => ?_, fun i hi => ?_⟩
  · rw [hparent]
    unfold union
    rw [length_set]
    exact h.size
  · rw [hrels, hparent]
    exact h.once.snoc hl.positive hl.ne hl.sourceRoom hl.targetRoom hl.sourceRole hl.targetRole
      hunion.2
  · rw [hspent, hrels, spent_snoc, h.counted]
  · rw [hconnected, hrels, touched_snoc, h.connected]
  · rcases (hconnected i).mp hi with hi | rfl | rfl
    · exact h.inside i hi
    · exact hl.source
    · exact hl.target

theorem get?_insert_two {ν : Type} {m : SortedMap Nat ν} (a b : Nat) (x y : ν) (i : Nat) :
    ((m.insert a x).insert b y).get? i =
      if b = i then some y else if a = i then some x else m.get? i := by
  rw [SortedMap.get?_insert, SortedMap.get?_insert]

/-! ## Confirmed relationships -/

/-- Roles are recorded for the observations in confirmed allocations. -/
structure Confirming (obs : List Observed) (done : List EvidenceRelationship) (s : Links) : Prop where
  linked : Linked obs done s
  sources : ∀ i, IsSource (spendsOf obs done) i → s.allocationRoles.get? i = some true
  targets : ∀ i, IsTarget (spendsOf obs done) i → s.allocationRoles.get? i = some false

/-- What a relationship of an accepted request says of its ends. -/
def Ends (obs : List Observed) (rel : EvidenceRelationship) : Prop :=
  rel.fromId ≠ rel.toId ∧ rel.fromId ∈ obs.map (·.id) ∧ rel.toId ∈ obs.map (·.id)

theorem allocateEnd_eq_ok {role : Bool} (h : allocateEnd obs units role s i = .ok s') :
    (s.allocationRoles.get? i = none ∨ s.allocationRoles.get? i = some role) ∧
      s.spent i + units ≤ budgetOf obs i ∧
      s' = { s with
        allocationRoles := s.allocationRoles.insert i role
        consumption := s.consumption.insert i (s.spent i + units) } := by
  simp only [allocateEnd, bind_ok, require_eq_ok, decide_eq_true_eq, pure_ok,
    Except.ok.injEq] at h
  obtain ⟨-, hrole, -, -, -, hroom, rfl⟩ := h
  refine ⟨?_, hroom, rfl⟩
  cases hget : s.allocationRoles.get? i with
  | none => exact Or.inl rfl
  | some previous =>
    rw [hget] at hrole
    exact Or.inr (congrArg some (beq_iff_eq.mp hrole))

theorem confirmAllocation_confirming {a b : Nat} (h : Confirming obs done s) (ha : a < obs.length)
    (hb : b < obs.length) (hab : a ≠ b) (hfrom : indexOf obs rel.fromId = a)
    (hto : indexOf obs rel.toId = b) (hrel : rel.allocates = true)
    (hstep : confirmAllocation obs days s rel a b = .ok s') :
    Confirming obs (done ++ [rel]) s' := by
  simp only [confirmAllocation, bind_ok, require_eq_ok, orStop_ok, Bool.and_eq_true,
    decide_eq_true_eq, pure_ok, Except.ok.injEq] at hstep
  obtain ⟨-, ⟨⟨hactive, hactive'⟩, -⟩, amount, hamount, -, ⟨-, hpos⟩, -, -, t, hsource, u, htarget,
    rfl⟩ := hstep
  obtain ⟨hrole, hroom, rfl⟩ := allocateEnd_eq_ok hsource
  obtain ⟨hrole', hroom', rfl⟩ := allocateEnd_eq_ok htarget
  have hspend : spendOf obs rel = ⟨a, b, amount.minorUnits⟩ := by
    unfold spendOf
    rw [hfrom, hto, hamount, Option.elim_some]
  have hrels := spendsOf_snoc obs done hrel
  rw [hspend] at hrels
  generalize (amount.minorUnits : Int) = units at hpos hroom hroom' hrels ⊢
  -- the second end reads its entries past those of the first
  have hspentB : Links.spent { s with
      allocationRoles := s.allocationRoles.insert a true
      consumption := s.consumption.insert a (s.spent a + units) } b = s.spent b := by
    unfold Links.spent
    rw [SortedMap.get?_insert_of_ne _ _ hab]
  rw [hspentB] at hroom' ⊢
  rw [SortedMap.get?_insert_of_ne _ _ hab] at hrole'
  have hsourceRole : ¬ IsTarget (spendsOf obs done) a := by
    intro ht
    rw [h.targets a ht] at hrole
    simp at hrole
  have htargetRole : ¬ IsSource (spendsOf obs done) b := by
    intro hs
    rw [h.sources b hs] at hrole'
    simp at hrole'
  have hlinkable : Linkable obs done a b units :=
    { positive := hpos
      ne := hab
      source := ⟨ha, hactive⟩
      target := ⟨hb, hactive'⟩
      sourceRoom := h.linked.counted a ▸ hroom
      targetRoom := h.linked.counted b ▸ hroom'
      sourceRole := hsourceRole
      targetRole := htargetRole }
  have hroles : ∀ i, ((s.allocationRoles.insert a true).insert b false).get? i =
      if b = i then some false else if a = i then some true else s.allocationRoles.get? i :=
    get?_insert_two a b true false
  refine ⟨h.linked.connect hlinkable hrels rfl (fun i => ?_) (fun i => ?_), fun i hi => ?_,
    fun i hi => ?_⟩
  · unfold Links.connect Links.spent
    rw [get?_insert_two]
    by_cases hbi : b = i
    · subst hbi
      rw [if_pos rfl, if_neg hab, if_pos rfl, Option.getD_some, Int.add_zero]
    · rw [if_neg hbi, if_neg hbi, Int.add_zero]
      by_cases hai : a = i
      · subst hai
        rw [if_pos rfl, if_pos rfl, Option.getD_some]
      · rw [if_neg hai, if_neg hai, Int.add_zero]
  · unfold Links.connect
    rw [mem_cons, mem_cons]
    tauto
  · unfold Links.connect
    rw [hroles]
    rw [hrels] at hi
    obtain ⟨l, hl, rfl⟩ := hi
    rcases mem_append.mp hl with hl | hl
    · rw [if_neg fun heq => htargetRole ⟨l, hl, heq.symm⟩]
      split
      · rfl
      · exact h.sources _ ⟨l, hl, rfl⟩
    · rw [mem_singleton.mp hl, if_neg (Ne.symm hab), if_pos rfl]
  · unfold Links.connect
    rw [hroles]
    rw [hrels] at hi
    obtain ⟨l, hl, rfl⟩ := hi
    rcases mem_append.mp hl with hl | hl
    · split
      · rfl
      · rw [if_neg fun heq => hsourceRole ⟨l, hl, heq.symm⟩]
        exact h.targets _ ⟨l, hl, rfl⟩
    · rw [mem_singleton.mp hl, if_pos rfl]

theorem Confirming.skip (h : Confirming obs done s) (hrel : rel.allocates = false)
    (hparent : s'.parent = s.parent) (hconsumption : s'.consumption = s.consumption)
    (hconnected : s'.connected = s.connected) (hroles : s'.allocationRoles = s.allocationRoles) :
    Confirming obs (done ++ [rel]) s' := by
  have hrels := spendsOf_snoc_of_not obs done hrel
  refine ⟨h.linked.congr hrels hparent hconsumption hconnected, ?_, ?_⟩ <;> rw [hrels, hroles]
  · exact h.sources
  · exact h.targets

theorem confirmReturn_eq {a b : Nat} (h : confirmReturn obs s rel a b = .ok s') :
    s' = { s with returnConsumption := s'.returnConsumption } := by
  simp only [confirmReturn, returnEnd, bind_ok, pure_ok, Except.ok.injEq] at h
  obtain ⟨-, -, -, -, -, -, t, ⟨-, -, -, -, rfl⟩, -, -, -, -, rfl⟩ := h
  rfl

theorem confirmLink_confirming (h : Confirming obs done s) (hends : Ends obs rel)
    (hstep : confirmLink obs days s rel = .ok s') : Confirming obs (done ++ [rel]) s' := by
  obtain ⟨hne, hfrom, hto⟩ := hends
  unfold confirmLink at hstep
  split at hstep
  · rename_i hstate
    cases hstep
    refine h.skip ?_ rfl rfl rfl rfl
    unfold EvidenceRelationship.allocates
    rw [Bool.and_eq_false_iff]
    exact Or.inl (by simpa using hstate)
  · rename_i hstate
    split at hstep
    · rename_i hkind
      have hab : indexOf obs rel.fromId ≠ indexOf obs rel.toId := by
        intro heq
        apply hne
        rw [← nth_indexOf hfrom, ← nth_indexOf hto, heq]
      have hrel : rel.allocates = true := by
        unfold EvidenceRelationship.allocates
        rw [hkind, Bool.and_true]
        simpa using hstate
      exact confirmAllocation_confirming h (indexOf_lt hfrom) (indexOf_lt hto) hab rfl rfl hrel hstep
    · rename_i hkind
      have hrel : rel.allocates = false := by
        unfold EvidenceRelationship.allocates
        rw [Bool.and_eq_false_iff]
        exact Or.inr (by simpa using hkind)
      split at hstep
      · simp only [bind_ok, pure_ok, Except.ok.injEq] at hstep
        obtain ⟨-, -, rfl⟩ := hstep
        exact h.skip hrel rfl rfl rfl rfl
      · split at hstep
        · rw [confirmReturn_eq hstep]
          exact h.skip hrel rfl rfl rfl rfl
        · cases hstep
          exact h.skip hrel rfl rfl rfl rfl

theorem confirming_unlinked : Confirming obs [] (unlinked obs relationships) := by
  refine ⟨⟨forest_range _, length_range, SpendsOnce.nil fun i j hij => ?_, fun i => rfl,
    fun i => ?_, fun i hi => absurd hi not_mem_nil⟩, ?_, ?_⟩
  · change root (List.range obs.length) j = root (List.range obs.length) i at hij
    rwa [root_range, root_range] at hij
  · constructor
    · intro hi
      exact absurd hi not_mem_nil
    · rintro (⟨l, hl, -⟩ | ⟨l, hl, -⟩) <;> exact absurd hl not_mem_nil
  · rintro i ⟨l, hl, -⟩
    exact absurd hl not_mem_nil
  · rintro i ⟨l, hl, -⟩
    exact absurd hl not_mem_nil

/-- **The confirmed relationships spend each observation once.** -/
theorem confirmLinks_linked (hends : ∀ rel ∈ relationships, Ends obs rel)
    (h : relationships.foldlM (confirmLink obs days) (unlinked obs relationships) = .ok s) :
    Linked obs relationships s := by
  refine (foldlM_runAt (P := Confirming obs) (fun done rel rest t t' hl ht hstep => ?_)
    confirming_unlinked h).linked
  exact confirmLink_confirming ht (hends rel (by rw [hl]; simp)) hstep

/-! ## Pending observations -/

theorem supersessionLink_allocates (o other : Observed) :
    (supersessionLink o other).allocates = false := rfl

/-- Superseded observations are not open. -/
def Closed (obs : List Observed) (s : Links) : Prop := ∀ i ∈ s.superseded, active (nth obs i) = false

theorem not_active_of_status {o : Observed} (h : o.status ≠ "completed") : active o = false := by
  unfold active
  rw [Bool.and_eq_false_iff]
  exact Or.inl (beq_eq_false_iff_ne.mpr h)

theorem supersedePending_spec (obs : List Observed) (days : Nat) (s : Links) (p : Observed × Nat) :
    (supersedePending obs days s p).parent = s.parent ∧
      (supersedePending obs days s p).consumption = s.consumption ∧
      (supersedePending obs days s p).connected = s.connected ∧
      spendsOf obs (supersedePending obs days s p).relationships = spendsOf obs s.relationships ∧
      ∀ i ∈ (supersedePending obs days s p).superseded,
        i ∈ s.superseded ∨ (i = p.2 ∧ p.1.status ≠ "completed") := by
  unfold supersedePending
  by_cases hsup : p.1.status = "superseded"
  · have hpending : (p.1.status != "pending" || p.1.externalEventId.isNone) = true := by
      rw [hsup]
      rfl
    rw [if_pos (beq_iff_eq.mpr hsup), if_pos hpending]
    refine ⟨rfl, rfl, rfl, rfl, fun i hi => ?_⟩
    rcases mem_cons.mp hi with rfl | hi
    · exact Or.inr ⟨rfl, by rw [hsup]; decide⟩
    · exact Or.inl hi
  · have hnot : (p.1.status == "superseded") = false := beq_eq_false_iff_ne.mpr hsup
    simp only [hnot, Bool.false_eq_true, if_false]
    split
    · exact ⟨rfl, rfl, rfl, rfl, fun i hi => Or.inl hi⟩
    · rename_i hpending
      simp only [Bool.or_eq_true, bne_iff_ne, ne_eq, not_or, Decidable.not_not] at hpending
      split
      · rename_i other _
        refine ⟨rfl, rfl, rfl, spendsOf_snoc_of_not obs _ (supersessionLink_allocates p.1 other),
          fun i hi => ?_⟩
        rcases mem_cons.mp hi with rfl | hi
        · exact Or.inr ⟨rfl, by rw [hpending.1]; decide⟩
        · exact Or.inl hi
      · exact ⟨rfl, rfl, rfl, rfl, fun i hi => Or.inl hi⟩

theorem nth_of_mem_zipIdx {p : Observed × Nat} (h : p ∈ obs.zipIdx) : nth obs p.2 = p.1 := by
  obtain ⟨o, i⟩ := p
  have hget := mem_zipIdx_iff_getElem?.mp h
  unfold nth
  rw [getD_eq_getElem?_getD, hget, Option.getD_some]

/-- **Superseding spends nothing**, and only closes observations that are not completed. -/
theorem supersede_linked (days : Nat) (h : Linked obs s.relationships s) (hclosed : Closed obs s) :
    Linked obs (obs.zipIdx.foldl (supersedePending obs days) s).relationships
        (obs.zipIdx.foldl (supersedePending obs days) s) ∧
      Closed obs (obs.zipIdx.foldl (supersedePending obs days) s) := by
  refine foldl_runAt (P := fun _ t => Linked obs t.relationships t ∧ Closed obs t)
    (fun done p rest t hl ht => ?_) ⟨h, hclosed⟩
  obtain ⟨hparent, hconsumption, hconnected, hrels, hsup⟩ :=
    supersedePending_spec obs days t p
  refine ⟨ht.1.congr hrels hparent hconsumption hconnected, fun i hi => ?_⟩
  rcases hsup i hi with hi | ⟨rfl, hstatus⟩
  · exact ht.2 i hi
  · rw [nth_of_mem_zipIdx (by rw [hl]; simp)]
    exact not_active_of_status hstatus

/-! ## Stable aggregates -/

/-- Observations that a group may use: open, unconnected before, in the request. -/
structure Free (obs : List Observed) (s : Links) (group : List Nat) : Prop where
  inside : ∀ i ∈ group, i < obs.length ∧ active (nth obs i) = true
  untouched : ∀ i ∈ group, i ∉ s.connected

/-- **What funding keeps**, for the sources and targets of a group. -/
structure Funds (obs : List Observed) (sources targets : List Nat) (f : Funding) : Prop where
  linked : Linked obs f.links.relationships f.links
  room : ∀ b ∈ targets, 0 ≤ (f.remaining.get? b).getD 0 ∧
    (f.remaining.get? b).getD 0 + f.links.spent b ≤ budgetOf obs b
  sourceRole : ∀ a ∈ sources, ¬ IsTarget (spendsOf obs f.links.relationships) a
  targetRole : ∀ b ∈ targets, ¬ IsSource (spendsOf obs f.links.relationships) b

theorem aggregateLink_allocates (oa ob : Observed) (amount : Money) :
    (aggregateLink oa ob amount).allocates = true := rfl

theorem Numbered.spendOf_between (h : Numbered obs) {a b : Nat}
    (ha : a < obs.length) (hb : b < obs.length) (hfrom : rel.fromId = (nth obs a).id)
    (hto : rel.toId = (nth obs b).id) {amount : Money} (hamount : rel.allocatedAmount = some amount) :
    spendOf obs rel = ⟨a, b, amount.minorUnits⟩ := by
  unfold spendOf
  rw [hfrom, hto, h.indexOf_nth ha, h.indexOf_nth hb, hamount, Option.elim_some]

theorem isTarget_snoc {links : List (Spend Nat)} {l : Spend Nat} :
    IsTarget (links ++ [l]) i ↔ IsTarget links i ∨ l.target = i := by
  unfold IsTarget
  simp only [mem_append, mem_singleton, or_and_right, exists_or, exists_eq_left]

theorem isSource_snoc {links : List (Spend Nat)} {l : Spend Nat} :
    IsSource (links ++ [l]) i ↔ IsSource links i ∨ l.source = i := by
  unfold IsSource
  simp only [mem_append, mem_singleton, or_and_right, exists_or, exists_eq_left]

/-- What the source at hand still has. -/
def HasRoom (obs : List Observed) (a : Nat) (f : Funding) : Prop :=
  0 ≤ f.unallocated ∧ f.unallocated + f.links.spent a ≤ budgetOf obs a

section

variable {currency : String} {sources targets : List Nat} {f : Funding} {a b : Nat}

/-- The links once `a` has funded `b` with some units. -/
def fundedLinks (obs : List Observed) (currency : String) (s : Links) (a b : Nat) (units : Int) :
    Links :=
  { s with
    connected := b :: a :: s.connected
    parent := union s.parent a b
    consumption := (s.consumption.insert a (s.spent a + units)).insert b (s.spent b + units)
    relationships := s.relationships ++
      [aggregateLink (nth obs a) (nth obs b) ⟨I64.wrap units, currency⟩] }

theorem fundTarget_eq (hab : a ≠ b)
    (hunits : min f.unallocated ((f.remaining.get? b).getD 0) = units) :
    fundTarget obs currency a f b =
      if units = 0 then f
      else
        { links := fundedLinks obs currency f.links a b units
          remaining := f.remaining.insert b ((f.remaining.get? b).getD 0 - units)
          unallocated := f.unallocated - units } := by
  subst hunits
  unfold fundTarget fundedLinks Links.connect Links.spent
  dsimp only
  rw [SortedMap.get?_insert_of_ne _ _ hab]

theorem fundedLinks_spent (obs : List Observed) (currency : String) (s : Links) (hab : a ≠ b) (units : Int) (i : Nat) :
    (fundedLinks obs currency s a b units).spent i =
      s.spent i + (if a = i then units else 0) + if b = i then units else 0 := by
  unfold fundedLinks Links.spent
  rw [get?_insert_two]
  by_cases hbi : b = i
  · subst hbi
    rw [if_pos rfl, if_neg hab, if_pos rfl, Option.getD_some, Int.add_zero]
  · rw [if_neg hbi, if_neg hbi, Int.add_zero]
    by_cases hai : a = i
    · subst hai
      rw [if_pos rfl, if_pos rfl, Option.getD_some]
    · rw [if_neg hai, if_neg hai, Int.add_zero]

theorem Linked.funded (currency : String) (hnum : Numbered obs) (h : Linked obs s.relationships s)
    (hl : Linkable obs s.relationships a b units) (hin : InI64 units) :
    Linked obs (fundedLinks obs currency s a b units).relationships
        (fundedLinks obs currency s a b units) ∧
      spendsOf obs (fundedLinks obs currency s a b units).relationships =
        spendsOf obs s.relationships ++ [⟨a, b, units⟩] := by
  have hrels : spendsOf obs (fundedLinks obs currency s a b units).relationships =
      spendsOf obs s.relationships ++ [⟨a, b, units⟩] := by
    refine (spendsOf_snoc obs _ (aggregateLink_allocates _ _ _)).trans ?_
    rw [hnum.spendOf_between hl.source.1 hl.target.1 rfl rfl rfl]
    exact congrArg (fun n => spendsOf obs s.relationships ++ [⟨a, b, n⟩]) (I64.coe_wrap hin)
  refine ⟨h.connect hl hrels rfl (fundedLinks_spent obs currency s hl.ne units) fun i => ?_, hrels⟩
  unfold fundedLinks
  rw [mem_cons, mem_cons, eq_comm (a := i), eq_comm (a := i)]
  tauto

theorem fundTarget_funds (currency : String) (hnum : Numbered obs) (h : Funds obs sources targets f)
    (hdisjoint : ∀ i ∈ sources, i ∉ targets) (ha : a ∈ sources) (hb : b ∈ targets)
    (hina : a < obs.length ∧ active (nth obs a) = true)
    (hinb : b < obs.length ∧ active (nth obs b) = true) (hroom : HasRoom obs a f) :
    Funds obs sources targets (fundTarget obs currency a f b) ∧
      HasRoom obs a (fundTarget obs currency a f b) ∧
      (fundTarget obs currency a f b).links.superseded = f.links.superseded ∧
      ∀ i ∈ (fundTarget obs currency a f b).links.connected,
        i ∈ f.links.connected ∨ i = a ∨ i = b := by
  have hab : a ≠ b := fun heq => hdisjoint a ha (heq ▸ hb)
  obtain ⟨hrem, hremRoom⟩ := h.room b hb
  obtain ⟨hleft, hleftRoom⟩ := hroom
  generalize hunits : min f.unallocated ((f.remaining.get? b).getD 0) = units
  rw [fundTarget_eq hab hunits]
  split
  · exact ⟨h, ⟨hleft, hleftRoom⟩, rfl, fun i hi => Or.inl hi⟩
  rename_i hzero
  have hspentA := h.linked.counted a
  have hspentB := h.linked.counted b
  have hlinkable : Linkable obs f.links.relationships a b units :=
    { positive := by omega
      ne := hab
      source := hina
      target := hinb
      sourceRoom := by omega
      targetRoom := by omega
      sourceRole := h.sourceRole a ha
      targetRole := h.targetRole b hb }
  have hin : InI64 units := by
    have hmax := I64.le_max (nth obs a).amount.minorUnits
    have hnonneg := h.linked.once.spent_nonneg a
    unfold budgetOf at hleftRoom
    unfold InI64
    omega
  obtain ⟨hlinked, hrels⟩ := h.linked.funded currency hnum hlinkable hin
  have hspent := fundedLinks_spent obs currency f.links hab units
  refine ⟨⟨hlinked, fun i hi => ?_, fun i hi => ?_, fun i hi => ?_⟩, ⟨?_, ?_⟩, rfl, fun i hi => ?_⟩
  · have hai : a ≠ i := fun heq => hdisjoint a ha (heq ▸ hi)
    dsimp only
    rw [SortedMap.get?_insert, hspent, if_neg hai]
    by_cases hbi : b = i
    · subst hbi
      rw [if_pos rfl, if_pos rfl, Option.getD_some]
      omega
    · rw [if_neg hbi, if_neg hbi, Int.add_zero, Int.add_zero]
      exact h.room i hi
  · dsimp only
    rw [hrels, isTarget_snoc]
    rintro (ht | heq)
    · exact h.sourceRole i hi ht
    · exact hdisjoint i hi (heq ▸ hb)
  · dsimp only
    rw [hrels, isSource_snoc]
    rintro (hs | heq)
    · exact h.targetRole i hi hs
    · exact hdisjoint a ha ((show a = i from heq) ▸ hi)
  · dsimp only
    omega
  · dsimp only
    rw [hspent, if_pos rfl, if_neg (Ne.symm hab)]
    omega
  · unfold fundedLinks at hi
    rw [mem_cons, mem_cons] at hi
    tauto

theorem fundFrom_funds (currency : String) (hnum : Numbered obs) (h : Funds obs sources targets f)
    (hdisjoint : ∀ i ∈ sources, i ∉ targets) (ha : a ∈ sources)
    (hinside : ∀ i, i ∈ sources ∨ i ∈ targets → i < obs.length ∧ active (nth obs i) = true)
    (hfree : a ∉ f.links.connected) :
    Funds obs sources targets (fundFrom obs currency targets f a) ∧
      (fundFrom obs currency targets f a).links.superseded = f.links.superseded ∧
      ∀ i ∈ (fundFrom obs currency targets f a).links.connected,
        i ∈ f.links.connected ∨ i = a ∨ i ∈ targets := by
  have hina := hinside a (Or.inl ha)
  have hspent : f.links.spent a = 0 := by
    rw [h.linked.counted, spent_of_not_touched fun ht => hfree ((h.linked.connected a).mpr ht)]
  have hstart : Funds obs sources targets
      { f with unallocated := (nth obs a).amount.minorUnits } :=
    ⟨h.linked, h.room, h.sourceRole, h.targetRole⟩
  have hroom : HasRoom obs a { f with unallocated := (nth obs a).amount.minorUnits } := by
    refine ⟨hnum.budget_nonneg hina.1, ?_⟩
    change ((nth obs a).amount.minorUnits : Int) + f.links.spent a ≤ budgetOf obs a
    rw [hspent, Int.add_zero]
    exact le_refl _
  have hrun : Funds obs sources targets (fundFrom obs currency targets f a) ∧
      HasRoom obs a (fundFrom obs currency targets f a) ∧
      (fundFrom obs currency targets f a).links.superseded = f.links.superseded ∧
      ∀ i ∈ (fundFrom obs currency targets f a).links.connected,
        i ∈ f.links.connected ∨ i = a ∨ i ∈ targets := by
    unfold fundFrom
    refine foldl_runAt (P := fun _ (t : Funding) => Funds obs sources targets t ∧ HasRoom obs a t ∧
      t.links.superseded = f.links.superseded ∧
      ∀ i ∈ t.links.connected, i ∈ f.links.connected ∨ i = a ∨ i ∈ targets)
      (fun done b rest t hl ht => ?_) ⟨hstart, hroom, rfl, fun i hi => Or.inl hi⟩
    have hb : b ∈ targets := by rw [hl]; simp
    obtain ⟨htf, htr, hts, htc⟩ := ht
    obtain ⟨h1, h2, h3, h4⟩ := fundTarget_funds currency hnum htf hdisjoint ha hb hina
      (hinside b (Or.inr hb)) htr
    refine ⟨h1, h2, h3.trans hts, fun i hi => ?_⟩
    rcases h4 i hi with hi | rfl | rfl
    · exact htc i hi
    · exact Or.inr (Or.inl rfl)
    · exact Or.inr (Or.inr hb)
  exact ⟨hrun.1, hrun.2.2⟩

end

theorem fundAll_linked (hnum : Numbered obs) (currency : String) {sources targets : List Nat}
    (h : Linked obs s.relationships s) (hnd : sources.Nodup)
    (hdisjoint : ∀ i ∈ sources, i ∉ targets) (hfree : Free obs s (sources ++ targets)) :
    Linked obs (fundAll obs currency sources targets s).relationships
        (fundAll obs currency sources targets s) ∧
      (fundAll obs currency sources targets s).superseded = s.superseded ∧
      ∀ i ∈ (fundAll obs currency sources targets s).connected,
        i ∈ s.connected ∨ i ∈ sources ++ targets := by
  have huntouched : ∀ i ∈ sources ++ targets, ¬ Touched (spendsOf obs s.relationships) i :=
    fun i hi ht => hfree.untouched i hi ((h.connected i).mpr ht)
  have hinside : ∀ i, i ∈ sources ∨ i ∈ targets → i < obs.length ∧ active (nth obs i) = true :=
    fun i hi => hfree.inside i (mem_append.mpr hi)
  have hstart : Funds obs sources targets ⟨s, SortedMap.ofList (targets.map fun i =>
      (i, ((nth obs i).amount.minorUnits : Int))), 0⟩ := by
    refine ⟨h, fun b hb => ?_, fun i hi ht => ?_, fun i hi hs => ?_⟩
    · have hget := SortedMap.get?_ofList_map
        (f := fun i => ((nth obs i).amount.minorUnits : Int)) hb
      dsimp only
      rw [hget, Option.getD_some, h.counted,
        spent_of_not_touched (huntouched b (mem_append_right _ hb)), Int.add_zero]
      exact ⟨hnum.budget_nonneg (hinside b (Or.inr hb)).1, le_refl _⟩
    · exact huntouched i (mem_append_left _ hi) (Or.inr ht)
    · exact huntouched i (mem_append_right _ hi) (Or.inl hs)
  unfold fundAll
  have hrun := foldl_runAt (f := fundFrom obs currency targets) (l := sources)
    (P := fun done (t : Funding) => Funds obs sources targets t ∧
      t.links.superseded = s.superseded ∧
      ∀ i ∈ t.links.connected, i ∈ s.connected ∨ i ∈ done ∨ i ∈ targets)
    (fun done a rest t hl ht => ?_) ⟨hstart, rfl, fun i hi => Or.inl hi⟩
  · obtain ⟨h1, h2, h3⟩ := hrun
    exact ⟨h1.linked, h2, fun i hi => (h3 i hi).imp_right mem_append.mpr⟩
  · obtain ⟨htf, hts, htc⟩ := ht
    have ha : a ∈ sources := by rw [hl]; simp
    have hnot : a ∉ t.links.connected := by
      intro hmem
      rcases htc a hmem with hmem | hmem | hmem
      · exact hfree.untouched a (mem_append_left _ ha) hmem
      · rw [hl, nodup_append] at hnd
        exact hnd.2.2 a hmem a mem_cons_self rfl
      · exact hdisjoint a ha hmem
    obtain ⟨h1, h2, h3⟩ := fundFrom_funds currency hnum htf hdisjoint ha hinside hnot
    refine ⟨h1, h2.trans hts, fun i hi => ?_⟩
    rcases h3 i hi with hi | rfl | hi
    · rcases htc i hi with hi | hi | hi
      · exact Or.inl hi
      · exact Or.inr (Or.inl (mem_append_left _ hi))
      · exact Or.inr (Or.inr hi)
    · exact Or.inr (Or.inl (by simp))
    · exact Or.inr (Or.inr hi)

theorem aggregate_linked (hnum : Numbered obs) {group : List Nat} (h : Linked obs s.relationships s)
    (hnd : group.Nodup) (hfree : Free obs s group) (hstep : aggregate obs days s group = .ok s') :
    Linked obs s'.relationships s' ∧ s'.superseded = s.superseded ∧
      ∀ i ∈ s'.connected, i ∈ s.connected ∨ i ∈ group := by
  have hstay : s' = s → Linked obs s'.relationships s' ∧ s'.superseded = s.superseded ∧
      ∀ i ∈ s'.connected, i ∈ s.connected ∨ i ∈ group := by
    rintro rfl
    exact ⟨h, rfl, fun i hi => Or.inl hi⟩
  have hfund : ∀ currency, s' = fundAll obs currency (group.filter fun i => !isLedger obs i)
      (group.filter (isLedger obs)) s → Linked obs s'.relationships s' ∧
        s'.superseded = s.superseded ∧ ∀ i ∈ s'.connected, i ∈ s.connected ∨ i ∈ group := by
    rintro currency rfl
    have hsub : ∀ i, i ∈ group.filter (fun i => !isLedger obs i) ++ group.filter (isLedger obs) →
        i ∈ group := by
      intro i hi
      rcases mem_append.mp hi with hi | hi <;> exact (mem_filter.mp hi).1
    have hdisjoint : ∀ i ∈ group.filter (fun i => !isLedger obs i),
        i ∉ group.filter (isLedger obs) := by
      intro i hi hj
      have hkind := (mem_filter.mp hi).2
      rw [(mem_filter.mp hj).2] at hkind
      exact absurd hkind (by decide)
    obtain ⟨h1, h2, h3⟩ := fundAll_linked hnum currency h (hnd.filter _) hdisjoint
      ⟨fun i hi => hfree.inside i (hsub i hi), fun i hi => hfree.untouched i (hsub i hi)⟩
    exact ⟨h1, h2, fun i hi => (h3 i hi).imp_right (hsub i)⟩
  unfold aggregate at hstep
  dsimp only at hstep
  split at hstep
  · exact hstay (ok.inj hstep).symm
  split at hstep
  · exact hstay (ok.inj hstep).symm
  obtain ⟨sourceTotal, -, hstep⟩ := bind_ok.mp hstep
  split at hstep
  · exact hstay (ok.inj hstep).symm
  obtain ⟨targetTotal, -, hstep⟩ := bind_ok.mp hstep
  split at hstep
  · exact hstay (ok.inj hstep).symm
  split at hstep
  · exact hstay (ok.inj hstep).symm
  exact hfund _ (ok.inj hstep).symm

theorem stableGroups_free {connected group : List Nat}
    (h : group ∈ (stableGroups obs connected).values) : group.Nodup ∧
      ∀ i ∈ group, i < obs.length ∧ active (nth obs i) = true ∧ i ∉ connected := by
  obtain ⟨external, hget⟩ := SortedMap.mem_values_iff.mp h
  obtain ⟨-, rfl⟩ := SortedMap.get?_groupOn_eq_some.mp hget
  refine ⟨nodup_range.filter _, fun i hi => ?_⟩
  obtain ⟨hrange, hkey⟩ := mem_filter.mp hi
  rw [decide_eq_true_eq] at hkey
  split at hkey
  · rename_i hopen
    simp only [Bool.and_eq_true, Bool.not_eq_true', contains_eq_mem,
      decide_eq_false_iff_not] at hopen
    exact ⟨mem_range.mp hrange, hopen.1.1, hopen.1.2⟩
  · exact absurd hkey (by simp)

theorem aggregates_linked (hnum : Numbered obs) (h : Linked obs s.relationships s)
    (hrun : (stableGroups obs s.connected).values.foldlM (aggregate obs days) s = .ok s') :
    Linked obs s'.relationships s' ∧ s'.superseded = s.superseded := by
  have hpair := SortedMap.pairwise_groupOn (κ := String) (fun i =>
    if active (nth obs i) && !s.connected.contains i && decide (80 ≤ (nth obs i).reliability) then
      (nth obs i).externalEventId
    else none) (List.range obs.length)
  have hresult := foldlM_runAt (P := fun done (t : Links) => Linked obs t.relationships t ∧
    t.superseded = s.superseded ∧
    ∀ i ∈ t.connected, i ∈ s.connected ∨ ∃ g ∈ done, i ∈ g)
    (fun done group rest t t' hl ht hstep => ?_) ⟨h, rfl, fun i hi => Or.inl hi⟩ hrun
  · exact ⟨hresult.1, hresult.2.1⟩
  · obtain ⟨htl, hts, htc⟩ := ht
    have hmem : group ∈ (stableGroups obs s.connected).values := by rw [hl]; simp
    obtain ⟨hnd, hgroup⟩ := stableGroups_free hmem
    have hfree : Free obs t group := by
      refine ⟨fun i hi => ⟨(hgroup i hi).1, (hgroup i hi).2.1⟩, fun i hi hc => ?_⟩
      rcases htc i hc with hc | ⟨g, hg, hig⟩
      · exact (hgroup i hi).2.2 hc
      · change (stableGroups obs s.connected).values.Pairwise _ at hpair
        rw [hl, pairwise_append] at hpair
        exact hpair.2.2 g hg group mem_cons_self i hig hi
    obtain ⟨h1, h2, h3⟩ := aggregate_linked hnum htl hnd hfree hstep
    refine ⟨h1, h2.trans hts, fun i hi => ?_⟩
    rcases h3 i hi with hi | hi
    · rcases htc i hi with hi | ⟨g, hg, hig⟩
      · exact Or.inl hi
      · exact Or.inr ⟨g, mem_append_left _ hg, hig⟩
    · exact Or.inr ⟨group, by simp, hi⟩

end BalanceFrame.Evidence
