import BalanceFrame.Governance.Authority

/-!
# The common pass of a batch

A batch checks no restriction while it walks over the rights required: it collects them
(`checkRights_batch`), and it leaves evidence uncovered (`checkCoverage_batch`). `imposed` are the
restrictions a right is held under; `granted_iff` ties it to a single evaluation.
-/

namespace BalanceFrame.Governance

open Library List

/-- The restrictions that a right is held under; `none` where it is not held. -/
def imposed (db : GovernanceDb) (input : AuthorizationInput) (budgetId : Option String)
    (acting : Acting) (ref : ResourceRef) (capability : String) :
    Option (List ResourceGrantRestrictions) := do
  let right := delegatedRight acting ref capability
  let grant ← db.currentGrant acting.principalActorId input.spaceId acting.member.id budgetId ref
    capability
  if acting.delegation.isSome && right.isNone then none
  else some (grant.restrictions :: (right.bind (·.restrictions)).toList)

section Rights

variable {db : GovernanceDb} {input : AuthorizationInput} {budgetId : Option String}
  {acting : Acting} {p : PreparedPayload} {deny : String → Denial}

theorem evidenceRestrictions_eq (evidenceId capability : String) :
    evidenceRestrictions db input budgetId acting evidenceId capability =
      imposed db input budgetId acting ⟨.evidence, evidenceId⟩ capability := rfl

theorem imposed_eq_some {ref : ResourceRef} {capability : String}
    {l : List ResourceGrantRestrictions} :
    imposed db input budgetId acting ref capability = some l ↔
      (acting.delegation.isSome && (delegatedRight acting ref capability).isNone) = false ∧
        ∃ grant, db.currentGrant acting.principalActorId input.spaceId acting.member.id budgetId ref
            capability = some grant ∧
          l = grant.restrictions ::
            ((delegatedRight acting ref capability).bind (·.restrictions)).toList := by
  unfold imposed
  simp only [Option.bind_eq_bind, Option.bind_eq_some_iff]
  cases hright : (acting.delegation.isSome && (delegatedRight acting ref capability).isNone) with
  | true => simp
  | false => simp [eq_comm]

variable {required : RequiredRef} {resources : List ResourceRef}

theorem granted_iff : Granted db input budgetId p acting required ↔
      ∃ l, imposed db input budgetId acting required.toResourceRef required.capability = some l ∧
        ∀ r ∈ l, restrictionsAllow r input p (visibilityOf input required) .operation = true := by
  have hright : (acting.delegation.isSome = true →
      (delegatedRight acting required.toResourceRef required.capability).isSome = true) ↔
      (acting.delegation.isSome &&
        (delegatedRight acting required.toResourceRef required.capability).isNone) = false := by
    cases acting.delegation.isSome <;>
      cases delegatedRight acting required.toResourceRef required.capability <;> simp
  simp only [imposed_eq_some, Granted, hright]
  constructor
  · rintro ⟨hheld, grant, hgrant, hallow⟩
    exact ⟨_, ⟨hheld, grant, hgrant, rfl⟩, hallow⟩
  · rintro ⟨_, ⟨hheld, grant, hgrant, rfl⟩, hallow⟩
    exact ⟨hheld, grant, hgrant, hallow⟩

/-- What a restriction adds to those met. -/
def meet (common : CommonRestrictions) (c : Option Visibility × ResourceGrantRestrictions) :
    CommonRestrictions :=
  if common.contains c then common else common ++ [c]

theorem mem_meet {common : CommonRestrictions}
    {c d : Option Visibility × ResourceGrantRestrictions} :
    d ∈ meet common c ↔ d ∈ common ∨ d = c := by
  unfold meet
  split
  · next h =>
    have hmem := contains_iff_mem.mp h
    constructor
    · exact .inl
    · rintro (h | rfl)
      · exact h
      · exact hmem
  · rw [mem_append, mem_singleton]

theorem checkRestriction_batch {visibility : Option Visibility} (common : CommonRestrictions)
    (r : ResourceGrantRestrictions) :
    checkRestriction input .operation true p none visibility deny common r =
      .ok (meet common (visibility, r)) := by
  simp only [checkRestriction, meet, Option.any_none, reject_false, ok_bind, Bool.not_true,
    Bool.false_and]
  split <;> rfl

theorem foldlM_checkRestriction_batch (input : AuthorizationInput) (p : PreparedPayload)
    (deny : String → Denial) (visibility : Option Visibility) :
    ∀ (l : List ResourceGrantRestrictions) (common : CommonRestrictions), ∃ common',
      l.foldlM (checkRestriction input .operation true p none visibility deny) common =
          .ok common' ∧
        ∀ c, c ∈ common' ↔ c ∈ common ∨ ∃ r ∈ l, c = (visibility, r)
  | [], common => ⟨common, rfl, fun c => by simp⟩
  | r :: l, common => by
    obtain ⟨common', hfold, hmem⟩ :=
      foldlM_checkRestriction_batch input p deny visibility l (meet common (visibility, r))
    refine ⟨common', ?_, fun c => ?_⟩
    · rw [foldlM_cons, checkRestriction_batch, ok_bind, hfold]
    · rw [hmem, mem_meet, exists_mem_cons_iff, or_assoc]

theorem checkRight_batch {common common' : CommonRestrictions}
    (h : checkRight db input .operation true none budgetId p acting deny common required =
      .ok common') :
    ∃ l, imposed db input budgetId acting required.toResourceRef required.capability = some l ∧
      ∀ c, c ∈ common' ↔ c ∈ common ∨ ∃ r ∈ l, c = (visibilityOf input required, r) := by
  simp only [checkRight, bind_ok, reject_ok, orStop_ok, disclosureOf,
    Option.map_none] at h
  obtain ⟨-, hright, grant, hgrant, h⟩ := h
  obtain ⟨c, hc, hmem⟩ := foldlM_checkRestriction_batch input p deny
    (visibilityOf input required) _ common
  rw [h] at hc
  cases hc
  exact ⟨_, imposed_eq_some.mpr ⟨hright, grant, hgrant, rfl⟩, hmem⟩

theorem checkRight_batch_total (p : PreparedPayload) (deny : String → Denial)
    (common : CommonRestrictions)
    {l : List ResourceGrantRestrictions}
    (h : imposed db input budgetId acting required.toResourceRef required.capability = some l) :
    ∃ common', checkRight db input .operation true none budgetId p acting deny common required =
      .ok common' := by
  obtain ⟨hright, grant, hgrant, -⟩ := imposed_eq_some.mp h
  simp only [checkRight, hright, reject_false, ok_bind, hgrant, orStop_some, disclosureOf,
    Option.map_none]
  obtain ⟨c, hc, -⟩ := foldlM_checkRestriction_batch input p deny
    (visibilityOf input required) _ common
  exact ⟨c, hc⟩

/-- **What the common pass of a batch collects**: the restrictions of every right required. -/
theorem checkRights_batch :
    ∀ {required : List RequiredRef} {common common' : CommonRestrictions},
      required.foldlM (checkRight db input .operation true none budgetId p acting deny) common =
        .ok common' →
      (∀ q ∈ required, (imposed db input budgetId acting q.toResourceRef q.capability).isSome) ∧
        ∀ c, c ∈ common' ↔ c ∈ common ∨ ∃ q ∈ required, ∃ l,
          imposed db input budgetId acting q.toResourceRef q.capability = some l ∧
            ∃ r ∈ l, c = (visibilityOf input q, r)
  | [], common, common', h => by
    cases h
    exact ⟨fun q hq => absurd hq not_mem_nil, fun c => by simp⟩
  | q :: required, common, common', h => by
    obtain ⟨d, hstep, h⟩ := foldlM_cons_ok.mp h
    obtain ⟨l, hl, hd⟩ := checkRight_batch hstep
    obtain ⟨hheld, hmem⟩ := checkRights_batch h
    refine ⟨forall_mem_cons.mpr ⟨by rw [hl]; rfl, hheld⟩, fun c => ?_⟩
    have hhead : (∃ l', imposed db input budgetId acting q.toResourceRef q.capability = some l' ∧
        ∃ r ∈ l', c = (visibilityOf input q, r)) ↔ ∃ r ∈ l, c = (visibilityOf input q, r) := by
      rw [hl]
      simp
    rw [hmem, hd, exists_mem_cons_iff, hhead, or_assoc]

theorem checkRights_batch_total (p : PreparedPayload) (deny : String → Denial)
    {required : List RequiredRef}
    (h : ∀ q ∈ required, (imposed db input budgetId acting q.toResourceRef q.capability).isSome) :
    ∃ common, required.foldlM (checkRight db input .operation true none budgetId p acting deny) [] =
      .ok common := by
  obtain ⟨common, hcommon, -⟩ := foldlM_total (P := fun _ => True)
    (f := checkRight db input .operation true none budgetId p acting deny) (l := required)
    (fun b q hq _ => by
      obtain ⟨l, hl⟩ := Option.isSome_iff_exists.mp (h q hq)
      obtain ⟨b', hb'⟩ := checkRight_batch_total p deny b hl
      exact ⟨b', hb', trivial⟩) (b := []) trivial
  exact ⟨common, hcommon⟩

variable {version : Option String}

theorem checkCoverage_batch {uncovered : List String}
    (h : checkCoverage input true version resources = .ok uncovered) :
    uncovered.Nodup ∧ (∀ r ∈ resources, isCovered input r = true ∨ r.resourceKind = .evidence) ∧
      ∀ id, id ∈ uncovered ↔
        (⟨.evidence, id⟩ : ResourceRef) ∈ resources ∧ isCovered input ⟨.evidence, id⟩ = false := by
  refine foldlM_run (P := fun (done : List ResourceRef) (uncovered : List String) =>
    uncovered.Nodup ∧ (∀ r ∈ done, isCovered input r = true ∨ r.resourceKind = .evidence) ∧
      ∀ id, id ∈ uncovered ↔
        (⟨.evidence, id⟩ : ResourceRef) ∈ done ∧ isCovered input ⟨.evidence, id⟩ = false) ?_
    ⟨nodup_nil, fun r hr => absurd hr not_mem_nil, fun id => by simp⟩ h
  rintro done u u' ⟨kind, id⟩ ⟨hnodup, hdone, hmem⟩ hstep
  unfold coverResource at hstep
  split at hstep
  · next hcov =>
    cases hstep
    refine ⟨hnodup, fun r hr => ?_, fun k => ?_⟩
    · rcases mem_append.mp hr with hr | hr
      · exact hdone r hr
      · rw [mem_singleton.mp hr]
        exact .inl hcov
    · rw [hmem, mem_append, mem_singleton]
      constructor
      · exact fun ⟨hin, hnot⟩ => ⟨.inl hin, hnot⟩
      · rintro ⟨hin | heq, hnot⟩
        · exact ⟨hin, hnot⟩
        · rw [heq, hcov] at hnot
          cases hnot
  · next hcov =>
    split at hstep
    · next hkind =>
      simp only [Bool.true_and, decide_eq_true_eq] at hkind
      subst hkind
      cases hstep
      have hnot : isCovered input ⟨.evidence, id⟩ = false := by simpa using hcov
      refine ⟨?_, fun r hr => ?_, fun k => ?_⟩
      · split
        · exact hnodup
        · next hnew =>
          refine nodup_append.mpr ⟨hnodup, nodup_singleton id, ?_⟩
          rintro a ha b hb rfl
          rw [mem_singleton] at hb
          subst hb
          exact hnew (contains_iff_mem.mpr ha)
      · rcases mem_append.mp hr with hr | hr
        · exact hdone r hr
        · rw [mem_singleton.mp hr]
          exact .inr rfl
      · have hset : k ∈ (if u.contains id = true then u else u ++ [id]) ↔ k ∈ u ∨ k = id := by
          split
          · next hin =>
            have hin := contains_iff_mem.mp hin
            constructor
            · exact .inl
            · rintro (h | rfl)
              · exact h
              · exact hin
          · rw [mem_append, mem_singleton]
        rw [hset, hmem, mem_append, mem_singleton, ResourceRef.mk.injEq]
        constructor
        · rintro (⟨hin, hk⟩ | rfl)
          · exact ⟨.inl hin, hk⟩
          · exact ⟨.inr ⟨rfl, rfl⟩, hnot⟩
        · rintro ⟨hin | ⟨-, rfl⟩, hk⟩
          · exact .inl ⟨hin, hk⟩
          · exact .inr rfl
    · cases hstep

theorem checkCoverage_batch_total (version : Option String)
    (h : ∀ r ∈ resources, isCovered input r = true ∨ r.resourceKind = .evidence) :
    ∃ uncovered, checkCoverage input true version resources = .ok uncovered := by
  obtain ⟨u, hu, -⟩ := foldlM_total (P := fun _ => True)
    (f := coverResource input true version) (l := resources)
    (fun u r hr _ => by
      unfold coverResource
      split
      · exact ⟨u, rfl, trivial⟩
      · next hcov =>
        have hkind := (h r hr).resolve_left hcov
        rw [if_pos (by simp [hkind])]
        exact ⟨_, rfl, trivial⟩) (b := []) trivial
  exact ⟨u, hu⟩

theorem uncovered_only {uncovered : List String}
    (h : checkCoverage input true version resources = .ok uncovered) (key : String) :
    (uncovered.isEmpty || uncovered == [key]) = true ↔
      ∀ r ∈ resources, isCovered input r = true ∨ r = ⟨.evidence, key⟩ := by
  obtain ⟨hnodup, hevidence, hmem⟩ := checkCoverage_batch h
  rw [Bool.or_eq_true, List.isEmpty_iff, beq_iff_eq]
  constructor
  · intro hu r hr
    by_cases hcov : isCovered input r = true
    · exact .inl hcov
    · have hkind := (hevidence r hr).resolve_left hcov
      obtain ⟨kind, id⟩ := r
      subst hkind
      have hid : id ∈ uncovered := (hmem id).mpr ⟨hr, by simpa using hcov⟩
      rcases hu with rfl | rfl
      · exact absurd hid not_mem_nil
      · rw [mem_singleton] at hid
        subst hid
        exact .inr rfl
  · intro hall
    have hkey : ∀ id ∈ uncovered, id = key := by
      intro id hid
      obtain ⟨hin, hnot⟩ := (hmem id).mp hid
      rcases hall _ hin with hcov | heq
      · rw [hnot] at hcov
        cases hcov
      · exact (ResourceRef.mk.inj heq).2
    cases uncovered with
    | nil => exact .inl rfl
    | cons id rest =>
      refine .inr ?_
      have hrest : rest = [] := by
        rw [eq_nil_iff_forall_not_mem]
        intro x hx
        have hx' := hkey x (mem_cons_of_mem id hx)
        have hid := hkey id mem_cons_self
        rw [hx', ← hid] at hx
        exact (nodup_cons.mp hnodup).1 hx
      rw [hrest, hkey id mem_cons_self]

end Rights

end BalanceFrame.Governance
