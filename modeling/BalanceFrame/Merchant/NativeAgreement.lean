import BalanceFrame.Merchant.NativeWitness
import Mathlib.Data.Finset.Card

/-!
# One verdict on native rule tables

`Accepted` says which tables stand, in the terms of neither validator. Both decide it
(`validateNativeRuleTables_iff`, `validateNativeTables_iff`), so they agree; and dropping the operands
of an intersection with an empty operand, as both writers do, leaves every set the same blocks
(`canonicalNativeRuleSet_decoded`, `writeAndPartIndexes_decoded`).
-/

namespace BalanceFrame.Merchant

open Library List

/-- Every index is above the one before it. -/
abbrev Ascending (l : List U32) : Prop := adjacent (fun a b => decide (a < b)) l = true

theorem ascending_pairwise : ∀ {l : List U32}, Ascending l → l.Pairwise (· < ·)
  | [], _ => List.Pairwise.nil
  | [a], _ => pairwise_singleton _ a
  | a :: b :: l, h => by
    have h' : decide (a < b) = true ∧ Ascending (b :: l) := by
      simpa only [Ascending, adjacent, Bool.and_eq_true] using h
    obtain ⟨hab, hrest⟩ := h'
    have hab := of_decide_eq_true hab
    have hpairs := ascending_pairwise hrest
    refine pairwise_cons.mpr ⟨fun c hc => ?_, hpairs⟩
    rcases mem_cons.mp hc with rfl | hc
    · exact hab
    · exact hab.trans (rel_of_pairwise_cons hpairs hc)

/-! ## Accepted tables -/

/-- A block that stands. -/
structure BlockAccepted (block : List String) : Prop where
  nonempty : block ≠ []
  texts : "" ∉ block
  ordered : adjacent utf8Before block = true

/-- A part that stands. -/
structure PartAccepted (blocks : Nat) (part : List U32) : Prop where
  nonempty : part ≠ []
  size : part.length ≤ blocks
  present : ∀ i ∈ part, i.val < blocks
  ascending : Ascending part

/-- A set that stands. -/
structure SetAccepted (parts : List (List U32)) (s : NativeRuleSet) : Prop where
  union : s.orPartIndexes.length ≤ 4
  unionAscending : Ascending s.orPartIndexes
  operands : s.andPartIndexes = [] ∨ s.andPartIndexes.length = 4
  pairs : ∀ o ∈ s.andPartIndexes, o.length ≤ 2
  operandsAscending : ∀ o ∈ s.andPartIndexes, Ascending o
  category : s.categoryPartIndex.val < parts.length
  unionPresent : ∀ i ∈ s.orPartIndexes, i.val < parts.length
  operandsPresent : ∀ o ∈ s.andPartIndexes, ∀ i ∈ o, i.val < parts.length
  classifies : s.decoded parts ≠ []

/-- Tables that stand. -/
structure Accepted (t : NativeRuleTables) (used : List U32) : Prop where
  blocks : ∀ b ∈ t.nativeRuleBlocks, BlockAccepted b
  disjoint : t.nativeRuleBlocks.flatten.Nodup
  bound : t.nativeRuleParts.length ≤ 13 * t.nativeRuleSets.length
  parts : ∀ p ∈ t.nativeRuleParts, PartAccepted t.nativeRuleBlocks.length p
  present : ∀ i ∈ used, i.val < t.nativeRuleSets.length
  everySet : ∀ k < t.nativeRuleSets.length, ∃ i ∈ used, i.val = k
  sets : ∀ s ∈ t.nativeRuleSets, SetAccepted t.nativeRuleParts s

variable {blocks : Nat} {parts : List (List U32)} {s : NativeRuleSet} {part used : List U32}

theorem shaped_of_accepted
    (hparts : ∀ p ∈ parts, PartAccepted blocks p) (hunion : s.orPartIndexes.length ≤ 4)
    (hoperands : s.andPartIndexes = [] ∨ s.andPartIndexes.length = 4)
    (hpairs : ∀ o ∈ s.andPartIndexes, o.length ≤ 2) : Shaped parts s :=
  ⟨fun p hp => ascending_pairwise (hparts p hp).ascending, hunion, hoperands, hpairs⟩

/-! ## In TypeScript -/

theorem nativeRuleBlockSchema_iff {block : List String} :
    nativeRuleBlockSchema block = true ↔ BlockAccepted block := by
  have horder : nativeIdBefore = utf8Before := by
    funext left right
    exact nativeIdBefore_eq left right
  unfold nativeRuleBlockSchema
  rw [horder]
  simp only [Bool.and_eq_true, List.all_eq_true, bne_iff_ne, decide_eq_true_eq]
  constructor
  · rintro ⟨⟨htexts, hsome⟩, hordered⟩
    refine ⟨fun h => ?_, fun h => htexts "" h rfl, hordered⟩
    rw [h] at hsome
    simp at hsome
  · rintro ⟨hsome, htexts, hordered⟩
    refine ⟨⟨fun id hid h => htexts (h ▸ hid), ?_⟩, hordered⟩
    exact length_pos_iff.mpr hsome

theorem noteId_foldl : ∀ (ids met : List String) (issues : List String),
    (ids.foldl noteId (met, issues)).2 = [] ↔
      issues = [] ∧ ids.Nodup ∧ ∀ id ∈ ids, id ∉ met
  | [], met, issues => by simp
  | id :: ids, met, issues => by
    rw [foldl_cons, noteId, noteId_foldl, nodup_cons, forall_mem_cons]
    simp only [contains_iff_mem, mem_cons, not_or]
    by_cases hmet : id ∈ met
    · simp [hmet]
    · simp only [hmet, if_false, not_false_iff, true_and]
      constructor
      · rintro ⟨hissues, hnd, hnot⟩
        exact ⟨hissues, ⟨fun h => (hnot id h).1 rfl, hnd⟩, fun x hx => (hnot x hx).2⟩
      · rintro ⟨hissues, ⟨hid, hnd⟩, hnot⟩
        exact ⟨hissues, hnd, fun x hx => ⟨fun h => hid (h ▸ hx), hnot x hx⟩⟩

theorem checkPart_iff : checkPart blocks part = [] ↔ PartAccepted blocks part := by
  unfold checkPart
  split
  · rename_i hbad
    refine iff_of_false (by simp) fun h => ?_
    simp only [Bool.or_eq_true, beq_iff_eq, decide_eq_true_eq, any_eq_true,
      Bool.not_eq_true'] at hbad
    rcases hbad with ((hempty | hsize) | ⟨i, hi, hmissing⟩) | horder
    · exact h.nonempty (length_eq_zero_iff.mp hempty)
    · exact absurd h.size (not_le.mpr hsize)
    · exact absurd (h.present i hi) (not_lt.mpr hmissing)
    · exact absurd (horder.symm.trans h.ascending) Bool.false_ne_true
  · rename_i hgood
    refine iff_of_true rfl ?_
    simp only [Bool.or_eq_true, beq_iff_eq, decide_eq_true_eq, any_eq_true,
      Bool.not_eq_true', not_or, not_exists, not_and, not_lt, not_le,
      Bool.not_eq_false] at hgood
    obtain ⟨⟨⟨hsome, hsize⟩, hpresent⟩, hascending⟩ := hgood
    exact ⟨fun h => hsome (by rw [h]; rfl), hsize, hpresent, hascending⟩

theorem usedSets_iff (sets : Nat) (used : List U32) :
    ((used.filter fun i => decide (i.val < sets)).dedup.length = sets) ↔
      ∀ k < sets, ∃ i ∈ used, i.val = k := by
  set present := used.filter fun i => decide (i.val < sets) with hpresent
  have hmem : ∀ i, i ∈ present ↔ i ∈ used ∧ i.val < sets := fun i => by
    simp [hpresent, mem_filter]
  have hsub : present.toFinset.image Fin.val ⊆ Finset.range sets := by
    intro k hk
    obtain ⟨i, hi, rfl⟩ := Finset.mem_image.mp hk
    exact Finset.mem_range.mpr ((hmem i).mp (mem_toFinset.mp hi)).2
  have hcard : (present.toFinset.image Fin.val).card = present.dedup.length := by
    rw [Finset.card_image_of_injective _ Fin.val_injective, card_toFinset]
  constructor
  · intro hlen k hk
    have heq := Finset.eq_of_subset_of_card_le hsub (by rw [hcard, hlen, Finset.card_range])
    obtain ⟨i, hi, hik⟩ := Finset.mem_image.mp (heq ▸ Finset.mem_range.mpr hk)
    exact ⟨i, ((hmem i).mp (mem_toFinset.mp hi)).1, hik⟩
  · intro hevery
    have heq : present.toFinset.image Fin.val = Finset.range sets := by
      refine Finset.Subset.antisymm hsub fun k hk => ?_
      have hk := Finset.mem_range.mp hk
      obtain ⟨i, hi, rfl⟩ := hevery k hk
      exact Finset.mem_image.mpr ⟨i, mem_toFinset.mpr ((hmem i).mpr ⟨hi, hk⟩), rfl⟩
    rw [← hcard, heq, Finset.card_range]

theorem nativeRuleSetSchema_iff :
    nativeRuleSetSchema s = true ↔ (Ascending s.orPartIndexes ∧ s.orPartIndexes.length ≤ 4) ∧
      (∀ o ∈ s.andPartIndexes, Ascending o ∧ o.length ≤ 2) ∧
        (s.andPartIndexes = [] ∨ s.andPartIndexes.length = 4) := by
  unfold nativeRuleSetSchema partReferences
  simp only [Bool.and_eq_true, decide_eq_true_eq, List.all_eq_true, Bool.or_eq_true, beq_iff_eq,
    length_eq_zero_iff, and_assoc]

theorem checkSet_iff
    (hparts : ∀ p ∈ parts, PartAccepted blocks p) (hschema : nativeRuleSetSchema s = true) :
    checkSet true parts s = [] ↔ SetAccepted parts s := by
  obtain ⟨⟨hunion, hfour⟩, hpairs, hoperands⟩ := nativeRuleSetSchema_iff.mp hschema
  have hshaped := shaped_of_accepted hparts hfour hoperands fun o ho => (hpairs o ho).2
  have hwitness := nativeRuleSetHasWitness_iff hshaped
  have hshape : (decide (4 < s.orPartIndexes.length) ||
      (s.andPartIndexes.length != 0 && s.andPartIndexes.length != 4) ||
      s.andPartIndexes.any (fun o => decide (2 < o.length))) = false := by
    simp only [Bool.or_eq_false_iff, decide_eq_false_iff_not, not_lt, Bool.and_eq_false_iff,
      bne_eq_false_iff_eq, any_eq_false, decide_eq_true_eq, length_eq_zero_iff]
    exact ⟨⟨hfour, hoperands⟩, fun o ho => (hpairs o ho).2⟩
  unfold checkSet
  dsimp only
  rw [hshape, if_neg Bool.false_ne_true]
  split
  · rename_i hmissing
    refine iff_of_false (by simp) fun h => ?_
    simp only [Bool.or_eq_true, Bool.not_eq_true', decide_eq_false_iff_not, all_eq_false,
      decide_eq_true_eq] at hmissing
    rcases hmissing with (hcategory | ⟨i, hi, hlt⟩) | ⟨o, ho, hall⟩
    · exact hcategory h.category
    · exact hlt (h.unionPresent i hi)
    · exact hall (List.all_eq_true.mpr fun i hi => decide_eq_true (h.operandsPresent o ho i hi))
  · rename_i hpresent
    simp only [Bool.or_eq_true, Bool.not_eq_true', not_or, Bool.not_eq_false, decide_eq_true_eq,
      List.all_eq_true] at hpresent
    obtain ⟨⟨hcategory, hor⟩, hand⟩ := hpresent
    split
    · rename_i hempty
      refine iff_of_false (by simp) fun h => ?_
      rw [Bool.true_and, Bool.not_eq_true'] at hempty
      exact Bool.false_ne_true (hempty.symm.trans (hwitness.mpr h.classifies))
    · rename_i hfound
      rw [Bool.true_and, Bool.not_eq_true', Bool.not_eq_false] at hfound
      refine iff_of_true rfl ?_
      exact ⟨hfour, hunion, hoperands, fun o ho => (hpairs o ho).2, fun o ho => (hpairs o ho).1,
        hcategory, hor, hand, hwitness.mp hfound⟩

theorem SetAccepted.schema (h : SetAccepted parts s) : nativeRuleSetSchema s = true :=
  nativeRuleSetSchema_iff.mpr ⟨⟨h.unionAscending, h.union⟩,
    fun o ho => ⟨h.operandsAscending o ho, h.pairs o ho⟩, h.operands⟩

theorem partIssues_iff :
    parts.flatMap (checkPart blocks) = [] ↔ ∀ p ∈ parts, PartAccepted blocks p := by
  rw [flatMap_eq_nil_iff]
  exact forall₂_congr fun p _ => checkPart_iff

theorem PartAccepted.schema (h : PartAccepted blocks part) : nativeRulePartSchema part = true := by
  unfold nativeRulePartSchema partReferences
  rw [h.ascending, Bool.true_and, decide_eq_true_iff]
  exact length_pos_iff.mpr h.nonempty

theorem validateNativeRuleTables_iff (t : NativeRuleTables) (used : List U32) :
    (validateNativeRuleTables t used).isSome = true ↔ Accepted t used := by
  have hissues : ∀ hparts : ∀ p ∈ t.nativeRuleParts, PartAccepted t.nativeRuleBlocks.length p,
      (checkNativeRuleTables t used = [] ↔ t.nativeRuleBlocks.flatten.Nodup ∧
        t.nativeRuleParts.length ≤ 13 * t.nativeRuleSets.length ∧
        (∀ i ∈ used, i.val < t.nativeRuleSets.length) ∧
        (∀ k < t.nativeRuleSets.length, ∃ i ∈ used, i.val = k) ∧
        ∀ s ∈ t.nativeRuleSets, checkSet true t.nativeRuleParts s = []) := by
    intro hparts
    unfold checkNativeRuleTables
    dsimp only
    rw [partIssues_iff.mpr hparts]
    simp only [append_eq_nil_iff, noteId_foldl, flatMap_eq_nil_iff, ite_eq_right_iff,
      cons_ne_nil, imp_false, not_lt, not_le, bne_iff_ne, ne_eq, not_not, usedSets_iff,
      not_mem_nil, not_false_iff, implies_true, true_and, and_true, isEmpty_nil, and_assoc]
  unfold validateNativeRuleTables
  split
  · rename_i hgood
    rw [Option.isSome_some]
    refine iff_of_true rfl ?_
    simp only [Bool.and_eq_true, List.all_eq_true, List.isEmpty_iff] at hgood
    obtain ⟨⟨⟨hblocks, -⟩, hsets⟩, hchecked⟩ := hgood
    have hparts : ∀ p ∈ t.nativeRuleParts, PartAccepted t.nativeRuleBlocks.length p := by
      refine partIssues_iff.mp ?_
      simp only [checkNativeRuleTables, append_eq_nil_iff] at hchecked
      exact hchecked.1.1.1.2
    obtain ⟨hdisjoint, hbound, hpresent, hevery, hset⟩ := (hissues hparts).mp hchecked
    exact ⟨fun b hb => nativeRuleBlockSchema_iff.mp (hblocks b hb), hdisjoint, hbound, hparts,
      hpresent, hevery, fun s hs => (checkSet_iff hparts (hsets s hs)).mp (hset s hs)⟩
  · rename_i hbad
    refine iff_of_false (by simp) fun h => hbad ?_
    simp only [Bool.and_eq_true, List.all_eq_true, List.isEmpty_iff]
    refine ⟨⟨⟨fun b hb => nativeRuleBlockSchema_iff.mpr (h.blocks b hb),
      fun p hp => (h.parts p hp).schema⟩, fun s hs => (h.sets s hs).schema⟩, ?_⟩
    refine (hissues h.parts).mpr ⟨h.disjoint, h.bound, h.present, h.everySet, fun s hs => ?_⟩
    exact (checkSet_iff h.parts (h.sets s hs).schema).mpr (h.sets s hs)

/-! ## In Rust -/

theorem validateBlock_iff {block : List String} :
    validateBlock block = .ok () ↔ BlockAccepted block := by
  unfold validateBlock
  rw [reject_ok]
  simp only [Bool.or_eq_false_iff, isEmpty_eq_false_iff, any_eq_false, beq_iff_eq,
    Bool.not_eq_false']
  constructor
  · rintro ⟨⟨hsome, htexts⟩, hordered⟩
    exact ⟨hsome, fun h => htexts "" h rfl, hordered⟩
  · rintro ⟨hsome, htexts, hordered⟩
    exact ⟨⟨hsome, fun id hid h => htexts (h ▸ hid)⟩, hordered⟩

theorem insertId_ok {ids ids' : List String} {id : String} :
    insertId ids id = .ok ids' ↔ ids' = id :: ids ∧ id ∉ ids ∧ True := by
  unfold insertId
  rw [check_bind_ok, reject_ok, pure_ok, Except.ok.injEq, ← Bool.not_eq_true,
    contains_iff_mem, and_true, and_comm, eq_comm]

theorem validateBlockIds_ok : ∀ {blocks : List (List String)} {ids ids' : List String},
    blocks.foldlM validateBlockIds ids = .ok ids' ↔ ids' = blocks.flatten.reverse ++ ids ∧
      (∀ b ∈ blocks, BlockAccepted b) ∧ blocks.flatten.Nodup ∧ ∀ id ∈ blocks.flatten, id ∉ ids
  | [], ids, ids' => by
    rw [foldlM_nil, pure_ok, Except.ok.injEq]
    simp [eq_comm]
  | block :: blocks, ids, ids' => by
    have hstep : ∀ met, validateBlockIds ids block = .ok met ↔ met = block.reverse ++ ids ∧
        BlockAccepted block ∧ block.Nodup ∧ ∀ id ∈ block, id ∉ ids := by
      intro met
      have hinsert : block.foldlM insertId ids = .ok met ↔ _ :=
        foldlM_distinct (f := insertId) id (fun _ => True) fun _ _ _ => insertId_ok
      unfold validateBlockIds
      rw [check_bind_ok, validateBlock_iff, hinsert, map_id, and_left_comm]
      simp
    rw [foldlM_cons_ok, flatten_cons, reverse_append, append_assoc,
      forall_mem_cons, nodup_append]
    simp only [hstep, mem_append, or_imp, forall_and]
    constructor
    · rintro ⟨met, ⟨rfl, hblock, hnd, hnot⟩, hrest⟩
      obtain ⟨rfl, hblocks, hnds, hnots⟩ := validateBlockIds_ok.mp hrest
      refine ⟨rfl, ⟨hblock, hblocks⟩, ⟨hnd, hnds, fun a ha b hb hab => ?_⟩, hnot, fun id hid hmem => ?_⟩
      · exact hnots b hb (mem_append_left _ (mem_reverse.mpr (hab ▸ ha)))
      · exact hnots id hid (mem_append_right _ hmem)
    · rintro ⟨rfl, ⟨hblock, hblocks⟩, ⟨hnd, hnds, hdisjoint⟩, hnot, hnots⟩
      refine ⟨_, ⟨rfl, hblock, hnd, hnot⟩, validateBlockIds_ok.mpr ⟨rfl, hblocks, hnds, ?_⟩⟩
      intro id hid hmem
      rcases mem_append.mp hmem with hmem | hmem
      · exact hdisjoint id (mem_reverse.mp hmem) id hid rfl
      · exact hnots id hid hmem

theorem validatePart_iff : validatePart part = .ok () ∧
      reject (decide (blocks < part.length) || part.any fun i => decide (blocks ≤ i.val))
        "native_part_block_index" = .ok () ↔ PartAccepted blocks part := by
  unfold validatePart
  simp only [reject_ok, Bool.or_eq_false_iff, isEmpty_eq_false_iff,
    Bool.not_eq_false', decide_eq_false_iff_not, not_lt, any_eq_false, decide_eq_true_eq, not_le]
  constructor
  · rintro ⟨⟨hsome, hascending⟩, hsize, hpresent⟩
    exact ⟨hsome, hsize, hpresent, hascending⟩
  · rintro ⟨hsome, hsize, hpresent, hascending⟩
    exact ⟨⟨hsome, hascending⟩, hsize, hpresent⟩

theorem markUsed_ok {referenced referenced' : List Bool} {index : U32} :
    markUsed referenced index = .ok referenced' ↔
      index.val < referenced.length ∧ referenced' = referenced.set index.val true := by
  unfold markUsed
  rw [check_bind_ok, reject_ok, pure_ok, Except.ok.injEq, decide_eq_false_iff_not, not_le,
    eq_comm (a := referenced')]

theorem foldlM_markUsed : ∀ {used : List U32} {referenced referenced' : List Bool},
    used.foldlM markUsed referenced = .ok referenced' →
      referenced'.length = referenced.length ∧ (∀ i ∈ used, i.val < referenced.length) ∧
        ∀ k < referenced.length, referenced'[k]? = some true ↔
          referenced[k]? = some true ∨ ∃ i ∈ used, i.val = k
  | [], referenced, referenced', h => by
    rw [foldlM_nil, pure_ok] at h
    cases h
    simp
  | index :: used, referenced, referenced', h => by
    obtain ⟨met, hmet, h⟩ := foldlM_cons_ok.mp h
    obtain ⟨hlt, rfl⟩ := markUsed_ok.mp hmet
    obtain ⟨hlen, hall, hmarked⟩ := foldlM_markUsed h
    rw [length_set] at hlen hall hmarked
    refine ⟨hlen, forall_mem_cons.mpr ⟨hlt, hall⟩, fun k hk => ?_⟩
    rw [hmarked k hk, getElem?_set, exists_mem_cons_iff]
    by_cases hik : index.val = k
    · simp [hik, hk]
    · simp [hik]

theorem foldlM_markUsed_total {referenced : List Bool}
    (h : ∀ i ∈ used, i.val < referenced.length) :
    ∃ referenced', used.foldlM markUsed referenced = .ok referenced' := by
  have htotal := foldlM_total (P := fun r : List Bool => r.length = referenced.length)
    (f := markUsed) (l := used) (fun r i hi hr => ⟨r.set i.val true,
      markUsed_ok.mpr ⟨hr ▸ h i hi, rfl⟩, by rw [length_set, hr]⟩) (b := referenced) rfl
  obtain ⟨r, hr, -⟩ := htotal
  exact ⟨r, hr⟩

theorem markUsed_iff {sets : Nat} :
    (∃ referenced, used.foldlM markUsed (List.replicate sets false) = .ok referenced ∧
      referenced.all id = true) ↔
      (∀ i ∈ used, i.val < sets) ∧ ∀ k < sets, ∃ i ∈ used, i.val = k := by
  constructor
  · rintro ⟨referenced, h, hall⟩
    obtain ⟨hlen, hpresent, hmarked⟩ := foldlM_markUsed h
    rw [length_replicate] at hlen hpresent hmarked
    refine ⟨hpresent, fun k hk => ?_⟩
    have hkl : k < referenced.length := hlen ▸ hk
    have htrue : referenced[k]? = some true := by
      rw [getElem?_eq_getElem hkl]
      exact congrArg some (List.all_eq_true.mp hall _ (getElem_mem hkl))
    rcases (hmarked k hk).mp htrue with hfalse | hused
    · simp [hk] at hfalse
    · exact hused
  · rintro ⟨hpresent, hevery⟩
    have hlens : ∀ i ∈ used, i.val < (List.replicate sets false).length := by
      simpa using hpresent
    obtain ⟨referenced, h⟩ := foldlM_markUsed_total hlens
    obtain ⟨hlen, -, hmarked⟩ := foldlM_markUsed h
    rw [length_replicate] at hlen hmarked
    refine ⟨referenced, h, List.all_eq_true.mpr fun b hb => ?_⟩
    obtain ⟨k, hkl, rfl⟩ := mem_iff_getElem.mp hb
    have htrue := (hmarked k (hlen ▸ hkl)).mpr (.inr (hevery k (hlen ▸ hkl)))
    rw [getElem?_eq_getElem hkl] at htrue
    exact Option.some.inj htrue

theorem validateSet_iff :
    validateSet s = .ok () ↔ (Ascending s.orPartIndexes ∧ s.orPartIndexes.length ≤ 4) ∧
      (∀ o ∈ s.andPartIndexes, Ascending o ∧ o.length ≤ 2) ∧
        (s.andPartIndexes = [] ∨ s.andPartIndexes.length = 4) := by
  unfold validateSet
  rw [reject_ok]
  simp only [Bool.not_eq_false', Bool.and_eq_true, decide_eq_true_eq, List.all_eq_true,
    Bool.or_eq_true, beq_iff_eq, List.isEmpty_iff]
  constructor
  · rintro ⟨⟨⟨hfour, hascending⟩, hoperands⟩, hpairs⟩
    exact ⟨⟨hascending, hfour⟩, fun o ho => (hpairs o ho).symm, hoperands⟩
  · rintro ⟨⟨hascending, hfour⟩, hpairs, hoperands⟩
    exact ⟨⟨⟨hfour, hascending⟩, hoperands⟩, fun o ho => (hpairs o ho).symm⟩

theorem validateSet_steps (hparts : ∀ p ∈ parts, PartAccepted blocks p) :
    (do
      validateSet s
      reject (!(decide (s.categoryPartIndex.val < parts.length) &&
        (s.orPartIndexes ++ s.andPartIndexes.flatten).all
          fun i => decide (i.val < parts.length))) "native_set_part_index"
      reject (!nativeSetHasWitness s parts) "native_empty_classified_expression" :
        Except String Unit) = .ok () ↔ SetAccepted parts s := by
  simp only [check_bind_ok, reject_ok, validateSet_iff, Bool.not_eq_false', Bool.and_eq_true,
    decide_eq_true_eq, List.all_eq_true, mem_append, mem_flatten]
  constructor
  · rintro ⟨⟨⟨hunion, hfour⟩, hpairs, hoperands⟩, ⟨hcategory, hpresent⟩, hfound⟩
    have hshaped := shaped_of_accepted hparts hfour hoperands fun o ho => (hpairs o ho).2
    exact ⟨hfour, hunion, hoperands, fun o ho => (hpairs o ho).2, fun o ho => (hpairs o ho).1,
      hcategory, fun i hi => hpresent i (.inl hi), fun o ho i hi => hpresent i (.inr ⟨o, ho, hi⟩),
      (nativeSetHasWitness_iff hshaped).mp hfound⟩
  · intro h
    have hshaped := shaped_of_accepted hparts h.union h.operands h.pairs
    refine ⟨⟨⟨h.unionAscending, h.union⟩,
      fun o ho => ⟨h.operandsAscending o ho, h.pairs o ho⟩, h.operands⟩, ⟨h.category, ?_⟩,
      (nativeSetHasWitness_iff hshaped).mpr h.classifies⟩
    rintro i (hi | ⟨o, ho, hi⟩)
    · exact h.unionPresent i hi
    · exact h.operandsPresent o ho i hi

theorem validateNativeTables_iff (t : NativeRuleTables) (used : List U32) :
    validateNativeTables t used = .ok () ↔ Accepted t used := by
  unfold validateNativeTables
  rw [check_bind_ok, reject_ok, decide_eq_false_iff_not, not_lt, bind_ok]
  simp only [validateBlockIds_ok, check_bind_ok, forM_eq_ok, validatePart_iff]
  constructor
  · rintro ⟨hbound, -, ⟨-, hblocks, hdisjoint, -⟩, hparts, hmarks⟩
    obtain ⟨referenced, hmarked, hrest⟩ := bind_ok.mp hmarks
    obtain ⟨hall, hsets⟩ := check_bind_ok.mp hrest
    rw [reject_ok, Bool.not_eq_false'] at hall
    obtain ⟨hpresent, hevery⟩ := markUsed_iff.mp ⟨referenced, hmarked, hall⟩
    refine ⟨hblocks, hdisjoint, by omega, hparts, hpresent, hevery, fun s hs => ?_⟩
    exact (validateSet_steps hparts).mp (forM_eq_ok.mp hsets s hs)
  · intro h
    obtain ⟨referenced, hmarked, hall⟩ := markUsed_iff.mpr ⟨h.present, h.everySet⟩
    have hbound := h.bound
    refine ⟨by omega, _, ⟨rfl, h.blocks, h.disjoint, by simp⟩, h.parts,
      bind_ok.mpr ⟨referenced, hmarked, check_bind_ok.mpr ⟨?_, ?_⟩⟩⟩
    · rw [reject_ok, hall]
      rfl
    · exact forM_eq_ok.mpr fun s hs => (validateSet_steps h.parts).mpr (h.sets s hs)

/-! ## Both -/

/-- **Dropping operands leaves a set its blocks**, in TypeScript. -/
theorem canonicalNativeRuleSet_decoded (parts : List (List U32)) (s : NativeRuleSet) :
    (canonicalNativeRuleSet s).decoded parts = s.decoded parts := by
  unfold canonicalNativeRuleSet
  split
  · rename_i hempty
    obtain ⟨o, ho, hlen⟩ := any_eq_true.mp hempty
    have ho' : o = [] := length_eq_zero_iff.mp (beq_iff_eq.mp hlen)
    have hnone : ∀ block, (s.andPartIndexes.all fun o => inOperand parts o block) = false := by
      intro block
      exact all_eq_false.mpr ⟨o, ho, by rw [ho']; exact Bool.false_ne_true⟩
    simp [NativeRuleSet.decoded, hnone]
  · rfl

theorem writeAndPartIndexes_eq (s : NativeRuleSet) :
    writeAndPartIndexes s = canonicalNativeRuleSet s := by
  have hempty : (List.isEmpty : List U32 → Bool) = fun o => o.length == 0 := by
    funext o
    cases o <;> rfl
  unfold writeAndPartIndexes canonicalNativeRuleSet
  rw [hempty]

theorem validateNativeRuleTables_some {t t' : NativeRuleTables}
    (h : validateNativeRuleTables t used = some t') : t' = canonicalNativeRuleTables t := by
  unfold validateNativeRuleTables at h
  split at h
  · exact (Option.some.inj h).symm
  · cases h

/-- **Both languages accept the same tables**, their searches find the same on them, and neither
rewriting changes what a set stands for. -/
theorem native_tables_agree (t : NativeRuleTables) (used : List U32) :
    ((validateNativeRuleTables t used).isSome = true ↔ validateNativeTables t used = .ok ()) ∧
      (∀ t', validateNativeRuleTables t used = some t' →
        t'.nativeRuleSets.map (NativeRuleSet.decoded t'.nativeRuleParts) =
          t.nativeRuleSets.map (NativeRuleSet.decoded t.nativeRuleParts)) ∧
      (validateNativeTables t used = .ok () → ∀ s ∈ t.nativeRuleSets,
        nativeRuleSetHasWitness s t.nativeRuleParts = nativeSetHasWitness s t.nativeRuleParts ∧
          (canonicalNativeRuleSet s).decoded t.nativeRuleParts = s.decoded t.nativeRuleParts ∧
          (writeAndPartIndexes s).decoded t.nativeRuleParts = s.decoded t.nativeRuleParts) := by
  refine ⟨?_, fun t' ht' => ?_, fun hok s hs => ⟨?_, canonicalNativeRuleSet_decoded _ s, ?_⟩⟩
  · rw [validateNativeRuleTables_iff, validateNativeTables_iff]
  · rw [validateNativeRuleTables_some ht', canonicalNativeRuleTables, map_map]
    exact map_congr_left fun s _ => canonicalNativeRuleSet_decoded _ s
  · have h := (validateNativeTables_iff t used).mp hok
    have hset := h.sets s hs
    have hshaped := shaped_of_accepted h.parts hset.union hset.operands hset.pairs
    rw [Bool.eq_iff_iff, nativeRuleSetHasWitness_iff hshaped, nativeSetHasWitness_iff hshaped]
  · rw [writeAndPartIndexes_eq, canonicalNativeRuleSet_decoded]

def householdTables : NativeRuleTables where
  nativeRuleBlocks := [["coffee", "tea"], ["rent"]]
  nativeRuleParts := [[first], [first, second]]
  nativeRuleSets := [⟨[first], [], second⟩,
    ⟨[], [[first, second], [second], [second], [first]], second⟩]
where
  first : U32 := ⟨0, by decide⟩
  second : U32 := ⟨1, by decide⟩

def householdUsed : List U32 := [⟨1, by decide⟩, ⟨0, by decide⟩]

/-- These tables stand, so both languages accept them. -/
theorem native_tables_agree_household :
    validateNativeTables householdTables householdUsed = .ok () ∧
      (validateNativeRuleTables householdTables householdUsed).isSome = true ∧
      ∀ s ∈ householdTables.nativeRuleSets,
        nativeRuleSetHasWitness s householdTables.nativeRuleParts =
          nativeSetHasWitness s householdTables.nativeRuleParts := by
  have hok : validateNativeTables householdTables householdUsed = .ok () := by decide
  obtain ⟨hiff, -, hsets⟩ := native_tables_agree householdTables householdUsed
  exact ⟨hok, hiff.mpr hok, fun s hs => (hsets hok s hs).1⟩

end BalanceFrame.Merchant
