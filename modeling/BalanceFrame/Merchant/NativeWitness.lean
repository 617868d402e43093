import BalanceFrame.Merchant.NativeTables

/-!
# The witness searches of native rule sets

Both searches step through their domains in rounds, one candidate each, until one matches.
-/

namespace BalanceFrame.Merchant

open Library List

variable {d : WitnessDomain} {index : U32} {o : List U32}

/-! ## Rounds -/

/-- The candidates of a domain. -/
def WitnessDomain.Has (d : WitnessDomain) (index : U32) : Prop := index ∈ d.first ∨ index ∈ d.second

/-- Some candidate matches. -/
def WitnessDomain.Offers (isMatch : WitnessDomain → U32 → Bool) (d : WitnessDomain) : Prop :=
  ∃ index, d.Has index ∧ isMatch d index = true

def WitnessDomain.size (d : WitnessDomain) : Nat := d.first.length + d.second.length

theorem WitnessDomain.next_none (h : d.next = none) (index : U32) : ¬d.Has index := by
  unfold WitnessDomain.next at h
  rcases d with ⟨_ | ⟨a, l⟩, _ | ⟨b, m⟩, other, kind, cost⟩
  · simp [Has]
  · cases h
  · cases h
  · cases h

theorem WitnessDomain.next_some {d' : WitnessDomain} (h : d.next = some (index, d')) :
    (∀ i, d.Has i ↔ i = index ∨ d'.Has i) ∧ d'.size < d.size ∧ d'.kind = d.kind ∧
      d'.other = d.other := by
  unfold WitnessDomain.next at h
  rcases d with ⟨_ | ⟨a, l⟩, _ | ⟨b, m⟩, other, kind, cost⟩
  · cases h
  · simp only [head?_nil, head?_cons, Option.some.injEq, Prod.mk.injEq] at h
    obtain ⟨rfl, rfl⟩ := h
    simp [Has, size]
  · simp only [head?_nil, head?_cons, Option.some.injEq, Prod.mk.injEq] at h
    obtain ⟨rfl, rfl⟩ := h
    simp [Has, size]
  · simp only [head?_cons, Option.some.injEq, Prod.mk.injEq] at h
    obtain ⟨rfl, rfl⟩ := h
    rcases lt_trichotomy a b with hab | rfl | hba
    · have hmin : min a b = a := min_eq_left hab.le
      simp [Has, size, hmin, hab.ne', or_assoc]
    · simp [Has, size]
      refine ⟨fun i => by tauto, by omega⟩
    · have hmin : min a b = b := min_eq_right hba.le
      simp [Has, size, hmin, hba.ne']
      intro i
      tauto

section Rounds

variable {isMatch : WitnessDomain → U32 → Bool}

/-- Whether an index matches is a matter of kind and other list. -/
def Steady (isMatch : WitnessDomain → U32 → Bool) : Prop :=
  ∀ d d' : WitnessDomain, d'.kind = d.kind → d'.other = d.other → isMatch d' = isMatch d

theorem offers_next {d' : WitnessDomain} (hsteady : Steady isMatch)
    (h : d.next = some (index, d')) :
    d.Offers isMatch ↔ isMatch d' index = true ∨ d'.Offers isMatch := by
  obtain ⟨hhas, -, hkind, hother⟩ := WitnessDomain.next_some h
  have hmatch := hsteady d d' hkind hother
  unfold WitnessDomain.Offers
  rw [hmatch]
  constructor
  · rintro ⟨i, hi, hm⟩
    rcases (hhas i).mp hi with rfl | hi
    · exact .inl hm
    · exact .inr ⟨i, hi, hm⟩
  · rintro (hm | ⟨i, hi, hm⟩)
    · exact ⟨index, (hhas index).mpr (.inl rfl), hm⟩
    · exact ⟨i, (hhas i).mpr (.inr hi), hm⟩

theorem candidatesLeft_cons (d : WitnessDomain) (domains : List WitnessDomain) :
    candidatesLeft (d :: domains) = d.size + candidatesLeft domains := by
  simp [candidatesLeft, WitnessDomain.size]

/-- What one round finds, and what it leaves. -/
structure Round (isMatch : WitnessDomain → U32 → Bool) (domains : List WitnessDomain)
    (r : Bool × Bool × List WitnessDomain) : Prop where
  found : r.1 = true → ∃ d ∈ domains, d.Offers isMatch
  left : r.1 = false → ((∃ d ∈ domains, d.Offers isMatch) ↔ ∃ d ∈ r.2.2, d.Offers isMatch)
  shrinks : r.1 = false → candidatesLeft r.2.2 ≤ candidatesLeft domains ∧
    (r.2.1 = true → candidatesLeft r.2.2 < candidatesLeft domains)
  exhausted : r.1 = false → r.2.1 = false → ¬∃ d ∈ domains, d.Offers isMatch

theorem searchRound_spec (hsteady : Steady isMatch) :
    ∀ domains, Round isMatch domains (searchRound isMatch domains)
  | [] => ⟨nofun, fun _ => Iff.rfl, fun _ => ⟨le_refl _, nofun⟩, fun _ _ => by simp⟩
  | d :: rest => by
    have ih := searchRound_spec hsteady rest
    unfold searchRound
    cases hnext : d.next with
    | none =>
      have hnot : ¬d.Offers isMatch := fun ⟨i, hi, _⟩ => WitnessDomain.next_none hnext i hi
      refine ⟨fun h => ?_, fun h => ?_, fun h => ?_, fun h h' => ?_⟩
      · obtain ⟨x, hx, ho⟩ := ih.found h
        exact ⟨x, mem_cons_of_mem _ hx, ho⟩
      · simp only [exists_mem_cons_iff]
        rw [ih.left h]
      · rw [candidatesLeft_cons, candidatesLeft_cons]
        obtain ⟨hle, hlt⟩ := ih.shrinks h
        exact ⟨by omega, fun ha => by have := hlt ha; omega⟩
      · simp only [exists_mem_cons_iff]
        rintro (ho | ho)
        · exact hnot ho
        · exact ih.exhausted h h' ho
    | some step =>
      obtain ⟨index, d'⟩ := step
      have hoffers := offers_next hsteady hnext
      obtain ⟨-, hsize, -, -⟩ := WitnessDomain.next_some hnext
      dsimp only
      split
      · rename_i hmatch
        exact ⟨fun _ => ⟨d, mem_cons_self, hoffers.mpr (.inl hmatch)⟩, nofun, nofun, nofun⟩
      · rename_i hmatch
        have hd : d.Offers isMatch ↔ d'.Offers isMatch := by
          rw [hoffers]
          simp [hmatch]
        refine ⟨fun h => ?_, fun h => ?_, fun h => ?_, fun _ h' => by cases h'⟩
        · obtain ⟨x, hx, ho⟩ := ih.found h
          exact ⟨x, mem_cons_of_mem _ hx, ho⟩
        · simp only [exists_mem_cons_iff]
          rw [ih.left h, hd]
        · rw [candidatesLeft_cons, candidatesLeft_cons]
          obtain ⟨hle, -⟩ := ih.shrinks h
          exact ⟨by omega, fun _ => by omega⟩

theorem searchRounds_iff (hsteady : Steady isMatch) : ∀ (fuel : Nat) (domains : List WitnessDomain),
    candidatesLeft domains < fuel →
      (searchRounds isMatch fuel domains = true ↔ ∃ d ∈ domains, d.Offers isMatch)
  | fuel + 1, domains, hfuel => by
    have hround := searchRound_spec hsteady domains
    unfold searchRounds
    dsimp only
    split
    · rename_i hfound
      simpa using hround.found hfound
    · rename_i hfound
      rw [Bool.not_eq_true] at hfound
      split
      · rename_i hadvanced
        have hlt := (hround.shrinks hfound).2 hadvanced
        rw [searchRounds_iff hsteady fuel _ (by omega), ← hround.left hfound]
      · rename_i hadvanced
        simpa using hround.exhausted hfound (by simpa using hadvanced)

theorem candidatesLeft_perm {domains domains' : List WitnessDomain} (h : domains.Perm domains') :
    candidatesLeft domains = candidatesLeft domains' :=
  (h.map _).sum_eq

theorem searchDomains_iff (hsteady : Steady isMatch) (domains : List WitnessDomain) :
    searchDomains isMatch domains = true ↔ ∃ d ∈ domains, d.Offers isMatch := by
  have hperm := perm_sortOn (fun d : WitnessDomain => toLex (d.cost, d.kind)) domains
  unfold searchDomains
  rw [searchRounds_iff hsteady]
  · simp only [hperm.mem_iff]
  · rw [candidatesLeft_perm hperm]
    omega

end Rounds

/-! ## Binary search -/

/-- All before `start` are too small, and all from `stop` on are not. -/
structure Between (values : List U32) (index : U32) (start stop : Nat) : Prop where
  order : start ≤ stop
  size : stop ≤ values.length
  below : ∀ k v, k < start → values[k]? = some v → v < index
  above : ∀ k v, stop ≤ k → values[k]? = some v → index ≤ v

theorem containsFrom_spec {values : List U32} (hsorted : values.Pairwise (· < ·)) :
    ∀ (fuel start stop : Nat), Between values index start stop → stop - start ≤ fuel →
      Between values index (containsFrom values index fuel start stop)
        (containsFrom values index fuel start stop)
  | 0, start, stop, h, hfuel => by
    obtain rfl : start = stop := by
      have := h.order
      omega
    exact h
  | fuel + 1, start, stop, h, hfuel => by
    have hsize := h.size
    unfold containsFrom
    split
    · rename_i hlt
      have hmiddle : start + (stop - start) / 2 < values.length := by omega
      have hget : values.getD (start + (stop - start) / 2) 0 =
          values[start + (stop - start) / 2] := by
        rw [getD_eq_getElem?_getD, getElem?_eq_getElem hmiddle, Option.getD_some]
      dsimp only
      rw [hget]
      have hpairs := pairwise_iff_getElem.mp hsorted
      split
      · rename_i hsmall
        refine containsFrom_spec hsorted fuel _ _ ⟨by omega, hsize, fun k v hk hv => ?_, h.above⟩
          (by omega)
        obtain ⟨hkl, rfl⟩ := List.getElem?_eq_some_iff.mp hv
        rcases Nat.lt_or_ge k (start + (stop - start) / 2) with hk' | hk'
        · exact (hpairs k _ hkl hmiddle hk').trans hsmall
        · obtain rfl : k = start + (stop - start) / 2 := by omega
          exact hsmall
      · rename_i hlarge
        refine containsFrom_spec hsorted fuel _ _ ⟨by omega, by omega, h.below, fun k v hk hv => ?_⟩
          (by omega)
        obtain ⟨hkl, rfl⟩ := List.getElem?_eq_some_iff.mp hv
        rcases Nat.lt_or_ge (start + (stop - start) / 2) k with hk' | hk'
        · exact (not_lt.mp hlarge).trans (hpairs _ k hmiddle hkl hk').le
        · obtain rfl : k = start + (stop - start) / 2 := by omega
          exact not_lt.mp hlarge
    · obtain rfl : start = stop := by
        have := h.order
        omega
      exact h

theorem containsIndex_iff {values : List U32} (hsorted : values.Pairwise (· < ·)) (index : U32) :
    containsIndex values index = true ↔ index ∈ values := by
  have hstart : Between values index 0 values.length :=
    ⟨Nat.zero_le _, le_refl _, fun k v hk => absurd hk (Nat.not_lt_zero k), fun k v hk hv => by
      rw [getElem?_eq_none hk] at hv
      cases hv⟩
  have h := containsFrom_spec hsorted values.length 0 values.length hstart (by omega)
  unfold containsIndex
  generalize containsFrom values index values.length 0 values.length = p at h
  rw [beq_iff_eq]
  constructor
  · exact mem_of_getElem?
  · intro hmem
    obtain ⟨k, hk⟩ := mem_iff_getElem?.mp hmem
    rcases lt_trichotomy k p with hlt | rfl | hgt
    · exact absurd (h.below k index hlt hk) (lt_irrefl _)
    · exact hk
    · obtain ⟨hkl, hkv⟩ := List.getElem?_eq_some_iff.mp hk
      have hpl : p < values.length := by omega
      have hp := h.above p values[p] (le_refl _) (getElem?_eq_getElem hpl)
      have hpk := pairwise_iff_getElem.mp hsorted p k hpl hkl hgt
      rw [hkv] at hpk
      exact absurd hpk (not_lt.mpr hp)

/-! ## Sets -/

/-- What both validators ask of a set before its witness is searched. -/
structure Shaped (parts : List (List U32)) (s : NativeRuleSet) : Prop where
  sorted : ∀ part ∈ parts, part.Pairwise (· < ·)
  union : s.orPartIndexes.length ≤ 4
  operands : s.andPartIndexes = [] ∨ s.andPartIndexes.length = 4
  pairs : ∀ o ∈ s.andPartIndexes, o.length ≤ 2

section Sets

variable {parts : List (List U32)} {s : NativeRuleSet} {isMatch : WitnessDomain → U32 → Bool}

theorem partAt_sorted (h : ∀ part ∈ parts, part.Pairwise (· < ·)) (index : U32) :
    (partAt parts index).Pairwise (· < ·) := by
  unfold partAt
  rw [getD_eq_getElem?_getD]
  cases hp : parts[index.val]? with
  | none => exact List.Pairwise.nil
  | some part => exact h part (mem_of_getElem? hp)

theorem inOperand_iff {operand : List U32} :
    inOperand parts operand index = true ↔ ∃ r ∈ operand, index ∈ partAt parts r := by
  simp [inOperand]

/-- In the category and in every operand. -/
def Joined (parts : List (List U32)) (s : NativeRuleSet) (index : U32) : Prop :=
  index ∈ partAt parts s.categoryPartIndex ∧
    ∀ o ∈ s.andPartIndexes, inOperand parts o index = true

theorem decoded_ne_nil : s.decoded parts ≠ [] ↔
    (∃ i ∈ partAt parts s.categoryPartIndex, inOperand parts s.orPartIndexes i = true) ∨
      s.andPartIndexes.length = 4 ∧ ∃ i, Joined parts s i := by
  unfold NativeRuleSet.decoded Joined
  rw [Ne, filter_eq_nil_iff]
  push Not
  simp only [Bool.or_eq_true, Bool.and_eq_true, beq_iff_eq, all_eq_true]
  constructor
  · rintro ⟨i, hi, hor | ⟨hfour, hand⟩⟩
    · exact .inl ⟨i, hi, hor⟩
    · exact .inr ⟨hfour, i, hi, hand⟩
  · rintro (⟨i, hi, hor⟩ | ⟨hfour, i, hi, hand⟩)
    · exact ⟨i, hi, .inl hor⟩
    · exact ⟨i, hi, .inr ⟨hfour, hand⟩⟩

theorem not_joined_of_empty (ho : o ∈ s.andPartIndexes) (hempty : o = []) (i : U32) :
    ¬Joined parts s i := by
  rintro ⟨-, hall⟩
  have := hall o ho
  rw [hempty] at this
  cases this

/-! ### The domains of the union -/

theorem orDomain_kind (category : List U32) (kind : Nat) (reference : U32) :
    (orDomain parts category kind reference).kind = kind := by
  unfold orDomain
  dsimp only
  split <;> rfl

theorem orDomain_common (category : List U32) (kind : Nat) (reference i : U32) :
    (orDomain parts category kind reference).Has i ∧ i ∈ (orDomain parts category kind reference).other ↔
      i ∈ category ∧ i ∈ partAt parts reference := by
  unfold orDomain WitnessDomain.Has
  dsimp only
  split
  · simp [and_comm]
  · simp

theorem mem_orDomains (hd : d ∈ orDomains parts s) :
    ∃ k reference, s.orPartIndexes[k]? = some reference ∧
      d = orDomain parts (partAt parts s.categoryPartIndex) k reference := by
  obtain ⟨k, hk, rfl⟩ := mem_mapIdx.mp hd
  exact ⟨k, _, getElem?_eq_getElem hk, rfl⟩

theorem orDomains_kind (hs : Shaped parts s) (hd : d ∈ orDomains parts s) : d.kind < 4 := by
  obtain ⟨k, reference, hk, rfl⟩ := mem_orDomains hd
  obtain ⟨hlt, -⟩ := List.getElem?_eq_some_iff.mp hk
  rw [orDomain_kind]
  exact hlt.trans_le hs.union

theorem orDomains_sorted (hs : Shaped parts s) (hd : d ∈ orDomains parts s) :
    d.other.Pairwise (· < ·) := by
  obtain ⟨k, reference, -, rfl⟩ := mem_orDomains hd
  unfold orDomain
  dsimp only
  split
  · exact partAt_sorted hs.sorted _
  · exact partAt_sorted hs.sorted _

theorem orDomains_offer
    (hmatch : ∀ d ∈ orDomains parts s, ∀ i, isMatch d i = true ↔ i ∈ d.other) :
    (∃ d ∈ orDomains parts s, d.Offers isMatch) ↔
      ∃ i ∈ partAt parts s.categoryPartIndex, inOperand parts s.orPartIndexes i = true := by
  constructor
  · rintro ⟨d, hd, i, hi, hm⟩
    have hother := (hmatch d hd i).mp hm
    obtain ⟨k, reference, hk, rfl⟩ := mem_orDomains hd
    obtain ⟨hcategory, hpart⟩ := (orDomain_common _ k reference i).mp ⟨hi, hother⟩
    exact ⟨i, hcategory, inOperand_iff.mpr ⟨reference, mem_of_getElem? hk, hpart⟩⟩
  · rintro ⟨i, hcategory, hor⟩
    obtain ⟨reference, hr, hpart⟩ := inOperand_iff.mp hor
    obtain ⟨k, hk, hkr⟩ := mem_iff_getElem.mp hr
    have hd : orDomain parts (partAt parts s.categoryPartIndex) k reference ∈ orDomains parts s :=
      mem_mapIdx.mpr ⟨k, hk, by rw [hkr]⟩
    obtain ⟨hi, hother⟩ := (orDomain_common _ k reference i).mpr ⟨hcategory, hpart⟩
    exact ⟨_, hd, i, hi, (hmatch _ hd i).mpr hother⟩

/-! ### The domain of the intersection -/

theorem categoryDomain_offers
    (hmatch : ∀ d, d.kind = 4 → ∀ i, isMatch d i = true ↔ Joined parts s i) :
    (categoryDomain (partAt parts s.categoryPartIndex)).Offers isMatch ↔ ∃ i, Joined parts s i := by
  have h := hmatch (categoryDomain (partAt parts s.categoryPartIndex)) rfl
  constructor
  · rintro ⟨i, -, hm⟩
    exact ⟨i, (h i).mp hm⟩
  · rintro ⟨i, hj⟩
    exact ⟨i, .inl hj.1, (h i).mpr hj⟩

theorem operandDomain_has (hpair : o.length ≤ 2) {cost : Nat} {i : U32}
    (hi : inOperand parts o i = true) : (operandDomain parts o cost).Has i := by
  obtain ⟨r, hr, hpart⟩ := inOperand_iff.mp hi
  unfold operandDomain WitnessDomain.Has
  rcases o with _ | ⟨a, _ | ⟨b, _ | ⟨c, o⟩⟩⟩
  · cases hr
  · obtain rfl := mem_singleton.mp hr
    exact .inl hpart
  · rcases mem_pair.mp hr with rfl | rfl
    · exact .inl hpart
    · exact .inr hpart
  · simp at hpair

theorem operandDomain_offers (hmatch : ∀ d, d.kind = 4 → ∀ i, isMatch d i = true ↔ Joined parts s i)
    (ho : o ∈ s.andPartIndexes) (hpair : o.length ≤ 2) (cost : Nat) :
    (operandDomain parts o cost).Offers isMatch ↔ ∃ i, Joined parts s i := by
  have h := hmatch (operandDomain parts o cost) rfl
  constructor
  · rintro ⟨i, -, hm⟩
    exact ⟨i, (h i).mp hm⟩
  · rintro ⟨i, hj⟩
    exact ⟨i, operandDomain_has hpair (hj.2 o ho), (h i).mpr hj⟩

theorem emptyDomain_offers : ¬emptyDomain.Offers isMatch := by
  rintro ⟨i, hi, -⟩
  simp [emptyDomain, WitnessDomain.Has] at hi

/-! ### Both searches -/

theorem shortestOperand_mem {category : List U32} {operands : List (List U32)}
    (h : (shortestOperand parts category operands).1 = some o) : o ∈ operands := by
  unfold shortestOperand at h
  have hkeep : ∀ (l : List (List U32)) (best : Option (List U32) × Nat),
      (l.foldl (fun best operand => if operandSize parts operand < best.2 then
        (some operand, operandSize parts operand) else best) best).1 = some o →
        best.1 = some o ∨ o ∈ l := by
    intro l
    induction l with
    | nil => exact fun best h => .inl h
    | cons a l ih =>
      intro best h
      rw [foldl_cons] at h
      rcases ih _ h with h | h
      · split at h
        · cases h
          exact .inr mem_cons_self
        · exact .inl h
      · exact .inr (mem_cons_of_mem _ h)
  rcases hkeep operands _ h with h | h
  · cases h
  · exact h

theorem minOperand_mem {operands : List (List U32)} {best : List U32 × Nat}
    (h : minOperand parts operands = some best) : best.1 ∈ operands := by
  cases operands with
  | nil => cases h
  | cons operand rest =>
    have hkeep : ∀ (l : List (List U32)) (best : List U32 × Nat),
        (l.foldl (fun best o => if operandSize parts o < best.2 then (o, operandSize parts o)
          else best) best).1 ∈ best.1 :: l := by
      intro l
      induction l with
      | nil => exact fun best => mem_cons_self
      | cons a l ih =>
        intro best
        rw [foldl_cons]
        rcases mem_cons.mp (ih (if operandSize parts a < best.2 then (a, operandSize parts a)
          else best)) with h | h
        · rw [h]
          split
          · exact mem_cons_of_mem _ mem_cons_self
          · exact mem_cons_self
        · exact mem_cons_of_mem _ (mem_cons_of_mem _ h)
    cases h
    exact hkeep rest _

theorem andDomain_offers (hs : Shaped parts s)
    (hmatch : ∀ d, d.kind = 4 → ∀ i, isMatch d i = true ↔ Joined parts s i) :
    (andDomain parts (partAt parts s.categoryPartIndex) s.andPartIndexes).Offers isMatch ↔
      ∃ i, Joined parts s i := by
  unfold andDomain
  split
  · exact categoryDomain_offers hmatch
  · rename_i o cost hshort
    have ho := shortestOperand_mem (congrArg Prod.fst hshort)
    exact operandDomain_offers hmatch ho (hs.pairs o ho) cost

theorem joined_four (hs : Shaped parts s) (hand : s.andPartIndexes ≠ []) :
    s.andPartIndexes.length = 4 :=
  hs.operands.resolve_left hand

/-- **In TypeScript, a witness is found iff the set stands for some block.** -/
theorem nativeRuleSetHasWitness_iff (hs : Shaped parts s) :
    nativeRuleSetHasWitness s parts = true ↔ s.decoded parts ≠ [] := by
  unfold nativeRuleSetHasWitness
  dsimp only
  set isMatch : WitnessDomain → U32 → Bool := fun d index =>
    if d.kind < 4 then containsIndex d.other index
    else containsIndex (partAt parts s.categoryPartIndex) index && s.andPartIndexes.all fun operand =>
      operand.any fun reference => containsIndex (partAt parts reference) index with hisMatch
  have hsteady : Steady isMatch := by
    intro d d' hkind hother
    funext i
    simp only [hisMatch, hkind, hother]
  have hor : ∀ d ∈ orDomains parts s, ∀ i, isMatch d i = true ↔ i ∈ d.other := by
    intro d hd i
    simp only [hisMatch, orDomains_kind hs hd, if_true]
    exact containsIndex_iff (orDomains_sorted hs hd) i
  have hjoined : ∀ d, d.kind = 4 → ∀ i, isMatch d i = true ↔ Joined parts s i := by
    intro d hd i
    simp only [hisMatch, hd, lt_irrefl, if_false, Bool.and_eq_true, all_eq_true,
      any_eq_true, containsIndex_iff (partAt_sorted hs.sorted _), Joined, inOperand_iff]
  rw [searchDomains_iff hsteady, decoded_ne_nil, ← orDomains_offer hor]
  simp only [mem_append, or_and_right, exists_or]
  refine or_congr Iff.rfl ?_
  split
  · rename_i hand
    have hne : s.andPartIndexes ≠ [] := by
      rintro h
      simp [h] at hand
    simp only [mem_singleton, exists_eq_left, andDomain_offers hs hjoined, joined_four hs hne,
      true_and]
  · rename_i hand
    simp only [not_mem_nil, false_and, exists_false, false_iff]
    rintro ⟨hfour, i, hj⟩
    refine hand ?_
    simp only [hfour, Bool.and_eq_true, all_eq_true, bne_iff_ne]
    refine ⟨by decide, fun o ho hempty => ?_⟩
    exact not_joined_of_empty ho (length_eq_zero_iff.mp hempty) i hj

theorem andSlot_offers (hs : Shaped parts s)
    (hmatch : ∀ d, d.kind = 4 → ∀ i, isMatch d i = true ↔ Joined parts s i) :
    (andSlot parts (partAt parts s.categoryPartIndex) s.andPartIndexes).Offers isMatch ↔
      s.andPartIndexes.length = 4 ∧ ∃ i, Joined parts s i := by
  unfold andSlot
  split
  · rename_i hand
    have hne : s.andPartIndexes ≠ [] := by
      intro h
      simp [h] at hand
    rw [joined_four hs hne, eq_self_iff_true, true_and]
    cases hmin : minOperand parts s.andPartIndexes with
    | none =>
      cases hl : s.andPartIndexes with
      | nil => exact absurd hl hne
      | cons o rest =>
        rw [hl] at hmin
        cases hmin
    | some best =>
      obtain ⟨o, size⟩ := best
      have ho := minOperand_mem hmin
      dsimp only
      split
      · exact categoryDomain_offers hmatch
      · exact operandDomain_offers hmatch ho (hs.pairs o ho) size
  · rename_i hand
    refine iff_of_false emptyDomain_offers ?_
    rintro ⟨hfour, i, hj⟩
    refine hand ?_
    have hne : s.andPartIndexes ≠ [] := by
      intro h
      simp [h] at hfour
    simp only [Bool.and_eq_true, Bool.not_eq_true', isEmpty_eq_false_iff, all_eq_true]
    exact ⟨hne, fun o ho hempty => not_joined_of_empty ho hempty i hj⟩

/-- **In Rust, a witness is found iff the set stands for some block.** -/
theorem nativeSetHasWitness_iff (hs : Shaped parts s) :
    nativeSetHasWitness s parts = true ↔ s.decoded parts ≠ [] := by
  unfold nativeSetHasWitness
  dsimp only
  set isMatch : WitnessDomain → U32 → Bool := fun d index =>
    if d.kind < 4 then binarySearch d.other index
    else binarySearch (partAt parts s.categoryPartIndex) index && s.andPartIndexes.all fun operand =>
      operand.any fun reference => binarySearch (partAt parts reference) index with hisMatch
  have hsteady : Steady isMatch := by
    intro d d' hkind hother
    funext i
    simp only [hisMatch, hkind, hother]
  have hor : ∀ d ∈ orDomains parts s, ∀ i, isMatch d i = true ↔ i ∈ d.other := by
    intro d hd i
    simp only [hisMatch, orDomains_kind hs hd, if_true, binarySearch, contains_iff_mem]
  have hjoined : ∀ d, d.kind = 4 → ∀ i, isMatch d i = true ↔ Joined parts s i := by
    intro d hd i
    simp only [hisMatch, hd, lt_irrefl, if_false, Bool.and_eq_true, all_eq_true,
      any_eq_true, binarySearch, contains_iff_mem, Joined, inOperand_iff]
  rw [searchDomains_iff hsteady, decoded_ne_nil, ← orDomains_offer hor]
  simp only [mem_append, or_and_right, exists_or, mem_singleton, exists_eq_left]
  have hslots : ¬∃ d ∈ List.replicate (4 - s.orPartIndexes.length) emptyDomain,
      d.Offers isMatch := by
    rintro ⟨d, hd, ho⟩
    rw [eq_of_mem_replicate hd] at ho
    exact emptyDomain_offers ho
  rw [andSlot_offers hs hjoined, or_assoc, or_iff_right_of_imp (fun h => absurd h hslots)]

end Sets

end BalanceFrame.Merchant
