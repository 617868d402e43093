import BalanceFrame.Liquidity.Conservation

/-!
# Identities of an accepted input

What the checks of `checkIdentities` give the rest of an evaluation: accounts, buckets and periods
have different identities (`Distinct`), so the category map is the category list by bucket
(`categoryMap_get?`) and a lookup by category and month finds the only one.
-/

namespace BalanceFrame.Liquidity

open Library

theorem checkPeriods_ok {l : List CategoryLiquidityFact} {u : Unit} (h : checkPeriods l = .ok u) :
    (l.map fun c => (c.categoryId, c.asOfMonth)).Nodup := by
  obtain ⟨seen, hseen, -⟩ := bind_ok.mp h
  refine ((foldlM_distinct (fun c : CategoryLiquidityFact => (c.categoryId, c.asOfMonth))
    (fun c => isBlank c.categoryId = false) (fun seen c seen' => ?_)).mp hseen).2.1
  simp only [bind_ok, reject_ok, pure_ok, Except.ok.injEq, Bool.or_eq_false_iff,
    List.contains_eq_mem, decide_eq_false_iff_not]
  constructor
  · rintro ⟨-, ⟨hblank, hnew⟩, rfl⟩
    exact ⟨rfl, hnew, hblank⟩
  · rintro ⟨rfl, hnew, hblank⟩
    exact ⟨(), ⟨hblank, hnew⟩, rfl⟩

/-- Facts whose accounts have different identities, and whose categories have different buckets and
different periods. -/
structure Distinct (facts : LiquidityFacts) : Prop where
  accounts : (facts.accounts.map (·.accountId)).Nodup
  buckets : (facts.categories.map (·.cashBucketId)).Nodup
  periods : (facts.categories.map fun c => (c.categoryId, c.asOfMonth)).Nodup

variable {facts : LiquidityFacts}

theorem checkIdentities_ok {input : LiquidityInput} (h : checkIdentities input = .ok facts) :
    input.facts = some facts ∧ Distinct facts := by
  obtain ⟨-, h⟩ := rest_ok h
  obtain ⟨found, hfound, h⟩ := bind_ok.mp h
  obtain ⟨-, h⟩ := rest_ok h
  obtain ⟨-, h⟩ := rest_ok h
  obtain ⟨_, haccounts, h⟩ := bind_ok.mp h
  obtain ⟨_, hbuckets, h⟩ := bind_ok.mp h
  obtain ⟨-, h⟩ := rest_ok h
  obtain ⟨-, h⟩ := rest_ok h
  obtain ⟨-, h⟩ := rest_ok h
  obtain ⟨_, hperiods, h⟩ := bind_ok.mp h
  cases h
  exact ⟨orStop_ok.mp hfound, (unique_eq_ok.mp haccounts).2, (unique_eq_ok.mp hbuckets).2,
    checkPeriods_ok hperiods⟩

theorem Distinct.period_eq (hd : Distinct facts) {c c' : CategoryLiquidityFact}
    (hc : c ∈ facts.categories) (hc' : c' ∈ facts.categories) (hid : c.categoryId = c'.categoryId)
    (hmonth : c.asOfMonth = c'.asOfMonth) : c = c' :=
  List.inj_on_of_nodup_map hd.periods hc hc' (by rw [hid, hmonth])

theorem categoryMap_get? (hd : Distinct facts) (bucket : String) (c : CategoryLiquidityFact) :
    (categoryMap facts).get? bucket = some c ↔ c ∈ facts.categories ∧ c.cashBucketId = bucket := by
  have hall : ∀ l : List CategoryLiquidityFact, (l.map (·.cashBucketId)).Nodup →
      ((l.foldl (fun categories c => categories.insert c.cashBucketId c)
        SortedMap.empty : Categories).get? bucket = some c ↔ c ∈ l ∧ c.cashBucketId = bucket) := by
    intro l
    induction l using List.reverseRecOn with
    | nil => simp
    | append_singleton l d ih =>
      intro hnd
      rw [List.map_append, List.nodup_append] at hnd
      rw [List.foldl_append, List.foldl_cons, List.foldl_nil, SortedMap.get?_insert]
      split
      · rename_i hbucket
        rw [Option.some.injEq, List.mem_append, List.mem_singleton]
        constructor
        · rintro rfl
          exact ⟨.inr rfl, hbucket⟩
        · rintro ⟨hc | rfl, hcb⟩
          · exact absurd (hcb.trans hbucket.symm) (hnd.2.2 _ (List.mem_map_of_mem hc) _ (by simp))
          · rfl
      · rename_i hbucket
        rw [ih hnd.1, List.mem_append, List.mem_singleton]
        constructor
        · rintro ⟨hc, hcb⟩
          exact ⟨.inl hc, hcb⟩
        · rintro ⟨hc | rfl, hcb⟩
          · exact ⟨hc, hcb⟩
          · exact absurd hcb hbucket
  exact hall facts.categories hd.buckets

theorem currentCategory_some {input : LiquidityInput} {id : String} {c : CategoryLiquidityFact}
    (hd : Distinct facts) (hfacts : input.facts = some facts)
    (h : currentCategory (categoryMap facts) id input = some c) :
    c ∈ facts.categories ∧ c.categoryId = id ∧ c.asOfMonth = facts.asOfMonth := by
  rw [currentCategory, hfacts, Option.bind_some] at h
  have hp := List.find?_some h
  simp only [Bool.and_eq_true, beq_iff_eq] at hp
  obtain ⟨bucket, hbucket⟩ := SortedMap.mem_values_iff.mp (List.mem_of_find?_eq_some h)
  exact ⟨((categoryMap_get? hd bucket c).mp hbucket).1, hp⟩

end BalanceFrame.Liquidity
