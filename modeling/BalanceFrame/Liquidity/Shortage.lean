import BalanceFrame.Library.Cuts
import BalanceFrame.Liquidity.AllocationCorrect

/-!
# What an infeasible allocation is short of

A set of buckets is short when they demand more than the accounts that may back one of them have.
-/

namespace BalanceFrame.Liquidity

open Library

variable {p : Prepared} {demands : Amounts}

/-- The account is eligible for the bucket. -/
def isBacker (p : Prepared) (id bucket : String) : Bool :=
  (p.accounts.get? id).any fun a => (p.categories.get? bucket).any (edge a)

def backingOf (p : Prepared) (id : String) : Int := (p.accounts.get? id).elim 0 backingCapacity

/-- The buckets demand more than the accounts that may back one of them have. -/
def IsShort (p : Prepared) (demands : Amounts) (buckets : Finset String) : Prop :=
  ∑ id ∈ p.accounts.keys.toFinset with ∃ b ∈ buckets, isBacker p id b = true, backingOf p id <
    ∑ b ∈ buckets, demandOn demands b

theorem demandOn_nonneg (bucket : String) : 0 ≤ demandOn demands bucket := le_max_left 0 _

theorem backingOf_nonneg (id : String) : 0 ≤ backingOf p id := by
  unfold backingOf
  cases p.accounts.get? id with
  | none => exact le_rfl
  | some a => exact le_max_left 0 _

theorem not_isShort_of_backs {x : String → String → Int} (hx : Backs p demands x)
    {buckets : Finset String} (hb : buckets ⊆ p.categories.keys.toFinset) :
    ¬IsShort p demands buckets := by
  refine not_lt.mpr (sum_le_of_served (B := p.categories.keys.toFinset) hx.nonneg
    (fun id hid b hb hne => ?_) (fun b hb => ?_) (fun id hid => ?_) hb)
  · obtain ⟨a, ha⟩ := SortedMap.mem_keys_iff.mp (List.mem_toFinset.mp hid)
    obtain ⟨c, hc⟩ := SortedMap.mem_keys_iff.mp (List.mem_toFinset.mp hb)
    rw [isBacker, ha, Option.any_some, hc, Option.any_some]
    exact hx.eligible id a b c ha hc hne
  · obtain ⟨c, hc⟩ := SortedMap.mem_keys_iff.mp (List.mem_toFinset.mp hb)
    rw [List.sum_toFinset _ p.accounts.nodup_keys]
    exact hx.bucket b c hc
  · obtain ⟨a, ha⟩ := SortedMap.mem_keys_iff.mp (List.mem_toFinset.mp hid)
    rw [List.sum_toFinset _ p.categories.nodup_keys, backingOf, ha]
    exact hx.account id a ha

theorem exists_backs (h : ∀ buckets ⊆ p.categories.keys.toFinset, ¬IsShort p demands buckets) :
    ∃ x, Backs p demands x := by
  have hcuts : ∀ S ⊆ p.categories.keys.toFinset, ∑ b ∈ S, (demandOn demands b).toNat ≤
      ∑ id ∈ p.accounts.keys.toFinset with ∃ b ∈ S, isBacker p id b = true,
        (backingOf p id).toNat := by
    intro S hS
    have hle := not_lt.mp (h S hS)
    zify
    simpa only [Int.toNat_of_nonneg (demandOn_nonneg _), Int.toNat_of_nonneg (backingOf_nonneg _)]
  obtain ⟨x, hedge, hmet, hwithin⟩ := exists_served hcuts
  refine ⟨fun id b => x id b, fun _ _ => Int.natCast_nonneg _, fun id a b c ha hc hne => ?_,
    fun b c hc => ?_, fun id a ha => ?_⟩
  · have := hedge id b (Int.natCast_ne_zero.mp hne)
    rwa [isBacker, ha, Option.any_some, hc, Option.any_some] at this
  · have := hmet b (List.mem_toFinset.mpr (SortedMap.mem_keys_iff.mpr ⟨c, hc⟩))
    rw [← List.sum_toFinset _ p.accounts.nodup_keys]
    zify at this
    rwa [Int.toNat_of_nonneg (demandOn_nonneg b)] at this
  · have := hwithin id (List.mem_toFinset.mpr (SortedMap.mem_keys_iff.mpr ⟨a, ha⟩))
    rw [← List.sum_toFinset _ p.categories.nodup_keys]
    zify at this
    rwa [Int.toNat_of_nonneg (backingOf_nonneg id), backingOf, ha] at this

/-- **An allocation is infeasible exactly if some buckets are short.** -/
theorem infeasible_iff_short (input : LiquidityInput) (p : Prepared) (demands : Amounts)
    (prior : Option BackingAllocation) (r : BackingAllocation)
    (h : allocation input p.accounts p.categories demands prior = .ok r) :
    r.feasible = false ↔ ∃ buckets ⊆ p.categories.keys.toFinset, IsShort p demands buckets := by
  rw [Bool.eq_false_iff, Ne, feasible_iff h]
  constructor
  · intro hnone
    by_contra hshort
    exact hnone (exists_backs fun buckets hb hs => hshort ⟨buckets, hb, hs⟩)
  · rintro ⟨buckets, hb, hshort⟩ ⟨x, hx⟩
    exact not_isShort_of_backs hx hb hshort

theorem short_household : ∃ buckets ⊆ preparedHousehold.categories.keys.toFinset,
    IsShort preparedHousehold (SortedMap.empty.insert "food-bucket" (.ofInt 200)) buckets := by
  have hrun : allocation household preparedHousehold.accounts preparedHousehold.categories
      (SortedMap.empty.insert "food-bucket" (.ofInt 200)) none =
        .ok { identity household with reasons := ["insufficient_cash_backing"] } := by
    decide +kernel
  exact (infeasible_iff_short _ _ _ _ _ hrun).mp rfl

end BalanceFrame.Liquidity
