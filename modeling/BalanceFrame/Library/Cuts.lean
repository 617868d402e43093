import Mathlib.Algebra.BigOperators.Group.Finset.Sigma
import Mathlib.Algebra.Order.BigOperators.Group.Finset
import Mathlib.Combinatorics.Hall.Basic

/-!
# Demands and the supplies that may serve them

When may supplies meet demands, each of which only some supplies may serve? `sum_le_of_served`:
every set of demands needs no more than the supplies that may serve one of them. `exists_served`:
that is enough, by the marriage theorem for the single units.
-/

namespace BalanceFrame.Library

open Finset

variable {α β : Type} {A : Finset α} {B : Finset β} {E : α → β → Prop} [∀ a b, Decidable (E a b)]

theorem sum_le_of_served {c : α → ℤ} {d : β → ℤ} {x : α → β → ℤ} (hx : ∀ a b, 0 ≤ x a b)
    (hE : ∀ a ∈ A, ∀ b ∈ B, x a b ≠ 0 → E a b) (hd : ∀ b ∈ B, ∑ a ∈ A, x a b = d b)
    (hc : ∀ a ∈ A, ∑ b ∈ B, x a b ≤ c a) {S : Finset β} (hS : S ⊆ B) :
    ∑ b ∈ S, d b ≤ ∑ a ∈ A with ∃ b ∈ S, E a b, c a :=
  calc ∑ b ∈ S, d b = ∑ a ∈ A, ∑ b ∈ S, x a b := by
        rw [sum_comm]
        exact sum_congr rfl fun b hb => (hd b (hS hb)).symm
    _ = ∑ a ∈ A with ∃ b ∈ S, E a b, ∑ b ∈ S, x a b := by
        refine (sum_filter_of_ne fun a ha hne => ?_).symm
        obtain ⟨b, hb, hab⟩ := exists_ne_zero_of_sum_ne_zero hne
        exact ⟨b, hb, hE a ha b (hS hb) hab⟩
    _ ≤ ∑ a ∈ A with ∃ b ∈ S, E a b, c a :=
        sum_le_sum fun a ha => (sum_le_sum_of_subset_of_nonneg hS fun b _ _ => hx a b).trans
          (hc a (mem_filter.mp ha).1)

/-- The single units of the amounts `d`. -/
abbrev pieces (B : Finset β) (d : β → ℕ) : Finset (Σ _ : β, ℕ) := B.sigma fun b => range (d b)

theorem card_pieces_of [DecidableEq β] {d : β → ℕ} {b : β} (hb : b ∈ B) :
    #{u : pieces B d | u.1.1 = b} = d b := by
  have hpieces : ({u : pieces B d | u.1.1 = b} : Finset (pieces B d)).map
      (Function.Embedding.subtype _) = pieces {b} d := by
    ext ⟨b', k⟩
    simp only [mem_map, mem_filter, mem_univ, true_and, mem_sigma, mem_singleton]
    constructor
    · rintro ⟨u, hu, heq⟩
      have hk := (mem_sigma.mp u.2).2
      have heq : u.1 = ⟨b', k⟩ := heq
      rw [heq] at hu hk
      exact ⟨hu, hk⟩
    · rintro ⟨rfl, hk⟩
      exact ⟨⟨⟨b', k⟩, mem_sigma.mpr ⟨hb, hk⟩⟩, rfl, rfl⟩
  rw [← card_map (Function.Embedding.subtype _), hpieces, card_sigma, sum_singleton, card_range]

/-- Every unit of a demand has a unit of its own of a supply that may serve it. -/
theorem exists_matching [DecidableEq α] [DecidableEq β] {c : α → ℕ} {d : β → ℕ}
    (h : ∀ S ⊆ B, ∑ b ∈ S, d b ≤ ∑ a ∈ A with ∃ b ∈ S, E a b, c a) :
    ∃ f : pieces B d → Σ _ : α, ℕ, f.Injective ∧
      ∀ u, (f u).1 ∈ A ∧ E (f u).1 u.1.1 ∧ (f u).2 ∈ range (c (f u).1) := by
  let t : pieces B d → Finset (Σ _ : α, ℕ) := fun u => pieces (A.filter (E · u.1.1)) c
  have hmarriage : ∀ s : Finset (pieces B d), s.card ≤ (s.biUnion t).card := by
    intro s
    have hS : s.image (fun u => u.1.1) ⊆ B := by
      intro b hb
      obtain ⟨u, -, rfl⟩ := mem_image.mp hb
      exact (mem_sigma.mp u.2).1
    calc s.card = (s.map (Function.Embedding.subtype _)).card := (card_map _).symm
      _ ≤ (pieces (s.image fun u => u.1.1) d).card := by
          refine card_le_card fun v hv => ?_
          obtain ⟨u, hu, rfl⟩ := mem_map.mp hv
          exact mem_sigma.mpr ⟨mem_image_of_mem _ hu, (mem_sigma.mp u.2).2⟩
      _ = ∑ b ∈ s.image fun u => u.1.1, d b := by simp
      _ ≤ _ := h _ hS
      _ = (pieces (A.filter fun a => ∃ b ∈ s.image fun u : pieces B d => u.1.1, E a b) c).card := by
          simp
      _ ≤ (s.biUnion t).card := by
          refine card_le_card fun v hv => ?_
          obtain ⟨ha, hk⟩ := mem_sigma.mp hv
          obtain ⟨hA, b, hb, hE⟩ := mem_filter.mp ha
          obtain ⟨u, hu, rfl⟩ := mem_image.mp hb
          exact mem_biUnion.mpr ⟨u, hu, mem_sigma.mpr ⟨mem_filter.mpr ⟨hA, hE⟩, hk⟩⟩
  obtain ⟨f, hf, hft⟩ := (all_card_le_biUnion_card_iff_exists_injective t).mp hmarriage
  refine ⟨f, hf, fun u => ?_⟩
  obtain ⟨hu, hk⟩ := mem_sigma.mp (hft u)
  obtain ⟨hA, hE⟩ := mem_filter.mp hu
  exact ⟨hA, hE, hk⟩

theorem exists_served [DecidableEq α] [DecidableEq β] {c : α → ℕ} {d : β → ℕ}
    (h : ∀ S ⊆ B, ∑ b ∈ S, d b ≤ ∑ a ∈ A with ∃ b ∈ S, E a b, c a) :
    ∃ x : α → β → ℕ, (∀ a b, x a b ≠ 0 → E a b) ∧ (∀ b ∈ B, ∑ a ∈ A, x a b = d b) ∧
      ∀ a ∈ A, ∑ b ∈ B, x a b ≤ c a := by
  obtain ⟨f, hf, hserves⟩ := exists_matching h
  refine ⟨fun a b => #{u | u.1.1 = b ∧ (f u).1 = a}, fun a b hne => ?_, fun b hb => ?_,
    fun a ha => ?_⟩
  · obtain ⟨u, hu⟩ := card_ne_zero.mp hne
    obtain ⟨-, rfl, rfl⟩ := mem_filter.mp hu
    exact (hserves u).2.1
  · -- the units of the demand, by the supply that each is served from
    have hcard := card_eq_sum_card_fiberwise (f := fun u => (f u).1)
      (s := ({u : pieces B d | u.1.1 = b} : Finset _)) (t := A) fun u _ => (hserves u).1
    rw [card_pieces_of hb] at hcard
    rw [hcard]
    exact sum_congr rfl fun a _ => by rw [filter_filter]
  · have hcard := card_eq_sum_card_fiberwise (f := fun u : pieces B d => u.1.1)
      (s := ({u : pieces B d | (f u).1 = a} : Finset _)) (t := B) fun u _ => (mem_sigma.mp u.2).1
    have hle : #({u : pieces B d | (f u).1 = a} : Finset _) ≤ #(pieces {a} c) := by
      refine card_le_card_of_injOn f (fun u hu => ?_) hf.injOn
      exact mem_sigma.mpr ⟨mem_singleton.mpr (mem_filter.mp hu).2, (hserves u).2.2⟩
    rw [card_sigma, sum_singleton, card_range, hcard] at hle
    refine le_of_eq_of_le (sum_congr rfl fun b _ => ?_) hle
    rw [filter_filter]
    exact congrArg card (filter_congr fun u _ => and_comm)

end BalanceFrame.Library
