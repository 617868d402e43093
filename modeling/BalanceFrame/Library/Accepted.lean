import Mathlib

/-!
# Accepted days

Days are integers, and a predicate accepts some of them. `FirstFrom` is the first accepted day from
a day on; `acceptedIn` counts the accepted days after one day up to another. A count from an
accepted day fixes the accepted day it ends on, monotonically (`le_of_acceptedIn_eq`), and
`lt_acceptedFrom_iff` says by a count alone that a day lies after the end.
-/

namespace BalanceFrame.Library

variable (A : ℤ → Prop)

/-- `x` is the first accepted day from `d` on. -/
def FirstFrom (d x : ℤ) : Prop := IsLeast {y | d ≤ y ∧ A y} x

variable {A}

variable {d x x' p : ℤ}

theorem FirstFrom.le (h : FirstFrom A d x) : d ≤ x := h.1.1

theorem FirstFrom.accepted (h : FirstFrom A d x) : A x := h.1.2

theorem firstFrom_self (h : A d) : FirstFrom A d d := ⟨⟨le_rfl, h⟩, fun _ hy => hy.1⟩

theorem FirstFrom.eq_self (h : FirstFrom A d x) (hd : A d) : x = d :=
  h.unique (firstFrom_self hd)

theorem FirstFrom.step (hd : ¬A d) (h : FirstFrom A (d + 1) x) : FirstFrom A d x := by
  refine ⟨⟨by have := h.le; omega, h.accepted⟩, fun y hy => h.2 ⟨?_, hy.2⟩⟩
  have hne : y ≠ d := by
    rintro rfl
    exact hd hy.2
  have := hy.1
  omega

theorem FirstFrom.mono {d' : ℤ} (h : FirstFrom A d x) (h' : FirstFrom A d' x')
    (hd : d ≤ d') : x ≤ x' :=
  h.2 ⟨hd.trans h'.le, h'.accepted⟩

/-! ## Counting -/

variable (A) [DecidablePred A]

/-- The accepted days after `p` up to `x`. -/
noncomputable def acceptedIn (p x : ℤ) : ℕ := ((Finset.Ioc p x).filter A).card

/-- The accepted days from `d` on, before `x`. -/
noncomputable def acceptedFrom (d x : ℤ) : ℕ := ((Finset.Ico d x).filter A).card

variable {A}

@[simp] theorem acceptedIn_self (p : ℤ) : acceptedIn A p p = 0 := by
  simp [acceptedIn]

theorem acceptedIn_next (h : p + 1 ≤ x) :
    acceptedIn A p x = (if A (p + 1) then 1 else 0) + acceptedIn A (p + 1) x := by
  have hsplit : Finset.Ioc p x = insert (p + 1) (Finset.Ioc (p + 1) x) := by
    ext y
    simp only [Finset.mem_Ioc, Finset.mem_insert]
    omega
  have hnew : p + 1 ∉ (Finset.Ioc (p + 1) x).filter A := by
    simp
  unfold acceptedIn
  rw [hsplit, Finset.filter_insert]
  split
  · rw [Finset.card_insert_of_notMem hnew, add_comm]
  · rw [zero_add]

theorem acceptedIn_mono {p' : ℤ} (hp : p' ≤ p) (hx : x ≤ x') :
    acceptedIn A p x ≤ acceptedIn A p' x' :=
  Finset.card_le_card (Finset.filter_subset_filter _ (Finset.Ioc_subset_Ioc hp hx))

theorem acceptedIn_lt (hp : p < x') (hx : x < x') (hx' : A x') :
    acceptedIn A p x < acceptedIn A p x' := by
  refine Finset.card_lt_card ⟨Finset.filter_subset_filter _ (Finset.Ioc_subset_Ioc le_rfl hx.le),
    fun hsub => ?_⟩
  have hmem := hsub (Finset.mem_filter.mpr ⟨Finset.mem_Ioc.mpr ⟨hp, le_rfl⟩, hx'⟩)
  have := (Finset.mem_Ioc.mp (Finset.mem_filter.mp hmem).1).2
  omega

theorem le_of_acceptedIn_eq {p' : ℤ} (hp : p ≤ p') (hx' : p' ≤ x') (hA : A x)
    (heq : acceptedIn A p x = acceptedIn A p' x') : x ≤ x' := by
  by_contra hlt
  have hlt : x' < x := not_le.mp hlt
  have h1 := acceptedIn_lt (A := A) (p := p) (by omega) hlt hA
  have h2 := acceptedIn_mono (A := A) hp (le_refl x')
  omega

theorem acceptedFrom_succ (hA : A p) (h : p ≤ x) :
    acceptedFrom A p (x + 1) = acceptedIn A p x + 1 := by
  have hsplit : Finset.Ico p (x + 1) = insert p (Finset.Ioc p x) := by
    ext y
    simp only [Finset.mem_Ico, Finset.mem_Ioc, Finset.mem_insert]
    omega
  have hnew : p ∉ (Finset.Ioc p x).filter A := by
    simp
  unfold acceptedFrom acceptedIn
  rw [hsplit, Finset.filter_insert, if_pos hA, Finset.card_insert_of_notMem hnew]

theorem acceptedFrom_mono (hx : x ≤ x') : acceptedFrom A d x ≤ acceptedFrom A d x' :=
  Finset.card_le_card (Finset.filter_subset_filter _ (Finset.Ico_subset_Ico le_rfl hx))

theorem FirstFrom.acceptedFrom_eq (h : FirstFrom A d p) (x : ℤ) :
    acceptedFrom A d x = acceptedFrom A p x := by
  unfold acceptedFrom
  congr 1
  ext y
  simp only [Finset.mem_filter, Finset.mem_Ico]
  constructor
  · rintro ⟨⟨hd, hx⟩, hy⟩
    exact ⟨⟨h.2 ⟨hd, hy⟩, hx⟩, hy⟩
  · rintro ⟨⟨hp, hx⟩, hy⟩
    exact ⟨⟨h.le.trans hp, hx⟩, hy⟩

theorem acceptedFrom_end (hA : A x) (h : d ≤ x) :
    acceptedFrom A d (x + 1) = acceptedFrom A d x + 1 := by
  have hsplit : Finset.Ico d (x + 1) = insert x (Finset.Ico d x) := by
    ext y
    simp only [Finset.mem_Ico, Finset.mem_insert]
    omega
  have hnew : x ∉ (Finset.Ico d x).filter A := by
    simp
  unfold acceptedFrom
  rw [hsplit, Finset.filter_insert, if_pos hA, Finset.card_insert_of_notMem hnew]

/-- **A day lies past the end of a count iff more accepted days come before it than the count
has.** -/
theorem lt_acceptedFrom_iff {y : ℤ} (hp : FirstFrom A d p) (hpx : p ≤ x) (hx : A x) :
    acceptedIn A p x < acceptedFrom A d y ↔ x < y := by
  rw [hp.acceptedFrom_eq]
  have hall := acceptedFrom_succ hp.accepted hpx
  have hend := acceptedFrom_end hx hpx
  constructor
  · intro h
    by_contra hlt
    have := acceptedFrom_mono (A := A) (d := p) (not_lt.mp hlt)
    omega
  · intro h
    have := acceptedFrom_mono (A := A) (d := p) (Int.add_one_le_iff.mpr h)
    omega

end BalanceFrame.Library
