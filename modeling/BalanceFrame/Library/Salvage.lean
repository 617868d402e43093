import BalanceFrame.Library.Checked
import Mathlib.Data.List.Perm.Basic

/-!
# Steps that do not disturb each other

A list of members is folded into a state by steps that may fail. `Undisturbed` says that a step
leaves alone what decides whether the others succeed. Then `isOk_foldlM` holds: members that are
apart from each other step together iff each steps from the start, and so the ones that do
(`keepM`) can always be folded (`isOk_foldlM_filter`).
-/

namespace BalanceFrame.Library

variable {ε α β : Type}

/-! ## Success -/

@[simp] theorem isOk_ok (a : α) : isOk (.ok a : Except ε α) = true := rfl

@[simp] theorem isOk_error (e : ε) : isOk (.error e : Except ε α) = false := rfl

theorem isOk_bind {x : Except ε α} {f : α → Except ε β} :
    isOk (x >>= f) = true ↔ ∃ a, x = .ok a ∧ isOk (f a) = true := by
  cases x with
  | error e => simp
  | ok a => simp

/-! ## Filters that may stop -/

/-- A filter whose test may stop with an error. -/
def keepM (test : α → Except ε Bool) : List α → Except ε (List α)
  | [] => .ok []
  | a :: l => do
    let keep ← test a
    let kept ← keepM test l
    .ok (if keep then a :: kept else kept)

theorem keepM_eq_ok {test : α → Except ε Bool} :
    ∀ {l kept : List α}, keepM test l = .ok kept ↔
      (∀ a ∈ l, isOk (test a) = true) ∧ l.filter (fun a => valueOr false (test a)) = kept
  | [], kept => by simp [keepM]
  | a :: l, kept => by
    rw [keepM, bind_ok]
    constructor
    · rintro ⟨keep, ha, h⟩
      obtain ⟨rest, hl, h⟩ := bind_ok.mp h
      obtain ⟨hok, rfl⟩ := keepM_eq_ok.mp hl
      cases h
      refine ⟨List.forall_mem_cons.mpr ⟨by rw [ha]; rfl, hok⟩, ?_⟩
      rw [List.filter_cons, ha]
      rfl
    · rintro ⟨hok, rfl⟩
      obtain ⟨⟨keep, ha⟩, hok⟩ := (List.forall_mem_cons.mp hok).imp_left isOk_iff.mp
      refine ⟨keep, ha, bind_ok.mpr ⟨_, keepM_eq_ok.mpr ⟨hok, rfl⟩, ?_⟩⟩
      rw [List.filter_cons, ha]
      rfl

/-! ## Members that are apart -/

/-- A step leaves alone what decides about the members apart from it. -/
structure Undisturbed (f : β → α → Except ε β) (Apart : α → α → Prop) (Same : α → β → β → Prop) :
    Prop where
  same : ∀ {a a' b b'}, Apart a a' → f b a = .ok b' → Same a' b b'
  decides : ∀ {a b b'}, Same a b b' → isOk (f b a) = isOk (f b' a)

variable {f : β → α → Except ε β} {Apart : α → α → Prop} {Same : α → β → β → Prop}

/-- **Members that are apart step together iff each steps from the start.** -/
theorem Undisturbed.isOk_foldlM (h : Undisturbed f Apart Same) :
    ∀ {l : List α}, l.Pairwise Apart → ∀ b, isOk (l.foldlM f b) = true ↔
      ∀ a ∈ l, isOk (f b a) = true
  | [], _, b => by simp [isOk]
  | a :: l, hl, b => by
    rw [List.pairwise_cons] at hl
    rw [List.foldlM_cons, List.forall_mem_cons]
    cases ha : f b a with
    | error e => simp [isOk]
    | ok b' =>
      have hsame : ∀ x ∈ l, isOk (f b x) = isOk (f b' x) := fun x hx =>
        h.decides (h.same (hl.1 x hx) ha)
      rw [ok_bind, h.isOk_foldlM hl.2 b']
      constructor
      · intro hrest
        exact ⟨rfl, fun x hx => (hsame x hx).trans (hrest x hx)⟩
      · intro hrest x hx
        exact (hsame x hx).symm.trans (hrest.2 x hx)

theorem Undisturbed.isOk_foldlM_filter (h : Undisturbed f Apart Same) {l : List α}
    (hl : l.Pairwise Apart) (b : β) {kept : α → Bool}
    (hkept : ∀ a ∈ l, kept a = true → isOk (f b a) = true) :
    isOk ((l.filter kept).foldlM f b) = true := by
  refine (h.isOk_foldlM (hl.sublist List.filter_sublist) b).mpr fun a ha => ?_
  obtain ⟨ha, hk⟩ := List.mem_filter.mp ha
  exact hkept a ha hk

end BalanceFrame.Library

/-!
## Folds over a reordered list

A fold whose neighbouring steps may change places runs the same over every order of its list
(`Agree.foldlM_perm`). The states need only agree up to a relation `S`, and the steps up to the
error they report. `Alike` asks for the same reasons as well: where every step has the one reason,
so have both runs (`Agree.alike`).
-/

namespace BalanceFrame.Library

variable {ε ε' ε'' α β γ δ σ : Type}

variable {x : Except ε α} {S : α → β → Prop} {e r : ε} {y : Except ε β}

theorem Agree.trans {R : α → β → Prop} {S : β → γ → Prop} {T : α → γ → Prop}
    (hT : ∀ a b c, R a b → S b c → T a c) {y : Except ε' β} {z : Except ε'' γ}
    (hxy : Agree R x y) (hyz : Agree S y z) : Agree T x z := by
  cases x with
  | error e =>
    cases y with
    | error e' =>
      cases z with
      | error e'' => exact agree_error
      | ok c => exact hyz.elim
    | ok b => exact hxy.elim
  | ok a =>
    cases y with
    | error e' => exact hxy.elim
    | ok b =>
      cases z with
      | error e'' => exact hyz.elim
      | ok c => exact hT a b c hxy hyz

/-- **A fold over a reordered list.** Each step respects `S`, and two steps in a row may change
places. -/
theorem Agree.foldlM_perm {S : σ → σ → Prop} (hrefl : ∀ s, S s s)
    (htrans : ∀ s t u, S s t → S t u → S s u) {f : σ → α → Except ε σ}
    (hcongr : ∀ s t a, S s t → Agree S (f s a) (f t a))
    (hswap : ∀ s a b, Agree S (f s a >>= fun t => f t b) (f s b >>= fun t => f t a))
    {l l' : List α} (h : l.Perm l') :
    ∀ {s t : σ}, S s t → Agree S (l.foldlM f s) (l'.foldlM f t) := by
  have hfold : ∀ (l : List α) {s t : σ}, S s t → Agree S (l.foldlM f s) (l.foldlM f t) := by
    intro l s t hst
    refine Agree.foldlM (R := Eq) (List.forall₂_same.mpr fun a _ => rfl) ?_ hst
    rintro s t a b hst rfl
    exact hcongr s t a hst
  induction h with
  | nil => exact fun hst => hst
  | cons a _ ih =>
    intro s t hst
    rw [List.foldlM_cons, List.foldlM_cons]
    exact (hcongr s t a hst).bind fun _ _ _ _ h => ih h
  | swap a b l =>
    intro s t hst
    refine Agree.trans htrans ?_ (hfold (a :: b :: l) hst)
    simp only [List.foldlM_cons, ← bind_assoc]
    exact (hswap s b a).bind fun _ _ _ _ h => hfold l h
  | trans _ _ ih ih' => exact fun hst => (ih hst).trans htrans (ih' (hrefl _))

/-! ## The same reasons -/

/-- Both stop for one reason, or both succeed with `S`-related results. -/
def Alike (S : α → β → Prop) : Except ε α → Except ε β → Prop
  | .ok a, .ok b => S a b
  | .error e, .error e' => e = e'
  | _, _ => False

@[simp] theorem alike_ok {a : α} {b : β} : Alike S (.ok a : Except ε α) (.ok b) ↔ S a b := Iff.rfl

@[simp] theorem alike_error {e' : ε} :
    Alike S (.error e : Except ε α) (.error e' : Except ε β) ↔ e = e' := Iff.rfl

theorem alike_eq {y : Except ε α} : Alike Eq x y ↔ x = y := by
  cases x <;> cases y <;> simp [Alike]

/-- Programs in lockstep that can only fail for the one reason. -/
theorem Agree.alike (h : Agree S x y)
    (hx : ∀ e, x = .error e → e = r) (hy : ∀ e, y = .error e → e = r) : Alike S x y := by
  cases x with
  | error e =>
    cases y with
    | error e' => exact (hx e rfl).trans (hy e' rfl).symm
    | ok b => exact h.elim
  | ok a =>
    cases y with
    | error e' => exact h.elim
    | ok b => exact h

theorem Alike.bind {R : α → β → Prop} {S : γ → δ → Prop}
    {f : α → Except ε γ} {g : β → Except ε δ} (h : Alike R x y)
    (hfg : ∀ a b, R a b → Alike S (f a) (g b)) : Alike S (x >>= f) (y >>= g) := by
  cases x with
  | error e =>
    cases y with
    | error e' => exact h
    | ok b => exact h.elim
  | ok a =>
    cases y with
    | error e' => exact h.elim
    | ok b => exact hfg a b h

theorem Alike.mapError (h : Alike S x y) (f : ε → ε') : Alike S (x.mapError f) (y.mapError f) := by
  cases x with
  | error e =>
    cases y with
    | error e' => exact congrArg f h
    | ok b => exact h.elim
  | ok a =>
    cases y with
    | error e' => exact h.elim
    | ok b => exact h

theorem reject_reason {bad : Bool} (h : (reject bad r : Except ε Unit) = .error e) : e = r := by
  cases bad with
  | true => exact (Except.error.inj h).symm
  | false => cases h

theorem foldlM_reason {f : σ → α → Except ε σ} {l : List α}
    (hf : ∀ s a, ∀ e, f s a = .error e → e = r) {s : σ} (h : l.foldlM f s = .error e) :
    e = r := by
  obtain ⟨_, a, _, c, _, _, hc⟩ := foldlM_error h
  exact hf c a e hc

end BalanceFrame.Library
