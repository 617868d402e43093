import Mathlib.Data.List.Forall2

/-!
# Computations that may stop with an error

Rules for programs in `Except ε`: how a bind that succeeds comes apart (`bind_ok`), what a fold
keeps (`foldlM_inv`), and when two programs run in lockstep (`Agree`: both stop, or both succeed
with related results). A lockstep proof never compares the error values, so two programs may
report different reasons.
-/

namespace BalanceFrame.Library

open List

variable {ε ε' α β γ δ σ τ : Type}

/-! ## Taking successful programs apart -/

@[simp] theorem pure_ok (a : α) : (pure a : Except ε α) = .ok a := rfl

@[simp] theorem ok_bind (a : α) (f : α → Except ε β) : ((.ok a : Except ε α) >>= f) = f a := rfl

@[simp] theorem error_bind (e : ε) (f : α → Except ε β) :
    ((.error e : Except ε α) >>= f) = .error e := rfl

variable {b b' : β} {x : Except ε α} {a : α} {e : ε} {f : β → α → Except ε β} {l : List α}
  {R : α → β → Prop}

theorem bind_ok {f : α → Except ε β} : (x >>= f) = .ok b ↔ ∃ a, x = .ok a ∧ f a = .ok b := by
  cases x with
  | error e => simp
  | ok a => simp

theorem rest_ok {f : α → Except ε β} (h : (x >>= f) = .ok b) : ∃ a, f a = .ok b := by
  obtain ⟨a, -, h⟩ := bind_ok.1 h
  exact ⟨a, h⟩

theorem check_bind_ok {x : Except ε Unit} {f : Unit → Except ε β} :
    (x >>= f) = .ok b ↔ x = .ok () ∧ f () = .ok b := by
  rw [bind_ok]
  exact ⟨fun ⟨_, h⟩ => h, fun h => ⟨(), h⟩⟩

theorem toOption_eq_some : x.toOption = some a ↔ x = .ok a := by
  cases x <;> simp [Except.toOption]

theorem map_eq_ok {f : α → β} : (f <$> x) = .ok b ↔ ∃ a, x = .ok a ∧ f a = b := by
  cases x with
  | error e => simp [Functor.map, Except.map]
  | ok a => simp [Functor.map, Except.map]

/-- Stop with `e` when `bad` holds. -/
def reject (bad : Bool) (e : ε) : Except ε Unit := if bad then .error e else .ok ()

@[simp] theorem reject_ok {bad : Bool} {u : Unit} : reject bad e = .ok u ↔ bad = false := by
  cases bad <;> simp [reject]

@[simp] theorem reject_false (e : ε) : reject false e = .ok () := rfl

@[simp] theorem reject_true (e : ε) : reject true e = .error e := rfl

/-- The value, or stop with `e`. -/
def orStop (x : Option α) (e : ε) : Except ε α :=
  match x with
  | some a => .ok a
  | none => .error e

@[simp] theorem orStop_ok {x : Option α} : orStop x e = .ok a ↔ x = some a := by
  cases x <;> simp [orStop]

@[simp] theorem orStop_some (a : α) (e : ε) : orStop (some a) e = .ok a := rfl

/-- Succeeded. -/
def isOk : Except ε α → Bool
  | .ok _ => true
  | .error _ => false

theorem isOk_iff : isOk x = true ↔ ∃ a, x = .ok a := by
  cases x <;> simp [isOk]

/-- The value of a computation, or a default. -/
def valueOr (d : α) : Except ε α → α
  | .ok a => a
  | .error _ => d

/-! ## Folds -/

theorem foldlM_inv {P : β → Prop} :
    ∀ {l : List α}, (∀ b b' a, a ∈ l → P b → f b a = .ok b' → P b') →
      ∀ {b b' : β}, P b → l.foldlM f b = .ok b' → P b'
  | [], _, b, b', hb, h => by
    rw [foldlM_nil, pure_ok] at h
    cases h
    exact hb
  | a :: l, hstep, b, b', hb, h => by
    rw [foldlM_cons, bind_ok] at h
    obtain ⟨c, hc, h⟩ := h
    exact foldlM_inv (fun d d' x hx => hstep d d' x (mem_cons_of_mem _ hx))
      (hstep b c a mem_cons_self hb hc) h

theorem forM_eq_ok {f : α → Except ε Unit} : l.forM f = .ok () ↔ ∀ a ∈ l, f a = .ok () := by
  induction l with
  | nil => simp
  | cons a l ih =>
    rw [forM_eq_forM, forM_cons, bind_ok, forall_mem_cons, ← ih]
    exact ⟨fun ⟨_, h⟩ => h, fun h => ⟨(), h⟩⟩

/-- **What a run has done so far**: an invariant that reads the members already stepped over, kept
by the step at each place of the list. -/
theorem foldlM_runAt : ∀ {l : List α} {P : List α → β → Prop} {b b' : β},
      (∀ done a rest c c', l = done ++ a :: rest → P done c → f c a = .ok c' →
        P (done ++ [a]) c') → P [] b → l.foldlM f b = .ok b' → P l b'
  | [], _, b, b', _, hb, h => by
    rw [foldlM_nil, pure_ok] at h
    cases h
    exact hb
  | a :: l, P, b, b', hstep, hb, h => by
    rw [foldlM_cons, bind_ok] at h
    obtain ⟨c, hc, h⟩ := h
    refine foldlM_runAt (P := fun done => P (a :: done)) (fun done x rest d d' hl hd hx => ?_)
      (hstep [] a l b c rfl hb hc) h
    exact hstep (a :: done) x rest d d' (by rw [hl, cons_append]) hd hx

/-- What a run has done so far, when the place of a step does not matter. -/
theorem foldlM_run {P : List α → β → Prop}
    (hstep : ∀ done b b' a, P done b → f b a = .ok b' → P (done ++ [a]) b')
    (hb : P [] b) (h : l.foldlM f b = .ok b') : P l b' :=
  foldlM_runAt (fun done a _ c c' _ => hstep done c c' a) hb h

theorem foldl_runAt {f : β → α → β} :
    ∀ {l : List α} {P : List α → β → Prop} {b : β},
      (∀ done a rest c, l = done ++ a :: rest → P done c → P (done ++ [a]) (f c a)) →
        P [] b → P l (l.foldl f b)
  | [], _, _, _, hb => hb
  | a :: l, P, b, hstep, hb => by
    refine foldl_runAt (P := fun done => P (a :: done)) (fun done x rest d hl hd => ?_)
      (hstep [] a l b rfl hb)
    exact hstep (a :: done) x rest d (by rw [hl, cons_append]) hd

/-- **A fold that keeps the keys it has met** succeeds iff every member is good and no key comes
twice. -/
theorem foldlM_distinct {κ : Type} (key : α → κ) (Good : α → Prop)
    {f : List κ → α → Except ε (List κ)} (hf : ∀ seen a seen', f seen a = .ok seen' ↔
      seen' = key a :: seen ∧ key a ∉ seen ∧ Good a) :
    ∀ {l : List α} {seen seen' : List κ}, l.foldlM f seen = .ok seen' ↔
      seen' = (l.map key).reverse ++ seen ∧ (l.map key).Nodup ∧ (∀ a ∈ l, key a ∉ seen) ∧
        ∀ a ∈ l, Good a
  | [], seen, seen' => by
    rw [foldlM_nil, pure_ok, Except.ok.injEq]
    simp [eq_comm]
  | a :: l, seen, seen' => by
    rw [foldlM_cons, bind_ok, map_cons, reverse_cons, append_assoc,
      singleton_append, nodup_cons, forall_mem_cons, forall_mem_cons]
    constructor
    · rintro ⟨c, hc, hl⟩
      obtain ⟨rfl, ha, hgood⟩ := (hf seen a c).mp hc
      obtain ⟨rfl, hnd, hseen, hall⟩ := (foldlM_distinct key Good hf).mp hl
      refine ⟨rfl, ⟨fun hmem => ?_, hnd⟩,
        ⟨ha, fun b hb hmem => hseen b hb (mem_cons_of_mem _ hmem)⟩, hgood, hall⟩
      obtain ⟨b, hb, heq⟩ := mem_map.mp hmem
      exact hseen b hb (heq ▸ mem_cons_self)
    · rintro ⟨rfl, ⟨hnot, hnd⟩, ⟨ha, hseen⟩, hgood, hall⟩
      refine ⟨_, (hf seen a _).mpr ⟨rfl, ha, hgood⟩,
        (foldlM_distinct key Good hf).mpr ⟨rfl, hnd, fun b hb hmem => ?_, hall⟩⟩
      rcases mem_cons.mp hmem with heq | hmem
      · exact hnot (mem_map.mpr ⟨b, hb, heq⟩)
      · exact hseen b hb hmem

theorem foldlM_total {P : β → Prop} :
    ∀ {l : List α}, (∀ b a, a ∈ l → P b → ∃ b', f b a = .ok b' ∧ P b') →
      ∀ {b : β}, P b → ∃ b', l.foldlM f b = .ok b' ∧ P b'
  | [], _, b, hb => ⟨b, rfl, hb⟩
  | a :: l, hstep, b, hb => by
    obtain ⟨c, hc, hcP⟩ := hstep b a mem_cons_self hb
    obtain ⟨d, hd, hdP⟩ :=
      foldlM_total (fun b x hx => hstep b x (mem_cons_of_mem _ hx)) hcP
    exact ⟨d, by rw [foldlM_cons, hc, ok_bind, hd], hdP⟩

theorem foldlM_imp {g : β → α → Except ε β} :
    ∀ {l : List α}, (∀ b a b', a ∈ l → f b a = .ok b' → g b a = .ok b') →
      ∀ {b b' : β}, l.foldlM f b = .ok b' → l.foldlM g b = .ok b'
  | [], _, _, _, h => h
  | a :: l, hstep, b, b', h => by
    rw [foldlM_cons, bind_ok] at h ⊢
    obtain ⟨c, hc, h⟩ := h
    exact ⟨c, hstep b a c mem_cons_self hc,
      foldlM_imp (fun b x b' hx => hstep b x b' (mem_cons_of_mem _ hx)) h⟩

theorem foldlM_append_ok {l' : List α} :
    (l ++ l').foldlM f b = .ok b' ↔ ∃ c, l.foldlM f b = .ok c ∧ l'.foldlM f c = .ok b' := by
  rw [foldlM_append, bind_ok]

theorem foldlM_cons_ok :
    (a :: l).foldlM f b = .ok b' ↔ ∃ c, f b a = .ok c ∧ l.foldlM f c = .ok b' := by
  rw [foldlM_cons, bind_ok]

theorem bind_eq_error {f : α → Except ε β} :
    (x >>= f) = .error e ↔ x = .error e ∨ ∃ a, x = .ok a ∧ f a = .error e := by
  cases x with
  | error e' => simp
  | ok a => simp

theorem foldlM_mem_ok :
    ∀ {l : List α} {b b' : β}, l.foldlM f b = .ok b' → ∀ a ∈ l, ∃ c c', f c a = .ok c'
  | [], _, _, _, a, ha => absurd ha not_mem_nil
  | x :: l, b, b', h, a, ha => by
    obtain ⟨c, hc, h⟩ := foldlM_cons_ok.mp h
    rcases mem_cons.mp ha with rfl | ha
    · exact ⟨b, c, hc⟩
    · exact foldlM_mem_ok h a ha

/-- **Where a fold fails**: the steps before succeed, and one fails. -/
theorem foldlM_error : ∀ {l : List α} {b : β}, l.foldlM f b = .error e →
      ∃ before a after c, l = before ++ a :: after ∧ before.foldlM f b = .ok c ∧ f c a = .error e
  | [], b, h => by
    rw [foldlM_nil, pure_ok] at h
    cases h
  | x :: l, b, h => by
    rw [foldlM_cons, bind_eq_error] at h
    rcases h with h | ⟨c, hc, h⟩
    · exact ⟨[], x, l, b, rfl, rfl, h⟩
    · obtain ⟨before, a, after, d, rfl, hd, hf⟩ := foldlM_error h
      exact ⟨x :: before, a, after, d, rfl, foldlM_cons_ok.mpr ⟨c, hc, hd⟩, hf⟩

/-! ## Maps -/

theorem mapM_eq_ok {f : α → Except ε β} :
    ∀ {l' : List β}, l.mapM f = .ok l' ↔ List.Forall₂ (fun a b => f a = .ok b) l l' := by
  induction l with
  | nil =>
    intro l'
    rw [mapM_nil, pure_ok, Except.ok.injEq, forall₂_nil_left_iff]
    exact eq_comm
  | cons a l ih =>
    intro l'
    rw [mapM_cons, bind_ok, forall₂_cons_left_iff]
    constructor
    · rintro ⟨b, hb, h⟩
      obtain ⟨bs, hbs, h⟩ := bind_ok.1 h
      exact ⟨b, bs, hb, ih.1 hbs, (Except.ok.inj h).symm⟩
    · rintro ⟨b, bs, hb, hbs, rfl⟩
      exact ⟨b, hb, bind_ok.2 ⟨bs, ih.2 hbs, rfl⟩⟩

/-! ## Lockstep -/

/-- Both stop, or both succeed with `R`-related results. -/
def Agree (R : α → β → Prop) : Except ε α → Except ε' β → Prop
  | .ok a, .ok b => R a b
  | .error _, .error _ => True
  | _, _ => False

@[simp] theorem agree_error {e' : ε'} : Agree R (.error e : Except ε α) (.error e' : Except ε' β) := trivial

theorem Agree.bind {S : γ → δ → Prop} {y : Except ε' β}
    {f : α → Except ε γ} {g : β → Except ε' δ} (h : Agree R x y)
    (hfg : ∀ a b, x = .ok a → y = .ok b → R a b → Agree S (f a) (g b)) :
    Agree S (x >>= f) (y >>= g) := by
  cases x with
  | error e =>
    cases y with
    | error e' => exact agree_error
    | ok b => exact h.elim
  | ok a =>
    cases y with
    | error e' => exact h.elim
    | ok b => exact hfg a b rfl rfl h

theorem Agree.reject {R : Unit → Unit → Prop} (hR : R () ()) {b b' : Bool} (hb : b = b')
    {e' : ε'} : Agree R (Library.reject b e) (Library.reject b' e') := by
  subst hb
  cases b with
  | true => exact agree_error
  | false => exact hR

theorem Agree.foldlM {S : σ → τ → Prop} {f : σ → α → Except ε σ}
    {g : τ → β → Except ε' τ} {l' : List β} (hl : List.Forall₂ R l l')
    (hfg : ∀ s t a b, S s t → R a b → Agree S (f s a) (g t b)) {s : σ} {t : τ} (hst : S s t) :
    Agree S (l.foldlM f s) (l'.foldlM g t) := by
  induction hl generalizing s t with
  | nil => exact hst
  | cons hab _ ih =>
    rw [foldlM_cons, foldlM_cons]
    exact (hfg _ _ _ _ hst hab).bind fun _ _ _ _ h => ih h

end BalanceFrame.Library
