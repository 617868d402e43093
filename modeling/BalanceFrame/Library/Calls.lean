import Mathlib.Data.List.Basic

/-!
# Programs that call out

A program is finished, has failed, or makes a call and goes on with whatever the call answers
(`Prog`). An answer is a value or a failure, so that one program stands for all of its runs,
whatever is done elsewhere between two calls.

* `Ensures G Q h p`: after the calls `h`, every call of `p` meets `G`, and every outcome `Q`. Its
  rules follow the program (`ensures_bind`, `ensures_ask`, `ensures_attempt`, `Ensures.mono`).
* `Issued p h c`: in some run, `p` makes the call `c` after the calls `h`. What a program ensures
  holds of every call that is made (`Ensures.issued`).
* `run`: the calls against given answers; each of them is made (`issued_of_run`).
-/

namespace BalanceFrame.Library

/-- A program over the calls `C`; a call `c` answers with an `A c`, or fails. -/
inductive Prog (C : Type) (A : C → Type) (ε α : Type)
  | done (a : α)
  | stop (e : ε)
  | call (c : C) (next : Except ε (A c) → Prog C A ε α)

/-- A call, and its answer. -/
abbrev Event (C : Type) (A : C → Type) (ε : Type) := Σ c : C, Except ε (A c)

namespace Prog

variable {C : Type} {A : C → Type} {ε α β : Type}

def bind : Prog C A ε α → (α → Prog C A ε β) → Prog C A ε β
  | done a, f => f a
  | stop e, _ => stop e
  | call c next, f => call c fun r => (next r).bind f

instance : Monad (Prog C A ε) where
  pure := done
  bind := bind

/-- A call whose failure is the program's. -/
def ask (c : C) : Prog C A ε (A c) :=
  call c fun
    | .ok a => done a
    | .error e => stop e

/-- `try`: the outcome, instead of a failure. -/
def attempt : Prog C A ε α → Prog C A ε (Except ε α)
  | done a => done (.ok a)
  | stop e => done (.error e)
  | call c next => call c fun r => (next r).attempt

/-- What is known already, or a failure. -/
def ofExcept : Except ε α → Prog C A ε α
  | .ok a => done a
  | .error e => stop e

/-! ## What a program ensures -/

/-- After the calls `h`, every call meets `G`, and every outcome meets `Q`. -/
def Ensures (G : List (Event C A ε) → C → Prop) (Q : List (Event C A ε) → Except ε α → Prop) :
    List (Event C A ε) → Prog C A ε α → Prop
  | h, done a => Q h (.ok a)
  | h, stop e => Q h (.error e)
  | h, call c next => G h c ∧ ∀ r, Ensures G Q (h ++ [⟨c, r⟩]) (next r)

variable {G : List (Event C A ε) → C → Prop} {Q R : List (Event C A ε) → Except ε α → Prop}
  {h : List (Event C A ε)} {p : Prog C A ε α}

@[simp] theorem ensures_pure {a : α} : Ensures G Q h (pure a) ↔ Q h (.ok a) := Iff.rfl

@[simp] theorem ensures_stop {e : ε} : Ensures G Q h (stop e) ↔ Q h (.error e) := Iff.rfl

@[simp] theorem ensures_ofExcept {x : Except ε α} : Ensures G Q h (ofExcept x) ↔ Q h x := by
  cases x <;> rfl

variable {c : C}

theorem ensures_ask {Q : List (Event C A ε) → Except ε (A c) → Prop} :
    Ensures G Q h (ask c) ↔ G h c ∧ ∀ r, Q (h ++ [⟨c, r⟩]) r := by
  refine and_congr Iff.rfl (forall_congr' fun r => ?_)
  cases r <;> rfl

variable {f : α → Prog C A ε β}

theorem ensures_bind {Q : List (Event C A ε) → Except ε β → Prop} :
    Ensures G Q h (p >>= f) ↔ Ensures G (fun h' r => match r with
      | .ok a => Ensures G Q h' (f a)
      | .error e => Q h' (.error e)) h p := by
  change Ensures G Q h (p.bind f) ↔ _
  induction p generalizing h with
  | done a => rfl
  | stop e => rfl
  | call c next ih => exact and_congr Iff.rfl (forall_congr' fun r => ih r)

theorem ensures_attempt {Q : List (Event C A ε) → Except ε (Except ε α) → Prop} :
    Ensures G Q h p.attempt ↔ Ensures G (fun h' r => Q h' (.ok r)) h p := by
  induction p generalizing h with
  | done a => rfl
  | stop e => rfl
  | call c next ih => exact and_congr Iff.rfl (forall_congr' fun r => ih r)

theorem Ensures.mono (hp : Ensures G Q h p) (hQ : ∀ h' r, h <+: h' → Q h' r → R h' r) :
    Ensures G R h p := by
  induction p generalizing h with
  | done a => exact hQ h _ (List.prefix_refl h) hp
  | stop e => exact hQ h _ (List.prefix_refl h) hp
  | call c next ih =>
    exact ⟨hp.1, fun r => ih r (hp.2 r) fun h' r' hle =>
      hQ h' r' ((List.prefix_append h _).trans hle)⟩

theorem Ensures.bind {Q : List (Event C A ε) → Except ε β → Prop} (hp : Ensures G R h p)
    (herror : ∀ h' e, h <+: h' → R h' (.error e) → Q h' (.error e))
    (hok : ∀ h' a, h <+: h' → R h' (.ok a) → Ensures G Q h' (f a)) : Ensures G Q h (p >>= f) := by
  rw [ensures_bind]
  refine hp.mono fun h' r hle hr => ?_
  cases r with
  | ok a => exact hok h' a hle hr
  | error e => exact herror h' e hle hr

/-! ## Programs of which only the calls matter -/

/-- Every call meets `G`. -/
abbrev Safe (G : List (Event C A ε) → C → Prop) (h : List (Event C A ε)) (p : Prog C A ε α) : Prop :=
  Ensures G (fun _ _ => True) h p

theorem safe_bind (hp : Safe G h p) (hf : ∀ h' a, h <+: h' → Safe G h' (f a)) :
    Safe G h (p >>= f) :=
  hp.bind (fun _ _ _ _ => trivial) fun h' a hle _ => hf h' a hle

theorem safe_attempt (hp : Safe G h p) : Safe G h p.attempt := ensures_attempt.mpr hp

theorem safe_ite {c : Prop} [Decidable c] {q : Prog C A ε α} (hp : Safe G h p) (hq : Safe G h q) :
    Safe G h (if c then p else q) := by
  split
  · exact hp
  · exact hq

theorem safe_ask_bind {f : A c → Prog C A ε β} (hc : G h c)
    (hf : ∀ a, Safe G (h ++ [⟨c, .ok a⟩]) (f a)) : Safe G h (ask c >>= f) := by
  refine ensures_bind.mpr (ensures_ask.mpr ⟨hc, fun r => ?_⟩)
  cases r with
  | ok a => exact hf a
  | error e => trivial

theorem safe_attempt_bind {f : Except ε (A c) → Prog C A ε β} (hc : G h c)
    (hf : ∀ r, Safe G (h ++ [⟨c, r⟩]) (f r)) : Safe G h ((ask c).attempt >>= f) :=
  ensures_bind.mpr (ensures_attempt.mpr (ensures_ask.mpr ⟨hc, hf⟩))

/-! ## The calls that are made -/

/-- In some run, `p` makes the call `c` after the calls `h`. -/
inductive Issued : Prog C A ε α → List (Event C A ε) → C → Prop
  | now (c : C) (next : Except ε (A c) → Prog C A ε α) : Issued (call c next) [] c
  | later {c : C} {next : Except ε (A c) → Prog C A ε α} (r : Except ε (A c))
      {h : List (Event C A ε)} {d : C} (hd : Issued (next r) h d) :
      Issued (call c next) (⟨c, r⟩ :: h) d

theorem Ensures.issued {t : List (Event C A ε)} (hp : Ensures G Q h p) (hc : Issued p t c) :
    G (h ++ t) c := by
  induction hc generalizing h with
  | now c next =>
    rw [List.append_nil]
    exact hp.1
  | later r _ ih =>
    rw [List.append_cons]
    exact ih (hp.2 r)

def run (answer : (c : C) → Except ε (A c)) : Prog C A ε α → List (Event C A ε)
  | done _ => []
  | stop _ => []
  | call c next => ⟨c, answer c⟩ :: run answer (next (answer c))

theorem issued_of_run {answer : (c : C) → Except ε (A c)} :
    ∀ {p : Prog C A ε α} {before after : List (Event C A ε)} {e : Event C A ε},
      p.run answer = before ++ e :: after → Issued p before e.1
  | done _, before, _, _, h => by simp [run] at h
  | stop _, before, _, _, h => by simp [run] at h
  | call c next, before, after, e, h => by
    cases before with
    | nil =>
      rw [run, List.nil_append, List.cons.injEq] at h
      rw [← h.1]
      exact .now c next
    | cons d before =>
      rw [run, List.cons_append, List.cons.injEq] at h
      rw [← h.1]
      exact .later _ (issued_of_run h.2)

theorem issued_of_find? {answer : (c : C) → Except ε (A c)} {isKind : Event C A ε → Bool}
    {e : Event C A ε} (h : (p.run answer).find? isKind = some e) :
    Issued p ((p.run answer).takeWhile (!isKind ·)) e.1 := by
  obtain ⟨he, before, after, hrun, hbefore⟩ := List.find?_eq_some_iff_append.mp h
  have htake : (p.run answer).takeWhile (!isKind ·) = before := by
    rw [hrun, List.takeWhile_append_of_pos hbefore, List.takeWhile_cons_of_neg (by simp [he]),
      List.append_nil]
  rw [htake]
  exact issued_of_run hrun

end Prog

end BalanceFrame.Library

/-!
## Tasks over a shared world

Programs that call out run side by side: at every step some task gets the answer to its next call,
which may change the world, another program is started, or the world changes by itself (`Step`).

* `Reachable.ensured`: what every program that may be started ensures, every task ensures, with the
  calls that it has made so far.
* `Reachable.world`: an invariant of the world, and what each past call of a task says of the world,
  from what one answer does.
* `Reachable.advance`: a task run alone up to a call, against given answers.
-/

namespace BalanceFrame.Library

open Prog List

/-- A program under way: its calls so far, and what is left of it. -/
structure Task (C : Type) (A : C → Type) (ε α : Type) where
  past : List (Event C A ε)
  rest : Prog C A ε α

/-- The programs that may be started, how the world answers, and what else happens to it. -/
structure System (σ C : Type) (A : C → Type) (ε α : Type) where
  starts : Prog C A ε α → Prop
  answers : σ → (c : C) → Except ε (A c) → σ → Prop
  others : σ → σ → Prop

/-- A world, and the tasks over it. -/
structure Running (σ C : Type) (A : C → Type) (ε α : Type) where
  world : σ
  tasks : List (Task C A ε α)

namespace System

variable {σ C : Type} {A : C → Type} {ε α : Type} (S : System σ C A ε α)

/-- One step of the system. -/
inductive Step : Running σ C A ε α → Running σ C A ε α → Prop
  | start {w : σ} {tasks : List (Task C A ε α)} {p : Prog C A ε α} (hp : S.starts p) :
    Step ⟨w, tasks⟩ ⟨w, tasks ++ [⟨[], p⟩]⟩
  | answer {w w' : σ} {before after : List (Task C A ε α)} {h : List (Event C A ε)} {c : C}
      {next : Except ε (A c) → Prog C A ε α} {r : Except ε (A c)} (hr : S.answers w c r w') :
    Step ⟨w, before ++ ⟨h, call c next⟩ :: after⟩
      ⟨w', before ++ ⟨h ++ [⟨c, r⟩], next r⟩ :: after⟩
  | other {w w' : σ} {tasks : List (Task C A ε α)} (hw : S.others w w') :
    Step ⟨w, tasks⟩ ⟨w', tasks⟩

/-- A state of some run from the world `w`. -/
inductive Reachable (w : σ) : Running σ C A ε α → Prop
  | init : Reachable w ⟨w, []⟩
  | step {s s' : Running σ C A ε α} (hs : Reachable w s) (h : S.Step s s') : Reachable w s'

variable {S}

variable {s : Running σ C A ε α}

/-- A task of the next state: it was there, it has been answered, or it was started. -/
theorem Step.tasks {s' : Running σ C A ε α} (h : S.Step s s') {t : Task C A ε α}
    (ht : t ∈ s'.tasks) : t ∈ s.tasks ∨ (∃ p, S.starts p ∧ t = ⟨[], p⟩) ∨
      ∃ h c next r, (⟨h, call c next⟩ : Task C A ε α) ∈ s.tasks ∧
        S.answers s.world c r s'.world ∧ t = ⟨h ++ [⟨c, r⟩], next r⟩ := by
  cases h with
  | start hp =>
    rcases mem_append.mp ht with ht | ht
    · exact .inl ht
    · exact .inr (.inl ⟨_, hp, mem_singleton.mp ht⟩)
  | answer hr =>
    rcases mem_append.mp ht with ht | ht
    · exact .inl (mem_append_left _ ht)
    · rcases mem_cons.mp ht with rfl | ht
      · exact .inr (.inr ⟨_, _, _, _, mem_append_right _ mem_cons_self, hr, rfl⟩)
      · exact .inl (mem_append_right _ (mem_cons_of_mem _ ht))
  | other hw => exact .inl ht

theorem Reachable.ensured {G : List (Event C A ε) → C → Prop}
    {Q : List (Event C A ε) → Except ε α → Prop} (hstart : ∀ p, S.starts p → Ensures G Q [] p)
    {w : σ} (hs : S.Reachable w s) : ∀ t ∈ s.tasks, Ensures G Q t.past t.rest := by
  induction hs with
  | init => exact fun t ht => absurd ht not_mem_nil
  | step hs h ih =>
    intro t ht
    rcases h.tasks ht with hmem | ⟨p, hp, rfl⟩ | ⟨past, c, next, r, hmem, _, rfl⟩
    · exact ih t hmem
    · exact hstart p hp
    · exact (ih _ hmem).2 r

/-- **An invariant of the world, with what past calls say of it.** One answer, to a call that meets
what is ensured, has to keep both. -/
theorem Reachable.world {G : List (Event C A ε) → C → Prop}
    {Q : List (Event C A ε) → Except ε α → Prop} (hstart : ∀ p, S.starts p → Ensures G Q [] p)
    {I : σ → Prop} {K : σ → Event C A ε → Prop}
    (hanswer : ∀ w h c r w', I w → (∀ e ∈ h, K w e) → G h c → S.answers w c r w' →
      I w' ∧ K w' ⟨c, r⟩ ∧ ∀ e, K w e → K w' e)
    (hother : ∀ w w', I w → S.others w w' → I w' ∧ ∀ e, K w e → K w' e) {w : σ} (hw : I w)
    (hs : S.Reachable w s) : I s.world ∧ ∀ t ∈ s.tasks, ∀ e ∈ t.past, K s.world e := by
  induction hs with
  | init => exact ⟨hw, fun t ht => absurd ht not_mem_nil⟩
  | step hs h ih =>
    obtain ⟨hI, hK⟩ := ih
    have hensured := hs.ensured hstart
    cases h with
    | start hp =>
      refine ⟨hI, fun t ht e he => ?_⟩
      rcases mem_append.mp ht with ht | ht
      · exact hK t ht e he
      · rw [mem_singleton.mp ht] at he
        exact absurd he not_mem_nil
    | @answer w₁ w₂ before after past c next r hr =>
      have hmem : (⟨past, call c next⟩ : Task C A ε α) ∈ before ++ ⟨past, call c next⟩ :: after :=
        mem_append_right _ mem_cons_self
      obtain ⟨hI', hnew, hkeep⟩ :=
        hanswer w₁ past c r w₂ hI (hK _ hmem) (hensured _ hmem).1 hr
      refine ⟨hI', fun t ht e he => ?_⟩
      rcases mem_append.mp ht with ht | ht
      · exact hkeep e (hK t (mem_append_left _ ht) e he)
      · rcases mem_cons.mp ht with rfl | ht
        · rcases mem_append.mp he with he | he
          · exact hkeep e (hK _ hmem e he)
          · rw [mem_singleton.mp he]
            exact hnew
        · exact hkeep e (hK t (mem_append_right _ (mem_cons_of_mem _ ht)) e he)
    | other hw' =>
      obtain ⟨hI', hkeep⟩ := hother _ _ hI hw'
      exact ⟨hI', fun t ht e he => hkeep e (hK t ht e he)⟩

/-! ## Runs against given answers -/

def advance (answer : σ → (c : C) → Except ε (A c) × σ) (isLast : σ → C → Bool) :
    σ → List (Event C A ε) → Prog C A ε α → σ × Task C A ε α
  | w, h, done a => (w, ⟨h, done a⟩)
  | w, h, stop e => (w, ⟨h, stop e⟩)
  | w, h, call c next =>
    if isLast w c then (w, ⟨h, call c next⟩)
    else advance answer isLast (answer w c).2 (h ++ [⟨c, (answer w c).1⟩]) (next (answer w c).1)

theorem Reachable.advance {answer : σ → (c : C) → Except ε (A c) × σ}
    (isLast : σ → C → Bool)
    (hanswer : ∀ w c, isLast w c = false → S.answers w c (answer w c).1 (answer w c).2) {w₀ : σ}
    {before : List (Task C A ε α)} :
    ∀ (p : Prog C A ε α) (w : σ) (h : List (Event C A ε)),
      S.Reachable w₀ ⟨w, before ++ [⟨h, p⟩]⟩ →
        S.Reachable w₀ ⟨(System.advance answer isLast w h p).1,
          before ++ [(System.advance answer isLast w h p).2]⟩
  | done a, w, h, hs => hs
  | stop e, w, h, hs => hs
  | call c next, w, h, hs => by
    unfold System.advance
    split
    · exact hs
    · rename_i hlast
      exact Reachable.advance isLast hanswer _ _ _
        (hs.step (.answer (hanswer w c (Bool.eq_false_iff.mpr hlast))))

def isAt (isKind : C → Bool) (t : Task C A ε α) : Bool :=
  match t.rest with
  | call c _ => isKind c
  | _ => false

theorem exists_of_isAt (isKind : C → Bool) {t : Task C A ε α} (h : isAt isKind t = true) :
    ∃ c next, isKind c = true ∧ t = ⟨t.past, call c next⟩ := by
  obtain ⟨past, rest⟩ := t
  cases rest with
  | done a => cases h
  | stop e => cases h
  | call c next => exact ⟨c, next, h, rfl⟩

end System

end BalanceFrame.Library
