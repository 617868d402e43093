import BalanceFrame.Library.Calls
import Mathlib.Data.List.Pairwise

/-!
# A lock of promises

The mutual exclusion of a promise chain: a section takes the promise at the tail and leaves its own
there, waits for the former to settle, runs, and settles its own (`exclusive`).

* `Upholds`: what a program ensures of a state that only its own calls change; its rules follow the
  program, as those of `Ensures` do.
* `Keeps`: a program with sections, each of which finds an invariant of the state and leaves it
  (`keeps_exclusive`).
* `Reachable.sound`: the programs that keep the invariant side by side. At most one task is in its
  section (`Sound.alone`), the state is the one that its program knows, and without one the invariant
  holds (`Sound.safe`). Some task can always move (`Sound.moves`), in the order of the promises
  (`Sound.served_first`).
-/

namespace BalanceFrame.Library

open Prog List

/-! ## Programs over a state -/

section Upholds

variable {C : Type} {A : C → Type} {ε α β ν : Type}
  {effect : ν → (c : C) → Except ε (A c) → ν → Prop} {G : List (Event C A ε) → ν → C → Prop}

/-- From the state `v`, after the calls `h`: every call meets `G`, and every outcome `Q`. -/
def Upholds (effect : ν → (c : C) → Except ε (A c) → ν → Prop)
    (G : List (Event C A ε) → ν → C → Prop) (Q : List (Event C A ε) → ν → Except ε α → Prop) :
    List (Event C A ε) → ν → Prog C A ε α → Prop
  | h, v, .done a => Q h v (.ok a)
  | h, v, .stop e => Q h v (.error e)
  | h, v, .call c next =>
    G h v c ∧ ∀ r v', effect v c r v' → Upholds effect G Q (h ++ [⟨c, r⟩]) v' (next r)

variable {Q R : List (Event C A ε) → ν → Except ε α → Prop} {h : List (Event C A ε)} {v : ν}
  {p : Prog C A ε α}

theorem upholds_ask {c : C} {Q : List (Event C A ε) → ν → Except ε (A c) → Prop} :
    Upholds effect G Q h v (ask c) ↔
      G h v c ∧ ∀ r v', effect v c r v' → Q (h ++ [⟨c, r⟩]) v' r := by
  refine and_congr Iff.rfl (forall_congr' fun r => ?_)
  cases r <;> rfl

theorem upholds_ofExcept {x : Except ε α} : Upholds effect G Q h v (ofExcept x) ↔ Q h v x := by
  cases x <;> rfl

theorem upholds_ite {c : Prop} [Decidable c] {q : Prog C A ε α}
    (hp : c → Upholds effect G Q h v p) (hq : ¬c → Upholds effect G Q h v q) :
    Upholds effect G Q h v (if c then p else q) := by
  by_cases hc : c
  · rw [if_pos hc]
    exact hp hc
  · rw [if_neg hc]
    exact hq hc

theorem upholds_bind {Q : List (Event C A ε) → ν → Except ε β → Prop} {f : α → Prog C A ε β} :
    Upholds effect G Q h v (p >>= f) ↔ Upholds effect G (fun h' v' r => match r with
      | .ok a => Upholds effect G Q h' v' (f a)
      | .error e => Q h' v' (.error e)) h v p := by
  change Upholds effect G Q h v (p.bind f) ↔ _
  induction p generalizing h v with
  | done a => rfl
  | stop e => rfl
  | call c next ih =>
    exact and_congr Iff.rfl (forall_congr' fun r => forall_congr' fun v' =>
      imp_congr_right fun _ => ih r)

theorem upholds_attempt {Q : List (Event C A ε) → ν → Except ε (Except ε α) → Prop} :
    Upholds effect G Q h v p.attempt ↔ Upholds effect G (fun h' v' r => Q h' v' (.ok r)) h v p := by
  induction p generalizing h v with
  | done a => rfl
  | stop e => rfl
  | call c next ih =>
    exact and_congr Iff.rfl (forall_congr' fun r => forall_congr' fun v' =>
      imp_congr_right fun _ => ih r)

theorem Upholds.mono (hp : Upholds effect G Q h v p)
    (hQ : ∀ h' v' r, h <+: h' → Q h' v' r → R h' v' r) : Upholds effect G R h v p := by
  induction p generalizing h v with
  | done a => exact hQ h v _ (prefix_refl h) hp
  | stop e => exact hQ h v _ (prefix_refl h) hp
  | call c next ih =>
    exact ⟨hp.1, fun r v' hv => ih r (hp.2 r v' hv) fun h' v'' r' hle =>
      hQ h' v'' r' ((prefix_append h _).trans hle)⟩

theorem Upholds.bind {Q : List (Event C A ε) → ν → Except ε β → Prop} {f : α → Prog C A ε β}
    (hp : Upholds effect G R h v p)
    (herror : ∀ h' v' e, h <+: h' → R h' v' (.error e) → Q h' v' (.error e))
    (hok : ∀ h' v' a, h <+: h' → R h' v' (.ok a) → Upholds effect G Q h' v' (f a)) :
    Upholds effect G Q h v (p >>= f) := by
  refine upholds_bind.mpr (hp.mono fun h' v' r hle hr => ?_)
  cases r with
  | ok a => exact hok h' v' a hle hr
  | error e => exact herror h' v' e hle hr

end Upholds

/-! ## Sections -/

/-- The calls of a lock, beside those over the state that it protects. -/
inductive Locking (C : Type)
  | take
  | await (predecessor : Nat)
  | settle (mine : Nat)
  | inner (c : C)

/-- The turn of a task, by the promises it has. -/
inductive Turn
  | idle
  | waiting (predecessor mine : Nat)
  | holding (mine : Nat)
  deriving DecidableEq

namespace Turn

/-- The promise to settle. -/
def ticket : Turn → Option Nat
  | idle => none
  | waiting _ mine => some mine
  | holding mine => some mine

def isHolding : Turn → Bool
  | holding _ => true
  | _ => false

end Turn

namespace Locking

variable {C : Type} {A : C → Type} {ε α β ν : Type}

def Answer (A : C → Type) : Locking C → Type
  | take => Nat × Nat
  | await _ => Unit
  | settle _ => Unit
  | inner c => A c

/-- The program of a section. -/
def lift : Prog C A ε α → Prog (Locking C) (Answer A) ε α
  | .done a => .done a
  | .stop e => .stop e
  | .call c next => .call (.inner c) fun r => lift (next r)

/-- The promise at the tail, and one's own in its place. -/
def takeTail : Prog (Locking C) (Answer A) ε (Nat × Nat) := ask (A := Answer A) take

def awaitPromise (predecessor : Nat) : Prog (Locking C) (Answer A) ε Unit :=
  ask (A := Answer A) (await predecessor)

def settlePromise (mine : Nat) : Prog (Locking C) (Answer A) ε Unit :=
  ask (A := Answer A) (settle mine)

/-- A call over the state, outside. -/
def outside (c : C) : Prog (Locking C) (Answer A) ε (A c) := ask (A := Answer A) (inner c)

/-- A section. -/
def exclusive (body : Prog C A ε α) : Prog (Locking C) (Answer A) ε α := do
  let promises ← takeTail
  awaitPromise promises.1
  let outcome ← attempt (lift body)
  settlePromise promises.2
  ofExcept outcome

/-- What a call makes of the turn. -/
def nextTurn (turn : Turn) : Event (Locking C) (Answer A) ε → Turn
  | ⟨.take, .ok (predecessor, mine)⟩ => .waiting predecessor mine
  | ⟨.await _, .ok _⟩ => match turn with
    | .waiting _ mine => .holding mine
    | turn => turn
  | ⟨.settle _, .ok _⟩ => .idle
  | _ => turn

/-- The turn after some calls. -/
def turn (h : List (Event (Locking C) (Answer A) ε)) : Turn := h.foldl nextTurn .idle

/-- The calls over the state. -/
def within (h : List (Event (Locking C) (Answer A) ε)) : List (Event C A ε) :=
  h.filterMap fun
    | ⟨.inner c, r⟩ => some ⟨c, r⟩
    | _ => none

@[simp] theorem turn_snoc (h : List (Event (Locking C) (Answer A) ε))
    (e : Event (Locking C) (Answer A) ε) : turn (h ++ [e]) = nextTurn (turn h) e := by
  rw [turn, foldl_append]
  rfl

@[simp] theorem within_inner (h : List (Event (Locking C) (Answer A) ε)) (c : C)
    (r : Except ε (A c)) : within (h ++ [⟨.inner c, r⟩]) = within h ++ [⟨c, r⟩] := by
  rw [within, filterMap_append]
  rfl

end Locking

open Locking

/-! ## What a program with sections keeps -/

/-- What sections are about: what the calls do to the state, the calls that may be made outside, what
every call of a section meets, and what a section finds and leaves. -/
structure Discipline (C : Type) (A : C → Type) (ε ν : Type) where
  effect : ν → (c : C) → Except ε (A c) → ν → Prop
  isQuiet : C → Prop
  guard : List (Event C A ε) → ν → C → Prop
  invariant : ν → Prop
  quiet_effect : ∀ {v c r v'}, isQuiet c → effect v c r v' → v' = v

namespace Discipline

variable {C : Type} {A : C → Type} {ε α β ν : Type} (D : Discipline C A ε ν)

/-- A program that is outside keeps to the quiet calls; one that has the lock meets the guard, and
gives the lock back where the invariant holds. -/
def Keeps : List (Event (Locking C) (Answer A) ε) → ν → Prog (Locking C) (Answer A) ε α → Prop
  | h, _, .done _ => turn h = .idle
  | h, _, .stop _ => turn h = .idle
  | h, v, .call .take next => turn h = .idle ∧
    ∀ promises : Nat × Nat, Keeps (h ++ [⟨.take, .ok promises⟩]) v (next (.ok promises))
  | h, _, .call (.await predecessor) next => (∃ mine, turn h = .waiting predecessor mine) ∧
    ∀ v, D.invariant v → Keeps (h ++ [⟨.await predecessor, .ok ()⟩]) v (next (.ok ()))
  | h, v, .call (.settle mine) next => turn h = .holding mine ∧ D.invariant v ∧
    Keeps (h ++ [⟨.settle mine, .ok ()⟩]) v (next (.ok ()))
  | h, v, .call (.inner c) next =>
    ((turn h).isHolding = false ∧ D.isQuiet c ∧
      ∀ r, Keeps (h ++ [⟨.inner c, r⟩]) v (next r)) ∨
    ((turn h).isHolding = true ∧ D.guard (within h) v c ∧
      ∀ r v', D.effect v c r v' → Keeps (h ++ [⟨.inner c, r⟩]) v' (next r))

variable {D} {h : List (Event (Locking C) (Answer A) ε)} {v : ν}
  {p : Prog (Locking C) (Answer A) ε α}

theorem Keeps.stable (hp : D.Keeps h v p) (hturn : (turn h).isHolding = false) (v' : ν) :
    D.Keeps h v' p := by
  induction p generalizing h with
  | done a => exact hp
  | stop e => exact hp
  | call c next ih =>
    cases c with
    | take => exact ⟨hp.1, fun promises => ih _ (hp.2 promises) (by rw [turn_snoc]; rfl)⟩
    | await predecessor => exact hp
    | settle mine => rw [hp.1] at hturn; cases hturn
    | inner c =>
      rcases hp with ⟨_, hquiet, hnext⟩ | ⟨hholding, _⟩
      · exact .inl ⟨hturn, hquiet, fun r => ih r (hnext r) (by rw [turn_snoc]; exact hturn)⟩
      · rw [hholding] at hturn
        cases hturn

theorem Keeps.bind {f : α → Prog (Locking C) (Answer A) ε β} (hp : D.Keeps h v p)
    (hf : ∀ h' v' a, turn h' = .idle → D.Keeps h' v' (f a)) : D.Keeps h v (p >>= f) := by
  change D.Keeps h v (p.bind f)
  induction p generalizing h v with
  | done a => exact hf h v a hp
  | stop e => exact hp
  | call c next ih =>
    cases c with
    | take => exact ⟨hp.1, fun promises => ih _ (hp.2 promises)⟩
    | await predecessor => exact ⟨hp.1, fun v' hv' => ih _ (hp.2 v' hv')⟩
    | settle mine => exact ⟨hp.1, hp.2.1, ih _ hp.2.2⟩
    | inner c =>
      rcases hp with ⟨hturn, hquiet, hnext⟩ | ⟨hturn, hguard, hnext⟩
      · exact .inl ⟨hturn, hquiet, fun r => ih r (hnext r)⟩
      · exact .inr ⟨hturn, hguard, fun r v' hv' => ih r (hnext r v' hv')⟩

theorem Keeps.attempt (hp : D.Keeps h v p) : D.Keeps h v p.attempt := by
  induction p generalizing h v with
  | done a => exact hp
  | stop e => exact hp
  | call c next ih =>
    cases c with
    | take => exact ⟨hp.1, fun promises => ih _ (hp.2 promises)⟩
    | await predecessor => exact ⟨hp.1, fun v' hv' => ih _ (hp.2 v' hv')⟩
    | settle mine => exact ⟨hp.1, hp.2.1, ih _ hp.2.2⟩
    | inner c =>
      rcases hp with ⟨hturn, hquiet, hnext⟩ | ⟨hturn, hguard, hnext⟩
      · exact .inl ⟨hturn, hquiet, fun r => ih r (hnext r)⟩
      · exact .inr ⟨hturn, hguard, fun r v' hv' => ih r (hnext r v' hv')⟩

theorem keeps_ofExcept {x : Except ε α} (hturn : turn h = .idle) : D.Keeps h v (ofExcept x) := by
  cases x <;> exact hturn

theorem keeps_outside_bind {c : C} {f : A c → Prog (Locking C) (Answer A) ε β} (hturn : turn h = .idle)
    (hquiet : D.isQuiet c)
    (hf : ∀ h' a, turn h' = .idle → D.Keeps h' v (f a)) :
    D.Keeps h v (outside c >>= f) := by
  refine .inl ⟨by rw [hturn]; rfl, hquiet, fun r => ?_⟩
  have hidle : turn (h ++ [⟨.inner c, r⟩]) = .idle := by rw [turn_snoc]; exact hturn
  cases r with
  | ok a => exact hf _ a hidle
  | error e => exact hidle

theorem keeps_section {body : Prog C A ε α} {mine : Nat} (hturn : turn h = .holding mine)
    (hbody : Upholds D.effect D.guard (fun _ v _ => D.invariant v) (within h) v body) :
    D.Keeps h v ((lift body).attempt >>= fun outcome =>
      settlePromise mine >>= fun _ => ofExcept outcome) := by
  have hend : ∀ {h : List (Event (Locking C) (Answer A) ε)} {v : ν} {outcome : Except ε α},
      turn h = .holding mine → D.invariant v →
        D.Keeps h v (settlePromise mine >>= fun _ => ofExcept outcome) := by
    intro h v outcome hturn hv
    refine ⟨hturn, hv, keeps_ofExcept ?_⟩
    rw [turn_snoc]
    rfl
  induction body generalizing h v with
  | done a => exact hend hturn hbody
  | stop e => exact hend hturn hbody
  | call c next ih =>
    refine .inr ⟨by rw [hturn]; rfl, hbody.1, fun r v' hv' => ih r ?_ ?_⟩
    · rw [turn_snoc]
      exact hturn
    · rw [within_inner]
      exact hbody.2 r v' hv'

/-- **A section whose program leaves the invariant it finds.** -/
theorem keeps_exclusive {body : Prog C A ε α} (hturn : turn h = .idle)
    (hbody : ∀ h v, D.invariant v →
      Upholds D.effect D.guard (fun _ v _ => D.invariant v) h v body) :
    D.Keeps h v (exclusive body) := by
  change _ ∧ _
  refine ⟨hturn, fun promises => ⟨⟨promises.2, ?_⟩, fun v' hv' => ?_⟩⟩
  · rw [turn_snoc]
    rfl
  · refine keeps_section ?_ (hbody _ v' hv')
    rw [turn_snoc, turn_snoc]
    rfl

end Discipline

/-! ## Sections side by side -/

/-- The promise at the tail of the chain, the promises that are settled, and what is protected. -/
structure Locked (ν : Type) where
  tail : Nat
  settled : List Nat
  state : ν

namespace Discipline

variable {C : Type} {A : C → Type} {ε α ν : Type} (D : Discipline C A ε ν)

/-- How a world answers; to wait for a promise that is not settled has no answer yet. -/
inductive Answers (w : Locked ν) :
    (c : Locking C) → Except ε (Answer A c) → Locked ν → Prop
  | take : Answers w .take (.ok (w.tail, w.tail + 1)) { w with tail := w.tail + 1 }
  | await {predecessor : Nat} (h : predecessor ∈ w.settled) :
    Answers w (.await predecessor) (.ok ()) w
  | settle (mine : Nat) :
    Answers w (.settle mine) (.ok ()) { w with settled := mine :: w.settled }
  | inner {c : C} {r : Except ε (A c)} {v : ν} (h : D.effect w.state c r v) :
    Answers w (.inner c) r { w with state := v }

/-- Programs with sections, side by side. -/
def system (starts : Prog (Locking C) (Answer A) ε α → Prop) :
    System (Locked ν) (Locking C) (Answer A) ε α where
  starts := starts
  answers := D.Answers
  others _ _ := False

/-- The first promise is settled. -/
def start (v : ν) : Locked ν := ⟨0, [0], v⟩

/-- The turn of a task. -/
abbrev turnOf (t : Task (Locking C) (Answer A) ε α) : Turn := turn t.past

/-- What a task has of the promises. -/
def HasTicket (w : Locked ν) : Turn → Prop
  | .idle => True
  | .waiting predecessor mine => predecessor + 1 = mine ∧ mine ≤ w.tail ∧ mine ∉ w.settled
  | .holding mine => ∃ predecessor, predecessor + 1 = mine ∧ mine ≤ w.tail ∧ mine ∉ w.settled ∧
    predecessor ∈ w.settled

/-- No two tasks have one promise to settle. -/
def Apart (t u : Task (Locking C) (Answer A) ε α) : Prop :=
  ∀ mine, (turnOf t).ticket = some mine → (turnOf u).ticket ≠ some mine

/-- The invariant of all runs. -/
structure Sound (s : Running (Locked ν) (Locking C) (Answer A) ε α) : Prop where
  keeps : ∀ t ∈ s.tasks, D.Keeps t.past s.world.state t.rest
  tickets : ∀ t ∈ s.tasks, HasTicket s.world (turnOf t)
  apart : s.tasks.Pairwise Apart
  served : ∃ n ≤ s.world.tail, ∀ mine, mine ∈ s.world.settled ↔ mine ≤ n
  free : (∀ t ∈ s.tasks, (turnOf t).isHolding = false) → D.invariant s.world.state

variable {D} {s s' : Running (Locked ν) (Locking C) (Answer A) ε α}

theorem Apart.symm {t u : Task (Locking C) (Answer A) ε α} (h : Apart t u) : Apart u t :=
  fun mine hu ht => h mine ht hu

theorem Sound.holding_eq (h : D.Sound s) {t u : Task (Locking C) (Answer A) ε α} {i j : Nat}
    (ht : t ∈ s.tasks) (hu : u ∈ s.tasks) (hi : turnOf t = .holding i)
    (hj : turnOf u = .holding j) : i = j := by
  obtain ⟨n, -, hn⟩ := h.served
  have hti := h.tickets t ht
  have huj := h.tickets u hu
  rw [hi] at hti
  rw [hj] at huj
  obtain ⟨p, hp, -, hopen, hsettled⟩ := hti
  obtain ⟨q, hq, -, hopen', hsettled'⟩ := huj
  rw [hn] at hopen hsettled hopen' hsettled'
  omega

theorem Sound.alone (h : D.Sound s) : s.tasks.Pairwise fun t u =>
    ¬((turnOf t).isHolding = true ∧ (turnOf u).isHolding = true) := by
  refine h.apart.imp_of_mem fun {t u} ht hu hapart hboth => ?_
  obtain ⟨hti, huj⟩ := hboth
  cases hi : turnOf t with
  | idle => rw [hi] at hti; cases hti
  | waiting p i => rw [hi] at hti; cases hti
  | holding i =>
    cases hj : turnOf u with
    | idle => rw [hj] at huj; cases huj
    | waiting p j => rw [hj] at huj; cases huj
    | holding j =>
      have heq := h.holding_eq ht hu hi hj
      subst heq
      exact hapart i (by rw [hi]; rfl) (by rw [hj]; rfl)

theorem sound_start (v : ν) (hv : D.invariant v) :
    D.Sound (α := α) ⟨start v, []⟩ where
  keeps t ht := absurd ht not_mem_nil
  tickets t ht := absurd ht not_mem_nil
  apart := .nil
  served := ⟨0, Nat.le_refl 0, fun mine => by simp [start]⟩
  free _ := hv

theorem Sound.started (h : D.Sound s) {p : Prog (Locking C) (Answer A) ε α}
    (hp : D.Keeps [] s.world.state p) : D.Sound ⟨s.world, s.tasks ++ [⟨[], p⟩]⟩ where
  keeps t ht := by
    rcases mem_append.mp ht with ht | ht
    · exact h.keeps t ht
    · rw [mem_singleton.mp ht]
      exact hp
  tickets t ht := by
    rcases mem_append.mp ht with ht | ht
    · exact h.tickets t ht
    · rw [mem_singleton.mp ht]
      exact trivial
  apart := pairwise_append.mpr ⟨h.apart, pairwise_singleton _ _, fun t _ u hu mine _ hmine =>
    by rw [mem_singleton.mp hu] at hmine; cases hmine⟩
  served := h.served
  free hfree := h.free fun t ht => hfree t (mem_append_left _ ht)

theorem Sound.perm {tasks : List (Task (Locking C) (Answer A) ε α)} (h : D.Sound s)
    (hperm : s.tasks.Perm tasks) : D.Sound ⟨s.world, tasks⟩ where
  keeps t ht := h.keeps t (hperm.mem_iff.mpr ht)
  tickets t ht := h.tickets t (hperm.mem_iff.mpr ht)
  apart := (hperm.pairwise_iff fun {t u} (htu : Apart t u) => htu.symm).mp h.apart
  served := h.served
  free hfree := h.free fun t ht => hfree t (hperm.mem_iff.mp ht)

section Answered

variable {w w' : Locked ν} {x x' : Task (Locking C) (Answer A) ε α}
  {rest : List (Task (Locking C) (Answer A) ε α)}

theorem Sound.replace (h : D.Sound ⟨w, x :: rest⟩) (hkeeps : D.Keeps x'.past w'.state x'.rest)
    (hothers : ∀ u ∈ rest, D.Keeps u.past w'.state u.rest) (hticket : HasTicket w' (turnOf x'))
    (htickets : ∀ u ∈ rest, HasTicket w' (turnOf u)) (hapart : ∀ u ∈ rest, Apart x' u)
    (hserved : ∃ n ≤ w'.tail, ∀ mine, mine ∈ w'.settled ↔ mine ≤ n)
    (hfree : (turnOf x').isHolding = false → (∀ u ∈ rest, (turnOf u).isHolding = false) →
      D.invariant w'.state) : D.Sound ⟨w', x' :: rest⟩ where
  keeps := forall_mem_cons.mpr ⟨hkeeps, hothers⟩
  tickets := forall_mem_cons.mpr ⟨hticket, htickets⟩
  apart := pairwise_cons.mpr ⟨hapart, (pairwise_cons.mp h.apart).2⟩
  served := hserved
  free hall := hfree (forall_mem_cons.mp hall).1 (forall_mem_cons.mp hall).2

variable {mine : Nat} {past : List (Event (Locking C) (Answer A) ε)}

variable {turn : Turn}

theorem HasTicket.le_tail (h : HasTicket w turn) (hmine : turn.ticket = some mine) :
    mine ≤ w.tail := by
  cases turn with
  | idle => cases hmine
  | waiting p i => cases hmine; exact h.2.1
  | holding i =>
    cases hmine
    obtain ⟨_, _, hle, _⟩ := h
    exact hle

theorem HasTicket.take (h : HasTicket w turn) : HasTicket { w with tail := w.tail + 1 } turn := by
  cases turn with
  | idle => exact trivial
  | waiting p i => exact ⟨h.1, Nat.le_succ_of_le h.2.1, h.2.2⟩
  | holding i =>
    obtain ⟨p, hp, hle, hopen⟩ := h
    exact ⟨p, hp, Nat.le_succ_of_le hle, hopen⟩

theorem HasTicket.settle (h : HasTicket w turn) (hne : turn.ticket ≠ some mine) :
    HasTicket { w with settled := mine :: w.settled } turn := by
  cases turn with
  | idle => exact trivial
  | waiting p i =>
    refine ⟨h.1, h.2.1, fun hmem => ?_⟩
    rcases mem_cons.mp hmem with rfl | hmem
    · exact hne rfl
    · exact h.2.2 hmem
  | holding i =>
    obtain ⟨p, hp, hle, hopen, hsettled⟩ := h
    refine ⟨p, hp, hle, fun hmem => ?_, mem_cons_of_mem _ hsettled⟩
    rcases mem_cons.mp hmem with rfl | hmem
    · exact hne rfl
    · exact hopen hmem

theorem Sound.others_waiting (h : D.Sound ⟨w, x :: rest⟩) (hx : (turnOf x).isHolding = true) :
    ∀ u ∈ rest, (turnOf u).isHolding = false := by
  intro u hu
  have halone := (pairwise_cons.mp h.alone).1 u hu
  cases hholding : (turnOf u).isHolding with
  | false => rfl
  | true => exact absurd ⟨hx, hholding⟩ halone

theorem Sound.take {next : Except ε (Answer A .take) → Prog (Locking C) (Answer A) ε α}
    (h : D.Sound ⟨w, ⟨past, call .take next⟩ :: rest⟩) :
    D.Sound ⟨{ w with tail := w.tail + 1 },
      ⟨past ++ [⟨.take, .ok (w.tail, w.tail + 1)⟩], next (.ok (w.tail, w.tail + 1))⟩ :: rest⟩ := by
  obtain ⟨hturn, hnext⟩ := h.keeps _ mem_cons_self
  obtain ⟨n, hle, hn⟩ := h.served
  have hwaiting : turn (past ++ [⟨.take, .ok (w.tail, w.tail + 1)⟩]) =
      .waiting w.tail (w.tail + 1) := by rw [turn_snoc]; rfl
  refine h.replace (hnext _) (fun u hu => h.keeps u (mem_cons_of_mem _ hu)) ?_
    (fun u hu => (h.tickets u (mem_cons_of_mem _ hu)).take) (fun u hu mine hmine hother => ?_)
    ⟨n, Nat.le_succ_of_le hle, hn⟩ fun _ hrest => h.free (forall_mem_cons.mpr ⟨?_, hrest⟩)
  · rw [turnOf, hwaiting]
    refine ⟨rfl, Nat.le_refl _, fun hmem => ?_⟩
    exact Nat.not_succ_le_self _ (Nat.le_trans ((hn _).mp hmem) hle)
  · rw [turnOf, hwaiting] at hmine
    cases hmine
    have := (h.tickets u (mem_cons_of_mem _ hu)).le_tail hother
    dsimp only at this
    omega
  · rw [turnOf, hturn]
    rfl

theorem Sound.await {predecessor : Nat}
    {next : Except ε (Answer A (.await predecessor)) → Prog (Locking C) (Answer A) ε α}
    (h : D.Sound ⟨w, ⟨past, call (.await predecessor) next⟩ :: rest⟩)
    (hsettled : predecessor ∈ w.settled) : D.Sound ⟨w,
      ⟨past ++ [⟨.await predecessor, .ok ()⟩], next (.ok ())⟩ :: rest⟩ := by
  obtain ⟨⟨mine, hturn⟩, hnext⟩ := h.keeps _ mem_cons_self
  have hticket := h.tickets _ mem_cons_self
  have hholding : turn (past ++ [⟨.await predecessor, .ok ()⟩]) = .holding mine := by
    rw [turn_snoc, hturn]
    rfl
  rw [turnOf, hturn] at hticket
  obtain ⟨hmine, hle, hopen⟩ := hticket
  -- a task in its section would have the promise that follows the settled ones, which is this one
  have hrest : ∀ u ∈ rest, (turnOf u).isHolding = false := by
    intro u hu
    cases hj : turnOf u with
    | idle => rfl
    | waiting p j => rfl
    | holding j =>
      obtain ⟨n, -, hn⟩ := h.served
      have huj := h.tickets u (mem_cons_of_mem _ hu)
      rw [hj] at huj
      obtain ⟨q, hq, -, hopen', hsettled'⟩ := huj
      rw [hn] at hopen hsettled hopen' hsettled'
      have heq : mine = j := by omega
      subst heq
      exact absurd (by rw [hj]; rfl)
        ((pairwise_cons.mp h.apart).1 u hu mine (by rw [turnOf, hturn]; rfl))
  refine h.replace (hnext _ (h.free (forall_mem_cons.mpr ⟨?_, hrest⟩)))
    (fun u hu => h.keeps u (mem_cons_of_mem _ hu)) ?_
    (fun u hu => h.tickets u (mem_cons_of_mem _ hu)) (fun u hu i hi => ?_) h.served
    fun hnot _ => ?_
  · rw [turnOf, hturn]
    rfl
  · rw [turnOf, hholding]
    exact ⟨predecessor, hmine, hle, hopen, hsettled⟩
  · rw [turnOf, hholding] at hi
    exact (pairwise_cons.mp h.apart).1 u hu i (by rw [turnOf, hturn]; exact hi)
  · rw [turnOf, hholding] at hnot
    cases hnot

theorem Sound.settle
    {next : Except ε (Answer A (.settle mine)) → Prog (Locking C) (Answer A) ε α}
    (h : D.Sound ⟨w, ⟨past, call (.settle mine) next⟩ :: rest⟩) :
    D.Sound ⟨{ w with settled := mine :: w.settled },
      ⟨past ++ [⟨.settle mine, .ok ()⟩], next (.ok ())⟩ :: rest⟩ := by
  obtain ⟨hturn, hinvariant, hnext⟩ := h.keeps _ mem_cons_self
  have hticket := h.tickets _ mem_cons_self
  have hidle : turn (past ++ [⟨.settle mine, .ok ()⟩]) = .idle := by rw [turn_snoc]; rfl
  rw [turnOf, hturn] at hticket
  obtain ⟨predecessor, hmine, hle, hopen, hsettled⟩ := hticket
  refine h.replace hnext (fun u hu => h.keeps u (mem_cons_of_mem _ hu)) ?_ (fun u hu => ?_)
    (fun u hu i hi => ?_) ?_ fun _ _ => hinvariant
  · rw [turnOf, hidle]
    exact trivial
  · refine (h.tickets u (mem_cons_of_mem _ hu)).settle ?_
    exact (pairwise_cons.mp h.apart).1 u hu mine (by rw [turnOf, hturn]; rfl)
  · rw [turnOf, hidle] at hi
    cases hi
  · obtain ⟨n, -, hn⟩ := h.served
    refine ⟨mine, hle, fun i => ?_⟩
    rw [hn] at hopen hsettled
    rw [mem_cons, hn]
    omega

theorem Sound.inner {c : C} {r : Except ε (A c)}
    {next : Except ε (Answer A (.inner c)) → Prog (Locking C) (Answer A) ε α} {v : ν}
    (h : D.Sound ⟨w, ⟨past, call (.inner c) next⟩ :: rest⟩) (hr : D.effect w.state c r v) :
    D.Sound ⟨{ w with state := v }, ⟨past ++ [⟨.inner c, r⟩], next r⟩ :: rest⟩ := by
  have hturn : turn (past ++ [⟨.inner c, r⟩]) = turn past := by rw [turn_snoc]; rfl
  have hticket := h.tickets _ mem_cons_self
  have hticket : HasTicket { w with state := v } (turnOf (⟨past ++ [⟨.inner c, r⟩], next r⟩ :
      Task (Locking C) (Answer A) ε α)) := by
    rw [turnOf, hturn]
    exact hticket
  have hapart : ∀ u ∈ rest, Apart (⟨past ++ [⟨.inner c, r⟩], next r⟩ :
      Task (Locking C) (Answer A) ε α) u := by
    intro u hu i hi
    rw [turnOf, hturn] at hi
    exact (pairwise_cons.mp h.apart).1 u hu i hi
  rcases h.keeps _ mem_cons_self with ⟨hnot, hquiet, hnext⟩ | ⟨hholding, -, hnext⟩
  · have hv : v = w.state := D.quiet_effect hquiet hr
    subst hv
    exact h.replace (hnext r) (fun u hu => h.keeps u (mem_cons_of_mem _ hu)) hticket
      (fun u hu => h.tickets u (mem_cons_of_mem _ hu)) hapart h.served
      fun _ hrest => h.free (forall_mem_cons.mpr ⟨hnot, hrest⟩)
  · refine h.replace (hnext r v hr) (fun u hu => ?_) hticket
      (fun u hu => h.tickets u (mem_cons_of_mem _ hu)) hapart h.served fun hnot _ => ?_
    · exact (h.keeps u (mem_cons_of_mem _ hu)).stable (h.others_waiting hholding u hu) v
    · rw [turnOf, hturn] at hnot
      exact absurd (hnot.symm.trans hholding) Bool.false_ne_true

end Answered

theorem Reachable.sound {starts : Prog (Locking C) (Answer A) ε α → Prop} {v : ν}
    (hstart : ∀ p, starts p → ∀ v, D.Keeps [] v p) (hv : D.invariant v)
    (hs : (D.system starts).Reachable (start v) s) : D.Sound s := by
  induction hs with
  | init => exact sound_start v hv
  | step hs h ih =>
    cases h with
    | start hp => exact ih.started (hstart _ hp _)
    | other hw => exact hw.elim
    | @answer w w' before after past c next r hr =>
      have h := ih.perm perm_middle
      have hgoal : D.Sound ⟨w', ⟨past ++ [⟨c, r⟩], next r⟩ :: (before ++ after)⟩ := by
        cases hr with
        | take => exact h.take
        | await hsettled => exact h.await hsettled
        | settle mine => exact h.settle
        | inner hr => exact h.inner hr
      exact hgoal.perm perm_middle.symm

/-- **The state is safe at every moment**, if it is where the invariant holds and where a guard does. -/
theorem Sound.safe (h : D.Sound s) {safe : ν → Prop} (hinvariant : ∀ v, D.invariant v → safe v)
    (hguard : ∀ g v c, D.guard g v c → safe v) : safe s.world.state := by
  by_cases hfree : ∀ t ∈ s.tasks, (turnOf t).isHolding = false
  · exact hinvariant _ (h.free hfree)
  · simp only [not_forall, Bool.not_eq_false] at hfree
    obtain ⟨⟨past, rest⟩, ht, hholding⟩ := hfree
    have hkeeps := h.keeps _ ht
    -- who has the lock is about to make a call, or to settle
    cases rest with
    | done a => rw [turnOf, show turn past = .idle from hkeeps] at hholding; cases hholding
    | stop e => rw [turnOf, show turn past = .idle from hkeeps] at hholding; cases hholding
    | call c next =>
      cases c with
      | take => rw [turnOf, hkeeps.1] at hholding; cases hholding
      | await predecessor =>
        obtain ⟨⟨mine, hturn⟩, -⟩ := hkeeps
        rw [turnOf, hturn] at hholding
        cases hholding
      | settle mine => exact hinvariant _ hkeeps.2.1
      | inner c =>
        rcases hkeeps with ⟨hnot, -⟩ | ⟨-, hg, -⟩
        · rw [turnOf, hnot] at hholding
          cases hholding
        · exact hguard _ _ _ hg

/-- A call that is not quiet is made with the lock, where its guard holds. -/
theorem Sound.guarded (h : D.Sound s) {past : List (Event (Locking C) (Answer A) ε)} {c : C}
    {next : Except ε (Answer A (.inner c)) → Prog (Locking C) (Answer A) ε α}
    (ht : ⟨past, call (.inner c) next⟩ ∈ s.tasks) (hc : ¬D.isQuiet c) :
    (turn past).isHolding = true ∧ D.guard (within past) s.world.state c := by
  rcases h.keeps _ ht with ⟨-, hquiet, -⟩ | ⟨hholding, hguard, -⟩
  · exact absurd hquiet hc
  · exact ⟨hholding, hguard⟩

/-! ## Progress -/

/-- Every open promise is some task's to settle. -/
def Owed (s : Running (Locked ν) (Locking C) (Answer A) ε α) : Prop :=
  ∀ i ≤ s.world.tail, i ∉ s.world.settled → ∃ t ∈ s.tasks, (turnOf t).ticket = some i

theorem Owed.replace {w w' : Locked ν} {x x' : Task (Locking C) (Answer A) ε α}
    {before after : List (Task (Locking C) (Answer A) ε α)} (h : Owed ⟨w, before ++ x :: after⟩)
    (hopen : ∀ i ≤ w'.tail, i ∉ w'.settled → (turnOf x').ticket = some i ∨
      i ≤ w.tail ∧ i ∉ w.settled ∧ (turnOf x).ticket ≠ some i) :
    Owed ⟨w', before ++ x' :: after⟩ := by
  intro i hi hunsettled
  rcases hopen i hi hunsettled with hx | ⟨hle, hold, hne⟩
  · exact ⟨x', mem_append_right _ mem_cons_self, hx⟩
  · obtain ⟨t, ht, hticket⟩ := h i hle hold
    rcases mem_append.mp ht with ht | ht
    · exact ⟨t, mem_append_left _ ht, hticket⟩
    · rcases mem_cons.mp ht with rfl | ht
      · exact absurd hticket hne
      · exact ⟨t, mem_append_right _ (mem_cons_of_mem _ ht), hticket⟩

theorem Reachable.owed {starts : Prog (Locking C) (Answer A) ε α → Prop} {v : ν}
    (hstart : ∀ p, starts p → ∀ v, D.Keeps [] v p) (hv : D.invariant v)
    (hs : (D.system starts).Reachable (start v) s) : Owed s := by
  induction hs with
  | init => exact fun i hi hopen => absurd (mem_singleton.mpr (Nat.le_zero.mp hi)) hopen
  | step hs h ih =>
    have hsound := Reachable.sound hstart hv hs
    cases h with
    | start hp =>
      intro i hi hopen
      obtain ⟨t, ht, hticket⟩ := ih i hi hopen
      exact ⟨t, mem_append_left _ ht, hticket⟩
    | other hw => exact hw.elim
    | @answer w w' before after past c next r hr =>
      have hkeeps := hsound.keeps ⟨past, call c next⟩ (mem_append_right _ mem_cons_self)
      refine ih.replace fun i hi hopen => ?_
      cases hr with
      | take =>
        rw [turnOf, turn_snoc, turnOf, hkeeps.1]
        rcases Nat.le_succ_iff.mp hi with hle | rfl
        · exact .inr ⟨hle, hopen, nofun⟩
        · exact .inl rfl
      | await hsettled =>
        obtain ⟨⟨mine, hturn⟩, -⟩ := hkeeps
        rw [turnOf, turn_snoc, turnOf, hturn]
        by_cases hmine : mine = i
        · exact .inl (congrArg some hmine)
        · exact .inr ⟨hi, hopen, fun h => hmine (Option.some.inj h)⟩
      | settle mine =>
        rw [turnOf, turn_snoc, turnOf, hkeeps.1]
        refine .inr ⟨hi, fun hmem => hopen (mem_cons_of_mem _ hmem), fun h => hopen ?_⟩
        exact mem_cons.mpr (.inl (Option.some.inj h).symm)
      | inner hr =>
        rw [turnOf, turn_snoc]
        by_cases hmine : (turn past).ticket = some i
        · exact .inl hmine
        · exact .inr ⟨hi, hopen, hmine⟩

/-- **No deadlock**: while a task has a call to make, some task has one that does not wait. -/
theorem Sound.moves (h : D.Sound s) (ho : Owed s) {past : List (Event (Locking C) (Answer A) ε)}
    {c : Locking C} {next : Except ε (Answer A c) → Prog (Locking C) (Answer A) ε α}
    (ht : ⟨past, call c next⟩ ∈ s.tasks) : ∃ past c next,
      (⟨past, call c next⟩ : Task (Locking C) (Answer A) ε α) ∈ s.tasks ∧
        ∀ predecessor, c = .await predecessor → predecessor ∈ s.world.settled := by
  by_cases hwaits : ∀ predecessor, c = .await predecessor → predecessor ∈ s.world.settled
  · exact ⟨past, c, next, ht, hwaits⟩
  · simp only [not_forall] at hwaits
    obtain ⟨predecessor, rfl, hunsettled⟩ := hwaits
    obtain ⟨⟨mine, hturn⟩, -⟩ := h.keeps _ ht
    have hticket := h.tickets _ ht
    rw [turnOf, hturn] at hticket
    obtain ⟨hmine, hle, -⟩ := hticket
    obtain ⟨n, -, hn⟩ := h.served
    rw [hn] at hunsettled
    -- the first open promise is due, and whoever has it waits for one that is settled
    obtain ⟨⟨past', rest⟩, hu, hdue⟩ := ho (n + 1) (by omega) (by rw [hn]; omega)
    have hkeeps := h.keeps _ hu
    have htickets := h.tickets _ hu
    have hidle : turn past' ≠ .idle := fun hidle => by rw [turnOf, hidle] at hdue; cases hdue
    cases rest with
    | done a => exact absurd hkeeps hidle
    | stop e => exact absurd hkeeps hidle
    | call c' next' =>
      refine ⟨past', c', next', hu, fun p hp => ?_⟩
      subst hp
      obtain ⟨⟨due, hturn'⟩, -⟩ := hkeeps
      rw [turnOf, hturn'] at hdue htickets
      cases hdue
      exact (hn p).mpr (by have := htickets.1; omega)

/-- **First come, first served.** -/
theorem Sound.served_first (h : D.Sound s) {t u : Task (Locking C) (Answer A) ε α} {i j p : Nat}
    (ht : t ∈ s.tasks) (hu : u ∈ s.tasks) (hi : turnOf t = .holding i)
    (hj : turnOf u = .waiting p j) : i < j := by
  obtain ⟨n, -, hn⟩ := h.served
  have hti := h.tickets t ht
  have huj := h.tickets u hu
  rw [hi] at hti
  rw [hj] at huj
  obtain ⟨q, hq, -, hopen, hsettled⟩ := hti
  obtain ⟨-, -, hopen'⟩ := huj
  have hne : t ≠ u := by
    rintro rfl
    rw [hj] at hi
    cases hi
  have hsymm : Std.Symm (Apart (C := C) (A := A) (ε := ε) (α := α)) := ⟨fun _ _ => Apart.symm⟩
  have hapart : i ≠ j := by
    rintro rfl
    exact h.apart.forall ht hu hne i (by rw [hi]; rfl) (by rw [hj]; rfl)
  rw [hn] at hopen hsettled hopen'
  omega

/-- With nobody in a section or on the way to one, nothing is left open. -/
theorem Sound.quiet (h : D.Sound s) (ho : Owed s) (hidle : ∀ t ∈ s.tasks, turnOf t = .idle) :
    (∀ i ≤ s.world.tail, i ∈ s.world.settled) ∧ D.invariant s.world.state := by
  refine ⟨fun i hi => by_contra fun hopen => ?_, h.free fun t ht => by rw [hidle t ht]; rfl⟩
  obtain ⟨t, ht, hticket⟩ := ho i hi hopen
  rw [hidle t ht] at hticket
  cases hticket

end Discipline

end BalanceFrame.Library
