import BalanceFrame.Evidence.DailyFlows
import BalanceFrame.Library.Lists

/-!
# The balances a statement attests

`Attests` says what an interval of `intervalOf` is: at the start of every day it covers, its balance
is the opening one and the activity between. All intervals of a wallet read the same activity, so
two of them that agree on one day agree on every day they both cover; `conflicts` compares them on
the first.
-/

namespace BalanceFrame.Evidence

open Library List
open Liquidity (I64 InI64 Money Checked)

variable {acts obs : List Observed} {wallet : WalletEvidence} {policyVersion start finish : String}
  {i x y : Interval} {m n b : Int} {proofs : List WalletStatementProof}
  {relationships : List EvidenceRelationship} {events : List (String × List String)}

/-! ## The flows of a proof -/

/-- The net of a day. -/
def dayNet (e : String × DayFlows) : Int := (e.2.inflow : Int) - e.2.outflow

/-- What the observations of a proof add up to. -/
structure FlowsOf (done : List Observed) (t : ProofFlows) : Prop where
  net : (t.net : Int) = (done.map netOf).sum
  daily : DailyOf (fun v : DayFlows => (v.inflow : Int)) (fun v => (v.outflow : Int)) done t.daily
  ids : ∀ k v, t.daily.get? k = some v → v.outflowIds = [] → (v.outflow : Int) = 0

theorem flowsOf_addFlow {done : List Observed} {t t' : ProofFlows} {o : Observed} (ho : Dated o)
    (h : FlowsOf done t) (hstep : addFlow t o = .ok t') : FlowsOf (done ++ [o]) t' := by
  obtain ⟨net, hnet, hstep⟩ := bind_ok.mp hstep
  have hsum : (net : Int) = ((done ++ [o]).map netOf).sum := by
    rw [addAmount_eq_ok.mp hnet, h.net, signed_eq ho, map_append, sum_append,
      map_singleton, sum_singleton]
  have hids : ∀ v : DayFlows, (v.outflowIds = [] → (v.outflow : Int) = 0) →
      ∀ k w, (t.daily.insert o.date v).get? k = some w → w.outflowIds = [] →
        (w.outflow : Int) = 0 := by
    intro v hv k w hw hnil
    rw [SortedMap.get?_insert] at hw
    split at hw
    · cases hw
      exact hv hnil
    · exact h.ids k w hw hnil
  have hamount := ho.amount
  split at hstep
  · rename_i hdir
    obtain ⟨inflow, hin, hstep⟩ := bind_ok.mp hstep
    rw [addAmount_eq_ok] at hin
    cases hstep
    have hnetOf : netOf o = o.amount.minorUnits := if_pos hdir
    refine ⟨hsum, h.daily.add ⟨0, 0, []⟩ rfl rfl ?_ ?_, hids _ fun hnil => ?_⟩
    · dsimp only
      omega
    · dsimp only
      omega
    · cases hget : t.daily.get? o.date with
      | none => rfl
      | some v =>
        rw [hget, Option.getD_some] at hnil
        exact h.ids o.date v hget hnil
  · rename_i hdir
    obtain ⟨outflow, hout, hstep⟩ := bind_ok.mp hstep
    rw [addAmount_eq_ok] at hout
    cases hstep
    have hnetOf : netOf o = -(o.amount.minorUnits : Int) := if_neg hdir
    refine ⟨hsum, h.daily.add ⟨0, 0, []⟩ rfl rfl ?_ ?_, hids _ fun hnil => ?_⟩
    · dsimp only
      omega
    · dsimp only
      omega
    · exact absurd hnil (append_ne_nil_of_right_ne_nil _ (cons_ne_nil _ _))

/-! ## The days in order -/

/-- The balance at a boundary, from the changes. -/
def lookBefore (changes : SortedMap Int I64) (opening : I64) (boundary : Int) : I64 :=
  ((changes.entries.filter fun e => decide (e.1 < boundary)).getLast?.map (·.2)).getD opening

/-- What the days stepped over leave. -/
structure Ran (opening : I64) (reasons : List String) (done : List (String × DayFlows))
    (t : Running) : Prop where
  balance : (t.balance : Int) = opening + (done.map dayNet).sum
  dated : ∀ d ∈ done, evidenceDateOrdinal d.1 = some (ordinal d.1)
  keys : ∀ e ∈ t.changes.entries, ∃ d ∈ done, evidenceDateOrdinal d.1 = some e.1
  at_ : ∀ b, (lookBefore t.changes opening b : Int) =
    opening + (done.map fun e => if ordinal e.1 < b then dayNet e else 0).sum
  reasons : t.reasons = [] → reasons = []
  nonneg : t.reasons = [] → 0 ≤ (opening : Int) → 0 ≤ (t.balance : Int)
  covered : t.reasons = [] → t.unknown = [] → 0 ≤ (opening : Int) → ∀ e ∈ done,
    (e.2.outflow : Int) ≤
      opening + (done.map fun d => if d.1 < e.1 then dayNet d else 0).sum

theorem ran_nil (opening : I64) (reasons : List String) :
    Ran opening reasons [] ⟨opening, reasons, [], SortedMap.empty⟩ where
  balance := by simp
  dated d hd := by cases hd
  keys e he := by cases he
  at_ b := by simp [lookBefore, SortedMap.empty]
  reasons h := h
  nonneg _ h := h
  covered _ _ _ e he := by cases he

theorem lookBefore_insert {changes : SortedMap Int I64} {opening v : I64} {k : Int}
    (h : ∀ e ∈ changes.entries, e.1 < k) (b : Int) :
    lookBefore (changes.insert k v) opening b =
      if k < b then v else lookBefore changes opening b := by
  unfold lookBefore
  rw [SortedMap.entries_insert_last h, filter_append]
  by_cases hk : k < b
  · simp [hk]
  · simp [hk]

theorem runDay_eq_ok {t t' : Running} {e : String × DayFlows} (h : runDay t e = .ok t') :
    ∃ (next : I64) (n : Int), (next : Int) = t.balance + dayNet e ∧
      evidenceDateOrdinal e.1 = some n ∧ t'.balance = next ∧ t'.changes = t.changes.insert n next ∧
      (t'.reasons = [] → t.reasons = [] ∧ 0 ≤ (next : Int)) ∧
      (t'.unknown = [] → 0 ≤ (next : Int) → t.unknown = [] ∧
        ((e.2.outflow : Int) ≤ t.balance ∨ e.2.outflowIds = [])) := by
  obtain ⟨mid, hmid, h⟩ := bind_ok.mp h
  obtain ⟨next, hnext, h⟩ := bind_ok.mp h
  obtain ⟨n, hn, h⟩ := bind_ok.mp h
  rw [addAmount_eq_ok] at hmid
  rw [subAmount_eq_ok] at hnext
  rw [day, orStop_ok] at hn
  cases h
  refine ⟨next, n, by unfold dayNet; omega, hn, rfl, rfl, fun hreasons => ?_, fun hunknown h0 => ?_⟩
  · dsimp only at hreasons
    split at hreasons
    · exact absurd hreasons (append_ne_nil_of_right_ne_nil _ (cons_ne_nil _ _))
    · rename_i hneg
      refine ⟨hreasons, ?_⟩
      by_contra hlt
      exact hneg ⟨not_le.mp hlt, by rw [hreasons]; exact not_mem_nil⟩
  · dsimp only at hunknown
    split at hunknown
    · exact ⟨append_eq_nil_iff.mp hunknown |>.1, .inr (append_eq_nil_iff.mp hunknown).2⟩
    · rename_i hcover
      refine ⟨hunknown, .inl ?_⟩
      by_contra hlt
      exact hcover ⟨h0, not_le.mp hlt⟩

theorem ran_runDay {opening : I64} {reasons : List String} {done : List (String × DayFlows)}
    {t t' : Running} {a : String × DayFlows} (hlater : ∀ d ∈ done, d.1 < a.1)
    (hids : a.2.outflowIds = [] → (a.2.outflow : Int) = 0) (h : Ran opening reasons done t)
    (hstep : runDay t a = .ok t') : Ran opening reasons (done ++ [a]) t' := by
  obtain ⟨next, n, hnext, hn, hbal, hchanges, hreasons, hunknown⟩ := runDay_eq_ok hstep
  have hord : ordinal a.1 = n := by rw [ordinal, hn, Option.getD_some]
  have hlast : ∀ e ∈ t.changes.entries, e.1 < n := by
    intro e he
    obtain ⟨d, hd, hord'⟩ := h.keys e he
    exact ordinal_lt_of_lt hord' hn (hlater d hd)
  have hsnoc : ∀ f : String × DayFlows → Int,
      ((done ++ [a]).map f).sum = (done.map f).sum + f a := fun f => by
    rw [map_append, sum_append, map_singleton, sum_singleton]
  refine ⟨?_, ?_, ?_, fun b => ?_, fun hnil => h.reasons (hreasons hnil).1,
    fun hnil _ => hbal ▸ (hreasons hnil).2, fun hnil hun h0 e he => ?_⟩
  · rw [hbal, hnext, h.balance, hsnoc]
    omega
  · intro d hd
    rcases mem_append.mp hd with hd | hd
    · exact h.dated d hd
    · rw [mem_singleton.mp hd, hord, hn]
  · intro e he
    rw [hchanges, SortedMap.entries_insert_last hlast] at he
    rcases mem_append.mp he with he | he
    · obtain ⟨d, hd, hord'⟩ := h.keys e he
      exact ⟨d, mem_append_left _ hd, hord'⟩
    · rw [mem_singleton.mp he]
      exact ⟨a, mem_append_right _ mem_cons_self, hn⟩
  · rw [hchanges, lookBefore_insert hlast, hsnoc, hord]
    by_cases hb : n < b
    · -- every day so far is before the boundary
      rw [if_pos hb, if_pos hb, hnext, h.balance]
      have hall : (done.map fun e => if ordinal e.1 < b then dayNet e else 0) =
          done.map dayNet := by
        refine map_congr_left fun d hd => if_pos ?_
        exact (ordinal_lt_of_lt (h.dated d hd) hn (hlater d hd)).trans hb
      rw [hall]
      omega
    · rw [if_neg hb, if_neg hb, h.at_ b, add_zero]
  · obtain ⟨hnil', h0'⟩ := hreasons hnil
    obtain ⟨hun', hcover⟩ := hunknown hun h0'
    rw [hsnoc]
    rcases mem_append.mp he with he | he
    · rw [if_neg (lt_asymm (hlater e he)), add_zero]
      exact h.covered hnil' hun' h0 e he
    · rw [mem_singleton.mp he, if_neg (lt_irrefl _), add_zero]
      have hall : (done.map fun d => if d.1 < a.1 then dayNet d else 0) = done.map dayNet :=
        map_congr_left fun d hd => if_pos (hlater d hd)
      rw [hall, ← h.balance]
      rcases hcover with hle | hnone
      · exact hle
      · rw [hids hnone]
        exact h.nonneg hnil' h0

/-! ## Intervals -/

/-- The first day of an interval. -/
def Interval.first (i : Interval) : Int := ordinal i.proof.startDate

/-- The day after its last. -/
def Interval.past (i : Interval) : Int := ordinal i.proof.endDate + 1

/-- **What an interval attests** of the activity. -/
structure Attests (acts : List Observed) (i : Interval) : Prop where
  starts : evidenceDateOrdinal i.proof.startDate = some i.first
  ends : evidenceDateOrdinal i.proof.endDate = some (i.past - 1)
  order : i.first < i.past
  balance : ∀ b, i.first ≤ b → b ≤ i.past →
    (balanceAt i b : Int) = i.opening + DailySums.within dayOf netOf acts i.first b
  closing : i.closing = balanceAt i i.past
  opening : i.valid = true → 0 ≤ (i.opening : Int)
  covered : i.valid = true → i.orderUnknown = [] → ∀ o ∈ acts, i.first ≤ dayOf o →
    dayOf o < i.past → DailySums.spent dayOf netOf acts (dayOf o) ≤
      i.opening + DailySums.within dayOf netOf acts i.first (dayOf o)

theorem inRange_iff {o : Observed} (ho : Dated o)
    (hs : evidenceDateOrdinal start = some m) (hf : evidenceDateOrdinal finish = some n) :
    inRange o start finish = true ↔ m ≤ dayOf o ∧ dayOf o < n + 1 := by
  rw [inRange, Bool.and_eq_true, decide_eq_true_iff, decide_eq_true_iff,
    ordinal_le_iff hs ho.date, ordinal_le_iff ho.date hf, Int.lt_add_one_iff]
  rfl

theorem sum_inRange (hacts : ∀ o ∈ acts, Dated o) (hs : evidenceDateOrdinal start = some m)
    (hf : evidenceDateOrdinal finish = some n) (f : Observed → Int) :
    ((acts.filter fun o => inRange o start finish).map f).sum =
      (acts.map fun o => if m ≤ dayOf o ∧ dayOf o < n + 1 then f o else 0).sum := by
  rw [sum_filter]
  congr 1
  refine map_congr_left fun o ho => ?_
  simp only [inRange_iff (hacts o ho) hs hf]

theorem within_inRange (hacts : ∀ o ∈ acts, Dated o) (hs : evidenceDateOrdinal start = some m)
    (hf : evidenceDateOrdinal finish = some n) (hb : b ≤ n + 1) :
    ((acts.filter fun o => inRange o start finish).map fun o =>
      if dayOf o < b then netOf o else 0).sum = DailySums.within dayOf netOf acts m b := by
  rw [sum_inRange hacts hs hf]
  unfold DailySums.within
  congr 1
  refine map_congr_left fun o _ => ?_
  by_cases h1 : m ≤ dayOf o
  · by_cases h2 : dayOf o < b
    · rw [if_pos ⟨h1, by omega⟩, if_pos h2, if_pos ⟨h1, h2⟩]
    · rw [if_neg h2, ite_self, if_neg fun h => h2 h.2]
  · rw [if_neg fun h => h1 h.1, if_neg fun h => h1 h.1]

theorem intervalOf_eq_ok {proof : WalletStatementProof}
    (h : intervalOf policyVersion wallet acts proof = .ok i) :
    ∃ m n flows t reasons, i.proof = proof ∧ evidenceDateOrdinal proof.startDate = some m ∧
      evidenceDateOrdinal proof.endDate = some n ∧ m ≤ n ∧
      (acts.filter fun o => inRange o proof.startDate proof.endDate).foldlM addFlow
        ⟨0, SortedMap.empty⟩ = .ok flows ∧ (i.closing : Int) = i.opening + flows.net ∧
      (reasons = [] → 0 ≤ (i.opening : Int)) ∧
      flows.daily.entries.foldlM runDay ⟨i.opening, reasons, [], SortedMap.empty⟩ = .ok t ∧
      i.reasons = t.reasons ∧ i.orderUnknown = sortedSet t.unknown ∧
      i.boundaryChanges = t.changes := by
  unfold intervalOf at h
  obtain ⟨_, hproof, h⟩ := bind_ok.mp h
  obtain ⟨flows, hflows, h⟩ := bind_ok.mp h
  obtain ⟨opening, _, h⟩ := bind_ok.mp h
  obtain ⟨closing, hclosing, h⟩ := bind_ok.mp h
  obtain ⟨t, ht, h⟩ := bind_ok.mp h
  cases h
  simp only [validateProof, bind_ok, day, orStop_ok, require_eq_ok,
    decide_eq_true_iff] at hproof
  obtain ⟨-, -, -, -, -, -, m, hm, n, hn, -, hmn, -⟩ := hproof
  refine ⟨m, n, flows, t, _, rfl, hm, hn, hmn, hflows, addAmount_eq_ok.mp hclosing, ?_, ht, rfl,
    rfl, rfl⟩
  intro hnil
  by_contra hneg
  have hbroken : decide ((opening : Int) < 0) = true := decide_eq_true (not_le.mp hneg)
  rw [hbroken, Bool.true_or, Bool.true_or, if_pos rfl] at hnil
  exact absurd hnil (append_ne_nil_of_right_ne_nil _ (cons_ne_nil _ _))

theorem attests_of_intervalOf (hacts : ∀ o ∈ acts, Dated o) {proof : WalletStatementProof}
    (h : intervalOf policyVersion wallet acts proof = .ok i) : Attests acts i := by
  obtain ⟨m, n, flows, t, reasons, rfl, hm, hn, hmn, hflows, hclosing, hopening, ht, hreasons,
    hunknown, hchanges⟩ := intervalOf_eq_ok h
  have hfirst : i.first = m := by rw [Interval.first, ordinal, hm, Option.getD_some]
  have hpast : i.past = n + 1 := by rw [Interval.past, ordinal, hn, Option.getD_some]
  generalize hsel : (acts.filter fun o => inRange o i.proof.startDate i.proof.endDate) = selected
    at hflows
  have hdated : ∀ o ∈ selected, Dated o := by
    intro o ho
    rw [← hsel] at ho
    exact hacts o (mem_of_mem_filter ho)
  have hsums : FlowsOf selected flows :=
    foldlM_runAt (P := FlowsOf) (fun done o rest c c' hl hc hstep =>
      flowsOf_addFlow (hdated o (hl ▸ mem_append_right _ mem_cons_self)) hc hstep)
      ⟨rfl, dailyOf_nil _ _, fun k v hv => by cases hv⟩ hflows
  have hran : Ran i.opening reasons flows.daily.entries t := by
    refine foldlM_runAt (P := Ran i.opening reasons) (fun done a rest c c' hl hc hstep => ?_)
      (ran_nil i.opening reasons) ht
    have hsorted := flows.daily.sorted
    unfold KeySorted at hsorted
    rw [hl, map_append, map_cons] at hsorted
    obtain ⟨-, -, hcross⟩ := pairwise_append.mp hsorted
    refine ran_runDay (fun d hd => hcross d.1 (mem_map_of_mem hd) a.1 mem_cons_self)
      (hsums.ids a.1 a.2 (SortedMap.mem_entries_iff.mp ?_)) hc hstep
    rw [hl]
    exact mem_append_right _ mem_cons_self
  -- sums over the days are sums over the activity
  have htotal : ∀ b, b ≤ i.past →
      (flows.daily.entries.map fun e => if ordinal e.1 < b then dayNet e else 0).sum =
        DailySums.within dayOf netOf acts i.first b := by
    intro b hb
    rw [hfirst, ← within_inRange hacts hm hn (hpast ▸ hb), hsel]
    exact hsums.daily.total fun k => ordinal k < b
  have hbalance : ∀ b, i.first ≤ b → b ≤ i.past →
      (balanceAt i b : Int) = i.opening + DailySums.within dayOf netOf acts i.first b := by
    intro b _ hb
    rw [← htotal b hb, ← hran.at_ b, ← hchanges]
    rfl
  refine ⟨hm.trans (congrArg some hfirst.symm), ?_, by omega, hbalance, ?_, ?_, ?_⟩
  · rw [hn, hpast, add_sub_cancel_right]
  · have hnet := within_inRange hacts hm hn (le_refl (n + 1))
    rw [hsel, ← hfirst, ← hpast] at hnet
    refine Subtype.ext ?_
    have hall : (selected.map fun o => if dayOf o < i.past then netOf o else 0) =
        selected.map netOf := by
      refine map_congr_left fun o ho => if_pos ?_
      have hin := ho
      rw [← hsel] at hin
      rw [hpast]
      exact ((inRange_iff (hdated o ho) hm hn).mp (mem_filter.mp hin).2).2
    rw [hall, ← hsums.net] at hnet
    have := hbalance i.past (by omega) le_rfl
    omega
  · intro hvalid
    refine hopening (hran.reasons ?_)
    rw [← hreasons]
    exact isEmpty_iff.mp hvalid
  · intro hvalid hknown o ho h1 h2
    have hnil : t.reasons = [] := hreasons ▸ isEmpty_iff.mp hvalid
    have hun : t.unknown = [] := by
      rw [hunknown] at hknown
      exact (dedup_eq_nil _).mp ((sortOn_eq_nil _).mp hknown)
    have hin : o ∈ selected := by
      rw [← hsel]
      exact mem_filter.mpr ⟨ho, (inRange_iff (hacts o ho) hm hn).mpr ⟨by omega, by omega⟩⟩
    obtain ⟨v, hv⟩ := Option.isSome_iff_exists.mp ((hsums.daily.dates o.date).mpr ⟨o, hin, rfl⟩)
    have hcover := hran.covered hnil hun (hopening (hran.reasons hnil)) (o.date, v)
      (SortedMap.mem_entries_iff.mpr hv)
    have hspent := hsums.daily.outflow o.date v hv
    have hsame : DailySums.spent (·.date) netOf selected o.date =
        DailySums.spent dayOf netOf acts (dayOf o) := by
      unfold DailySums.spent
      rw [← hsel, sum_inRange hacts hm hn]
      congr 1
      refine map_congr_left fun a ha => ?_
      simp only [date_eq_iff (hacts a ha) (hacts o ho)]
      by_cases heq : dayOf a = dayOf o
      · rw [if_pos ⟨by omega, by omega⟩]
      · rw [if_neg heq, ite_self]
    have hbefore : (flows.daily.entries.map fun d => if d.1 < o.date then dayNet d else 0).sum =
        DailySums.within dayOf netOf acts i.first (dayOf o) := by
      rw [hfirst, ← within_inRange hacts hm hn (by omega), hsel]
      refine (hsums.daily.total fun k => k < o.date).trans ?_
      congr 1
      refine map_congr_left fun a ha => ?_
      simp only [date_lt_iff (hdated a ha) (hacts o ho)]
    rw [← hsame, ← hspent, ← hbefore]
    exact hcover

/-! ## Overlaps -/

/-- The intervals of a wallet's proofs, as they are returned. -/
def statementIntervals (policyVersion : String) (proofs : List WalletStatementProof)
    (wallet : WalletEvidence) (acts : List Observed) : Checked (List Interval) := do
  let intervals ← (proofs.filter (·.walletId == wallet.walletId)).mapM
    (intervalOf policyVersion wallet acts)
  pure (conflicts intervals)

theorem Attests.append (h : Attests acts i)
    (reasons : List String) : Attests acts { i with reasons := i.reasons ++ reasons } := by
  have hvalid : ({ i with reasons := i.reasons ++ reasons } : Interval).valid = true →
      i.valid = true := fun hv =>
    isEmpty_iff.mpr (append_eq_nil_iff.mp (isEmpty_iff.mp hv)).1
  exact ⟨h.starts, h.ends, h.order, h.balance, h.closing, fun hv => h.opening (hvalid hv),
    fun hv => h.covered (hvalid hv)⟩

theorem attests_of_statementIntervals (hacts : ∀ o ∈ acts, Dated o) {intervals : List Interval}
    (h : statementIntervals policyVersion proofs wallet acts = .ok intervals) :
    ∀ i ∈ intervals, Attests acts i := by
  obtain ⟨all, hall, h⟩ := bind_ok.mp h
  cases h
  intro i hi
  obtain ⟨p, hp, rfl⟩ := mem_map.mp hi
  have hmem : p.1 ∈ all := (mem_zipIdx' hp).2 ▸ getElem_mem _
  obtain ⟨proof, -, hproof⟩ := exists_of_forall₂ (mapM_eq_ok.mp hall) hmem
  exact (attests_of_intervalOf hacts hproof).append _

theorem conflicts_agree {all : List Interval} (hx : x ∈ conflicts all)
    (hy : y ∈ conflicts all) (hxv : x.valid = true) (hyv : y.valid = true)
    (h : (overlapOf x y).1 ≤ (overlapOf x y).2) :
    balanceAt x (overlapOf x y).1 = balanceAt y (overlapOf x y).1 := by
  obtain ⟨p, hp, rfl⟩ := mem_map.mp hx
  obtain ⟨q, hq, rfl⟩ := mem_map.mp hy
  obtain ⟨hpv, hpc⟩ := append_eq_nil_iff.mp (isEmpty_iff.mp hxv)
  obtain ⟨hqv, -⟩ := append_eq_nil_iff.mp (isEmpty_iff.mp hyv)
  by_cases hpq : q.2 = p.2
  · have heq : q = p := by
      refine Prod.ext ?_ hpq
      rw [(mem_zipIdx' hq).2, (mem_zipIdx' hp).2]
      simp only [hpq]
    subst heq
    rfl
  · have hnot : conflicting p.1 q.1 = false := by
      rw [map_eq_nil_iff, filter_eq_nil_iff] at hpc
      have := hpc q hq
      simpa [hpq] using this
    by_contra hne
    refine absurd hnot ?_
    rw [Bool.not_eq_false]
    unfold conflicting
    rw [Bool.and_eq_true, Bool.and_eq_true, Bool.and_eq_true, decide_eq_true_iff, bne_iff_ne]
    exact ⟨⟨⟨isEmpty_iff.mpr hpv, isEmpty_iff.mpr hqv⟩, h⟩, hne⟩

/-- **Agreeing once, they agree everywhere**: on every boundary of the days both cover. -/
theorem agree_of_attests (hx : Attests acts x) (hy : Attests acts y)
    (h : balanceAt x (max x.first y.first) = balanceAt y (max x.first y.first))
    (hxb : x.first ≤ b ∧ b ≤ x.past) (hyb : y.first ≤ b ∧ b ≤ y.past) :
    balanceAt x b = balanceAt y b := by
  have hmax : max x.first y.first ≤ b := max_le hxb.1 hyb.1
  have hxm := hx.balance (max x.first y.first) (le_max_left _ _) (by omega)
  have hym := hy.balance (max x.first y.first) (le_max_right _ _) (by omega)
  have hxs := DailySums.within_add dayOf netOf acts (le_max_left x.first y.first) hmax
  have hys := DailySums.within_add dayOf netOf acts (le_max_right x.first y.first) hmax
  have hxb := hx.balance b hxb.1 hxb.2
  have hyb := hy.balance b hyb.1 hyb.2
  refine Subtype.ext ?_
  rw [h] at hxm
  omega

/-! ## Anchors -/

/-- The days without gap or order, as `resolveStatementWallet` finds them. -/
def continuous (intervals : List Interval) : Bool :=
  let valid := intervals.filter (·.valid)
  let ordered := sortOn (fun i => i.proof.startDate) valid
  !valid.isEmpty &&
    (ordered.foldl continues (true, ((ordered.head?.map (·.proof.endDate)).getD ""))).1

/-- The activity that no valid interval covers. -/
def uncoveredIds (acts : List Observed) (intervals : List Interval) : List String :=
  let coveredIds := ((intervals.filter (·.valid)).flatMap fun i =>
    acts.filter fun o => inRange o i.proof.startDate i.proof.endDate).map (·.id)
  (acts.filter fun o => !coveredIds.contains o.id).map (·.id)

/-- The activity whose order is unknown, or that is not covered. -/
def blockedIds (acts : List Observed) (intervals : List Interval) : List String :=
  sortedSet ((intervals.filter (·.valid)).flatMap (·.orderUnknown) ++ uncoveredIds acts intervals)

/-- Whether the balance is known. -/
def statementKnown (acts : List Observed) (intervals : List Interval) : Bool :=
  continuous intervals && (uncoveredIds acts intervals).isEmpty &&
    (blockedIds acts intervals).isEmpty && intervals.all (·.valid)

/-- What `resolveStatementWallet` returns of its intervals. -/
structure Returned (wallet : WalletEvidence) (acts : List Observed) (intervals : List Interval)
    (res : WalletEvidenceResolution) : Prop where
  walletId : res.walletId = wallet.walletId
  anchors : res.balanceAnchors = some
    (((intervals.zipIdx.map fun p =>
      (p.1, components acts intervals (intervalClasses intervals) p.2)).filter (·.1.valid)).flatMap
        fun p => anchorsOf wallet p.2 p.1)
  coverage : res.coverage.map (·.intervals) = some
    ((intervals.zipIdx.map fun p =>
      (p.1, components acts intervals (intervalClasses intervals) p.2)).map fun p =>
        coverageInterval wallet (intervalEvidence acts p.2 p.1) p.1)
  state : res.balanceState = if statementKnown acts intervals then "known" else "balance_unknown"
  opening : res.openingBalance = if statementKnown acts intervals then
    (sortOn (fun i => i.proof.startDate) (intervals.filter (·.valid))).head?.map
      fun i => ⟨i.opening, wallet.currency⟩ else none
  closing : res.closingBalance = if statementKnown acts intervals then
    (latest (sortOn (fun i => i.proof.startDate) (intervals.filter (·.valid)))).map
      fun i => ⟨i.closing, wallet.currency⟩ else none

theorem resolveStatementWallet_eq_ok {out : WalletEvidenceResolution × List EvidenceBlocker}
    (h : resolveStatementWallet policyVersion proofs obs relationships events wallet = .ok out) :
    ∃ acts intervals, activity obs relationships events wallet = .ok acts ∧
      statementIntervals policyVersion proofs wallet acts = .ok intervals ∧
      Returned wallet acts intervals out.1 := by
  obtain ⟨acts, hacts, h⟩ := bind_ok.mp h
  obtain ⟨all, hall, h⟩ := bind_ok.mp h
  obtain ⟨_, h⟩ := rest_ok h
  cases h
  refine ⟨acts, conflicts all, hacts, ?_, ⟨rfl, rfl, rfl, rfl, rfl, rfl⟩⟩
  unfold statementIntervals
  rw [hall]
  rfl

theorem sublist_of_activity (h : activity obs relationships events wallet = .ok acts) :
    acts.Sublist (walletActivity obs wallet.walletId) := by
  obtain ⟨t, -, h⟩ := bind_ok.mp h
  obtain ⟨_, h⟩ := rest_ok h
  obtain ⟨removed, -, h⟩ := bind_ok.mp h
  obtain ⟨_, h⟩ := rest_ok h
  cases h
  exact filter_sublist

theorem mem_of_activity
    (h : activity obs relationships events wallet = .ok acts) : ∀ o ∈ acts, o ∈ obs :=
  fun _ ho => mem_of_mem_filter ((sublist_of_activity h).subset ho)

theorem mem_anchorsOf {c : Component}
    {a : WalletStatementBalanceAnchor} (h : a ∈ anchorsOf wallet c i) :
    (a.amount = ⟨i.opening, wallet.currency⟩ ∧ a.asOfDate = i.proof.startDate ∧
      a.boundary = "before_day_activity") ∨
    (a.amount = ⟨i.closing, wallet.currency⟩ ∧ a.asOfDate = i.proof.endDate ∧
      a.boundary = "after_day_activity") := by
  simp only [anchorsOf, mem_cons, not_mem_nil, or_false] at h
  rcases h with rfl | rfl
  · exact .inl ⟨rfl, rfl, rfl⟩
  · exact .inr ⟨rfl, rfl, rfl⟩

theorem intervals_agree (hacts : ∀ o ∈ acts, Dated o) {intervals : List Interval}
    (h : statementIntervals policyVersion proofs wallet acts = .ok intervals)
    (hx : x ∈ intervals) (hy : y ∈ intervals) (hxv : x.valid = true) (hyv : y.valid = true)
    (hxb : x.first ≤ b ∧ b ≤ x.past) (hyb : y.first ≤ b ∧ b ≤ y.past) :
    balanceAt x b = balanceAt y b := by
  have hattests := attests_of_statementIntervals hacts h
  obtain ⟨all, -, h⟩ := bind_ok.mp h
  cases h
  refine agree_of_attests (hattests x hx) (hattests y hy) ?_ hxb hyb
  refine conflicts_agree hx hy hxv hyv ?_
  exact (max_le hxb.1 hyb.1).trans (le_min hxb.2 hyb.2)

/-- **Statement anchors never contradict each other.** Two valid intervals that a resolved wallet
returns agree on every boundary both of them cover, from the start of their first common day to the
end of their last; and two anchors for one date and boundary have one amount. -/
theorem anchors_agree {policyVersion : String} {proofs : List WalletStatementProof}
    {obs : List Observed} {relationships : List EvidenceRelationship}
    {events : List (String × List String)} {wallet : WalletEvidence}
    {res : WalletEvidenceResolution} {blockers : List EvidenceBlocker}
    (hobs : ∀ o ∈ obs, Dated o)
    (h : resolveStatementWallet policyVersion proofs obs relationships events wallet =
      .ok (res, blockers)) :
    ∃ acts intervals, activity obs relationships events wallet = .ok acts ∧
      statementIntervals policyVersion proofs wallet acts = .ok intervals ∧
      (∃ coverage, res.coverage = some coverage ∧
        coverage.intervals.map (fun c =>
          (c.startDate, c.endDate, c.openingBalance, c.closingBalance)) =
        intervals.map fun i => (i.proof.startDate, i.proof.endDate,
          if i.valid then some ⟨i.opening, wallet.currency⟩ else none,
          if i.valid then some ⟨i.closing, wallet.currency⟩ else none)) ∧
      (∀ x ∈ intervals, x.valid = true →
        x.opening = balanceAt x x.first ∧ x.closing = balanceAt x x.past) ∧
      (∀ x ∈ intervals, ∀ y ∈ intervals, x.valid = true → y.valid = true →
        ∀ b, x.first ≤ b ∧ b ≤ x.past → y.first ≤ b ∧ b ≤ y.past →
          balanceAt x b = balanceAt y b) ∧
      ∃ anchors, res.balanceAnchors = some anchors ∧ ∀ a ∈ anchors, ∀ a' ∈ anchors,
        a.asOfDate = a'.asOfDate → a.boundary = a'.boundary → a.amount = a'.amount := by
  obtain ⟨acts, intervals, hacts, hintervals, hreturned⟩ := resolveStatementWallet_eq_ok h
  have hdated : ∀ o ∈ acts, Dated o := fun o ho => hobs o (mem_of_activity hacts o ho)
  have hattests := attests_of_statementIntervals hdated hintervals
  have hopen : ∀ x ∈ intervals, x.opening = balanceAt x x.first := by
    intro x hx
    have := (hattests x hx).balance x.first le_rfl (hattests x hx).order.le
    rw [DailySums.within_self, add_zero] at this
    exact Subtype.ext this.symm
  have hagree := fun x hx y hy hxv hyv b hxb hyb =>
    intervals_agree hdated hintervals (x := x) (y := y) (b := b) hx hy hxv hyv hxb hyb
  refine ⟨acts, intervals, hacts, hintervals, ?_,
    fun x hx _ => ⟨hopen x hx, (hattests x hx).closing⟩, hagree, _, hreturned.anchors, ?_⟩
  · obtain ⟨coverage, hcoverage, heq⟩ := Option.map_eq_some_iff.mp hreturned.coverage
    refine ⟨coverage, hcoverage, ?_⟩
    have hfst : intervals.zipIdx.map Prod.fst = intervals := zipIdx_map_fst 0 intervals
    conv_rhs => rw [← hfst]
    rw [heq, map_map, map_map, map_map]
    rfl
  · intro a ha a' ha' hdate hboundary
    have hof : ∀ a ∈ ((intervals.zipIdx.map fun p =>
        (p.1, components acts intervals (intervalClasses intervals) p.2)).filter
          (·.1.valid)).flatMap fun p => anchorsOf wallet p.2 p.1,
        ∃ x ∈ intervals, x.valid = true ∧
          ((a.amount = ⟨balanceAt x x.first, wallet.currency⟩ ∧ ordinal a.asOfDate = x.first ∧
            a.boundary = "before_day_activity") ∨
          (a.amount = ⟨balanceAt x x.past, wallet.currency⟩ ∧ ordinal a.asOfDate + 1 = x.past ∧
            a.boundary = "after_day_activity")) := by
      intro a ha
      obtain ⟨p, hp, ha⟩ := mem_flatMap.mp ha
      obtain ⟨hp, hvalid⟩ := mem_filter.mp hp
      obtain ⟨q, hq, rfl⟩ := mem_map.mp hp
      have hx : q.1 ∈ intervals := (mem_zipIdx' hq).2 ▸ getElem_mem _
      refine ⟨q.1, hx, hvalid, ?_⟩
      rw [← hopen q.1 hx, ← (hattests q.1 hx).closing]
      rcases mem_anchorsOf ha with ⟨hamount, hdate, hboundary⟩ | ⟨hamount, hdate, hboundary⟩
      · exact .inl ⟨hamount, by rw [hdate]; rfl, hboundary⟩
      · exact .inr ⟨hamount, by rw [hdate]; rfl, hboundary⟩
    obtain ⟨x, hx, hxv, hxa⟩ := hof a ha
    obtain ⟨y, hy, hyv, hya⟩ := hof a' ha'
    have hxo := (hattests x hx).order
    have hyo := (hattests y hy).order
    rw [hdate] at hxa
    rcases hxa with ⟨hax, hdx, hbx⟩ | ⟨hax, hdx, hbx⟩ <;>
      rcases hya with ⟨hay, hdy, hby⟩ | ⟨hay, hdy, hby⟩
    · rw [hax, hay, hagree x hx y hy hxv hyv x.first ⟨le_rfl, hxo.le⟩ (by omega), ← hdx, hdy]
    · rw [hbx, hby] at hboundary
      exact absurd hboundary (by decide)
    · rw [hbx, hby] at hboundary
      exact absurd hboundary (by decide)
    · rw [hax, hay, hagree x hx y hy hxv hyv x.past ⟨hxo.le, le_rfl⟩ (by omega), ← hdx, hdy]

def statementWallet : WalletEvidence where
  walletId := "w"
  currency := "USD"
  openingBalance := none
  closingBalance := none
  completeActivity := false
  materializedAccountId := none
  requiresStoredValue := false

def quietStatement (id start finish : String) (opening closing : Option Money) :
    WalletStatementProof where
  proofId := id
  authorityKind := "human_attested_statement"
  statement :=
    { documentId := "pdf"
      contentHash := "0000000000000000000000000000000000000000000000000000000000000000"
      parserVersion := "1" }
  walletId := "w"
  currency := "USD"
  calendarBasis := "statement_printed_date"
  startDate := start
  endDate := finish
  openingBalance := opening
  closingBalance := closing
  activityManifest := []
  actorId := "actor"
  membershipId := "member"
  policyVersion := "1"
  reviewedAt := "2024-03-01T09:00:00Z"

def quietMonths : List WalletStatementProof :=
  [quietStatement "a" "2024-01-01" "2024-01-31" (some ⟨I64.ofInt 725, "USD"⟩) none,
    quietStatement "b" "2024-02-01" "2024-02-29" none (some ⟨I64.ofInt 725, "USD"⟩)]

def marchPayment : Observed :=
  { coffeePayment.toObserved with
    walletId := some "w"
    date := "2024-03-05" }

theorem dated_marchPayment : Dated marchPayment := ⟨by decide, by decide +kernel⟩

def quietResolution : Checked (WalletEvidenceResolution × List EvidenceBlocker) :=
  resolveStatementWallet "1" quietMonths [marchPayment] [] [] statementWallet

theorem anchors_agree_quiet :
    ∃ res blockers anchors, quietResolution = .ok (res, blockers) ∧
      res.balanceAnchors = some anchors ∧ anchors.length = 4 ∧
      ∀ a ∈ anchors, ∀ a' ∈ anchors,
        a.asOfDate = a'.asOfDate → a.boundary = a'.boundary → a.amount = a'.amount := by
  have hlen : (quietResolution.toOption.bind fun out => out.1.balanceAnchors.map (·.length)) =
      some 4 := by decide +kernel
  cases h : quietResolution with
  | error e =>
    rw [h] at hlen
    cases hlen
  | ok out =>
    obtain ⟨_, _, -, -, -, -, -, anchors, hanchors, hagree⟩ :=
      anchors_agree (fun o ho => mem_singleton.mp ho ▸ dated_marchPayment) h
    rw [h] at hlen
    have hlen : out.1.balanceAnchors.map (·.length) = some 4 := hlen
    rw [hanchors] at hlen
    exact ⟨out.1, out.2, anchors, rfl, hanchors, Option.some.inj hlen, hagree⟩

end BalanceFrame.Evidence
