import BalanceFrame.Evidence.StatementBalances
import BalanceFrame.Evidence.SpentOnce

/-!
# Known balances

What a wallet whose balance is known has shown. `countedActivity` is the activity that a wallet
counts, by its statements or on its own. A known balance is the opening one and that activity, and
it `Holds`: whatever the order of the activity inside its days, it is never overdrawn.
-/

namespace BalanceFrame.Evidence

open Library List
open Liquidity (I64 InI64 Money Checked)

variable {wallet : WalletEvidence} {acts : List Observed} {i : Interval} {t : WalletState}

/-! ## What a known balance is -/

/-- The order respects the civil dates. -/
def RespectsDates (order : List Observed) : Prop := order.Pairwise fun a b => dayOf a ≤ dayOf b

/-- Every order of the activity by date leaves a balance, step by step. -/
def Holds (opening : Int) (counted : List Observed) : Prop :=
  ∀ order front back : List Observed, order.Perm counted → RespectsDates order →
    order = front ++ back → 0 ≤ opening + (front.map netOf).sum

theorem holds_of_covered {counted : List Observed} {opening : Int} (h0 : 0 ≤ opening)
    (h : ∀ o ∈ counted, DailySums.spent dayOf netOf counted (dayOf o) ≤
      opening + DailySums.before dayOf netOf counted (dayOf o)) : Holds opening counted :=
  fun _ _ _ hperm hdates hsplit => DailySums.covered_prefix h0 h hperm hdates hsplit

/-- What `validate` establishes of the observations of a request. -/
structure Admitted (obs : List Observed) : Prop where
  dated : ∀ o ∈ obs, Dated o
  apart : (obs.map fun o => o.id).Nodup

/-! ## A wallet on its own -/

section

variable (obs : List Observed) (events : List (String × List String))

/-- The activity a wallet on its own counts: what a ledger row settles is left out. -/
def ownCounted (walletId : String) : List Observed :=
  (ownActivity obs walletId).filter fun o => !passesThrough obs events walletId o

/-- What the counted part of the activity adds up to. -/
structure OwnFlows (walletId : String) (done : List Observed) (t : WalletFlows) : Prop where
  net : (t.net : Int) =
    ((done.filter fun o => !passesThrough obs events walletId o).map netOf).sum
  daily : DailyOf (fun v : I64 × I64 => (v.1 : Int)) (fun v => (v.2 : Int))
    (done.filter fun o => !passesThrough obs events walletId o) t.daily

variable {obs events}

theorem ownFlows_add {done : List Observed} {t t' : WalletFlows}
    {o : Observed} (ho : Dated o) (h : OwnFlows obs events wallet.walletId done t)
    (hstep : addWalletFlow obs events wallet t o = .ok t') :
    OwnFlows obs events wallet.walletId (done ++ [o]) t' := by
  obtain ⟨identities, -, hstep⟩ := bind_ok.mp hstep
  have hamount := ho.amount
  cases hpass : passesThrough obs events wallet.walletId o with
  | true =>
    rw [hpass] at hstep
    cases hstep
    have hfilter : (done ++ [o]).filter (fun o => !passesThrough obs events wallet.walletId o) =
        done.filter fun o => !passesThrough obs events wallet.walletId o := by
      rw [filter_append, filter_cons_of_neg (by rw [hpass]; decide), filter_nil,
        append_nil]
    exact ⟨by rw [hfilter]; exact h.net, by rw [hfilter]; exact h.daily⟩
  | false =>
    rw [hpass] at hstep
    have hfilter : (done ++ [o]).filter (fun o => !passesThrough obs events wallet.walletId o) =
        (done.filter fun o => !passesThrough obs events wallet.walletId o) ++ [o] := by
      rw [filter_append, filter_cons_of_pos (by rw [hpass]; rfl), filter_nil]
    have hsnoc : ∀ net : I64, addAmount t.net (signed o) = .ok net → (net : Int) =
        (((done ++ [o]).filter fun o => !passesThrough obs events wallet.walletId o).map
          netOf).sum := by
      intro net hnet
      rw [addAmount_eq_ok, signed_eq ho] at hnet
      rw [hfilter, map_append, sum_append, map_singleton, sum_singleton,
        ← h.net, hnet]
    rw [if_neg Bool.false_ne_true] at hstep
    dsimp only at hstep
    split at hstep
    · rename_i hdir
      obtain ⟨inflow, hin, hstep⟩ := bind_ok.mp hstep
      rw [pure_ok, ok_bind] at hstep
      obtain ⟨net, hnet, hstep⟩ := bind_ok.mp hstep
      rw [addAmount_eq_ok] at hin
      cases hstep
      have hnetOf : netOf o = o.amount.minorUnits := if_pos hdir
      refine ⟨hsnoc net hnet, ?_⟩
      rw [hfilter]
      refine h.daily.add ((0 : I64), (0 : I64)) rfl rfl ?_ ?_
      · dsimp only
        omega
      · dsimp only
        omega
    · rename_i hdir
      obtain ⟨outflow, hout, hstep⟩ := bind_ok.mp hstep
      rw [pure_ok, ok_bind] at hstep
      obtain ⟨net, hnet, hstep⟩ := bind_ok.mp hstep
      rw [addAmount_eq_ok] at hout
      cases hstep
      have hnetOf : netOf o = -(o.amount.minorUnits : Int) := if_neg hdir
      refine ⟨hsnoc net hnet, ?_⟩
      rw [hfilter]
      refine h.daily.add ((0 : I64), (0 : I64)) rfl rfl ?_ ?_
      · dsimp only
        omega
      · dsimp only
        omega

end

/-- The net of a day. -/
def pairNet (e : String × (I64 × I64)) : Int := (e.2.1 : Int) - e.2.2

/-- **Days in order**: while the balance is known, each day's outflow is there before the day. -/
theorem runDays_known {l : List (String × (I64 × I64))} :
    ∀ {balance : I64} {t t' : WalletState}, runDays l balance t = .ok t' →
      t'.opening = t.opening ∧ t'.closing = t.closing ∧ (t'.state = "known" →
        t.state = "known" ∧ ∀ front e back, l = front ++ e :: back →
          (e.2.2 : Int) ≤ balance + (front.map pairNet).sum) := by
  induction l with
  | nil =>
    intro balance t t' h
    cases h
    refine ⟨rfl, rfl, fun hk => ⟨hk, fun front e back hl => ?_⟩⟩
    cases front <;> cases hl
  | cons d rest ih =>
    intro balance t t' h
    obtain ⟨date, inflow, outflow⟩ := d
    obtain ⟨mid, hmid, h⟩ := bind_ok.mp h
    obtain ⟨next, hnext, h⟩ := bind_ok.mp h
    rw [addAmount_eq_ok] at hmid
    rw [subAmount_eq_ok] at hnext
    split at h
    · cases h
      exact ⟨rfl, rfl, fun hk => absurd hk (show "discontinuous" ≠ "known" by decide)⟩
    · obtain ⟨hopening, hclosing, hknown⟩ := ih h
      have hkept : ∀ {u : WalletState}, u = (if (balance : Int) < outflow ∧
          t.state ≠ "discontinuous" then
            { t with
              state := "balance_unknown"
              reasons := withReason t.reasons "wallet_activity_order_unknown" }
          else t) → u.opening = t.opening ∧ u.closing = t.closing ∧
            (u.state = "known" → t.state = "known" ∧ (outflow : Int) ≤ balance) := by
        intro u hu
        split at hu
        · subst hu
          exact ⟨rfl, rfl, fun hk => absurd hk (show "balance_unknown" ≠ "known" by decide)⟩
        · rename_i hcover
          subst hu
          refine ⟨rfl, rfl, fun hk => ⟨hk, ?_⟩⟩
          by_contra hlt
          exact hcover ⟨not_le.mp hlt, by rw [hk]; decide⟩
      obtain ⟨ho, hc, hs⟩ := hkept rfl
      refine ⟨hopening.trans ho, hclosing.trans hc, fun hk => ?_⟩
      obtain ⟨hk', hrest⟩ := hknown hk
      obtain ⟨hstate, hcover⟩ := hs hk'
      refine ⟨hstate, fun front e back hl => ?_⟩
      cases front with
      | nil =>
        cases hl
        simpa using hcover
      | cons f front =>
        rw [cons_append] at hl
        cases hl
        have := hrest front e back rfl
        rw [map_cons, sum_cons]
        unfold pairNet
        dsimp only
        unfold pairNet at this
        omega

theorem inferOpening_spec {net : I64} {t' : WalletState} (h : inferOpening wallet net t = .ok t') :
    t'.closing = t.closing ∧ t'.state = t.state ∧ ∀ x, t'.opening = some x →
      t.opening = some x ∨ x.currency = wallet.currency ∧ 0 ≤ (x.minorUnits : Int) := by
  unfold inferOpening at h
  split at h
  · cases h
    exact ⟨rfl, rfl, fun x hx => .inl hx⟩
  · split at h
    · cases h
      exact ⟨rfl, rfl, fun x hx => .inl hx⟩
    · obtain ⟨inferred, -, h⟩ := bind_ok.mp h
      split at h
      · rename_i hpos
        cases h
        refine ⟨rfl, rfl, fun x hx => .inr ?_⟩
        cases hx
        exact ⟨rfl, hpos⟩
      · cases h
        exact ⟨rfl, rfl, fun x hx => .inl hx⟩

theorem checkClosing_known {finish : I64} (h : (checkClosing wallet finish t).state = "known") :
    (checkClosing wallet finish t).opening = t.opening ∧ t.state = "known" ∧
      ∃ closing, (checkClosing wallet finish t).closing = some closing ∧
        (t.closing = some closing ∨ closing.currency = wallet.currency) ∧
        closing.minorUnits = finish := by
  unfold checkClosing at h ⊢
  split at h
  · exact absurd h (show "discontinuous" ≠ "known" by decide)
  · rename_i hend
    rw [if_neg hend]
    cases hstated : t.closing with
    | none =>
      rw [hstated] at h
      exact ⟨rfl, h, _, rfl, .inr rfl, rfl⟩
    | some closing =>
      rw [hstated] at hend h
      refine ⟨rfl, h, closing, hstated, .inl rfl, ?_⟩
      rw [Bool.or_eq_true, not_or] at hend
      simpa using hend.2

theorem walletState_known {flows : WalletFlows}
    (h : walletState wallet flows = .ok t) (hknown : t.state = "known")
    (hstated : ∀ x, wallet.openingBalance = some x → 0 ≤ (x.minorUnits : Int)) :
    ∃ opening closing, t.opening = some opening ∧ t.closing = some closing ∧
      (wallet.openingBalance = some opening ∨ opening.currency = wallet.currency) ∧
      (wallet.closingBalance = some closing ∨ closing.currency = wallet.currency) ∧
      0 ≤ (opening.minorUnits : Int) ∧
      (closing.minorUnits : Int) = opening.minorUnits + flows.net ∧
      ∀ front e back, flows.daily.entries = front ++ e :: back →
        (e.2.2 : Int) ≤ opening.minorUnits + (front.map pairNet).sum := by
  obtain ⟨t₀, hinfer, h⟩ := bind_ok.mp h
  obtain ⟨hclosing, hstate, hopen⟩ := inferOpening_spec hinfer
  split at h
  · cases h
    exact absurd hknown (show "balance_unknown" ≠ "known" by decide)
  · rename_i opening hopening
    have hstart : (wallet.openingBalance = some opening ∨ opening.currency = wallet.currency) ∧
        0 ≤ (opening.minorUnits : Int) := by
      rcases hopen opening hopening with hsame | ⟨hcurrency, hpos⟩
      · exact ⟨.inl hsame, hstated opening hsame⟩
      · exact ⟨.inr hcurrency, hpos⟩
    split at h
    · obtain ⟨finish, hfinish, h⟩ := bind_ok.mp h
      rw [addAmount_eq_ok] at hfinish
      obtain ⟨ho, hc, hk⟩ := runDays_known h
      obtain ⟨hchecked, hcover⟩ := hk hknown
      obtain ⟨hsame, -, closing, hfound, hcurrency, hunits⟩ := checkClosing_known hchecked
      rw [hclosing] at hcurrency
      exact ⟨opening, closing, ho.trans (hsame.trans hopening), hc.trans hfound, hstart.1,
        hcurrency, hstart.2, by rw [hunits, hfinish], hcover⟩
    · rename_i hincomplete
      cases h
      rw [hstate, if_neg hincomplete] at hknown
      exact absurd hknown (show "balance_unknown" ≠ "known" by decide)

theorem own_known {obs : List Observed} (hobs : ∀ o ∈ obs, Dated o)
    {events : List (String × List String)}
    {out : WalletEvidenceResolution × List EvidenceBlocker}
    (h : resolveOwnWallet obs events wallet = .ok out) (hknown : out.1.balanceState = "known")
    (hstated : ∀ x, wallet.openingBalance = some x → 0 ≤ (x.minorUnits : Int)) :
    ∃ opening closing, out.1.openingBalance = some opening ∧
      out.1.closingBalance = some closing ∧
      (wallet.openingBalance = some opening ∨ opening.currency = wallet.currency) ∧
      (wallet.closingBalance = some closing ∨ closing.currency = wallet.currency) ∧
      (closing.minorUnits : Int) = opening.minorUnits +
        ((ownCounted obs events wallet.walletId).map netOf).sum ∧
      Holds opening.minorUnits (ownCounted obs events wallet.walletId) := by
  obtain ⟨flows, hflows, h⟩ := bind_ok.mp h
  obtain ⟨t, ht, h⟩ := bind_ok.mp h
  cases h
  obtain ⟨opening, closing, hopening, hclosing, hoc, hcc, h0, hunits, hcover⟩ :=
    walletState_known ht hknown hstated
  have hown : ∀ o ∈ ownActivity obs wallet.walletId, Dated o := fun o ho =>
    hobs o (mem_of_mem_filter ho)
  have hsums : OwnFlows obs events wallet.walletId (ownActivity obs wallet.walletId) flows :=
    foldlM_runAt (P := OwnFlows obs events wallet.walletId) (fun done o rest c c' hl hc hstep =>
      ownFlows_add (hown o (hl ▸ mem_append_right _ mem_cons_self)) hc hstep)
      ⟨rfl, dailyOf_nil _ _⟩ hflows
  have hdated : ∀ o ∈ ownCounted obs events wallet.walletId, Dated o := fun o ho =>
    hown o (mem_of_mem_filter ho)
  have hnet : (flows.net : Int) = ((ownCounted obs events wallet.walletId).map netOf).sum :=
    hsums.net
  have hdaily : DailyOf (fun v : I64 × I64 => (v.1 : Int)) (fun v => (v.2 : Int))
      (ownCounted obs events wallet.walletId) flows.daily := hsums.daily
  refine ⟨opening, closing, hopening, hclosing, hoc, hcc, by rw [hunits, hnet], ?_⟩
  refine holds_of_covered h0 fun o ho => ?_
  obtain ⟨v, hv⟩ := Option.isSome_iff_exists.mp ((hdaily.dates o.date).mpr ⟨o, ho, rfl⟩)
  obtain ⟨front, back, hsplit⟩ := append_of_mem (SortedMap.mem_entries_iff.mpr hv)
  have hday := hcover front (o.date, v) back hsplit
  have hfront : (front.map pairNet).sum =
      DailySums.before dayOf netOf (ownCounted obs events wallet.walletId) (dayOf o) := by
    have hsorted := flows.daily.sorted
    rw [hsplit] at hsorted
    have hsum := DailySums.sum_before_split (fun k v => pairNet (k, v)) hsorted
    rw [← hsplit] at hsum
    refine hsum.symm.trans ((hdaily.total fun k => k < o.date).trans ?_)
    unfold DailySums.before
    congr 1
    refine map_congr_left fun a ha => ?_
    simp only [date_lt_iff (hdated a ha) (hdated o ho)]
  have hspent : (v.2 : Int) =
      DailySums.spent dayOf netOf (ownCounted obs events wallet.walletId) (dayOf o) := by
    rw [hdaily.outflow o.date v hv]
    unfold DailySums.spent
    congr 1
    refine map_congr_left fun a ha => ?_
    simp only [date_eq_iff (hdated a ha) (hdated o ho)]
  rw [← hspent, ← hfront]
  exact hday

/-! ## A wallet with statements -/

/-- The interval starts no earlier than `first` does, and its balances are those of `first` and the
activity since. -/
def OnChain (acts : List Observed) (first i : Interval) : Prop :=
  first.first ≤ i.first ∧ ∀ b, i.first ≤ b → b ≤ i.past →
    (balanceAt i b : Int) = first.opening + DailySums.within dayOf netOf acts first.first b

theorem past_le_iff {j : Interval} (hi : Attests acts i)
    (hj : Attests acts j) : i.past ≤ j.past ↔ i.proof.endDate ≤ j.proof.endDate := by
  rw [ordinal_le_iff hi.ends hj.ends]
  omega

/-- **An interval after the chain is on it**: it starts inside the last one, or the day after. -/
theorem onChain_next {first last : Interval}
    (hlast : OnChain acts first last) (hi : Attests acts i) (hstart : last.first ≤ i.first)
    (hmeet : i.first ≤ last.past) (hagree : balanceAt i i.first = balanceAt last i.first) :
    OnChain acts first i := by
  have hfirst : first.first ≤ i.first := hlast.1.trans hstart
  refine ⟨hfirst, fun b hb hbp => ?_⟩
  have hat := hlast.2 i.first hstart hmeet
  have hopen := hi.balance i.first le_rfl hi.order.le
  have hthere := hi.balance b hb hbp
  have hsum := DailySums.within_add dayOf netOf acts hfirst hb
  rw [DailySums.within_self, hagree] at hopen
  omega

/-- The last of the intervals stepped over, and all of them on the chain. -/
structure Chained (acts : List Observed) (first : Interval) (done : List Interval)
    (through : String) : Prop where
  last : ∃ j ∈ first :: done, through = j.proof.endDate
  onChain : ∀ i ∈ first :: done, OnChain acts first i

theorem continues_iff {t : Bool × String} :
    (continues t i).1 = true ↔ t.1 = true ∧ i.first ≤ ordinal t.2 + 1 := by
  unfold continues
  rw [Bool.and_eq_true, decide_eq_true_iff]
  rfl

theorem chain_of_continues {ordered : List Interval} {first : Interval}
    (hfirst : Attests acts first) (hattests : ∀ i ∈ ordered, Attests acts i)
    (hsorted : (first :: ordered).Pairwise fun i j => i.first ≤ j.first)
    (hagree : ∀ i ∈ first :: ordered, ∀ j ∈ first :: ordered, i.first ≤ j.first →
      j.first ≤ i.past → balanceAt j j.first = balanceAt i j.first)
    (h : (ordered.foldl continues (true, first.proof.endDate)).1 = true) :
    ∀ i ∈ first :: ordered, OnChain acts first i := by
  have hstart : OnChain acts first first := ⟨le_rfl, hfirst.balance⟩
  have hrun : ∀ done : List Interval, done <+: ordered →
      (done.foldl continues (true, first.proof.endDate)).1 = true →
        Chained acts first done (done.foldl continues (true, first.proof.endDate)).2 := by
    intro done
    induction done using List.reverseRecOn with
    | nil =>
      intro _ _
      refine ⟨⟨first, mem_cons_self, rfl⟩, fun i hi => ?_⟩
      rw [mem_singleton.mp hi]
      exact hstart
    | append_singleton done i ih =>
      intro hstart' hok
      rw [foldl_append, foldl_cons, foldl_nil] at hok ⊢
      obtain ⟨hok, hgap⟩ := continues_iff.mp hok
      have hdone : done <+: ordered := (prefix_append done [i]).trans hstart'
      obtain ⟨⟨j, hj, hthrough⟩, hon⟩ := ih hdone hok
      have hmem : ∀ k ∈ first :: (done ++ [i]), k ∈ first :: ordered := by
        intro k hk
        rcases mem_cons.mp hk with rfl | hk
        · exact mem_cons_self
        · exact mem_cons_of_mem _ (hstart'.subset hk)
      have hi : i ∈ ordered := hstart'.subset (mem_append_right _ mem_cons_self)
      have hij : j.first ≤ i.first := by
        have hsub := hsorted.sublist ((prefix_cons_inj first).mpr hstart').sublist
        rw [← cons_append] at hsub
        exact (pairwise_append.mp hsub).2.2 j hj i mem_cons_self
      have hmeet : i.first ≤ j.past := by
        rw [hthrough] at hgap
        exact hgap
      have hjmem : j ∈ first :: ordered := hmem j (mem_cons.mpr
        ((mem_cons.mp hj).imp_right (mem_append_left _)))
      have hnext := onChain_next (hon j hj) (hattests i hi) hij hmeet
        (hagree j hjmem i (mem_cons_of_mem _ hi) hij hmeet)
      refine ⟨?_, fun k hk => ?_⟩
      · rcases le_total i.proof.endDate j.proof.endDate with hle | hle
        · refine ⟨j, ?_, ?_⟩
          · exact mem_cons.mpr ((mem_cons.mp hj).imp_right (mem_append_left _))
          rw [← hthrough] at hle
          exact (max_eq_left hle).trans hthrough
        · refine ⟨i, mem_cons_of_mem _ (mem_append_right _ mem_cons_self), ?_⟩
          rw [← hthrough] at hle
          exact max_eq_right hle
      · rw [← cons_append] at hk
        rcases mem_append.mp hk with hk | hk
        · exact hon k hk
        · exact mem_singleton.mp hk ▸ hnext
  intro i hi
  exact (hrun ordered (prefix_refl _) h).onChain i hi

theorem latest_spec {l : List Interval} (h : latest l = some i) :
    i ∈ l ∧ ∀ j ∈ l, j.proof.endDate ≤ i.proof.endDate := by
  cases l with
  | nil => cases h
  | cons first rest =>
    have hrun := foldl_runAt (l := rest) (b := first)
      (f := fun best j => if best.proof.endDate ≤ j.proof.endDate then j else best)
      (P := fun done best => best ∈ first :: done ∧
        ∀ j ∈ first :: done, j.proof.endDate ≤ best.proof.endDate)
      (fun done a _ best _ hbest => by
        obtain ⟨hmem, hup⟩ := hbest
        rw [← cons_append]
        split
        · rename_i hle
          refine ⟨mem_append_right _ mem_cons_self, fun j hj => ?_⟩
          rcases mem_append.mp hj with hj | hj
          · exact (hup j hj).trans hle
          · exact (mem_singleton.mp hj ▸ le_refl a.proof.endDate)
        · rename_i hlt
          refine ⟨mem_append_left _ hmem, fun j hj => ?_⟩
          rcases mem_append.mp hj with hj | hj
          · exact hup j hj
          · exact mem_singleton.mp hj ▸ (not_le.mp hlt).le)
      ⟨mem_cons_self, fun j hj => mem_singleton.mp hj ▸ le_refl first.proof.endDate⟩
    cases h
    exact hrun

theorem covering_of_known (hnd : (acts.map fun o => o.id).Nodup)
    {intervals : List Interval} (h : statementKnown acts intervals = true) :
    continuous intervals = true ∧ (∀ i ∈ intervals, i.valid = true) ∧
      (∀ i ∈ intervals, i.orderUnknown = []) ∧
      ∀ o ∈ acts, ∃ i ∈ intervals, inRange o i.proof.startDate i.proof.endDate = true := by
  unfold statementKnown at h
  rw [Bool.and_eq_true, Bool.and_eq_true, Bool.and_eq_true, List.isEmpty_iff, List.isEmpty_iff,
    all_eq_true] at h
  obtain ⟨⟨⟨hcontinuous, huncovered⟩, hblocked⟩, hvalid⟩ := h
  have hblocked := (dedup_eq_nil _).mp ((sortOn_eq_nil _).mp hblocked)
  refine ⟨hcontinuous, hvalid, fun i hi => ?_, fun o ho => ?_⟩
  · have hnil := (append_eq_nil_iff.mp hblocked).1
    exact flatMap_eq_nil_iff.mp hnil i (mem_filter.mpr ⟨hi, hvalid i hi⟩)
  · have hnil := filter_eq_nil_iff.mp (map_eq_nil_iff.mp huncovered) o ho
    rw [Bool.not_eq_true, Bool.not_eq_false', contains_eq_mem, decide_eq_true_iff] at hnil
    obtain ⟨o', ho', hid⟩ := mem_map.mp hnil
    obtain ⟨i, hi, ho'⟩ := mem_flatMap.mp ho'
    obtain ⟨ho', hin⟩ := mem_filter.mp ho'
    obtain rfl : o' = o := inj_on_of_nodup_map hnd ho' ho hid
    exact ⟨i, mem_of_mem_filter hi, hin⟩

theorem statement_known {policyVersion : String} {proofs : List WalletStatementProof}
    (hacts : ∀ o ∈ acts, Dated o)
    (hnd : (acts.map fun o => o.id).Nodup) {intervals : List Interval}
    (h : statementIntervals policyVersion proofs wallet acts = .ok intervals)
    {res : WalletEvidenceResolution} (hres : Returned wallet acts intervals res)
    (hknown : res.balanceState = "known") :
    ∃ opening closing, res.openingBalance = some opening ∧ res.closingBalance = some closing ∧
      opening.currency = wallet.currency ∧ closing.currency = wallet.currency ∧
      (closing.minorUnits : Int) = opening.minorUnits + (acts.map netOf).sum ∧
      Holds opening.minorUnits acts := by
  have hk : statementKnown acts intervals = true := by
    by_contra hnot
    rw [hres.state, if_neg hnot] at hknown
    exact absurd hknown (by decide)
  have hopening := hres.opening
  have hclosing := hres.closing
  rw [if_pos hk] at hopening hclosing
  obtain ⟨hcontinuous, hvalid, horder, hcover⟩ := covering_of_known hnd hk
  have hattests := attests_of_statementIntervals hacts h
  have hfilter : intervals.filter (·.valid) = intervals :=
    filter_eq_self.mpr hvalid
  rw [hfilter] at hopening hclosing
  unfold continuous at hcontinuous
  dsimp only at hcontinuous
  rw [hfilter] at hcontinuous
  have hmem : ∀ i, i ∈ sortOn (fun i => i.proof.startDate) intervals ↔ i ∈ intervals :=
    fun i => mem_sortOn _
  have hstarts := pairwise_sortOn (fun i : Interval => i.proof.startDate) intervals
  generalize hordered : sortOn (fun i : Interval => i.proof.startDate) intervals = ordered at *
  cases ordered with
  | nil =>
    have hnil : intervals = [] := by
      refine eq_nil_iff_forall_not_mem.mpr fun i hi => ?_
      exact not_mem_nil ((hmem i).mpr hi)
    subst hnil
    cases hcontinuous
  | cons first rest =>
    have hall : ∀ i ∈ first :: first :: rest, i ∈ intervals := by
      intro i hi
      rcases mem_cons.mp hi with rfl | hi
      · exact (hmem _).mp mem_cons_self
      · exact (hmem i).mp hi
    have hat : ∀ i ∈ first :: first :: rest, Attests acts i := fun i hi => hattests i (hall i hi)
    have hfirst := hat first mem_cons_self
    have hsorted : (first :: first :: rest).Pairwise fun i j => i.first ≤ j.first := by
      have hle : ∀ i ∈ first :: rest, ∀ j ∈ first :: rest,
          i.proof.startDate ≤ j.proof.startDate → i.first ≤ j.first := fun i hi j hj =>
        (ordinal_le_iff (hat i (mem_cons_of_mem _ hi)).starts
          (hat j (mem_cons_of_mem _ hj)).starts).mp
      have hpair := hstarts.imp_of_mem fun {i j} hi hj => hle i hi j hj
      refine pairwise_cons.mpr ⟨fun j hj => ?_, hpair⟩
      rcases mem_cons.mp hj with rfl | hj
      · exact le_rfl
      · exact (pairwise_cons.mp hpair).1 j hj
    have hchain := chain_of_continues hfirst (fun i hi => hat i (mem_cons_of_mem _ hi))
      hsorted (fun i hi j hj hij hmeet => intervals_agree hacts h (hall j hj) (hall i hi)
        (hvalid j (hall j hj)) (hvalid i (hall i hi))
        ⟨le_rfl, (hat j hj).order.le⟩ ⟨hij, hmeet⟩)
      ((Bool.and_eq_true _ _).mp hcontinuous).2
    obtain ⟨last, hlast⟩ : ∃ last, latest (first :: rest) = some last := ⟨_, rfl⟩
    obtain ⟨hlastmem, hend⟩ := latest_spec hlast
    have hlast' := hchain last (mem_cons_of_mem _ hlastmem)
    have hlastat := hat last (mem_cons_of_mem _ hlastmem)
    -- every observation lies in an interval of the chain
    have hinside : ∀ o ∈ acts, ∃ i ∈ first :: rest, i.first ≤ dayOf o ∧ dayOf o < i.past := by
      intro o ho
      obtain ⟨i, hi, hin⟩ := hcover o ho
      have hin := (inRange_iff (hacts o ho) (hattests i hi).starts (hattests i hi).ends).mp hin
      exact ⟨i, (hmem i).mpr hi, hin.1, by omega⟩
    have hfrom : ∀ o ∈ acts, first.first ≤ dayOf o := by
      intro o ho
      obtain ⟨i, hi, hstart, -⟩ := hinside o ho
      exact (hchain i (mem_cons_of_mem _ hi)).1.trans hstart
    have hupto : ∀ o ∈ acts, dayOf o < last.past := by
      intro o ho
      obtain ⟨i, hi, -, hpast⟩ := hinside o ho
      exact hpast.trans_le ((past_le_iff (hat i (mem_cons_of_mem _ hi)) hlastat).mpr
        (hend i hi))
    have hvalidfirst := hvalid first (hall first mem_cons_self)
    refine ⟨_, _, hopening, hclosing.trans (congrArg _ hlast), rfl, rfl, ?_,
      holds_of_covered (hfirst.opening hvalidfirst) fun o ho => ?_⟩
    · have hbalance := hlast'.2 last.past hlastat.order.le le_rfl
      rw [← DailySums.before_eq_within hfrom, DailySums.before_eq_sum hupto,
        ← hlastat.closing] at hbalance
      exact hbalance
    · obtain ⟨i, hi, hstart, hpast⟩ := hinside o ho
      have hiat := hat i (mem_cons_of_mem _ hi)
      have hon := (hchain i (mem_cons_of_mem _ hi)).2 (dayOf o) hstart hpast.le
      have hday := hiat.covered (hvalid i ((hmem i).mp hi)) (horder i ((hmem i).mp hi)) o ho hstart
        hpast
      rw [hiat.balance (dayOf o) hstart hpast.le] at hon
      rw [DailySums.before_eq_within hfrom]
      exact hday.trans hon.le

/-! ## All wallets -/

section

variable (r : TransactionEvidenceRequest) (relationships : List EvidenceRelationship)
  (events : List (String × List String))

/-- The activity that a wallet counts. -/
def countedActivity (wallet : WalletEvidence) : Checked (List Observed) :=
  let obs := r.observations.map (·.toObserved)
  if r.statementProofs.any (·.walletId == wallet.walletId) then
    activity obs relationships events wallet
  else pure (ownCounted obs events wallet.walletId)

variable {r relationships events}

theorem forall₂_of_resolveWallets {wallets : List WalletEvidenceResolution}
    {blockers : List EvidenceBlocker}
    (h : resolveWallets r relationships events = .ok (wallets, blockers)) :
    List.Forall₂ (fun wallet res => (∃ ids u, checkWallet ids wallet = .ok u) ∧
      ∃ added, resolveByEvidence r relationships events wallet = .ok (res, added))
      r.wallets wallets := by
  obtain ⟨_, h⟩ := rest_ok h
  obtain ⟨_, h⟩ := rest_ok h
  obtain ⟨_, h⟩ := rest_ok h
  obtain ⟨_, h⟩ := rest_ok h
  obtain ⟨out, hout, h⟩ := bind_ok.mp h
  cases h
  refine foldlM_run (P := fun done (out : WalletsOut) => List.Forall₂ _ done out.wallets)
    (fun done out out' wallet hdone hstep => ?_) List.Forall₂.nil hout
  obtain ⟨u, hcheck, hstep⟩ := bind_ok.mp hstep
  obtain ⟨⟨res, added⟩, hres, hstep⟩ := bind_ok.mp hstep
  cases hstep
  exact rel_append hdone (.cons ⟨⟨out.ids, u, hcheck⟩, added, hres⟩ .nil)

theorem checkWallet_balances {ids : List String} {u : Unit} (h : checkWallet ids wallet = .ok u) :
    (∀ x, wallet.openingBalance = some x → 0 ≤ (x.minorUnits : Int) ∧
      x.currency = wallet.currency) ∧
    ∀ x, wallet.closingBalance = some x → x.currency = wallet.currency := by
  simp only [checkWallet, bind_ok, require_eq_ok, all_eq_true, mem_append,
    Option.mem_toList, Bool.and_eq_true, beq_iff_eq, isMoney, decide_eq_true_iff] at h
  obtain ⟨-, -, -, -, hall⟩ := h
  exact ⟨fun x hx => ⟨(hall x (.inl hx)).1.1, (hall x (.inl hx)).2⟩,
    fun x hx => (hall x (.inr hx)).2⟩

/-- **A known wallet balance is really known.** It is the opening balance and the activity counted,
and the activity never overdraws it, in whatever order it took place on its days. -/
theorem known_balances {wallets : List WalletEvidenceResolution} {blockers : List EvidenceBlocker}
    (hr : Admitted (r.observations.map (·.toObserved)))
    (h : resolveWallets r relationships events = .ok (wallets, blockers))
    {res : WalletEvidenceResolution} (hres : res ∈ wallets) (hknown : res.balanceState = "known") :
    ∃ wallet ∈ r.wallets, ∃ counted opening closing, res.walletId = wallet.walletId ∧
      countedActivity r relationships events wallet = .ok counted ∧
      (∀ o ∈ counted, o.status = "completed" ∧ o.walletId = some wallet.walletId) ∧
      res.openingBalance = some opening ∧ res.closingBalance = some closing ∧
      opening.currency = wallet.currency ∧ closing.currency = wallet.currency ∧
      (closing.minorUnits : Int) = opening.minorUnits + (counted.map netOf).sum ∧
      Holds opening.minorUnits counted := by
  obtain ⟨wallet, hwallet, ⟨ids, u, hcheck⟩, added, hresolve⟩ :=
    exists_of_forall₂ (forall₂_of_resolveWallets h) hres
  obtain ⟨hopen, hclose⟩ := checkWallet_balances hcheck
  refine ⟨wallet, hwallet, ?_⟩
  unfold resolveByEvidence at hresolve
  unfold countedActivity
  dsimp only at hresolve ⊢
  split at hresolve
  · rename_i hproofs
    obtain ⟨acts, intervals, hacts, hintervals, hreturned⟩ := resolveStatementWallet_eq_ok hresolve
    have hsub := sublist_of_activity hacts
    have hobs : acts.Sublist (r.observations.map (·.toObserved)) := by
      refine hsub.trans ?_
      unfold walletActivity
      exact filter_sublist
    obtain ⟨opening, closing, ho, hc, hoc, hcc, hsum, hholds⟩ :=
      statement_known (fun o ho => hr.dated o (hobs.subset ho))
        ((hobs.map fun o => o.id).nodup hr.apart) hintervals hreturned hknown
    refine ⟨acts, opening, closing, hreturned.walletId, ?_, fun o ho => ?_, ho, hc, hoc, hcc, hsum,
      hholds⟩
    · rw [if_pos hproofs]
      exact hacts
    · have hin := (mem_filter.mp (hsub.subset ho)).2
      simp only [Bool.and_eq_true, beq_iff_eq] at hin
      exact ⟨hin.2, hin.1.1.1⟩
  · rename_i hproofs
    obtain ⟨opening, closing, ho, hc, hoc, hcc, hsum, hholds⟩ :=
      own_known hr.dated hresolve hknown fun x hx => (hopen x hx).1
    refine ⟨_, opening, closing, ?_, if_neg hproofs, fun o ho => ?_, ho, hc, ?_, ?_, hsum, hholds⟩
    · obtain ⟨_, hresolve⟩ := rest_ok hresolve
      obtain ⟨_, hresolve⟩ := rest_ok hresolve
      cases hresolve
      rfl
    · have hin := (mem_filter.mp (mem_of_mem_filter ho)).2
      simp only [active, Bool.and_eq_true, beq_iff_eq] at hin
      exact ⟨hin.2.1, hin.1.1⟩
    · exact hoc.elim (fun hx => (hopen opening hx).2) id
    · exact hcc.elim (fun hx => hclose closing hx) id

end

theorem admitted_of_validate {r : TransactionEvidenceRequest} {u : Unit} (h : validate r = .ok u) :
    Admitted (r.observations.map (·.toObserved)) where
  dated o ho := by
    obtain ⟨e, he, rfl⟩ := mem_map.mp ho
    exact dated_of_validate h e he
  apart := by
    rw [map_map]
    exact (validate_eq_ok.mp h).2.2.1.1

def coffeeWallet : WalletEvidence :=
  { statementWallet with
    openingBalance := some ⟨I64.ofInt 1000, "USD"⟩
    completeActivity := true }

def coffeeWallets : TransactionEvidenceRequest :=
  { coffeeRequest with
    observations := [{ coffeePayment with walletId := some "w" }]
    wallets := [coffeeWallet] }

theorem known_balances_coffee :
    ∃ wallets blockers, resolveWallets coffeeWallets [] [] = .ok (wallets, blockers) ∧
      wallets.map (·.balanceState) = ["known"] ∧ ∀ res ∈ wallets,
        ∃ counted opening, countedActivity coffeeWallets [] [] coffeeWallet = .ok counted ∧
          res.openingBalance = some opening ∧ Holds opening.minorUnits counted := by
  have hstates : (resolveWallets coffeeWallets [] []).toOption.map
      (fun out => out.1.map (·.balanceState)) = some ["known"] := by decide +kernel
  cases h : resolveWallets coffeeWallets [] [] with
  | error e =>
    rw [h] at hstates
    cases hstates
  | ok out =>
    rw [h] at hstates
    have hstates : out.1.map (·.balanceState) = ["known"] := Option.some.inj hstates
    refine ⟨out.1, out.2, rfl, hstates, fun res hres => ?_⟩
    have hknown : res.balanceState ∈ ["known"] := hstates ▸ mem_map_of_mem hres
    obtain ⟨wallet, hwallet, counted, opening, closing, -, hcounted, -, hopening, -, -, -, -,
      hholds⟩ := known_balances (admitted_of_validate (u := ()) (by decide +kernel)) h hres
        (mem_singleton.mp hknown)
    obtain rfl : wallet = coffeeWallet := mem_singleton.mp hwallet
    exact ⟨counted, opening, hcounted, hopening, hholds⟩

end BalanceFrame.Evidence
