import BalanceFrame.Merchant.Attempts

/-!
# Days and months of an attempt

The windows of an attempt are slices of the text it is reserved at, and `prune` compares texts.
-/

namespace BalanceFrame.Merchant

open Library List
open Governance
open Liquidity (pad length_pad)

/-- The year of a time. -/
def yearOf (t : Int) : Int := (civil (t / millisPerDay)).year

theorem toList_toISOString (t : Int) : (toISOString t).toList = (isoBytes t).map Char.ofNat :=
  String.toList_ofList

theorem length_isoBytes (t : Int) : 24 ≤ (isoBytes t).length := by
  have hyear : 4 ≤ (isoYear (civil (t / millisPerDay)).year).length := by
    unfold isoYear
    split
    · rw [length_pad]
    · rw [length_cons, length_pad]
      decide
  unfold isoBytes
  simp only [length_append, length_cons, length_pad, length_nil]
  omega

variable {s : String} {t : Int}

theorem take_withoutMillis {n : Nat} (hn : n + 5 ≤ s.toList.length) :
    (withoutMillis s).take n = s.toList.take n := by
  unfold withoutMillis
  split
  · rw [take_append_of_le_length, take_take, min_eq_left (by omega)]
    rw [length_take]
    omega
  · rfl

theorem length_of_inLayout {layout s : List Char} (h : inLayout layout s = true) :
    s.length = layout.length := by
  unfold inLayout at h
  rw [Bool.and_eq_true, beq_iff_eq] at h
  exact h.1.symm

theorem layout_of_timestamp (h : timestamp s = some t) :
    20 ≤ s.toList.length ∧ (∃ c rest, s.toList = c :: rest ∧ c.isDigit = true) ∧
      withoutMillis (toISOString t) = withoutMillis s := by
  have hlayouts : ∀ layout : List Char, 20 ≤ layout.length → layout.head? = some '0' →
      inLayout layout s.toList = true →
        20 ≤ s.toList.length ∧ ∃ c rest, s.toList = c :: rest ∧ c.isDigit = true := by
    intro layout hlong hhead hin
    have hlength := length_of_inLayout hin
    refine ⟨hlength ▸ hlong, ?_⟩
    cases layout with
    | nil => cases hhead
    | cons p layout =>
      cases hs : s.toList with
      | nil => rw [hs] at hlength; cases hlength
      | cons c rest =>
        rw [hs] at hin
        unfold inLayout at hin
        simp only [zip_cons_cons, all_cons, Bool.and_eq_true] at hin
        cases hhead
        exact ⟨c, rest, rfl, by simpa using hin.2.1⟩
  unfold timestamp at h
  split at h
  · rename_i hin
    obtain ⟨-, htext⟩ := Option.filter_eq_some_iff.mp h
    refine ⟨?_, ?_, eq_of_beq htext⟩
    all_goals
      rcases (Bool.or_eq_true _ _).mp hin with hin | hin
    · exact (hlayouts _ (by decide) rfl hin).1
    · exact (hlayouts _ (by decide) rfl hin).1
    · exact (hlayouts _ (by decide) rfl hin).2
    · exact (hlayouts _ (by decide) rfl hin).2
  · cases h

theorem windows_of_timestamp (h : timestamp s = some t) {n : Nat} (hn : n ≤ 15) :
    s.toList.take n = ((isoBytes t).take n).map Char.ofNat := by
  obtain ⟨hlong, -, htext⟩ := layout_of_timestamp h
  have hiso := length_isoBytes t
  rw [← take_withoutMillis (by omega), ← htext, take_withoutMillis, toList_toISOString, map_take]
  rw [toList_toISOString, length_map]
  omega

theorem yearOf_timestamp (h : timestamp s = some t) : 0 ≤ yearOf t ∧ yearOf t ≤ 9999 := by
  by_contra hyear
  obtain ⟨-, ⟨c, rest, hs, hdigit⟩, -⟩ := layout_of_timestamp h
  have hfirst := windows_of_timestamp h (n := 1) (by decide)
  unfold isoBytes isoYear at hfirst
  rw [hs] at hfirst
  dsimp only at hfirst
  unfold yearOf at hyear
  rw [if_neg hyear] at hfirst
  simp only [cons_append, take_succ_cons, take_zero, map_cons, map_nil,
    List.cons.injEq, and_true] at hfirst
  rw [hfirst] at hdigit
  split at hdigit <;> exact absurd hdigit (by decide)

theorem take_isoBytes (h : 0 ≤ yearOf t ∧ yearOf t ≤ 9999) :
    (isoBytes t).take 7 = pad 4 (yearOf t).toNat ++ 45 ::
      pad 2 (civil (t / millisPerDay)).month.toNat := by
  unfold isoBytes isoYear yearOf at *
  dsimp only
  rw [if_pos h]
  simp only [append_assoc, cons_append]
  rw [take_append, length_pad, take_of_length_le (by rw [length_pad]; decide),
    take_succ_cons, take_append, length_pad,
    take_of_length_le (by rw [length_pad]), take_zero, append_nil]

theorem monthOf_ne {s' : String} {t' : Int} (h : timestamp s = some t) (h' : timestamp s' = some t')
    (hlater : t + billingMillis ≤ t') : monthOf s ≠ monthOf s' := by
  intro heq
  have hyear := yearOf_timestamp h
  have hyear' := yearOf_timestamp h'
  unfold monthOf at heq
  rw [windows_of_timestamp h (by decide), windows_of_timestamp h' (by decide)] at heq
  have hbytes := map_ofNat_inj (fun b hb => isoBytes_ascii t b (mem_of_mem_take hb))
    (fun b hb => isoBytes_ascii t' b (mem_of_mem_take hb)) (String.ofList_injective heq)
  rw [take_isoBytes hyear, take_isoBytes hyear'] at hbytes
  obtain ⟨hyears, hmonths⟩ := append_inj hbytes (by rw [length_pad, length_pad])
  have hdate := isDate_civil (t / millisPerDay)
  have hdate' := isDate_civil (t' / millisPerDay)
  have hday := dayNumber_civil (t / millisPerDay)
  have hday' := dayNumber_civil (t' / millisPerDay)
  unfold yearOf at *
  unfold billingMillis millisPerDay at *
  generalize civil (t / 86400000) = c at *
  generalize civil (t' / 86400000) = d at *
  have hlong : ∀ y m, daysInMonth y m ≤ 31 := by
    intro y m
    unfold daysInMonth
    split_ifs <;> omega
  have hc := hlong c.year c.month
  have hd := hlong d.year d.month
  simp only [CivilDate.isDate, Bool.and_eq_true, decide_eq_true_eq] at hdate hdate'
  have hy : c.year = d.year := by
    have := (pad_eq (by omega) (by omega)).mp hyears
    omega
  have hm : c.month = d.month := by
    have := (pad_eq (by omega) (by omega)).mp (List.cons.inj hmonths).2
    omega
  rw [Decision.dayNumber_eq] at hday hday'
  unfold Decision.marchDay Decision.marchYear at hday hday'
  rw [hy, hm] at hday
  omega

theorem le_of_textLE {u : Int} (hyear : 0 ≤ yearOf t ∧ yearOf t ≤ 9999) (h : textLE t u = true) :
    t ≤ u := by
  by_contra hlt
  have htext := toISOString_lt_of_year (not_le.mp hlt) hyear
  simp [textLE, htext] at h

/-! ## Attempts -/

/-- The windows of an attempt are those of the text it was reserved at. -/
def Dated (r : AttemptRow) : Prop :=
  ∃ text, timestamp text = some r.createdAt ∧ r.dayWindow = dayOf text ∧
    r.monthWindow = monthOf text

theorem Dated.month_ne {r : AttemptRow} (h : Dated r) {text : String} {now : Int}
    (hnow : timestamp text = some now) (hold : r.createdAt + billingMillis ≤ now) :
    r.monthWindow ≠ monthOf text := by
  obtain ⟨made, hmade, -, hmonth⟩ := h
  rw [hmonth]
  exact monthOf_ne hmade hnow hold

theorem Dated.day_ne {r : AttemptRow} (h : Dated r) {text : String} {now : Int}
    (hnow : timestamp text = some now) (hold : r.createdAt + billingMillis ≤ now) :
    r.dayWindow ≠ dayOf text := by
  obtain ⟨made, hmade, hday, -⟩ := h
  rw [hday]
  intro heq
  refine monthOf_ne hmade hnow hold (congrArg String.ofList ?_)
  have htake := congrArg (List.take 7) (String.ofList_injective heq)
  rwa [take_take, take_take] at htake

end BalanceFrame.Merchant
