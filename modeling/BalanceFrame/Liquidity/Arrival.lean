import BalanceFrame.Liquidity.Routes
import BalanceFrame.Library.Accepted

/-!
# Arrival days

`arrival` (`crates/financial-core/src/liquidity_routes.rs`) steps from day to day three times: to
the processing day, through the transit, and to the arrival day. Each loop is described by the local
days it passes, and `arrival_intended` puts them together. A route with a provider's arrival time
steps through no days.

The loops compare a day's formatted text with the holidays' own texts, while the holidays were
checked by reading them as dates. `usedDays` are the days that the loops use;
`honoured_iff_spared` says when none of them is the date of a holiday.
-/

namespace BalanceFrame.Liquidity

open Library Bool Option

variable {route : TransferTimingRoute} {t t' now at_ : Instant} {cutoff maxAge : Nat}

/-! ## Local days -/

/-- The local day of an instant. -/
def localDay (offset : Int) (t : Instant) : Int := (t + offset) / nanosPerDay

/-- `acceptable`, of a day. -/
def RouteCalendar.acceptableDay (c : RouteCalendar) (day : Int) : Prop :=
  (c.weekends || decide (weekdayFromMonday day ≤ 5)) = true ∧
    (c.mode = .businessDays → formatDate day ∉ c.holidays)

instance (c : RouteCalendar) : DecidablePred c.acceptableDay := fun day => by
  unfold RouteCalendar.acceptableDay
  infer_instance

theorem acceptable_iff (c : RouteCalendar) (t : Instant) :
    c.acceptable t = true ↔ c.acceptableDay (localDay c.offset t) := by
  simp only [RouteCalendar.acceptable, RouteCalendar.acceptableDay, localDay, and_eq_true,
    or_eq_true (_ != _), bne_iff_ne, ne_eq, not_eq_true', List.contains_eq_mem,
    decide_eq_false_iff_not, imp_iff_not_or]
  exact Iff.rfl

/-- The first day on which processing may start. -/
def startDay (c : RouteCalendar) (cutoff : Nat) (now : Instant) : Int :=
  localDay c.offset now + if (cutoff : Int) ≤ minuteOfDay now c.offset then 1 else 0

theorem localDay_add (offset : Int) (t : Instant) (k : Int) :
    localDay offset (t + k * nanosPerDay) = localDay offset t + k := by
  unfold localDay
  rw [add_right_comm, Int.add_mul_ediv_right _ _ (by decide)]

theorem localDay_mono (offset : Int) (h : t ≤ t') : localDay offset t ≤ localDay offset t' := by
  unfold localDay
  exact Int.ediv_le_ediv (by decide) (Int.add_le_add_right h offset)

theorem addDay_ok (h : addDay t = .ok t') : t' = t + nanosPerDay := by
  rw [addDay, orStop_ok] at h
  unfold checkedAddSigned at h
  split at h
  · exact (some.inj h).symm
  · cases h

theorem localDay_next (offset : Int) (t : Instant) :
    localDay offset (t + nanosPerDay) = localDay offset t + 1 := by
  have := localDay_add offset t 1
  rwa [one_mul] at this

/-- Some whole days later. -/
def DaysLater (t t' : Instant) : Prop := ∃ k : Nat, t' = t + k * nanosPerDay

theorem DaysLater.refl (t : Instant) : DaysLater t t := ⟨0, by simp⟩

theorem DaysLater.step (h : DaysLater (t + nanosPerDay) t') : DaysLater t t' := by
  obtain ⟨k, rfl⟩ := h
  refine ⟨k + 1, ?_⟩
  push_cast
  ring

theorem DaysLater.trans {t'' : Instant} (h : DaysLater t t') (h' : DaysLater t' t'') :
    DaysLater t t'' := by
  obtain ⟨k, rfl⟩ := h
  obtain ⟨l, rfl⟩ := h'
  refine ⟨k + l, ?_⟩
  push_cast
  ring

theorem DaysLater.le (h : DaysLater t t') : t ≤ t' := by
  obtain ⟨k, rfl⟩ := h
  exact Int.le_add_of_nonneg_right (mul_nonneg (Int.natCast_nonneg k) (by decide))

/-! ## The loops -/

section Loops

variable {c : RouteCalendar}

theorem roll_ok : ∀ {left : Nat} {t t' : Instant}, c.roll left t = .ok t' →
    DaysLater t t' ∧ FirstFrom c.acceptableDay (localDay c.offset t) (localDay c.offset t')
  | left, t, t', h => by
    unfold RouteCalendar.roll at h
    split at h
    · next hacc =>
      cases h
      exact ⟨.refl t, firstFrom_self ((acceptable_iff c t).mp hacc)⟩
    · next hacc =>
      have hnot : ¬c.acceptableDay (localDay c.offset t) := fun h =>
        hacc ((acceptable_iff c t).mpr h)
      obtain ⟨u, hu, h⟩ := bind_ok.mp h
      cases addDay_ok hu
      cases left with
      | zero => cases h
      | succ left =>
        obtain ⟨hlater, hfirst⟩ := roll_ok h
        rw [localDay_next] at hfirst
        exact ⟨hlater.step, hfirst.step hnot⟩

theorem transit_business (hmode : c.mode = .businessDays) :
    ∀ {fuel remaining : Nat} {t t' : Instant}, c.transit fuel remaining t = .ok t' →
      DaysLater t t' ∧ acceptedIn c.acceptableDay (localDay c.offset t) (localDay c.offset t') =
        remaining ∧ (remaining = 0 → t' = t) ∧
          (0 < remaining → c.acceptableDay (localDay c.offset t'))
  | fuel, 0, t, t', h => by
    unfold RouteCalendar.transit at h
    cases h
    exact ⟨.refl t, acceptedIn_self _, fun _ => rfl, fun h => absurd h (lt_irrefl 0)⟩
  | 0, remaining + 1, t, t', h => by
    unfold RouteCalendar.transit at h
    cases h
  | fuel + 1, remaining + 1, t, t', h => by
    unfold RouteCalendar.transit at h
    obtain ⟨u, hu, h⟩ := bind_ok.mp h
    cases addDay_ok hu
    have hcalendar : (c.mode == .calendarDays) = false := by
      rw [hmode]
      decide
    rw [hcalendar, Bool.false_or] at h
    have hnext := localDay_next c.offset t
    split at h
    · next hacc =>
      have hday : c.acceptableDay (localDay c.offset t + 1) :=
        hnext ▸ (acceptable_iff c _).mp hacc
      obtain ⟨hlater, hcount, hzero, hpos⟩ := transit_business hmode h
      have hle := localDay_mono c.offset hlater.le
      rw [hnext] at hcount hle
      refine ⟨hlater.step, ?_, fun h => absurd h (Nat.succ_ne_zero _), fun _ => ?_⟩
      · rw [acceptedIn_next hle, if_pos hday, hcount, add_comm]
      · rcases Nat.eq_zero_or_pos remaining with h0 | h0
        · rw [hzero h0, hnext]
          exact hday
        · exact hpos h0
    · next hacc =>
      have hday : ¬c.acceptableDay (localDay c.offset t + 1) := fun h =>
        hacc ((acceptable_iff c _).mpr (hnext ▸ h))
      obtain ⟨hlater, hcount, -, hpos⟩ := transit_business hmode h
      have hle := localDay_mono c.offset hlater.le
      rw [hnext] at hcount hle
      refine ⟨hlater.step, ?_, fun h => absurd h (Nat.succ_ne_zero _), hpos⟩
      rw [acceptedIn_next hle, if_neg hday, hcount, zero_add]

theorem transit_calendar (hmode : c.mode = .calendarDays) :
    ∀ {fuel remaining : Nat} {t t' : Instant}, c.transit fuel remaining t = .ok t' →
      t' = t + remaining * nanosPerDay
  | fuel, 0, t, t', h => by
    unfold RouteCalendar.transit at h
    cases h
    simp
  | 0, remaining + 1, t, t', h => by
    unfold RouteCalendar.transit at h
    cases h
  | fuel + 1, remaining + 1, t, t', h => by
    unfold RouteCalendar.transit at h
    obtain ⟨u, hu, h⟩ := bind_ok.mp h
    cases addDay_ok hu
    have hcalendar : (c.mode == .calendarDays) = true := by
      rw [hmode]
      decide
    rw [hcalendar, Bool.true_or, if_pos rfl] at h
    rw [transit_calendar hmode h]
    push_cast
    ring

end Loops

/-! ## The intended day -/

/-- A route that steps through days: it has a calendar mode other than instant, and no provider's
arrival time. -/
structure ByCalendar (route : TransferTimingRoute) : Prop where
  provider : route.providerArrivalAt = none
  notInstant : route.calendarMode ≠ some .instant

theorem routeCalendar_ok {c : RouteCalendar} (h : routeCalendar route = .ok (c, cutoff)) :
    route.calendarMode = some c.mode ∧ c.holidays = route.holidays ∧
      ∀ text ∈ route.holidays, (parseNaiveDate text).isSome = true := by
  simp only [routeCalendar, bind_ok, orStop_ok, pure_ok, Except.ok.injEq,
    Prod.mk.injEq] at h
  obtain ⟨mode, hmode, _, -, _, -, _, -, _, -, _, -, _, -, _, hdates, rfl, -⟩ := h
  refine ⟨hmode, rfl, fun text htext => ?_⟩
  obtain ⟨day, hday, -⟩ := bind_ok.mp (forM_eq_ok.mp hdates text htext)
  rw [orStop_ok.mp hday]
  rfl

theorem arrival_steps (hroute : ByCalendar route) (h : arrival route now maxAge = .ok at_) :
    ∃ c cutoff start processing last, routeCalendar route = .ok (c, cutoff) ∧
      afterCutoff c cutoff now = .ok start ∧ c.roll 3660 start = .ok processing ∧
      c.transit (daysLeft processing) route.delayDays processing = .ok last ∧
      c.roll 3660 last = .ok at_ := by
  simp only [arrival, hroute.provider] at h
  obtain ⟨_, h⟩ := rest_ok h
  obtain ⟨⟨c, cutoff⟩, hc, h⟩ := bind_ok.mp h
  dsimp only at h
  have hmode : (c.mode == .instant) = false := by
    rw [beq_eq_false_iff_ne]
    intro hmode
    exact hroute.notInstant (by rw [(routeCalendar_ok hc).1, hmode])
  rw [hmode, if_neg Bool.false_ne_true] at h
  simp only [bind_ok] at h
  obtain ⟨start, hstart, _, -, processing, hprocessing, last, hlast, h⟩ := h
  exact ⟨c, cutoff, start, processing, last, hc, hstart, hprocessing, hlast, h⟩

theorem afterCutoff_ok {c : RouteCalendar} {start : Instant}
    (h : afterCutoff c cutoff now = .ok start) :
    DaysLater now start ∧ localDay c.offset start = startDay c cutoff now := by
  unfold afterCutoff at h
  unfold startDay
  split at h
  · next hcut =>
    cases addDay_ok h
    rw [if_pos hcut, localDay_next]
    exact ⟨(DaysLater.refl _).step, rfl⟩
  · next hcut =>
    cases h
    rw [if_neg hcut, add_zero]
    exact ⟨.refl _, rfl⟩

theorem byCalendar_mode {c : RouteCalendar}
    (hroute : ByCalendar route) (h : routeCalendar route = .ok (c, cutoff)) :
    c.mode = .calendarDays ∨ c.mode = .businessDays := by
  have hmode := (routeCalendar_ok h).1
  cases hc : c.mode with
  | instant => exact absurd (by rw [hmode, hc]) hroute.notInstant
  | calendarDays => exact .inl rfl
  | businessDays => exact .inr rfl

/-- **The intended arrival**: an acceptable local day, not before `now`. From the processing day,
the first acceptable one on which processing may start, it is as many acceptable days later as the
route takes, or the first acceptable day once as many calendar days have passed. -/
structure Intended (c : RouteCalendar) (cutoff delay : Nat) (now at_ : Instant) : Prop where
  acceptable : c.acceptableDay (localDay c.offset at_)
  notBefore : now ≤ at_
  counted : ∃ processing, FirstFrom c.acceptableDay (startDay c cutoff now) processing ∧
    processing ≤ localDay c.offset at_ ∧
    (c.mode = .businessDays →
      acceptedIn c.acceptableDay processing (localDay c.offset at_) = delay) ∧
    (c.mode = .calendarDays →
      FirstFrom c.acceptableDay (processing + delay) (localDay c.offset at_))

theorem intended_of_arrival (hroute : ByCalendar route) (h : arrival route now maxAge = .ok at_) :
    ∃ c cutoff, routeCalendar route = .ok (c, cutoff) ∧
      Intended c cutoff route.delayDays now at_ := by
  obtain ⟨c, cutoff, start, processing, last, hc, hstart, hprocessing, hlast, hat⟩ :=
    arrival_steps hroute h
  obtain ⟨hlater1, hday1⟩ := afterCutoff_ok hstart
  obtain ⟨hlater2, hfirst⟩ := roll_ok hprocessing
  obtain ⟨hlater4, hend⟩ := roll_ok hat
  rw [hday1] at hfirst
  refine ⟨c, cutoff, hc, ?_⟩
  rcases byCalendar_mode hroute hc with hmode | hmode
  · have hlast' := transit_calendar hmode hlast
    have hlater3 : DaysLater processing last := ⟨_, hlast'⟩
    refine ⟨hend.accepted, (hlater1.trans (hlater2.trans (hlater3.trans hlater4))).le, _, hfirst,
      localDay_mono _ (hlater3.trans hlater4).le, fun hbusiness => ?_, fun _ => ?_⟩
    · rw [hmode] at hbusiness
      cases hbusiness
    · rwa [hlast', localDay_add] at hend
  · obtain ⟨hlater3, hcount, hzero, hpos⟩ := transit_business hmode hlast
    have hacc : c.acceptableDay (localDay c.offset last) := by
      rcases Nat.eq_zero_or_pos route.delayDays with h0 | h0
      · rw [hzero h0]
        exact hfirst.accepted
      · exact hpos h0
    -- the transit ends on an acceptable day, so the last roll stays on it
    have hsame := hend.eq_self hacc
    refine ⟨hend.accepted, (hlater1.trans (hlater2.trans (hlater3.trans hlater4))).le, _, hfirst,
      localDay_mono _ (hlater3.trans hlater4).le, fun _ => ?_, fun hcalendar => ?_⟩
    · rw [hsame]
      exact hcount
    · rw [hmode] at hcalendar
      cases hcalendar

theorem startDay_mono (c : RouteCalendar) (cutoff : Nat) {now' : Instant} (h : now ≤ now') :
    startDay c cutoff now ≤ startDay c cutoff now' := by
  have hday := localDay_mono c.offset h
  unfold startDay
  by_cases hsame : localDay c.offset now = localDay c.offset now'
  · have hmin : minuteOfDay now c.offset ≤ minuteOfDay now' c.offset := by
      unfold minuteOfDay
      refine Int.ediv_le_ediv (by decide) ?_
      unfold localDay at hsame
      have h1 := Int.emod_add_mul_ediv (now + c.offset) nanosPerDay
      have h2 := Int.emod_add_mul_ediv (now' + c.offset) nanosPerDay
      have h3 := Int.add_le_add_right h c.offset
      rw [hsame] at h1
      refine le_of_add_le_add_right (a := nanosPerDay * ((now' + c.offset) / nanosPerDay)) ?_
      rw [h1, h2]
      exact h3
    split <;> split <;> omega
  · split <;> split <;> omega

/-- **Arrival is the intended day**, and later requests arrive no earlier. -/
theorem arrival_intended {route : TransferTimingRoute} {now at_ : Instant} {maxAge : Nat}
    (hroute : ByCalendar route) (h : arrival route now maxAge = .ok at_) :
    ∃ c cutoff, routeCalendar route = .ok (c, cutoff) ∧
      Intended c cutoff route.delayDays now at_ ∧
      ∀ now' at', now ≤ now' → arrival route now' maxAge = .ok at' →
        localDay c.offset at_ ≤ localDay c.offset at' := by
  obtain ⟨c, cutoff, hc, hintended⟩ := intended_of_arrival hroute h
  refine ⟨c, cutoff, hc, hintended, fun now' at' hnow h' => ?_⟩
  obtain ⟨c', cutoff', hc', hintended'⟩ := intended_of_arrival hroute h'
  rw [hc] at hc'
  cases hc'
  obtain ⟨p, hp, hle, hbusiness, hcalendar⟩ := hintended.counted
  obtain ⟨p', hp', hle', hbusiness', hcalendar'⟩ := hintended'.counted
  have hpp : p ≤ p' := hp.mono hp' (startDay_mono c cutoff hnow)
  rcases byCalendar_mode hroute hc with hmode | hmode
  · exact (hcalendar hmode).mono (hcalendar' hmode) (by omega)
  · exact le_of_acceptedIn_eq hpp hle' hintended.acceptable
      ((hbusiness hmode).trans (hbusiness' hmode).symm)

def weekdayRoute (providerArrivalAt : Option String) (holidays : List String) :
    TransferTimingRoute where
  id := "route"
  sourceAccountId := "a"
  destinationAccountId := "b"
  providerArrivalAt
  calendarMode := some .businessDays
  delayDays := 1
  utcOffsetMinutes := some 0
  cutoffMinute := some 1020
  weekendsAvailable := some false
  holidaysComplete := true
  holidays
  evidence :=
    { state := .known, source := .institutionProvider, observedAt := some "2026-09-04T15:00:00Z"
      expiresAt := some "2026-09-05T00:00:00Z", reasons := [] }

def fridayAfternoon : Instant :=
  (CivilDate.mk 2026 9 4).dayNumber * nanosPerDay + 16 * 3600 * nanosPerSecond

def mondayAfternoon : Instant :=
  (CivilDate.mk 2026 9 7).dayNumber * nanosPerDay + 16 * 3600 * nanosPerSecond

theorem arrival_on_monday :
    ∃ c cutoff, routeCalendar (weekdayRoute none []) = .ok (c, cutoff) ∧
      Intended c cutoff 1 fridayAfternoon mondayAfternoon ∧
      ∀ now' at', fridayAfternoon ≤ now' → arrival (weekdayRoute none []) now' 120 = .ok at' →
        localDay c.offset mondayAfternoon ≤ localDay c.offset at' :=
  arrival_intended ⟨rfl, by decide⟩ (by decide +kernel)

/-- The provider's arrival time is taken as it is: here a Sunday of a route that rests at
weekends. -/
theorem provider_arrives_on_sunday :
    ¬ ∀ route now at_ maxAge c cutoff, route.calendarMode ≠ some .instant →
      routeCalendar route = .ok (c, cutoff) → arrival route now maxAge = .ok at_ →
      Intended c cutoff route.delayDays now at_ := by
  intro h
  have hsunday := h (weekdayRoute (some "2026-09-06T12:00:00Z") []) fridayAfternoon
    ((CivilDate.mk 2026 9 6).dayNumber * nanosPerDay + 12 * 3600 * nanosPerSecond) 120
    { mode := .businessDays, offset := 0, weekends := false, holidays := [] } 1020 (by decide)
    rfl (by decide +kernel)
  exact absurd hsunday.acceptable (by decide +kernel)

/-! ## Holidays -/

/-- The days that the transit counts. -/
def RouteCalendar.transitDays (c : RouteCalendar) : Nat → Nat → Instant → Checked (List Int)
  | _, 0, _ => pure []
  | 0, _ + 1, _ => throw "timestamp_overflow"
  | fuel + 1, remaining + 1, t => do
    let t ← addDay t
    if c.mode == .calendarDays || c.acceptable t then do
      let days ← c.transitDays fuel remaining t
      pure (localDay c.offset t :: days)
    else c.transitDays fuel (remaining + 1) t

/-- The days that an arrival uses: the processing day, those counted in transit, and the arrival
day. -/
def usedDays (route : TransferTimingRoute) (now : Instant) : Checked (List Int) := do
  let (c, cutoff) ← routeCalendar route
  let start ← afterCutoff c cutoff now
  let processing ← c.roll 3660 start
  let counted ← c.transitDays (daysLeft processing) route.delayDays processing
  let last ← c.transit (daysLeft processing) route.delayDays processing
  let at_ ← c.roll 3660 last
  pure (localDay c.offset processing :: counted ++ [localDay c.offset at_])

theorem transitDays_business {c : RouteCalendar} (hmode : c.mode = .businessDays) :
    ∀ {fuel remaining : Nat} {t t' : Instant}, c.transit fuel remaining t = .ok t' →
      ∃ days, c.transitDays fuel remaining t = .ok days ∧ ∀ d, d ∈ days ↔
        localDay c.offset t < d ∧ d ≤ localDay c.offset t' ∧ c.acceptableDay d
  | fuel, 0, t, t', h => by
    unfold RouteCalendar.transit at h
    cases h
    unfold RouteCalendar.transitDays
    refine ⟨[], rfl, fun d => ?_⟩
    simp only [List.not_mem_nil, false_iff]
    rintro ⟨h1, h2, -⟩
    omega
  | 0, remaining + 1, t, t', h => by
    unfold RouteCalendar.transit at h
    cases h
  | fuel + 1, remaining + 1, t, t', h => by
    unfold RouteCalendar.transit at h
    unfold RouteCalendar.transitDays
    obtain ⟨u, hu, h⟩ := bind_ok.mp h
    rw [hu, ok_bind]
    cases addDay_ok hu
    have hcalendar : (c.mode == .calendarDays) = false := by
      rw [hmode]
      decide
    rw [hcalendar, Bool.false_or] at h ⊢
    have hnext := localDay_next c.offset t
    split at h
    · next hacc =>
      obtain ⟨days, hdays, hmem⟩ := transitDays_business hmode h
      have hday : c.acceptableDay (localDay c.offset t + 1) :=
        hnext ▸ (acceptable_iff c _).mp hacc
      have hle := localDay_mono c.offset (transit_business hmode h).1.le
      rw [if_pos hacc, hdays, hnext]
      rw [hnext] at hmem hle
      refine ⟨_, rfl, fun d => ?_⟩
      rw [List.mem_cons, hmem]
      constructor
      · rintro (rfl | ⟨h1, h2, h3⟩)
        · exact ⟨by omega, hle, hday⟩
        · exact ⟨by omega, h2, h3⟩
      · rintro ⟨h1, h2, h3⟩
        by_cases hd : d = localDay c.offset t + 1
        · exact .inl hd
        · exact .inr ⟨by omega, h2, h3⟩
    · next hacc =>
      obtain ⟨days, hdays, hmem⟩ := transitDays_business hmode h
      have hday : ¬c.acceptableDay (localDay c.offset t + 1) := fun h =>
        hacc ((acceptable_iff c _).mpr (hnext ▸ h))
      rw [if_neg hacc, hdays]
      rw [hnext] at hmem
      refine ⟨_, rfl, fun d => ?_⟩
      rw [hmem]
      constructor
      · rintro ⟨h1, h2, h3⟩
        exact ⟨by omega, h2, h3⟩
      · rintro ⟨h1, h2, h3⟩
        have hd : d ≠ localDay c.offset t + 1 := by
          rintro rfl
          exact hday h3
        exact ⟨by omega, h2, h3⟩

/-- The date of a holiday is used by none of the steps. -/
def Honoured (route : TransferTimingRoute) (now : Instant) : Prop :=
  ∀ days, usedDays route now = .ok days →
    ∀ text ∈ route.holidays, ∀ day, parseNaiveDate text = some day → day ∉ days

/-- The date of a holiday is not acceptable, or stands before the first day of processing, or has
more acceptable days before it than the route takes. -/
def Spared (route : TransferTimingRoute) (now : Instant) : Prop :=
  ∀ c cutoff, routeCalendar route = .ok (c, cutoff) →
    ∀ text ∈ route.holidays, ∀ day, parseNaiveDate text = some day → c.acceptableDay day →
      startDay c cutoff now ≤ day →
        route.delayDays < acceptedFrom c.acceptableDay (startDay c cutoff now) day

theorem usedDays_of_arrival
    (hprovider : route.providerArrivalAt = none) (hmode : route.calendarMode = some .businessDays)
    (h : arrival route now maxAge = .ok at_) :
    ∃ c cutoff processing days, routeCalendar route = .ok (c, cutoff) ∧
      usedDays route now = .ok days ∧
      FirstFrom c.acceptableDay (startDay c cutoff now) processing ∧
      processing ≤ localDay c.offset at_ ∧ c.acceptableDay (localDay c.offset at_) ∧
      acceptedIn c.acceptableDay processing (localDay c.offset at_) = route.delayDays ∧
      ∀ d, d ∈ days ↔ processing ≤ d ∧ d ≤ localDay c.offset at_ ∧ c.acceptableDay d := by
  have hroute : ByCalendar route := ⟨hprovider, by rw [hmode]; decide⟩
  obtain ⟨c, cutoff, start, processing, last, hc, hstart, hprocessing, hlast, hat⟩ :=
    arrival_steps hroute h
  have hbusiness : c.mode = .businessDays := by
    have := (routeCalendar_ok hc).1
    rw [hmode] at this
    exact (some.inj this).symm
  obtain ⟨-, hfirst⟩ := roll_ok hprocessing
  rw [(afterCutoff_ok hstart).2] at hfirst
  obtain ⟨hlater, hcount, hzero, hpos⟩ := transit_business hbusiness hlast
  have hacc : c.acceptableDay (localDay c.offset last) := by
    rcases Nat.eq_zero_or_pos route.delayDays with h0 | h0
    · rw [hzero h0]
      exact hfirst.accepted
    · exact hpos h0
  have hsame := (roll_ok hat).2.eq_self hacc
  have hle := localDay_mono c.offset hlater.le
  obtain ⟨counted, hcounted, hmem⟩ := transitDays_business hbusiness hlast
  refine ⟨c, cutoff, localDay c.offset processing,
    localDay c.offset processing :: counted ++ [localDay c.offset at_], hc, ?_, hfirst, ?_, ?_, ?_,
    fun d => ?_⟩
  · simp only [usedDays, hc, hstart, hprocessing, hcounted, hlast, hat, ok_bind, pure_ok]
  · rwa [hsame]
  · rwa [hsame]
  · rwa [hsame]
  · rw [hsame, List.cons_append, List.mem_cons, List.mem_append, hmem, List.mem_singleton]
    constructor
    · rintro (rfl | ⟨h1, h2, h3⟩ | rfl)
      · exact ⟨le_rfl, hle, hfirst.accepted⟩
      · exact ⟨h1.le, h2, h3⟩
      · exact ⟨hle, le_rfl, hacc⟩
    · rintro ⟨h1, h2, h3⟩
      rcases h1.eq_or_lt with heq | hlt
      · exact .inl heq.symm
      · exact .inr (.inl ⟨hlt, h2, h3⟩)

/-- **When the holidays are honoured**: exactly when each is spared. -/
theorem honoured_iff_spared {route : TransferTimingRoute} {now at_ : Instant} {maxAge : Nat}
    (hprovider : route.providerArrivalAt = none) (hmode : route.calendarMode = some .businessDays)
    (h : arrival route now maxAge = .ok at_) : Honoured route now ↔ Spared route now := by
  obtain ⟨c, cutoff, processing, days, hc, hdays, hfirst, hle, hacc, hcount, hmem⟩ :=
    usedDays_of_arrival hprovider hmode h
  have hpast : ∀ day, route.delayDays < acceptedFrom c.acceptableDay (startDay c cutoff now) day ↔
      localDay c.offset at_ < day := fun day => by
    rw [← hcount]
    exact lt_acceptedFrom_iff hfirst hle hacc
  constructor
  · intro hon c' cutoff' hc' text htext day hday hdayAcc hstart
    rw [hc] at hc'
    cases hc'
    rw [hpast]
    by_contra hlt
    exact hon days hdays text htext day hday
      ((hmem day).mpr ⟨hfirst.2 ⟨hstart, hdayAcc⟩, not_lt.mp hlt, hdayAcc⟩)
  · intro hspared days' hdays' text htext day hday hused
    rw [hdays] at hdays'
    cases hdays'
    obtain ⟨h1, h2, h3⟩ := (hmem day).mp hused
    have := (hpast day).mp (hspared c cutoff hc text htext day hday h3 (hfirst.le.trans h1))
    omega

theorem spared_of_canonical (now : Instant) (hmode : route.calendarMode = some .businessDays)
    (h : ∀ text ∈ route.holidays, ∀ day, parseNaiveDate text = some day → text = formatDate day) :
    Spared route now := by
  intro c cutoff hc text htext day hday hacc
  obtain ⟨hmode', hholidays, -⟩ := routeCalendar_ok hc
  rw [hmode] at hmode'
  refine absurd ?_ (hacc.2 (some.inj hmode').symm)
  rw [hholidays, ← h text htext day hday]
  exact htext

theorem labor_day_honoured :
    Honoured (weekdayRoute none ["2026-09-07"]) fridayAfternoon :=
  (honoured_iff_spared rfl rfl (by decide +kernel :
    arrival (weekdayRoute none ["2026-09-07"]) fridayAfternoon 120 =
      .ok (mondayAfternoon + nanosPerDay))).mpr
    (spared_of_canonical _ rfl fun text htext day hday => by
      cases List.mem_singleton.mp htext
      have hdate : parseNaiveDate "2026-09-07" = some (CivilDate.mk 2026 9 7).dayNumber := by
        decide +kernel
      rw [hdate] at hday
      cases hday
      decide +kernel)

/-- **A holiday spelled without padding is worked through**: the transfer arrives on it. -/
theorem unpadded_holiday_used :
    arrival (weekdayRoute none ["2026-9-7"]) fridayAfternoon 120 = .ok mondayAfternoon ∧
      ¬Honoured (weekdayRoute none ["2026-9-7"]) fridayAfternoon := by
  refine ⟨by decide +kernel, fun h => ?_⟩
  have hused : usedDays (weekdayRoute none ["2026-9-7"]) fridayAfternoon =
      .ok [(CivilDate.mk 2026 9 4).dayNumber, (CivilDate.mk 2026 9 7).dayNumber,
        (CivilDate.mk 2026 9 7).dayNumber] := by
    decide +kernel
  have hdate : parseNaiveDate "2026-9-7" = some (CivilDate.mk 2026 9 7).dayNumber := by
    decide +kernel
  exact h _ hused "2026-9-7" (List.mem_singleton.mpr rfl) _ hdate (by simp)

end BalanceFrame.Liquidity
