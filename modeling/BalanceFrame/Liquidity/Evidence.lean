import BalanceFrame.Liquidity.Facts
import BalanceFrame.Liquidity.Time

/-!
# Evidence and identities

Model of `evidence_expiry`, `observation_window`, `known`, `unique`, `active`, `obligation_due`
(`liquidity_engine.rs`) and `timing_evidence` (`liquidity_routes.rs`), with the `chrono` calls they
make on durations and dates.
-/

namespace BalanceFrame.Liquidity

open Library

/-! ## Durations and dates -/

/-- The last instant `chrono` represents. -/
def maxInstant : Instant := ((CivilDate.mk 262142 12 31).dayNumber + 1) * nanosPerDay - 1

/-- `checked_add_signed` with a nonnegative duration. -/
def checkedAddSigned (t : Instant) (nanos : Int) : Option Instant :=
  if t + nanos ≤ maxInstant then some (t + nanos) else none

/-- `Duration::try_minutes`, in nanoseconds: at most `i64::MAX` milliseconds. -/
def tryMinutes (minutes : Nat) : Option Int :=
  if minutes * 60 ≤ 9223372036854775 then some (minutes * 60 * nanosPerSecond) else none

/-- `char::is_whitespace`, on code points. -/
def isWhitespace (c : Nat) : Bool :=
  (9 ≤ c && c ≤ 13) || c == 32 || c == 133 || c == 160 || c == 5760 || (8192 ≤ c && c ≤ 8202) ||
    c == 8232 || c == 8233 || c == 8239 || c == 8287 || c == 12288

/-- `chars()`, as code points. -/
def codePoints (s : String) : List Nat := s.toList.map Char.toNat

/-- `s.trim().is_empty()`. -/
def isBlank (s : String) : Bool := (codePoints s).all isWhitespace

/-- `scan::number`: one digit at least, `limit` at most. -/
def scanNumber (limit : Nat) (l : List Nat) : Option (Nat × List Nat) :=
  let digits := (l.take limit).takeWhile isAsciiDigit
  if digits.isEmpty then none
  else (number digits).map fun n => (n, l.drop digits.length)

/-- The `%Y` item: blanks, an optional sign that lifts the limit of four digits, digits. -/
def scanYear (l : List Nat) : Option (Int × List Nat) :=
  match l.dropWhile isWhitespace with
  | 45 :: rest => (scanNumber rest.length rest).map fun p => (-(p.1 : Int), p.2)
  | 43 :: rest => (scanNumber rest.length rest).map fun p => ((p.1 : Int), p.2)
  | rest => (scanNumber 4 rest).map fun p => ((p.1 : Int), p.2)

/-- The `%m` and `%d` items. -/
def scanTwoDigits (l : List Nat) : Option (Nat × List Nat) := scanNumber 2 (l.dropWhile isWhitespace)

/-- A literal `-`. -/
def scanDash : List Nat → Option (List Nat)
  | 45 :: rest => some rest
  | _ => none

/-- `NaiveDate::parse_from_str(s, "%Y-%m-%d")`, as a day number. -/
def parseNaiveDate (s : String) : Option Int := do
  let (year, rest) ← scanYear (codePoints s)
  let rest ← scanDash rest
  let (month, rest) ← scanTwoDigits rest
  let rest ← scanDash rest
  let (day, rest) ← scanTwoDigits rest
  let date : CivilDate := ⟨year, month, day⟩
  if rest.isEmpty && -262143 ≤ year && year ≤ 262142 && date.isDate then some date.dayNumber
  else none

/-! ## Evidence -/

def evidenceExpiry (e : FactEvidence) (maxAgeMinutes : Nat) : Checked Instant :=
  match e.expiresAt with
  | some expiry => instant expiry
  | none => do
    reject (e.source != .actualLedger) "missing_evidence_expiry"
    let observed ← orStop e.observedAt "missing_observation_time"
    let start ← instant observed
    let duration ← orStop (tryMinutes maxAgeMinutes) "timestamp_overflow"
    orStop (checkedAddSigned start duration) "timestamp_overflow"

def observationWindow (e : FactEvidence) (now : Instant) (maxAgeMinutes : Nat) : Checked Unit := do
  let observed ← orStop e.observedAt "missing_observation_time"
  let start ← instant observed
  let until_ ← evidenceExpiry e maxAgeMinutes
  reject (decide (now < start) || decide (until_ ≤ now) || decide (until_ ≤ start))
    "stale_factual_evidence"

def known (e : FactEvidence) (now : Instant) (maxAgeMinutes : Nat) : Checked Unit := do
  reject (e.state != .known || e.source == .policyAssumption) "unknown_factual_evidence"
  observationWindow e now maxAgeMinutes

def timingEvidence (route : TransferTimingRoute) (now : Instant) (maxAgeMinutes : Nat) :
    Checked Unit :=
  if route.providerArrivalAt.isNone && route.calendarMode.isSome &&
      route.evidence.source == .policyAssumption then do
    reject (route.evidence.state != .known) "unknown_transfer_policy"
    observationWindow route.evidence now maxAgeMinutes
  else known route.evidence now maxAgeMinutes

variable {e : FactEvidence} {maxAge : Nat} {now : Instant}

theorem known_eq_ok {u : Unit} : known e now maxAge = .ok u ↔
      e.state = .known ∧ e.source ≠ .policyAssumption ∧
        ∃ observed start until_, e.observedAt = some observed ∧ instant observed = .ok start ∧
          evidenceExpiry e maxAge = .ok until_ ∧ start ≤ now ∧ now < until_ := by
  simp only [known, observationWindow, bind_ok, reject_ok, orStop_ok,
    Bool.or_eq_false_iff, bne_eq_false_iff_eq, decide_eq_false_iff_not, not_lt, not_le]
  constructor
  · rintro ⟨-, ⟨h1, h2⟩, observed, ho, start, hs, until_, hu, ⟨h3, h4⟩, -⟩
    exact ⟨h1, by simpa using h2, observed, start, until_, ho, hs, hu, h3, h4⟩
  · rintro ⟨h1, h2, observed, start, until_, ho, hs, hu, h3, h4⟩
    exact ⟨(), ⟨h1, by simpa using h2⟩, observed, ho, start, hs, until_, hu, ⟨h3, h4⟩,
      lt_of_le_of_lt h3 h4⟩

theorem known_at_later {later : Instant} {until_ : Instant}
    (h : known e now maxAge = .ok ()) (hu : evidenceExpiry e maxAge = .ok until_)
    (hle : now ≤ later) (hlt : later < until_) : known e later maxAge = .ok () := by
  obtain ⟨h1, h2, observed, start, u, ho, hs, hu', h3, -⟩ := known_eq_ok.mp h
  exact known_eq_ok.mpr ⟨h1, h2, observed, start, until_, ho, hs, hu, h3.trans hle, hlt⟩

theorem exists_expiry_of_known (h : known e now maxAge = .ok ()) :
    ∃ until_, evidenceExpiry e maxAge = .ok until_ ∧ now < until_ := by
  obtain ⟨-, -, -, -, until_, -, -, hu, -, hlt⟩ := known_eq_ok.mp h
  exact ⟨until_, hu, hlt⟩

/-! ## Identities -/

/-- The loop of `unique`, with what was seen so far. -/
def uniqueFrom (seen : List String) : List String → Checked Unit
  | [] => pure ()
  | id :: rest => do
    reject (isBlank id || seen.contains id) "duplicate_or_empty_identity"
    uniqueFrom (id :: seen) rest

/-- `unique`: no identity is blank or repeated. -/
def unique (ids : List String) : Checked Unit := uniqueFrom [] ids

theorem uniqueFrom_eq_ok {ids : List String} :
    ∀ {seen : List String} {u : Unit}, uniqueFrom seen ids = .ok u ↔
      (∀ id ∈ ids, isBlank id = false) ∧ (∀ id ∈ ids, id ∉ seen) ∧ ids.Nodup := by
  induction ids with
  | nil => simp [uniqueFrom]
  | cons id rest ih =>
    intro seen u
    simp only [uniqueFrom, bind_ok, reject_ok, Bool.or_eq_false_iff, ih, List.mem_cons,
      List.nodup_cons, List.contains_eq_mem, decide_eq_false_iff_not]
    constructor
    · rintro ⟨-, ⟨hb, hs⟩, hrb, hrs, hnd⟩
      refine ⟨?_, ?_, fun hmem => (hrs id hmem) (Or.inl rfl), hnd⟩
      · rintro x (rfl | hx)
        · exact hb
        · exact hrb x hx
      · rintro x (rfl | hx)
        · exact hs
        · exact fun hxs => hrs x hx (Or.inr hxs)
    · rintro ⟨hb, hs, hni, hnd⟩
      refine ⟨(), ⟨hb id (Or.inl rfl), hs id (Or.inl rfl)⟩, fun x hx => hb x (Or.inr hx),
        fun x hx => ?_, hnd⟩
      rintro (rfl | hxs)
      · exact hni hx
      · exact hs x (Or.inr hx) hxs

theorem unique_eq_ok {ids : List String} {u : Unit} :
    unique ids = .ok u ↔ (∀ id ∈ ids, isBlank id = false) ∧ ids.Nodup := by
  simp [unique, uniqueFrom_eq_ok]

/-- `matched_obligation_id`: the source obligation, checked against the scoped identity, or the
effect's own. -/
def LiquidityClaimEffect.matchedObligationId (e : LiquidityClaimEffect) : Checked String :=
  match e.sourceEconomicObligationId with
  | none => pure e.economicObligationId
  | some source => do
    let kind ← match e.kind with
      | .category => pure ":category:"
      | .accountDebit => pure ":account:"
      | .destinationHold => throw "ambiguous_claim_match"
    reject (source == "" || e.economicObligationId != source ++ kind ++ e.resourceId)
      "ambiguous_claim_match"
    pure source

/-- `active`: the claim still holds its effects at `now`. -/
def active (b : LiquidityClaimBundle) (now : Instant) : Checked Bool := do
  let expiry ← instant b.expiresAt
  pure (b.state != .settled &&
    (b.initiated || b.state == .initiated || (b.state == .active && decide (now < expiry))))

/-- `obligation_due`: a bare date is reserved through its whole day. -/
def obligationDue (due : String) (horizonEnd : Instant) : Checked Bool :=
  if (bytes due).length = 10 then do
    let date ← orStop (parseNaiveDate due) "invalid_obligation_date"
    pure (decide (date ≤ dateNaive horizonEnd))
  else do
    let dueAt ← instant due
    pure (decide (dueAt < horizonEnd))

end BalanceFrame.Liquidity
