import BalanceFrame.Governance.Clock
import BalanceFrame.Holds.TransferLifecycle

/-!
# When approvals expire

`completionApprovals` and `approvals` (`packages/workflow-store/src/liquidity.ts`) select the
unexpired approvals of a proposal in SQL, where `expires_at > ?` compares texts; `future` compares
the same two times as instants. A timestamp is written as a wall clock of nineteen bytes and a rest,
its fraction and zone, so texts are in the order of the wall clocks first (`Stamp.text_lt`), and
instants in that of the wall clocks with fraction and zone taken off (`Stamp.instant_eq`).
-/

namespace BalanceFrame.Holds

open Library List Option
open Liquidity (bytes bytes_ofList slice)
open Governance (timestampMillis digitsAt fractionAndZone millisPerDay map_ofNat_lt
  map_ofNat_inj append_lt_append toISOString toISOString_lt toISOString_le year10000 isoBytes
  isoBytes_ascii)
open Workflow (Refusal Guarded)

/-! ## Written timestamps -/

/-- A timestamp as it is written: `yyyy-mm-ddThh:mm:ss`, and the fraction and zone. -/
structure Stamp where
  wall : List Nat
  rest : List Nat
  length : wall.length = 19
  ascii : ∀ b ∈ wall ++ rest, b < 128

/-- The text of a timestamp. -/
def Stamp.text (a : Stamp) : String := String.ofList ((a.wall ++ a.rest).map Char.ofNat)

/-- The milliseconds of a wall clock. -/
def wallMillis (wall : List Nat) : Option Int := do
  let year ← digitsAt wall 0 4
  let month ← digitsAt wall 5 2
  let day ← digitsAt wall 8 2
  let hour ← digitsAt wall 11 2
  let minute ← digitsAt wall 14 2
  let second ← digitsAt wall 17 2
  pure ((CivilDate.mk year month day).dayNumber * millisPerDay + hour * 3600000 + minute * 60000 +
    second * 1000)

/-- The milliseconds of a fraction less those of its zone. -/
def restMillis (rest : List Nat) : Option Int :=
  (fractionAndZone rest).map fun (millis, zone) => (millis : Int) - zone * 60000

theorem bytes_text (a : Stamp) : bytes a.text = a.wall ++ a.rest := bytes_ofList a.ascii

theorem digitsAt_append {wall rest : List Nat} {i w : Nat} (h : i + w ≤ wall.length) :
    digitsAt (wall ++ rest) i w = digitsAt wall i w := by
  have hslice : slice (wall ++ rest) i w = slice wall i w := by
    unfold slice
    rw [drop_append_of_le_length (by omega),
      take_append_of_le_length (by rw [length_drop]; omega)]
  unfold digitsAt
  rw [hslice]

theorem Stamp.instant_eq {a : Stamp} {t : Int} (h : timestampMillis a.text = some t) :
    ∃ w r, wallMillis a.wall = some w ∧ restMillis a.rest = some r ∧ t = w + r := by
  have hlength := a.length
  unfold timestampMillis at h
  dsimp only at h
  rw [bytes_text, digitsAt_append (by omega), digitsAt_append (by omega),
    digitsAt_append (by omega), digitsAt_append (by omega), digitsAt_append (by omega),
    digitsAt_append (by omega), drop_left' hlength] at h
  simp only [bind_eq_bind, bind_eq_some_iff] at h
  obtain ⟨year, hyear, month, hmonth, day, hday, hour, hhour, minute, hminute, second, hsecond,
    ⟨millis, zone⟩, hrest, h⟩ := h
  dsimp only at h
  split at h
  · cases h
    have hwall : wallMillis a.wall = some ((CivilDate.mk year month day).dayNumber * millisPerDay +
        hour * 3600000 + minute * 60000 + second * 1000) := by
      unfold wallMillis
      rw [hyear, hmonth, hday, hhour, hminute, hsecond]
      rfl
    have hfraction : restMillis a.rest = some ((millis : Int) - zone * 60000) := by
      unfold restMillis
      rw [hrest]
      rfl
    exact ⟨_, _, hwall, hfraction, by omega⟩
  · cases h

theorem Stamp.text_lt (a b : Stamp) :
    a.text < b.text ↔ a.wall < b.wall ∨ a.wall = b.wall ∧ a.rest < b.rest := by
  rw [← append_lt_append (a.length.trans b.length.symm), String.lt_iff_toList_lt]
  unfold Stamp.text
  rw [String.toList_ofList, String.toList_ofList]
  refine ⟨fun h => ?_, map_ofNat_lt a.ascii b.ascii⟩
  rcases lt_trichotomy (a.wall ++ a.rest) (b.wall ++ b.rest) with hlt | heq | hgt
  · exact hlt
  · rw [heq] at h
    exact absurd h (lt_irrefl _)
  · exact absurd h (lt_asymm (map_ofNat_lt b.ascii a.ascii hgt))

/-- The two orders agree. With one wall clock, fraction and zone decide both; else the later wall
clock is the later instant. -/
def InStep (a b : Stamp) : Prop :=
  if a.wall = b.wall then
    (a.rest < b.rest ↔ (restMillis a.rest).getD 0 < (restMillis b.rest).getD 0)
  else
    (a.wall < b.wall ↔ (wallMillis a.wall).getD 0 + (restMillis a.rest).getD 0 <
      (wallMillis b.wall).getD 0 + (restMillis b.rest).getD 0)

theorem inStep_iff {a b : Stamp} {t u : Int} (ht : timestampMillis a.text = some t)
    (hu : timestampMillis b.text = some u) : InStep a b ↔ (a.text < b.text ↔ t < u) := by
  obtain ⟨w, r, hw, hr, rfl⟩ := Stamp.instant_eq ht
  obtain ⟨w', r', hw', hr', rfl⟩ := Stamp.instant_eq hu
  unfold InStep
  rw [Stamp.text_lt, hw, hr, hw', hr']
  dsimp only [getD_some]
  by_cases hwall : a.wall = b.wall
  · rw [if_pos hwall]
    obtain rfl : w = w' := by
      rw [hwall] at hw
      exact some.inj (hw.symm.trans hw')
    have hrests : a.wall < b.wall ∨ a.wall = b.wall ∧ a.rest < b.rest ↔ a.rest < b.rest := by
      rw [hwall]
      simp
    rw [hrests]
    exact iff_congr Iff.rfl ⟨fun h => by omega, fun h => by omega⟩
  · rw [if_neg hwall]
    simp only [hwall, false_and, or_false]

/-! ## Counted approvals -/

/-- `Date.parse` of timestamps. -/
def isoHost : Host := ⟨timestampMillis⟩

/-- An active approval of the proposal's payload by a current member other than the requester. -/
structure Candidate (s : Store) (call : Call) (id hash requester : String) (row : ApprovalRow) :
    Prop where
  stored : row ∈ s.approvals
  proposal : row.proposalId = id
  payload : row.payloadHash = hash
  active : row.status = .active
  other : row.actorId ≠ requester
  current : call.checks.current row = true

/-- The actors whose approvals are counted. -/
def countedActors (s : Store) (call : Call) (id hash requester : String) : List String :=
  (s.currentApprovals id hash requester call.now call.checks false).map (·.actorId)

theorem mem_addApproval_foldl {requester actor : String} {checks : Checks} {rows : List ApprovalRow}
    {accepted : List ApprovalRow} :
    actor ∈ (rows.foldl (Store.addApproval requester checks) accepted).map (·.actorId) ↔
      actor ∈ accepted.map (·.actorId) ∨
        ∃ a ∈ rows, a.actorId = actor ∧ a.actorId ≠ requester ∧ checks.current a = true := by
  induction rows generalizing accepted with
  | nil => simp
  | cons row rows ih =>
    rw [foldl_cons, ih]
    unfold Store.addApproval
    split
    · rename_i hskip
      simp only [Bool.or_eq_true, beq_iff_eq, contains_iff_mem, Bool.not_eq_true'] at hskip
      constructor
      · rintro (h | ⟨a, ha, h⟩)
        · exact .inl h
        · exact .inr ⟨a, mem_cons_of_mem _ ha, h⟩
      · rintro (h | ⟨a, ha, hactor, hother, hcurrent⟩)
        · exact .inl h
        · rcases mem_cons.mp ha with rfl | ha
          · obtain (hself | hdone) | hstale := hskip
            · exact absurd hself hother
            · exact .inl (hactor ▸ hdone)
            · rw [hcurrent] at hstale
              cases hstale
          · exact .inr ⟨a, ha, hactor, hother, hcurrent⟩
    · rename_i htake
      simp only [Bool.or_eq_true, beq_iff_eq, Bool.not_eq_true', not_or, Bool.not_eq_false] at htake
      rw [map_append, mem_append, map_singleton, mem_singleton]
      constructor
      · rintro ((h | rfl) | ⟨a, ha, h⟩)
        · exact .inl h
        · exact .inr ⟨row, mem_cons_self, rfl, htake.1.1, htake.2⟩
        · exact .inr ⟨a, mem_cons_of_mem _ ha, h⟩
      · rintro (h | ⟨a, ha, hactor, hother, hcurrent⟩)
        · exact .inl (.inl h)
        · rcases mem_cons.mp ha with rfl | ha
          · exact .inl (.inr hactor.symm)
          · exact .inr ⟨a, ha, hactor, hother, hcurrent⟩

/-- **An actor is counted** by an approval that is later than the present as a text. -/
theorem mem_countedActors {s : Store} {call : Call} {id hash requester actor : String} :
    actor ∈ countedActors s call id hash requester ↔
      ∃ a, Candidate s call id hash requester a ∧ a.actorId = actor ∧ call.now < a.expiresAt := by
  unfold countedActors Store.currentApprovals
  rw [mem_addApproval_foldl]
  simp only [map_nil, not_mem_nil, false_or, mem_sortOn, mem_filter,
    Bool.and_eq_true, Bool.or_eq_true, beq_iff_eq, decide_eq_true_eq, Bool.false_and,
    Bool.false_eq_true, or_false]
  constructor
  · rintro ⟨a, ⟨hstored, ⟨hproposal, hpayload⟩, hactive, hlater⟩, hactor, hother, hcurrent⟩
    exact ⟨a, ⟨hstored, hproposal, hpayload, hactive, hother, hcurrent⟩, hactor, hlater⟩
  · rintro ⟨a, ha, hactor, hlater⟩
    exact ⟨a, ⟨ha.stored, ⟨ha.proposal, ha.payload⟩, ha.active, hlater⟩, hactor, ha.other, ha.current⟩

theorem future_ok {expiresAt now : String} {t u : Int} (ht : timestampMillis now = some t)
    (hu : timestampMillis expiresAt = some u) :
    isoHost.future expiresAt now = .ok () ↔ t < u := by
  unfold Host.future Host.time Host.atMost Host.compares isoHost
  simp [ht, hu, reject_ok]

/-- An approval is counted towards the approvals of its proposal, and towards the initiation or the
write that its expiry lets begin. -/
structure CountedWhileLater (s : Store) (call : Call) (id hash requester : String)
    (row : ApprovalRow) (later : Prop) : Prop where
  approvals : row.actorId ∈ countedActors s call id hash requester ↔ later
  begin : (isoHost.future row.expiresAt call.now = .ok () ∧
    row.actorId ∈ countedActors s call id hash requester) ↔ later

def briefPlan : TransferPlan := { samplePlan "budget" with expiresAt := "2026-01-01T00:00:00.500Z" }

def briefCall (actorId key : String) : Call :=
  { sampleCall actorId key with now := "2026-01-01T00:00:00Z" }

def briefSteps : List Step :=
  [⟨sampleCall "ada" "policy", .savePolicy (samplePolicy "1" .block) none⟩,
    ⟨briefCall "ada" "admit", .admitTransferProposal {
      plan := briefPlan, sessionId := none, expectedClaimSetRevision := "0"
      proposalId := "transfer", outcome := some ⟨true, none⟩ }⟩,
    ⟨briefCall "bob" "approve", .approveTransfer {
      proposalId := "transfer", payloadHash := "budget", expectedVersion := 1
      expectedClaimSetRevision := "1", outcome := some ⟨true, none⟩ } "approval"⟩]

def briefStore : Store := run isoHost {} briefSteps

def newYear : List Nat :=
  [50, 48, 50, 54, 45, 48, 49, 45, 48, 49, 84, 48, 48, 58, 48, 48, 58, 48, 48]

def newYearStamp : Stamp := ⟨newYear, [90], rfl, by decide⟩

def halfSecondStamp : Stamp := ⟨newYear, [46, 53, 48, 48, 90], rfl, by decide⟩

def bobsApproval : ApprovalRow where
  id := "approval"
  proposalId := "transfer"
  payloadHash := "budget"
  actorId := "bob"
  status := .active
  expiresAt := "2026-01-01T00:00:00.500Z"
  createdAt := "2026-01-01T00:00:00Z"

theorem candidate_bob :
    Candidate briefStore (briefCall "ada" "initiate") "transfer" "budget" "ada" bobsApproval where
  stored := by decide +kernel
  proposal := rfl
  payload := rfl
  active := rfl
  other := by decide
  current := rfl

end BalanceFrame.Holds
