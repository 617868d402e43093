import BalanceFrame.Archive.Documents
import BalanceFrame.Library.Paths
import Mathlib.Data.List.Induction

/-!
# The graph of receipt versions

Model of `receiptVersionKey` and `validateReceiptVersionGraph`
(`packages/workflow-store/src/receipt-version.ts`). A key is the pair that its JSON text encodes. A
walk takes fuel, and `none` means that it used it up.
-/

namespace BalanceFrame.Archive

open Library List

structure ReceiptVersionSource where
  documentId : String
  contentHash : String
  parserVersion : String
  receiptId : String
  deriving DecidableEq

inductive IdentityBasis
  | matchingExternalId
  | humanAttestedSameReceipt
  deriving DecidableEq

structure ReceiptVersionLink where
  child : ReceiptVersionSource
  predecessor : ReceiptVersionSource
  predecessorVersion : Nat
  version : Nat
  predecessorLineageHash : String
  identityBasis : IdentityBasis
  actorId : String
  membershipId : String
  policyVersion : String
  reviewedAt : String
  deriving DecidableEq

/-- A document and a receipt in it. -/
abbrev VersionKey := String × String

/-- `receiptVersionKey`. -/
def ReceiptVersionSource.key (ref : ReceiptVersionSource) : VersionKey :=
  (ref.documentId, ref.receiptId)

/-- A link as an edge to its predecessor. -/
def ReceiptVersionLink.edge (link : ReceiptVersionLink) : VersionKey × VersionKey :=
  (link.child.key, link.predecessor.key)

/-! ## The validator -/

/-- `parents`, in the order of insertion, and `children`. -/
abbrev Collected := List (VersionKey × VersionKey) × List VersionKey

/-- The first loop. -/
def collectLink (s : Collected) (link : ReceiptVersionLink) : Except String Collected := do
  let child := link.child.key
  let parent := link.predecessor.key
  reject (s.1.any (·.1 == child)) "Duplicate receipt version child"
  reject (s.2.contains parent) "Receipt version fork"
  pure (s.1 ++ [(child, parent)], s.2 ++ [parent])

/-- The inner loop, from a key or from the end of its path. -/
def walk (parents : List (VersionKey × VersionKey)) (done : List VersionKey) :
    Nat → List VersionKey → Option VersionKey → Option (Except String (List VersionKey))
  | 0, _, _ => none
  | fuel + 1, path, at_ =>
    match at_ with
    | none => some (.ok path)
    | some key =>
      if done.contains key then some (.ok path)
      else if path.contains key then some (.error "Receipt version cycle")
      else walk parents done fuel (path ++ [key]) (next? parents key)

/-- The second loop. -/
def walkAll (parents : List (VersionKey × VersionKey)) (fuel : Nat) :
    List VersionKey → List VersionKey → Option (Except String Unit)
  | _, [] => some (.ok ())
  | done, start :: starts =>
    match walk parents done fuel [] (some start) with
    | none => none
    | some (.error e) => some (.error e)
    | some (.ok path) => walkAll parents fuel (done ++ path) starts

def validateReceiptVersionGraph (links : List ReceiptVersionLink) : Option (Except String Unit) :=
  if 1000 < links.length then some (.error "Receipt version history limit exceeded")
  else
    match links.foldlM collectLink ([], []) with
    | .error e => some (.error e)
    | .ok (parents, _) => walkAll parents (links.length + 2) [] (parents.map Prod.fst)

/-! ## Collecting -/

theorem collectLink_ok {s s' : Collected} {link : ReceiptVersionLink} :
    collectLink s link = .ok s' ↔ link.edge.1 ∉ s.1.map Prod.fst ∧ link.edge.2 ∉ s.2 ∧
      s' = (s.1 ++ [link.edge], s.2 ++ [link.edge.2]) := by
  have hany : s.1.any (·.1 == link.child.key) = false ↔ link.edge.1 ∉ s.1.map Prod.fst := by
    rw [any_eq_false, mem_map]
    constructor
    · rintro h ⟨e, he, heq⟩
      exact h e he (beq_iff_eq.mpr heq)
    · intro h e he heq
      exact h ⟨e, he, beq_iff_eq.mp heq⟩
  have hcontains : s.2.contains link.predecessor.key = false ↔ link.edge.2 ∉ s.2 := by
    rw [← Bool.not_eq_true, contains_iff_mem]
    rfl
  unfold collectLink
  dsimp only
  rw [bind_ok]
  constructor
  · rintro ⟨_, hchild, h⟩
    rw [bind_ok] at h
    obtain ⟨_, hparent, h⟩ := h
    rw [reject_ok] at hchild hparent
    exact ⟨hany.mp hchild, hcontains.mp hparent, (Except.ok.inj h).symm⟩
  · rintro ⟨hchild, hparent, rfl⟩
    refine ⟨(), reject_ok.mpr (hany.mpr hchild), ?_⟩
    rw [bind_ok]
    exact ⟨(), reject_ok.mpr (hcontains.mpr hparent), rfl⟩

theorem collect_ok {links : List ReceiptVersionLink} {s' : Collected} :
    links.foldlM collectLink ([], []) = .ok s' ↔
      ((links.map (·.edge)).map Prod.fst).Nodup ∧ ((links.map (·.edge)).map Prod.snd).Nodup ∧
        s' = (links.map (·.edge), (links.map (·.edge)).map Prod.snd) := by
  induction links using List.reverseRecOn generalizing s' with
  | nil =>
    constructor
    · intro h
      exact ⟨nodup_nil, nodup_nil, (Except.ok.inj h).symm⟩
    · rintro ⟨-, -, rfl⟩
      rfl
  | append_singleton links link ih =>
    rw [foldlM_append_ok]
    simp only [foldlM_cons_ok, foldlM_nil, pure_ok, Except.ok.injEq, exists_eq_right]
    constructor
    · rintro ⟨s, hs, hlink⟩
      obtain ⟨hsources, htargets, rfl⟩ := ih.mp hs
      obtain ⟨hchild, hparent, rfl⟩ := collectLink_ok.mp hlink
      refine ⟨?_, ?_, ?_⟩
      · rw [map_append, map_append, nodup_append]
        exact ⟨hsources, nodup_singleton _, fun a ha b hb hab =>
          hchild (mem_singleton.mp hb ▸ hab ▸ ha)⟩
      · rw [map_append, map_append, nodup_append]
        exact ⟨htargets, nodup_singleton _, fun a ha b hb hab =>
          hparent (mem_singleton.mp hb ▸ hab ▸ ha)⟩
      · rw [map_append, map_append]
        rfl
    · rintro ⟨hsources, htargets, rfl⟩
      rw [map_append, map_append, nodup_append] at hsources htargets
      refine ⟨_, ih.mpr ⟨hsources.1, htargets.1, rfl⟩, collectLink_ok.mpr ⟨?_, ?_, ?_⟩⟩
      · exact fun h => hsources.2.2 _ h _ (mem_singleton_self _) rfl
      · exact fun h => htargets.2.2 _ h _ (mem_singleton_self _) rfl
      · rw [map_append, map_append]
        rfl

/-! ## Walking -/

section Walking

variable {parents : List (VersionKey × VersionKey)} {done : List VersionKey}

/-- **A walk comes to an end**: each step takes a child that it had not met. -/
theorem walk_isSome (hdone : (parents.map Prod.fst).Nodup) (fuel : Nat) (path : List VersionKey)
    (at_ : Option VersionKey)
    (hfuel : ((parents.map Prod.fst).filter fun k => decide (k ∉ path)).length + 2 ≤ fuel) :
    (walk parents done fuel path at_).isSome = true := by
  induction fuel generalizing path at_ with
  | zero => omega
  | succ fuel ih =>
    cases at_ with
    | none => rfl
    | some key =>
      unfold walk
      dsimp only
      split
      · rfl
      · split
        · rfl
        · rename_i hmet
          have hnew : key ∉ path := by simpa using hmet
          by_cases hchild : key ∈ parents.map Prod.fst
          · refine ih _ _ ?_
            have hless : ((parents.map Prod.fst).filter fun k => decide (k ∉ path ++ [key])).length <
                ((parents.map Prod.fst).filter fun k => decide (k ∉ path)).length := by
              have hsplit : ((parents.map Prod.fst).filter fun k => decide (k ∉ path ++ [key])) =
                  ((parents.map Prod.fst).filter fun k => decide (k ∉ path)).erase key := by
                rw [(hdone.filter _).erase_eq_filter, filter_filter]
                refine filter_congr fun k _ => ?_
                by_cases hk : k ∈ path <;> by_cases hkey : k = key <;> simp [hk, hkey]
              have hmem : key ∈ (parents.map Prod.fst).filter fun k => decide (k ∉ path) :=
                mem_filter.mpr ⟨hchild, decide_eq_true hnew⟩
              have hpos := length_pos_of_mem hmem
              rw [hsplit, length_erase_of_mem hmem]
              omega
            omega
          · rw [next?_eq_none hchild]
            cases fuel with
            | zero => omega
            | succ fuel => rfl

theorem walk_ok {fuel : Nat} {path path' : List VersionKey} {at_ : Option VersionKey}
    (hdone : ∀ k ∈ done, Ends parents k)
    (h : walk parents done fuel path at_ = some (.ok path')) :
    (∀ k, at_ = some k → Ends parents k) ∧ ∀ k ∈ path', k ∈ path ∨ Ends parents k := by
  induction fuel generalizing path at_ with
  | zero => cases h
  | succ fuel ih =>
    cases at_ with
    | none =>
      cases h
      exact ⟨nofun, fun k hk => .inl hk⟩
    | some key =>
      unfold walk at h
      dsimp only at h
      split at h
      · rename_i hmet
        cases h
        refine ⟨fun k hk => ?_, fun k hk => .inl hk⟩
        cases hk
        exact hdone key (contains_iff_mem.mp hmet)
      · split at h
        · cases h
        · obtain ⟨hnext, hall⟩ := ih h
          have hends : Ends parents key := by
            cases hk : next? parents key with
            | none => exact .stop hk
            | some k => exact .step hk (hnext k hk)
          refine ⟨fun k hk => by cases hk; exact hends, fun k hk => ?_⟩
          rcases hall k hk with hk | hk
          · rcases mem_append.mp hk with hk | hk
            · exact .inl hk
            · rw [mem_singleton.mp hk]
              exact .inr hends
          · exact .inr hk

theorem walk_error {fuel : Nat} {path : List VersionKey} {at_ : Option VersionKey} {e : String}
    (hpath : ∀ k ∈ path, ∃ k', next? parents k = some k' ∧ (k' ∈ path ∨ at_ = some k') ∨
      next? parents k = none ∧ at_ = none)
    (h : walk parents done fuel path at_ = some (.error e)) : ∃ k, ¬ Ends parents k := by
  induction fuel generalizing path at_ with
  | zero => cases h
  | succ fuel ih =>
    cases at_ with
    | none => cases h
    | some key =>
      unfold walk at h
      dsimp only at h
      split at h
      · cases h
      · split at h
        · rename_i hmet
          have hmem : key ∈ path := contains_iff_mem.mp hmet
          refine ⟨key, not_ends_of_closed (P := (· ∈ path)) (fun k hk => ?_) hmem⟩
          obtain ⟨k', ⟨hnext, hin⟩ | ⟨-, hnone⟩⟩ := hpath k hk
          · rcases hin with hin | hin
            · exact ⟨k', hnext, hin⟩
            · cases hin
              exact ⟨key, hnext, hmem⟩
          · cases hnone
        · refine ih (fun k hk => ?_) h
          rcases mem_append.mp hk with hk | hk
          · obtain ⟨k', ⟨hnext, hin⟩ | ⟨-, hnone⟩⟩ := hpath k hk
            · refine ⟨k', .inl ⟨hnext, .inl ?_⟩⟩
              rcases hin with hin | hin
              · exact mem_append_left _ hin
              · cases hin
                exact mem_append_right _ (mem_singleton_self _)
            · cases hnone
          · rw [mem_singleton.mp hk]
            cases hnext : next? parents key with
            | none => exact ⟨key, .inr ⟨rfl, rfl⟩⟩
            | some k' => exact ⟨k', .inl ⟨rfl, .inr rfl⟩⟩

end Walking

theorem walkAll_spec {parents : List (VersionKey × VersionKey)} (fuel : Nat)
    (hnodup : (parents.map Prod.fst).Nodup) (hfuel : parents.length + 2 ≤ fuel)
    (starts done : List VersionKey) (hdone : ∀ k ∈ done, Ends parents k) :
    (walkAll parents fuel done starts = some (.ok ()) ∧ ∀ k ∈ starts, Ends parents k) ∨
      (∃ e, walkAll parents fuel done starts = some (.error e)) ∧ ∃ k, ¬ Ends parents k := by
  induction starts generalizing done with
  | nil => exact .inl ⟨rfl, fun k hk => absurd hk not_mem_nil⟩
  | cons start starts ih =>
    have hsome : (walk parents done fuel [] (some start)).isSome = true := by
      refine walk_isSome hnodup fuel [] (some start) ?_
      simpa using hfuel
    obtain ⟨r, hr⟩ := Option.isSome_iff_exists.mp hsome
    unfold walkAll
    rw [hr]
    cases r with
    | error e =>
      exact .inr ⟨⟨e, rfl⟩, walk_error (fun k hk => absurd hk not_mem_nil) hr⟩
    | ok path =>
      obtain ⟨hstart, hpath⟩ := walk_ok hdone hr
      have hdone' : ∀ k ∈ done ++ path, Ends parents k := by
        intro k hk
        rcases mem_append.mp hk with hk | hk
        · exact hdone k hk
        · exact (hpath k hk).resolve_left not_mem_nil
      rcases ih (done ++ path) hdone' with ⟨hok, hall⟩ | herror
      · exact .inl ⟨hok, forall_mem_cons.mpr ⟨hstart start rfl, hall⟩⟩
      · exact .inr herror

theorem validateReceiptVersionGraph_isSome (links : List ReceiptVersionLink) :
    (validateReceiptVersionGraph links).isSome = true := by
  unfold validateReceiptVersionGraph
  split
  · rfl
  · cases hcollect : links.foldlM collectLink ([], []) with
    | error e => rfl
    | ok s =>
      obtain ⟨hsources, -, rfl⟩ := collect_ok.mp hcollect
      dsimp only
      rcases walkAll_spec (links.length + 2) hsources (by simp)
        ((links.map (·.edge)).map Prod.fst) [] (fun k hk => absurd hk not_mem_nil) with
        ⟨hok, -⟩ | ⟨⟨e, herror⟩, -⟩
      · rw [hok]
        rfl
      · rw [herror]
        rfl

/-- **What the validator accepts**: at most 1000 links that are disjoint simple paths. -/
theorem validateReceiptVersionGraph_ok (links : List ReceiptVersionLink) :
    validateReceiptVersionGraph links = some (.ok ()) ↔
      links.length ≤ 1000 ∧ DisjointPaths (links.map (·.edge)) := by
  rw [disjointPaths_iff]
  unfold validateReceiptVersionGraph
  by_cases hlimit : 1000 < links.length
  · rw [if_pos hlimit]
    exact ⟨nofun, fun h => absurd h.1 (not_le.mpr hlimit)⟩
  · rw [if_neg hlimit]
    have hwithin : links.length ≤ 1000 := not_lt.mp hlimit
    cases hcollect : links.foldlM collectLink ([], []) with
    | error e =>
      refine ⟨nofun, fun h => ?_⟩
      have hok := collect_ok.mpr ⟨h.2.sources, h.2.targets, rfl⟩
      rw [hcollect] at hok
      cases hok
    | ok s =>
      obtain ⟨hsources, htargets, rfl⟩ := collect_ok.mp hcollect
      dsimp only
      rcases walkAll_spec (links.length + 2) hsources (by simp)
        ((links.map (·.edge)).map Prod.fst) [] (fun k hk => absurd hk not_mem_nil) with
        ⟨hok, hall⟩ | ⟨⟨e, herror⟩, k, hk⟩
      · rw [hok]
        refine ⟨fun _ => ⟨hwithin, hsources, htargets, fun k => ?_⟩, fun _ => rfl⟩
        by_cases hchild : k ∈ (links.map (·.edge)).map Prod.fst
        · exact hall k hchild
        · exact .stop (next?_eq_none hchild)
      · rw [herror]
        exact ⟨nofun, fun h => absurd (h.2.ends k) hk⟩

end BalanceFrame.Archive
