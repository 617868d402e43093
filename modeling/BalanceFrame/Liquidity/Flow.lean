import BalanceFrame.Liquidity.Money

/-!
# The residual network

Model of `Edge`, `connect` and `flow` (`crates/financial-core/src/liquidity_engine.rs`). A graph is
one list of edges for each node; an edge and its reverse name each other by node and position.
`flow` augments along shortest paths found by Bellman–Ford until the target is met or the sink is
out of reach. The source mutates the graph in place; here `flow` returns it.

An index the source would panic on reads the default edge or an unreached label; `FlowCorrect`
shows that graphs built by `connect` are never indexed out of range.
-/

namespace BalanceFrame.Liquidity

open Library

/-- `Edge`: one direction of a connection. -/
structure Edge where
  toNode : Nat
  rev : Nat
  capacity : I64
  cost : I64
  original : I64
  deriving DecidableEq, Inhabited

/-- `Vec<Vec<Edge>>`. -/
abbrev Graph := List (List Edge)

/-- The arguments of one `connect` call. -/
structure Link where
  src : Nat
  dst : Nat
  capacity : I64
  cost : I64
  deriving DecidableEq, Inhabited

/-- The position `connect` returns: where the link's forward edge is pushed. -/
def linkPosition (g : Graph) (l : Link) : Nat := (g.getD l.src []).length

/-- `connect`: push an edge and its reverse. -/
def connect (g : Graph) (l : Link) : Graph :=
  let pos := linkPosition g l
  let rev := (g.getD l.dst []).length
  (g.modify l.src (· ++ [{ toNode := l.dst, rev := rev, capacity := l.capacity, cost := l.cost,
                           original := l.capacity }])).modify l.dst
    (· ++ [{ toNode := l.src, rev := pos, capacity := 0, cost := l.cost.neg, original := 0 }])

/-- Connect the links in order on `n` bare nodes. -/
def connectAll (n : Nat) (links : List Link) : Graph := links.foldl connect (List.replicate n [])

/-- The positions the `connect` calls return, in order. -/
def positionsFrom (g : Graph) : List Link → List Nat
  | [] => []
  | l :: rest => linkPosition g l :: positionsFrom (connect g l) rest

/-- `g[u][i]`. -/
def edgeAt (g : Graph) (u i : Nat) : Edge := (g.getD u []).getD i default

/-- `g[u][i].capacity = c`. -/
def setCapacity (g : Graph) (u i : Nat) (c : I64) : Graph :=
  g.modify u fun edges => edges.modify i fun e => { e with capacity := c }

/-- The state of one shortest-path search. -/
structure Labelling where
  distance : List I64
  previous : List (Option (Nat × Nat))
  changed : Bool

/-- Relax one edge out of `u`. -/
def relaxEdge (u : Nat) (st : Labelling) (e : Edge) (i : Nat) : Checked Labelling :=
  if 0 < (e.capacity : Int) then do
    let d ← add (st.distance.getD u I64.maxValue) e.cost
    if (d : Int) < st.distance.getD e.toNode I64.maxValue then
      pure { distance := st.distance.set e.toNode d
             previous := st.previous.set e.toNode (some (u, i))
             changed := true }
    else pure st
  else pure st

/-- Relax every edge out of `u`, unless `u` is not reached. -/
def relaxNode (st : Labelling) (edges : List Edge) (u : Nat) : Checked Labelling :=
  if st.distance.getD u I64.maxValue = I64.maxValue then pure st
  else edges.zipIdx.foldlM (fun st e => relaxEdge u st e.1 e.2) st

/-- One pass over all nodes. -/
def relaxRound (g : Graph) (st : Labelling) : Checked Labelling :=
  g.zipIdx.foldlM (fun st e => relaxNode st e.1 e.2) { st with changed := false }

/-- At most `k` passes, stopping after one that changed nothing. -/
def relaxRounds (g : Graph) : Nat → Labelling → Checked Labelling
  | 0, st => pure st
  | k + 1, st => do
    let st ← relaxRound g st
    if st.changed then relaxRounds g k st else pure st

/-- The search: distances and previous edges from `source`. -/
def search (g : Graph) (source : Nat) : Checked Labelling :=
  relaxRounds g (g.length - 1)
    { distance := (List.replicate g.length I64.maxValue).set source 0
      previous := List.replicate g.length none
      changed := false }

/-- Walk back from `node` to the source, keeping the smallest capacity met; `hops` steps are
allowed. -/
def bottleneck (g : Graph) (previous : List (Option (Nat × Nat))) (source : Nat) :
    Nat → Nat → I64 → Checked I64
  | 0, node, n =>
    if node = source then pure n
    else do
      let _ ← orStop (previous.getD node none) "allocation_path_invalid"
      throw "allocation_cycle"
  | hops + 1, node, n =>
    if node = source then pure n
    else do
      let p ← orStop (previous.getD node none) "allocation_path_invalid"
      bottleneck g previous source hops p.1 (n.least (edgeAt g p.1 p.2).capacity)

/-- Walk back once more and move `n` along every edge. The first walk reached the source within
`hops` steps, so this one does too. -/
def augment (previous : List (Option (Nat × Nat))) (source : Nat) (n : I64) :
    Nat → Nat → Graph → Checked Graph
  | 0, node, g => if node = source then pure g else throw "allocation_cycle"
  | hops + 1, node, g =>
    if node = source then pure g
    else do
      let p ← orStop (previous.getD node none) "allocation_path_invalid"
      let rev := (edgeAt g p.1 p.2).rev
      let c ← sub (edgeAt g p.1 p.2).capacity n
      let g := setCapacity g p.1 p.2 c
      let c' ← add (edgeAt g node rev).capacity n
      augment previous source n hops p.1 (setCapacity g node rev c')

/-- The outer loop. Every pass moves at least one unit, so `fuel` larger than what is missing is
never used up. -/
def flowLoop (source sink : Nat) (target : I64) : Nat → I64 → Graph → Checked (I64 × Graph)
  | 0, _, _ => throw "allocation_fuel"
  | fuel + 1, total, g =>
    if (total : Int) < target then do
      let st ← search g source
      if (st.previous.getD sink none).isNone then pure (total, g)
      else do
        let missing ← sub target total
        let n ← bottleneck g st.previous source g.length sink missing
        let g ← augment st.previous source n g.length sink g
        let total ← add total n
        flowLoop source sink target fuel total g
    else pure (total, g)

/-- `flow`: successive shortest augmenting paths. -/
def flow (g : Graph) (source sink : Nat) (target : I64) : Checked (I64 × Graph) :=
  flowLoop source sink target ((target : Int).toNat + 1) 0 g

/-- What a forward edge carries after `flow`: `original - capacity`. -/
def carried (g : Graph) (u i : Nat) : Checked I64 :=
  sub (edgeAt g u i).original (edgeAt g u i).capacity

end BalanceFrame.Liquidity
