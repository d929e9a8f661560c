/-
Module: TrustRegion.Linear.Elimination.Plan
Purpose: An order in which the vertices of a graph go, found by bounds on their degrees. Vertices
  that have gone are kept as cliques of those they were next to, and vertices next to the same ones
  form a group and go together. A bound on the degree of a group counts a vertex once for each
  clique that reaches it. Vertices without neighbours and vertices with very many stay out of it.
Main exports: VertexGroup, Clique, QuotientGraph, QuotientGraph.eliminate, Block, EliminationPlan,
  Graph.plan
-/
import TrustRegion.Linear.Elimination

namespace TrustRegion

/-! ### Groups and cliques -/

/-- Vertices that are next to the same ones. -/
structure VertexGroup where
  /-- The vertex that the group is named after. -/
  index : Nat
  /-- The other vertices. -/
  others : List Nat
  /-- A bound on the number of vertices next to the group. -/
  degree : Nat
  /-- The cliques that the group belongs to. -/
  cliques : List Nat
  /-- The groups that it is next to apart from that. Some of them may be gone. -/
  neighbours : List Nat
deriving DecidableEq, Repr, Inhabited

namespace VertexGroup

/-- The vertices of a group. -/
def vertices (u : VertexGroup) : List Nat :=
  u.index :: u.others

/-- The number of vertices. -/
def weight (u : VertexGroup) : Nat :=
  u.vertices.length

/-- What a group is next to, in an order of its own. -/
def links (u : VertexGroup) : List Nat × List Nat :=
  (u.cliques.mergeSort, u.neighbours.mergeSort)

/-- Take in the vertices of another group. -/
def absorb (u v : VertexGroup) : VertexGroup :=
  { u with others := u.others ++ v.vertices }

/-- Become a member of a new clique. It comes first, and what was first comes last. -/
def joinClique (u : VertexGroup) (c : Nat) : VertexGroup :=
  { u with
    cliques := c :: u.cliques.rotateLeft 1
    neighbours := u.neighbours.rotateLeft 1 }

end VertexGroup

/-- The number of vertices of some groups. -/
def totalWeight (groups : List VertexGroup) : Nat :=
  addUp (groups.map VertexGroup.weight)

/-- Groups that have become next to each other. -/
structure Clique where
  /-- The vertex whose elimination made the clique. -/
  index : Nat
  /-- The groups by their indices. Some of them may be gone. -/
  members : List Nat
deriving DecidableEq, Repr, Inhabited

/-- Groups by their indices. -/
abbrev GroupTable := Array (Option VertexGroup)

namespace GroupTable

/-- The group with an index. -/
def find? (table : GroupTable) (i : Nat) : Option VertexGroup :=
  table.getD i none

/-- A table of some groups, whose indices are less than `n`. -/
def ofList (n : Nat) (groups : List VertexGroup) : GroupTable :=
  groups.foldl (fun table u => table.setIfInBounds u.index (some u)) (Array.replicate n none)

/-- The table without a group. -/
def erase (table : GroupTable) (i : Nat) : GroupTable :=
  table.setIfInBounds i none

/-- The number of vertices of the group with an index. -/
def weight (table : GroupTable) (i : Nat) : Nat :=
  match table.find? i with
  | some u => u.weight
  | none => 0

/-- Take the groups with the given indices out of a table, each of them once and in this order. -/
def takeAll (table : GroupTable) (indices : List Nat) : List VertexGroup × GroupTable :=
  let (taken, table) := indices.foldl
    (fun (taken, table) i =>
      match find? table i with
      | some u => (u :: taken, erase table i)
      | none => (taken, table))
    (([], table) : List VertexGroup × GroupTable)
  (taken.reverse, table)

end GroupTable

/-- A group with what it is next to. -/
abbrev LinkedGroup := (List Nat × List Nat) × VertexGroup

/-- Let the first of some groups that is next to the same ones as `u` take `u` in, if there is
one. -/
def absorbTwin? (u : LinkedGroup) : List LinkedGroup → Option (List LinkedGroup)
  | [] => none
  | w :: groups =>
      if w.1 = u.1 then some ((w.1, w.2.absorb u.2) :: groups)
      else (absorbTwin? u groups).map (w :: ·)

/-- Put together groups that are next to the same ones. The last of them takes in the others. -/
def mergeTwins (groups : List VertexGroup) : List VertexGroup :=
  let merged := (groups.map fun u => (u.links, u)).foldr
    (fun u merged => (absorbTwin? u merged).getD (u :: merged)) []
  merged.map Prod.snd

/-- Vertices that go one after the other and leave the same ones next to them. -/
structure Block where
  /-- The vertices in the order in which they go. -/
  vertices : List Nat
  /-- The number of vertices next to the block. -/
  border : Nat
deriving DecidableEq, Repr, Inhabited

/-! ### Elimination of a group -/

/-- The vertices of a graph that are left, in groups, and the cliques that those gone have made. -/
structure QuotientGraph where
  /-- More than each index. -/
  bound : Nat
  /-- The groups, those that have changed last first. -/
  groups : List VertexGroup
  cliques : List Clique
deriving DecidableEq, Repr, Inhabited

/-- The first of the groups with the least bound on their degrees. -/
def leastDegree? : List VertexGroup → Option VertexGroup
  | [] => none
  | u :: groups =>
      match leastDegree? groups with
      | none => some u
      | some least => if least.degree < u.degree then some least else some u

namespace QuotientGraph

/-- The indices of the groups next to a group: the members of its cliques, then its neighbours. One
may come more than once. -/
def reach (q : QuotientGraph) (v : VertexGroup) : List Nat :=
  let members := q.cliques.foldl (fun table c => table.setIfInBounds c.index c.members)
    (Array.replicate q.bound [])
  (v.cliques.flatMap fun c => members.getD c []) ++ v.neighbours

/-- How many vertices of each clique are `outside`, counting none for the cliques of `v`. -/
def beyond (q : QuotientGraph) (v : VertexGroup) (outside : GroupTable) : Array Nat :=
  q.cliques.foldl
    (fun table c =>
      if v.cliques.contains c.index then table
      else table.setIfInBounds c.index (addUp (c.members.map outside.weight)))
    (Array.replicate q.bound 0)

/-- Restrict what a group is next to. Of the cliques those stay that have vertices `beyond` the ones
considered, and of the neighbours those that are `outside`. The bound on the degree does not
grow. -/
def restrict (beyond : Array Nat) (outside : GroupTable) (u : VertexGroup) : VertexGroup :=
  let cliques := u.cliques.filter fun c => beyond.getD c 0 ≠ 0
  let neighbours := u.neighbours.filter fun i => (outside.find? i).isSome
  let reached :=
    addUp (cliques.map fun c => beyond.getD c 0) + addUp (neighbours.map outside.weight)
  { u with cliques, neighbours, degree := min u.degree reached }

/-- Let a group go. The groups next to it form a clique, which takes the place of the cliques that
it covers. Those with nothing else next to them go in the same block, and of the others twins are
put together. -/
def eliminate (q : QuotientGraph) (v : VertexGroup) : Block × QuotientGraph :=
  let (front, outside) :=
    ((GroupTable.ofList q.bound q.groups).erase v.index).takeAll (q.reach v)
  let beyond := q.beyond v outside
  let (gone, staying) := (front.map (restrict beyond outside)).partition fun u =>
    u.cliques.isEmpty && u.neighbours.isEmpty
  let border := totalWeight staying
  let apart := q.groups.filter fun u => (outside.find? u.index).isSome
  let left := totalWeight apart + border
  let changed := (mergeTwins (staying.map (·.joinClique v.index))).map fun u =>
    { u with degree := min (u.degree + border - u.weight) (left - u.weight) }
  let clique : Clique := { index := v.index, members := changed.map VertexGroup.index }
  let block : Block :=
    { vertices := (v.others ++ gone.flatMap VertexGroup.vertices).mergeSort ++ [v.index]
      border }
  (block,
    { q with
      groups := changed.reverse ++ apart
      cliques := clique :: q.cliques.filter fun c => beyond.getD c.index 0 ≠ 0 })

/-- The blocks in which the first `count` groups go, each time the one with the least bound on its
degree. -/
def blocks : (count : Nat) → QuotientGraph → List Block
  | 0, _ => []
  | count + 1, q =>
      match leastDegree? q.groups with
      | none => []
      | some v =>
          let (block, q) := q.eliminate v
          block :: q.blocks count

/-- Each of the given vertices as a group of its own, the last one first. -/
def ofGraph (n : Nat) (g : Graph) : QuotientGraph :=
  { bound := n
    groups := g.reverse.map fun v =>
      { index := v.index
        others := []
        degree := v.degree
        cliques := []
        neighbours := v.neighbours }
    cliques := [] }

end QuotientGraph

/-! ### The order of a graph -/

/-- How the vertices of a graph go. -/
structure EliminationPlan where
  /-- The vertices without neighbours, which go first. -/
  isolated : List Nat
  blocks : List Block
  /-- The vertices with very many neighbours, which go last. -/
  dense : List Nat
deriving DecidableEq, Repr, Inhabited

namespace EliminationPlan

/-- The vertices in the order in which they go. -/
def order (p : EliminationPlan) : List Nat :=
  p.isolated ++ p.blocks.flatMap Block.vertices ++ p.dense

/-- Bounds on the degrees at which the vertices of the blocks and the dense ones go. A vertex of a
block is next to those of the block that go after it, to its border and to the dense ones. -/
def degrees (p : EliminationPlan) : List Nat :=
  (p.blocks.flatMap fun block =>
    (List.range block.vertices.length).map (· + (block.border + p.dense.length))) ++
  List.range p.dense.length

end EliminationPlan

namespace Graph

/-- Whether a vertex has very many neighbours among `n` vertices: more than ten times the square
root of `n`, and more than 16. -/
def isDense (n : Nat) (v : Vertex) : Bool :=
  decide (16 < v.degree) && decide (100 * n < v.degree * v.degree)

/-- The plan for a graph whose vertices have the indices less than their number. -/
def plan (g : Graph) : EliminationPlan :=
  let (isolated, linked) := g.partition fun v => v.neighbours.isEmpty
  let (dense, sparse) := linked.partition (isDense g.length)
  { isolated := isolated.map Vertex.index
    blocks := (QuotientGraph.ofGraph g.length sparse).blocks sparse.length
    dense := dense.map Vertex.index }

end Graph

end TrustRegion
