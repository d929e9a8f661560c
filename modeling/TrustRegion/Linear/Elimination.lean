/-
Module: TrustRegion.Linear.Elimination
Purpose: The elimination of the vertices of a graph one after the other, which gives the fill of a
  factor from the places of a symmetric matrix alone. The neighbours of a vertex that goes become
  neighbours of each other.
Main exports: Graph, Graph.ofPositions, Graph.eliminate, Graph.degreesAlong
-/

namespace TrustRegion

/-- A vertex of a graph with its neighbours. -/
structure Vertex where
  index : Nat
  /-- The neighbours, ascending, without the vertex itself. -/
  neighbours : List Nat
deriving DecidableEq, Repr, Inhabited

namespace Vertex

/-- The number of neighbours. -/
def degree (v : Vertex) : Nat :=
  v.neighbours.length

end Vertex

/-- The sum of some numbers. -/
def addUp (numbers : List Nat) : Nat :=
  numbers.foldr (· + ·) 0

/-- The union of two ascending lists, ascending. -/
def unionAscending : List Nat → List Nat → List Nat
  | [], b => b
  | a, [] => a
  | x :: a, y :: b =>
      if x < y then x :: unionAscending a (y :: b)
      else if y < x then y :: unionAscending (x :: a) b
      else x :: unionAscending a b
termination_by a b => a.length + b.length

/-- A graph, given by its vertices. -/
abbrev Graph := List Vertex

namespace Graph

/-- The graph of a symmetric matrix of `n` rows: two of them are neighbours if there is an entry in
the row of one and the column of the other. The places are sorted by rows and then by columns. -/
def ofPositions (n : Nat) (positions : List (Nat × Nat)) : Graph :=
  let rows := positions.foldl
    (fun rows (p : Nat × Nat) =>
      if p.1 = p.2 then rows else rows.modify p.1 fun row => p.2 :: row)
    (Array.replicate n [])
  rows.toList.zipIdx.map fun (row, index) => { index, neighbours := row.reverse }

/-- Take a vertex out of a graph and join its neighbours with each other. -/
def eliminate (v : Vertex) (g : Graph) : Graph :=
  (g.filter fun u => u.index ≠ v.index).map fun u =>
    if v.neighbours.contains u.index then
      { u with
        neighbours := (unionAscending u.neighbours v.neighbours).filter fun k =>
          k ≠ u.index ∧ k ≠ v.index }
    else u

/-- The degrees at which the vertices go in the given order. They are the numbers of entries below the
diagonal in the columns of a factor. -/
def degreesAlong : (order : List Nat) → Graph → List Nat
  | [], _ => []
  | i :: order, g =>
      match g.find? fun v => v.index = i with
      | none => degreesAlong order g
      | some v => v.degree :: degreesAlong order (eliminate v g)

end Graph

end TrustRegion
