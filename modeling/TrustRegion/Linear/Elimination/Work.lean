/-
Module: TrustRegion.Linear.Elimination.Work
Purpose: The work for a factor, counted from the degrees at which the vertices of a graph go. A
  factor that costs much work for each of its entries is worth computing in full blocks.
Main exports: Graph.work, Graph.favoursBlocks
-/
import TrustRegion.Linear.Elimination.Plan

namespace TrustRegion.Graph

/-- The divisions, multiplications and subtractions for a column with so many entries below the
diagonal, counted with one subtraction to a multiplication. -/
def work (degree : Nat) : Nat :=
  degree + degree * (degree + 1) / 2

/-- The work for an entry of a factor from which on blocks are favoured. -/
def blockThreshold : Nat := 40

/-- Whether the work that is planned for the factor exceeds the threshold for each of its entries,
those on the diagonal included. -/
def favoursBlocks (g : Graph) : Bool :=
  let plan := g.plan
  let entries := addUp ((g.degreesAlong plan.order).map (· + 1))
  decide (blockThreshold * entries < addUp (plan.degrees.map work))

end TrustRegion.Graph
