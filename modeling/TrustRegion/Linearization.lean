/-
Module: TrustRegion.Linearization
Purpose: A state together with everything known about the problem there: residuals, cost, Jacobian,
  gradient, and the ends of the two legs of the dog-leg path once they have been computed.
Main exports: Leg, Linearization, Linearization.make
-/
import TrustRegion.Evaluation
import TrustRegion.Linear.Solver

namespace TrustRegion

open Scalar

/-- The end of a leg of the dog-leg path, with its squared length. -/
structure Leg (α : Type) where
  vector : Vec α
  normSq : α
deriving Repr, Inhabited

/-- A leg that ends at a vector. -/
def Leg.ofVec {α : Type} [Scalar α] (v : Vec α) : Leg α :=
  { vector := v, normSq := v.normSq }

/-- What is known about a problem at one state. The legs belong to the Jacobian of this state and
are computed at most once. -/
structure Linearization (α : Type) where
  /-- A number that no other state of the same search has. -/
  id : Nat
  state : Vec α
  residuals : Vec α
  cost : α
  jacobian : Jacobian α
  /-- The transposed Jacobian times the residuals: half the gradient of the cost. -/
  gradient : Vec α
  /-- The lowest point of the linear model along the negative gradient. -/
  cauchy : Option (Leg α)
  /-- The lowest point of the damped linear model. -/
  gaussNewton : Option (Leg α)
  /-- Whether the last step computed from here ends on the boundary of the trust region. -/
  reachedEdge : Bool

namespace Linearization

variable {α : Type} [Scalar α]

/-- The point of an evaluation. Its gradient is computed at once, its legs are not. -/
def make {β : Type} [LinearSolver α β] (backend : β) (id : Nat) (state : Vec α)
    (evaluation : Evaluation α) : Logged α (Except (LinearError α) (Linearization α)) := do
  match ← LinearSolver.gradient backend evaluation.jacobian evaluation.residuals with
  | .error error => pure (.error error)
  | .ok gradient =>
      pure (.ok
        { id, state
          residuals := evaluation.residuals
          cost := evaluation.cost
          jacobian := evaluation.jacobian
          gradient
          cauchy := none
          gaussNewton := none
          reachedEdge := false })

/-- The largest magnitude of a component of the gradient. -/
def gradientMaxAbs (p : Linearization α) : α :=
  p.gradient.maxAbs

/-- Whether the cost and the gradient are in range. -/
def isFinite (p : Linearization α) : Bool :=
  Scalar.isFinite p.cost && Scalar.isFinite p.gradientMaxAbs

end Linearization

end TrustRegion
