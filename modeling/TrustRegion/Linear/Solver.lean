/-
Module: TrustRegion.Linear.Solver
Purpose: What the search asks of linear algebra, for any implementation: products with the
  Jacobian, a factorization of the damped normal matrix under a key, and solutions with it.
Main exports: FactorizationKey, LinearSolver
-/
import TrustRegion.Jacobian

namespace TrustRegion

/-- What a factorization was made for: the point whose Jacobian was taken and the number added to
the diagonal. -/
structure FactorizationKey (α : Type) where
  point : Nat
  lambda : α
deriving BEq, Repr, Inhabited

/-- Linear algebra with a state of type `β`. Questions leave the state alone; a request for a
factorization replaces whatever factorization there was, also when it fails. -/
class LinearSolver (α : outParam Type) (β : Type) where
  /-- Which Jacobians are taken. -/
  storage : β → Storage
  /-- The transposed Jacobian times a vector. -/
  gradient : β → Jacobian α → Vec α → Logged α (Except (LinearError α) (Vec α))
  /-- The Jacobian times a vector. -/
  jacobianMul : β → Jacobian α → Vec α → Logged α (Except (LinearError α) (Vec α))
  /-- Factor the normal matrix of a Jacobian with the key's number on the diagonal. The error
  `notPositiveDefinite` says that a larger number may help. -/
  factorize : β → Jacobian α → FactorizationKey α →
    Logged α (Except (LinearError α) Unit × β)
  /-- Solve the factored system. -/
  solve : β → Vec α → Logged α (Except (LinearError α) (Vec α))
  /-- The inverse of the factored matrix, if there is one, kept for the next question. -/
  covariance : β → Option (Matrix α) × β
  /-- What the current factorization was made for. -/
  factorizedFor : β → Option (FactorizationKey α)
  /-- Forget the factorization. -/
  invalidate : β → β

end TrustRegion
