/-
Module: TrustRegion.Linear.ThresholdSolver
Purpose: Linear algebra without matrices, which stands in for a real one where only the requests
  matter: a factorization succeeds once the number on the diagonal is large enough, and products
  and solutions give back the vector they are handed. Every request is recorded.
Main exports: ThresholdSolver, ThresholdSolver.new
-/
import TrustRegion.Linear.Solver

namespace TrustRegion

/-- A solver that factors whenever the number on the diagonal reaches a threshold. -/
structure ThresholdSolver (α : Type) where
  /-- The least number on the diagonal with which a factorization succeeds. -/
  threshold : α
  /-- The request, counted from zero, that fails for good. -/
  fatalAt : Option Nat
  /-- All requests so far, in order. -/
  requests : List (FactorizationKey α)
  key : Option (FactorizationKey α)
deriving Repr, Inhabited

namespace ThresholdSolver

variable {α : Type}

/-- A solver that was not asked for anything yet. -/
def new (threshold : α) (fatalAt : Option Nat) : ThresholdSolver α :=
  { threshold, fatalAt, requests := [], key := none }

/-- Record a request and answer it. -/
def factorize [Scalar α] (s : ThresholdSolver α) (key : FactorizationKey α) :
    Except (LinearError α) Unit × ThresholdSolver α :=
  let asked := { s with requests := s.requests ++ [key], key := none }
  if s.fatalAt = some s.requests.length then
    (.error (.factorizationFailed "mock"), asked)
  else if s.threshold ≤ key.lambda then (.ok (), { asked with key := some key })
  else (.error (.notPositiveDefinite (.described "pivot <= 0")), asked)

instance [Scalar α] : LinearSolver α (ThresholdSolver α) where
  storage _ := .dense
  gradient _ _ x := pure (.ok x)
  jacobianMul _ _ v := pure (.ok v)
  factorize s _ key := pure (s.factorize key)
  solve s rhs := pure (if s.key.isSome then .ok rhs else .error .notFactorized)
  covariance s := (none, s)
  factorizedFor := ThresholdSolver.key
  invalidate s := { s with key := none }

end ThresholdSolver

end TrustRegion
