/-
Module: TrustRegion.Linear.Damping
Purpose: Factor a normal matrix, adding more and more to its diagonal until that succeeds or the
  attempts are used up. What was added once is never taken back.
Main exports: Damping, factorizeDamped
-/
import TrustRegion.Linear.Solver
import TrustRegion.Word

namespace TrustRegion

/-- The damping reached so far. -/
structure Damping (α : Type) where
  /-- The number added to the diagonal. -/
  lambda : α
  /-- The number of factorizations requested, failed ones included, as a word. -/
  factorizations : Nat
deriving DecidableEq, Repr, Inhabited

/-- No damping, and nothing requested. -/
def Damping.none {α : Type} [Scalar α] : Damping α :=
  { lambda := 0, factorizations := 0 }

variable {α β : Type} [Scalar α] [LinearSolver α β]

/-- Request factorizations for a point, with growing damping, while the matrix is not positive
definite. The damping may grow `remaining` more times; any other error ends the attempts. -/
def raiseUntilFactored (schedule : DampingSchedule α) (j : Jacobian α) (point : Nat) :
    (remaining : Nat) → Damping α → β →
      Logged α (Except (LinearError α) Unit × Damping α × β)
  | remaining, damping, backend => do
      let damping := { damping with factorizations := successorWord damping.factorizations }
      let (answer, backend) ← LinearSolver.factorize backend j ⟨point, damping.lambda⟩
      match answer with
      | .ok () => pure (.ok (), damping, backend)
      | .error (.notPositiveDefinite fault) =>
          match remaining with
          | 0 => do
              let error ← (LinearError.dampingExhausted schedule.maxAttempts damping.lambda).logged
              pure (.error error, damping, backend)
          | remaining + 1 => do
              let next := schedule.next damping.lambda
              let attempt := schedule.maxAttempts - remaining
              Logged.emit
                (.dampingRaised damping.lambda fault next attempt schedule.maxAttempts)
              raiseUntilFactored schedule j point remaining { damping with lambda := next } backend
      | .error error => pure (.error error, damping, backend)

/-- Make sure that the factorization for a point with the current damping is at hand. Nothing is
done if it is there already; otherwise it is requested, with more damping if need be. -/
def factorizeDamped (schedule : DampingSchedule α) (j : Jacobian α) (point : Nat)
    (damping : Damping α) (backend : β) :
    Logged α (Except (LinearError α) Unit × Damping α × β) :=
  let key : FactorizationKey α := ⟨point, damping.lambda⟩
  match LinearSolver.factorizedFor backend with
  | some held =>
      if held == key then pure (.ok (), damping, backend)
      else raiseUntilFactored schedule j point schedule.maxAttempts damping backend
  | none => raiseUntilFactored schedule j point schedule.maxAttempts damping backend

end TrustRegion
