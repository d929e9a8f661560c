/-
Module: TrustRegion.Progress
Purpose: The record of a search: each attempted step, how and why the search ended, and the
  statistics of the whole.
Main exports: StepKind, StopReason, Duration, Attempt, Convergence, Outcome, Summary
-/
import TrustRegion.Settings
import TrustRegion.Vec

namespace TrustRegion

/-- Which part of the dog-leg path a step ends on. -/
inductive StepKind where
  /-- The end of the path. -/
  | gaussNewton
  /-- The first leg, cut off at the boundary of the trust region. -/
  | steepestDescent
  /-- The second leg, where it leaves the trust region. -/
  | dogLeg
deriving DecidableEq, Repr, Inhabited

/-- The two letters that stand for a kind of step. -/
def StepKind.code : StepKind → String
  | .gaussNewton => "GN"
  | .steepestDescent => "SD"
  | .dogLeg => "DL"

/-- Why a search stopped. -/
inductive StopReason where
  | gradientTolerance
  | updateTolerance
  | radiusTooSmall
  | iterationLimit
deriving DecidableEq, Repr, Inhabited

namespace StopReason

/-- The name of a reason in a summary. -/
def name : StopReason → String
  | .gradientTolerance => "GradientToleranceReached"
  | .updateTolerance => "ParameterToleranceReached"
  | .radiusTooSmall => "TrustRegionRadiusTooSmall"
  | .iterationLimit => "MaxIterationsReached"

/-- A reason in words. -/
def message : StopReason → String
  | .gradientTolerance => "Gradient tolerance reached"
  | .updateTolerance => "Parameter tolerance reached"
  | .radiusTooSmall => "Trust region radius too small"
  | .iterationLimit => "Maximum iterations reached"

/-- Every reason but the limit on the number of steps is a convergence criterion. -/
def isConverged : StopReason → Bool
  | .iterationLimit => false
  | _ => true

end StopReason

/-- A span of time in whole nanoseconds. -/
structure Duration where
  nanoseconds : Nat
deriving DecidableEq, Repr, Inhabited

namespace Duration

/-- A span of whole microseconds. -/
def ofMicroseconds (n : Nat) : Duration :=
  ⟨1000 * n⟩

/-- A span in milliseconds. -/
def milliseconds {α : Type} [Scalar α] (d : Duration) : α :=
  let whole : α := Scalar.ofNat (d.nanoseconds / 1000000000)
  let part : α := Scalar.ofNat (d.nanoseconds % 1000000000)
  (whole + part / 1e9) * 1000.0

/-- A span divided among a number of attempts. The number is taken in 32 bits; there is no share if
it is zero there. -/
def share? (d : Duration) (attempts : Nat) : Option Duration :=
  let divisor := attempts % Nat.pow 2 32
  if divisor = 0 then none else some ⟨d.nanoseconds / divisor⟩

end Duration

/-- What is recorded of one attempted step. -/
structure Attempt (α : Type) where
  /-- Counted from one. -/
  iteration : Nat
  /-- The cost of the best point after the attempt. -/
  cost : α
  /-- The cost of the point the step led to. -/
  candidateCost : α
  /-- The largest component of the gradient where the step began. -/
  gradientNorm : α
  stepNorm : α
  kind : StepKind
  /-- Actual over predicted improvement. -/
  quality : α
  /-- The radius after the attempt. -/
  radius : α
  /-- The damping after the attempt. -/
  lambda : α
  /-- Milliseconds this attempt took. -/
  attemptTime : α
  /-- Milliseconds since the search began. -/
  totalTime : α
  accepted : Bool
deriving Repr, Inhabited

/-- How far a search converged and what it took. -/
structure Convergence (α : Type) where
  gradientNorm : α
  /-- The length of the last attempted step. -/
  updateNorm : α
  evaluations : Nat
  factorizations : Nat
deriving Repr, Inhabited

/-- The result of a search. -/
structure Outcome (α : Type) where
  /-- The best state that was accepted. -/
  state : Vec α
  reason : StopReason
  initialCost : α
  finalCost : α
  /-- Attempted steps. -/
  iterations : Nat
  accepted : Nat
  rejected : Nat
  radius : α
  lambda : α
  elapsed : Duration
  convergence : Convergence α
  /-- The attempts in order. -/
  history : List (Attempt α)
deriving Repr, Inhabited

/-- What is reported at the end of a search. -/
structure Summary (α : Type) where
  initialCost : α
  finalCost : α
  iterations : Nat
  accepted : Nat
  rejected : Nat
  radius : α
  lambda : α
  gradientNorm : α
  evaluations : Nat
  factorizations : Nat
  totalTime : Duration
  /-- The mean time of an attempt. -/
  attemptTime : Duration
  reason : StopReason
deriving Repr, Inhabited

end TrustRegion
