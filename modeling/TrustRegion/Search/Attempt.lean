/-
Module: TrustRegion.Search.Attempt
Purpose: One round of the search. A step is computed and the problem evaluated where it leads; the
  ratio of the actual to the predicted improvement decides whether the step is taken and how the
  trust region changes.
Main exports: Clock, Search, stepQuality, Settings.converged?, Search.attempt
-/
import TrustRegion.Session

namespace TrustRegion

open Scalar

/-- The times that a search reports. -/
structure Clock where
  /-- How long an attempt took, by its number. -/
  attempt : Nat → Duration
  /-- The time since the search began at the end of an attempt, by its number. -/
  elapsed : Nat → Duration
  /-- The time from the beginning to the end of the search. -/
  total : Duration

/-- A search under way. -/
structure Search (α β : Type) where
  session : Session α β
  evaluator : Evaluator α
  /-- The cost at the state where the search began. -/
  initialCost : α
  evaluations : Nat
  /-- Attempted steps. -/
  iterations : Nat
  accepted : Nat
  rejected : Nat
  /-- The length of the last attempted step. -/
  updateNorm : α
  /-- The attempts, the latest first. -/
  history : List (Attempt α)

section Criteria

variable {α : Type} [Scalar α]

/-- The quality of a step: actual over predicted improvement. A step to a point out of range has the
lowest quality; where nothing is predicted, any improvement is perfect. -/
def stepQuality (actual predicted : α) (finite : Bool) : α :=
  if finite then
    if abs predicted < 1e-15 then (if 0 < actual then 1 else 0) else actual / predicted
  else lowest

namespace Settings

/-- Whether a radius ends the search. -/
def radiusConverged (s : Settings α) (radius : α) : Option StopReason :=
  if 0 < s.radiusTolerance ∧ radius < s.radiusTolerance then some .radiusTooSmall else none

/-- Whether an accepted point ends the search, judged by its gradient, by the largest component of
the step that led to it if there is one, and by the radius. -/
def converged? (s : Settings α) (point : Linearization α) (update : Option α) (radius : α) :
    Option StopReason :=
  if 0 < s.gradientTolerance ∧ point.gradientMaxAbs < s.gradientTolerance then
    some .gradientTolerance
  else
    match update with
    | some size =>
        if 0 < s.updateTolerance ∧ size < s.updateTolerance then some .updateTolerance
        else s.radiusConverged radius
    | none => s.radiusConverged radius

/-- Whether a step of this quality and actual improvement is taken. -/
def accepts (s : Settings α) (quality actual : α) : Bool :=
  decide (s.rejectBelow ≤ quality) && decide (0 < actual)

/-- Whether the trust region grows after an accepted step. -/
def grows (s : Settings α) (quality : α) (reachedEdge : Bool) : Bool :=
  decide (s.growAbove < quality) && reachedEdge

end Settings

end Criteria

namespace Search

variable {α β : Type} [Scalar α]

/-- The report of a search, heard only if it is wanted. -/
def report (wanted : Bool) (settings : Settings α) (part : Report α) : Logged α Unit :=
  Logged.emitIf wanted (.report settings.verbose part)

/-- Take the step to a candidate: it becomes the current point, and the trust region may grow. -/
def accept (step : Step α) (quality : α) (candidate : Linearization α) (s : Search α β) :
    Logged α (Option StopReason × Search α β) := do
  let session := s.session
  let settings := session.settings
  let grows := settings.grows quality session.point.reachedEdge
  let radius := if grows then session.radius * settings.growFactor else session.radius
  Logged.emit (.stepAccepted quality (if grows then some radius else none))
  let workspace := { session.workspace with point := candidate }
  pure
    (settings.converged? candidate (some step.update.maxAbs) radius,
     { s with session := { session with workspace, radius }, accepted := s.accepted + 1 })

/-- Stay at the current point with a smaller trust region. -/
def reject (quality cost : α) (s : Search α β) :
    Logged α (Option StopReason × Search α β) := do
  let session := s.session
  let settings := session.settings
  let radius := session.radius * settings.shrinkFactor
  Logged.emit (.stepRejected quality cost radius)
  pure
    (settings.radiusConverged radius,
     { s with session := { session with radius }, rejected := s.rejected + 1 })

/-- Decide about a step to a candidate, record the attempt and report it. -/
def judge (clock : Clock) (reporting : Bool) (step : Step α) (predicted : α)
    (candidate : Linearization α) (s : Search α β) :
    Logged α (Option StopReason × Search α β) := do
  let settings := s.session.settings
  let point := s.session.point
  let actual := point.cost - candidate.cost
  let quality := stepQuality actual predicted candidate.isFinite
  let accepted := settings.accepts quality actual
  let iteration := s.iterations + 1
  let s := { s with iterations := iteration, updateNorm := step.norm }
  let (reason, s) ←
    if accepted then s.accept step quality candidate else s.reject quality candidate.cost
  let attempt : Attempt α :=
    { iteration
      cost := s.session.point.cost
      candidateCost := candidate.cost
      gradientNorm := point.gradientMaxAbs
      stepNorm := step.norm
      kind := step.kind
      quality
      radius := s.session.radius
      lambda := s.session.lambda
      attemptTime := (clock.attempt iteration).milliseconds
      totalTime := (clock.elapsed iteration).milliseconds
      accepted }
  report reporting settings (.attempt attempt)
  pure (reason, { s with history := attempt :: s.history })

variable [LinearSolver α β]

/-- Evaluate the problem where a step leads. -/
def evaluateAt (step : Step α) (s : Search α β) :
    Logged α (Except (SolveError α) (Linearization α) × Search α β) := do
  let session := s.session
  let state := session.point.state.add step.update
  let (answer, evaluator) ← s.evaluator.evaluate state
  let s := { s with evaluator }
  match answer with
  | .error error => pure (.error (.problem error), s)
  | .ok evaluation => do
      let id := session.nextId
      let s :=
        { s with session := { session with nextId := id + 1 }, evaluations := s.evaluations + 1 }
      match ← Linearization.make session.workspace.backend id state evaluation with
      | .error error => pure (.error (.search (.linear error)), s)
      | .ok candidate => pure (.ok candidate, s)

/-- One round: compute a step, predict what it brings, evaluate the problem there and decide. -/
def attempt (clock : Clock) (reporting : Bool) (s : Search α β) :
    Logged α (Except (SolveError α) (Option StopReason) × Search α β) := do
  let session := s.session
  let (answer, workspace) ←
    session.workspace.computeStep session.settings.damping session.radius
  let s := { s with session := { session with workspace } }
  match answer with
  | .error error => pure (.error (.search (.linear error)), s)
  | .ok step => do
      match ← predictedImprovement workspace.backend workspace.point step.update with
      | .error error => pure (.error (.search (.linear error)), s)
      | .ok predicted => do
          let (answer, s) ← s.evaluateAt step
          match answer with
          | .error error => pure (.error error, s)
          | .ok candidate => do
              let (reason, s) ← s.judge clock reporting step predicted candidate
              pure (.ok reason, s)

end Search

end TrustRegion
