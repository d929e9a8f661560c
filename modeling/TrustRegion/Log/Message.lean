/-
Module: TrustRegion.Log.Message
Purpose: The wording of log events: reports of settings, of attempted steps and of a whole search,
  and single lines for what happens in between.
Main exports: Settings.text, Attempt.headerText, Attempt.text, Summary.text, Event.text
-/
import TrustRegion.Log
import TrustRegion.Error.Message
import TrustRegion.Text.Layout

namespace TrustRegion

open NumberStyle

/-- The settings of a search as a block of lines. -/
def Settings.text (s : Settings Float) : String :=
  let brief := (scientificPlaces 2).write
  let fixed := (places 2).write
  "\n".intercalate
    ["Configuration:",
     "  Solver:        Dog-Leg",
     "",
     "Convergence Criteria:",
     s!"  Max iterations:         {s.maxIterations}",
     s!"  J^T x threshold:        {brief s.gradientTolerance}",
     s!"  Update threshold:       {brief s.updateTolerance}",
     s!"  Trust region threshold: {brief s.radiusTolerance}",
     "",
     "Trust Region:",
     s!"  Initial radius:     {brief s.radius}",
     s!"  Decrease factor:    {fixed s.shrinkFactor} (ρ < {fixed s.rejectBelow})",
     s!"  Increase factor:    {fixed s.growFactor} (ρ > {fixed s.growAbove})",
     "",
     "Regularization:",
     s!"  Initial lambda:     {brief s.damping.initial}",
     s!"  Increase factor:    {fixed s.damping.factor}",
     s!"  Max attempts:       {s.damping.maxAttempts}"]

namespace Attempt

/-- The widths of the columns of the table of attempts. -/
def widths : List Nat :=
  [4, 13, 13, 11, 11, 4, 11, 11, 9, 11, 13, 6]

/-- One row of the table: each cell at the right end of its column, two blanks between columns. -/
def row (cells : List String) : String :=
  "  ".intercalate (List.zipWith Text.padLeft widths cells)

/-- The heading of the table of attempts. -/
def headerText : String :=
  row ["iter", "cost", "candidate", "|gradient|", "|step|", "type", "tr_ratio", "tr_radius",
    "lambda", "iter_time", "total_time", "status"]

/-- The row of one attempt. -/
def text (a : Attempt Float) : String :=
  let brief := (scientificPlaces 2).write
  row [toString a.iteration, (scientificPlaces 6).write a.cost,
    (scientificPlaces 6).write a.candidateCost, brief a.gradientNorm, brief a.stepNorm,
    a.kind.code, brief a.quality, brief a.radius, (scientificPlaces 1).write a.lambda,
    (places 2).write a.attemptTime ++ "ms", (places 2).write a.totalTime ++ "ms",
    if a.accepted then "✓" else "✗"]

end Attempt

namespace Summary

/-- A count as a percentage of a total, which is taken as one if it is zero. -/
def percentage (count total : Nat) : String :=
  (places 1).write (100.0 * Scalar.ofNat count / Scalar.ofNat (max total 1))

/-- The summary of a search as a block of lines. The reduction is given relative to the initial
cost, or to `1e-12` if that is smaller or undefined. -/
def text (s : Summary Float) : String :=
  let long := (scientificPlaces 6).write
  let brief := (scientificPlaces 2).write
  let reduction := s.initialCost - s.finalCost
  let relative := 100.0 * reduction / Scalar.maxLenient s.initialCost 1e-12
  let verdict := if s.reason.isConverged then "CONVERGED" else "NOT CONVERGED"
  "\n".intercalate
    ["Dog-Leg Final Result",
     s!"{verdict} ({s.reason.name})",
     "",
     "Cost:",
     s!"  Initial:   {long s.initialCost}",
     s!"  Final:     {long s.finalCost}",
     s!"  Reduction: {long reduction} ({(places 2).write relative}%)",
     "",
     "Iterations:",
     s!"  Total:              {s.iterations}",
     s!"  Successful steps:   {s.accepted} ({percentage s.accepted s.iterations}%)",
     s!"  Unsuccessful steps: {s.rejected} ({percentage s.rejected s.iterations}%)",
     "",
     "Trust Region:",
     s!"  Final radius: {long s.radius}",
     "",
     "Linear Algebra:",
     s!"  Final lambda:   {brief s.lambda}",
     s!"  Factorizations: {s.factorizations}",
     "",
     "Gradient:",
     s!"  Final norm: {brief s.gradientNorm}",
     "",
     "Performance:",
     s!"  Callback evaluations:   {s.evaluations}",
     s!"  Total time:             {(places 2).write s.totalTime.milliseconds}ms",
     s!"  Average per iteration:  {(places 2).write s.attemptTime.milliseconds}ms",
     ""]

end Summary

/-- How far a search converged, on one line. -/
def Convergence.text (c : Convergence Float) : String :=
  let brief := (scientificPlaces 2).write
  s!"Final gradient norm: {brief c.gradientNorm}, " ++
    s!"Final parameter update norm: {brief c.updateNorm}, " ++
    s!"Callback evaluations: {c.evaluations}, Factorizations: {c.factorizations}"

/-- A part of a report. -/
def Report.text : Report Float → String
  | .settings s => s.text
  | .header => Attempt.headerText
  | .attempt a => a.text
  | .summary s => s.text

/-- An event in words. -/
def Event.text : Event Float → String
  | .failure error none => error.message
  | .failure error (some source) => s!"{error.message} | Source: {Text.quoted source}"
  | .dampingRaised lambda fault next attempt limit =>
      s!"J^T J + λI not positive definite at λ = {scientific.write lambda} ({fault.message}); " ++
        s!"retrying with λ = {scientific.write next} ({attempt}/{limit})"
  | .factorizationFailed storage lambda fault =>
      s!"{storage.solverName} failed at λ = {scientific.write lambda}: {fault.message}"
  | .patternAnalysed nonZeros =>
      s!"Symbolic Cholesky analysis for a Jacobian with {nonZeros} non-zeros"
  | .cauchyBeyondRadius length radius =>
      s!"Cauchy step ({(scientificPlaces 3).write length}) exceeds the trust region " ++
        s!"({(scientificPlaces 3).write radius}); Gauss-Newton not needed"
  | .stepAccepted quality none => s!"Step accepted (ρ = {(places 3).write quality})"
  | .stepAccepted quality (some radius) =>
      s!"Step accepted (ρ = {(places 3).write quality}), trust region grown to " ++
        (scientificPlaces 3).write radius
  | .stepRejected quality cost radius =>
      s!"Step rejected (ρ = {(places 3).write quality}, candidate cost " ++
        s!"{(scientificPlaces 6).write cost}), trust region shrunk to " ++
        (scientificPlaces 3).write radius
  | .alreadyConverged => "Initial point already satisfies the convergence criteria"
  | .sessionReleased storage states measurements =>
      s!"Releasing {storage.solverName} solver context ({states} states, " ++
        s!"{measurements} measurements)"
  | .gradientChecked index measurements =>
      s!"Gradient check of variable {index}: {measurements} measurements"
  | .report _ part => part.text
  | .listenerKept => "A tracing subscriber is already installed; keeping it"

/-- The events that a listener at a level hears, in order. -/
def Logged.heard {α β : Type} (limit : Level) (x : Logged α β) : List (Event α) :=
  x.events.filter fun e => e.level.isHeardAt limit

end TrustRegion
