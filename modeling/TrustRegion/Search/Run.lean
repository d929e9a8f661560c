/-
Module: TrustRegion.Search.Run
Purpose: The whole search: from a first state, attempt steps until a criterion holds or their number
  is used up. The caller's state changes only when the search comes to an end of its own.
Main exports: Solved, Search.loop, solve, solveSparse, solveDense
-/
import TrustRegion.Search.Attempt
import TrustRegion.Linear.CholeskySolver

namespace TrustRegion

/-- What a caller is left with. -/
structure Solved (α β : Type) where
  answer : Except (SolveError α) (Outcome α × Session α β)
  /-- The caller's state: the best one found, or the first one if there is no result. -/
  state : Vec α
  /-- How often the callback was asked. -/
  calls : Nat

namespace Search

variable {α β : Type} [Scalar α]

/-- A search that has evaluated its first point and nothing else. -/
def start (session : Session α β) (evaluator : Evaluator α) : Search α β :=
  { session, evaluator
    initialCost := session.point.cost
    evaluations := 1
    iterations := 0
    accepted := 0
    rejected := 0
    updateNorm := 0
    history := [] }

/-- The result of a search that stopped for a reason. -/
def outcome (clock : Clock) (reason : StopReason) (s : Search α β) : Outcome α :=
  let session := s.session
  { state := session.point.state
    reason
    initialCost := s.initialCost
    finalCost := session.point.cost
    iterations := s.iterations
    accepted := s.accepted
    rejected := s.rejected
    radius := session.radius
    lambda := session.lambda
    elapsed := clock.total
    convergence :=
      { gradientNorm := session.point.gradientMaxAbs
        updateNorm := s.updateNorm
        evaluations := s.evaluations
        factorizations := session.factorizations }
    history := s.history.reverse }

/-- The mean time of an attempt, nothing if no share can be computed. -/
def meanTime? (elapsed : Duration) (iterations : Nat) : Option Duration :=
  if iterations = 0 then some ⟨0⟩ else elapsed.share? iterations

/-- The summary of a result, given the mean time of an attempt. -/
def summary (outcome : Outcome α) (session : Session α β) (attemptTime : Duration) : Summary α :=
  { initialCost := outcome.initialCost
    finalCost := outcome.finalCost
    iterations := outcome.iterations
    accepted := outcome.accepted
    rejected := outcome.rejected
    radius := outcome.radius
    lambda := session.lambda
    gradientNorm := session.point.gradientMaxAbs
    evaluations := outcome.convergence.evaluations
    factorizations := session.factorizations
    totalTime := outcome.elapsed
    attemptTime
    reason := outcome.reason }

/-- End a search that stopped for a reason, and report its summary if that is wanted. -/
def finish (clock : Clock) (reporting : Bool) (reason : StopReason) (s : Search α β) :
    Logged α (Solved α β) :=
  let outcome := s.outcome clock reason
  let solved : Solved α β :=
    { answer := .ok (outcome, s.session), state := outcome.state, calls := s.evaluator.calls }
  if reporting then
    match meanTime? outcome.elapsed outcome.iterations with
    | none => pure { solved with answer := .error (.meanTimeUndefined outcome.iterations) }
    | some attemptTime => do
        report true s.session.settings (.summary (summary outcome s.session attemptTime))
        pure solved
  else pure solved

variable [LinearSolver α β]

/-- Attempt steps until there is a reason to stop; `remaining` more may be attempted. -/
def loop (clock : Clock) (reporting : Bool) :
    (remaining : Nat) → Option StopReason → Search α β →
      Logged α (Except (SolveError α) StopReason × Search α β)
  | _, some reason, s => pure (.ok reason, s)
  | 0, none, s => pure (.ok .iterationLimit, s)
  | remaining + 1, none, s => do
      let (answer, s) ← s.attempt clock reporting
      match answer with
      | .error error => pure (.error error, s)
      | .ok reason => loop clock reporting remaining reason s

end Search

section Solve

variable {α β : Type} [Scalar α] [LinearSolver α β]

/-- The first point of a search, which must be in range. -/
def firstPoint (backend : β) (state : Vec α) (evaluation : Evaluation α) :
    Logged α (Except (SolveError α) (Linearization α)) := do
  match ← Linearization.make backend 0 state evaluation with
  | .error error => pure (.error (.search (.linear error)))
  | .ok point =>
      if point.isFinite then pure (.ok point)
      else do
        let fault := RangeFault.initial point.cost point.gradientMaxAbs
        let error ← (ProblemError.nonFinite fault).logged
        pure (.error (.problem error))

/-- Search from a state. The search reports if its settings ask for it or if a listener hears
debugging events. -/
def solve (settings : Settings α) (clock : Clock) (debugHeard : Bool) (backend : β)
    (evaluator : Evaluator α) (state : Vec α) : Logged α (Solved α β) := do
  let reporting := settings.verbose || debugHeard
  let (answer, evaluator) ← evaluator.evaluate state
  let failed (error : SolveError α) (calls : Nat) : Solved α β :=
    { answer := .error error, state, calls }
  match answer with
  | .error error => pure (failed (.problem error) evaluator.calls)
  | .ok evaluation => do
      match ← firstPoint backend state evaluation with
      | .error error => pure (failed error evaluator.calls)
      | .ok point => do
          let session := Session.start backend settings point
          Search.report reporting settings (.settings settings)
          Search.report reporting settings .header
          let reason := settings.converged? point none session.radius
          Logged.emitIf reason.isSome .alreadyConverged
          let (answer, s) ←
            (Search.start session evaluator).loop clock reporting settings.maxIterations reason
          match answer with
          | .error error => pure (failed error s.evaluator.calls)
          | .ok reason => s.finish clock reporting reason

/-- Refuse settings that cannot be used. -/
def Settings.validate (settings : Settings α) : Logged α (Except (SearchError α) Unit) :=
  match settings.fault? with
  | some fault => do
      let error ← (SearchError.invalidSettings fault).logged
      pure (.error error)
  | none => pure (.ok ())

/-- Solve a problem once its settings and its sizes have been accepted. -/
def solveWith (settings : Settings α) (clock : Clock) (debugHeard : Bool)
    (backend : β) (evaluator : Logged α (Except (ProblemError α) (Evaluator α)))
    (state : Vec α) : Logged α (Solved α β) := do
  match ← settings.validate with
  | .error error => pure { answer := .error (.search error), state, calls := 0 }
  | .ok () =>
      match ← evaluator with
      | .error error => pure { answer := .error (.problem error), state, calls := 0 }
      | .ok evaluator => solve settings clock debugHeard backend evaluator state

/-- Solve a problem with a sparse Jacobian of at most `capacity` entries. -/
def solveSparse (settings : Settings α) (clock : Clock) (debugHeard : Bool)
    (callback : SparseCallback α) (state : Vec α) (measurements capacity : Nat) :
    Logged α (Solved α (CholeskySolver α)) :=
  solveWith settings clock debugHeard (CholeskySolver.new .sparse)
    (Evaluator.newSparse callback state.size measurements capacity) state

/-- Solve a problem with a dense Jacobian. -/
def solveDense (settings : Settings α) (clock : Clock) (debugHeard : Bool)
    (callback : DenseCallback α) (state : Vec α) (measurements : Nat) :
    Logged α (Solved α (CholeskySolver α)) :=
  solveWith settings clock debugHeard (CholeskySolver.new .dense)
    (Evaluator.newDense callback state.size measurements) state

end Solve

end TrustRegion
