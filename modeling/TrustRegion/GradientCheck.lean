/-
Module: TrustRegion.GradientCheck
Purpose: Compare one column of a reported Jacobian with the change of the residuals when the state
  is moved a little along that column.
Main exports: GradientRow, GradientReport, checkGradient, checkGradientSparse, checkGradientDense
-/
import TrustRegion.Evaluation

namespace TrustRegion

open Scalar

/-- The reported and the observed derivative of one measurement. -/
structure GradientRow (α : Type) where
  index : Nat
  measurement : Nat
  reported : α
  observed : α
  /-- Reported less observed. -/
  error : α
  /-- The error relative to the mean magnitude of both derivatives, zero where that is not
  positive. -/
  relativeError : α
deriving Repr, Inhabited

/-- The comparison for every measurement, in order. -/
structure GradientReport (α : Type) where
  rows : List (GradientRow α)
deriving Repr, Inhabited

variable {α : Type} [Scalar α]

/-- How far the checked variable is moved. -/
def checkDistance : α := 1e-6

/-- The row of one measurement. -/
def GradientRow.make (index measurement : Nat) (reported observed : α) : GradientRow α :=
  let error := reported - observed
  let scale := (abs reported + abs observed) / 2.0
  { index, measurement, reported, observed, error
    relativeError := if 0 < scale then abs error / scale else 0 }

/-- The largest relative error; undefined ones are passed over. -/
def GradientReport.maxRelativeError (r : GradientReport α) : α :=
  r.rows.foldl (fun largest row => maxLenient largest row.relativeError) 0

/-- The rows of all measurements, from the residuals at both states and the reported column. -/
def gradientRows (index : Nat) (before after reported : Vec α) : List (GradientRow α) :=
  (List.range (min before.size (min after.size reported.size))).map fun i =>
    GradientRow.make index i (reported.entry i)
      ((after.entry i - before.entry i) / checkDistance)

/-- Check the column of one variable at a state. A variable that does not exist is refused before
the callback is asked. -/
def checkGradient (index : Nat) (state : Vec α) (evaluator : Evaluator α) :
    Logged α (Except (ProblemError α) (GradientReport α) × Evaluator α) :=
  if evaluator.states ≤ index then do
    let answer ← refuseInput (.noSuchVariable index evaluator.states)
    pure (answer, evaluator)
  else do
    let (base, evaluator) ← evaluator.evaluate state
    match base with
    | .error error => pure (.error error, evaluator)
    | .ok base => do
        let reported := base.jacobian.partialDerivatives index
        let moved := state.modify index fun x => x + checkDistance
        let (shifted, evaluator) ← evaluator.evaluate moved
        match shifted with
        | .error error => pure (.error error, evaluator)
        | .ok shifted => do
            let rows := gradientRows index base.residuals shifted.residuals reported
            Logged.emit (.gradientChecked index rows.length)
            pure (.ok { rows }, evaluator)

/-- Check a column of the Jacobian of a problem, once its sizes have been accepted. -/
def checkGradientWith (index : Nat) (state : Vec α)
    (evaluator : Logged α (Except (ProblemError α) (Evaluator α))) :
    Logged α (Except (ProblemError α) (GradientReport α)) := do
  match ← evaluator with
  | .error error => pure (.error error)
  | .ok evaluator => do
      let (answer, _) ← checkGradient index state evaluator
      pure answer

/-- Check a column of a sparse Jacobian. -/
def checkGradientSparse (index : Nat) (callback : SparseCallback α) (state : Vec α)
    (measurements capacity : Nat) : Logged α (Except (ProblemError α) (GradientReport α)) :=
  checkGradientWith index state
    (Evaluator.newSparse callback state.size measurements capacity)

/-- Check a column of a dense Jacobian. -/
def checkGradientDense (index : Nat) (callback : DenseCallback α) (state : Vec α)
    (measurements : Nat) : Logged α (Except (ProblemError α) (GradientReport α)) :=
  checkGradientWith index state (Evaluator.newDense callback state.size measurements)

end TrustRegion
