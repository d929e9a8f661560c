/-
Module: TrustRegion.Evaluation
Purpose: The contract between the solver and the callbacks that describe a problem: given a state,
  the residuals and the Jacobian there. Before a callback is asked, the sizes are checked.
Main exports: SparseCallback, DenseCallback, Evaluation, Evaluator, Evaluator.newSparse,
  Evaluator.newDense, Evaluator.evaluate
-/
import TrustRegion.Jacobian.Writer
import TrustRegion.Word

namespace TrustRegion

open Scalar

/-- A callback that reports its Jacobian entry by entry. It is told how often it was asked before,
the state and the number of measurements, and answers with the residuals or an error. -/
abbrev SparseCallback (α : Type) :=
  (calls : Nat) → (state : Vec α) → (measurements : Nat) →
    Writing α (Except (ProblemError α) (Vec α))

/-- A callback that reports its Jacobian in a buffer by rows. It is handed the buffer and leaves it
changed, also when it fails. -/
abbrev DenseCallback (α : Type) :=
  (calls : Nat) → (state : Vec α) → (measurements : Nat) → (buffer : Vec α) →
    Except (ProblemError α) (Vec α) × Vec α

/-- The residuals and the Jacobian at one state. -/
structure Evaluation (α : Type) where
  residuals : Vec α
  jacobian : Jacobian α

/-- The sum of the squares of the residuals. -/
def Evaluation.cost {α : Type} [Scalar α] (e : Evaluation α) : α :=
  e.residuals.normSq

/-- A callback that reports a sparse Jacobian, with the writer it is handed each time. -/
structure SparseEvaluator (α : Type) where
  callback : SparseCallback α
  writer : JacobianWriter α
  calls : Nat

/-- A callback that reports a dense Jacobian, with the buffer it is handed each time. -/
structure DenseEvaluator (α : Type) where
  callback : DenseCallback α
  states : Nat
  measurements : Nat
  buffer : Vec α
  calls : Nat

/-- A callback of either kind, ready to be asked. -/
inductive Evaluator (α : Type) where
  | sparse (evaluator : SparseEvaluator α)
  | dense (evaluator : DenseEvaluator α)

variable {α : Type}

/-- The matrix that a buffer holds by rows. The length of a buffer is a word, and where the number of
places is not, the buffer is shorter than the matrix: what lies beyond it is zero here, while the program
reads past its end and has no answer. -/
def matrixOfBuffer [Scalar α] (measurements states : Nat) (buffer : Vec α) : Matrix α :=
  Matrix.ofFn measurements states fun i j => buffer.entry (i * states + j)

/-- What is wrong with the size of a problem, if anything is. -/
def sizeFault? (states measurements : Nat) : Option InputFault :=
  if states = 0 then some .emptyState
  else if measurements = 0 then some .noMeasurements
  else none

/-- What is wrong with the number of entries declared for a sparse Jacobian, if anything is. -/
def capacityFault? (states measurements capacity : Nat) : Option InputFault :=
  if capacity = 0 then some .noEntries
  else if min (states * measurements) (wordSize - 1) < capacity then
    some (.tooManyEntries capacity measurements states)
  else none

/-- An error in the description of a problem. -/
def refuseInput {β : Type} (fault : InputFault) : Logged α (Except (ProblemError α) β) := do
  let error ← (ProblemError.invalidInput fault).logged
  pure (.error error)

namespace SparseEvaluator

/-- Ask the callback for the residuals and the Jacobian at a state of the right length. The writer
is emptied first, whatever the last call left in it. -/
def ask [Scalar α] (e : SparseEvaluator α) (state : Vec α) :
    Logged α (Except (ProblemError α) (Evaluation α) × SparseEvaluator α) := do
  let measurements := e.writer.measurements
  let (answer, writer) ← (e.callback e.calls state measurements).run e.writer.clear
  match answer with
  | .error error => pure (.error error, { e with writer, calls := e.calls + 1 })
  | .ok residuals =>
      let left := { e with writer := writer.clear, calls := e.calls + 1 }
      let assembled ← SparseJacobian.ofEntries measurements e.writer.states writer.entries.toList
      match assembled with
      | .error error => pure (.error error, left)
      | .ok jacobian =>
          pure (.ok { residuals := residuals.fit measurements, jacobian := .sparse jacobian }, left)

end SparseEvaluator

namespace DenseEvaluator

/-- Ask the callback for the residuals and the Jacobian at a state of the right length. The buffer
is filled with zeros first, whatever the last call left in it. -/
def ask [Scalar α] (e : DenseEvaluator α) (state : Vec α) :
    Except (ProblemError α) (Evaluation α) × DenseEvaluator α :=
  let length := e.buffer.size
  let (answer, buffer) := e.callback e.calls state e.measurements (Vec.zeros length)
  let left := { e with buffer := buffer.fit length, calls := e.calls + 1 }
  match answer with
  | .error error => (.error error, left)
  | .ok residuals =>
      let jacobian := matrixOfBuffer e.measurements e.states left.buffer
      (.ok { residuals := residuals.fit e.measurements, jacobian := .dense jacobian }, left)

end DenseEvaluator

namespace Evaluator

/-- The number of states of the problem. -/
def states : Evaluator α → Nat
  | .sparse e => e.writer.states
  | .dense e => e.states

/-- The number of measurements of the problem. -/
def measurements : Evaluator α → Nat
  | .sparse e => e.writer.measurements
  | .dense e => e.measurements

/-- How often the callback has been asked. -/
def calls : Evaluator α → Nat
  | .sparse e => e.calls
  | .dense e => e.calls

/-- A sparse problem of the given sizes whose Jacobian has at most `capacity` entries. -/
def newSparse (callback : SparseCallback α) (states measurements capacity : Nat) :
    Logged α (Except (ProblemError α) (Evaluator α)) :=
  match (sizeFault? states measurements).or (capacityFault? states measurements capacity) with
  | some fault => refuseInput fault
  | none =>
      let writer := JacobianWriter.new measurements states capacity
      pure (.ok (.sparse { callback, writer, calls := 0 }))

/-- A dense problem of the given sizes. The length of its buffer is their product as a word. -/
def newDense [Scalar α] (callback : DenseCallback α) (states measurements : Nat) :
    Logged α (Except (ProblemError α) (Evaluator α)) :=
  match sizeFault? states measurements with
  | some fault => refuseInput fault
  | none =>
      let buffer := Vec.zeros (states * measurements % wordSize)
      pure (.ok (.dense { callback, states, measurements, buffer, calls := 0 }))

/-- The residuals and the Jacobian at a state. A state of the wrong length is an error, and the
callback is not asked. -/
def evaluate [Scalar α] (e : Evaluator α) (state : Vec α) :
    Logged α (Except (ProblemError α) (Evaluation α) × Evaluator α) :=
  if state.size ≠ e.states then do
    let error ← (ProblemError.dimensionMismatch (.length state.size e.states)).logged
    pure (.error error, e)
  else
    match e with
    | .sparse e => do
        let (answer, e) ← e.ask state
        pure (answer, .sparse e)
    | .dense e =>
        let (answer, e) := e.ask state
        pure (answer, .dense e)

end Evaluator

end TrustRegion
