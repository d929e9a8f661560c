/-
Module: TrustRegion.Jacobian
Purpose: Jacobians as a callback reports them: a list of entries, in which a place may occur more
  than once and its values add up, or a full matrix.
Main exports: JacobianEntry, SparseJacobian, SparseJacobian.ofEntries, Jacobian,
  Jacobian.partialDerivatives, Jacobian.toDense
-/
import TrustRegion.Linear.StoredMatrix
import TrustRegion.Log

namespace TrustRegion

/-- One reported partial derivative. Several entries at one place add up. -/
structure JacobianEntry (α : Type) where
  row : Nat
  col : Nat
  value : α
deriving DecidableEq, Repr, Inhabited

namespace JacobianEntry

variable {α : Type}

/-- Whether an entry lies in a grid. -/
def inBounds (e : JacobianEntry α) (rows cols : Nat) : Bool :=
  decide (e.row < rows) && decide (e.col < cols)

end JacobianEntry

/-- A Jacobian given by its entries, together with the matrix they add up to. -/
structure SparseJacobian (α : Type) where
  measurements : Nat
  states : Nat
  /-- The entries in the order in which they were reported. -/
  entries : List (JacobianEntry α)
  /-- The assembled matrix: what was reported at a place, added in that order. -/
  matrix : StoredMatrix α

namespace SparseJacobian

variable {α : Type} [Scalar α]

/-- Add entries one after another to a matrix in which nothing may be stored yet. -/
def assemble (measurements states : Nat) (entries : List (JacobianEntry α)) : StoredMatrix α :=
  entries.foldl (fun m e => m.modify e.row e.col fun old => old.plus (some e.value))
    (StoredMatrix.empty measurements states)

/-- The Jacobian with the given entries. The first entry that lies outside is an error. -/
def ofEntries (measurements states : Nat) (entries : List (JacobianEntry α)) :
    Logged α (Except (ProblemError α) (SparseJacobian α)) :=
  match entries.find? fun e => !e.inBounds measurements states with
  | some e => do
      let error ← (ProblemError.outOfBounds e.row e.col measurements states).logged
      pure (.error error)
  | none =>
      pure (.ok { measurements, states, entries, matrix := assemble measurements states entries })

/-- The places that occur among the entries, sorted, each one once. -/
def pattern (j : SparseJacobian α) : List (Nat × Nat) :=
  StoredMatrix.positions j.matrix

/-- The number of places that occur among the entries. -/
def nonZeros (j : SparseJacobian α) : Nat :=
  j.pattern.length

end SparseJacobian

/-- A Jacobian in either kind of storage. -/
inductive Jacobian (α : Type) where
  | sparse (jacobian : SparseJacobian α)
  | dense (matrix : Matrix α)

namespace Jacobian

variable {α : Type}

/-- How the Jacobian is stored. -/
def storage : Jacobian α → Storage
  | .sparse _ => .sparse
  | .dense _ => .dense

/-- The number of rows. -/
def measurements : Jacobian α → Nat
  | .sparse j => j.measurements
  | .dense m => m.rows

/-- The number of columns. -/
def states : Jacobian α → Nat
  | .sparse j => j.states
  | .dense m => m.cols

/-- The matrix of a Jacobian, with an entry wherever its storage holds one. -/
def stored : Jacobian α → StoredMatrix α
  | .sparse j => j.matrix
  | .dense m => StoredMatrix.ofFull m

variable [Scalar α]

/-- The partial derivatives of all measurements by one state, zero if there is no such state. -/
def partialDerivatives (j : Jacobian α) (state : Nat) : Vec α :=
  if j.states ≤ state then Vec.zeros j.measurements
  else
    match j with
    | .sparse j =>
        (j.entries.filter fun e => e.col = state).foldl
          (fun column e => column.modify e.row fun old => old + e.value)
          (Vec.zeros j.measurements)
    | .dense m => Vec.ofFn m.rows fun i => m.entry i state

/-- The Jacobian as a full matrix. -/
def toDense : Jacobian α → Matrix α
  | .sparse j =>
      j.entries.foldl (fun m e => m.modify e.row e.col fun old => old + e.value)
        (Matrix.zeros j.measurements j.states)
  | .dense m => m

end Jacobian

end TrustRegion
