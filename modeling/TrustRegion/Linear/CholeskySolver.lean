/-
Module: TrustRegion.Linear.CholeskySolver
Purpose: Linear algebra by Cholesky factorization, for sparse and for dense Jacobians. The two differ
  in the Jacobians they take and in that the sparse one analyses the pattern first and keeps the
  analysis for the next Jacobian with the same pattern. A factorization in full blocks, as that of a
  full matrix, accepts finite pivots only.
Main exports: Symbolic, CholeskySolver, CholeskySolver.new, CholeskySolver.standardErrors
-/
import TrustRegion.Linear.Solver
import TrustRegion.Linear.Cholesky
import TrustRegion.Linear.Elimination.Work

namespace TrustRegion

open Scalar

/-- The analysis of a normal matrix before its numbers are known: its size, where it holds entries
and whether its factor is computed in full blocks. -/
structure Symbolic where
  states : Nat
  positions : List (Nat × Nat)
  inBlocks : Bool
deriving DecidableEq, Repr, Inhabited

/-- The analysis of a normal matrix. -/
def Symbolic.ofNormal {α : Type} (normal : StoredMatrix α) : Symbolic :=
  let positions := StoredMatrix.positions normal
  { states := normal.rows
    positions
    inBlocks := (Graph.ofPositions normal.rows positions).favoursBlocks }

/-- A factorization, what it was made for and what was computed with it. -/
structure CholeskySolver (α : Type) where
  storage : Storage
  factor : Option (Cholesky.Factor α)
  key : Option (FactorizationKey α)
  /-- The number of states of the last matrix that was factored. -/
  states : Nat
  /-- The last analysis, under the pattern of the Jacobian it was made for. -/
  symbolic : Option (List (Nat × Nat) × Symbolic)
  inverse : Option (Matrix α)

namespace CholeskySolver

variable {α : Type}

/-- A solver that has not factored anything. -/
def new (storage : Storage) : CholeskySolver α :=
  { storage, factor := none, key := none, states := 0, symbolic := none, inverse := none }

/-- Forget the factorization and what was computed with it. The analysis of the pattern stays. -/
def invalidate (s : CholeskySolver α) : CholeskySolver α :=
  { s with factor := none, key := none, inverse := none }

/-- The matrix of a Jacobian in the storage this solver takes. -/
def matrixOf (s : CholeskySolver α) (j : Jacobian α) :
    Logged α (Except (LinearError α) (StoredMatrix α)) :=
  if j.storage = s.storage then pure (.ok j.stored)
  else do
    let error ← (LinearError.jacobianMismatch s.storage).logged
    pure (.error error)

/-- A refusal because lengths do not agree. -/
def refuseShape {β : Type} (fault : ShapeFault) : Logged α (Except (LinearError α) β) := do
  let error ← (LinearError.dimensionMismatch fault).logged
  pure (.error error)

variable [Scalar α]

/-- Which values serve as a pivot: positive ones, and in full blocks only those that are finite. -/
def acceptsPivot (inBlocks : Bool) (pivot : α) : Bool :=
  decide (0 < pivot) && (!inBlocks || isFinite pivot)

/-- What is reported of the first pivot that failed. -/
def pivotFault (storage : Storage) (index : Nat) : PivotFault :=
  match storage with
  | .sparse => .sparse
  | .dense => .full index

/-- The transposed Jacobian times a vector with one entry for each measurement. -/
def gradient (s : CholeskySolver α) (j : Jacobian α) (x : Vec α) :
    Logged α (Except (LinearError α) (Vec α)) := do
  match ← s.matrixOf j with
  | .error error => pure (.error error)
  | .ok m =>
      if x.size ≠ m.rows then refuseShape (.rows m.rows x.size)
      else pure (.ok (StoredMatrix.transposeMulVec m x))

/-- The Jacobian times a vector with one entry for each state. -/
def jacobianMul (s : CholeskySolver α) (j : Jacobian α) (v : Vec α) :
    Logged α (Except (LinearError α) (Vec α)) := do
  match ← s.matrixOf j with
  | .error error => pure (.error error)
  | .ok m =>
      if v.size ≠ m.cols then refuseShape (.columns m.cols v.size)
      else pure (.ok (StoredMatrix.mulVec m v))

/-- The analysis that serves a Jacobian with the given pattern: the one that was kept if it was made
for the same pattern, otherwise a new one, which is kept in turn. -/
def symbolicFor (s : CholeskySolver α) (pattern : List (Nat × Nat)) (normal : StoredMatrix α) :
    Logged α (Symbolic × CholeskySolver α) :=
  match s.symbolic with
  | some (kept, symbolic) =>
      if kept = pattern then pure (symbolic, s) else analyse
  | none => analyse
where
  /-- Analyse the normal matrix and keep the result. -/
  analyse : Logged α (Symbolic × CholeskySolver α) := do
    Logged.emit (.patternAnalysed pattern.length)
    let symbolic := Symbolic.ofNormal normal
    pure (symbolic, { s with symbolic := some (pattern, symbolic) })

/-- Factor a normal matrix, in full blocks or not, and remember what it was made for. -/
def factorNormal (s : CholeskySolver α) (inBlocks : Bool) (normal : StoredMatrix α)
    (key : FactorizationKey α) : Logged α (Except (LinearError α) Unit × CholeskySolver α) :=
  match Cholesky.factor (acceptsPivot inBlocks) normal.rows normal with
  | .ok factor =>
      pure (.ok (), { s with factor := some factor, key := some key, states := normal.rows })
  | .error index => do
      let fault := pivotFault s.storage index
      Logged.emit (.factorizationFailed s.storage key.lambda fault)
      pure (.error (.notPositiveDefinite fault), s)

/-- Forget the factorization, then factor the damped normal matrix of a Jacobian. A sparse matrix is
analysed first. The analysis is found by the pattern alone: nothing compares the sizes before the
numbers are factored, and a matrix of another number of states breaks the request off. -/
def factorize (s : CholeskySolver α) (j : Jacobian α) (key : FactorizationKey α) :
    Logged α (Except (LinearError α) Unit × CholeskySolver α) := do
  let s := s.invalidate
  match ← s.matrixOf j with
  | .error error => pure (.error error, s)
  | .ok m =>
      let normal := StoredMatrix.normal m key.lambda
      match s.storage with
      | .dense => s.factorNormal true (StoredMatrix.filled normal) key
      | .sparse => do
          let (symbolic, s) ← s.symbolicFor (StoredMatrix.positions m) normal
          if symbolic.states ≠ normal.rows then
            pure (.error (.analysisUnfit symbolic.states normal.rows), s)
          else s.factorNormal symbolic.inBlocks normal key

/-- Solve the factored system for a right-hand side of its size. -/
def solve (s : CholeskySolver α) (rhs : Vec α) : Logged α (Except (LinearError α) (Vec α)) :=
  match s.factor with
  | none => pure (.error .notFactorized)
  | some factor =>
      if rhs.size ≠ s.states then refuseShape (.factored s.states rhs.size)
      else pure (.ok (Cholesky.solve factor rhs))

/-- The inverse of the factored matrix, computed once. -/
def covariance (s : CholeskySolver α) : Option (Matrix α) × CholeskySolver α :=
  match s.inverse, s.factor with
  | some inverse, _ => (some inverse, s)
  | none, some factor =>
      let inverse := Cholesky.inverse factor
      (some inverse, { s with inverse := some inverse })
  | none, none => (none, s)

/-- The square roots of the diagonal of the inverse; nothing if one of its entries is negative. -/
def standardErrors (s : CholeskySolver α) : Option (Vec α) × CholeskySolver α :=
  let (inverse?, s) := s.covariance
  match inverse? with
  | none => (none, s)
  | some inverse =>
      if (List.range inverse.cols).any fun i => decide (inverse.entry i i < 0) then (none, s)
      else (some (Vec.ofFn inverse.cols fun i => sqrt (inverse.entry i i)), s)

instance : LinearSolver α (CholeskySolver α) where
  storage := CholeskySolver.storage
  gradient := gradient
  jacobianMul := jacobianMul
  factorize := factorize
  solve := solve
  covariance := covariance
  factorizedFor := CholeskySolver.key
  invalidate := invalidate

end CholeskySolver

end TrustRegion
