/-
Module: TrustRegion.Linear.Cholesky
Purpose: The factorization of a symmetric matrix into a lower triangle and its transpose, one
  column at a time, and the solution of linear systems with the factor. Which values serve as a
  pivot is left to the caller.
Main exports: Cholesky.Column, Cholesky.factor, Cholesky.solve, Cholesky.inverse
-/
import TrustRegion.Linear.StoredMatrix

namespace TrustRegion.Cholesky

open Scalar

variable {α : Type}

/-- One column of a lower triangular factor: its diagonal value and what is stored below it. -/
structure Column (α : Type) where
  diagonal : α
  below : Array (Entry α)
deriving Repr, Inhabited

namespace Column

/-- The entry of a column at a place below the diagonal, counted from zero. -/
def entry (c : Column α) (i : Nat) : Entry α :=
  (c.below[i]?).join

end Column

/-- A lower triangular factor: its columns from left to right, each one shorter than the last. -/
abbrev Factor (α : Type) := List (Column α)

variable [Scalar α]

/-- The part of a matrix that remains to be factored once its first column is done. -/
def remainder (n : Nat) (a : StoredMatrix α) (c : Column α) : StoredMatrix α :=
  Matrix.ofFn n n fun i j =>
    (StoredMatrix.stored a (i + 1) (j + 1)).minus ((c.entry i).times (c.entry j))

/-- The first column of the factor of a matrix whose first pivot is `pivot`. -/
def firstColumn (n : Nat) (a : StoredMatrix α) (pivot : α) : Column α :=
  let root := sqrt pivot
  { diagonal := root
    below := Array.ofFn fun i : Fin n => (StoredMatrix.stored a (i + 1) 0).map (· / root) }

/-- The factor of the symmetric `n` by `n` matrix `a`, or the place of the first pivot that
`accepts` refuses. -/
def factor (accepts : α → Bool) : (n : Nat) → StoredMatrix α → Except Nat (Factor α)
  | 0, _ => .ok []
  | n + 1, a =>
      let pivot := (StoredMatrix.stored a 0 0).value
      if accepts pivot then
        let column := firstColumn n a pivot
        match factor accepts n (remainder n a column) with
        | .ok columns => .ok (column :: columns)
        | .error k => .error (k + 1)
      else .error 0

/-- The solution of the system whose matrix has the given factor: forward through the columns,
then back. -/
def solve : Factor α → Vec α → Vec α
  | [], _ => Vec.zeros 0
  | c :: columns, rhs =>
      let first := rhs.entry 0 / c.diagonal
      let rest := Vec.ofFn columns.length fun i =>
        match c.entry i with
        | some l => rhs.entry (i + 1) - l * first
        | none => rhs.entry (i + 1)
      let tail := solve columns rest
      let carried :=
        (Entry.total (fun i => (c.entry i).scale (tail.entry i)) columns.length).value
      Vec.cons ((first - carried) / c.diagonal) tail

/-- The inverse of the matrix with the given factor, one solution for each column. -/
def inverse (columns : Factor α) : Matrix α :=
  let n := columns.length
  let solutions := Array.ofFn fun j : Fin n => solve columns (Vec.unit n j)
  Matrix.ofFn n n fun i j => (solutions[j]?.getD (Vec.zeros n)).entry i

/-- A solution has one entry for each column of the factor. -/
@[simp] theorem size_solve (columns : Factor α) (rhs : Vec α) :
    (solve columns rhs).size = columns.length := by
  induction columns generalizing rhs with
  | nil => simp [solve]
  | cons c columns ih => simp [solve, ih]

/-- A factor has one column for each row of the matrix. -/
theorem length_factor {accepts : α → Bool} {n : Nat} {a : StoredMatrix α} {columns : Factor α}
    (h : factor accepts n a = .ok columns) : columns.length = n := by
  induction n generalizing a columns with
  | zero =>
      simp only [factor, Except.ok.injEq] at h
      simp [← h]
  | succ n ih =>
      simp only [factor] at h
      split at h
      · split at h
        · rename_i columns' hrest
          simp only [Except.ok.injEq] at h
          simp [← h, ih hrest]
        · contradiction
      · contradiction

end TrustRegion.Cholesky
