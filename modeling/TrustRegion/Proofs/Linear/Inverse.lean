/-
Module: TrustRegion.Proofs.Linear.Inverse
Purpose: The inverse that is computed from a factor, without rounding. Its columns solve for the unit
  vectors, so it is a right inverse of the damped normal matrix, and since that is positive definite it
  is a left inverse too. Any solution of the normal equations is the inverse times its right-hand side.
Main exports: Cholesky.entry_inverse, Jacobian.Solves, Jacobian.IsInverse, CholeskySolver.Holds.solves,
  CholeskySolver.Holds.isInverse, Jacobian.IsInverse.solution_eq
-/
import TrustRegion.Proofs.Linear.Request

namespace TrustRegion

open Finset

/-- A row times a matrix times a column, either product taken first. -/
theorem sum_mul_sum_mul (n : ℕ) (a : ℕ → ℝ) (b : ℕ → ℕ → ℝ) (c : ℕ → ℝ) :
    ∑ k ∈ range n, a k * ∑ l ∈ range n, b k l * c l =
      ∑ l ∈ range n, (∑ k ∈ range n, a k * b k l) * c l := by
  simp only [mul_sum, sum_mul]
  rw [sum_comm]
  exact sum_congr rfl fun l _ => sum_congr rfl fun k _ => (mul_assoc _ _ _).symm

/-- A unit column picks one entry of a row. -/
theorem sum_mul_ite {n : ℕ} (a : ℕ → ℝ) {j : ℕ} (hj : j < n) :
    ∑ k ∈ range n, a k * (if k = j then 1 else 0) = a j := by
  simp [hj]

namespace Cholesky

variable {α : Type} [Scalar α]

@[simp] theorem rows_inverse (columns : Factor α) : (inverse columns).rows = columns.length := rfl

@[simp] theorem cols_inverse (columns : Factor α) : (inverse columns).cols = columns.length := rfl

/-- A column of the inverse solves for a unit vector. -/
theorem entry_inverse {columns : Factor α} {i j : Nat} (hi : i < columns.length)
    (hj : j < columns.length) :
    (inverse columns).entry i j = (solve columns (Vec.unit columns.length j)).entry i := by
  unfold inverse
  rw [Matrix.entry_ofFn hi hj]
  simp [hj]

end Cholesky

namespace Jacobian

variable {j : Jacobian ℝ} {lambda : ℝ}

/-- A vector solves the damped normal equations for a right-hand side. -/
structure Solves (j : Jacobian ℝ) (lambda : ℝ) (rhs v : Vec ℝ) : Prop where
  size : v.size = j.stored.cols
  equation : ∀ i, i < j.stored.cols →
    ∑ k ∈ range j.stored.cols, j.gram lambda i k * v.entry k = rhs.entry i

/-- A matrix is the inverse of the damped normal matrix, from the right and from the left. -/
structure IsInverse (j : Jacobian ℝ) (lambda : ℝ) (c : Matrix ℝ) : Prop where
  rows : c.rows = j.stored.cols
  cols : c.cols = j.stored.cols
  right : ∀ i k, i < j.stored.cols → k < j.stored.cols →
    ∑ l ∈ range j.stored.cols, j.gram lambda i l * c.entry l k = if i = k then 1 else 0
  left : ∀ i k, i < j.stored.cols → k < j.stored.cols →
    ∑ l ∈ range j.stored.cols, c.entry i l * j.gram lambda l k = if i = k then 1 else 0

/-- What solves the normal equations is the inverse times the right-hand side. -/
theorem IsInverse.solution_eq {c : Matrix ℝ} (h : j.IsInverse lambda c) {rhs v : Vec ℝ}
    (solves : j.Solves lambda rhs v) {i : ℕ} (hi : i < j.stored.cols) :
    v.entry i = ∑ k ∈ range j.stored.cols, c.entry i k * rhs.entry k := by
  calc v.entry i
      = ∑ l ∈ range j.stored.cols, (if i = l then 1 else 0) * v.entry l := by simp [hi]
    _ = ∑ l ∈ range j.stored.cols,
          (∑ k ∈ range j.stored.cols, c.entry i k * j.gram lambda k l) * v.entry l :=
        sum_congr rfl fun l hl => by rw [h.left i l hi (mem_range.mp hl)]
    _ = ∑ k ∈ range j.stored.cols,
          c.entry i k * ∑ l ∈ range j.stored.cols, j.gram lambda k l * v.entry l :=
        (sum_mul_sum_mul _ _ _ _).symm
    _ = ∑ k ∈ range j.stored.cols, c.entry i k * rhs.entry k :=
        sum_congr rfl fun k hk => by rw [solves.equation k (mem_range.mp hk)]

/-- A right inverse of a positive definite matrix is a left inverse. -/
theorem Definite.sum_mul_gram (h : j.Definite lambda) {c : Matrix ℝ}
    (right : ∀ i k, i < j.stored.cols → k < j.stored.cols →
      ∑ l ∈ range j.stored.cols, j.gram lambda i l * c.entry l k = if i = k then 1 else 0)
    {i k : ℕ} (hi : i < j.stored.cols) (hk : k < j.stored.cols) :
    ∑ l ∈ range j.stored.cols, c.entry i l * j.gram lambda l k = if i = k then 1 else 0 := by
  -- both columns are solutions for the same column of the matrix
  refine h.eq_of_sum_eq (v := fun i => ∑ l ∈ range j.stored.cols, c.entry i l * j.gram lambda l k)
    (w := fun i => if i = k then 1 else 0) (fun r hr => ?_) hi
  rw [sum_mul_ite _ hk, sum_mul_sum_mul]
  calc ∑ l ∈ range j.stored.cols,
          (∑ i ∈ range j.stored.cols, j.gram lambda r i * c.entry i l) * j.gram lambda l k
      = ∑ l ∈ range j.stored.cols, (if r = l then 1 else 0) * j.gram lambda l k :=
        sum_congr rfl fun l hl => by rw [right r l hr (mem_range.mp hl)]
    _ = j.gram lambda r k := by simp [hr]

end Jacobian

namespace CholeskySolver.Holds

variable {s : CholeskySolver ℝ} {j : Jacobian ℝ} {lambda : ℝ} {columns : Cholesky.Factor ℝ}

/-- What is computed with a factorization that is held solves the damped normal equations. -/
theorem solves (h : s.Holds j lambda) (held : s.factor = some columns) (rhs : Vec ℝ) :
    j.Solves lambda rhs (Cholesky.solve columns rhs) where
  size := (Cholesky.size_solve _ _).trans (h.product_eq held).2.1
  equation _ hi := h.sum_gram_mul_solve held rhs hi

/-- The inverse computed with a factorization that is held is that of the damped normal matrix. -/
theorem isInverse (h : s.Holds j lambda) (held : s.factor = some columns) :
    j.IsInverse lambda (Cholesky.inverse columns) := by
  obtain ⟨-, hlength, -⟩ := h.product_eq held
  have hright : ∀ i k, i < j.stored.cols → k < j.stored.cols →
      ∑ l ∈ range j.stored.cols, j.gram lambda i l * (Cholesky.inverse columns).entry l k =
        if i = k then 1 else 0 := by
    intro i k hi hk
    calc ∑ l ∈ range j.stored.cols, j.gram lambda i l * (Cholesky.inverse columns).entry l k
        = ∑ l ∈ range j.stored.cols, j.gram lambda i l *
            (Cholesky.solve columns (Vec.unit columns.length k)).entry l := by
          refine sum_congr rfl fun l hl => ?_
          rw [mem_range, ← hlength] at hl
          rw [Cholesky.entry_inverse hl (hlength ▸ hk)]
      _ = (Vec.unit columns.length k).entry i := h.sum_gram_mul_solve held _ hi
      _ = if i = k then 1 else 0 := Vec.entry_ofFn (hlength ▸ hi)
  exact
    { rows := hlength
      cols := hlength
      right := hright
      left := fun i k hi hk => h.definite.sum_mul_gram hright hi hk }

end CholeskySolver.Holds

end TrustRegion
