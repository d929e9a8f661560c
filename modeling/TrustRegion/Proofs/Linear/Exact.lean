/-
Module: TrustRegion.Proofs.Linear.Exact
Purpose: What a factorization is worth without rounding. The factor times its transpose is the
  matrix that was factored, solving with the factor solves the system of that product, and so a
  solver that holds the factorization of a Jacobian solves its damped normal equations.
Main exports: Cholesky.product, Cholesky.product_factor, Cholesky.sum_product_mul_solve,
  Jacobian.gram, CholeskySolver.Holds.product_eq, CholeskySolver.Holds.sum_gram_mul_solve
-/
import TrustRegion.Proofs.Scalar.Exact
import TrustRegion.Proofs.Linear.Factored

namespace TrustRegion

open Finset StoredMatrix

namespace Cholesky

/-- A column of a factor from its diagonal down. -/
noncomputable def Column.lower (c : Column ℝ) : ℕ → ℝ
  | 0 => c.diagonal
  | i + 1 => Entry.value (c.entry i)

/-- The entries of the product of a lower triangular factor and its transpose. -/
noncomputable def product : Factor ℝ → ℕ → ℕ → ℝ
  | [], _, _ => 0
  | c :: columns, i + 1, j + 1 => c.lower (i + 1) * c.lower (j + 1) + product columns i j
  | c :: _, i, j => c.lower i * c.lower j

@[simp] theorem product_zero_left (c : Column ℝ) (columns : Factor ℝ) (j : ℕ) :
    product (c :: columns) 0 j = c.lower 0 * c.lower j := by
  cases j <;> rfl

@[simp] theorem product_zero_right (c : Column ℝ) (columns : Factor ℝ) (i : ℕ) :
    product (c :: columns) i 0 = c.lower i * c.lower 0 := by
  cases i <;> rfl

@[simp] theorem product_succ_succ (c : Column ℝ) (columns : Factor ℝ) (i j : ℕ) :
    product (c :: columns) (i + 1) (j + 1) =
      c.lower (i + 1) * c.lower (j + 1) + product columns i j :=
  rfl

/-- Below the diagonal, the first column of a factor is that of the matrix over the root. -/
theorem lower_firstColumn {n : ℕ} {a : StoredMatrix ℝ} {pivot : ℝ} {i : ℕ} (h : i < n) :
    (firstColumn n a pivot).lower (i + 1) =
      Entry.value (stored a (i + 1) 0) / Real.sqrt pivot := by
  have hentry : (firstColumn n a pivot).entry i =
      (stored a (i + 1) 0).map (· / Real.sqrt pivot) := by
    simp only [Column.entry, firstColumn, Array.getElem?_ofFn, h, dif_pos]
    rfl
  rw [Column.lower, hentry]
  cases stored a (i + 1) 0 <;> simp

/-- What remains to be factored is the matrix less the product of its first column. -/
theorem value_remainder {n : ℕ} {a : StoredMatrix ℝ} {c : Column ℝ} {i j : ℕ} (hi : i < n)
    (hj : j < n) :
    Entry.value (stored (remainder n a c) i j) =
      Entry.value (stored a (i + 1) (j + 1)) - c.lower (i + 1) * c.lower (j + 1) := by
  rw [remainder, stored_ofFn hi hj, Entry.value_minus, Entry.value_times]
  rfl

/-- A factor of a matrix that is not empty is its first column and the factor of what remains. -/
theorem factor_succ_eq_ok {α : Type} [Scalar α] {accepts : α → Bool} {n : ℕ} {a : StoredMatrix α}
    {columns : Factor α} (h : factor accepts (n + 1) a = .ok columns) :
    accepts (Entry.value (stored a 0 0)) = true ∧
      ∃ rest,
        factor accepts n (remainder n a (firstColumn n a (Entry.value (stored a 0 0)))) =
          .ok rest ∧
        columns = firstColumn n a (Entry.value (stored a 0 0)) :: rest := by
  unfold factor at h
  dsimp only at h
  split at h
  · rename_i haccepts
    cases hrest : factor accepts n (remainder n a (firstColumn n a (Entry.value (stored a 0 0)))) with
    | error k =>
        simp only [hrest] at h
        cases h
    | ok rest =>
        simp only [hrest] at h
        cases h
        exact ⟨haccepts, rest, rfl, rfl⟩
  · cases h

/-- The factor of a symmetric matrix times its transpose is the matrix, and no pivot vanishes. -/
theorem product_factor {accepts : ℝ → Bool} (positive : ∀ x, accepts x = true → 0 < x) {n : ℕ}
    {a : StoredMatrix ℝ} {columns : Factor ℝ} (h : factor accepts n a = .ok columns)
    (symm : ∀ i j, i < n → j < n → Entry.value (stored a i j) = Entry.value (stored a j i)) :
    (∀ c ∈ columns, c.diagonal ≠ 0) ∧
      ∀ i j, i < n → j < n → product columns i j = Entry.value (stored a i j) := by
  induction n generalizing a columns with
  | zero =>
      cases h
      exact ⟨fun c hc => (nomatch hc), fun i j hi => absurd hi (Nat.not_lt_zero i)⟩
  | succ n ih =>
      obtain ⟨haccepts, rest, hrest, rfl⟩ := factor_succ_eq_ok h
      have hpivot : 0 < Entry.value (stored a 0 0) := positive _ haccepts
      have hroot : 0 < Real.sqrt (Entry.value (stored a 0 0)) := Real.sqrt_pos.mpr hpivot
      have hdiagonal : (firstColumn n a (Entry.value (stored a 0 0))).lower 0 =
        Real.sqrt (Entry.value (stored a 0 0)) := rfl
      obtain ⟨hnonzero, hproduct⟩ := ih hrest fun i j hi hj => by
        rw [value_remainder hi hj, value_remainder hj hi,
          symm (i + 1) (j + 1) (Nat.succ_lt_succ hi) (Nat.succ_lt_succ hj), mul_comm]
      constructor
      · intro c hc
        rcases List.mem_cons.mp hc with rfl | hc
        · exact hroot.ne'
        · exact hnonzero c hc
      · intro i j hi hj
        match i, j with
        | 0, 0 => rw [product_zero_left, hdiagonal, Real.mul_self_sqrt hpivot.le]
        | 0, j + 1 =>
            rw [product_zero_left, hdiagonal, lower_firstColumn (Nat.lt_of_succ_lt_succ hj),
              mul_div_cancel₀ _ hroot.ne', symm 0 (j + 1) hi hj]
        | i + 1, 0 =>
            rw [product_zero_right, hdiagonal, lower_firstColumn (Nat.lt_of_succ_lt_succ hi),
              div_mul_cancel₀ _ hroot.ne']
        | i + 1, j + 1 =>
            have hi := Nat.lt_of_succ_lt_succ hi
            have hj := Nat.lt_of_succ_lt_succ hj
            rw [product_succ_succ, hproduct i j hi hj, value_remainder hi hj]
            ring

/-- Solving with one more column, where absent entries are zeros: the later unknowns solve for what
the first one leaves of the right-hand side. -/
theorem solve_cons (c : Column ℝ) (columns : Factor ℝ) (rhs : Vec ℝ) :
    ∃ rest : Vec ℝ,
      (∀ i, i < columns.length →
        rest.entry i = rhs.entry (i + 1) - c.lower (i + 1) * (rhs.entry 0 / c.diagonal)) ∧
      solve (c :: columns) rhs =
        Vec.cons
          ((rhs.entry 0 / c.diagonal -
            ∑ j ∈ range columns.length, c.lower (j + 1) * (solve columns rest).entry j) / c.diagonal)
          (solve columns rest) := by
  have hcarried (tail : Vec ℝ) :
      ∑ j ∈ range columns.length, c.lower (j + 1) * tail.entry j =
        Entry.value (Entry.total (fun i => (c.entry i).scale (tail.entry i)) columns.length) := by
    rw [Entry.value_total]
    exact sum_congr rfl fun j _ => (Entry.value_scale _ _).symm
  simp only [hcarried]
  refine ⟨_, fun i hi => ?_, rfl⟩
  rw [Vec.entry_ofFn hi, Column.lower]
  cases c.entry i <;> simp

/-- Solving with a factor solves the system of the factor times its transpose. -/
theorem sum_product_mul_solve {columns : Factor ℝ} (nonzero : ∀ c ∈ columns, c.diagonal ≠ 0)
    (rhs : Vec ℝ) {i : ℕ} (h : i < columns.length) :
    ∑ j ∈ range columns.length, product columns i j * (solve columns rhs).entry j =
      rhs.entry i := by
  induction columns generalizing rhs i with
  | nil => exact absurd h (Nat.not_lt_zero i)
  | cons c columns ih =>
      have hdiagonal : c.diagonal ≠ 0 := nonzero c List.mem_cons_self
      have ih := ih fun c hc => nonzero c (List.mem_cons_of_mem _ hc)
      obtain ⟨rest, hrest, hsolve⟩ := solve_cons c columns rhs
      rw [hsolve, List.length_cons, sum_range_succ']
      simp only [Vec.entry_cons_zero, Vec.entry_cons_succ]
      set tail := solve columns rest with htail
      set carried := ∑ j ∈ range columns.length, c.lower (j + 1) * tail.entry j with hcarried
      have hunknown : c.diagonal * ((rhs.entry 0 / c.diagonal - carried) / c.diagonal) =
          rhs.entry 0 / c.diagonal - carried :=
        mul_div_cancel₀ _ hdiagonal
      match i with
      | 0 =>
          have hlater : ∑ j ∈ range columns.length,
              product (c :: columns) 0 (j + 1) * tail.entry j = c.diagonal * carried := by
            rw [hcarried, mul_sum]
            exact sum_congr rfl fun j _ => by rw [product_zero_left, Column.lower, mul_assoc]
          rw [hlater, product_zero_left, Column.lower, mul_assoc, hunknown, ← mul_add,
            add_sub_cancel, mul_div_cancel₀ _ hdiagonal]
      | i + 1 =>
          have hi : i < columns.length := Nat.lt_of_succ_lt_succ h
          have hlater : ∑ j ∈ range columns.length,
              product (c :: columns) (i + 1) (j + 1) * tail.entry j =
                c.lower (i + 1) * carried + rest.entry i := by
            rw [← ih rest hi, hcarried, mul_sum, ← sum_add_distrib]
            exact sum_congr rfl fun j _ => by rw [product_succ_succ]; ring
          rw [hlater, product_zero_right, show c.lower 0 = c.diagonal from rfl, mul_assoc, hunknown,
            hrest i hi]
          ring

end Cholesky

namespace Jacobian

/-- The derivative of a measurement by a state, zero where nothing is stored. -/
noncomputable def slope (j : Jacobian ℝ) (row col : ℕ) : ℝ :=
  Entry.value (StoredMatrix.stored j.stored row col)

/-- The entries of the transposed Jacobian times the Jacobian, with `lambda` on the diagonal. -/
noncomputable def gram (j : Jacobian ℝ) (lambda : ℝ) (i k : ℕ) : ℝ :=
  ∑ r ∈ range j.stored.rows, j.slope r i * j.slope r k + if i = k then lambda else 0

theorem gram_comm (j : Jacobian ℝ) (lambda : ℝ) (i k : ℕ) :
    j.gram lambda i k = j.gram lambda k i := by
  have hsum : ∑ r ∈ range j.stored.rows, j.slope r i * j.slope r k =
      ∑ r ∈ range j.stored.rows, j.slope r k * j.slope r i :=
    sum_congr rfl fun r _ => mul_comm (j.slope r i) (j.slope r k)
  have hdiagonal : (if i = k then lambda else 0) = if k = i then lambda else 0 :=
    if_congr eq_comm rfl rfl
  rw [gram, gram, hsum, hdiagonal]

/-- The transposed Jacobian times a vector, entry by entry. -/
theorem entry_transposeMulVec (j : Jacobian ℝ) (x : Vec ℝ) {i : ℕ} (h : i < j.stored.cols) :
    (transposeMulVec j.stored x).entry i = ∑ r ∈ range j.stored.rows, j.slope r i * x.entry r := by
  rw [transposeMulVec, Vec.entry_ofFn h, Entry.value_total]
  exact sum_congr rfl fun r _ => Entry.value_scale _ _

/-- The Jacobian times a vector, entry by entry. -/
theorem entry_mulVec (j : Jacobian ℝ) (v : Vec ℝ) {r : ℕ} (h : r < j.stored.rows) :
    (mulVec j.stored v).entry r = ∑ i ∈ range j.stored.cols, j.slope r i * v.entry i := by
  rw [mulVec, Vec.entry_ofFn h, Entry.value_total]
  exact sum_congr rfl fun i _ => Entry.value_scale _ _

end Jacobian

namespace CholeskySolver

/-- The matrix that is factored for a Jacobian has the entries of the damped normal matrix, for
either kind of Jacobian. -/
theorem value_normalMatrix (j : Jacobian ℝ) (lambda : ℝ) {i k : ℕ} (hi : i < j.stored.cols)
    (hk : k < j.stored.cols) :
    Entry.value (stored (normalMatrix j lambda) i k) = j.gram lambda i k := by
  have hnormal : Entry.value (stored (normal j.stored lambda) i k) = j.gram lambda i k := by
    rw [normal, stored_ofFn hi hk, Jacobian.gram]
    split
    · rw [Entry.value_plus, Entry.value_total, Entry.value_some]
      exact congrArg (· + lambda) (sum_congr rfl fun r _ => Entry.value_times _ _)
    · rw [Entry.value_total, add_zero]
      exact sum_congr rfl fun r _ => Entry.value_times _ _
  unfold normalMatrix
  cases j.storage with
  | dense => rw [value_stored_filled, hnormal]
  | sparse => exact hnormal

variable {s : CholeskySolver ℝ} {j : Jacobian ℝ} {lambda : ℝ} {columns : Cholesky.Factor ℝ}

/-- A factorization that is held is one of the damped normal matrix: the factor times its transpose
has its entries. -/
theorem Holds.product_eq (h : s.Holds j lambda) (held : s.factor = some columns) :
    (∀ c ∈ columns, c.diagonal ≠ 0) ∧ columns.length = j.stored.cols ∧
      ∀ i k, i < j.stored.cols → k < j.stored.cols →
        Cholesky.product columns i k = j.gram lambda i k := by
  obtain ⟨columns', inBlocks, hheld, hfactor⟩ := h.factor
  rw [held] at hheld
  cases hheld
  have hpositive (x : ℝ) (hx : acceptsPivot inBlocks x = true) : 0 < x := by
    simp only [acceptsPivot, Bool.and_eq_true, decide_eq_true_eq] at hx
    exact hx.1
  obtain ⟨hnonzero, hproduct⟩ := Cholesky.product_factor hpositive hfactor fun i k hi hk => by
    rw [value_normalMatrix j lambda hi hk, value_normalMatrix j lambda hk hi, Jacobian.gram_comm]
  refine ⟨hnonzero, Cholesky.length_factor hfactor, fun i k hi hk => ?_⟩
  rw [hproduct i k hi hk, value_normalMatrix j lambda hi hk]

/-- What is solved with a factorization that is held solves the damped normal equations. -/
theorem Holds.sum_gram_mul_solve (h : s.Holds j lambda) (held : s.factor = some columns)
    (rhs : Vec ℝ) {i : ℕ} (hi : i < j.stored.cols) :
    ∑ k ∈ range j.stored.cols, j.gram lambda i k * (Cholesky.solve columns rhs).entry k =
      rhs.entry i := by
  obtain ⟨hnonzero, hlength, hproduct⟩ := h.product_eq held
  rw [← Cholesky.sum_product_mul_solve hnonzero rhs (hlength ▸ hi), hlength]
  exact sum_congr rfl fun k hk => by rw [hproduct i k hi (mem_range.mp hk)]

end CholeskySolver

end TrustRegion
