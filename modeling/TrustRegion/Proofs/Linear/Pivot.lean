/-
Module: TrustRegion.Proofs.Linear.Pivot
Purpose: What the pivots of a factorization say of the matrix, without rounding. A leading minor is the
  product of the first pivots, so the first pivot that is refused names the first minor that is not
  positive. Whether there is a factor, and what is solved with it, does not depend on the order in which
  the rows and columns are eliminated.
Main exports: leadingMinor, leadingMinor_succ, Cholesky.isLeast_of_factor_eq_error, Reorders,
  StoredMatrix.reordered, CholeskySolver.exists_factor_reordered_iff,
  CholeskySolver.entry_solve_reordered
-/
import TrustRegion.Proofs.Linear.Inverse

namespace TrustRegion

open Finset StoredMatrix

/-! ### Leading minors -/

/-- The determinant of the first `n` rows and columns of a table. -/
noncomputable def leadingMinor (n : ℕ) (a : ℕ → ℕ → ℝ) : ℝ :=
  (Matrix.of fun i k : Fin n => a i k).det

theorem leadingMinor_congr {n : ℕ} {a b : ℕ → ℕ → ℝ} (h : ∀ i k, i < n → k < n → a i k = b i k) :
    leadingMinor n a = leadingMinor n b := by
  unfold leadingMinor
  congr 1
  ext i k
  exact h i k i.isLt k.isLt

/-- The first leading minor is the first pivot. -/
theorem leadingMinor_one (a : ℕ → ℕ → ℝ) : leadingMinor 1 a = a 0 0 :=
  Matrix.det_fin_one _

/-- A leading minor is the first pivot times a leading minor of what is left. -/
theorem leadingMinor_succ {n : ℕ} {a : ℕ → ℕ → ℝ} (pivot : a 0 0 ≠ 0)
    (symm : ∀ k, k < n → a 0 (k + 1) = a (k + 1) 0) :
    leadingMinor (n + 1) a = a 0 0 * leadingMinor n (eliminated a) := by
  set cleared : Fin (n + 1) → Fin (n + 1) → ℝ := fun i k =>
    a i k - (if i = 0 then 0 else a i 0 / a 0 0) * a 0 k with hcleared
  have hfirst : cleared 0 0 = a 0 0 := by
    simp only [hcleared, if_true, zero_mul, sub_zero, Fin.val_zero]
  have hcolumn (i : Fin n) : cleared i.succ 0 = 0 := by
    simp only [hcleared, Fin.succ_ne_zero, if_false, Fin.val_zero]
    rw [div_mul_cancel₀ _ pivot, sub_self]
  have hrest (i k : Fin n) : cleared i.succ k.succ = eliminated a i k := by
    simp only [hcleared, Fin.succ_ne_zero, if_false, Fin.val_succ]
    rw [eliminated, symm k k.isLt]
    ring
  -- subtracting multiples of the first row from the others keeps the determinant
  have hkept : leadingMinor (n + 1) a = (Matrix.of cleared).det := by
    apply Matrix.det_eq_of_forall_row_eq_smul_add_const
      (fun i : Fin (n + 1) => if i = 0 then 0 else a i 0 / a 0 0) 0 (if_pos rfl)
    intro i k
    simp only [hcleared, Matrix.of_apply, if_true, zero_mul, sub_zero, sub_add_cancel,
      Fin.val_zero]
  rw [hkept, Matrix.det_succ_column_zero, Fin.sum_univ_succ]
  simp only [Matrix.of_apply, hfirst, hcolumn, mul_zero, zero_mul, sum_const_zero, add_zero,
    Fin.val_zero, pow_zero, one_mul]
  congr 2
  ext i k
  exact hrest i k

namespace Cholesky

/-- A factor of a matrix that is not empty is missing for its first pivot or for one of what remains. -/
theorem factor_succ_eq_error {α : Type} [Scalar α] {accepts : α → Bool} {n k : ℕ}
    {a : StoredMatrix α} (h : factor accepts (n + 1) a = .error k) :
    (accepts (Entry.value (stored a 0 0)) = false ∧ k = 0) ∨
      (accepts (Entry.value (stored a 0 0)) = true ∧ ∃ m,
        factor accepts n (remainder n a (firstColumn n a (Entry.value (stored a 0 0)))) =
          .error m ∧ k = m + 1) := by
  unfold factor at h
  dsimp only at h
  cases haccepts : accepts (Entry.value (stored a 0 0)) with
  | false =>
      simp only [haccepts, Bool.false_eq_true, if_false] at h
      cases h
      exact .inl ⟨rfl, rfl⟩
  | true =>
      simp only [haccepts, if_true] at h
      cases hrest : factor accepts n
        (remainder n a (firstColumn n a (Entry.value (stored a 0 0)))) with
      | ok columns =>
          simp only [hrest] at h
          cases h
      | error m =>
          simp only [hrest] at h
          cases h
          exact .inr ⟨rfl, m, rfl, rfl⟩

/-- The leading minors of what remains have the signs of those of the matrix. -/
theorem leadingMinor_remainder_nonpos_iff {n i : ℕ} {a : StoredMatrix ℝ}
    (pivot : 0 < Entry.value (stored a 0 0))
    (symm : ∀ i j, i < n + 1 → j < n + 1 →
      Entry.value (stored a i j) = Entry.value (stored a j i)) (hi : i < n) :
    leadingMinor (i + 1) (fun i j => Entry.value (stored
        (remainder n a (firstColumn n a (Entry.value (stored a 0 0)))) i j)) ≤ 0 ↔
      leadingMinor (i + 2) (fun i j => Entry.value (stored a i j)) ≤ 0 := by
  have hrest : leadingMinor (i + 1) (fun i j => Entry.value (stored
      (remainder n a (firstColumn n a (Entry.value (stored a 0 0)))) i j)) =
        leadingMinor (i + 1) (eliminated fun i j => Entry.value (stored a i j)) := by
    apply leadingMinor_congr
    intro r c hr hc
    exact value_remainder_firstColumn pivot (by omega) (by omega)
  have hwhole : leadingMinor (i + 2) (fun i j => Entry.value (stored a i j)) =
      Entry.value (stored a 0 0) *
        leadingMinor (i + 1) (eliminated fun i j => Entry.value (stored a i j)) := by
    apply leadingMinor_succ pivot.ne'
    intro k hk
    exact symm 0 (k + 1) (Nat.succ_pos n) (by omega)
  rw [hrest, hwhole, ← not_lt, ← not_lt, mul_pos_iff_of_pos_left pivot]

/-- The first pivot that is refused names the least leading minor that is not positive. -/
theorem isLeast_of_factor_eq_error {accepts : ℝ → Bool} (positive : ∀ x, accepts x = true ↔ 0 < x)
    {n k : ℕ} {a : StoredMatrix ℝ}
    (symm : ∀ i j, i < n → j < n → Entry.value (stored a i j) = Entry.value (stored a j i))
    (h : factor accepts n a = .error k) :
    IsLeast {k | k < n ∧ leadingMinor (k + 1) (fun i j => Entry.value (stored a i j)) ≤ 0} k := by
  induction n generalizing a k with
  | zero => cases h
  | succ n ih =>
      have hone : leadingMinor 1 (fun i j => Entry.value (stored a i j)) =
          Entry.value (stored a 0 0) := leadingMinor_one _
      rcases factor_succ_eq_error h with ⟨hrefused, rfl⟩ | ⟨haccepts, m, hrest, rfl⟩
      · refine ⟨⟨Nat.succ_pos n, ?_⟩, fun i _ => Nat.zero_le i⟩
        rw [hone, ← not_lt, ← positive, hrefused]
        exact Bool.false_ne_true
      · have hpivot := (positive _).mp haccepts
        obtain ⟨⟨hm, hminor⟩, hleast⟩ := ih (fun i j hi hj => value_remainder_comm symm _ hi hj) hrest
        constructor
        · exact ⟨Nat.succ_lt_succ hm,
            (leadingMinor_remainder_nonpos_iff hpivot symm hm).mp hminor⟩
        · rintro i ⟨hi, hnonpos⟩
          cases i with
          | zero =>
              rw [hone] at hnonpos
              exact absurd hpivot hnonpos.not_gt
          | succ i =>
              have hi := Nat.lt_of_succ_lt_succ hi
              exact Nat.succ_le_succ
                (hleast ⟨hi, (leadingMinor_remainder_nonpos_iff hpivot symm hi).mpr hnonpos⟩)

end Cholesky

/-! ### Other orders of elimination -/

/-- A permutation that takes the first `n` places in another order. -/
def Reorders (n : ℕ) (order : Equiv.Perm ℕ) : Prop :=
  ∀ i, order i < n ↔ i < n

namespace Reorders

variable {n : ℕ} {order : Equiv.Perm ℕ}

theorem symm (h : Reorders n order) : Reorders n order.symm := by
  intro i
  rw [← h, Equiv.apply_symm_apply]

/-- A sum may be taken in another order. -/
theorem sum_comp (h : Reorders n order) (f : ℕ → ℝ) :
    ∑ i ∈ range n, f (order i) = ∑ i ∈ range n, f i := by
  apply sum_equiv order
  · intro i
    rw [mem_range, mem_range, h]
  · intro i _
    rfl

/-- The form of a matrix in another order is the form at the vector put back in order. -/
theorem quadraticForm_eq (h : Reorders n order) (a : ℕ → ℕ → ℝ) (v : ℕ → ℝ) :
    quadraticForm n (fun i k => a (order i) (order k)) v =
      quadraticForm n a fun i => v (order.symm i) := by
  have hrow (r : ℕ) : ∑ k ∈ range n, a r k * v (order.symm r) * v (order.symm k) =
      ∑ k ∈ range n, a r (order k) * v (order.symm r) * v k := by
    rw [← h.sum_comp]
    simp only [Equiv.symm_apply_apply]
  unfold quadraticForm
  simp only [hrow]
  rw [← h.sum_comp fun r => ∑ k ∈ range n, a r (order k) * v (order.symm r) * v k]
  simp only [Equiv.symm_apply_apply]

/-- Positive definite matrices are positive definite in every order. -/
theorem positiveDefinite (h : Reorders n order) {a : ℕ → ℕ → ℝ} (definite : PositiveDefinite n a) :
    PositiveDefinite n fun i k => a (order i) (order k) := by
  rintro v ⟨i, hi, hne⟩
  rw [h.quadraticForm_eq]
  refine definite _ ⟨order i, (h i).mpr hi, ?_⟩
  rwa [Equiv.symm_apply_apply]

theorem positiveDefinite_iff (h : Reorders n order) {a : ℕ → ℕ → ℝ} :
    PositiveDefinite n (fun i k => a (order i) (order k)) ↔ PositiveDefinite n a := by
  constructor
  · intro definite
    have hback := h.symm.positiveDefinite definite
    simpa only [Equiv.apply_symm_apply] using hback
  · exact h.positiveDefinite

end Reorders

section Reordered

variable {α : Type}

/-- A square matrix with its rows and columns taken in another order. -/
def StoredMatrix.reordered (order : ℕ → ℕ) (m : StoredMatrix α) : StoredMatrix α :=
  Matrix.ofFn m.rows m.rows fun i k => stored m (order i) (order k)

/-- A vector with its entries taken in another order. -/
def Vec.reordered [Scalar α] (order : ℕ → ℕ) (v : Vec α) : Vec α :=
  ofFn v.size fun i => v.entry (order i)

end Reordered

namespace CholeskySolver

variable {j : Jacobian ℝ} {lambda : ℝ} {inBlocks : Bool} {order : Equiv.Perm ℕ}
  {columns : Cholesky.Factor ℝ}

/-- The entries of the damped normal matrix in another order. -/
theorem value_reordered (h : Reorders j.stored.cols order) (lambda : ℝ) {i k : ℕ}
    (hi : i < j.stored.cols) (hk : k < j.stored.cols) :
    Entry.value (stored ((normalMatrix j lambda).reordered order) i k) =
      j.gram lambda (order i) (order k) := by
  have hrows : (normalMatrix j lambda).rows = j.stored.cols := rows_normalMatrix j lambda
  rw [StoredMatrix.reordered, stored_ofFn (hrows.symm ▸ hi) (hrows.symm ▸ hk),
    value_normalMatrix j lambda ((h i).mpr hi) ((h k).mpr hk)]

/-- The damped normal matrix is symmetric in every order. -/
theorem value_reordered_comm (h : Reorders j.stored.cols order) (lambda : ℝ) (i k : ℕ)
    (hi : i < j.stored.cols) (hk : k < j.stored.cols) :
    Entry.value (stored ((normalMatrix j lambda).reordered order) i k) =
      Entry.value (stored ((normalMatrix j lambda).reordered order) k i) := by
  rw [value_reordered h lambda hi hk, value_reordered h lambda hk hi, Jacobian.gram_comm]

/-- In whichever order the states are eliminated, there is a factor exactly if the damped normal matrix
is positive definite. -/
theorem exists_factor_reordered_iff (h : Reorders j.stored.cols order) :
    (∃ columns, Cholesky.factor (acceptsPivot inBlocks) j.stored.cols
      ((normalMatrix j lambda).reordered order) = .ok columns) ↔ j.Definite lambda := by
  rw [Cholesky.exists_factor_iff (acceptsPivot_iff inBlocks) (value_reordered_comm h lambda),
    positiveDefinite_congr fun i k hi hk => value_reordered h lambda hi hk,
    h.positiveDefinite_iff]
  rfl

/-- What is solved in another order is the solution, in that order. -/
theorem entry_solve_reordered (h : Reorders j.stored.cols order)
    (made : Cholesky.factor (acceptsPivot inBlocks) j.stored.cols
      ((normalMatrix j lambda).reordered order) = .ok columns)
    {rhs v : Vec ℝ} (size : rhs.size = j.stored.cols) (solves : j.Solves lambda rhs v) {i : ℕ}
    (hi : i < j.stored.cols) :
    (Cholesky.solve columns (rhs.reordered order)).entry i = v.entry (order i) := by
  have hdefinite : j.Definite lambda := (exists_factor_reordered_iff h).mp ⟨columns, made⟩
  have hpositive (x : ℝ) (hx : acceptsPivot inBlocks x = true) : 0 < x :=
    (acceptsPivot_iff inBlocks x).mp hx
  obtain ⟨hnonzero, hproduct⟩ :=
    Cholesky.product_factor hpositive made (value_reordered_comm h lambda)
  have hlength : columns.length = j.stored.cols := Cholesky.length_factor made
  -- both sides solve the system in the other order, and that has one solution
  refine (h.positiveDefinite hdefinite).eq_of_sum_eq
    (v := (Cholesky.solve columns (rhs.reordered order)).entry)
    (w := fun i => v.entry (order i)) (fun r hr => ?_) hi
  calc ∑ k ∈ range j.stored.cols, j.gram lambda (order r) (order k) *
          (Cholesky.solve columns (rhs.reordered order)).entry k
      = ∑ k ∈ range columns.length, Cholesky.product columns r k *
          (Cholesky.solve columns (rhs.reordered order)).entry k := by
        rw [hlength]
        apply sum_congr rfl
        intro k hk
        rw [hproduct r k hr (mem_range.mp hk), value_reordered h lambda hr (mem_range.mp hk)]
    _ = (rhs.reordered order).entry r :=
        Cholesky.sum_product_mul_solve hnonzero _ (hlength ▸ hr)
    _ = rhs.entry (order r) := Vec.entry_ofFn (size ▸ hr)
    _ = ∑ k ∈ range j.stored.cols, j.gram lambda (order r) k * v.entry k :=
        (solves.equation (order r) ((h r).mpr hr)).symm
    _ = ∑ k ∈ range j.stored.cols, j.gram lambda (order r) (order k) * v.entry (order k) :=
        (h.sum_comp fun k => j.gram lambda (order r) k * v.entry k).symm

end CholeskySolver

end TrustRegion
