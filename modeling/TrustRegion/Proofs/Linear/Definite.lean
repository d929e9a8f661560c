/-
Module: TrustRegion.Proofs.Linear.Definite
Purpose: When a factorization succeeds without rounding: exactly if the matrix is positive definite.
  One column of a factor completes a square, and what remains to be factored is the form of the rest.
  The damped normal matrix of a Jacobian is positive definite for every positive damping and, without
  damping, if the Jacobian loses no direction.
Main exports: quadraticForm, PositiveDefinite, PositiveDefinite.eq_of_sum_eq,
  Cholesky.exists_factor_iff, Jacobian.quadraticForm_gram, Jacobian.positiveDefinite_gram_of_pos
-/
import TrustRegion.Proofs.Linear.Exact

namespace TrustRegion

open Finset StoredMatrix

/-! ### Quadratic forms -/

/-- The quadratic form of the first `n` rows and columns of a matrix. -/
noncomputable def quadraticForm (n : ℕ) (a : ℕ → ℕ → ℝ) (v : ℕ → ℝ) : ℝ :=
  ∑ i ∈ range n, ∑ k ∈ range n, a i k * v i * v k

/-- The form is positive at every vector that does not vanish. -/
def PositiveDefinite (n : ℕ) (a : ℕ → ℕ → ℝ) : Prop :=
  ∀ v : ℕ → ℝ, (∃ i, i < n ∧ v i ≠ 0) → 0 < quadraticForm n a v

theorem quadraticForm_congr {n : ℕ} {a b : ℕ → ℕ → ℝ} (h : ∀ i k, i < n → k < n → a i k = b i k)
    (v : ℕ → ℝ) : quadraticForm n a v = quadraticForm n b v := by
  apply sum_congr rfl
  intro i hi
  apply sum_congr rfl
  intro k hk
  rw [h i k (mem_range.mp hi) (mem_range.mp hk)]

theorem positiveDefinite_congr {n : ℕ} {a b : ℕ → ℕ → ℝ}
    (h : ∀ i k, i < n → k < n → a i k = b i k) :
    PositiveDefinite n a ↔ PositiveDefinite n b := by
  unfold PositiveDefinite
  simp only [quadraticForm_congr h]

/-- The form written with the image of the vector. -/
theorem quadraticForm_eq_sum_mul (n : ℕ) (a : ℕ → ℕ → ℝ) (v : ℕ → ℝ) :
    quadraticForm n a v = ∑ i ∈ range n, v i * ∑ k ∈ range n, a i k * v k := by
  apply sum_congr rfl
  intro i _
  rw [mul_sum]
  exact sum_congr rfl fun k _ => by ring

/-- A linear system whose matrix is positive definite has one solution at most. -/
theorem PositiveDefinite.eq_of_sum_eq {n : ℕ} {a : ℕ → ℕ → ℝ} (h : PositiveDefinite n a)
    {v w : ℕ → ℝ}
    (same : ∀ i, i < n → ∑ k ∈ range n, a i k * v k = ∑ k ∈ range n, a i k * w k) {i : ℕ}
    (hi : i < n) : v i = w i := by
  by_contra hne
  have hzero : quadraticForm n a (fun k => v k - w k) = 0 := by
    rw [quadraticForm_eq_sum_mul]
    apply sum_eq_zero
    intro i hi
    have himage : ∑ k ∈ range n, a i k * (v k - w k) = 0 := by
      simp only [mul_sub, sum_sub_distrib]
      rw [same i (mem_range.mp hi), sub_self]
    rw [himage, mul_zero]
  have hpos := h (fun k => v k - w k) ⟨i, hi, sub_ne_zero.mpr hne⟩
  rw [hzero] at hpos
  exact lt_irrefl 0 hpos

/-- The matrix that is left when the first row and column are eliminated. -/
noncomputable def eliminated (a : ℕ → ℕ → ℝ) (i k : ℕ) : ℝ :=
  a (i + 1) (k + 1) - a (i + 1) 0 * a (k + 1) 0 / a 0 0

/-- Completing the square: the form is a multiple of a square and the form of what is left. -/
theorem quadraticForm_succ {n : ℕ} {a : ℕ → ℕ → ℝ} (pivot : a 0 0 ≠ 0)
    (symm : ∀ k, k < n → a 0 (k + 1) = a (k + 1) 0) (v : ℕ → ℝ) :
    quadraticForm (n + 1) a v =
      a 0 0 * (v 0 + (∑ k ∈ range n, a (k + 1) 0 * v (k + 1)) / a 0 0) ^ 2 +
        quadraticForm n (eliminated a) fun i => v (i + 1) := by
  set coupling := ∑ k ∈ range n, a (k + 1) 0 * v (k + 1) with hcoupling
  have hfirst : ∑ k ∈ range n, a 0 (k + 1) * v 0 * v (k + 1) = v 0 * coupling := by
    rw [hcoupling, mul_sum]
    apply sum_congr rfl
    intro k hk
    rw [symm k (mem_range.mp hk)]
    ring
  have hcolumn : ∑ i ∈ range n, a (i + 1) 0 * v (i + 1) * v 0 = v 0 * coupling := by
    rw [hcoupling, mul_sum]
    exact sum_congr rfl fun i _ => by ring
  have hsquare : ∑ i ∈ range n, ∑ k ∈ range n,
      a (i + 1) 0 * a (k + 1) 0 / a 0 0 * v (i + 1) * v (k + 1) = coupling ^ 2 / a 0 0 := by
    rw [sq, hcoupling, sum_mul_sum, sum_div]
    apply sum_congr rfl
    intro i _
    rw [sum_div]
    exact sum_congr rfl fun k _ => by ring
  have hrest : quadraticForm n (eliminated a) (fun i => v (i + 1)) =
      ∑ i ∈ range n, ∑ k ∈ range n, a (i + 1) (k + 1) * v (i + 1) * v (k + 1) -
        coupling ^ 2 / a 0 0 := by
    rw [← hsquare, ← sum_sub_distrib]
    apply sum_congr rfl
    intro i _
    rw [← sum_sub_distrib]
    exact sum_congr rfl fun k _ => by rw [eliminated]; ring
  have hall : quadraticForm (n + 1) a v =
      a 0 0 * v 0 * v 0 + ∑ k ∈ range n, a 0 (k + 1) * v 0 * v (k + 1) +
        (∑ i ∈ range n, a (i + 1) 0 * v (i + 1) * v 0 +
          ∑ i ∈ range n, ∑ k ∈ range n, a (i + 1) (k + 1) * v (i + 1) * v (k + 1)) := by
    unfold quadraticForm
    rw [sum_range_succ', sum_range_succ', ← sum_add_distrib]
    simp only [sum_range_succ' _ n]
    rw [add_comm]
    congr 1
    · ring
    · exact sum_congr rfl fun i _ => add_comm _ _
  rw [hall, hrest, hfirst, hcolumn]
  field_simp
  ring

/-- A sequence with one more value in front. -/
def prepended (x : ℝ) (w : ℕ → ℝ) : ℕ → ℝ
  | 0 => x
  | i + 1 => w i

@[simp] theorem prepended_zero (x : ℝ) (w : ℕ → ℝ) : prepended x w 0 = x := rfl

@[simp] theorem prepended_succ (x : ℝ) (w : ℕ → ℝ) (i : ℕ) : prepended x w (i + 1) = w i := rfl

/-- A matrix is positive definite exactly if its first pivot is positive and what is left is positive
definite. -/
theorem positiveDefinite_succ_iff {n : ℕ} {a : ℕ → ℕ → ℝ}
    (symm : ∀ k, k < n → a 0 (k + 1) = a (k + 1) 0) :
    PositiveDefinite (n + 1) a ↔ 0 < a 0 0 ∧ PositiveDefinite n (eliminated a) := by
  constructor
  · intro h
    have hpivot : 0 < a 0 0 := by
      have hunit := h (fun i => if i = 0 then 1 else 0) ⟨0, Nat.succ_pos n, by simp⟩
      simpa [quadraticForm] using hunit
    refine ⟨hpivot, fun w hw => ?_⟩
    obtain ⟨i, hi, hne⟩ := hw
    -- the first entry is chosen so that the square vanishes
    have hform := h (prepended (-((∑ k ∈ range n, a (k + 1) 0 * w k) / a 0 0)) w)
      ⟨i + 1, Nat.succ_lt_succ hi, hne⟩
    rw [quadraticForm_succ hpivot.ne' symm] at hform
    simp only [prepended_zero, prepended_succ, neg_add_cancel] at hform
    simpa using hform
  · rintro ⟨hpivot, hrest⟩ v ⟨i, hi, hne⟩
    rw [quadraticForm_succ hpivot.ne' symm]
    by_cases htail : ∃ k, k < n ∧ v (k + 1) ≠ 0
    · have hpos := hrest (fun k => v (k + 1)) htail
      have hsquare := mul_nonneg hpivot.le
        (sq_nonneg (v 0 + (∑ k ∈ range n, a (k + 1) 0 * v (k + 1)) / a 0 0))
      exact add_pos_of_nonneg_of_pos hsquare hpos
    · push Not at htail
      have hcoupling : ∑ k ∈ range n, a (k + 1) 0 * v (k + 1) = 0 :=
        sum_eq_zero fun k hk => by rw [htail k (mem_range.mp hk), mul_zero]
      have hform : quadraticForm n (eliminated a) (fun k => v (k + 1)) = 0 := by
        apply sum_eq_zero
        intro i hi
        apply sum_eq_zero
        intro k _
        show eliminated a i k * v (i + 1) * v (k + 1) = 0
        rw [htail i (mem_range.mp hi), mul_zero, zero_mul]
      have hfirst : v 0 ≠ 0 := by
        cases i with
        | zero => exact hne
        | succ k => exact absurd (htail k (Nat.lt_of_succ_lt_succ hi)) hne
      rw [hcoupling, hform, zero_div, add_zero, add_zero]
      exact mul_pos hpivot (sq_pos_of_ne_zero hfirst)

namespace Cholesky

/-- What remains to be factored once the first column is done is the matrix that elimination leaves. -/
theorem value_remainder_firstColumn {n : ℕ} {a : StoredMatrix ℝ}
    (pivot : 0 < Entry.value (stored a 0 0)) {i j : ℕ} (hi : i < n) (hj : j < n) :
    Entry.value (stored (remainder n a (firstColumn n a (Entry.value (stored a 0 0)))) i j) =
      eliminated (fun i j => Entry.value (stored a i j)) i j := by
  rw [value_remainder hi hj, lower_firstColumn hi, lower_firstColumn hj, eliminated,
    div_mul_div_comm, Real.mul_self_sqrt pivot.le]

/-- What remains of a symmetric matrix is symmetric. -/
theorem value_remainder_comm {n : ℕ} {a : StoredMatrix ℝ}
    (symm : ∀ i j, i < n + 1 → j < n + 1 →
      Entry.value (stored a i j) = Entry.value (stored a j i)) (c : Column ℝ) {i j : ℕ} (hi : i < n)
    (hj : j < n) :
    Entry.value (stored (remainder n a c) i j) = Entry.value (stored (remainder n a c) j i) := by
  rw [value_remainder hi hj, value_remainder hj hi,
    symm (i + 1) (j + 1) (Nat.succ_lt_succ hi) (Nat.succ_lt_succ hj), mul_comm]

/-- A symmetric matrix has a factor exactly if it is positive definite. -/
theorem exists_factor_iff {accepts : ℝ → Bool}
    (positive : ∀ x, accepts x = true ↔ 0 < x) {n : ℕ} {a : StoredMatrix ℝ}
    (symm : ∀ i j, i < n → j < n → Entry.value (stored a i j) = Entry.value (stored a j i)) :
    (∃ columns, factor accepts n a = .ok columns) ↔
      PositiveDefinite n fun i j => Entry.value (stored a i j) := by
  induction n generalizing a with
  | zero => exact iff_of_true ⟨[], rfl⟩ fun v hv => absurd hv.choose_spec.1 (Nat.not_lt_zero _)
  | succ n ih =>
      rw [positiveDefinite_succ_iff fun k hk => symm 0 (k + 1) (Nat.succ_pos n) (Nat.succ_lt_succ hk)]
      have ih := ih (a := remainder n a (firstColumn n a (Entry.value (stored a 0 0))))
        fun i j hi hj => value_remainder_comm symm _ hi hj
      constructor
      · rintro ⟨columns, h⟩
        obtain ⟨haccepts, rest, hfactor, -⟩ := factor_succ_eq_ok h
        have hpivot := (positive _).mp haccepts
        refine ⟨hpivot, ?_⟩
        rw [← positiveDefinite_congr fun i j hi hj => value_remainder_firstColumn hpivot hi hj]
        exact ih.mp ⟨rest, hfactor⟩
      · rintro ⟨hpivot, hdefinite⟩
        rw [← positiveDefinite_congr fun i j hi hj => value_remainder_firstColumn hpivot hi hj]
          at hdefinite
        obtain ⟨rest, hfactor⟩ := ih.mpr hdefinite
        refine ⟨firstColumn n a (Entry.value (stored a 0 0)) :: rest, ?_⟩
        unfold factor
        simp only [(positive _).mpr hpivot, if_true, hfactor]

end Cholesky

/-! ### The damped normal matrix -/

namespace Jacobian

variable (j : Jacobian ℝ)

/-- The form of the damped normal matrix: the squared length of the image and, times the damping,
that of the vector. -/
theorem quadraticForm_gram (lambda : ℝ) (v : ℕ → ℝ) :
    quadraticForm j.stored.cols (j.gram lambda) v =
      ∑ r ∈ range j.stored.rows, (∑ i ∈ range j.stored.cols, j.slope r i * v i) ^ 2 +
        lambda * ∑ i ∈ range j.stored.cols, v i ^ 2 := by
  have hrow (r : ℕ) : (∑ i ∈ range j.stored.cols, j.slope r i * v i) ^ 2 =
      ∑ i ∈ range j.stored.cols, ∑ k ∈ range j.stored.cols,
        j.slope r i * j.slope r k * v i * v k := by
    rw [sq, sum_mul_sum]
    exact sum_congr rfl fun i _ => sum_congr rfl fun k _ => by ring
  have himage : ∑ i ∈ range j.stored.cols, ∑ k ∈ range j.stored.cols,
      (∑ r ∈ range j.stored.rows, j.slope r i * j.slope r k) * v i * v k =
        ∑ r ∈ range j.stored.rows, (∑ i ∈ range j.stored.cols, j.slope r i * v i) ^ 2 := by
    symm
    simp only [hrow]
    rw [sum_comm]
    apply sum_congr rfl
    intro i _
    rw [sum_comm]
    exact sum_congr rfl fun k _ => by rw [sum_mul, sum_mul]
  have hdiagonal : ∑ i ∈ range j.stored.cols, ∑ k ∈ range j.stored.cols,
      (if i = k then lambda else 0) * v i * v k = lambda * ∑ i ∈ range j.stored.cols, v i ^ 2 := by
    rw [mul_sum]
    apply sum_congr rfl
    intro i hi
    simp only [ite_mul, zero_mul, sum_ite_eq, hi, if_true]
    ring
  rw [← himage, ← hdiagonal, ← sum_add_distrib]
  apply sum_congr rfl
  intro i _
  rw [← sum_add_distrib]
  exact sum_congr rfl fun k _ => by rw [gram]; ring

/-- Positive damping makes the normal matrix positive definite. -/
theorem positiveDefinite_gram_of_pos {lambda : ℝ} (h : 0 < lambda) :
    PositiveDefinite j.stored.cols (j.gram lambda) := by
  rintro v ⟨i, hi, hne⟩
  rw [quadraticForm_gram]
  have himage : 0 ≤ ∑ r ∈ range j.stored.rows, (∑ i ∈ range j.stored.cols, j.slope r i * v i) ^ 2 :=
    sum_nonneg fun r _ => sq_nonneg _
  have hvector : 0 < ∑ i ∈ range j.stored.cols, v i ^ 2 :=
    sum_pos' (fun k _ => sq_nonneg (v k)) ⟨i, mem_range.mpr hi, sq_pos_of_ne_zero hne⟩
  exact add_pos_of_nonneg_of_pos himage (mul_pos h hvector)

/-- Without damping, the normal matrix is positive definite if only the zero vector is lost. -/
theorem positiveDefinite_gram_zero
    (injective : ∀ v : ℕ → ℝ,
      (∀ r, r < j.stored.rows → ∑ i ∈ range j.stored.cols, j.slope r i * v i = 0) →
        ∀ i, i < j.stored.cols → v i = 0) :
    PositiveDefinite j.stored.cols (j.gram 0) := by
  rintro v ⟨i, hi, hne⟩
  rw [quadraticForm_gram, zero_mul, add_zero]
  obtain ⟨r, hr, himage⟩ : ∃ r, r < j.stored.rows ∧
      ∑ i ∈ range j.stored.cols, j.slope r i * v i ≠ 0 := by
    by_contra hall
    push Not at hall
    exact hne (injective v hall i hi)
  exact sum_pos' (fun r _ => sq_nonneg _) ⟨r, mem_range.mpr hr, sq_pos_of_ne_zero himage⟩

end Jacobian

end TrustRegion
