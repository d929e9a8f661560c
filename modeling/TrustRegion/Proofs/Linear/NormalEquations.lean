/-
Module: TrustRegion.Proofs.Linear.NormalEquations
Purpose: What the normal equations are solved with, without rounding. A factorization is made exactly if
  the damped normal matrix is positive definite, and otherwise the first minor that is not positive is
  named. Once it is made there is one solution for every right-hand side, the inverse is symmetric with a
  positive diagonal, and the standard errors are the square roots of that diagonal.
Main exports: Jacobian.Definite.solution_unique, Jacobian.IsInverse.symm,
  Jacobian.IsInverse.diagonal_pos, CholeskySolver.standardErrors_of_pos,
  CholeskySolver.factorize_solves_normal_equations
-/
import TrustRegion.Proofs.Linear.Pivot

namespace TrustRegion

open Finset

namespace Jacobian

variable {j : Jacobian ℝ} {lambda : ℝ} {c : Matrix ℝ}

/-- The damped normal equations have one solution at most. -/
theorem Definite.solution_unique (h : j.Definite lambda) {rhs v w : Vec ℝ}
    (hv : j.Solves lambda rhs v) (hw : j.Solves lambda rhs w) : w = v := by
  apply Vec.ext_entry (hw.size.trans hv.size.symm)
  intro i hi
  rw [hw.size] at hi
  exact h.eq_of_sum_eq (fun k hk => (hw.equation k hk).trans (hv.equation k hk).symm) hi

/-- The inverse of the damped normal matrix is symmetric. -/
theorem IsInverse.symm (h : j.IsInverse lambda c) {i k : ℕ} (hi : i < j.stored.cols)
    (hk : k < j.stored.cols) : c.entry i k = c.entry k i := by
  -- a column of the inverse solves for a unit vector, and so does the row of the same number
  have hrow : ∑ l ∈ range j.stored.cols, c.entry i l *
      ∑ r ∈ range j.stored.cols, j.gram lambda l r * c.entry k r = c.entry i k := by
    calc ∑ l ∈ range j.stored.cols, c.entry i l *
            ∑ r ∈ range j.stored.cols, j.gram lambda l r * c.entry k r
        = ∑ l ∈ range j.stored.cols, c.entry i l * (if l = k then 1 else 0) := by
          apply sum_congr rfl
          intro l hl
          congr 1
          rw [← if_congr (eq_comm (a := k)) rfl rfl, ← h.left k l hk (mem_range.mp hl)]
          apply sum_congr rfl
          intro r _
          rw [gram_comm, mul_comm]
      _ = c.entry i k := sum_mul_ite _ hk
  rw [← hrow, sum_mul_sum_mul]
  calc ∑ r ∈ range j.stored.cols,
          (∑ l ∈ range j.stored.cols, c.entry i l * j.gram lambda l r) * c.entry k r
      = ∑ r ∈ range j.stored.cols, (if i = r then 1 else 0) * c.entry k r :=
        sum_congr rfl fun r hr => by rw [h.left i r hi (mem_range.mp hr)]
    _ = c.entry k i := by simp [hi]

/-- The inverse of a positive definite matrix has a positive diagonal. -/
theorem IsInverse.diagonal_pos (h : j.IsInverse lambda c) (definite : j.Definite lambda) {i : ℕ}
    (hi : i < j.stored.cols) : 0 < c.entry i i := by
  -- the entry is the form at the column of the inverse
  have hform : quadraticForm j.stored.cols (j.gram lambda) (fun k => c.entry k i) =
      c.entry i i := by
    rw [quadraticForm_eq_sum_mul]
    calc ∑ r ∈ range j.stored.cols, c.entry r i *
            ∑ k ∈ range j.stored.cols, j.gram lambda r k * c.entry k i
        = ∑ r ∈ range j.stored.cols, c.entry r i * (if r = i then 1 else 0) :=
          sum_congr rfl fun r hr => by rw [h.right r i (mem_range.mp hr) hi]
      _ = c.entry i i := sum_mul_ite _ hi
  rw [← hform]
  apply definite
  by_contra hzero
  push Not at hzero
  have hone := h.right i i hi hi
  rw [if_pos rfl, sum_eq_zero fun k hk => by rw [hzero k (mem_range.mp hk), mul_zero]] at hone
  exact zero_ne_one hone

end Jacobian

namespace CholeskySolver

variable {s s' : CholeskySolver ℝ} {j : Jacobian ℝ} {key : FactorizationKey ℝ} {lambda : ℝ}

/-- A request that is refused names the least leading minor that is not positive, if the Jacobian is
full. -/
theorem Takes.isLeast_of_error (h : s.Takes j) {error : LinearError ℝ}
    (failed : (LinearSolver.factorize s j key).value = (.error error, s')) :
    ∃ k, error = .notPositiveDefinite (pivotFault s.storage k) ∧
      IsLeast {k | k < j.stored.cols ∧ leadingMinor (k + 1) (j.gram key.lambda) ≤ 0} k := by
  cases factorizesTo_of_value failed with
  | mismatched kind => exact absurd h.kind kind
  | misanalysed kind size => exact absurd (h.admits.analysed h.kind key.lambda) size
  | @refused k kind size made =>
      have hleast := Cholesky.isLeast_of_factor_eq_error (acceptsPivot_iff _)
        (fun i k hi hk => by
          rw [value_normalMatrix j _ hi hk, value_normalMatrix j _ hk hi, Jacobian.gram_comm]) made
      refine ⟨k, rfl, ?_⟩
      convert hleast using 3 with i
      apply and_congr_right
      intro hi
      rw [leadingMinor_congr fun r c hr hc =>
        value_normalMatrix j key.lambda (i := r) (k := c) (by omega) (by omega)]

/-- A solver that takes a Jacobian factors it exactly if the damped normal matrix is positive
definite. -/
theorem Takes.exists_factorize_iff (h : s.Takes j) (key : FactorizationKey ℝ) :
    (∃ s', (LinearSolver.factorize s j key).value = (.ok (), s')) ↔ j.Definite key.lambda := by
  rcases h.admits.factorize_exact h.kind key with
    ⟨hdefinite, s', -, hvalue⟩ | ⟨hnot, fault, s', -, hvalue⟩
  · exact iff_of_true ⟨s', hvalue⟩ hdefinite
  · refine iff_of_false ?_ hnot
    rintro ⟨s'', hok⟩
    rw [hvalue] at hok
    cases hok

/-- A factorization that is held finds the one solution for every right-hand side of its size. -/
theorem Holds.solve_eq (h : s.Holds j lambda) {rhs : Vec ℝ} (size : rhs.size = j.stored.cols) :
    ∃ v, (LinearSolver.solve s rhs).value = .ok v ∧ j.Solves lambda rhs v ∧
      ∀ w, j.Solves lambda rhs w → w = v := by
  obtain ⟨columns, -, hfactor, -⟩ := h.factor
  have hsolves := h.solves hfactor rhs
  refine ⟨Cholesky.solve columns rhs, ?_, hsolves,
    fun w hw => h.definite.solution_unique hsolves hw⟩
  show (s.solve rhs).value = _
  unfold CholeskySolver.solve
  simp only [hfactor, h.states, size, ne_eq, not_true, if_false]
  rfl

/-- The inverse for what is held, known or not, is that of its damped normal matrix. -/
theorem Serves.covariance_eq (h : s.Serves j key) :
    ∃ c, (LinearSolver.covariance s).1 = some c ∧ j.IsInverse key.lambda c := by
  obtain ⟨columns, -, hfactor, -⟩ := h.holds.factor
  refine ⟨Cholesky.inverse columns, ?_, h.holds.isInverse hfactor⟩
  show s.covariance.1 = _
  rw [h.covariance.1, hfactor]
  rfl

/-- Where the inverse has a positive diagonal, the standard errors are its square roots. -/
theorem standardErrors_of_pos {c : Matrix ℝ} (known : (LinearSolver.covariance s).1 = some c)
    (positive : ∀ i, i < c.cols → 0 < c.entry i i) :
    ∃ v : Vec ℝ, s.standardErrors.1 = some v ∧ v.size = c.cols ∧
      ∀ i, i < c.cols → 0 < v.entry i ∧ v.entry i ^ 2 = c.entry i i := by
  have hknown : s.covariance.1 = some c := known
  have hall : ((List.range c.cols).any fun i => decide (c.entry i i < 0)) = false := by
    rw [List.any_eq_false]
    intro i hi
    rw [decide_eq_true_eq, not_lt]
    exact (positive i (List.mem_range.mp hi)).le
  refine ⟨Vec.ofFn c.cols fun i => Scalar.sqrt (c.entry i i), ?_, Vec.size_ofFn _ _, ?_⟩
  · unfold standardErrors
    simp only [hknown, hall, Bool.false_eq_true, if_false]
  · intro i hi
    rw [Vec.entry_ofFn hi, Scalar.sqrt_eq]
    exact ⟨Real.sqrt_pos.mpr (positive i hi), Real.sq_sqrt (positive i hi).le⟩

/-- Solving the normal equations. A solver that takes a Jacobian factors it exactly if the damped normal
matrix is positive definite, in whichever order the states are eliminated. A request that is refused
names, for a full Jacobian, the least leading minor that is not positive. After one that succeeds every
right-hand side of the right size has its one solution, which is the same in every order; the covariance
is the inverse, symmetric with a positive diagonal; and the standard errors are positive and their
squares are that diagonal. -/
theorem factorize_solves_normal_equations (takes : s.Takes j) (key : FactorizationKey ℝ) :
    ((∃ s', (LinearSolver.factorize s j key).value = (.ok (), s')) ↔ j.Definite key.lambda) ∧
    (∀ error s', (LinearSolver.factorize s j key).value = (.error error, s') →
      (s.storage = .sparse → error = .notPositiveDefinite .sparse) ∧
      (s.storage = .dense → ∃ k, error = .notPositiveDefinite (.full k) ∧
        IsLeast {k | k < j.stored.cols ∧ leadingMinor (k + 1) (j.gram key.lambda) ≤ 0} k)) ∧
    (∀ order inBlocks, Reorders j.stored.cols order →
      ((∃ columns, Cholesky.factor (acceptsPivot inBlocks) j.stored.cols
        ((normalMatrix j key.lambda).reordered order) = .ok columns) ↔ j.Definite key.lambda)) ∧
    ∀ s', (LinearSolver.factorize s j key).value = (.ok (), s') →
      (∀ rhs : Vec ℝ, rhs.size = j.stored.cols →
        ∃ v, (LinearSolver.solve s' rhs).value = .ok v ∧ j.Solves key.lambda rhs v ∧
          (∀ w, j.Solves key.lambda rhs w → w = v) ∧
          ∀ order inBlocks columns, Reorders j.stored.cols order →
            Cholesky.factor (acceptsPivot inBlocks) j.stored.cols
              ((normalMatrix j key.lambda).reordered order) = .ok columns →
            ∀ i, i < j.stored.cols →
              (Cholesky.solve columns (rhs.reordered order)).entry i = v.entry (order i)) ∧
      ∃ c, (LinearSolver.covariance s').1 = some c ∧ j.IsInverse key.lambda c ∧
        (∀ i k, i < j.stored.cols → k < j.stored.cols → c.entry i k = c.entry k i) ∧
        (∀ i, i < j.stored.cols → 0 < c.entry i i) ∧
        ∃ errors, s'.standardErrors.1 = some errors ∧ errors.size = j.stored.cols ∧
          ∀ i, i < j.stored.cols →
            0 < errors.entry i ∧ errors.entry i ^ 2 = c.entry i i := by
  refine ⟨takes.exists_factorize_iff key, ?_, ?_, ?_⟩
  · intro error s' failed
    obtain ⟨k, rfl, hleast⟩ := takes.isLeast_of_error failed
    constructor
    · intro hsparse
      rw [hsparse]
      rfl
    · intro hdense
      rw [hdense]
      exact ⟨k, rfl, hleast⟩
  · intro order inBlocks reorders
    exact exists_factor_reordered_iff reorders
  · intro s' made
    have hserves := (factorizesTo_of_value made).serves
    constructor
    · intro rhs size
      obtain ⟨v, hsolve, hsolves, hunique⟩ := hserves.holds.solve_eq size
      refine ⟨v, hsolve, hsolves, hunique, ?_⟩
      intro order inBlocks columns reorders factored i hi
      exact entry_solve_reordered reorders factored size hsolves hi
    · obtain ⟨c, hcovariance, hinverse⟩ := hserves.covariance_eq
      have hpositive (i : ℕ) (hi : i < j.stored.cols) :=
        hinverse.diagonal_pos hserves.holds.definite hi
      refine ⟨c, hcovariance, hinverse, fun i k hi hk => hinverse.symm hi hk, hpositive, ?_⟩
      obtain ⟨errors, herrors, hsize, hroots⟩ :=
        standardErrors_of_pos hcovariance fun i hi => hpositive i (hinverse.cols ▸ hi)
      rw [hinverse.cols] at hsize hroots
      exact ⟨errors, herrors, hsize, hroots⟩

/-- One measurement, of the first of two states. -/
noncomputable def firstOfTwo : Jacobian ℝ :=
  .dense (Matrix.ofFn 1 2 fun _ k => if k = 0 then 1 else 0)

theorem gram_firstOfTwo (lambda : ℝ) {i k : ℕ} (hi : i < 2) (hk : k < 2) :
    firstOfTwo.gram lambda i k =
      (if i = 0 then 1 else 0) * (if k = 0 then 1 else 0) + if i = k then lambda else 0 := by
  have hslope {c : ℕ} (hc : c < 2) : firstOfTwo.slope 0 c = if c = 0 then 1 else 0 := by
    show Entry.value (StoredMatrix.stored (StoredMatrix.ofFull (Matrix.ofFn 1 2 _)) 0 c) = _
    rw [StoredMatrix.stored_ofFull, Matrix.cell?_ofFn Nat.one_pos hc]
    rfl
  show ∑ r ∈ range 1, firstOfTwo.slope r i * firstOfTwo.slope r k + _ = _
  rw [sum_range_one, hslope hi, hslope hk]

/-- Without damping the second minor is the first that is not positive. -/
theorem isLeast_firstOfTwo :
    IsLeast {k | k < 2 ∧ leadingMinor (k + 1) (firstOfTwo.gram 0) ≤ 0} 1 := by
  constructor
  · refine ⟨Nat.one_lt_two, ?_⟩
    unfold leadingMinor
    rw [Matrix.det_fin_two]
    simp [gram_firstOfTwo]
  · rintro k ⟨-, hminor⟩
    by_contra hk
    rw [Nat.lt_one_iff.mp (not_le.mp hk), zero_add, leadingMinor_one,
      gram_firstOfTwo 0 Nat.two_pos Nat.two_pos] at hminor
    simp at hminor
    linarith

/-- Nothing is measured of the second state. -/
theorem not_definite_firstOfTwo : ¬ firstOfTwo.Definite 0 := by
  intro hdefinite
  have hcols : firstOfTwo.stored.cols = 2 := rfl
  have hpos := hdefinite (fun k => if k = 1 then 1 else 0)
    ⟨1, Nat.one_lt_two, by rw [if_pos rfl]; exact one_ne_zero⟩
  simp only [quadraticForm_eq_sum_mul, hcols, sum_range_succ, sum_range_zero,
    gram_firstOfTwo 0 Nat.one_lt_two Nat.one_lt_two] at hpos
  simp at hpos

/-- Without damping the second pivot is refused there. With a damping of one the equations are
solved. -/
theorem solves_normal_equations_firstOfTwo :
    (∃ s' : CholeskySolver ℝ,
      (LinearSolver.factorize (CholeskySolver.new .dense) firstOfTwo ⟨0, 0⟩).value =
        (.error (.notPositiveDefinite (.full 1)), s')) ∧
    ∃ (s' : CholeskySolver ℝ) (v : Vec ℝ),
      (LinearSolver.factorize (CholeskySolver.new .dense) firstOfTwo ⟨0, 1⟩).value =
        (.ok (), s') ∧
      (LinearSolver.solve s' (Vec.unit 2 0)).value = .ok v ∧ 2 * v.entry 0 = 1 := by
  constructor
  · obtain ⟨hiff, hrefused, -⟩ := factorize_solves_normal_equations (takes_new firstOfTwo) ⟨0, 0⟩
    cases hvalue : (LinearSolver.factorize (CholeskySolver.new .dense : CholeskySolver ℝ) firstOfTwo
      ⟨0, 0⟩).value with
    | mk answer s' =>
        cases answer with
        | ok => exact absurd (hiff.mp ⟨s', hvalue⟩) not_definite_firstOfTwo
        | error error =>
            obtain ⟨k, rfl, hleast⟩ := (hrefused error s' hvalue).2 rfl
            have hfirst : k = 1 := hleast.unique isLeast_firstOfTwo
            exact ⟨s', by rw [hfirst]⟩
  · obtain ⟨hiff, -, -, hmade⟩ := factorize_solves_normal_equations (takes_new firstOfTwo) ⟨0, 1⟩
    obtain ⟨s', hvalue⟩ := hiff.mpr (firstOfTwo.positiveDefinite_gram_of_pos one_pos)
    obtain ⟨v, hsolve, hsolves, -⟩ := (hmade s' hvalue).1 (Vec.unit 2 0) (Vec.size_ofFn _ _)
    refine ⟨s', v, hvalue, hsolve, ?_⟩
    have hcols : firstOfTwo.stored.cols = 2 := rfl
    have hequation := hsolves.equation 0 Nat.two_pos
    rw [hcols, sum_range_succ, sum_range_one, gram_firstOfTwo 1 Nat.two_pos Nat.two_pos,
      gram_firstOfTwo 1 Nat.two_pos Nat.one_lt_two, Vec.unit, Vec.entry_ofFn Nat.two_pos,
      if_pos rfl] at hequation
    norm_num at hequation
    exact hequation

end CholeskySolver

end TrustRegion
