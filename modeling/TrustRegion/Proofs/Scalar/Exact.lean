/-
Module: TrustRegion.Proofs.Scalar.Exact
Purpose: The real numbers as a scalar type: every value is in range and nothing rounds. Over them
  the sums, products and lengths of the library are those of mathematics.
Main exports: instance Scalar ℝ, instance LawfulScalar ℝ, Scalar.total_eq, Vec.normSq_eq,
  Vec.norm_eq, Entry.value_total
-/
import Mathlib
import TrustRegion.Linear.StoredMatrix
import TrustRegion.Proofs.Scalar.Lawful

namespace TrustRegion

noncomputable instance : Scalar ℝ where
  sqrt := Real.sqrt
  abs x := |x|
  isFinite _ := true
  -- no real number is below every other, and only values out of range ask for one
  lowest := 0
  decidableLT := inferInstance
  decidableLE := inferInstance

instance : LawfulScalar ℝ where
  lt_irrefl := lt_irrefl
  lt_trans := lt_trans
  le_trans := le_trans
  le_of_lt := le_of_lt
  le_of_not_lt _ _ h := not_lt.mp h
  beq_self_of_le _ := ⟨beq_self_eq_true _, beq_self_eq_true _⟩
  lt_of_sub_pos := sub_pos.mp
  isFinite_zero := rfl
  beq_self_of_isFinite _ := beq_self_eq_true _
  isFinite_of_nonneg_of_le _ _ h := h
  isFinite_abs _ := rfl
  abs_nonneg _ := abs_nonneg _
  mul_nonneg ha hb _ := mul_nonneg ha (zero_le_one.trans hb.le)

namespace Scalar

theorem sqrt_eq (x : ℝ) : Scalar.sqrt x = Real.sqrt x := rfl

theorem abs_eq (x : ℝ) : Scalar.abs x = |x| := rfl

theorem total_eq (f : ℕ → ℝ) (n : ℕ) : total f n = ∑ i ∈ Finset.range n, f i := by
  induction n with
  | zero => exact neg_zero
  | succ n ih => rw [total_succ, ih, Finset.sum_range_succ]

theorem ofNat_eq (n : ℕ) : (Scalar.ofNat n : ℝ) = n := by
  rw [Scalar.ofNat, NNRatCast.ofScientific_eq_ite]
  simp

end Scalar

namespace Vec

theorem dot_eq (a b : Vec ℝ) : a.dot b = ∑ i ∈ Finset.range a.size, a.entry i * b.entry i := by
  rw [dot, Scalar.total_eq]

theorem normSq_eq (v : Vec ℝ) : v.normSq = ∑ i ∈ Finset.range v.size, v.entry i ^ 2 := by
  rw [normSq, dot_eq]
  exact Finset.sum_congr rfl fun i _ => (sq _).symm

theorem normSq_nonneg (v : Vec ℝ) : 0 ≤ v.normSq := by
  rw [normSq_eq]
  exact Finset.sum_nonneg fun i _ => sq_nonneg _

/-- Without rounding, scaling before squaring makes no difference. -/
theorem norm_eq (v : Vec ℝ) : v.norm = Real.sqrt v.normSq := by
  have hunit : (0 : ℝ) < scaleUnit := by
    have hpow : 0 < Nat.pow 2 511 := by decide +kernel
    rw [scaleUnit, Scalar.ofNat_eq]
    exact Nat.cast_pos.mpr hpow
  have hshrunk : Scalar.total (fun i => v.entry i / scaleUnit * (v.entry i / scaleUnit)) v.size =
      v.normSq / scaleUnit ^ 2 := by
    rw [Scalar.total_eq, normSq_eq, Finset.sum_div]
    exact Finset.sum_congr rfl fun i _ => by ring
  have hgrown : Scalar.total (fun i => v.entry i * scaleUnit * (v.entry i * scaleUnit)) v.size =
      v.normSq * scaleUnit ^ 2 := by
    rw [Scalar.total_eq, normSq_eq, Finset.sum_mul]
    exact Finset.sum_congr rfl fun i _ => by ring
  unfold norm
  rw [hshrunk, hgrown]
  dsimp only
  split
  · show Real.sqrt (v.normSq / scaleUnit ^ 2) * scaleUnit = Real.sqrt v.normSq
    rw [Real.sqrt_div v.normSq_nonneg, Real.sqrt_sq hunit.le, div_mul_cancel₀ _ hunit.ne']
  · split
    · rfl
    · show Real.sqrt (v.normSq * scaleUnit ^ 2) / scaleUnit = Real.sqrt v.normSq
      rw [Real.sqrt_mul v.normSq_nonneg, Real.sqrt_sq hunit.le, mul_div_cancel_right₀ _ hunit.ne']

end Vec

namespace Entry

/-! ### An absent entry adds nothing -/

@[simp] theorem value_none : value (none : Entry ℝ) = 0 := rfl

@[simp] theorem value_some (x : ℝ) : value (some x : Entry ℝ) = x := rfl

@[simp] theorem value_plus (a b : Entry ℝ) : value (plus a b) = value a + value b := by
  cases a <;> cases b <;> simp [plus]

@[simp] theorem value_minus (a b : Entry ℝ) : value (minus a b) = value a - value b := by
  cases a <;> cases b <;> simp [minus]

@[simp] theorem value_times (a b : Entry ℝ) : value (times a b) = value a * value b := by
  cases a <;> cases b <;> simp [times]

@[simp] theorem value_scale (a : Entry ℝ) (x : ℝ) : value (scale a x) = value a * x := by
  cases a <;> simp [scale]

@[simp] theorem value_total (f : ℕ → Entry ℝ) (n : ℕ) :
    value (total f n) = ∑ i ∈ Finset.range n, value (f i) := by
  induction n with
  | zero => rfl
  | succ n ih => rw [total, value_plus, ih, Finset.sum_range_succ]

end Entry

end TrustRegion
