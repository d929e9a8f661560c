/-
Module: TrustRegion.Proofs.Linear.Euclid
Purpose: Vectors as points of Euclidean space and Jacobians as linear maps between two of them, where
  nothing rounds. The products and lengths of the library are the inner products and norms there, and
  the damped normal equations say what an end of the path is against every direction.
Main exports: Vec.toEuclidean, Vec.normSq_eq_norm_sq, linearOf, Jacobian.linear,
  Jacobian.toEuclidean_mulVec, Linearization.Fits, Linearization.Newton.inner_eq
-/
import TrustRegion.Proofs.Linear.Request

namespace TrustRegion

open scoped RealInnerProductSpace

namespace Vec

variable {n : ℕ}

/-- The first `n` entries of a vector as a point of Euclidean space. -/
noncomputable def toEuclidean (n : ℕ) (v : Vec ℝ) : EuclideanSpace ℝ (Fin n) :=
  WithLp.toLp 2 fun i => v.entry i

@[simp] theorem toEuclidean_apply (v : Vec ℝ) (i : Fin n) : v.toEuclidean n i = v.entry i := rfl

theorem dot_eq_inner {a : Vec ℝ} (size : a.size = n) (b : Vec ℝ) :
    a.dot b = ⟪a.toEuclidean n, b.toEuclidean n⟫ := by
  rw [dot_eq, size, PiLp.inner_apply, Finset.sum_range]
  exact Finset.sum_congr rfl fun i _ => mul_comm _ _

theorem normSq_eq_norm_sq {v : Vec ℝ} (size : v.size = n) : v.normSq = ‖v.toEuclidean n‖ ^ 2 := by
  rw [normSq, dot_eq_inner size, real_inner_self_eq_norm_sq]

theorem norm_eq_norm {v : Vec ℝ} (size : v.size = n) : v.norm = ‖v.toEuclidean n‖ := by
  rw [norm_eq, normSq_eq_norm_sq size, Real.sqrt_sq (norm_nonneg _)]

/-- Vectors of one length are equal as soon as their points are. -/
theorem eq_of_toEuclidean_eq {v w : Vec ℝ} (hv : v.size = n) (hw : w.size = n)
    (h : v.toEuclidean n = w.toEuclidean n) : v = w := by
  apply ext_entry (hv.trans hw.symm)
  intro i hi
  exact congrArg (fun x => x ⟨i, hv ▸ hi⟩) h

/-! ### Vectors that are computed entry by entry -/

theorem toEuclidean_add {a : Vec ℝ} (size : a.size = n) (b : Vec ℝ) :
    (a.add b).toEuclidean n = a.toEuclidean n + b.toEuclidean n :=
  PiLp.ext fun i => entry_ofFn (size ▸ i.isLt)

theorem toEuclidean_sub {a : Vec ℝ} (size : a.size = n) (b : Vec ℝ) :
    (a.sub b).toEuclidean n = a.toEuclidean n - b.toEuclidean n :=
  PiLp.ext fun i => entry_ofFn (size ▸ i.isLt)

theorem toEuclidean_mul {v : Vec ℝ} (size : v.size = n) (t : ℝ) :
    (ofFn v.size fun i => v.entry i * t).toEuclidean n = t • v.toEuclidean n :=
  PiLp.ext fun i => (entry_ofFn (size ▸ i.isLt)).trans (mul_comm _ _)

theorem toEuclidean_add_mul {c : Vec ℝ} (size : c.size = n) (v : Vec ℝ) (t : ℝ) :
    (ofFn c.size fun i => c.entry i + t * v.entry i).toEuclidean n =
      c.toEuclidean n + t • v.toEuclidean n :=
  PiLp.ext fun i => entry_ofFn (size ▸ i.isLt)

theorem toEuclidean_eq_zero_iff {v : Vec ℝ} :
    v.toEuclidean n = 0 ↔ ∀ i, i < n → v.entry i = 0 :=
  ⟨fun h i hi => congrArg (fun x => x ⟨i, hi⟩) h, fun h => PiLp.ext fun i => h i i.isLt⟩

end Vec

/-- A table of coefficients with `m` rows and `n` columns as a linear map. -/
noncomputable def linearOf (m n : ℕ) (a : ℕ → ℕ → ℝ) :
    EuclideanSpace ℝ (Fin n) →L[ℝ] EuclideanSpace ℝ (Fin m) :=
  LinearMap.toContinuousLinearMap
    { toFun := fun v => WithLp.toLp 2 fun r => ∑ i : Fin n, a r i * v i
      map_add' := fun v w => PiLp.ext fun r => by
        simp only [PiLp.add_apply, mul_add, Finset.sum_add_distrib]
      map_smul' := fun t v => PiLp.ext fun r => by
        simp only [PiLp.smul_apply, smul_eq_mul, RingHom.id_apply, Finset.mul_sum]
        exact Finset.sum_congr rfl fun i _ => mul_left_comm _ _ _ }

@[simp] theorem linearOf_apply {m n : ℕ} (a : ℕ → ℕ → ℝ) (v : EuclideanSpace ℝ (Fin n))
    (r : Fin m) : linearOf m n a v r = ∑ i : Fin n, a r i * v i := rfl

/-- Only the coefficients of the table count. -/
theorem linearOf_congr {m n : ℕ} {a b : ℕ → ℕ → ℝ} (h : ∀ r i, r < m → i < n → a r i = b r i) :
    linearOf m n a = linearOf m n b := by
  ext v r
  rw [linearOf_apply, linearOf_apply]
  exact Finset.sum_congr rfl fun i _ => by rw [h r i r.isLt i.isLt]

namespace Jacobian

variable {m n : ℕ}

/-- A Jacobian of `m` rows and `n` columns as a linear map. -/
noncomputable def linear (m n : ℕ) (j : Jacobian ℝ) :
    EuclideanSpace ℝ (Fin n) →L[ℝ] EuclideanSpace ℝ (Fin m) :=
  linearOf m n j.slope

@[simp] theorem linear_apply (j : Jacobian ℝ) (v : EuclideanSpace ℝ (Fin n)) (r : Fin m) :
    j.linear m n v r = ∑ i : Fin n, j.slope r i * v i := rfl

variable {j : Jacobian ℝ}

/-- The Jacobian times a vector is the image of its point. -/
theorem toEuclidean_mulVec (rows : j.stored.rows = m) (cols : j.stored.cols = n) (v : Vec ℝ) :
    (StoredMatrix.mulVec j.stored v).toEuclidean m = j.linear m n (v.toEuclidean n) := by
  apply PiLp.ext
  intro r
  rw [Vec.toEuclidean_apply, entry_mulVec j v (rows ▸ r.isLt), cols, Finset.sum_range]
  rfl

/-- The transposed Jacobian is the adjoint map. -/
theorem inner_transposeMulVec (rows : j.stored.rows = m) (cols : j.stored.cols = n) (x : Vec ℝ)
    (u : EuclideanSpace ℝ (Fin n)) :
    ⟪(StoredMatrix.transposeMulVec j.stored x).toEuclidean n, u⟫ =
      ⟪x.toEuclidean m, j.linear m n u⟫ := by
  have hentry (i : Fin n) : (StoredMatrix.transposeMulVec j.stored x).toEuclidean n i =
      ∑ r : Fin m, j.slope r i * x.entry r := by
    rw [Vec.toEuclidean_apply, entry_transposeMulVec j x (cols ▸ i.isLt), rows, Finset.sum_range]
  rw [PiLp.inner_apply, PiLp.inner_apply]
  simp only [hentry, linear_apply, Vec.toEuclidean_apply, RCLike.inner_apply, conj_trivial,
    Finset.mul_sum, Finset.sum_mul]
  rw [Finset.sum_comm]
  exact Finset.sum_congr rfl fun r _ => Finset.sum_congr rfl fun i _ => by ring

/-- A row of the damped normal matrix times a vector. -/
theorem sum_gram_mul (rows : j.stored.rows = m) (lambda : ℝ) (s : EuclideanSpace ℝ (Fin n))
    (i : Fin n) :
    ∑ k : Fin n, j.gram lambda i k * s k =
      ∑ r : Fin m, j.slope r i * j.linear m n s r + lambda * s i := by
  have himage : ∑ k : Fin n, (∑ r : Fin m, j.slope r i * j.slope r k) * s k =
      ∑ r : Fin m, j.slope r i * j.linear m n s r := by
    simp only [linear_apply, Finset.mul_sum, Finset.sum_mul]
    rw [Finset.sum_comm]
    exact Finset.sum_congr rfl fun r _ => Finset.sum_congr rfl fun k _ => by ring
  have hdiagonal : ∑ k : Fin n, (if (i : ℕ) = k then lambda else 0) * s k = lambda * s i := by
    simp only [Fin.val_inj, ite_mul, zero_mul, Finset.sum_ite_eq, Finset.mem_univ, if_true]
  rw [← himage, ← hdiagonal, ← Finset.sum_add_distrib]
  apply Finset.sum_congr rfl
  intro k _
  rw [gram, rows, Finset.sum_range, add_mul]

end Jacobian

namespace Linearization

variable {m n : ℕ} {q : Linearization ℝ}

/-- The parts of a point have the sizes of one problem, and its gradient and its cost are computed
from the others. -/
structure Fits (m n : ℕ) (q : Linearization ℝ) : Prop where
  state : q.state.size = n
  residuals : q.residuals.size = m
  rows : q.jacobian.stored.rows = m
  cols : q.jacobian.stored.cols = n
  gradient : q.gradient = StoredMatrix.transposeMulVec q.jacobian.stored q.residuals
  cost : q.cost = q.residuals.normSq

theorem Fits.size_gradient (h : q.Fits m n) : q.gradient.size = n := by
  rw [h.gradient, StoredMatrix.size_transposeMulVec, h.cols]

/-- The gradient against a direction. -/
theorem Fits.inner_gradient (h : q.Fits m n) (u : EuclideanSpace ℝ (Fin n)) :
    ⟪q.gradient.toEuclidean n, u⟫ = ⟪q.residuals.toEuclidean m, q.jacobian.linear m n u⟫ := by
  rw [h.gradient, Jacobian.inner_transposeMulVec h.rows h.cols]

/-- What the damped normal equations say of the end of the path, against any direction. -/
theorem Newton.inner_eq {lambda : ℝ} {v : Vec ℝ} (h : q.Newton lambda v) (fits : q.Fits m n)
    (u : EuclideanSpace ℝ (Fin n)) :
    ⟪q.jacobian.linear m n (v.toEuclidean n), q.jacobian.linear m n u⟫ +
        lambda * ⟪v.toEuclidean n, u⟫ = -⟪q.gradient.toEuclidean n, u⟫ := by
  have hrow (i : Fin n) :
      ∑ r : Fin m, q.jacobian.slope r i * q.jacobian.linear m n (v.toEuclidean n) r +
        lambda * v.entry i = -q.gradient.entry i := by
    have hsolves := h.solves i (fits.cols ▸ i.isLt)
    rw [fits.cols, Finset.sum_range] at hsolves
    rw [← hsolves]
    exact (Jacobian.sum_gram_mul fits.rows lambda (v.toEuclidean n) i).symm
  have himage : ⟪q.jacobian.linear m n (v.toEuclidean n), q.jacobian.linear m n u⟫ =
      ∑ i : Fin n,
        (∑ r : Fin m, q.jacobian.slope r i * q.jacobian.linear m n (v.toEuclidean n) r) * u i := by
    rw [PiLp.inner_apply]
    simp only [RCLike.inner_apply, conj_trivial, Finset.sum_mul]
    rw [Finset.sum_comm]
    apply Finset.sum_congr rfl
    intro r _
    rw [Jacobian.linear_apply q.jacobian u r, Finset.sum_mul]
    exact Finset.sum_congr rfl fun i _ => by ring
  rw [himage, PiLp.inner_apply, PiLp.inner_apply, Finset.mul_sum, ← Finset.sum_add_distrib,
    ← Finset.sum_neg_distrib]
  apply Finset.sum_congr rfl
  intro i _
  simp only [RCLike.inner_apply, conj_trivial, Vec.toEuclidean_apply]
  rw [← mul_neg, ← hrow i]
  ring

end Linearization

end TrustRegion
