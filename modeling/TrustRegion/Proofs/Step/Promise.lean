/-
Module: TrustRegion.Proofs.Step.Promise
Purpose: What the linear model promises for a step, without rounding. It promises the difference of the
  squared lengths of the residuals and of what the step leaves of them, and for every step on the path
  from a point with a gradient that is positive.
Main exports: LinearModel, LinearModel.promise_eq, LinearModel.cauchy, LinearModel.Newton,
  LinearModel.promise_clipped, LinearModel.promise_newton_pos, LinearModel.promise_between_pos,
  Linearization.Fits.model, cauchyVector_exact, predictedImprovement_exact, promise_blend_pos
-/
import TrustRegion.Proofs.Linear.Euclid
import TrustRegion.Proofs.Step.Region

namespace TrustRegion

open scoped RealInnerProductSpace

/-! ### The linear model -/

/-- Residuals that change linearly with the state, and half the gradient of their squared length. -/
structure LinearModel (E F : Type*) [NormedAddCommGroup E] [InnerProductSpace ℝ E]
    [NormedAddCommGroup F] [InnerProductSpace ℝ F] where
  map : E →L[ℝ] F
  residuals : F
  gradient : E
  adjoint : ∀ u, ⟪gradient, u⟫ = ⟪residuals, map u⟫

namespace LinearModel

variable {E F : Type*} [NormedAddCommGroup E] [InnerProductSpace ℝ E] [NormedAddCommGroup F]
  [InnerProductSpace ℝ F] (M : LinearModel E F)

/-- The improvement that is promised for an update: how much shorter the squared residuals become if
they change as the model says. -/
noncomputable def promise (u : E) : ℝ :=
  ‖M.residuals‖ ^ 2 - ‖M.residuals + M.map u‖ ^ 2

/-- The lowest point of the model along the negative gradient. -/
noncomputable def cauchy : E :=
  -(‖M.gradient‖ ^ 2 / ‖M.map M.gradient‖ ^ 2) • M.gradient

/-- A lowest point of the damped model. -/
def Newton (lambda : ℝ) (s : E) : Prop :=
  ∀ u, ⟪M.map s, M.map u⟫ + lambda * ⟪s, u⟫ = -⟪M.gradient, u⟫

/-- The promise in terms of the gradient and the image of the update. -/
theorem promise_eq (u : E) : M.promise u = -2 * ⟪M.gradient, u⟫ - ‖M.map u‖ ^ 2 := by
  rw [promise, M.adjoint, norm_add_sq_real]
  ring

variable {M}

/-- A gradient that does not vanish is not lost by the map. -/
theorem map_gradient_ne_zero (h : M.gradient ≠ 0) : M.map M.gradient ≠ 0 := by
  intro hzero
  have hinner := M.adjoint M.gradient
  rw [hzero, inner_zero_right] at hinner
  exact h (inner_self_eq_zero.mp hinner)

theorem ratio_pos (h : M.gradient ≠ 0) : 0 < ‖M.gradient‖ ^ 2 / ‖M.map M.gradient‖ ^ 2 :=
  div_pos (pow_pos (norm_pos_iff.mpr h) 2) (pow_pos (norm_pos_iff.mpr (map_gradient_ne_zero h)) 2)

theorem cauchy_ne_zero (h : M.gradient ≠ 0) : M.cauchy ≠ 0 := by
  rw [cauchy]
  exact smul_ne_zero (neg_ne_zero.mpr (ratio_pos h).ne') h

theorem norm_cauchy : ‖M.cauchy‖ = ‖M.gradient‖ ^ 2 / ‖M.map M.gradient‖ ^ 2 * ‖M.gradient‖ := by
  rw [cauchy, norm_smul, norm_neg, Real.norm_of_nonneg (by positivity)]

/-- The promise for a part of the first leg. -/
theorem promise_smul_cauchy (h : M.gradient ≠ 0) (t : ℝ) :
    M.promise (t • M.cauchy) = t * (2 - t) * (‖M.cauchy‖ * ‖M.gradient‖) := by
  have himage : ‖M.map M.gradient‖ ≠ 0 := norm_ne_zero_iff.mpr (map_gradient_ne_zero h)
  rw [norm_cauchy, promise_eq, cauchy, map_smul, map_smul, norm_smul, norm_smul, inner_smul_right,
    inner_smul_right, real_inner_self_eq_norm_sq, mul_pow, mul_pow, norm_neg, Real.norm_eq_abs,
    Real.norm_eq_abs, sq_abs, sq_abs]
  field_simp

/-- A part of the first leg promises at least its length times that of the gradient. -/
theorem promise_clipped (h : M.gradient ≠ 0) {t : ℝ} (nonneg : 0 ≤ t) (le_one : t ≤ 1) :
    t * ‖M.cauchy‖ * ‖M.gradient‖ ≤ M.promise (t • M.cauchy) := by
  rw [promise_smul_cauchy h]
  have hlengths : 0 ≤ ‖M.cauchy‖ * ‖M.gradient‖ := by positivity
  nlinarith [mul_nonneg (mul_nonneg nonneg (sub_nonneg.mpr le_one)) hlengths]

/-- The whole first leg promises the squared length of its image. -/
theorem promise_cauchy (h : M.gradient ≠ 0) : M.promise M.cauchy = ‖M.map M.cauchy‖ ^ 2 := by
  have himage : ‖M.map M.gradient‖ ≠ 0 := norm_ne_zero_iff.mpr (map_gradient_ne_zero h)
  have hwhole := promise_smul_cauchy h 1
  rw [one_smul] at hwhole
  rw [hwhole, norm_cauchy, cauchy, map_smul, norm_smul, norm_neg, Real.norm_eq_abs, mul_pow, sq_abs]
  field_simp
  ring

/-- The promise for the end of the path. -/
theorem promise_newton {lambda : ℝ} {s : E} (h : M.Newton lambda s) :
    M.promise s = ‖M.map s‖ ^ 2 + 2 * lambda * ‖s‖ ^ 2 := by
  have hself := h s
  rw [real_inner_self_eq_norm_sq, real_inner_self_eq_norm_sq] at hself
  rw [promise_eq]
  linarith

/-- The end of the path is not where it begins. -/
theorem Newton.ne_zero {lambda : ℝ} {s : E} (h : M.Newton lambda s) (gradient : M.gradient ≠ 0) :
    s ≠ 0 := by
  rintro rfl
  have hself := h M.gradient
  rw [map_zero, inner_zero_left, inner_zero_left, mul_zero, add_zero, zero_eq_neg] at hself
  exact gradient (inner_self_eq_zero.mp hself)

theorem promise_newton_pos {lambda : ℝ} (nonneg : 0 ≤ lambda) {s : E} (h : M.Newton lambda s)
    (gradient : M.gradient ≠ 0) : 0 < M.promise s := by
  rw [promise_newton h]
  rcases nonneg.eq_or_lt with rfl | hpos
  · -- without damping, a step whose image vanishes solves for no gradient
    have himage : M.map s ≠ 0 := by
      intro hzero
      have hself := h M.gradient
      rw [hzero, inner_zero_left, zero_mul, add_zero, zero_eq_neg] at hself
      exact gradient (inner_self_eq_zero.mp hself)
    have hsquare := pow_pos (norm_pos_iff.mpr himage) 2
    linarith
  · have hsquare := mul_pos hpos (pow_pos (norm_pos_iff.mpr (h.ne_zero gradient)) 2)
    have himage := sq_nonneg ‖M.map s‖
    linarith

/-- Between two points the promise is at least the blend of theirs. -/
theorem promise_between (c s : E) (t : ℝ) :
    M.promise (c + t • (s - c)) =
      (1 - t) * M.promise c + t * M.promise s + t * (1 - t) * ‖M.map (s - c)‖ ^ 2 := by
  have himage : M.map (c + t • (s - c)) = M.map c + t • M.map (s - c) := by
    rw [map_add, map_smul]
  have hs : M.map s = M.map c + M.map (s - c) := by
    rw [← map_add, add_sub_cancel]
  have hc : ‖M.map c + t • M.map (s - c)‖ ^ 2 =
      ‖M.map c‖ ^ 2 + 2 * (t * ⟪M.map c, M.map (s - c)⟫) + t ^ 2 * ‖M.map (s - c)‖ ^ 2 := by
    rw [norm_add_sq_real, inner_smul_right, norm_smul, mul_pow, Real.norm_eq_abs, sq_abs]
  rw [promise_eq, promise_eq, promise_eq, himage, hc, hs, norm_add_sq_real, inner_add_right,
    inner_smul_right, inner_sub_right]
  ring

theorem promise_between_pos {c s : E} {t : ℝ} (hc : 0 < M.promise c) (hs : 0 < M.promise s)
    (nonneg : 0 ≤ t) (le_one : t ≤ 1) : 0 < M.promise (c + t • (s - c)) := by
  rw [promise_between]
  have hbetween := mul_nonneg (mul_nonneg nonneg (sub_nonneg.mpr le_one))
    (sq_nonneg ‖M.map (s - c)‖)
  have hfirst := mul_nonneg (sub_nonneg.mpr le_one) hc.le
  rcases nonneg.eq_or_lt with rfl | hpos
  · linarith
  · have hsecond := mul_pos hpos hs
    linarith

/-- No update promises more than the residuals have. -/
theorem promise_le (u : E) : M.promise u ≤ ‖M.residuals‖ ^ 2 := by
  rw [promise]
  linarith [sq_nonneg ‖M.residuals + M.map u‖]

/-- Without damping, nothing of the residuals that are left at the end of the path is seen by the
map. -/
theorem Newton.inner_left {s : E} (h : M.Newton 0 s) (u : E) :
    ⟪M.residuals + M.map s, M.map u⟫ = 0 := by
  have hsolves := h u
  rw [zero_mul, add_zero] at hsolves
  rw [inner_add_left, ← M.adjoint, hsolves, add_neg_cancel]

/-- Without damping, a model whose residuals are those left at the end of the path has no gradient. -/
theorem Newton.gradient_eq_zero {s : E} (h : M.Newton 0 s) {M' : LinearModel E F}
    (map : M'.map = M.map) (residuals : M'.residuals = M.residuals + M.map s) :
    M'.gradient = 0 := by
  have hself := M'.adjoint M'.gradient
  rw [map, residuals, h.inner_left] at hself
  exact inner_self_eq_zero.mp hself

/-- The image of the first leg is no longer than the residuals. -/
theorem norm_map_cauchy_le (h : M.gradient ≠ 0) : ‖M.map M.cauchy‖ ≤ ‖M.residuals‖ := by
  have hle := M.promise_le M.cauchy
  rw [promise_cauchy h] at hle
  exact le_of_sq_le_sq hle (norm_nonneg _)

/-- Without damping, the image of the end of the path is no longer than the residuals. -/
theorem Newton.norm_map_le {s : E} (h : M.Newton 0 s) : ‖M.map s‖ ≤ ‖M.residuals‖ := by
  have hle := M.promise_le s
  rw [promise_newton h, mul_zero, zero_mul, add_zero] at hle
  exact le_of_sq_le_sq hle (norm_nonneg _)

end LinearModel

/-! ### The model at a point -/

section Point

variable {m n : ℕ} {q : Linearization ℝ} {s : CholeskySolver ℝ}

/-- The linear model at a point. -/
noncomputable def Linearization.Fits.model (h : q.Fits m n) :
    LinearModel (EuclideanSpace ℝ (Fin n)) (EuclideanSpace ℝ (Fin m)) where
  map := q.jacobian.linear m n
  residuals := q.residuals.toEuclidean m
  gradient := q.gradient.toEuclidean n
  adjoint := h.inner_gradient

/-- The end of the first leg from a point, as a vector. -/
structure Linearization.Fits.CauchyEnd (h : q.Fits m n) (v : Vec ℝ) : Prop where
  size : v.size = n
  point : v.toEuclidean n = h.model.cauchy

theorem Linearization.Fits.CauchyEnd.eq {h : q.Fits m n} {v w : Vec ℝ} (hv : h.CauchyEnd v)
    (hw : h.CauchyEnd w) : v = w :=
  Vec.eq_of_toEuclidean_eq hv.size hw.size (hv.point.trans hw.point.symm)

theorem Linearization.Newton.newton_model {lambda : ℝ} {v : Vec ℝ} (h : q.Newton lambda v)
    (fits : q.Fits m n) : fits.model.Newton lambda (v.toEuclidean n) :=
  h.inner_eq fits

/-- The end of the first leg is computed, and is the lowest point of the model along the negative
gradient. -/
theorem cauchyVector_exact (fits : q.Fits m n) (kind : q.jacobian.storage = s.storage) :
    ∃ v, (cauchyVector s q).value = .ok v ∧ fits.CauchyEnd v := by
  have hsize := fits.size_gradient
  have hgradientSq : q.gradient.normSq = ‖fits.model.gradient‖ ^ 2 := Vec.normSq_eq_norm_sq hsize
  have hcols : q.gradient.size = q.jacobian.stored.cols := hsize.trans fits.cols.symm
  unfold cauchyVector
  by_cases hgradient : fits.model.gradient = 0
  · have hzero : (q.gradient.normSq == 0) = true := by
      rw [hgradientSq, hgradient, norm_zero, zero_pow two_ne_zero]
      exact beq_self_eq_true 0
    simp only [hzero, if_true]
    refine ⟨_, rfl, (Vec.size_zeros _).trans hsize, ?_⟩
    rw [LinearModel.cauchy, hgradient, smul_zero]
    exact Vec.toEuclidean_eq_zero_iff.mpr fun i hi => Vec.entry_ofFn (hsize ▸ hi)
  · have himage : (StoredMatrix.mulVec q.jacobian.stored q.gradient).normSq =
        ‖fits.model.map fits.model.gradient‖ ^ 2 := by
      rw [Vec.normSq_eq_norm_sq ((StoredMatrix.size_mulVec _ _).trans fits.rows),
        Jacobian.toEuclidean_mulVec fits.rows fits.cols]
      rfl
    have hgradientNe : (q.gradient.normSq == 0) = false := by
      rw [hgradientSq]
      exact beq_eq_false_iff_ne.mpr (pow_ne_zero 2 (norm_ne_zero_iff.mpr hgradient))
    have himageNe : ((StoredMatrix.mulVec q.jacobian.stored q.gradient).normSq == 0) = false := by
      rw [himage]
      exact beq_eq_false_iff_ne.mpr
        (pow_ne_zero 2 (norm_ne_zero_iff.mpr (LinearModel.map_gradient_ne_zero hgradient)))
    simp only [hgradientNe, Bool.false_eq_true, if_false, Logged.value_bind,
      CholeskySolver.jacobianMul_eq kind hcols, himageNe, Logged.value_pure]
    refine ⟨_, rfl, (Vec.size_ofFn _ _).trans hsize, PiLp.ext fun i => ?_⟩
    rw [Vec.toEuclidean_apply, Vec.entry_ofFn (hsize ▸ i.isLt), hgradientSq, himage]
    rfl

/-- What is predicted is what the model promises. -/
theorem predictedImprovement_exact (fits : q.Fits m n) (kind : q.jacobian.storage = s.storage)
    {u : Vec ℝ} (size : u.size = n) :
    (predictedImprovement s q u).value = .ok (fits.model.promise (u.toEuclidean n)) := by
  have hcols : u.size = q.jacobian.stored.cols := size.trans fits.cols.symm
  have himage : (StoredMatrix.mulVec q.jacobian.stored u).normSq =
      ‖fits.model.map (u.toEuclidean n)‖ ^ 2 := by
    rw [Vec.normSq_eq_norm_sq ((StoredMatrix.size_mulVec _ _).trans fits.rows),
      Jacobian.toEuclidean_mulVec fits.rows fits.cols]
    rfl
  unfold predictedImprovement
  simp only [Logged.value_bind, CholeskySolver.jacobianMul_eq kind hcols, Logged.value_pure]
  have htwo : (-2.0 : ℝ) = -2 := by norm_num
  rw [himage, Vec.dot_eq_inner fits.size_gradient, LinearModel.promise_eq]
  exact congrArg (fun x => Except.ok (x * _ - _)) htwo

end Point

/-! ### What the steps promise -/

section Steps

variable {m n : ℕ} {q : Linearization ℝ} {fits : q.Fits m n} {v : Vec ℝ} {radius : ℝ}

theorem normSq_ofVec (size : v.size = n) : (Leg.ofVec v).normSq = ‖v.toEuclidean n‖ ^ 2 :=
  Vec.normSq_eq_norm_sq size

/-- The first leg cut off at the radius is a part of it. -/
theorem toEuclidean_clipped (h : fits.CauchyEnd v) (radius : ℝ) :
    (Step.clipped (Leg.ofVec v) radius).update.size = n ∧
      (Step.clipped (Leg.ofVec v) radius).update.toEuclidean n =
        (radius / ‖fits.model.cauchy‖) • fits.model.cauchy := by
  constructor
  · exact (Vec.size_ofFn _ _).trans h.size
  · have hscale : radius / Scalar.sqrt (Leg.ofVec v).normSq = radius / ‖fits.model.cauchy‖ := by
      rw [normSq_ofVec h.size, h.point, Scalar.sqrt_eq, Real.sqrt_sq (norm_nonneg _)]
    unfold Step.clipped
    rw [hscale, ← h.point]
    exact Vec.toEuclidean_mul h.size _

/-- The first leg cut off promises at least the radius times the length of the gradient. -/
theorem promise_clipped_ge (h : fits.CauchyEnd v) (gradient : fits.model.gradient ≠ 0)
    (hradius : 0 < radius) (reaches : radius * radius ≤ (Leg.ofVec v).normSq) :
    radius * ‖fits.model.gradient‖ ≤
      fits.model.promise ((Step.clipped (Leg.ofVec v) radius).update.toEuclidean n) := by
  have hlength : 0 < ‖fits.model.cauchy‖ :=
    norm_pos_iff.mpr (LinearModel.cauchy_ne_zero gradient)
  have hreaches : radius ≤ ‖fits.model.cauchy‖ := by
    rw [normSq_ofVec h.size, h.point, ← sq] at reaches
    exact le_of_sq_le_sq reaches hlength.le
  have hpromise := LinearModel.promise_clipped gradient (div_pos hradius hlength).le
    ((div_le_one hlength).mpr hreaches)
  rw [div_mul_cancel₀ _ hlength.ne'] at hpromise
  rw [(toEuclidean_clipped h radius).2]
  exact hpromise

/-- The fraction of the second leg lies between none and all of it. -/
theorem legFraction_mem (cauchy : Leg ℝ) (w : Vec ℝ) (radiusSq : ℝ) :
    0 ≤ legFraction cauchy w radiusSq ∧ legFraction cauchy w radiusSq ≤ 1 := by
  have hclamp (x : ℝ) : 0 ≤ Scalar.clamp 0 1 x ∧ Scalar.clamp 0 1 x ≤ 1 := by
    unfold Scalar.clamp
    split
    · exact ⟨le_rfl, zero_le_one⟩
    · split
      · exact ⟨zero_le_one, le_rfl⟩
      · exact ⟨not_lt.mp ‹_›, not_lt.mp ‹_›⟩
  exact hclamp _

/-- Every blend of the two legs promises an improvement. -/
theorem promise_blend_pos (h : fits.CauchyEnd v) {lambda : ℝ} (nonneg : 0 ≤ lambda) {w : Vec ℝ}
    (newton : q.Newton lambda w) (gradient : fits.model.gradient ≠ 0) (hradius : 0 < radius) :
    0 < fits.model.promise ((blend (Leg.ofVec v) (Leg.ofVec w) radius).update.toEuclidean n) := by
  have hsize : w.size = n := newton.size.trans fits.cols
  have hnewton := LinearModel.promise_newton_pos nonneg (newton.newton_model fits) gradient
  unfold blend
  dsimp only
  split
  · exact hnewton
  · split
    · rename_i hreaches
      have hge := promise_clipped_ge h gradient hradius hreaches
      have hpos := mul_pos hradius (norm_pos_iff.mpr gradient)
      exact lt_of_lt_of_le hpos hge
    · have hcauchy : 0 < fits.model.promise fits.model.cauchy := by
        have hpart := LinearModel.promise_clipped gradient zero_le_one le_rfl
        rw [one_mul, one_smul] at hpart
        have hlengths := mul_pos (norm_pos_iff.mpr (LinearModel.cauchy_ne_zero gradient))
          (norm_pos_iff.mpr gradient)
        exact lt_of_lt_of_le hlengths hpart
      obtain ⟨hnonneg, hle⟩ :=
        legFraction_mem (Leg.ofVec v) (w.sub v) (radius * radius)
      have hpoint := Vec.toEuclidean_add_mul h.size (w.sub v)
        (legFraction (Leg.ofVec v) (w.sub v) (radius * radius))
      rw [Vec.toEuclidean_sub hsize, h.point] at hpoint
      have hbetween := LinearModel.promise_between_pos hcauchy hnewton hnonneg hle
      rw [← hpoint] at hbetween
      exact hbetween

end Steps

end TrustRegion
