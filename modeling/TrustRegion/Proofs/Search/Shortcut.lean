/-
Module: TrustRegion.Proofs.Search.Shortcut
Purpose: When it makes a difference that the end of the path is not looked at. Where the first leg
  reaches the boundary it is cut off there, unless the end of the path is known already. Without
  damping that is what the whole path says as well, since its end is no nearer than that of its first
  leg. Damping draws the end of the path closer, and then it can lie within the radius while the first
  leg does not: a point whose path is known takes its end, and one whose path is not known does not.
Main exports: LinearModel.Newton.inner_cauchy_nonneg, Vec.Undercut, lazyStep_update_eq_iff,
  Workspace.computeStep_shortcut
-/
import TrustRegion.Proofs.Search.Endpoint
import TrustRegion.Proofs.Search.Stages

namespace TrustRegion

open scoped RealInnerProductSpace

/-! ### The ends of a path that is not damped -/

namespace LinearModel.Newton

variable {E F : Type*} [NormedAddCommGroup E] [InnerProductSpace ℝ E] [NormedAddCommGroup F]
  [InnerProductSpace ℝ F] {M : LinearModel E F} {s : E}

/-- What the first leg promises per unit of its gradient is no more than what the whole path does. -/
theorem ratio_mul_le (h : M.Newton 0 s) :
    ‖M.gradient‖ ^ 2 / ‖M.map M.gradient‖ ^ 2 * ‖M.gradient‖ ^ 2 ≤ -⟪M.gradient, s⟫ := by
  have hself := h s
  have hgradient := h M.gradient
  rw [zero_mul, add_zero, real_inner_self_eq_norm_sq] at hself hgradient
  have hproduct : (‖M.gradient‖ ^ 2) ^ 2 ≤ ‖M.map s‖ ^ 2 * ‖M.map M.gradient‖ ^ 2 := by
    have hcauchy := abs_real_inner_le_norm (M.map s) (M.map M.gradient)
    rw [hgradient, abs_neg, abs_of_nonneg (sq_nonneg _)] at hcauchy
    rw [← mul_pow]
    exact pow_le_pow_left₀ (sq_nonneg _) hcauchy 2
  rw [← hself, div_mul_eq_mul_div, ← sq]
  exact div_le_of_le_mul₀ (sq_nonneg _) (sq_nonneg _) hproduct

/-- The second leg does not turn back from the first. -/
theorem inner_cauchy_nonneg (h : M.Newton 0 s) : 0 ≤ ⟪M.cauchy, s - M.cauchy⟫ := by
  have hratio : 0 ≤ ‖M.gradient‖ ^ 2 / ‖M.map M.gradient‖ ^ 2 := by positivity
  have hleg := mul_nonneg hratio (sub_nonneg.mpr h.ratio_mul_le)
  have hinner : ⟪M.cauchy, s - M.cauchy⟫ = ‖M.gradient‖ ^ 2 / ‖M.map M.gradient‖ ^ 2 *
      (-⟪M.gradient, s⟫ - ‖M.gradient‖ ^ 2 / ‖M.map M.gradient‖ ^ 2 * ‖M.gradient‖ ^ 2) := by
    rw [cauchy, inner_sub_right, inner_smul_left, inner_smul_left, inner_smul_right,
      real_inner_self_eq_norm_sq, conj_trivial]
    ring
  rw [hinner]
  exact hleg

/-- So the path moves away from where it begins. -/
theorem norm_sq_add_le (h : M.Newton 0 s) :
    ‖M.cauchy‖ ^ 2 + ‖s - M.cauchy‖ ^ 2 ≤ ‖s‖ ^ 2 := by
  have hlegs := norm_add_sq_real M.cauchy (s - M.cauchy)
  rw [add_sub_cancel] at hlegs
  linarith [h.inner_cauchy_nonneg]

/-- A path that ends no farther away than its first leg is that leg. -/
theorem eq_cauchy_of_norm_le (h : M.Newton 0 s) (near : ‖s‖ ≤ ‖M.cauchy‖) : s = M.cauchy := by
  have hsquares := pow_le_pow_left₀ (norm_nonneg s) near 2
  have hnone : ‖s - M.cauchy‖ ^ 2 ≤ 0 := by linarith [h.norm_sq_add_le]
  have hzero : ‖s - M.cauchy‖ = 0 := pow_eq_zero_iff two_ne_zero |>.mp
    (le_antisymm hnone (sq_nonneg _))
  exact sub_eq_zero.mp (norm_eq_zero.mp hzero)

end LinearModel.Newton

/-! ### Where the shortcut makes a difference -/

/-- The end of the path lies within the radius while the first leg reaches the boundary, and not where
the first leg is cut off. -/
def Vec.Undercut (c g : Vec ℝ) (radius : ℝ) : Prop :=
  g.norm ≤ radius ∧ radius ≤ c.norm ∧ g ≠ (Step.clipped (Leg.ofVec c) radius).update

section Vectors

variable {c g : Vec ℝ} {radius : ℝ}

theorem lazyStep_of_le (hradius : 0 < radius) (reaches : radius ≤ c.norm) :
    lazyStep c g radius = Step.clipped (Leg.ofVec c) radius :=
  if_pos ((Vec.le_norm_iff hradius.le).mp reaches)

theorem lazyStep_of_lt (hradius : 0 < radius) (short : c.norm < radius) :
    lazyStep c g radius = blend (Leg.ofVec c) (Leg.ofVec g) radius :=
  if_neg (mt (Vec.le_norm_iff hradius.le).mpr (not_le.mpr short))

/-- The shortcut gives what the whole path does, unless the end of the path undercuts it. -/
theorem lazyStep_update_eq_iff (hradius : 0 < radius) :
    (lazyStep c g radius).update = (blend (Leg.ofVec c) (Leg.ofVec g) radius).update ↔
      ¬ c.Undercut g radius := by
  rcases le_or_gt radius c.norm with hreaches | hshort
  · rw [lazyStep_of_le hradius hreaches]
    rcases le_or_gt g.norm radius with hinside | houtside
    · rw [blend_of_norm_le hradius.le hinside]
      constructor
      · rintro hsame ⟨-, -, hdiffers⟩
        exact hdiffers hsame.symm
      · intro hnot
        by_contra hdiffers
        exact hnot ⟨hinside, hreaches, Ne.symm hdiffers⟩
    · rw [blend_on_firstLeg hradius.le houtside hreaches]
      exact iff_of_true rfl fun hunder => absurd hunder.1 (not_le.mpr houtside)
  · rw [lazyStep_of_lt hradius hshort]
    exact iff_of_true rfl fun hunder => absurd hunder.2.1 (not_le.mpr hshort)

/-- An end of the path that is strictly within the radius always does. -/
theorem undercut_of_lt (hradius : 0 < radius) (inside : g.norm < radius) (reaches : radius ≤ c.norm) :
    c.Undercut g radius := by
  refine ⟨inside.le, reaches, ?_⟩
  rintro rfl
  have hnorm : (Step.clipped (Leg.ofVec c) radius).norm = radius :=
    Step.norm_clipped rfl hradius ((Vec.le_norm_iff hradius.le).mp reaches)
  exact absurd hnorm inside.ne

end Vectors

section Point

variable {m n : ℕ} {q : Linearization ℝ} {fits : q.Fits m n} {c g : Vec ℝ} {radius : ℝ}

/-- The end of a path that is not damped does not undercut the first leg. -/
theorem not_undercut_of_undamped (hradius : 0 < radius) (hend : fits.CauchyEnd c)
    (newton : q.Newton 0 g) : ¬ c.Undercut g radius := by
  rintro ⟨hinside, hreaches, hdiffers⟩
  have hsize : g.size = n := newton.size.trans fits.cols
  have hmodel := newton.newton_model fits
  rw [Vec.norm_eq_norm hsize] at hinside
  rw [Vec.norm_eq_norm hend.size, hend.point] at hreaches
  have hsame : g.toEuclidean n = fits.model.cauchy :=
    hmodel.eq_cauchy_of_norm_le (hinside.trans hreaches)
  have hlength : radius = ‖fits.model.cauchy‖ := by
    apply le_antisymm hreaches
    rw [← hsame]
    exact hinside
  obtain ⟨hclippedSize, hclipped⟩ := toEuclidean_clipped hend radius
  have hwhole : radius / ‖fits.model.cauchy‖ = 1 := by
    rw [← hlength]
    exact div_self hradius.ne'
  rw [hwhole, one_smul] at hclipped
  exact hdiffers (Vec.eq_of_toEuclidean_eq hsize hclippedSize (hsame.trans hclipped.symm))

end Point

/-! ### The steps from a point -/

namespace Workspace

variable {backend : CholeskySolver ℝ} {id : ℕ} {state : Vec ℝ} {evaluation : Evaluation ℝ}
  {q : Linearization ℝ} {radius : ℝ}

/-- The ends of the path from a point that was just made, where the factorization can be made. -/
theorem exists_ends (schedule : DampingSchedule ℝ) (damping : Damping ℝ)
    (made : (Linearization.make backend id state evaluation).value = .ok q)
    (cols : evaluation.jacobian.stored.cols = state.size)
    (held : backend.HoldsFor id evaluation.jacobian)
    (factors : ∃ s', (LinearSolver.factorize backend evaluation.jacobian
      ⟨id, damping.lambda⟩).value = (.ok (), s')) :
    ∃ (fits : q.Fits evaluation.jacobian.stored.rows state.size) (c g : Vec ℝ) (d : Damping ℝ)
        (s' : CholeskySolver ℝ),
      Ends schedule ⟨backend, damping, q⟩ c g d s' ∧ fits.CauchyEnd c ∧
        q.Newton damping.lambda g ∧ d.lambda = damping.lambda ∧
        backend.storage = q.jacobian.storage ∧ s'.storage = q.jacobian.storage := by
  obtain ⟨fits, hid, hjacobian, hkind⟩ := Linearization.fits_of_evaluation made cols
  rw [← hid, ← hjacobian] at held factors
  obtain ⟨c, hc, hend⟩ := cauchyVector_exact fits hkind
  obtain ⟨g, d, s', hg, hlambda, hnewton⟩ := gaussNewtonVector_of_held schedule fits held factors
  obtain ⟨gradient, hgradient, rfl⟩ := Linearization.of_make made
  exact ⟨fits, c, g, d, s', ⟨rfl, rfl, hc, hg⟩, hend, hnewton, hlambda, hkind.symm,
    (gaussNewtonVector_newton fits held hg).2⟩

/-- Whatever steps were computed from a point before, the step at a radius is the blend of its two legs
if the end of the path is known. If it is not known, the step leads to the same place unless the end of
the path undercuts the first leg. Without damping it never does. The end of the path can always become
known, by computing a step at a radius that is large enough. -/
theorem computeStep_shortcut (schedule : DampingSchedule ℝ) (damping : Damping ℝ)
    (made : (Linearization.make backend id state evaluation).value = .ok q)
    (cols : evaluation.jacobian.stored.cols = state.size)
    (held : backend.HoldsFor id evaluation.jacobian)
    (factors : ∃ s', (LinearSolver.factorize backend evaluation.jacobian
      ⟨id, damping.lambda⟩).value = (.ok (), s'))
    (hradius : 0 < radius) :
    ∃ c g d s', (cauchyVector backend q).value = .ok c ∧
      (gaussNewtonVector schedule q damping backend).value = (.ok g, d, s') ∧
      d.lambda = damping.lambda ∧
      (∀ w, Relation.ReflTransGen (Leads schedule) ⟨backend, damping, q⟩ w →
        ∃ step w', (w.computeStep schedule radius).value = (.ok step, w') ∧
          (w.point.gaussNewton ≠ none →
            step = blend (Leg.ofVec c) (Leg.ofVec g) radius) ∧
          (w.point.gaussNewton = none →
            (step.update = (blend (Leg.ofVec c) (Leg.ofVec g) radius).update ↔
              ¬ c.Undercut g radius))) ∧
      (damping.lambda = 0 → ¬ c.Undercut g radius) ∧
      ∃ w, Relation.ReflTransGen (Leads schedule) ⟨backend, damping, q⟩ w ∧
        w.point.gaussNewton ≠ none := by
  obtain ⟨fits, c, g, d, s', ends, hend, hnewton, hlambda, -, -⟩ :=
    exists_ends schedule damping made cols held factors
  refine ⟨c, g, d, s', ends.cauchy, ends.gaussNewton, hlambda, ?_, ?_, ?_⟩
  · intro w reached
    obtain ⟨step, w', hstep, -, hlazy, hblend⟩ := (Stage.reaches ends reached).exists_stepsTo ends
      radius
    refine ⟨step, w', computeStep_of_stepsTo hstep, hblend, ?_⟩
    intro unknown
    rw [hlazy unknown]
    exact lazyStep_update_eq_iff hradius
  · intro hundamped
    rw [hundamped] at hnewton
    exact not_undercut_of_undamped hradius hend hnewton
  · apply ends.exists_known (c.norm + 1)
    have hnonneg : 0 ≤ c.norm + 1 := by
      rw [Vec.norm_eq]
      positivity
    exact mt (Vec.le_norm_iff hnonneg).mpr (not_le.mpr (lt_add_one _))

/-- From the point of `constantOne`, with a damping of one, the first leg has the length one and the path
ends at one half. At a radius of three quarters the end of the path undercuts the first leg, and the
step depends on whether that end is known. -/
theorem computeStep_shortcut_constantOne :
    ∃ q w step w' known w'',
      (Linearization.make Problem.constantOne.backend 0 ⟨#[0]⟩ Problem.unitEvaluation).value =
        .ok q ∧
      Relation.ReflTransGen (Leads DampingSchedule.standard)
        ⟨Problem.constantOne.backend, Damping.mk (1 : ℝ) 0, q⟩ w ∧
      (computeStep DampingSchedule.standard (3 / 4)
        ⟨Problem.constantOne.backend, Damping.mk (1 : ℝ) 0, q⟩).value = (.ok step, w') ∧
      (w.computeStep DampingSchedule.standard (3 / 4)).value = (.ok known, w'') ∧
      step.update ≠ known.update := by
  obtain ⟨q, hfirst⟩ : ∃ q, (firstPoint Problem.constantOne.backend ⟨#[0]⟩
      Problem.unitEvaluation).value = .ok q := ⟨_, rfl⟩
  have hq := (of_firstPoint hfirst).1
  have hheld : Problem.constantOne.backend.HoldsFor 0 Problem.unitEvaluation.jacobian :=
    fun mu hmu => by cases hmu
  have hradius : (0 : ℝ) < 3 / 4 := by norm_num
  obtain ⟨c, g, d, s', hc, hg, hlambda, hsteps, -, w, hreached, hknown⟩ :=
    computeStep_shortcut DampingSchedule.standard ⟨1, 0⟩ hq rfl hheld
      Problem.factorize_unitEvaluation hradius
  obtain ⟨v, hv, hnormSq⟩ := Problem.cauchyVector_constantOne hfirst
  rw [hc] at hv
  cases hv
  obtain ⟨fits, hid, hjacobian, -⟩ := Linearization.fits_of_evaluation hq rfl
  have hheldAt : Problem.constantOne.backend.HoldsFor q.id q.jacobian := by
    rw [hid, hjacobian]
    exact hheld
  have hnewton := (gaussNewtonVector_newton fits hheldAt hg).1
  rw [hlambda] at hnewton
  obtain ⟨hsize, hentry⟩ := Problem.newton_unitEvaluation hq hnewton
  have hinside : g.norm < 3 / 4 := by
    have hhalf : g.entry 0 = -(1 / 2) := by linarith
    rw [Vec.norm_eq, Vec.normSq_eq, hsize, Finset.sum_range_one, hhalf, Real.sqrt_lt' hradius]
    norm_num
  have hreaches : 3 / 4 ≤ c.norm := by
    rw [Vec.le_norm_iff hradius.le, hnormSq]
    norm_num
  obtain ⟨step, w', hstep, -, hlazy⟩ := hsteps _ .refl
  obtain ⟨known, w'', hblend, hwhole, -⟩ := hsteps w hreached
  refine ⟨q, w, step, w', known, w'', hq, hreached, hstep, hblend, ?_⟩
  have hunknown : q.gaussNewton = none := by
    obtain ⟨gradient, -, rfl⟩ := Linearization.of_make hq
    rfl
  rw [hwhole hknown]
  intro hsame
  exact (hlazy hunknown).mp hsame (undercut_of_lt hradius hinside hreaches)

end Workspace

end TrustRegion
