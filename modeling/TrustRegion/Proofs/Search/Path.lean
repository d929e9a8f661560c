/-
Module: TrustRegion.Proofs.Search.Path
Purpose: A larger region never gives a worse step, without damping and without rounding. The steps from
  a point lie on one path, which runs along the first leg and then along the second. On the way neither
  the distance nor the promise of the linear model falls, and a larger radius is never an earlier place
  on the path, whatever steps were computed before.
Main exports: pathPoint, monotoneOn_pathPoint, monotoneOn_norm_pathPoint,
  LinearModel.monotoneOn_promise_pathPoint, Vec.position, Vec.monotoneOn_position, toEuclidean_blend,
  Workspace.computeStep_mono
-/
import TrustRegion.Proofs.Search.Shortcut

namespace TrustRegion

open scoped RealInnerProductSpace
open Set (Icc Ioi)

/-! ### The path -/

section Path

variable {E : Type*} [NormedAddCommGroup E] [InnerProductSpace ℝ E] {c s : E}

/-- The place on the path to `s` by way of `c`. The first leg takes the places up to one, and the
second the next ones. -/
noncomputable def pathPoint (c s : E) (t : ℝ) : E :=
  if t ≤ 1 then t • c else c + (t - 1) • (s - c)

theorem pathPoint_of_le_one {t : ℝ} (h : t ≤ 1) : pathPoint c s t = t • c :=
  if_pos h

theorem pathPoint_of_one_le {t : ℝ} (h : 1 ≤ t) : pathPoint c s t = c + (t - 1) • (s - c) := by
  rcases h.eq_or_lt with rfl | hlt
  · rw [pathPoint_of_le_one le_rfl, one_smul, sub_self, zero_smul, add_zero]
  · exact if_neg (not_le.mpr hlt)

/-- What grows along each leg grows along the path. -/
theorem monotoneOn_pathPoint {f : E → ℝ} (first : MonotoneOn (fun t : ℝ => f (t • c)) (Icc 0 1))
    (second : MonotoneOn (fun t : ℝ => f (c + t • (s - c))) (Icc 0 1)) :
    MonotoneOn (fun t => f (pathPoint c s t)) (Icc 0 2) := by
  have hfirst : MonotoneOn (fun t => f (pathPoint c s t)) (Icc 0 1) := by
    apply first.congr
    intro t ht
    exact congrArg f (pathPoint_of_le_one ht.2).symm
  have hsecond : MonotoneOn (fun t => f (pathPoint c s t)) (Icc 1 2) := by
    intro t ht u hu hle
    show f (pathPoint c s t) ≤ f (pathPoint c s u)
    rw [pathPoint_of_one_le ht.1, pathPoint_of_one_le hu.1]
    apply second _ _ (sub_le_sub_right hle 1)
    · exact ⟨by linarith [ht.1], by linarith [ht.2]⟩
    · exact ⟨by linarith [hu.1], by linarith [hu.2]⟩
  have hunion := hfirst.union_right hsecond (isGreatest_Icc zero_le_one) (isLeast_Icc one_le_two)
  rwa [Set.Icc_union_Icc_eq_Icc zero_le_one one_le_two] at hunion

/-- A path that does not turn back moves away from where it begins. -/
theorem monotoneOn_norm_pathPoint (forward : 0 ≤ ⟪c, s - c⟫) :
    MonotoneOn (fun t => ‖pathPoint c s t‖) (Icc 0 2) := by
  apply monotoneOn_pathPoint
  · intro t ht u hu hle
    show ‖t • c‖ ≤ ‖u • c‖
    rw [norm_smul, norm_smul, Real.norm_of_nonneg ht.1, Real.norm_of_nonneg hu.1]
    exact mul_le_mul_of_nonneg_right hle (norm_nonneg c)
  · intro t ht u hu hle
    show ‖c + t • (s - c)‖ ≤ ‖c + u • (s - c)‖
    apply le_of_sq_le_sq _ (norm_nonneg _)
    rw [norm_add_sq_real, norm_add_sq_real, inner_smul_right, inner_smul_right, norm_smul, norm_smul,
      mul_pow, mul_pow, Real.norm_of_nonneg ht.1, Real.norm_of_nonneg hu.1]
    have hinner := mul_le_mul_of_nonneg_right hle forward
    have hsquare := mul_le_mul_of_nonneg_right (pow_le_pow_left₀ ht.1 hle 2)
      (sq_nonneg ‖s - c‖)
    linarith

end Path

/-- Without damping, the promise of the model grows along the path. -/
theorem LinearModel.monotoneOn_promise_pathPoint {E F : Type*} [NormedAddCommGroup E]
    [InnerProductSpace ℝ E] [NormedAddCommGroup F] [InnerProductSpace ℝ F] {M : LinearModel E F}
    {s : E} (h : M.Newton 0 s) :
    MonotoneOn (fun t => M.promise (pathPoint M.cauchy s t)) (Icc 0 2) := by
  apply monotoneOn_pathPoint
  · intro t ht u hu hle
    show M.promise (t • M.cauchy) ≤ M.promise (u • M.cauchy)
    by_cases hgradient : M.gradient = 0
    · rw [cauchy_eq_zero_iff.mpr hgradient, smul_zero, smul_zero]
    · rw [promise_smul_cauchy hgradient, promise_smul_cauchy hgradient]
      have hlengths : 0 ≤ ‖M.cauchy‖ * ‖M.gradient‖ := by positivity
      apply mul_le_mul_of_nonneg_right _ hlengths
      have hrest : 0 ≤ (u - t) * (2 - (u + t)) :=
        mul_nonneg (sub_nonneg.mpr hle) (by linarith [ht.2, hu.2])
      linarith
  · intro t ht u hu hle
    show M.promise (M.cauchy + t • (s - M.cauchy)) ≤ M.promise (M.cauchy + u • (s - M.cauchy))
    -- the end of the path promises more by the squared image of the second leg
    have hend := promise_sub_of_newton h M.cauchy
    rw [zero_mul, zero_mul, zero_add, add_zero] at hend
    rw [promise_between, promise_between]
    have himage : 0 ≤ (u - t) * (2 - (u + t)) * ‖M.map (s - M.cauchy)‖ ^ 2 :=
      mul_nonneg (mul_nonneg (sub_nonneg.mpr hle) (by linarith [ht.2, hu.2])) (sq_nonneg _)
    have hpromise : M.promise s = M.promise M.cauchy + ‖M.map (s - M.cauchy)‖ ^ 2 := by linarith
    rw [hpromise]
    linarith

/-! ### Places of the steps -/

namespace Vec

/-- Where on the path the step at a radius leads. -/
noncomputable def position (c g : Vec ℝ) (radius : ℝ) : ℝ :=
  if radius ≤ c.norm then radius / c.norm
  else if g.norm ≤ radius then 1 + 1
  else 1 + legFraction (Leg.ofVec c) (g.sub c) (radius * radius)

variable {c g : Vec ℝ} {radius : ℝ}

theorem position_of_le (reaches : radius ≤ c.norm) : c.position g radius = radius / c.norm :=
  if_pos reaches

theorem position_of_whole (short : c.norm < radius) (inside : g.norm ≤ radius) :
    c.position g radius = 1 + 1 :=
  (if_neg (not_le.mpr short)).trans (if_pos inside)

theorem position_of_part (short : c.norm < radius) (outside : radius < g.norm) :
    c.position g radius = 1 + legFraction (Leg.ofVec c) (g.sub c) (radius * radius) :=
  (if_neg (not_le.mpr short)).trans (if_neg (not_le.mpr outside))

theorem norm_nonneg (v : Vec ℝ) : 0 ≤ v.norm := by
  rw [norm_eq]
  exact Real.sqrt_nonneg _

/-- While the first leg reaches the boundary, the place is on it. -/
theorem position_le_one (reaches : radius ≤ c.norm) : c.position g radius ≤ 1 := by
  rw [position_of_le reaches]
  exact div_le_one_of_le₀ reaches c.norm_nonneg

/-- Where it does not, the place is on the second leg. -/
theorem position_mem_of_short (short : c.norm < radius) : c.position g radius ∈ Icc (1 : ℝ) 2 := by
  rcases le_or_gt g.norm radius with hinside | houtside
  · rw [position_of_whole short hinside]
    exact ⟨by norm_num, by norm_num⟩
  · rw [position_of_part short houtside]
    obtain ⟨hnonneg, hle⟩ := legFraction_mem (Leg.ofVec c) (g.sub c) (radius * radius)
    exact ⟨by linarith, by linarith⟩

theorem position_mem (hradius : 0 < radius) : c.position g radius ∈ Icc (0 : ℝ) 2 := by
  rcases le_or_gt radius c.norm with hreaches | hshort
  · refine ⟨?_, (position_le_one hreaches).trans one_le_two⟩
    rw [position_of_le hreaches]
    exact div_nonneg hradius.le c.norm_nonneg
  · have hmem := position_mem_of_short (g := g) hshort
    exact ⟨zero_le_one.trans hmem.1, hmem.2⟩

/-- The fraction of a second leg that can be told puts the step on the boundary. -/
theorem legFraction_crosses (size : g.size = c.size) (hradius : 0 < radius) (short : c.norm < radius)
    (outside : radius < g.norm) (long : 1e-15 ≤ (g.sub c).normSq) :
    (g.sub c).normSq * legFraction (Leg.ofVec c) (g.sub c) (radius * radius) ^ 2 +
        2 * c.dot (g.sub c) * legFraction (Leg.ofVec c) (g.sub c) (radius * radius) +
        (c.normSq - radius * radius) = 0 := by
  obtain ⟨t, hcrosses, hnorm, -⟩ := exists_crossesAt size hradius short outside long
  have hfraction : legFraction (Leg.ofVec c) (g.sub c) (radius * radius) = t :=
    legFraction_eq_of_crossing long hcrosses
  rw [hfraction]
  exact (norm_along_eq_iff size hradius t).mp hnorm

/-- On a second leg that does not turn back, a larger radius leaves no less of the leg behind. -/
theorem legFraction_mono {r₁ r₂ : ℝ} (size : g.size = c.size) (forward : 0 ≤ c.dot (g.sub c))
    (short : c.norm < r₁) (hle : r₁ ≤ r₂) (outside : r₂ < g.norm) :
    legFraction (Leg.ofVec c) (g.sub c) (r₁ * r₁) ≤
      legFraction (Leg.ofVec c) (g.sub c) (r₂ * r₂) := by
  rcases lt_or_ge (g.sub c).normSq 1e-15 with htiny | hlong
  · rw [legFraction_of_short htiny, legFraction_of_short htiny]
  have hpos₁ : 0 < r₁ := c.norm_nonneg.trans_lt short
  have hpos₂ : 0 < r₂ := hpos₁.trans_le hle
  have hroot₁ := legFraction_crosses size hpos₁ short (hle.trans_lt outside) hlong
  have hroot₂ := legFraction_crosses size hpos₂ (short.trans_le hle) outside hlong
  have hnonneg := (legFraction_mem (Leg.ofVec c) (g.sub c) (r₂ * r₂)).1
  -- if the fraction fell, so would the length
  by_contra hlt
  rw [not_le] at hlt
  have ha : 0 < (g.sub c).normSq := lt_of_lt_of_le (by norm_num) hlong
  have hquadratic := mul_pos ha (sub_pos.mpr (pow_lt_pow_left₀ hlt hnonneg two_ne_zero))
  have hlinear := mul_nonneg forward (sub_nonneg.mpr hlt.le)
  have hsquares := mul_le_mul hle hle hpos₁.le hpos₂.le
  linarith

/-- A larger radius is never an earlier place on a path that does not turn back. -/
theorem monotoneOn_position (size : g.size = c.size) (forward : 0 ≤ c.dot (g.sub c)) :
    MonotoneOn (c.position g) (Ioi 0) := by
  intro r₁ hpos₁ r₂ hpos₂ hle
  rcases le_or_gt r₂ c.norm with hreaches | hshort
  · rw [position_of_le (hle.trans hreaches), position_of_le hreaches]
    exact div_le_div_of_nonneg_right hle c.norm_nonneg
  rcases le_or_gt r₁ c.norm with hreaches | hshort₁
  · exact (position_le_one hreaches).trans (position_mem_of_short hshort).1
  rcases le_or_gt g.norm r₂ with hinside | houtside
  · rw [position_of_whole hshort hinside]
    exact (position_mem_of_short hshort₁).2.trans_eq one_add_one_eq_two.symm
  · rw [position_of_part hshort₁ (hle.trans_lt houtside), position_of_part hshort houtside]
    exact add_le_add_right (legFraction_mono size forward hshort₁ hle houtside) 1

end Vec

section Point

variable {m n : ℕ} {q : Linearization ℝ} {fits : q.Fits m n} {c g : Vec ℝ} {radius : ℝ}

/-- The legs of a path that is not damped do not turn back. -/
theorem dot_sub_nonneg (hend : fits.CauchyEnd c) (newton : q.Newton 0 g) :
    0 ≤ c.dot (g.sub c) := by
  rw [Vec.dot_eq_inner hend.size, Vec.toEuclidean_sub (newton.size.trans fits.cols), hend.point]
  exact (newton.newton_model fits).inner_cauchy_nonneg

/-- The step at a radius leads to its place on the path. -/
theorem toEuclidean_blend (hradius : 0 < radius) (hend : fits.CauchyEnd c)
    (newton : q.Newton 0 g) :
    (blend (Leg.ofVec c) (Leg.ofVec g) radius).update.toEuclidean n =
      pathPoint fits.model.cauchy (g.toEuclidean n) (c.position g radius) := by
  have hsize : g.size = n := newton.size.trans fits.cols
  rcases le_or_gt radius c.norm with hreaches | hshort
  · rw [← (lazyStep_update_eq_iff hradius).mpr (not_undercut_of_undamped hradius hend newton),
      lazyStep_of_le hradius hreaches, (toEuclidean_clipped hend radius).2,
      pathPoint_of_le_one (Vec.position_le_one hreaches), Vec.position_of_le hreaches,
      Vec.norm_eq_norm hend.size, hend.point]
  rw [pathPoint_of_one_le (Vec.position_mem_of_short hshort).1]
  rcases le_or_gt g.norm radius with hinside | houtside
  · rw [blend_of_norm_le hradius.le hinside, Vec.position_of_whole hshort hinside,
      add_sub_cancel_right, one_smul, add_sub_cancel]
  · rw [blend_past_firstLeg hradius.le houtside hshort, Vec.position_of_part hshort houtside,
      add_sub_cancel_left, Vec.along, Vec.toEuclidean_add_mul hend.size,
      Vec.toEuclidean_sub hsize, hend.point]

/-- A larger radius gives a step that is no shorter and promises no less. -/
theorem blend_mono {r₁ r₂ : ℝ} (hpos : 0 < r₁) (hle : r₁ ≤ r₂) (hend : fits.CauchyEnd c)
    (newton : q.Newton 0 g) :
    (blend (Leg.ofVec c) (Leg.ofVec g) r₁).norm ≤ (blend (Leg.ofVec c) (Leg.ofVec g) r₂).norm ∧
      fits.model.promise ((blend (Leg.ofVec c) (Leg.ofVec g) r₁).update.toEuclidean n) ≤
        fits.model.promise ((blend (Leg.ofVec c) (Leg.ofVec g) r₂).update.toEuclidean n) := by
  have hsize : g.size = n := newton.size.trans fits.cols
  have hpos₂ : 0 < r₂ := hpos.trans_le hle
  have hmodel := newton.newton_model fits
  have hplace : c.position g r₁ ≤ c.position g r₂ :=
    Vec.monotoneOn_position (hsize.trans hend.size.symm) (dot_sub_nonneg hend newton) hpos hpos₂ hle
  have hmem₁ := Vec.position_mem (c := c) (g := g) hpos
  have hmem₂ := Vec.position_mem (c := c) (g := g) hpos₂
  constructor
  · rw [Step.norm, Step.norm, Vec.norm_eq_norm (size_blend hend.size hsize r₁),
      Vec.norm_eq_norm (size_blend hend.size hsize r₂), toEuclidean_blend hpos hend newton,
      toEuclidean_blend hpos₂ hend newton]
    exact monotoneOn_norm_pathPoint hmodel.inner_cauchy_nonneg hmem₁ hmem₂ hplace
  · rw [toEuclidean_blend hpos hend newton, toEuclidean_blend hpos₂ hend newton]
    exact LinearModel.monotoneOn_promise_pathPoint hmodel hmem₁ hmem₂ hplace

end Point

/-! ### The steps from a point -/

namespace Workspace

/-- At every stage an improvement is predicted as at the start. -/
theorem Stage.predicts {m n : ℕ} {q : Linearization ℝ} (fits : q.Fits m n)
    {backend s' : CholeskySolver ℝ} {damping d : Damping ℝ} {c g u : Vec ℝ}
    {w : Workspace ℝ (CholeskySolver ℝ)} (stage : Stage ⟨backend, damping, q⟩ c g d s' w)
    (kind : backend.storage = q.jacobian.storage) (kind' : s'.storage = q.jacobian.storage)
    (size : u.size = n) :
    (predictedImprovement w.backend w.point u).value =
      .ok (fits.model.promise (u.toEuclidean n)) := by
  cases stage with
  | fresh => exact predictedImprovement_exact fits kind.symm size
  | firstLeg step => exact predictedImprovement_exact fits kind.symm size
  | path step => exact predictedImprovement_exact fits kind'.symm size

/-- At every stage the step at a radius leads where the blend of the two legs does, unless the end of
the path undercuts the first leg. -/
theorem Stage.exists_blended {start w : Workspace ℝ (CholeskySolver ℝ)} {c g : Vec ℝ} {d : Damping ℝ}
    {s' : CholeskySolver ℝ} {schedule : DampingSchedule ℝ} {radius : ℝ}
    (stage : Stage start c g d s' w) (ends : Ends schedule start c g d s') (hradius : 0 < radius)
    (straight : ¬ c.Undercut g radius) :
    ∃ step w', (w.computeStep schedule radius).value = (.ok step, w') ∧ Stage start c g d s' w' ∧
      step.update = (blend (Leg.ofVec c) (Leg.ofVec g) radius).update := by
  obtain ⟨step, w', hstep, hleft, hlazy, hblend⟩ := stage.exists_stepsTo ends radius
  refine ⟨step, w', computeStep_of_stepsTo hstep, hleft, ?_⟩
  by_cases hknown : w.point.gaussNewton = none
  · rw [hlazy hknown]
    exact (lazyStep_update_eq_iff hradius).mpr straight
  · rw [hblend hknown]

variable {backend : CholeskySolver ℝ} {id : ℕ} {state : Vec ℝ} {evaluation : Evaluation ℝ}
  {q : Linearization ℝ}

/-- Without damping, and where the normal matrix is positive definite, a step at a larger radius is no
shorter and is predicted to improve the cost no less, and no step is predicted to improve it more than
the end of the path. Before either step any others may have been computed from the point. -/
theorem computeStep_mono (schedule : DampingSchedule ℝ) (damping : Damping ℝ)
    (made : (Linearization.make backend id state evaluation).value = .ok q)
    (cols : evaluation.jacobian.stored.cols = state.size) (undamped : damping.lambda = 0)
    (held : backend.HoldsFor id evaluation.jacobian) (admits : backend.Admits evaluation.jacobian)
    (definite : evaluation.jacobian.Definite 0) {w₁ w₂ : Workspace ℝ (CholeskySolver ℝ)}
    (reached₁ : Relation.ReflTransGen (Leads schedule) ⟨backend, damping, q⟩ w₁)
    (reached₂ : Relation.ReflTransGen (Leads schedule) ⟨backend, damping, q⟩ w₂)
    {r₁ r₂ : ℝ} (hpos : 0 < r₁) (hle : r₁ ≤ r₂) :
    ∃ step₁ w₁' step₂ w₂' g d s' improvement₁ improvement₂ most,
      (w₁.computeStep schedule r₁).value = (.ok step₁, w₁') ∧
      (w₂.computeStep schedule r₂).value = (.ok step₂, w₂') ∧
      (gaussNewtonVector schedule q damping backend).value = (.ok g, d, s') ∧
      (predictedImprovement w₁'.backend w₁'.point step₁.update).value = .ok improvement₁ ∧
      (predictedImprovement w₂'.backend w₂'.point step₂.update).value = .ok improvement₂ ∧
      (predictedImprovement s' q g).value = .ok most ∧
      step₁.norm ≤ step₂.norm ∧ improvement₁ ≤ improvement₂ ∧ improvement₂ ≤ most := by
  have hkind : evaluation.jacobian.storage = backend.storage := by
    obtain ⟨-, -, hjacobian, hkind⟩ := Linearization.fits_of_evaluation made cols
    rw [← hjacobian]
    exact hkind
  have hfactors : ∃ s', (LinearSolver.factorize backend evaluation.jacobian
      ⟨id, damping.lambda⟩).value = (.ok (), s') := by
    rw [undamped]
    obtain ⟨-, s', -, hmade⟩ | ⟨hnot, -⟩ := admits.factorize_exact hkind ⟨id, 0⟩
    · exact ⟨s', hmade⟩
    · exact absurd definite hnot
  obtain ⟨fits, c, g, d, s', ends, hend, hnewton, -, hstorage, hstorage'⟩ :=
    exists_ends schedule damping made cols held hfactors
  rw [undamped] at hnewton
  have hsize : g.size = state.size := hnewton.size.trans fits.cols
  obtain ⟨step₁, w₁', hstep₁, hleft₁, hupdate₁⟩ := (Stage.reaches ends reached₁).exists_blended ends
    hpos (not_undercut_of_undamped hpos hend hnewton)
  obtain ⟨step₂, w₂', hstep₂, hleft₂, hupdate₂⟩ := (Stage.reaches ends reached₂).exists_blended ends
    (hpos.trans_le hle) (not_undercut_of_undamped (hpos.trans_le hle) hend hnewton)
  have hsize₁ : step₁.update.size = state.size := hupdate₁ ▸ size_blend hend.size hsize r₁
  have hsize₂ : step₂.update.size = state.size := hupdate₂ ▸ size_blend hend.size hsize r₂
  obtain ⟨hnorm, hpromise⟩ := blend_mono hpos hle hend hnewton
  rw [Step.norm, Step.norm, ← hupdate₁, ← hupdate₂] at hnorm
  rw [← hupdate₁, ← hupdate₂] at hpromise
  refine ⟨step₁, w₁', step₂, w₂', g, d, s', _, _, _, hstep₁, hstep₂, ends.gaussNewton,
    hleft₁.predicts fits hstorage hstorage' hsize₁, hleft₂.predicts fits hstorage hstorage' hsize₂,
    predictedImprovement_exact fits hstorage'.symm hsize, hnorm, hpromise, ?_⟩
  apply LinearModel.promise_le_of_newton (hnewton.newton_model fits) le_rfl
  exact fun hpositive => absurd hpositive (lt_irrefl 0)

/-- From the point of `constantOne` a step at a radius of one half is no better than one at two thirds
that is computed after another at three, where the whole path was needed. -/
theorem computeStep_mono_constantOne :
    ∃ q step₁ w₁ step₂ w₂ improvement₁ improvement₂,
      (Linearization.make Problem.constantOne.backend 0 ⟨#[0]⟩ Problem.unitEvaluation).value =
        .ok q ∧
      (computeStep DampingSchedule.standard (1 / 2)
        ⟨Problem.constantOne.backend, Damping.mk (0 : ℝ) 0, q⟩).value = (.ok step₁, w₁) ∧
      ((computeStep DampingSchedule.standard 3
        ⟨Problem.constantOne.backend, Damping.mk (0 : ℝ) 0, q⟩).value.2.computeStep
          DampingSchedule.standard (2 / 3)).value = (.ok step₂, w₂) ∧
      (predictedImprovement w₁.backend w₁.point step₁.update).value = .ok improvement₁ ∧
      (predictedImprovement w₂.backend w₂.point step₂.update).value = .ok improvement₂ ∧
      step₁.norm ≤ step₂.norm ∧ improvement₁ ≤ improvement₂ := by
  obtain ⟨q, hq⟩ : ∃ q, (Linearization.make Problem.constantOne.backend 0 ⟨#[0]⟩
      Problem.unitEvaluation).value = .ok q := ⟨_, rfl⟩
  have hle : (1 : ℝ) / 2 ≤ 2 / 3 := by norm_num
  obtain ⟨step₁, w₁, step₂, w₂, -, -, -, improvement₁, improvement₂, -, hstep₁, hstep₂, -,
      hpredicted₁, hpredicted₂, -, hnorm, himprovement, -⟩ :=
    computeStep_mono DampingSchedule.standard ⟨0, 0⟩ hq rfl rfl (fun mu hmu => by cases hmu)
      (CholeskySolver.admits_new .dense _) Problem.definite_unitEvaluation .refl
      (.single (leads_computeStep DampingSchedule.standard 3 _)) one_half_pos hle
  exact ⟨q, step₁, w₁, step₂, w₂, improvement₁, improvement₂, hq, hstep₁, hstep₂, hpredicted₁,
    hpredicted₂, hnorm, himprovement⟩

end Workspace

end TrustRegion
