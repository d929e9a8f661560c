/-
Module: TrustRegion.Proofs.Search.Steep
Purpose: Searches on problems whose residuals are affine in the state, without rounding, that only a
  small gradient ends. If the columns of the Jacobian are independent, the legs are bounded by the first
  residuals, so a region that grows with every step to its boundary soon holds the whole path, and the
  search ends there.
Main exports: Settings.GradientOnly, Problem.Steep, Problem.Run.steep_round, Problem.Run.steep,
  Problem.Run.steep_loop
-/
import TrustRegion.Proofs.Search.Affine

namespace TrustRegion

/-- Settings under which perfect steps are very good and only a small gradient ends a search before
its attempts are used up. -/
structure Settings.GradientOnly (settings : Settings ℝ) : Prop where
  tolerant : settings.rejectBelow ≤ 1
  eager : settings.growAbove < 1
  gradient : 0 < settings.gradientTolerance
  update : settings.updateTolerance ≤ 0
  radius : settings.radiusTolerance ≤ 0
  room : 1 ≤ settings.damping.maxAttempts

theorem Settings.GradientOnly.converged?_eq {settings : Settings ℝ} (h : settings.GradientOnly)
    (q : Linearization ℝ) (update : Option ℝ) (radius : ℝ) :
    settings.converged? q update radius =
      if q.gradientMaxAbs < settings.gradientTolerance then some .gradientTolerance else none := by
  have hradius : settings.radiusConverged radius = none :=
    if_neg fun hmet => absurd hmet.1 (not_lt.mpr h.radius)
  have hupdate (size : ℝ) : ¬ (0 < settings.updateTolerance ∧ size < settings.updateTolerance) :=
    fun hmet => absurd hmet.1 (not_lt.mpr h.update)
  unfold Settings.converged?
  simp only [h.gradient, true_and, hradius, hupdate, if_false]
  cases update <;> rfl

/-- A gradient that vanishes is below every bound. -/
theorem Linearization.Fits.gradientMaxAbs_lt {m n : ℕ} {q : Linearization ℝ} (fits : q.Fits m n)
    (h : fits.model.gradient = 0) {bound : ℝ} (positive : 0 < bound) : q.gradientMaxAbs < bound := by
  apply (q.gradient.maxAbs_lt_iff positive).mpr
  intro i hi
  rw [Vec.toEuclidean_eq_zero_iff.mp h i (fits.size_gradient ▸ hi), Scalar.abs_eq, abs_zero]
  exact positive

/-- A blend is the end of the path, where that lies in the region, or ends on the boundary. -/
theorem blend_cases (c g : Leg ℝ) (radius : ℝ) :
    (g.normSq ≤ radius * radius ∧ (blend c g radius).update = g.vector ∧
        (blend c g radius).toEdge = false) ∨
      (radius * radius < g.normSq ∧ (blend c g radius).toEdge = true) := by
  unfold blend
  dsimp only
  split
  · exact .inl ⟨‹_›, rfl, rfl⟩
  · rename_i houtside
    refine .inr ⟨not_le.mp houtside, ?_⟩
    split <;> rfl

namespace Workspace

variable {schedule : DampingSchedule ℝ} {radius : ℝ} {w w' : Workspace ℝ (CholeskySolver ℝ)}
  {step : Step ℝ}

/-- An undamped step leads to the end of the path, or to the boundary of a region that is at most as
large as the legs. If the Jacobian shortens nothing by more than `k`, these are at most `k` times as
long as the residuals. -/
theorem Sound.undamped_steps {m n : ℕ} (h : w.Sound m n) (usable : schedule.Usable)
    (hstep : w.StepsTo schedule radius step w') (undamped : w.damping.lambda = 0)
    (definite : w.point.jacobian.Definite 0) (gradient : h.fits.model.gradient ≠ 0) {k : ℝ}
    (nonneg : 0 ≤ k) (bounded : ∀ u, ‖u‖ ≤ k * ‖h.fits.model.map u‖) :
    w'.damping.lambda = 0 ∧
      ((step.toEdge = false ∧ h.fits.model.Newton 0 (step.update.toEuclidean n)) ∨
        (step.toEdge = true ∧ radius ≤ k * ‖h.fits.model.residuals‖)) := by
  obtain ⟨v, hend, -, -, -, -, hcases⟩ := h.steps usable hstep
  rcases hcases with ⟨-, hreaches, rfl, hdamping, -⟩ | ⟨g, hnewton, rfl, -, -, hdefinite⟩
  · refine ⟨by rw [hdamping, undamped], .inr ⟨rfl, ?_⟩⟩
    rw [normSq_ofVec hend.size, hend.point, ← sq] at hreaches
    calc radius ≤ ‖h.fits.model.cauchy‖ := le_of_sq_le_sq hreaches (norm_nonneg _)
      _ ≤ k * ‖h.fits.model.map h.fits.model.cauchy‖ := bounded _
      _ ≤ k * ‖h.fits.model.residuals‖ :=
        mul_le_mul_of_nonneg_left (LinearModel.norm_map_cauchy_le gradient) nonneg
  · rw [undamped] at hdefinite
    have hlambda := hdefinite definite
    rw [hlambda] at hnewton
    refine ⟨hlambda, ?_⟩
    have hmodel := hnewton.newton_model h.fits
    rcases blend_cases (Leg.ofVec v) (Leg.ofVec g) radius with
      ⟨-, hupdate, hedge⟩ | ⟨houtside, hedge⟩
    · rw [hupdate]
      exact .inl ⟨hedge, hmodel⟩
    · refine .inr ⟨hedge, ?_⟩
      rw [normSq_ofVec (hnewton.size.trans h.fits.cols), ← sq] at houtside
      calc radius ≤ ‖g.toEuclidean n‖ := le_of_sq_le_sq houtside.le (norm_nonneg _)
        _ ≤ k * ‖h.fits.model.map (g.toEuclidean n)‖ := bounded _
        _ ≤ k * ‖h.fits.model.residuals‖ := mul_le_mul_of_nonneg_left hmodel.norm_map_le nonneg

end Workspace

/-- An affine problem whose Jacobian shortens nothing by more than a factor. -/
structure Problem.Steep (p : Problem ℝ) (n : ℕ) (A : ℕ → ℕ → ℝ) (b : ℕ → ℝ) (k : ℝ) : Prop where
  affine : p.Affine n A b
  nonneg : 0 ≤ k
  bounded : ∀ u, ‖u‖ ≤ k * ‖linearOf p.measurements n A u‖

/-- A table with independent columns shortens nothing by more than some factor. -/
theorem exists_bound_of_linearIndependent {m n : ℕ} {A : ℕ → ℕ → ℝ}
    (independent : LinearIndependent ℝ fun (i : Fin n) (r : Fin m) => A r i) :
    ∃ k, 0 ≤ k ∧ ∀ u, ‖u‖ ≤ k * ‖linearOf m n A u‖ := by
  have hkernel : (linearOf m n A : EuclideanSpace ℝ (Fin n) →ₗ[ℝ] EuclideanSpace ℝ (Fin m)).ker =
      ⊥ := by
    refine LinearMap.ker_eq_bot'.mpr fun u hu => PiLp.ext fun i => ?_
    refine Fintype.linearIndependent_iff.mp independent (fun i => u i) (funext fun r => ?_) i
    have hrow : linearOf m n A u r = 0 := congrArg (fun x => x r) hu
    rw [linearOf_apply] at hrow
    rw [Finset.sum_apply, Pi.zero_apply, ← hrow]
    exact Finset.sum_congr rfl fun i _ => mul_comm _ _
  obtain ⟨k, -, hk⟩ := LinearMap.exists_antilipschitzWith _ hkernel
  exact ⟨k, k.coe_nonneg, (linearOf m n A).bound_of_antilipschitz hk⟩

namespace Problem

variable {p : Problem ℝ} {A : ℕ → ℕ → ℝ} {b : ℕ → ℝ} {k : ℝ} {settings : Settings ℝ}
  {clock : Clock} {state : Vec ℝ} {points : List (Linearization ℝ)}
  {s s' : Search ℝ (CholeskySolver ℝ)} {r : Search.Round ℝ (CholeskySolver ℝ)}
  {reason : Option StopReason}

/-- Throughout a run on a steep problem, no damping is needed. -/
theorem Steep.definite_run (h : p.Steep state.size A b k)
    (run : p.Run settings clock state points reason s) : s.session.point.jacobian.Definite 0 := by
  have hrows : s.session.point.jacobian.stored.rows = p.measurements := run.fits.1.rows
  have hcols : s.session.point.jacobian.stored.cols = state.size := run.fits.1.cols
  have hmap : s.session.point.jacobian.linear p.measurements state.size =
      linearOf p.measurements state.size A := (h.affine.model_run run).1
  apply Jacobian.positiveDefinite_gram_zero
  rw [hrows, hcols]
  intro v hv i hi
  set u : EuclideanSpace ℝ (Fin state.size) := WithLp.toLp 2 fun i => v i with hu
  have himage : linearOf p.measurements state.size A u = 0 := by
    rw [← hmap]
    refine PiLp.ext fun r => ?_
    rw [Jacobian.linear_apply, ← Finset.sum_range
      (fun i => s.session.point.jacobian.slope r i * v i)]
    exact hv r r.isLt
  have hzero : ‖u‖ ≤ 0 := by
    have hbounded := h.bounded u
    rw [himage, norm_zero, mul_zero] at hbounded
    exact hbounded
  exact congrArg (fun x => x ⟨i, hi⟩) (norm_le_zero_iff.mp hzero)

/-- A round of a run on a steep problem, from an undamped workspace and a point whose gradient is not
small. The candidate is accepted, has no longer residuals and needs no damping either, and unless its
gradient is small, the region was not much larger than the residuals, and grows. -/
theorem Run.steep_round (h : p.Run settings clock state points none s)
    (steep : p.Steep state.size A b k) (only : settings.GradientOnly)
    (room : s.iterations < settings.maxIterations) (undamped : s.session.lambda = 0)
    (gradient : ¬ s.session.point.gradientMaxAbs < settings.gradientTolerance)
    (attempted : s.Attempts clock r reason s') :
    s'.session.lambda = 0 ∧
      reason = (if s'.session.point.gradientMaxAbs < settings.gradientTolerance
        then some .gradientTolerance else none) ∧
      ‖s'.session.point.residuals.toEuclidean p.measurements‖ ≤
        ‖s.session.point.residuals.toEuclidean p.measurements‖ ∧
      (reason = none → s'.session.radius = s.session.radius * settings.growFactor ∧
        s.session.radius ≤ k * ‖s.session.point.residuals.toEuclidean p.measurements‖) := by
  have hgradient : h.fits.1.model.gradient ≠ 0 :=
    fun hzero => gradient (h.fits.1.gradientMaxAbs_lt hzero only.gradient)
  obtain ⟨hstep, haccepted, hquality, hpoint, hmap, hresiduals⟩ :=
    h.affine_round steep.affine only.tolerant hgradient attempted
  have hbounded (u : EuclideanSpace ℝ (Fin state.size)) :
      ‖u‖ ≤ k * ‖h.fits.1.model.map u‖ := by
    rw [(steep.affine.model_run h).1]
    exact steep.bounded u
  obtain ⟨hlambda, hcases⟩ := h.sound.undamped_steps h.usable.damping hstep undamped
    (steep.definite_run h) hgradient steep.nonneg hbounded
  have hafter := attempted.after
  have hfits := (h.round room attempted).fits.1
  have hreason : reason = if s'.session.point.gradientMaxAbs < settings.gradientTolerance
      then some .gradientTolerance else none := by
    rw [attempted.lap.1, Search.Lap.verdict]
    simp only [Search.Lap.accepted, h.settings_eq, haccepted, if_true, only.converged?_eq, hpoint]
  refine ⟨?_, hreason, ?_, fun hnone => ?_⟩
  · rw [Session.lambda, hafter.workspace]
    exact hlambda
  · have hlower : s'.session.point.cost < s.session.point.cost := by
      rw [hpoint, ← Run.cost_workspace attempted]
      exact Search.Round.cost_lt_of_accepted haccepted
    rw [hfits.cost, h.fits.1.cost, Vec.normSq_eq_norm_sq hfits.residuals,
      Vec.normSq_eq_norm_sq h.fits.1.residuals] at hlower
    exact le_of_sq_le_sq hlower.le (norm_nonneg _)
  · rcases hcases with ⟨-, hnewton⟩ | ⟨hedge, hradius⟩
    · -- at the end of the path no gradient is left, and the search would have ended
      have hzero : hfits.model.gradient = 0 := hnewton.gradient_eq_zero hmap hresiduals
      rw [hreason, if_pos (hfits.gradientMaxAbs_lt hzero only.gradient)] at hnone
      cases hnone
    · refine ⟨?_, hradius⟩
      have hgrows : settings.grows r.quality r.workspace.point.reachedEdge = true := by
        rw [Settings.grows, hquality, hstep.reachedEdge, hedge, decide_eq_true only.eager]
        rfl
      rw [hafter.radius, h.settings_eq, Search.Round.radiusAfter, haccepted, if_pos rfl,
        if_pos hgrows]

/-- What a run on a steep problem keeps: it needs no damping, it ends exactly where the gradient is
small, its residuals stay below the first ones, and every radius it has gone on from was below a
multiple of these. -/
theorem Run.steep (h : p.Run settings clock state points reason s)
    (steep : p.Steep state.size A b k) (only : settings.GradientOnly) :
    s.session.lambda = 0 ∧
      reason = (if s.session.point.gradientMaxAbs < settings.gradientTolerance
        then some .gradientTolerance else none) ∧
      ‖s.session.point.residuals.toEuclidean p.measurements‖ ≤
        ‖affineResiduals p.measurements state.size A b state‖ ∧
      (reason = none → s.session.radius = settings.radius * settings.growFactor ^ s.iterations ∧
        ∀ i, i < s.iterations → settings.radius * settings.growFactor ^ i ≤
          k * ‖affineResiduals p.measurements state.size A b state‖) := by
  induction h with
  | @opening e e' evaluation point valid built asked first =>
      have hrun : p.Run settings clock state [point] _ _ := .opening valid built asked first
      refine ⟨rfl, only.converged?_eq _ _ _, ?_, fun _ => ⟨?_, fun i hi => ?_⟩⟩
      · obtain ⟨hreported, -⟩ := (serves_evaluator built).evaluate asked
        rw [← steep.affine.residuals_first hreported first]
        rfl
      · exact (mul_one _).symm
      · cases hi
  | @round points s s' r reason before room attempted ih =>
      obtain ⟨hlambda, hreason, hresiduals, hgrown⟩ := ih
      obtain ⟨hradius, hearlier⟩ := hgrown rfl
      have hgradient : ¬ s.session.point.gradientMaxAbs < settings.gradientTolerance := by
        intro hsmall
        rw [if_pos hsmall] at hreason
        cases hreason
      obtain ⟨hlambda', hreason', hresiduals', hgrows⟩ :=
        before.steep_round steep only room hlambda hgradient attempted
      refine ⟨hlambda', hreason', hresiduals'.trans hresiduals, fun hnone => ?_⟩
      obtain ⟨hradius', hbelow⟩ := hgrows hnone
      rw [attempted.after.iterations]
      refine ⟨by rw [hradius', hradius, pow_succ, mul_assoc], fun i hi => ?_⟩
      rcases Nat.lt_succ_iff_lt_or_eq.mp hi with hlt | rfl
      · exact hearlier i hlt
      · rw [← hradius]
        exact hbelow.trans (mul_le_mul_of_nonneg_left hresiduals steep.nonneg)

/-- It goes on only from points with a gradient. -/
theorem Run.steep_gradient (h : p.Run settings clock state points none s)
    (steep : p.Steep state.size A b k) (only : settings.GradientOnly) :
    h.fits.1.model.gradient ≠ 0 := by
  obtain ⟨-, hreason, -, -⟩ := h.steep steep only
  intro hzero
  rw [if_pos (h.fits.1.gradientMaxAbs_lt hzero only.gradient)] at hreason
  cases hreason

/-- A run on a steep problem goes on only until the radius has passed the multiple of the first
residuals. -/
theorem Run.steep_iterations (h : p.Run settings clock state points none s)
    (steep : p.Steep state.size A b k) (only : settings.GradientOnly) {most : ℕ}
    (far : k * ‖affineResiduals p.measurements state.size A b state‖ <
      settings.radius * settings.growFactor ^ most) : s.iterations ≤ most := by
  obtain ⟨-, -, -, hgrown⟩ := h.steep steep only
  by_contra hmany
  exact absurd ((hgrown rfl).2 most (not_le.mp hmany)) (not_le.mpr far)

/-- With more attempts than that, the loop comes to a small gradient. -/
theorem Run.steep_loop (h : p.Run settings clock state points reason s)
    (steep : p.Steep state.size A b k) (only : settings.GradientOnly) {most : ℕ}
    (far : k * ‖affineResiduals p.measurements state.size A b state‖ <
      settings.radius * settings.growFactor ^ most)
    (enough : most < settings.maxIterations) (few : s.iterations ≤ most + 1) (reporting : Bool)
    {remaining : ℕ} (room : s.iterations + remaining = settings.maxIterations) :
    ∃ points s', p.Run settings clock state points (some .gradientTolerance) s' ∧
      s'.iterations ≤ most + 1 ∧
      (s.loop clock reporting remaining reason).value = (.ok .gradientTolerance, s') := by
  induction remaining generalizing points reason s with
  | zero =>
      obtain ⟨-, hreason, -, -⟩ := h.steep steep only
      split at hreason
      · subst hreason
        exact ⟨points, s, h, few, rfl⟩
      · subst hreason
        exact absurd (h.steep_iterations steep only far) (by omega)
  | succ remaining ih =>
      obtain ⟨-, hreason, -, -⟩ := h.steep steep only
      split at hreason
      · subst hreason
        exact ⟨points, s, h, few, rfl⟩
      · subst hreason
        obtain ⟨r, reason, s₁, hattempt, -⟩ := h.exists_affine_attempt steep.affine only.tolerant
          only.room (h.steep_gradient steep only)
        have hvalue : (s.attempt clock reporting).value = (.ok reason, s₁) :=
          Search.attempt_iff.mpr ⟨r, hattempt⟩
        have hiterations := hattempt.after.iterations
        have hbefore := h.steep_iterations steep only far
        obtain ⟨points, s', hrun, hfew, hloop⟩ :=
          ih (h.round (by omega) hattempt) (by omega) (by omega)
        refine ⟨points, s', hrun, hfew, ?_⟩
        simp only [Search.loop, Logged.value_bind, hvalue]
        exact hloop

end Problem

end TrustRegion
