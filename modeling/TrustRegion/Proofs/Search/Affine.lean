/-
Module: TrustRegion.Proofs.Search.Affine
Purpose: Attempts on problems whose residuals are affine in the state, without rounding. The linear
  model is exact there, so every step from a point with a gradient is accepted with perfect quality, and
  the region does not shrink.
Main exports: Problem.Affine, Problem.Run.affine_attempt, Problem.Run.affine_round,
  Problem.Run.exists_affine_attempt
-/
import TrustRegion.Proofs.Scalar.Bound
import TrustRegion.Proofs.Search.Descent
import TrustRegion.Proofs.Search.Region
import TrustRegion.Proofs.Search.Sound
import TrustRegion.Proofs.Search.Trace

namespace TrustRegion

/-- A problem with `n` states whose callback, whenever it is asked, reports the residuals `A p - b` and
the Jacobian `A`. -/
def Problem.Affine (p : Problem ℝ) (n : ℕ) (A : ℕ → ℕ → ℝ) (b : ℕ → ℝ) : Prop :=
  ∀ (calls : ℕ) (state : Vec ℝ), state.size = n →
    ∃ evaluation, p.report n calls state = some evaluation ∧
      (∀ r, r < p.measurements →
        evaluation.residuals.entry r = ∑ i ∈ Finset.range n, A r i * state.entry i - b r) ∧
      ∀ r i, r < p.measurements → i < n → evaluation.jacobian.slope r i = A r i

/-- The residuals `A p - b` at a state. -/
noncomputable def affineResiduals (m n : ℕ) (A : ℕ → ℕ → ℝ) (b : ℕ → ℝ) (state : Vec ℝ) :
    EuclideanSpace ℝ (Fin m) :=
  linearOf m n A (state.toEuclidean n) - WithLp.toLp _ fun r : Fin m => b r

/-- An update changes them by its image. -/
theorem affineResiduals_add {m n : ℕ} (A : ℕ → ℕ → ℝ) (b : ℕ → ℝ) {state : Vec ℝ}
    (size : state.size = n) (update : Vec ℝ) :
    affineResiduals m n A b (state.add update) =
      affineResiduals m n A b state + linearOf m n A (update.toEuclidean n) := by
  rw [affineResiduals, affineResiduals, Vec.toEuclidean_add size, map_add]
  abel

namespace Problem

variable {p : Problem ℝ} {n : ℕ} {A : ℕ → ℕ → ℝ} {b : ℕ → ℝ}

/-- Every report of an affine problem is that of the affine map. -/
theorem Affine.of_report (h : p.Affine n A b) {calls : ℕ} {state : Vec ℝ} {evaluation : Evaluation ℝ}
    (size : state.size = n) (reported : p.report n calls state = some evaluation) :
    evaluation.residuals.toEuclidean p.measurements =
        affineResiduals p.measurements n A b state ∧
      evaluation.jacobian.linear p.measurements n = linearOf p.measurements n A := by
  obtain ⟨evaluation', hreported, hresiduals, hslopes⟩ := h calls state size
  rw [reported] at hreported
  cases hreported
  constructor
  · apply PiLp.ext
    intro r
    rw [Vec.toEuclidean_apply, hresiduals r r.isLt, Finset.sum_range]
    rfl
  · exact linearOf_congr hslopes

variable {settings : Settings ℝ} {clock : Clock} {state : Vec ℝ} {points : List (Linearization ℝ)}
  {s : Search ℝ (CholeskySolver ℝ)} {reason : Option StopReason}

/-- The linear model at the current point of a run is the problem itself. -/
theorem Affine.model_run (h : p.Affine state.size A b)
    (run : p.Run settings clock state points reason s) :
    run.fits.1.model.map = linearOf p.measurements state.size A ∧
      run.fits.1.model.residuals =
        affineResiduals p.measurements state.size A b s.session.point.state := by
  have hreported := (run.made run.current).reported
  have hstate : s.session.point.state.size = state.size := run.fits.1.state
  obtain ⟨hresiduals, hmap⟩ := h.of_report hstate hreported
  exact ⟨hmap, hresiduals⟩

/-- The first residuals are those of the problem at the first state. -/
theorem Affine.residuals_first (h : p.Affine state.size A b) {evaluation : Evaluation ℝ}
    {point : Linearization ℝ} {calls : ℕ} (reported : p.report state.size calls state = some evaluation)
    (first : (firstPoint p.backend state evaluation).value = .ok point) :
    point.residuals.toEuclidean p.measurements =
      affineResiduals p.measurements state.size A b state := by
  obtain ⟨gradient, -, rfl⟩ := Linearization.of_make (of_firstPoint first).1
  exact (h.of_report rfl reported).1

/-- On an affine problem every step from a point with a gradient is accepted with perfect quality, and
what is left of the residuals is what the linear model says. -/
theorem Run.affine_attempt (h : p.Run settings clock state points none s)
    (affine : p.Affine state.size A b) (tolerant : settings.rejectBelow ≤ 1)
    (gradient : h.fits.1.model.gradient ≠ 0) {step : Step ℝ} {w : Workspace ℝ (CholeskySolver ℝ)}
    (hstep : s.session.workspace.StepsTo settings.damping s.session.radius step w) :
    ∃ r reason s', s.Attempts clock r reason s' ∧ r.step = step ∧ r.workspace = w ∧
      r.accepted settings = true ∧ r.quality = 1 ∧
      r.candidate.jacobian.linear p.measurements state.size = h.fits.1.model.map ∧
      r.candidate.residuals.toEuclidean p.measurements =
        h.fits.1.model.residuals +
          h.fits.1.model.map (step.update.toEuclidean state.size) := by
  obtain ⟨v, hend, -, hsize, -, hnonneg, hcases⟩ := h.sound.steps h.usable.damping hstep
  have hpromise : 0 < h.fits.1.model.promise (step.update.toEuclidean state.size) := by
    rcases hcases with ⟨-, hreaches, rfl, -⟩ | ⟨g, hnewton, rfl, -⟩
    · exact (mul_pos h.radius_pos (norm_pos_iff.mpr gradient)).trans_le
        (promise_clipped_ge hend gradient h.radius_pos hreaches)
    · exact promise_blend_pos hend hnonneg hnewton gradient h.radius_pos
  have hmoved : (s.session.point.state.add step.update).size = state.size :=
    (Vec.size_add _ _).trans h.fits.1.state
  obtain ⟨evaluation, hreported, -⟩ := affine points.length _ hmoved
  have husable : s.session.settings.damping.Usable := by
    rw [h.settings_eq]
    exact h.usable.damping
  rw [← h.settings_eq] at hstep
  obtain ⟨r, reason, s', hattempt, rfl, rfl, rfl⟩ :=
    Search.exists_attempts h.sound h.fits.2 h.serves husable clock hstep hreported
  obtain ⟨hpredicted, -, -, -, hjacobian, hresiduals, hactual⟩ :=
    hattempt.exact h.sound h.serves husable
  obtain ⟨hleft, hmap⟩ := affine.of_report hmoved hreported
  obtain ⟨hmodel, hhere⟩ := affine.model_run h
  have hexact : r.evaluation.residuals.toEuclidean p.measurements =
      h.fits.1.model.residuals + h.fits.1.model.map (r.step.update.toEuclidean state.size) := by
    rw [hleft, affineResiduals_add A b h.fits.1.state, hhere, hmodel]
  have hsame : r.actual = r.predicted := by
    rw [hactual, hpredicted, hexact]
    rfl
  have hpositive : 0 < r.actual := by
    rw [hsame, hpredicted]
    exact hpromise
  have hquality : r.quality = 1 := by
    have hfinite : r.candidate.isFinite = true := rfl
    rw [Search.Round.quality, hfinite, ← hsame]
    unfold stepQuality
    simp only [if_true, hpositive]
    split
    · rfl
    · exact div_self hpositive.ne'
  refine ⟨r, reason, s', hattempt, rfl, rfl, ?_, hquality, ?_, ?_⟩
  · rw [Search.Round.accepted, Settings.accepts, hquality, decide_eq_true tolerant,
      decide_eq_true hpositive]
    rfl
  · rw [hjacobian, hmap, hmodel]
  · rw [hresiduals, hexact]

/-- So every attempt from there is accepted with perfect quality, and the search goes on from its
candidate. -/
theorem Run.affine_round (h : p.Run settings clock state points none s)
    (affine : p.Affine state.size A b) (tolerant : settings.rejectBelow ≤ 1)
    (gradient : h.fits.1.model.gradient ≠ 0) {r : Search.Round ℝ (CholeskySolver ℝ)}
    {s' : Search ℝ (CholeskySolver ℝ)} (attempted : s.Attempts clock r reason s') :
    s.session.workspace.StepsTo settings.damping s.session.radius r.step r.workspace ∧
      r.accepted settings = true ∧ r.quality = 1 ∧ s'.session.point = r.candidate ∧
      s'.session.point.jacobian.linear p.measurements state.size = h.fits.1.model.map ∧
      s'.session.point.residuals.toEuclidean p.measurements =
        h.fits.1.model.residuals + h.fits.1.model.map (r.step.update.toEuclidean state.size) := by
  have hstep := Workspace.stepsTo_of_computeStep attempted.computed
  rw [h.settings_eq] at hstep
  obtain ⟨r', reason', s'', hattempt, -, -, haccepted, hquality, hmap, hresiduals⟩ :=
    h.affine_attempt affine tolerant gradient hstep
  obtain ⟨rfl, rfl, rfl⟩ := hattempt.eq attempted
  have hpoint : s''.session.point = r'.candidate := by
    rw [attempted.after.point, h.settings_eq, Search.Round.endpoint_of_accepted haccepted]
  exact ⟨hstep, haccepted, hquality, hpoint, by rw [hpoint, hmap], by rw [hpoint, hresiduals]⟩

/-- From a point with a gradient an attempt can be made if the damping may grow once; its step is
accepted with perfect quality, and the region does not shrink. -/
theorem Run.exists_affine_attempt (h : p.Run settings clock state points none s)
    (affine : p.Affine state.size A b) (tolerant : settings.rejectBelow ≤ 1)
    (room : 1 ≤ settings.damping.maxAttempts) (gradient : h.fits.1.model.gradient ≠ 0) :
    ∃ r reason s', s.Attempts clock r reason s' ∧ r.accepted settings = true ∧ r.quality = 1 ∧
      s.session.radius ≤ s'.session.radius := by
  obtain ⟨step, w, hstep⟩ := h.sound.exists_stepsTo h.usable.damping room s.session.radius
  obtain ⟨r, reason, s', hattempt, -, -, haccepted, hquality, -, -⟩ :=
    h.affine_attempt affine tolerant gradient hstep
  refine ⟨r, reason, s', hattempt, haccepted, hquality, ?_⟩
  rw [hattempt.after.radius, h.settings_eq, Search.Round.radiusAfter, haccepted, if_pos rfl]
  split
  · exact le_mul_of_one_le_right h.radius_pos.le h.usable.growFactor.le
  · exact le_rfl

end Problem

end TrustRegion
