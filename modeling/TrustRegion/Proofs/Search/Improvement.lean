/-
Module: TrustRegion.Proofs.Search.Improvement
Purpose: A predicted improvement is a real one. Whatever radii steps were computed at before, the next
  step from a point promises a decrease of the linear model as long as there is a gradient, and no less
  a decrease than the first leg within the radius, unless it leads to the end of a damped path. The end
  of a damped path need not be the lowest point of the model, but it is lower than every point that is
  not farther away.
Main exports: LinearModel.promise_sub_of_newton, Linearization.Fits.PathStep,
  Linearization.Fits.PathStep.promise_ge, Workspace.Explored, Workspace.Explored.exists_stepsTo,
  Workspace.computeStep_improves
-/
import TrustRegion.Proofs.Linear.Recovery
import TrustRegion.Proofs.Search.Region
import TrustRegion.Proofs.Search.Sound
import TrustRegion.Proofs.Step.Geometry

namespace TrustRegion

open scoped RealInnerProductSpace

/-! ### The damped model -/

namespace LinearModel

variable {E F : Type*} [NormedAddCommGroup E] [InnerProductSpace ℝ E] [NormedAddCommGroup F]
  [InnerProductSpace ℝ F] {M : LinearModel E F} {lambda : ℝ} {s : E}

/-- How much more the end of the path promises than another point, with the damping counted in. -/
theorem promise_sub_of_newton (h : M.Newton lambda s) (u : E) :
    M.promise s - M.promise u =
      lambda * (‖s‖ ^ 2 - ‖u‖ ^ 2) + (‖M.map (s - u)‖ ^ 2 + lambda * ‖s - u‖ ^ 2) := by
  have hself := h s
  have hother := h u
  rw [real_inner_self_eq_norm_sq, real_inner_self_eq_norm_sq] at hself
  rw [promise_eq, promise_eq, map_sub, norm_sub_sq_real, norm_sub_sq_real]
  linarith

/-- The end of the path promises no less than any point that is as near, and without damping no less
than any point. -/
theorem promise_le_of_newton (h : M.Newton lambda s) (nonneg : 0 ≤ lambda) {u : E}
    (near : 0 < lambda → ‖u‖ ≤ ‖s‖) : M.promise u ≤ M.promise s := by
  have hdifference := promise_sub_of_newton h u
  have hlengths : 0 ≤ lambda * (‖s‖ ^ 2 - ‖u‖ ^ 2) := by
    rcases nonneg.eq_or_lt with rfl | hpos
    · rw [zero_mul]
    · exact mul_nonneg nonneg
        (sub_nonneg.mpr (pow_le_pow_left₀ (norm_nonneg u) (near hpos) 2))
  have himage := sq_nonneg ‖M.map (s - u)‖
  have hway := mul_nonneg nonneg (sq_nonneg ‖s - u‖)
  linarith

/-- On the way to a point that promises no less, nothing that was promised is lost. -/
theorem promise_le_between {c : E} {t : ℝ} (hle : M.promise c ≤ M.promise s) (nonneg : 0 ≤ t)
    (le_one : t ≤ 1) : M.promise c ≤ M.promise (c + t • (s - c)) := by
  rw [promise_between]
  have hbetween := mul_nonneg (mul_nonneg nonneg (sub_nonneg.mpr le_one))
    (sq_nonneg ‖M.map (s - c)‖)
  have hblend := mul_nonneg nonneg (sub_nonneg.mpr hle)
  linarith

end LinearModel

/-! ### The steps from a point -/

/-- The first leg, cut off at the radius where it is longer. -/
noncomputable def Vec.within (c : Vec ℝ) (radius : ℝ) : Vec ℝ :=
  (Step.clipped (Leg.ofVec c) (min c.norm radius)).update

theorem Vec.toEuclidean_zeros (n : ℕ) : (Vec.zeros n : Vec ℝ).toEuclidean n = 0 :=
  toEuclidean_eq_zero_iff.mpr fun _ hi => entry_ofFn hi

namespace Linearization.Fits

variable {m n : ℕ} {q : Linearization ℝ} {fits : q.Fits m n} {lambda radius : ℝ} {v : Vec ℝ}
  {step : Step ℝ}

/-- The steps along the path from a point at a radius. -/
inductive PathStep (fits : q.Fits m n) (lambda radius : ℝ) : Step ℝ → Prop where
  /-- The first leg reaches the boundary, and no more is asked. -/
  | clipped {v : Vec ℝ} (cauchy : fits.CauchyEnd v)
      (reaches : radius * radius ≤ (Leg.ofVec v).normSq) :
      PathStep fits lambda radius (Step.clipped (Leg.ofVec v) radius)
  /-- Both legs are known. -/
  | blended {v g : Vec ℝ} (cauchy : fits.CauchyEnd v) (newton : q.Newton lambda g) :
      PathStep fits lambda radius (blend (Leg.ofVec v) (Leg.ofVec g) radius)

theorem PathStep.size (h : fits.PathStep lambda radius step) : step.update.size = n := by
  cases h with
  | clipped cauchy reaches => exact (toEuclidean_clipped cauchy radius).1
  | blended cauchy newton =>
      exact size_blend cauchy.size (newton.size.trans fits.cols) radius

/-- The first leg within the radius is the whole of a leg that is shorter. -/
theorem CauchyEnd.within_of_norm_le (h : fits.CauchyEnd v) (short : v.norm ≤ radius) :
    (v.within radius).toEuclidean n = fits.model.cauchy := by
  rw [Vec.within, min_eq_left short, (toEuclidean_clipped h _).2, Vec.norm_eq_norm h.size, h.point]
  by_cases hzero : fits.model.cauchy = 0
  · rw [hzero, smul_zero]
  · rw [div_self (norm_ne_zero_iff.mpr hzero), one_smul]

/-- The first leg within the radius is the one cut off at the radius where it is longer. -/
theorem CauchyEnd.within_of_le_norm (long : radius ≤ v.norm) :
    v.within radius = (Step.clipped (Leg.ofVec v) radius).update := by
  rw [Vec.within, min_eq_right long]

/-- From a point with a gradient every step promises an improvement. -/
theorem PathStep.promise_pos (h : fits.PathStep lambda radius step) (nonneg : 0 ≤ lambda)
    (hradius : 0 < radius) (gradient : fits.model.gradient ≠ 0) :
    0 < fits.model.promise (step.update.toEuclidean n) := by
  cases h with
  | clipped cauchy reaches =>
      exact lt_of_lt_of_le (mul_pos hradius (norm_pos_iff.mpr gradient))
        (promise_clipped_ge cauchy gradient hradius reaches)
  | blended cauchy newton => exact promise_blend_pos cauchy nonneg newton gradient hradius

/-- The path from a point without a gradient ends where it begins. -/
theorem eq_zeros_of_newton {g : Vec ℝ} (fits : q.Fits m n) (newton : q.Newton lambda g)
    (gradient : fits.model.gradient = 0) : g = Vec.zeros n := by
  have hentry : ∀ i, i < n → q.gradient.entry i = 0 := Vec.toEuclidean_eq_zero_iff.mp gradient
  have hzeros : q.Newton lambda (Vec.zeros n) := by
    refine ⟨newton.definite, (Vec.size_zeros n).trans fits.cols.symm, ?_⟩
    intro i hi
    rw [fits.cols] at hi ⊢
    rw [hentry i hi, neg_zero]
    apply Finset.sum_eq_zero
    intro k hk
    rw [Vec.zeros, Vec.entry_ofFn (Finset.mem_range.mp hk), mul_zero]
  exact newton.eq hzeros

/-- From a point without a gradient the only step leads nowhere. -/
theorem PathStep.eq_zeros (h : fits.PathStep lambda radius step) (hradius : 0 < radius)
    (gradient : fits.model.gradient = 0) : step.update = Vec.zeros n := by
  cases h with
  | @clipped v cauchy reaches =>
      have hnone : (Leg.ofVec v).normSq = 0 := by
        rw [normSq_ofVec cauchy.size, cauchy.point, LinearModel.cauchy, gradient, smul_zero,
          norm_zero, zero_pow two_ne_zero]
      rw [hnone] at reaches
      exact absurd (mul_pos hradius hradius) (not_lt.mpr reaches)
  | @blended v g cauchy newton =>
      obtain rfl := eq_zeros_of_newton fits newton gradient
      have hinside : (Vec.zeros n : Vec ℝ).norm ≤ radius := by
        rw [Vec.norm_eq_norm (Vec.size_zeros n), Vec.toEuclidean_zeros, norm_zero]
        exact hradius.le
      rw [blend_of_norm_le hradius.le hinside]

/-- A step promises no less than the first leg within the radius, unless it leads to the end of a
damped path. -/
theorem PathStep.promise_ge (h : fits.PathStep lambda radius step) (nonneg : 0 ≤ lambda)
    (hradius : 0 < radius) (kind : ¬ (step.kind = .gaussNewton ∧ 0 < lambda)) :
    ∀ c, fits.CauchyEnd c → fits.model.promise ((c.within radius).toEuclidean n) ≤
      fits.model.promise (step.update.toEuclidean n) := by
  intro c hc
  cases h with
  | @clipped v cauchy reaches =>
      rw [hc.eq cauchy, CauchyEnd.within_of_le_norm ((Vec.le_norm_iff hradius.le).mpr reaches)]
  | @blended v g cauchy newton =>
      obtain rfl := hc.eq cauchy
      have hsize : g.size = n := newton.size.trans fits.cols
      have hnewton := newton.newton_model fits
      rcases le_or_gt g.norm radius with hinside | houtside
      · -- the step is the end of a path that is not damped
        rw [blend_of_norm_le hradius.le hinside] at kind ⊢
        exact LinearModel.promise_le_of_newton hnewton nonneg fun hpos => absurd ⟨rfl, hpos⟩ kind
      rcases le_or_gt radius c.norm with hreaches | hshort
      · rw [blend_on_firstLeg hradius.le houtside hreaches,
          CauchyEnd.within_of_le_norm hreaches]
      · -- the end of the path is farther away than that of the first leg
        have hle : fits.model.promise fits.model.cauchy ≤
            fits.model.promise (g.toEuclidean n) := by
          apply LinearModel.promise_le_of_newton hnewton nonneg
          intro _
          rw [← hc.point, ← Vec.norm_eq_norm hc.size, ← Vec.norm_eq_norm hsize]
          exact (hshort.trans houtside).le
        obtain ⟨hnonneg, hle_one⟩ := legFraction_mem (Leg.ofVec c) (g.sub c) (radius * radius)
        rw [hc.within_of_norm_le hshort.le, blend_past_firstLeg hradius.le houtside hshort,
          Vec.along, Vec.toEuclidean_add_mul hc.size, Vec.toEuclidean_sub hsize, hc.point]
        exact LinearModel.promise_le_between hle hnonneg hle_one

end Linearization.Fits

/-! ### What computing steps leaves behind -/

/-- If the factorization can be made at once, the end of the path is computed for the damping there
is. -/
theorem gaussNewtonVector_of_factorize {m n : ℕ} (schedule : DampingSchedule ℝ)
    {s s' : CholeskySolver ℝ} {q : Linearization ℝ} {damping : Damping ℝ} (fits : q.Fits m n)
    (unheld : ∀ mu, s.key ≠ some ⟨q.id, mu⟩)
    (factors : (LinearSolver.factorize s q.jacobian ⟨q.id, damping.lambda⟩).value = (.ok (), s')) :
    s'.storage = q.jacobian.storage ∧ ∃ v, q.Newton damping.lambda v ∧
      (gaussNewtonVector schedule q damping s).value =
        (.ok v, { damping with factorizations := successorWord damping.factorizations }, s') := by
  obtain ⟨hmade, -, -, hholds⟩ :=
    raiseUntilFactored_of_ok schedule damping schedule.maxAttempts factors
  rw [← factorizeDamped_of_unheld schedule q.jacobian damping unheld] at hmade
  obtain ⟨v, hsolve, hnewton⟩ := hholds.exists_solve (fits.size_gradient.trans fits.cols.symm)
  refine ⟨hholds.storage.symm, v, hnewton, ?_⟩
  unfold gaussNewtonVector
  simp only [Logged.value_bind, hmade, hsolve, Logged.value_pure]

namespace Workspace

/-- One workspace leads to another if computing a step at some radius leaves the one as the other,
whatever it answers. -/
def Leads {α β : Type} [Scalar α] [LinearSolver α β] (schedule : DampingSchedule α)
    (w w' : Workspace α β) : Prop :=
  ∃ radius answer, (w.computeStep schedule radius).value = (answer, w')

theorem leads_computeStep {α β : Type} [Scalar α] [LinearSolver α β] (schedule : DampingSchedule α)
    (radius : α) (w : Workspace α β) :
    w.Leads schedule (w.computeStep schedule radius).value.2 :=
  ⟨radius, (w.computeStep schedule radius).value.1, Prod.mk.eta.symm⟩

variable {m n : ℕ} {q : Linearization ℝ} {fits : q.Fits m n} {lambda : ℝ}
  {schedule : DampingSchedule ℝ} {w w' : Workspace ℝ (CholeskySolver ℝ)}

/-- What computing steps from a point at a damping leaves: the point, with true legs where they are
known, and a solver that can still make the factorization where the end of the path is not known. -/
structure Explored (fits : q.Fits m n) (lambda : ℝ) (w : Workspace ℝ (CholeskySolver ℝ)) :
    Prop where
  bare : w.point.bare = q.bare
  storage : w.backend.storage = q.jacobian.storage
  damping : w.damping.lambda = lambda
  cauchy : ∀ c, w.point.cauchy = some c → ∃ v, c = Leg.ofVec v ∧ fits.CauchyEnd v
  gaussNewton : ∀ g, w.point.gaussNewton = some g → ∃ v, g = Leg.ofVec v ∧ q.Newton lambda v
  factors : w.point.gaussNewton = none → (∀ mu, w.backend.key ≠ some ⟨q.id, mu⟩) ∧
    ∃ s', (LinearSolver.factorize w.backend q.jacobian ⟨q.id, lambda⟩).value = (.ok (), s')

namespace Explored

/-- What a vector is predicted to improve is what the linear model promises for it. -/
theorem predicts (h : Explored fits lambda w) {u : Vec ℝ} (size : u.size = n) :
    (predictedImprovement w.backend w.point u).value =
      .ok (fits.model.promise (u.toEuclidean n)) := by
  obtain ⟨-, -, -, -, hjacobian, -⟩ := Linearization.parts_of_bare_eq h.bare
  have hfits : w.point.Fits m n := fits.of_bare_eq h.bare
  have hkind : w.point.jacobian.storage = w.backend.storage := by rw [hjacobian, h.storage]
  rw [predictedImprovement_exact hfits hkind size, fits.model_eq hfits h.bare]

/-- The true first leg is known or can be computed. -/
theorem exists_cauchyLeg (h : Explored fits lambda w) :
    ∃ v, fits.CauchyEnd v ∧ w.CauchyLeg (Leg.ofVec v) := by
  cases hc : w.point.cauchy with
  | some c =>
      obtain ⟨v, rfl, hend⟩ := h.cauchy c hc
      exact ⟨v, hend, .known hc⟩
  | none =>
      obtain ⟨-, -, -, -, hjacobian, -⟩ := Linearization.parts_of_bare_eq h.bare
      have hfits : w.point.Fits m n := fits.of_bare_eq h.bare
      have hkind : w.point.jacobian.storage = w.backend.storage := by rw [hjacobian, h.storage]
      obtain ⟨v, hv, hend⟩ := cauchyVector_exact hfits hkind
      refine ⟨v, ⟨hend.size, ?_⟩, .computed hc hv⟩
      rw [hend.point, fits.model_eq hfits h.bare]

/-- Where both legs are known, nothing more is asked of the solver. -/
theorem of_legs {v g : Vec ℝ} (bare : w.point.bare = q.bare)
    (storage : w.backend.storage = q.jacobian.storage) (damping : w.damping.lambda = lambda)
    (first : w.point.cauchy = some (Leg.ofVec v)) (hend : fits.CauchyEnd v)
    (path : w.point.gaussNewton = some (Leg.ofVec g)) (hnewton : q.Newton lambda g) :
    Explored fits lambda w := by
  constructor
  · exact bare
  · exact storage
  · exact damping
  · intro c hc
    rw [first] at hc
    cases hc
    exact ⟨v, rfl, hend⟩
  · intro g' hg'
    rw [path] at hg'
    cases hg'
    exact ⟨g, rfl, hnewton⟩
  · intro hnone
    rw [path] at hnone
    cases hnone

/-- A step can be computed at every radius. It is a step along the path, and leaves no less known. -/
theorem exists_stepsTo (h : Explored fits lambda w) (schedule : DampingSchedule ℝ) (radius : ℝ) :
    ∃ step w', w.StepsTo schedule radius step w' ∧ fits.PathStep lambda radius step ∧
      Explored fits lambda w' := by
  obtain ⟨hid, -, -, -, hjacobian, hgradient⟩ := Linearization.parts_of_bare_eq h.bare
  obtain ⟨v, hend, first⟩ := h.exists_cauchyLeg
  cases hg : w.point.gaussNewton with
  | some g =>
      obtain ⟨g, rfl, hnewton⟩ := h.gaussNewton g hg
      exact ⟨_, _, .reused first hg, .blended hend hnewton,
        .of_legs h.bare h.storage h.damping rfl hend rfl hnewton⟩
  | none =>
      by_cases hreaches : radius * radius ≤ (Leg.ofVec v).normSq
      · refine ⟨_, _, .clipped first hg hreaches, .clipped hend hreaches, ?_⟩
        constructor
        · exact h.bare
        · exact h.storage
        · exact h.damping
        · intro c hc
          cases hc
          exact ⟨v, rfl, hend⟩
        · intro g' hg'
          cases hg'
        · intro _
          exact h.factors hg
      · obtain ⟨hunheld, s', hfactors⟩ := h.factors hg
        have hfits : w.point.Fits m n := fits.of_bare_eq h.bare
        rw [← hid] at hunheld
        rw [← hid, ← hjacobian, ← h.damping] at hfactors
        obtain ⟨hstorage, g, hnewton, hvalue⟩ :=
          gaussNewtonVector_of_factorize schedule hfits hunheld hfactors
        have hsame : q.Newton lambda g := by
          rw [h.damping] at hnewton
          exact hnewton.of_bare_eq h.bare.symm
        exact ⟨_, _, .factored first hg hreaches hvalue, .blended hend hsame,
          .of_legs h.bare (hstorage.trans (congrArg _ hjacobian)) h.damping rfl hend rfl hsame⟩

/-- Computing a step leaves the point and what is true of it. -/
theorem leads (h : Explored fits lambda w) (leads : w.Leads schedule w') :
    Explored fits lambda w' := by
  obtain ⟨radius, answer, hcomputed⟩ := leads
  obtain ⟨step, w'', hstep, -, hexplored⟩ := h.exists_stepsTo schedule radius
  rw [computeStep_of_stepsTo hstep] at hcomputed
  cases hcomputed
  exact hexplored

/-- Computing any number of steps does. -/
theorem reaches (h : Explored fits lambda w)
    (reached : Relation.ReflTransGen (Leads schedule) w w') : Explored fits lambda w' := by
  induction reached with
  | refl => exact h
  | tail _ last ih => exact ih.leads last

end Explored

/-- A point that was just made, with a solver that can make its factorization. -/
theorem explored_of_make {backend : CholeskySolver ℝ} {id : ℕ} {state : Vec ℝ}
    {evaluation : Evaluation ℝ} {damping : Damping ℝ}
    (made : (Linearization.make backend id state evaluation).value = .ok q)
    (cols : evaluation.jacobian.stored.cols = state.size)
    (unheld : ∀ mu, backend.key ≠ some ⟨id, mu⟩)
    (factors : ∃ s', (LinearSolver.factorize backend evaluation.jacobian
      ⟨id, damping.lambda⟩).value = (.ok (), s')) :
    ∃ fits : q.Fits evaluation.jacobian.stored.rows state.size,
      Explored fits damping.lambda ⟨backend, damping, q⟩ := by
  obtain ⟨gradient, hgradient, rfl⟩ := Linearization.of_make made
  obtain ⟨hkind, hresiduals, rfl⟩ := CholeskySolver.gradient_eq hgradient
  refine ⟨⟨rfl, hresiduals, rfl, cols, rfl, rfl⟩, ?_⟩
  constructor
  · rfl
  · exact hkind.symm
  · rfl
  · intro c hc
    cases hc
  · intro g hg
    cases hg
  · intro _
    exact ⟨unheld, factors⟩

/-- The next step from a point, whatever steps were computed there before, promises an improvement if
there is a gradient and leads nowhere otherwise. Unless it leads to the end of a damped path it
promises no less than the first leg within the radius. -/
theorem computeStep_improves {backend : CholeskySolver ℝ} {id : ℕ} {state : Vec ℝ}
    {evaluation : Evaluation ℝ} {damping : Damping ℝ} {radius : ℝ}
    (made : (Linearization.make backend id state evaluation).value = .ok q)
    (cols : evaluation.jacobian.stored.cols = state.size) (nonneg : 0 ≤ damping.lambda)
    (unheld : ∀ mu, backend.key ≠ some ⟨id, mu⟩)
    (factors : ∃ s', (LinearSolver.factorize backend evaluation.jacobian
      ⟨id, damping.lambda⟩).value = (.ok (), s'))
    (reached : Relation.ReflTransGen (Leads schedule) ⟨backend, damping, q⟩ w)
    (hradius : 0 < radius) :
    ∃ step w' improvement cauchy least,
      (w.computeStep schedule radius).value = (.ok step, w') ∧
      (predictedImprovement w'.backend w'.point step.update).value = .ok improvement ∧
      (q.gradient ≠ Vec.zeros state.size → 0 < improvement) ∧
      (q.gradient = Vec.zeros state.size → step.update = Vec.zeros state.size) ∧
      (cauchyVector backend q).value = .ok cauchy ∧
      (predictedImprovement backend q (cauchy.within radius)).value = .ok least ∧
      (¬ (step.kind = .gaussNewton ∧ 0 < damping.lambda) → least ≤ improvement) := by
  obtain ⟨fits, hstart⟩ := explored_of_make made cols unheld factors
  obtain ⟨step, w', hstep, hpath, hleft⟩ := (hstart.reaches reached).exists_stepsTo schedule radius
  obtain ⟨c, hc, hend⟩ := cauchyVector_exact (s := backend) fits hstart.storage.symm
  have hwithin : (c.within radius).size = state.size :=
    (toEuclidean_clipped hend (min c.norm radius)).1
  have hzero : fits.model.gradient = 0 ↔ q.gradient = Vec.zeros state.size := by
    constructor
    · intro hgradient
      exact Vec.eq_of_toEuclidean_eq fits.size_gradient (Vec.size_zeros _)
        (hgradient.trans (Vec.toEuclidean_zeros _).symm)
    · intro hgradient
      show q.gradient.toEuclidean state.size = 0
      rw [hgradient, Vec.toEuclidean_zeros]
  refine ⟨step, w', _, c, _, computeStep_of_stepsTo hstep, hleft.predicts hpath.size, ?_, ?_, hc,
    hstart.predicts hwithin, ?_⟩
  · intro hgradient
    exact hpath.promise_pos nonneg hradius (mt hzero.mp hgradient)
  · intro hgradient
    exact hpath.eq_zeros hradius (hzero.mpr hgradient)
  · intro hkind
    exact hpath.promise_ge nonneg hradius hkind c hend

/-- After a step at a radius of three, which made the whole path known, the damped path of
`constantOne` is cut off at a radius of one half, and the step promises an improvement. -/
theorem computeStep_improves_constantOne :
    ∃ (q : Linearization ℝ) (step : Step ℝ) (w : Workspace ℝ (CholeskySolver ℝ)) (improvement : ℝ),
      (Linearization.make Problem.constantOne.backend 0 ⟨#[0]⟩ Problem.unitEvaluation).value =
        .ok q ∧
      (((Workspace.mk Problem.constantOne.backend (Damping.mk (1 : ℝ) 0) q).computeStep
        DampingSchedule.standard 3).value.2.computeStep DampingSchedule.standard (1 / 2)).value =
        (.ok step, w) ∧
      (predictedImprovement w.backend w.point step.update).value = .ok improvement ∧
      0 < improvement := by
  obtain ⟨q, hq⟩ : ∃ q, (Linearization.make Problem.constantOne.backend 0 ⟨#[0]⟩
      Problem.unitEvaluation).value = .ok q := ⟨_, rfl⟩
  have hnonneg : 0 ≤ (Damping.mk (1 : ℝ) 0).lambda := zero_le_one
  have hfactors : ∃ s', (LinearSolver.factorize Problem.constantOne.backend
      Problem.unitEvaluation.jacobian ⟨0, (Damping.mk (1 : ℝ) 0).lambda⟩).value =
        (.ok (), s') := by
    obtain ⟨-, s', -, hmade⟩ | ⟨hnot, -⟩ := CholeskySolver.factorize_exact
      (CholeskySolver.suits_new .dense 1) (j := Problem.unitEvaluation.jacobian) rfl rfl
      ⟨0, (1 : ℝ)⟩
    · exact ⟨s', hmade⟩
    · exact absurd (Problem.unitEvaluation.jacobian.positiveDefinite_gram_of_pos one_pos) hnot
  obtain ⟨step, w, improvement, -, -, hstep, hpredicted, hpos, -⟩ :=
    computeStep_improves hq rfl hnonneg (fun mu hmu => nomatch hmu) hfactors
      (.single (leads_computeStep DampingSchedule.standard 3 _)) one_half_pos
  refine ⟨q, step, w, improvement, hq, hstep, hpredicted, hpos ?_⟩
  -- the gradient is the one residual, which is one
  intro hzeros
  obtain ⟨gradient, hgradient, rfl⟩ := Linearization.of_make hq
  obtain ⟨-, -, rfl⟩ := CholeskySolver.gradient_eq hgradient
  have hzero : (StoredMatrix.transposeMulVec Problem.unitEvaluation.jacobian.stored
      Problem.unitVector).entry 0 = 0 :=
    (congrArg (Vec.entry · 0) hzeros).trans (Vec.entry_ofFn Nat.one_pos)
  rw [Jacobian.entry_transposeMulVec _ _ Nat.one_pos] at hzero
  have hone : ∑ r ∈ Finset.range 1, Problem.unitEvaluation.jacobian.slope r 0 *
      Problem.unitVector.entry r = 0 := hzero
  rw [Finset.sum_range_one, Problem.slope_unitEvaluation, one_mul] at hone
  exact one_ne_zero hone

end Workspace

end TrustRegion
