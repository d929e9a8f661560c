/-
Module: TrustRegion.Proofs.Search.Endpoint
Purpose: Both ends of the path are lowest points, without rounding. The first leg leads to the lowest
  point of the linear model along the gradient, and nowhere only from a point without a gradient. The
  end of the path is the one lowest point of the damped model, for the damping that a request ends with.
Main exports: LinearModel.promise_gradient_le, LinearModel.damped_promise_sub, Jacobian.Definite.pos,
  CholeskySolver.HoldsFor, gaussNewtonVector_of_held, gaussNewtonVector_newton,
  Linearization.endpoints_lowest
-/
import TrustRegion.Proofs.Linear.Schedule
import TrustRegion.Proofs.Search.Improvement

namespace TrustRegion

open scoped RealInnerProductSpace

/-! ### Lowest points of the model -/

namespace LinearModel

variable {E F : Type*} [NormedAddCommGroup E] [InnerProductSpace ℝ E] [NormedAddCommGroup F]
  [InnerProductSpace ℝ F] {M : LinearModel E F} {lambda : ℝ} {s : E}

theorem cauchy_eq_zero_iff : M.cauchy = 0 ↔ M.gradient = 0 := by
  constructor
  · exact not_imp_not.mp cauchy_ne_zero
  · intro h
    rw [cauchy, h, smul_zero]

theorem map_gradient_eq_zero_iff : M.map M.gradient = 0 ↔ M.gradient = 0 := by
  constructor
  · exact not_imp_not.mp map_gradient_ne_zero
  · intro h
    rw [h, map_zero]

/-- Along the gradient nothing promises more than the first leg. -/
theorem promise_gradient_le (t : ℝ) : M.promise (t • M.gradient) ≤ M.promise M.cauchy := by
  by_cases h : M.gradient = 0
  · rw [cauchy_eq_zero_iff.mpr h, h, smul_zero]
  · -- every multiple of the gradient is one of the first leg
    obtain ⟨r, hr⟩ : ∃ r : ℝ, t • M.gradient = r • M.cauchy := by
      refine ⟨-(t / (‖M.gradient‖ ^ 2 / ‖M.map M.gradient‖ ^ 2)), ?_⟩
      rw [cauchy, smul_smul, neg_mul_neg, div_mul_cancel₀ _ (ratio_pos h).ne']
    have hwhole := promise_smul_cauchy h 1
    rw [one_smul] at hwhole
    rw [hr, promise_smul_cauchy h, hwhole]
    have hlengths : 0 ≤ ‖M.cauchy‖ * ‖M.gradient‖ := by positivity
    have hsquare := mul_nonneg (sq_nonneg (r - 1)) hlengths
    linarith

/-- What another point promises less than the end of the path, with the damping on both sides. -/
theorem damped_promise_sub (h : M.Newton lambda s) (u : E) :
    (M.promise s - lambda * ‖s‖ ^ 2) - (M.promise u - lambda * ‖u‖ ^ 2) =
      ‖M.map (s - u)‖ ^ 2 + lambda * ‖s - u‖ ^ 2 := by
  have hdifference := promise_sub_of_newton h u
  linarith

end LinearModel

/-- What a positive definite matrix says of a vector that does not vanish. -/
theorem Jacobian.Definite.pos {m n : ℕ} {j : Jacobian ℝ} {lambda : ℝ} (h : j.Definite lambda)
    (rows : j.stored.rows = m) (cols : j.stored.cols = n) {v : Vec ℝ} (size : v.size = n)
    (nonzero : v.toEuclidean n ≠ 0) :
    0 < ‖j.linear m n (v.toEuclidean n)‖ ^ 2 + lambda * ‖v.toEuclidean n‖ ^ 2 := by
  obtain ⟨i, hi, hne⟩ : ∃ i, i < n ∧ v.entry i ≠ 0 := by
    by_contra hall
    push Not at hall
    exact nonzero (Vec.toEuclidean_eq_zero_iff.mpr hall)
  have hform := h v.entry ⟨i, cols ▸ hi, hne⟩
  have himage : ∑ r ∈ Finset.range j.stored.rows,
      (∑ i ∈ Finset.range j.stored.cols, j.slope r i * v.entry i) ^ 2 =
        ‖j.linear m n (v.toEuclidean n)‖ ^ 2 := by
    rw [← Jacobian.toEuclidean_mulVec rows cols,
      ← Vec.normSq_eq_norm_sq ((StoredMatrix.size_mulVec _ _).trans rows), Vec.normSq_eq,
      StoredMatrix.size_mulVec]
    exact Finset.sum_congr rfl fun r hr => by rw [entry_mulVec j v (Finset.mem_range.mp hr)]
  have hvector : ∑ i ∈ Finset.range n, v.entry i ^ 2 = ‖v.toEuclidean n‖ ^ 2 := by
    rw [← Vec.normSq_eq_norm_sq size, Vec.normSq_eq, size]
  rwa [quadraticForm_gram, himage, cols, hvector] at hform

/-! ### Factorizations that are made or found -/

/-- What a solver holds under the number of a point is a factorization of the Jacobian there. -/
def CholeskySolver.HoldsFor (s : CholeskySolver ℝ) (point : ℕ) (j : Jacobian ℝ) : Prop :=
  ∀ mu, s.key = some ⟨point, mu⟩ → s.Holds j mu

/-- Without rounding, keys compare as equal exactly if they are. -/
instance : LawfulBEq (FactorizationKey ℝ) where
  rfl {key} := by
    show (key.point == key.point && key.lambda == key.lambda) = true
    rw [beq_self_eq_true, beq_self_eq_true, Bool.and_self]
  eq_of_beq {key other} h := by
    obtain ⟨point, lambda⟩ := key
    obtain ⟨point', lambda'⟩ := other
    have hsame : (point == point' && lambda == lambda') = true := h
    rw [Bool.and_eq_true, beq_iff_eq, beq_iff_eq] at hsame
    rw [hsame.1, hsame.2]

section Requests

variable {schedule : DampingSchedule ℝ} {j : Jacobian ℝ} {s s' : CholeskySolver ℝ} {point : ℕ}
  {damping d : Damping ℝ}

/-- Requests that end with a success leave the factorization for the damping left behind. -/
theorem DampingSchedule.Raised.holds {remaining k : ℕ}
    (h : schedule.Raised j point s remaining damping k (.ok ()) d s') : s'.Holds j d.lambda := by
  have hrequest := schedule.factorize_solverAfter j point damping.lambda s k
  rw [h.concludes.last_of_ok, ← h.solver] at hrequest
  obtain ⟨-, -, hholds⟩ | ⟨⟨e, he⟩, -⟩ := CholeskySolver.factorize_cases hrequest
  · rw [h.lambda]
    exact hholds
  · cases he

/-- A factorization that was made sure of is there for the damping left behind. -/
theorem CholeskySolver.HoldsFor.holds (h : s.HoldsFor point j)
    (made : (factorizeDamped schedule j point damping s).value = (.ok (), d, s')) :
    s'.Holds j d.lambda := by
  cases hreported : (LinearSolver.factorizedFor s == some ⟨point, damping.lambda⟩) with
  | true =>
      rw [factorizeDamped_of_reported hreported] at made
      cases made
      exact h damping.lambda (eq_of_beq hreported)
  | false =>
      rw [factorizeDamped_of_unreported hreported] at made
      obtain ⟨k, answer, damping', backend', hvalue, hraised⟩ :=
        raiseUntilFactored_raised schedule j point schedule.maxAttempts damping s
      rw [hvalue] at made
      cases made
      exact hraised.holds

/-- Where the factorization can be made at once, it is made sure of for the damping there is. -/
theorem factorizeDamped_of_factorize (schedule : DampingSchedule ℝ) {s₁ : CholeskySolver ℝ}
    (factors : (LinearSolver.factorize s j ⟨point, damping.lambda⟩).value = (.ok (), s₁)) :
    ∃ d s', (factorizeDamped schedule j point damping s).value = (.ok (), d, s') ∧
      d.lambda = damping.lambda := by
  cases hreported : (LinearSolver.factorizedFor s == some ⟨point, damping.lambda⟩) with
  | true =>
      rw [factorizeDamped_of_reported hreported]
      exact ⟨damping, s, rfl, rfl⟩
  | false =>
      have hreply : schedule.reply j point damping.lambda s 0 = .ok () := congrArg Prod.fst factors
      have hends : schedule.Concludes schedule.maxAttempts 0 damping.lambda
          (schedule.reply j point damping.lambda s 0) (.ok ()) := by
        rw [hreply]
        exact .factored
      rw [factorizeDamped_of_unreported hreported]
      exact ⟨_, _, raiseUntilFactored_of_concludes hends, rfl⟩

end Requests

section Path

variable {m n : ℕ} {q : Linearization ℝ} {schedule : DampingSchedule ℝ}
  {s s' : CholeskySolver ℝ} {damping d : Damping ℝ} {g : Vec ℝ}

/-- With its factorization made sure of, the end of the path is computed. -/
theorem gaussNewtonVector_of_holds (fits : q.Fits m n)
    (made : (factorizeDamped schedule q.jacobian q.id damping s).value = (.ok (), d, s'))
    (holds : s'.Holds q.jacobian d.lambda) :
    ∃ v, (gaussNewtonVector schedule q damping s).value = (.ok v, d, s') ∧
      q.Newton d.lambda v := by
  obtain ⟨v, hsolve, hnewton⟩ := holds.exists_solve (fits.size_gradient.trans fits.cols.symm)
  refine ⟨v, ?_, hnewton⟩
  unfold gaussNewtonVector
  simp only [Logged.value_bind, made, hsolve, Logged.value_pure]

/-- Where the factorization can be made at once, the end of the path is computed for the damping there
is, also if the factorization is held already. -/
theorem gaussNewtonVector_of_held (schedule : DampingSchedule ℝ) (fits : q.Fits m n)
    (held : s.HoldsFor q.id q.jacobian)
    (factors : ∃ s₁, (LinearSolver.factorize s q.jacobian ⟨q.id, damping.lambda⟩).value =
      (.ok (), s₁)) :
    ∃ v d s', (gaussNewtonVector schedule q damping s).value = (.ok v, d, s') ∧
      d.lambda = damping.lambda ∧ q.Newton damping.lambda v := by
  obtain ⟨s₁, hfactors⟩ := factors
  obtain ⟨d, s', hmade, hlambda⟩ := factorizeDamped_of_factorize schedule hfactors
  obtain ⟨v, hvalue, hnewton⟩ := gaussNewtonVector_of_holds fits hmade (held.holds hmade)
  rw [hlambda] at hnewton
  exact ⟨v, d, s', hvalue, hlambda, hnewton⟩

/-- Whatever is computed as the end of the path is the end for the damping left behind. -/
theorem gaussNewtonVector_newton (fits : q.Fits m n) (held : s.HoldsFor q.id q.jacobian)
    (computed : (gaussNewtonVector schedule q damping s).value = (.ok g, d, s')) :
    q.Newton d.lambda g ∧ s'.storage = q.jacobian.storage := by
  have hmade := (gaussNewtonVector_eq_ok computed).1
  have hholds := held.holds hmade
  obtain ⟨v, hvalue, hnewton⟩ := gaussNewtonVector_of_holds fits hmade hholds
  rw [computed] at hvalue
  cases hvalue
  exact ⟨hnewton, hholds.storage.symm⟩

end Path

/-! ### The ends of the path from a point -/

theorem Vec.eq_zeros_iff {n : ℕ} {v : Vec ℝ} (size : v.size = n) :
    v = Vec.zeros n ↔ v.toEuclidean n = 0 := by
  constructor
  · intro h
    rw [h, toEuclidean_zeros]
  · intro h
    exact eq_of_toEuclidean_eq size (size_zeros n) (h.trans (toEuclidean_zeros n).symm)

namespace Linearization

variable {backend : CholeskySolver ℝ} {id : ℕ} {state : Vec ℝ} {evaluation : Evaluation ℝ}
  {q : Linearization ℝ}

/-- What is known of a point that was made from an evaluation. -/
theorem fits_of_evaluation (made : (make backend id state evaluation).value = .ok q)
    (cols : evaluation.jacobian.stored.cols = state.size) :
    q.Fits evaluation.jacobian.stored.rows state.size ∧ q.id = id ∧
      q.jacobian = evaluation.jacobian ∧ q.jacobian.storage = backend.storage := by
  obtain ⟨gradient, hgradient, rfl⟩ := of_make made
  obtain ⟨hkind, hresiduals, rfl⟩ := CholeskySolver.gradient_eq hgradient
  exact ⟨⟨rfl, hresiduals, rfl, cols, rfl, rfl⟩, rfl, rfl, hkind⟩

variable {m n : ℕ} {lambda : ℝ} {g u : Vec ℝ} {s : CholeskySolver ℝ}

/-- The image of a vector, as it is computed. -/
theorem Fits.jacobianMul_exact (fits : q.Fits m n) (kind : q.jacobian.storage = s.storage)
    (size : u.size = n) :
    ∃ image, (LinearSolver.jacobianMul s q.jacobian u).value = .ok image ∧
      image.normSq = ‖fits.model.map (u.toEuclidean n)‖ ^ 2 := by
  refine ⟨_, CholeskySolver.jacobianMul_eq kind (size.trans fits.cols.symm), ?_⟩
  rw [Vec.normSq_eq_norm_sq ((StoredMatrix.size_mulVec _ _).trans fits.rows),
    Jacobian.toEuclidean_mulVec fits.rows fits.cols]
  rfl

/-- With the damping on both sides, the end of the path promises more than every other vector. -/
theorem Newton.lowest (newton : q.Newton lambda g) (fits : q.Fits m n) (size : u.size = n) :
    fits.model.promise (u.toEuclidean n) - lambda * u.normSq ≤
        fits.model.promise (g.toEuclidean n) - lambda * g.normSq ∧
      (fits.model.promise (u.toEuclidean n) - lambda * u.normSq =
        fits.model.promise (g.toEuclidean n) - lambda * g.normSq → u = g) := by
  have hsize : g.size = n := newton.size.trans fits.cols
  have hgap := LinearModel.damped_promise_sub (newton.newton_model fits) (u.toEuclidean n)
  rw [← Vec.normSq_eq_norm_sq hsize, ← Vec.normSq_eq_norm_sq size] at hgap
  rw [← Vec.toEuclidean_sub hsize] at hgap
  by_cases hsame : (g.sub u).toEuclidean n = 0
  · have heq : u = g := by
      rw [Vec.toEuclidean_sub hsize, sub_eq_zero] at hsame
      exact Vec.eq_of_toEuclidean_eq size hsize hsame.symm
    exact ⟨by rw [heq], fun _ => heq⟩
  · have hpos := newton.definite.pos fits.rows fits.cols
      ((Vec.size_ofFn _ _).trans hsize) hsame
    have hlt : fits.model.promise (u.toEuclidean n) - lambda * u.normSq <
        fits.model.promise (g.toEuclidean n) - lambda * g.normSq := by
      rw [← sub_pos, hgap]
      exact hpos
    exact ⟨hlt.le, fun heq => absurd heq hlt.ne⟩

/-- The first leg ends where the linear model is lowest along the gradient, and where it begins only if
there is no gradient. The image of the gradient vanishes only then. -/
theorem Fits.cauchy_lowest (fits : q.Fits m n) (kind : q.jacobian.storage = s.storage) :
    ∃ c most, (cauchyVector s q).value = .ok c ∧ (predictedImprovement s q c).value = .ok most ∧
      (c = Vec.zeros n ↔ q.gradient = Vec.zeros n) ∧
      (∃ image, (LinearSolver.jacobianMul s q.jacobian q.gradient).value = .ok image ∧
        (image.normSq = 0 ↔ q.gradient = Vec.zeros n)) ∧
      ∀ t : ℝ, ∃ improvement, (predictedImprovement s q
          (Vec.ofFn q.gradient.size fun k => -t * q.gradient.entry k)).value = .ok improvement ∧
        improvement ≤ most := by
  have hgradient : q.gradient = Vec.zeros n ↔ fits.model.gradient = 0 :=
    Vec.eq_zeros_iff fits.size_gradient
  obtain ⟨c, hc, hend⟩ := cauchyVector_exact fits kind
  obtain ⟨image, himage, hnormSq⟩ := fits.jacobianMul_exact kind fits.size_gradient
  refine ⟨c, _, hc, predictedImprovement_exact fits kind hend.size, ?_, ⟨image, himage, ?_⟩, ?_⟩
  · rw [hgradient, Vec.eq_zeros_iff hend.size, hend.point]
    exact LinearModel.cauchy_eq_zero_iff
  · rw [hgradient, hnormSq, sq_eq_zero_iff, norm_eq_zero]
    exact LinearModel.map_gradient_eq_zero_iff
  · intro t
    have hsize : (Vec.ofFn q.gradient.size fun k => -t * q.gradient.entry k).size = n :=
      (Vec.size_ofFn _ _).trans fits.size_gradient
    have hpoint : (Vec.ofFn q.gradient.size fun k => -t * q.gradient.entry k).toEuclidean n =
        (-t) • fits.model.gradient := by
      apply PiLp.ext
      intro i
      exact Vec.entry_ofFn (i.isLt.trans_eq fits.size_gradient.symm)
    refine ⟨_, predictedImprovement_exact fits kind hsize, ?_⟩
    rw [hpoint, hend.point]
    exact LinearModel.promise_gradient_le (-t)

/-- Whatever is computed as the end of the path is, with the damping counted in, the one lowest point. -/
theorem Fits.newton_lowest (fits : q.Fits m n) {schedule : DampingSchedule ℝ}
    {damping d : Damping ℝ} {s' : CholeskySolver ℝ} (held : s.HoldsFor q.id q.jacobian)
    (computed : (gaussNewtonVector schedule q damping s).value = (.ok g, d, s')) :
    ∃ image most, (LinearSolver.jacobianMul s' q.jacobian g).value = .ok image ∧
      (predictedImprovement s' q g).value = .ok most ∧
      most = image.normSq + 2 * d.lambda * g.normSq ∧
      ∀ u : Vec ℝ, u.size = n →
        ∃ improvement, (predictedImprovement s' q u).value = .ok improvement ∧
          improvement - d.lambda * u.normSq ≤ most - d.lambda * g.normSq ∧
          (improvement - d.lambda * u.normSq = most - d.lambda * g.normSq → u = g) := by
  obtain ⟨hnewton, hstorage⟩ := gaussNewtonVector_newton fits held computed
  have hsize : g.size = n := hnewton.size.trans fits.cols
  obtain ⟨image, himage, hnormSq⟩ := fits.jacobianMul_exact hstorage.symm hsize
  refine ⟨image, _, himage, predictedImprovement_exact fits hstorage.symm hsize, ?_, ?_⟩
  · rw [LinearModel.promise_newton (hnewton.newton_model fits), hnormSq,
      Vec.normSq_eq_norm_sq hsize]
  · intro u hu
    exact ⟨_, predictedImprovement_exact fits hstorage.symm hu, hnewton.lowest fits hu⟩

/-- Both ends of the path from a point are lowest points. The first leg ends where the linear model is
lowest along the gradient, and nowhere else than it begins only if there is no gradient; the image of
the gradient vanishes only then. The end of the path is computed for every damping at which the
factorization can be made, and whatever is computed as the end is, with the damping counted in, the one
lowest point. -/
theorem endpoints_lowest (made : (make backend id state evaluation).value = .ok q)
    (cols : evaluation.jacobian.stored.cols = state.size)
    (held : backend.HoldsFor id evaluation.jacobian) :
    (∃ c most, (cauchyVector backend q).value = .ok c ∧
      (predictedImprovement backend q c).value = .ok most ∧
      (c = Vec.zeros state.size ↔ q.gradient = Vec.zeros state.size) ∧
      (∃ image, (LinearSolver.jacobianMul backend q.jacobian q.gradient).value = .ok image ∧
        (image.normSq = 0 ↔ q.gradient = Vec.zeros state.size)) ∧
      ∀ t : ℝ, ∃ improvement, (predictedImprovement backend q
          (Vec.ofFn q.gradient.size fun k => -t * q.gradient.entry k)).value = .ok improvement ∧
        improvement ≤ most) ∧
    (∀ schedule damping,
      (∃ s', (LinearSolver.factorize backend evaluation.jacobian ⟨id, damping.lambda⟩).value =
        (.ok (), s')) →
      ∃ g d s', (gaussNewtonVector schedule q damping backend).value = (.ok g, d, s') ∧
        d.lambda = damping.lambda) ∧
    ∀ schedule damping g d s',
      (gaussNewtonVector schedule q damping backend).value = (.ok g, d, s') →
      ∃ image most, (LinearSolver.jacobianMul s' q.jacobian g).value = .ok image ∧
        (predictedImprovement s' q g).value = .ok most ∧
        most = image.normSq + 2 * d.lambda * g.normSq ∧
        ∀ u : Vec ℝ, u.size = state.size →
          ∃ improvement, (predictedImprovement s' q u).value = .ok improvement ∧
            improvement - d.lambda * u.normSq ≤ most - d.lambda * g.normSq ∧
            (improvement - d.lambda * u.normSq = most - d.lambda * g.normSq → u = g) := by
  obtain ⟨fits, hid, hjacobian, hkind⟩ := fits_of_evaluation made cols
  rw [← hid, ← hjacobian] at held ⊢
  refine ⟨fits.cauchy_lowest hkind, ?_, ?_⟩
  · intro schedule damping factors
    obtain ⟨g, d, s', hvalue, hlambda, -⟩ := gaussNewtonVector_of_held schedule fits held factors
    exact ⟨g, d, s', hvalue, hlambda⟩
  · intro schedule damping g d s' computed
    exact fits.newton_lowest held computed

end Linearization

namespace Problem

variable {q : Linearization ℝ}

/-- The gradient at the point of `constantOne` is one. -/
theorem gradient_unitEvaluation
    (made : (Linearization.make constantOne.backend 0 ⟨#[0]⟩ unitEvaluation).value = .ok q) :
    q.gradient.entry 0 = 1 := by
  obtain ⟨gradient, hgradient, rfl⟩ := Linearization.of_make made
  obtain ⟨-, -, rfl⟩ := CholeskySolver.gradient_eq hgradient
  show (StoredMatrix.transposeMulVec unitEvaluation.jacobian.stored unitVector).entry 0 = 1
  rw [Jacobian.entry_transposeMulVec _ _ Nat.one_pos]
  show ∑ r ∈ Finset.range 1, unitEvaluation.jacobian.slope r 0 * unitVector.entry r = 1
  rw [Finset.sum_range_one, slope_unitEvaluation, one_mul]
  rfl

theorem gradient_ne_zeros_unitEvaluation
    (made : (Linearization.make constantOne.backend 0 ⟨#[0]⟩ unitEvaluation).value = .ok q) :
    q.gradient ≠ Vec.zeros 1 := by
  intro hnone
  have hentry : q.gradient.entry 0 = 0 := by
    rw [hnone]
    exact Vec.entry_ofFn Nat.one_pos
  rw [gradient_unitEvaluation made] at hentry
  exact one_ne_zero hentry

/-- The end of the path there, for any damping. -/
theorem newton_unitEvaluation {lambda : ℝ} {g : Vec ℝ}
    (made : (Linearization.make constantOne.backend 0 ⟨#[0]⟩ unitEvaluation).value = .ok q)
    (newton : q.Newton lambda g) : g.size = 1 ∧ (1 + lambda) * g.entry 0 = -1 := by
  obtain ⟨-, -, hjacobian, -⟩ := Linearization.fits_of_evaluation made rfl
  have hcols : q.jacobian.stored.cols = 1 := by
    rw [hjacobian]
    rfl
  refine ⟨newton.size.trans hcols, ?_⟩
  have hsolves := newton.solves 0 (hcols ▸ Nat.one_pos)
  rw [hcols, Finset.sum_range_one, gradient_unitEvaluation made, hjacobian] at hsolves
  have hgram : unitEvaluation.jacobian.gram lambda 0 0 = 1 + lambda := by
    show ∑ r ∈ Finset.range 1, unitEvaluation.jacobian.slope r 0 * unitEvaluation.jacobian.slope r 0 +
      (if 0 = 0 then lambda else 0) = 1 + lambda
    rw [Finset.sum_range_one, slope_unitEvaluation, one_mul, if_pos rfl]
  rwa [hgram] at hsolves

/-- The normal matrix there is positive definite without damping. -/
theorem definite_unitEvaluation : unitEvaluation.jacobian.Definite 0 := by
  apply Jacobian.positiveDefinite_gram_zero
  intro v himage i hi
  obtain rfl : i = 0 := Nat.lt_one_iff.mp hi
  have hrow : ∑ k ∈ Finset.range 1, unitEvaluation.jacobian.slope 0 k * v k = 0 :=
    himage 0 Nat.one_pos
  rwa [Finset.sum_range_one, slope_unitEvaluation, one_mul] at hrow

/-- A damping of one can be factored there. -/
theorem factorize_unitEvaluation :
    ∃ s', (LinearSolver.factorize constantOne.backend unitEvaluation.jacobian
      ⟨0, (1 : ℝ)⟩).value = (.ok (), s') := by
  obtain ⟨-, s', -, hmade⟩ | ⟨hnot, -⟩ := (CholeskySolver.admits_new .dense
    unitEvaluation.jacobian).factorize_exact rfl ⟨0, (1 : ℝ)⟩
  · exact ⟨s', hmade⟩
  · exact absurd (unitEvaluation.jacobian.positiveDefinite_gram_of_pos one_pos) hnot

/-- From the point of `constantOne` the first leg leads away, and with a damping of one the end of the
path promises the squared length of its image and twice its own. -/
theorem endpoints_lowest_constantOne :
    ∃ q c g d s' image most,
      (Linearization.make constantOne.backend 0 ⟨#[0]⟩ unitEvaluation).value = .ok q ∧
      (cauchyVector constantOne.backend q).value = .ok c ∧ c ≠ Vec.zeros 1 ∧
      (gaussNewtonVector DampingSchedule.standard q ⟨1, 0⟩ constantOne.backend).value =
        (.ok g, d, s') ∧
      (LinearSolver.jacobianMul s' q.jacobian g).value = .ok image ∧
      (predictedImprovement s' q g).value = .ok most ∧
      most = image.normSq + 2 * 1 * g.normSq := by
  obtain ⟨q, hq⟩ : ∃ q, (Linearization.make constantOne.backend 0 ⟨#[0]⟩ unitEvaluation).value =
      .ok q := ⟨_, rfl⟩
  obtain ⟨⟨c, -, hc, -, hzero, -⟩, hexists, hlowest⟩ :=
    Linearization.endpoints_lowest hq rfl (fun mu hmu => by cases hmu)
  obtain ⟨g, d, s', hg, hlambda⟩ := hexists DampingSchedule.standard ⟨1, 0⟩ factorize_unitEvaluation
  obtain ⟨image, most, himage, hmost, hsum, -⟩ := hlowest _ _ g d s' hg
  rw [hlambda] at hsum
  exact ⟨q, c, g, d, s', image, most, hq, hc,
    fun hnone => gradient_ne_zeros_unitEvaluation hq (hzero.mp hnone), hg, himage, hmost, hsum⟩

end Problem

end TrustRegion
