/-
Module: TrustRegion.Proofs.Search.Shortening
Purpose: More damping shortens the step, without rounding. Each of two ends of the path is the better one
  for its own damping. Exchanging them shows that the end for more damping is the shorter one, strictly so
  if there is a gradient, and that it promises no more.
Main exports: LinearModel.exchange, LinearModel.norm_le_of_newton, LinearModel.norm_lt_of_newton,
  CholeskySolver.Takes.exists_newton, Linearization.damping_shortens
-/
import TrustRegion.Proofs.Linear.NormalEquations
import TrustRegion.Proofs.Search.Endpoint

namespace TrustRegion

open scoped RealInnerProductSpace

/-! ### Two ends of the path -/

namespace LinearModel

variable {E F : Type*} [NormedAddCommGroup E] [InnerProductSpace ℝ E] [NormedAddCommGroup F]
  [InnerProductSpace ℝ F] {M : LinearModel E F} {less more : ℝ} {s t : E}

/-- What is lost if the ends of the path for two dampings are exchanged. -/
theorem exchange (hs : M.Newton less s) (ht : M.Newton more t) :
    (more - less) * (‖s‖ ^ 2 - ‖t‖ ^ 2) =
      2 * ‖M.map (s - t)‖ ^ 2 + (less + more) * ‖s - t‖ ^ 2 := by
  have hthere := promise_sub_of_newton hs t
  have hback := promise_sub_of_newton ht s
  rw [← neg_sub s t, map_neg, norm_neg, norm_neg] at hback
  linarith

/-- The ends for two dampings are the same only if there is no gradient. -/
theorem Newton.ne_of_gradient (hs : M.Newton less s) (ht : M.Newton more t) (lt : less < more)
    (gradient : M.gradient ≠ 0) : s ≠ t := by
  rintro rfl
  have hself := hs s
  have hother := ht s
  have hzero : (more - less) * ⟪s, s⟫ = 0 := by linarith
  rcases mul_eq_zero.mp hzero with hsame | hnone
  · exact lt.ne (sub_eq_zero.mp hsame).symm
  · exact hs.ne_zero gradient (inner_self_eq_zero.mp hnone)

/-- The end for more damping is no longer. -/
theorem norm_le_of_newton (hs : M.Newton less s) (ht : M.Newton more t) (nonneg : 0 ≤ less)
    (lt : less < more) : ‖t‖ ≤ ‖s‖ := by
  have hexchange := exchange hs ht
  have hloss : 0 ≤ 2 * ‖M.map (s - t)‖ ^ 2 + (less + more) * ‖s - t‖ ^ 2 := by
    have hsum : 0 ≤ less + more := add_nonneg nonneg (nonneg.trans lt.le)
    positivity
  rw [← hexchange] at hloss
  have hsquares := (mul_nonneg_iff_of_pos_left (sub_pos.mpr lt)).mp hloss
  exact le_of_sq_le_sq (sub_nonneg.mp hsquares) (norm_nonneg s)

/-- If there is a gradient, the end for more damping is shorter. -/
theorem norm_lt_of_newton (hs : M.Newton less s) (ht : M.Newton more t) (nonneg : 0 ≤ less)
    (lt : less < more) (gradient : M.gradient ≠ 0) : ‖t‖ < ‖s‖ := by
  have hexchange := exchange hs ht
  have hapart : 0 < ‖s - t‖ :=
    norm_pos_iff.mpr (sub_ne_zero.mpr (hs.ne_of_gradient ht lt gradient))
  have hloss : 0 < 2 * ‖M.map (s - t)‖ ^ 2 + (less + more) * ‖s - t‖ ^ 2 := by
    have hsum : 0 < less + more := add_pos_of_nonneg_of_pos nonneg (nonneg.trans_lt lt)
    positivity
  rw [← hexchange] at hloss
  have hsquares := (mul_pos_iff_of_pos_left (sub_pos.mpr lt)).mp hloss
  exact lt_of_pow_lt_pow_left₀ 2 (norm_nonneg s) (sub_pos.mp hsquares)

end LinearModel

/-! ### Two requests at one point -/

variable {q : Linearization ℝ} {m n : ℕ}

/-- Where the damped normal matrix is positive definite, a request and a solution lead to the end of the
path. -/
theorem CholeskySolver.Takes.exists_newton {s : CholeskySolver ℝ} (takes : s.Takes q.jacobian)
    (key : FactorizationKey ℝ) (fits : q.Fits m n) (definite : q.jacobian.Definite key.lambda) :
    ∃ s' v, (LinearSolver.factorize s q.jacobian key).value = (.ok (), s') ∧
      (LinearSolver.solve s' q.gradient.neg).value = .ok v ∧ q.Newton key.lambda v ∧
      q.jacobian.storage = s'.storage := by
  obtain ⟨s', hmade⟩ := (takes.exists_factorize_iff key).mpr definite
  have hholds := (factorizesTo_of_value hmade).serves.holds
  obtain ⟨v, hsolve, hnewton⟩ := hholds.exists_solve (fits.size_gradient.trans fits.cols.symm)
  exact ⟨s', v, hmade, hsolve, hnewton, hholds.storage⟩

namespace Linearization

variable {backend s t : CholeskySolver ℝ} {id : ℕ} {state : Vec ℝ} {evaluation : Evaluation ℝ}
  {less more : ℝ}

/-- More damping shortens the step. Where the normal matrix is positive definite with some damping, it is
so with more, and the solutions for the two are found. The one for more damping is no longer, it is
shorter if there is a gradient, and the model promises no more for it. -/
theorem damping_shortens (made : (make backend id state evaluation).value = .ok q)
    (cols : evaluation.jacobian.stored.cols = state.size) (nonneg : 0 ≤ less) (lt : less < more)
    (definite : evaluation.jacobian.Definite less) (hs : s.Takes evaluation.jacobian)
    (ht : t.Takes evaluation.jacobian) (point point' : ℕ) :
    ∃ s' t' v w,
      (LinearSolver.factorize s evaluation.jacobian ⟨point, less⟩).value = (.ok (), s') ∧
      (LinearSolver.factorize t evaluation.jacobian ⟨point', more⟩).value = (.ok (), t') ∧
      (LinearSolver.solve s' q.gradient.neg).value = .ok v ∧
      (LinearSolver.solve t' q.gradient.neg).value = .ok w ∧
      w.norm ≤ v.norm ∧ (q.gradient ≠ Vec.zeros state.size → w.norm < v.norm) ∧
      ∃ promised promised', (predictedImprovement s' q v).value = .ok promised ∧
        (predictedImprovement t' q w).value = .ok promised' ∧ promised' ≤ promised := by
  obtain ⟨fits, -, hjacobian, -⟩ := fits_of_evaluation made cols
  rw [← hjacobian] at definite hs ht ⊢
  have hdefinite : q.jacobian.Definite more :=
    q.jacobian.positiveDefinite_gram_of_pos (nonneg.trans_lt lt)
  obtain ⟨s', v, hmade, hsolve, hv, hkind⟩ := hs.exists_newton ⟨point, less⟩ fits definite
  obtain ⟨t', w, hmade', hsolve', hw, hkind'⟩ :=
    ht.exists_newton ⟨point', more⟩ fits hdefinite
  have hv_model := hv.newton_model fits
  have hw_model := hw.newton_model fits
  have hv_size : v.size = state.size := hv.size.trans fits.cols
  have hw_size : w.size = state.size := hw.size.trans fits.cols
  have hle := LinearModel.norm_le_of_newton hv_model hw_model nonneg lt
  refine ⟨s', t', v, w, hmade, hmade', hsolve, hsolve', ?_, ?_, _, _,
    predictedImprovement_exact fits hkind hv_size, predictedImprovement_exact fits hkind' hw_size,
    LinearModel.promise_le_of_newton hv_model nonneg fun _ => hle⟩
  · rwa [Vec.norm_eq_norm hv_size, Vec.norm_eq_norm hw_size]
  · intro hgradient
    rw [Vec.norm_eq_norm hv_size, Vec.norm_eq_norm hw_size]
    apply LinearModel.norm_lt_of_newton hv_model hw_model nonneg lt
    rwa [Ne, Vec.eq_zeros_iff fits.size_gradient] at hgradient

/-- From the point of `constantOne` the step with a damping of one is shorter than the one without, and
promises no more. -/
theorem damping_shortens_constantOne :
    ∃ (q : Linearization ℝ) (s' t' : CholeskySolver ℝ) (v w : Vec ℝ) (promised promised' : ℝ),
      (make Problem.constantOne.backend 0 ⟨#[0]⟩ Problem.unitEvaluation).value = .ok q ∧
      (LinearSolver.factorize Problem.constantOne.backend Problem.unitEvaluation.jacobian
        ⟨0, 0⟩).value = (.ok (), s') ∧
      (LinearSolver.factorize Problem.constantOne.backend Problem.unitEvaluation.jacobian
        ⟨0, 1⟩).value = (.ok (), t') ∧
      (LinearSolver.solve s' q.gradient.neg).value = .ok v ∧
      (LinearSolver.solve t' q.gradient.neg).value = .ok w ∧ w.norm < v.norm ∧
      (predictedImprovement s' q v).value = .ok promised ∧
      (predictedImprovement t' q w).value = .ok promised' ∧ promised' ≤ promised := by
  obtain ⟨q, hq⟩ : ∃ q, (make Problem.constantOne.backend 0 ⟨#[0]⟩ Problem.unitEvaluation).value =
      .ok q := ⟨_, rfl⟩
  have htakes : Problem.constantOne.backend.Takes Problem.unitEvaluation.jacobian :=
    CholeskySolver.takes_new Problem.unitEvaluation.jacobian
  obtain ⟨s', t', v, w, hs, ht, hv, hw, -, hshorter, promised, promised', hpromised, hpromised',
      hle⟩ := damping_shortens hq rfl le_rfl one_pos Problem.definite_unitEvaluation htakes htakes 0 0
  exact ⟨q, s', t', v, w, promised, promised', hq, hs, ht, hv, hw,
    hshorter (Problem.gradient_ne_zeros_unitEvaluation hq), hpromised, hpromised', hle⟩

end Linearization

end TrustRegion
