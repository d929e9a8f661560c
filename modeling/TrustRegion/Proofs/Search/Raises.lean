/-
Module: TrustRegion.Proofs.Search.Raises
Purpose: Where in a search the damping is raised. Only making sure of a factorization raises it, so
  the raises of an attempt are those of its step, and the raises of a search that ends with a result
  are those of its attempts.
Main exports: Workspace.raises_of_clipped, Workspace.raises_of_reused, Workspace.raises_of_factored,
  Search.raises_attempt, Problem.raises_solve
-/
import TrustRegion.Proofs.Linear.Ready
import TrustRegion.Proofs.Search.Run

namespace TrustRegion

variable {α : Type}

namespace Logged

variable {γ δ : Type} {x : Logged α γ} {f : γ → Logged α δ}

/-- What comes after a computation adds no raises to it if it has none, whatever it is handed. -/
theorem raises_bind_of_calm (h : ∀ y, (f y).raises = 0) : (x >>= f).raises = x.raises := by
  rw [raises_bind, h, Nat.add_zero]

theorem calm_bind (hx : x.raises = 0) (hf : ∀ y, (f y).raises = 0) : (x >>= f).raises = 0 :=
  (raises_bind_of_calm hf).trans hx

end Logged

open Logged (calm_bind raises_bind_of_calm)

/-! ### Asking the callback -/

/-- Whatever a callback offers to a writer, the damping is not raised. -/
theorem Writing.raises_run {β : Type} (program : Writing α β) (w : JacobianWriter α) :
    (program.run w).raises = 0 := by
  induction program generalizing w with
  | done result => rfl
  | add entry next ih =>
      have hadd : (w.add entry).raises = 0 := by
        unfold JacobianWriter.add
        split <;> rfl
      exact calm_bind hadd fun ⟨answer, w⟩ => ih answer w

namespace Evaluator

theorem raises_newSparse (callback : SparseCallback α) (states measurements capacity : Nat) :
    (newSparse callback states measurements capacity).raises = 0 := by
  unfold newSparse
  split <;> rfl

variable [Scalar α]

theorem raises_newDense (callback : DenseCallback α) (states measurements : Nat) :
    (newDense callback states measurements).raises = 0 := by
  unfold newDense
  split <;> rfl

theorem raises_evaluate (e : Evaluator α) (state : Vec α) : (e.evaluate state).raises = 0 := by
  have hentries (measurements states : Nat) (entries : List (JacobianEntry α)) :
      (SparseJacobian.ofEntries measurements states entries).raises = 0 := by
    unfold SparseJacobian.ofEntries
    split <;> rfl
  have hask (e : SparseEvaluator α) : (e.ask state).raises = 0 := by
    refine calm_bind (Writing.raises_run _ _) fun ⟨answer, writer⟩ => ?_
    cases answer with
    | error error => rfl
    | ok residuals => exact calm_bind (hentries _ _ _) fun assembled => by cases assembled <;> rfl
  unfold evaluate
  split
  · rfl
  · cases e with
    | sparse e => exact calm_bind (hask e) fun _ => rfl
    | dense e => rfl

end Evaluator

/-! ### Linear algebra -/

namespace CholeskySolver

theorem raises_matrixOf (s : CholeskySolver α) (j : Jacobian α) : (s.matrixOf j).raises = 0 := by
  unfold matrixOf
  split <;> rfl

variable [Scalar α]

theorem raises_gradient (s : CholeskySolver α) (j : Jacobian α) (x : Vec α) :
    (LinearSolver.gradient s j x).raises = 0 := by
  refine calm_bind (s.raises_matrixOf j) fun m => ?_
  cases m with
  | error error => rfl
  | ok m =>
      dsimp only
      split <;> rfl

theorem raises_jacobianMul (s : CholeskySolver α) (j : Jacobian α) (v : Vec α) :
    (LinearSolver.jacobianMul s j v).raises = 0 := by
  refine calm_bind (s.raises_matrixOf j) fun m => ?_
  cases m with
  | error error => rfl
  | ok m =>
      dsimp only
      split <;> rfl

theorem raises_solve (s : CholeskySolver α) (rhs : Vec α) :
    (LinearSolver.solve s rhs).raises = 0 := by
  show (s.solve rhs).raises = 0
  unfold solve
  split
  · rfl
  · split <;> rfl

end CholeskySolver

variable [Scalar α]

theorem Linearization.raises_make (s : CholeskySolver α) (id : Nat) (state : Vec α)
    (evaluation : Evaluation α) : (make s id state evaluation).raises = 0 :=
  calm_bind (s.raises_gradient _ _) fun gradient => by cases gradient <;> rfl

theorem raises_firstPoint (s : CholeskySolver α) (state : Vec α) (evaluation : Evaluation α) :
    (firstPoint s state evaluation).raises = 0 := by
  refine calm_bind (Linearization.raises_make _ _ _ _) fun point => ?_
  cases point with
  | error error => rfl
  | ok point =>
      dsimp only
      split <;> rfl

theorem raises_predictedImprovement (s : CholeskySolver α) (q : Linearization α)
    (update : Vec α) : (predictedImprovement s q update).raises = 0 :=
  calm_bind (s.raises_jacobianMul _ _) fun image => by cases image <;> rfl

/-! ### Steps -/

namespace Workspace

variable {w : Workspace α (CholeskySolver α)} {c g : Leg α} {schedule : DampingSchedule α}
  {radius : α}

theorem raises_ensureCauchy (w : Workspace α (CholeskySolver α)) : w.ensureCauchy.raises = 0 := by
  have hvector : (cauchyVector w.backend w.point).raises = 0 := by
    unfold cauchyVector
    dsimp only
    split
    · rfl
    · refine calm_bind (w.backend.raises_jacobianMul _ _) fun image => ?_
      cases image with
      | error error => rfl
      | ok image =>
          dsimp only
          split <;> rfl
  unfold ensureCauchy
  split
  · rfl
  · exact calm_bind hvector fun v => by cases v <;> rfl

/-- The end of the path raises what its factorization does. -/
theorem raises_gaussNewtonVector (schedule : DampingSchedule α) (q : Linearization α)
    (damping : Damping α) (backend : CholeskySolver α) :
    (gaussNewtonVector schedule q damping backend).raises =
      (factorizeDamped schedule q.jacobian q.id damping backend).raises := by
  refine raises_bind_of_calm fun ⟨answer, damping, backend⟩ => ?_
  cases answer with
  | error error => rfl
  | ok request => exact calm_bind (backend.raises_solve _) fun _ => rfl

/-- A step along the first leg alone raises nothing. -/
theorem raises_of_clipped (first : w.CauchyLeg c) (unknown : w.point.gaussNewton = none)
    (reaches : radius * radius ≤ c.normSq) : (w.computeStep schedule radius).raises = 0 := by
  unfold computeStep
  rw [Logged.raises_bind, raises_ensureCauchy, ensureCauchy_of_cauchyLeg first]
  simp only [unknown, Option.isNone_none, reaches, and_self, if_true]
  rfl

/-- A step along a path whose end is known raises nothing. -/
theorem raises_of_reused (first : w.CauchyLeg c) (known : w.point.gaussNewton = some g) :
    (w.computeStep schedule radius).raises = 0 := by
  unfold computeStep
  rw [Logged.raises_bind, raises_ensureCauchy, ensureCauchy_of_cauchyLeg first]
  simp only [known, Option.isNone_some, Bool.false_eq_true, false_and, if_false, ensureGaussNewton]
  rfl

/-- A step along a path whose end is computed raises what its factorization does. -/
theorem raises_of_factored (first : w.CauchyLeg c) (unknown : w.point.gaussNewton = none)
    (short : ¬ radius * radius ≤ c.normSq) :
    (w.computeStep schedule radius).raises =
      (factorizeDamped schedule w.point.jacobian w.point.id w.damping w.backend).raises := by
  have hlast : (ensureGaussNewton schedule
      { w with point := { w.point with cauchy := some c } }).raises =
        (factorizeDamped schedule w.point.jacobian w.point.id w.damping w.backend).raises := by
    unfold ensureGaussNewton
    simp only [unknown]
    refine (raises_bind_of_calm fun ⟨answer, damping, backend⟩ => ?_).trans
      (raises_gaussNewtonVector schedule _ w.damping w.backend)
    cases answer <;> rfl
  unfold computeStep
  rw [Logged.raises_bind, raises_ensureCauchy, ensureCauchy_of_cauchyLeg first, Nat.zero_add]
  simp only [short, and_false, if_false]
  refine (raises_bind_of_calm fun ⟨answer, w'⟩ => ?_).trans hlast
  cases answer <;> rfl

end Workspace

/-! ### Attempts and searches -/

namespace Search

omit [Scalar α] in
theorem raises_report (wanted : Bool) (settings : Settings α) (part : Report α) :
    (report wanted settings part).raises = 0 := by
  cases wanted <;> rfl

theorem raises_judge (clock : Clock) (reporting : Bool) (step : Step α) (predicted : α)
    (candidate : Linearization α) (s : Search α (CholeskySolver α)) :
    (s.judge clock reporting step predicted candidate).raises = 0 := by
  have hdecision (accepted : Bool) (quality : α) (s : Search α (CholeskySolver α)) :
      (if accepted then s.accept step quality candidate
        else s.reject quality candidate.cost).raises = 0 := by
    cases accepted <;> rfl
  unfold judge
  dsimp only
  split
  · exact calm_bind (hdecision true _ _) fun _ => calm_bind (raises_report _ _ _) fun _ => rfl
  · exact calm_bind (hdecision false _ _) fun _ => calm_bind (raises_report _ _ _) fun _ => rfl

theorem raises_evaluateAt (step : Step α) (s : Search α (CholeskySolver α)) :
    (s.evaluateAt step).raises = 0 := by
  refine calm_bind (Evaluator.raises_evaluate _ _) fun ⟨answer, evaluator⟩ => ?_
  cases answer with
  | error error => rfl
  | ok evaluation =>
      exact calm_bind (Linearization.raises_make _ _ _ _) fun point => by cases point <;> rfl

/-- An attempt raises the damping where its step does. -/
theorem raises_attempt (clock : Clock) (reporting : Bool) (s : Search α (CholeskySolver α)) :
    (s.attempt clock reporting).raises =
      (s.session.workspace.computeStep s.session.settings.damping s.session.radius).raises := by
  refine raises_bind_of_calm fun ⟨answer, workspace⟩ => ?_
  cases answer with
  | error error => rfl
  | ok step =>
      refine calm_bind (raises_predictedImprovement _ _ _) fun predicted => ?_
      cases predicted with
      | error error => rfl
      | ok predicted =>
          refine calm_bind (raises_evaluateAt _ _) fun ⟨answer, s⟩ => ?_
          cases answer with
          | error error => rfl
          | ok candidate => exact calm_bind (raises_judge _ _ _ _ _ _) fun _ => rfl

theorem raises_finish (clock : Clock) (reporting : Bool) (reason : StopReason)
    (s : Search α (CholeskySolver α)) : (s.finish clock reporting reason).raises = 0 := by
  unfold finish
  cases reporting with
  | false => rfl
  | true =>
      dsimp only
      rw [if_pos rfl]
      split
      · rfl
      · exact calm_bind (raises_report _ _ _) fun _ => rfl

end Search

namespace Problem

theorem raises_evaluator (p : Problem α) (states : Nat) : (p.evaluator states).raises = 0 := by
  cases p with
  | sparse callback measurements capacity => exact Evaluator.raises_newSparse _ _ _ _
  | dense callback measurements => exact Evaluator.raises_newDense _ _ _

/-- A search that comes to its end raises the damping where its attempts do. -/
theorem raises_solve {p : Problem α} {settings : Settings α} {clock : Clock} {debugHeard : Bool}
    {state : Vec α} {e e' : Evaluator α} {evaluation : Evaluation α} {point : Linearization α}
    {final : StopReason} {s : Search α (CholeskySolver α)} (valid : settings.fault? = none)
    (built : (p.evaluator state.size).value = .ok e)
    (asked : (e.evaluate state).value = (.ok evaluation, e'))
    (first : (firstPoint p.backend state evaluation).value = .ok point)
    (looped : ((Search.start (Session.start p.backend settings point) e').loop clock
      (settings.verbose || debugHeard) settings.maxIterations
      (settings.converged? point none settings.radius)).value = (.ok final, s)) :
    (p.solve settings clock debugHeard state).raises =
      ((Search.start (Session.start p.backend settings point) e').loop clock
        (settings.verbose || debugHeard) settings.maxIterations
        (settings.converged? point none settings.radius)).raises := by
  have hradius : (Session.start p.backend settings point).radius = settings.radius := rfl
  have hsettled (condition : Bool) :
      (Logged.emitIf condition (.alreadyConverged : Event α)).raises = 0 := by
    cases condition <;> rfl
  rw [solve_eq]
  unfold solveWith Settings.validate
  simp only [valid, Logged.raises_bind, Logged.raises_pure, Logged.value_pure, raises_evaluator,
    built]
  unfold TrustRegion.solve
  simp only [Logged.raises_bind, Evaluator.raises_evaluate, asked, raises_firstPoint, first,
    Search.raises_report, hradius, hsettled, looped, Search.raises_finish, Nat.zero_add,
    Nat.add_zero]

end Problem

end TrustRegion
