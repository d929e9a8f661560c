/-
Module: TrustRegion.Proofs.Search.Shape
Purpose: The sizes of everything in a search, whatever the scalars are. The point, its legs, the steps
  and the linear algebra have the sizes of the problem throughout a run, so products, sums and solutions
  never meet vectors of the wrong length, and a step can only fail because the damping is used up.
Main exports: Linearization.Shaped, Problem.Made.shaped, Workspace.Shaped, Workspace.Shaped.stepsTo,
  Workspace.Shaped.computeStep_cases, Workspace.Shaped.exists_predicted, Problem.Run.shaped
-/
import TrustRegion.Proofs.Linear.Ready
import TrustRegion.Proofs.Search.Run

namespace TrustRegion

variable {α : Type} [Scalar α]

omit [Scalar α] in
/-- Everything that is known of a point has the kind and the sizes of its problem. -/
structure Linearization.Shaped (storage : Storage) (m n : Nat) (q : Linearization α) : Prop where
  state : q.state.size = n
  residuals : q.residuals.size = m
  storage : q.jacobian.storage = storage
  rows : q.jacobian.stored.rows = m
  cols : q.jacobian.stored.cols = n
  gradient : q.gradient.size = n
  cauchy : ∀ c, q.cauchy = some c → c.vector.size = n
  gaussNewton : ∀ g, q.gaussNewton = some g → g.vector.size = n

/-- A new point has the sizes of its problem, and nothing is known of its legs. -/
theorem Problem.Made.shaped {p : Problem α} {n k : Nat} {q : Linearization α} (h : p.Made n k q)
    (size : q.state.size = n) : q.Shaped p.storage p.measurements n := by
  obtain ⟨hstorage, hrows, hcols, hresiduals⟩ := shape_of_report h.reported
  refine ⟨size, hresiduals, hstorage, hrows, hcols, ?_, fun c hc => ?_, fun g hg => ?_⟩
  · rw [h.gradient, StoredMatrix.size_transposeMulVec]
    exact hcols
  · rw [Linearization.cauchy_of_bare_eq h.bare] at hc
    cases hc
  · rw [Linearization.gaussNewton_of_bare_eq h.bare] at hg
    cases hg

namespace Workspace

variable {storage : Storage} {m n : Nat} {w w' : Workspace α (CholeskySolver α)}
  {schedule : DampingSchedule α} {radius : α} {step : Step α}

/-- The point has the sizes of the problem, and the solver is ready for them. -/
structure Shaped (storage : Storage) (m n : Nat) (w : Workspace α (CholeskySolver α)) : Prop where
  backend : w.backend.Ready storage n
  point : w.point.Shaped storage m n

namespace Shaped

/-- Recording a step and its legs keeps the sizes. -/
theorem stepped (h : w.Shaped storage m n) {c : Leg α} (hc : c.vector.size = n)
    {g : Option (Leg α)} (hg : ∀ g', g = some g' → g'.vector.size = n) (step : Step α) :
    (w.stepped c g step).Shaped storage m n :=
  { h.point with
    cauchy := fun c' hc' => by
      cases hc'
      exact hc
    gaussNewton := hg }

/-- The end of the first leg can be computed. -/
theorem exists_cauchyLeg (h : w.Shaped storage m n) : ∃ c, w.CauchyLeg c := by
  cases hknown : w.point.cauchy with
  | some c => exact ⟨c, .known hknown⟩
  | none =>
      have himage : (LinearSolver.jacobianMul w.backend w.point.jacobian w.point.gradient).value =
          .ok (StoredMatrix.mulVec w.point.jacobian.stored w.point.gradient) :=
        CholeskySolver.jacobianMul_eq (h.point.storage.trans h.backend.suits.storage.symm)
          (h.point.gradient.trans h.point.cols.symm)
      have hvector : ∃ v, (cauchyVector w.backend w.point).value = .ok v := by
        unfold cauchyVector
        dsimp only
        split
        · exact ⟨_, rfl⟩
        · simp only [Logged.value_bind, himage]
          split
          · exact ⟨_, rfl⟩
          · exact ⟨_, rfl⟩
      obtain ⟨v, hv⟩ := hvector
      exact ⟨_, .computed hknown hv⟩

theorem size_cauchyLeg (h : w.Shaped storage m n) {c : Leg α} (leg : w.CauchyLeg c) :
    c.vector.size = n := by
  cases leg with
  | known hc => exact h.point.cauchy c hc
  | computed _ hv => exact (size_of_cauchyVector hv).trans h.point.gradient

/-- Computing the end of the path leaves a solver that is ready, and gives a vector of the right size
or finds the damping used up. -/
theorem gaussNewtonVector_cases (h : w.Shaped storage m n)
    {answer : Except (LinearError α) (Vec α)} {damping : Damping α} {backend : CholeskySolver α}
    (computed :
      (gaussNewtonVector schedule w.point w.damping w.backend).value = (answer, damping, backend)) :
    backend.Ready storage n ∧
      ((∃ v, answer = .ok v ∧ v.size = n) ∨
        answer = .error (.dampingExhausted schedule.maxAttempts damping.lambda)) := by
  rcases hmade : (factorizeDamped schedule w.point.jacobian w.point.id w.damping w.backend).value with
    ⟨request, d, s⟩
  unfold gaussNewtonVector at computed
  simp only [Logged.value_bind, hmade] at computed
  obtain ⟨hready, ⟨rfl, hfactor⟩ | rfl⟩ :=
    factorizeDamped_ready h.backend h.point.storage h.point.cols hmade
  · have hneg : w.point.gradient.neg.size = n := (Vec.size_neg _).trans h.point.gradient
    obtain ⟨v, hv, hsize⟩ := hready.exists_solve hfactor hneg
    simp only [Logged.value_bind, hv] at computed
    cases computed
    exact ⟨hready, .inl ⟨v, rfl, hsize⟩⟩
  · cases computed
    exact ⟨hready, .inr rfl⟩

/-- A step has the size of the state, and computing it keeps all sizes. -/
theorem stepsTo (h : w.Shaped storage m n) (hstep : w.StepsTo schedule radius step w') :
    step.update.size = n ∧ w'.Shaped storage m n := by
  cases hstep with
  | @clipped c first unknown reaches =>
      have hc := h.size_cauchyLeg first
      exact ⟨(Vec.size_ofFn _ _).trans hc, h.backend, h.stepped hc (fun g hg => by cases hg) _⟩
  | @reused c g first known =>
      have hc := h.size_cauchyLeg first
      have hg := h.point.gaussNewton g known
      refine ⟨size_blend hc hg radius, h.backend, h.stepped hc (fun g' hg' => ?_) _⟩
      cases hg'
      exact hg
  | @factored c v damping backend first unknown short computed =>
      have hc := h.size_cauchyLeg first
      obtain ⟨hready, ⟨v', hv', hsize⟩ | hexhausted⟩ := h.gaussNewtonVector_cases computed
      · cases hv'
        have hg : (Leg.ofVec v).vector.size = n := hsize
        refine ⟨size_blend hc hg radius, hready, h.stepped hc (fun g' hg' => ?_) _⟩
        cases hg'
        exact hg
      · cases hexhausted

/-- A step is computed, or the damping is used up on the way to it. -/
theorem computeStep_cases (h : w.Shaped storage m n) (schedule : DampingSchedule α) (radius : α) :
    (∃ step w', w.StepsTo schedule radius step w') ∨
      ∃ w', (w.computeStep schedule radius).value =
        (.error (.dampingExhausted schedule.maxAttempts w'.damping.lambda), w') := by
  obtain ⟨c, first⟩ := h.exists_cauchyLeg
  cases hg : w.point.gaussNewton with
  | some g => exact .inl ⟨_, _, .reused first hg⟩
  | none =>
      by_cases hreaches : radius * radius ≤ c.normSq
      · exact .inl ⟨_, _, .clipped first hg hreaches⟩
      · rcases hvalue : (gaussNewtonVector schedule w.point w.damping w.backend).value with
          ⟨answer, damping, backend⟩
        obtain ⟨-, ⟨v, rfl, -⟩ | rfl⟩ := h.gaussNewtonVector_cases hvalue
        · exact .inl ⟨_, _, .factored first hg hreaches hvalue⟩
        · exact .inr ⟨_, computeStep_of_error first hg hreaches hvalue⟩

/-- An improvement can be predicted for every update of the right size. -/
theorem exists_predicted (h : w.Shaped storage m n) {update : Vec α} (size : update.size = n) :
    ∃ predicted, (predictedImprovement w.backend w.point update).value = .ok predicted := by
  have himage : (LinearSolver.jacobianMul w.backend w.point.jacobian update).value =
      .ok (StoredMatrix.mulVec w.point.jacobian.stored update) :=
    CholeskySolver.jacobianMul_eq (h.point.storage.trans h.backend.suits.storage.symm)
      (size.trans h.point.cols.symm)
  unfold predictedImprovement
  simp only [Logged.value_bind, himage]
  exact ⟨_, rfl⟩

/-- The state where a step leads has the right size. -/
theorem size_add (h : w.Shaped storage m n) (update : Vec α) :
    (w.point.state.add update).size = n :=
  (Vec.size_add _ _).trans h.point.state

end Shaped

end Workspace

namespace Problem.Run

variable {p : Problem α} {settings : Settings α} {clock : Clock} {state : Vec α}
  {points : List (Linearization α)} {reason : Option StopReason} {s : Search α (CholeskySolver α)}

/-- Every point of a run has the sizes of the problem. -/
theorem shaped_point (h : p.Run settings clock state points reason s) {k : Nat}
    {q : Linearization α} (hk : points[k]? = some q) :
    q.Shaped p.storage p.measurements state.size :=
  (h.made hk).shaped (h.size_state (List.mem_of_getElem? hk))

/-- Everything has the sizes of the problem throughout a run. -/
theorem shaped (h : p.Run settings clock state points reason s) :
    s.session.workspace.Shaped p.storage p.measurements state.size := by
  induction h with
  | @opening e e' evaluation point valid built asked first =>
      have hrun : p.Run settings clock state [point] _ _ := .opening valid built asked first
      have hfirst : [point][0]? = some point := rfl
      exact ⟨CholeskySolver.ready_new _ _, hrun.shaped_point hfirst⟩
  | @round points s s' r reason before room attempted ih =>
      obtain ⟨-, hshaped⟩ := ih.stepsTo (Workspace.stepsTo_of_computeStep attempted.computed)
      rw [attempted.after.workspace]
      refine ⟨hshaped.backend, ?_⟩
      cases hacc : r.accepted s.session.settings with
      | true =>
          rw [Search.Round.endpoint_of_accepted hacc]
          exact (Run.round before room attempted).shaped_point List.getElem?_concat_length
      | false =>
          rw [Search.Round.endpoint_of_rejected hacc]
          exact hshaped.point

/-- The sizes that a session remembers are those of the problem. -/
theorem session_sizes (h : p.Run settings clock state points reason s) :
    s.session.states = state.size ∧ s.session.measurements = p.measurements := by
  induction h with
  | @opening e e' evaluation point valid built asked first =>
      have hrun : p.Run settings clock state [point] _ _ := .opening valid built asked first
      have hfirst : [point][0]? = some point := rfl
      exact ⟨(hrun.shaped_point hfirst).state, (hrun.shaped_point hfirst).residuals⟩
  | round _ _ attempted ih =>
      obtain ⟨-, rfl⟩ := attempted.lap
      exact ih

end Problem.Run

end TrustRegion
