/-
Module: TrustRegion.Proofs.Search.Level
Purpose: Searches on problems whose cost is the same everywhere, without rounding. Every attempt is
  rejected, so a search that only the number of its attempts ends uses them all up.
Main exports: Problem.Level, Problem.Run.exists_rejected, Problem.Run.loop_level,
  Problem.exists_solve_level
-/
import TrustRegion.Proofs.Search.Region
import TrustRegion.Proofs.Search.Sound

namespace TrustRegion

namespace Problem

/-- A problem with `n` states whose callback always answers, and always at the same cost. -/
def Level (p : Problem ℝ) (n : ℕ) (cost : ℝ) : Prop :=
  ∀ (calls : ℕ) (state : Vec ℝ), state.size = n →
    ∃ evaluation, p.report n calls state = some evaluation ∧ evaluation.cost = cost

variable {p : Problem ℝ} {cost : ℝ} {settings : Settings ℝ} {clock : Clock} {state : Vec ℝ}
  {points : List (Linearization ℝ)} {s : Search ℝ (CholeskySolver ℝ)}

theorem Level.cost_eq {n k : ℕ} {q : Linearization ℝ} (h : p.Level n cost) (made : p.Made n k q)
    (size : q.state.size = n) : q.cost = cost := by
  obtain ⟨evaluation, hreported, hcost⟩ := h k q.state size
  rw [made.reported] at hreported
  cases hreported
  exact made.cost.trans hcost

/-- The cost at the points of a run. -/
theorem Run.cost_level {reason : Option StopReason}
    (h : p.Run settings clock state points reason s) (level : p.Level state.size cost)
    {q : Linearization ℝ} {k : ℕ} (current : points[k]? = some q) : q.cost = cost :=
  level.cost_eq (h.made current) (h.size_state (List.mem_of_getElem? current))

/-- Nothing improves on the first point, so every attempt is rejected, and none ends a search that no
radius ends. -/
theorem Run.exists_rejected (h : p.Run settings clock state points none s)
    (level : p.Level state.size cost) (left : s.iterations < settings.maxIterations)
    (room : 1 ≤ settings.damping.maxAttempts) (tolerance : settings.radiusTolerance ≤ 0) :
    ∃ r s', s.Attempts clock r none s' ∧ s'.accepted = s.accepted := by
  have husable : s.session.settings.damping.Usable := h.settings_eq ▸ h.usable.damping
  have hroom : 1 ≤ s.session.settings.damping.maxAttempts := h.settings_eq ▸ room
  obtain ⟨step, w, hstep⟩ := h.sound.exists_stepsTo husable hroom s.session.radius
  have hmoved : (s.session.point.state.add step.update).size = state.size :=
    (Vec.size_add _ _).trans h.fits.1.state
  obtain ⟨evaluation, hreported, -⟩ := level points.length _ hmoved
  obtain ⟨r, reason, s', hattempt, -⟩ :=
    Search.exists_attempts h.sound h.fits.2 h.serves husable clock hstep hreported
  have hhere : s.session.point.bare.cost = cost := h.cost_level level h.current
  have hthere : r.candidate.cost = cost :=
    (h.round left hattempt).cost_level level List.getElem?_concat_length
  have hactual : r.actual = 0 := by
    rw [Search.Round.actual, cost_workspace hattempt, hthere]
    exact sub_eq_zero.mpr hhere
  have hrejected : r.accepted settings = false := by
    simp [Search.Round.accepted, Settings.accepts, hactual]
  have hreason : reason = none := by
    have hverdict := hattempt.lap.1
    simp only [Search.Lap.verdict, Search.Lap.accepted, h.settings_eq, hrejected,
      Bool.false_eq_true, if_false, Settings.radiusConverged, not_lt.mpr tolerance,
      false_and] at hverdict
    exact hverdict
  have hcount : s'.accepted = s.accepted := by
    obtain ⟨-, rfl⟩ := hattempt.lap
    simp only [Search.Lap.left, Search.Lap.accepted, h.settings_eq, hrejected, Bool.false_eq_true,
      if_false]
  exact ⟨r, s', hreason ▸ hattempt, hcount⟩

/-- Such a search uses up its attempts and accepts none. -/
theorem Run.loop_level (h : p.Run settings clock state points none s)
    (level : p.Level state.size cost) (room : 1 ≤ settings.damping.maxAttempts)
    (tolerance : settings.radiusTolerance ≤ 0) (reporting : Bool) {remaining : ℕ}
    (left : s.iterations + remaining = settings.maxIterations) :
    ∃ s', (s.loop clock reporting remaining none).value = (.ok .iterationLimit, s') ∧
      s'.iterations = settings.maxIterations ∧ s'.accepted = s.accepted := by
  induction remaining generalizing points s with
  | zero => exact ⟨s, rfl, left, rfl⟩
  | succ remaining ih =>
      have hleft : s.iterations < settings.maxIterations := by omega
      obtain ⟨r, s', hattempt, haccepted⟩ := h.exists_rejected level hleft room tolerance
      have hiterations := hattempt.after.iterations
      simp only [Search.loop, Logged.value_bind, Search.attempt_iff.mpr ⟨r, hattempt⟩]
      rw [← haccepted]
      exact ih (h.round hleft hattempt) (by omega)

/-- A search from a radius of one comes to its end after any number of attempts, none of which is
accepted. -/
theorem exists_solve_level (level : p.Level state.size cost) {e : Evaluator ℝ}
    (built : (p.evaluator state.size).value = .ok e) (attempts : ℕ) (verbose : Bool) :
    ∃ outcome session,
      (p.solve { unitRadius with maxIterations := attempts, verbose } Clock.stopped false
        state).value.answer = deliver (verbose || false) outcome session ∧
      outcome.iterations = attempts ∧ outcome.accepted = 0 := by
  have hvalid : { unitRadius with maxIterations := attempts, verbose }.fault? = none :=
    fault?_unitRadius
  have hroom : 1 ≤ unitRadius.damping.maxAttempts := by decide
  obtain ⟨evaluation, hreported, -⟩ := level 0 state rfl
  obtain ⟨e', hasked⟩ := (serves_evaluator built).evaluate_of_report rfl hreported
  obtain ⟨q, hfirst⟩ := exists_firstPoint hreported
  have hreason : { unitRadius with maxIterations := attempts, verbose }.converged? q none
      unitRadius.radius = none := converged?_unitRadius q _
  have hrun : p.Run { unitRadius with maxIterations := attempts, verbose } Clock.stopped state [q]
      _ _ := .opening hvalid built hasked hfirst
  rw [hreason] at hrun
  obtain ⟨s, hloop, hiterations, haccepted⟩ :=
    hrun.loop_level level hroom le_rfl (verbose || false) (Nat.zero_add _)
  rw [← hreason] at hloop
  have hvalue := value_solve_of_loop hvalid built hasked hfirst hloop
  exact ⟨s.outcome Clock.stopped .iterationLimit, s.session, by rw [hvalue, Search.value_finish],
    hiterations, haccepted⟩

/-- The cost of `constantOne` is one. -/
theorem level_constantOne : constantOne.Level 1 1 :=
  fun _ _ _ => ⟨unitEvaluation, rfl, normSq_unitVector⟩

theorem exists_solve_constantOne (attempts : ℕ) (verbose : Bool) :
    ∃ outcome session,
      (constantOne.solve { unitRadius with maxIterations := attempts, verbose } Clock.stopped false
        ⟨#[0]⟩).value.answer = deliver (verbose || false) outcome session ∧
      outcome.iterations = attempts ∧ outcome.accepted = 0 := by
  have hlevel : constantOne.Level (Vec.size (⟨#[0]⟩ : Vec ℝ)) 1 := level_constantOne
  exact exists_solve_level hlevel rfl attempts verbose

end Problem

end TrustRegion
