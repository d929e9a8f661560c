/-
Module: TrustRegion.Proofs.Search.Run
Purpose: The searches that a problem, its settings and its first state can lead to, one round after
  the other, together with the points that were evaluated on the way. A result is the end of such a
  run, so what every round keeps holds of every result.
Main exports: Search.loop_induct, Problem.Run, Problem.Made, Problem.Run.made,
  Problem.Run.current, deliver, Search.value_finish, Problem.value_solve, Problem.stages_of_solve,
  Problem.ended_run_of_solve, Problem.run_of_solve
-/
import TrustRegion.Proofs.Linear.Factored
import TrustRegion.Proofs.Search.Problem
import TrustRegion.Proofs.Search.Round

namespace TrustRegion

namespace Linearization

variable {α : Type}

/-- A point without what later steps found out about its legs. -/
def bare (p : Linearization α) : Linearization α :=
  { p with cauchy := none, gaussNewton := none, reachedEdge := false }

theorem cauchy_of_bare_eq {q : Linearization α} (h : q.bare = q) : q.cauchy = none := by
  rw [← h]
  rfl

theorem gaussNewton_of_bare_eq {q : Linearization α} (h : q.bare = q) : q.gaussNewton = none := by
  rw [← h]
  rfl

/-- Points that differ in what is known of their legs agree in everything else. -/
theorem parts_of_bare_eq {q q' : Linearization α} (h : q'.bare = q.bare) :
    q'.id = q.id ∧ q'.state = q.state ∧ q'.residuals = q.residuals ∧ q'.cost = q.cost ∧
      q'.jacobian = q.jacobian ∧ q'.gradient = q.gradient := by
  simp only [bare, mk.injEq] at h
  obtain ⟨hid, hstate, hresiduals, hcost, hjacobian, hgradient, -⟩ := h
  exact ⟨hid, hstate, hresiduals, hcost, hjacobian, hgradient⟩

variable [Scalar α]

/-- A point that is made holds what was evaluated and the gradient, and nothing else is known. -/
theorem of_make {β : Type} [LinearSolver α β] {backend : β} {id : Nat} {state : Vec α}
    {evaluation : Evaluation α} {q : Linearization α}
    (h : (make backend id state evaluation).value = .ok q) :
    ∃ gradient,
      (LinearSolver.gradient backend evaluation.jacobian evaluation.residuals).value =
        .ok gradient ∧
      q = { id, state
            residuals := evaluation.residuals
            cost := evaluation.cost
            jacobian := evaluation.jacobian
            gradient
            cauchy := none
            gaussNewton := none
            reachedEdge := false } := by
  unfold make at h
  cases hg : (LinearSolver.gradient backend evaluation.jacobian evaluation.residuals).value with
  | error e =>
      simp only [Logged.value_bind, hg] at h
      cases h
  | ok gradient =>
      simp only [Logged.value_bind, hg] at h
      cases h
      exact ⟨gradient, rfl, rfl⟩

/-- A point can be made from what a callback reports. -/
theorem exists_make {p : Problem α} {s : CholeskySolver α} {n calls : Nat} {state : Vec α}
    {evaluation : Evaluation α} (storage : s.storage = p.storage) (id : Nat)
    (reported : p.report n calls state = some evaluation) :
    ∃ q, (make s id state evaluation).value = .ok q := by
  obtain ⟨hkind, hrows, -, hresiduals⟩ := Problem.shape_of_report reported
  have hstorage : evaluation.jacobian.storage = s.storage := hkind.trans storage.symm
  have hsize : evaluation.residuals.size = evaluation.jacobian.stored.rows :=
    hresiduals.trans hrows.symm
  have hgradient : (LinearSolver.gradient s evaluation.jacobian evaluation.residuals).value =
      .ok (StoredMatrix.transposeMulVec evaluation.jacobian.stored evaluation.residuals) := by
    show (s.gradient evaluation.jacobian evaluation.residuals).value = _
    unfold CholeskySolver.gradient CholeskySolver.matrixOf
    simp only [hstorage, hsize, if_true, Logged.value_bind, Logged.value_pure, ne_eq, not_true,
      if_false]
  unfold make
  simp only [Logged.value_bind, hgradient]
  exact ⟨_, rfl⟩

end Linearization

/-- Settings with which a search can work. -/
structure Settings.Usable {α : Type} [Scalar α] (s : Settings α) : Prop where
  radius : 0 < s.radius
  shrinkFactor : 0 < s.shrinkFactor ∧ s.shrinkFactor < 1
  growFactor : 1 < s.growFactor
  damping : s.damping.Usable

/-- A test that finds nothing does not hold, and what is tested after it finds nothing. -/
theorem not_and_of_ite_eq_none {γ : Type} {c : Prop} [Decidable c] {x : γ} {rest : Option γ}
    (h : (if c then some x else rest) = none) : ¬ c ∧ rest = none := by
  split at h
  · cases h
  · exact ⟨‹¬ c›, h⟩

/-- Settings without a fault are usable. -/
theorem Settings.usable_of_fault? {α : Type} [Scalar α] {s : Settings α} (h : s.fault? = none) :
    s.Usable := by
  unfold fault? at h
  obtain ⟨hradius, h⟩ := not_and_of_ite_eq_none h
  obtain ⟨hshrink, h⟩ := not_and_of_ite_eq_none h
  obtain ⟨hgrow, h⟩ := not_and_of_ite_eq_none h
  obtain ⟨-, h⟩ := not_and_of_ite_eq_none h
  obtain ⟨-, h⟩ := not_and_of_ite_eq_none h
  obtain ⟨hinitial, h⟩ := not_and_of_ite_eq_none h
  obtain ⟨hfactor, -⟩ := not_and_of_ite_eq_none h
  have hinitial := Decidable.not_not.mp hinitial
  have hfactor := Decidable.not_not.mp hfactor
  exact
    { radius := (Decidable.not_not.mp hradius).1
      shrinkFactor := Decidable.not_not.mp hshrink
      growFactor := (Decidable.not_not.mp hgrow).1
      damping := { initial := hinitial.1, factor := hfactor.1, isFinite_factor := hfactor.2 } }

/-- The first point of a search is made like any other, with the number zero, and is in range. -/
theorem of_firstPoint {α β : Type} [Scalar α] [LinearSolver α β] {backend : β} {state : Vec α}
    {evaluation : Evaluation α} {q : Linearization α}
    (h : (firstPoint backend state evaluation).value = .ok q) :
    (Linearization.make backend 0 state evaluation).value = .ok q ∧ q.isFinite = true := by
  unfold firstPoint at h
  cases hm : (Linearization.make backend 0 state evaluation).value with
  | error e =>
      simp only [Logged.value_bind, hm] at h
      cases h
  | ok point =>
      simp only [Logged.value_bind, hm] at h
      split at h
      · rename_i hfinite
        cases h
        exact ⟨rfl, hfinite⟩
      · cases h

/-- The number of the last accepted attempt, counted from one, among attempts with the latest first;
zero if none was accepted. -/
def latestAccepted {α : Type} : List (Attempt α) → Nat
  | [] => 0
  | a :: earlier => if a.accepted then earlier.length + 1 else latestAccepted earlier

namespace Workspace.StepsTo

variable {α β : Type} [Scalar α] [LinearSolver α β]

/-- A step is computed without leaving the point. -/
theorem bare_eq {schedule : DampingSchedule α} {radius : α} {w w' : Workspace α β} {step : Step α}
    (h : w.StepsTo schedule radius step w') : w'.point.bare = w.point.bare := by
  cases h <;> rfl

end Workspace.StepsTo

/-- What every attempt keeps, of the search and of the events emitted so far, a loop that comes to its
end keeps; it has a reason to end then or has used up its attempts. -/
theorem Search.loop_induct {α β : Type} [Scalar α] [LinearSolver α β] {clock : Clock}
    {reporting : Bool} {limit : Nat}
    {motive : List (Event α) → Option StopReason → Search α β → Prop}
    (step : ∀ {events s r reason s'}, motive events none s → s.iterations < limit →
      s.Attempts clock r reason s' →
        motive (events ++ (s.attempt clock reporting).events) reason s')
    {remaining : Nat} {reason : Option StopReason} {s s' : Search α β} {final : StopReason}
    (events : List (Event α)) (h : motive events reason s)
    (room : s.iterations + remaining = limit)
    (run : (s.loop clock reporting remaining reason).value = (.ok final, s')) :
    ∃ reason', motive (events ++ (s.loop clock reporting remaining reason).events) reason' s' ∧
      reason'.getD .iterationLimit = final ∧ (reason' = none → s'.iterations = limit) := by
  induction remaining generalizing events reason s with
  | zero =>
      cases reason with
      | some given =>
          cases run
          rw [Search.loop, Logged.events_pure, List.append_nil]
          exact ⟨some final, h, rfl, nofun⟩
      | none =>
          cases run
          rw [Search.loop, Logged.events_pure, List.append_nil]
          exact ⟨none, h, rfl, fun _ => room⟩
  | succ remaining ih =>
      cases reason with
      | some given =>
          cases run
          rw [Search.loop, Logged.events_pure, List.append_nil]
          exact ⟨some final, h, rfl, nofun⟩
      | none =>
          rcases hattempt : (s.attempt clock reporting).value with ⟨answer, s₁⟩
          simp only [Search.loop, Logged.value_bind, Logged.events_bind, hattempt] at run ⊢
          cases answer with
          | error e => cases run
          | ok reason =>
              obtain ⟨r, attempted⟩ := Search.attempt_iff.mp hattempt
              rw [← List.append_assoc]
              refine ih _ (step h (by omega) attempted) ?_ run
              rw [attempted.after.iterations]
              omega

namespace Problem

variable {α : Type} [Scalar α]

/-- A point made from what the callback reported when it was asked for the `k`-th time, counted from
zero. -/
structure Made (p : Problem α) (states k : Nat) (q : Linearization α) : Prop where
  id : q.id = k
  reported : p.report states k q.state = some { residuals := q.residuals, jacobian := q.jacobian }
  cost : q.cost = q.residuals.normSq
  rows : q.residuals.size = q.jacobian.stored.rows
  gradient : q.gradient = StoredMatrix.transposeMulVec q.jacobian.stored q.residuals
  bare : q.bare = q

/-- The searches from a first state, with every point made so far in order and with what the last
round decided. -/
inductive Run (p : Problem α) (settings : Settings α) (clock : Clock) (state : Vec α) :
    List (Linearization α) → Option StopReason → Search α (CholeskySolver α) → Prop where
  | opening {e e' : Evaluator α} {evaluation : Evaluation α} {point : Linearization α}
      (valid : settings.fault? = none) (built : (p.evaluator state.size).value = .ok e)
      (asked : (e.evaluate state).value = (.ok evaluation, e'))
      (first : (firstPoint p.backend state evaluation).value = .ok point) :
      Run p settings clock state [point] (settings.converged? point none settings.radius)
        (Search.start (Session.start p.backend settings point) e')
  | round {points : List (Linearization α)} {s s' : Search α (CholeskySolver α)}
      {r : Search.Round α (CholeskySolver α)} {reason : Option StopReason}
      (before : Run p settings clock state points none s)
      (room : s.iterations < settings.maxIterations)
      (attempted : s.Attempts clock r reason s') :
      Run p settings clock state (points ++ [r.candidate]) reason s'

namespace Run

variable {p : Problem α} {settings : Settings α} {clock : Clock} {state : Vec α}
  {points : List (Linearization α)} {reason : Option StopReason} {s : Search α (CholeskySolver α)}

/-- Nothing runs with settings that cannot be used. -/
theorem valid (h : p.Run settings clock state points reason s) : settings.fault? = none := by
  induction h with
  | opening valid _ _ _ => exact valid
  | round _ _ _ ih => exact ih

theorem usable (h : p.Run settings clock state points reason s) : settings.Usable :=
  Settings.usable_of_fault? h.valid

theorem settings_eq (h : p.Run settings clock state points reason s) :
    s.session.settings = settings := by
  induction h with
  | opening _ _ _ _ => rfl
  | round _ _ attempted ih => rw [attempted.after.settings, ih]

theorem length_eq (h : p.Run settings clock state points reason s) :
    points.length = s.iterations + 1 := by
  induction h with
  | opening _ _ _ _ => rfl
  | round _ _ attempted ih => rw [attempted.after.iterations, List.length_append, ih]; rfl

/-- Points are numbered in order. -/
theorem nextId_eq (h : p.Run settings clock state points reason s) :
    s.session.nextId = points.length := by
  induction h with
  | opening _ _ _ _ => rfl
  | round _ _ attempted ih => rw [attempted.after.nextId, List.length_append, ih]; rfl

/-- The callback has been asked once for every point. -/
theorem serves (h : p.Run settings clock state points reason s) :
    p.Serves state.size points.length s.evaluator := by
  induction h with
  | opening _ built asked _ => exact ((serves_evaluator built).evaluate asked).2
  | round _ _ attempted ih =>
      rw [attempted.after.evaluator, List.length_append]
      exact (ih.evaluate attempted.asked).2

theorem length_history (h : p.Run settings clock state points reason s) :
    s.history.length = s.iterations := by
  induction h with
  | opening _ _ _ _ => rfl
  | round _ _ attempted ih =>
      obtain ⟨a, ha, -⟩ := attempted.after.history
      rw [attempted.after.iterations, ha, List.length_cons, ih]

/-- There is one point more than there are attempts. -/
theorem length_points (h : p.Run settings clock state points reason s) :
    points.length = s.history.length + 1 := by
  rw [h.length_eq, h.length_history]

end Run

/-- A point of a problem is made from what its callback reports. -/
theorem made_of_make {p : Problem α} {backend : CholeskySolver α} {states k : Nat}
    {state : Vec α} {evaluation : Evaluation α} {q : Linearization α}
    (made : (Linearization.make backend k state evaluation).value = .ok q)
    (reported : p.report states k state = some evaluation) : p.Made states k q := by
  obtain ⟨gradient, hg, rfl⟩ := Linearization.of_make made
  obtain ⟨-, hrows, rfl⟩ := CholeskySolver.gradient_eq hg
  exact { id := rfl, reported, cost := rfl, rows := hrows, gradient := rfl, bare := rfl }

namespace Run

variable {p : Problem α} {settings : Settings α} {clock : Clock} {state : Vec α}
  {points : List (Linearization α)} {reason : Option StopReason} {s : Search α (CholeskySolver α)}

omit [Scalar α] in
/-- A place in a list with one more point at the end is an old place or the last one. -/
theorem getElem?_concat_cases {points : List (Linearization α)} {candidate q : Linearization α}
    {k : Nat} (h : (points ++ [candidate])[k]? = some q) :
    points[k]? = some q ∨ (k = points.length ∧ q = candidate) := by
  rcases Nat.lt_or_ge k points.length with hlt | hge
  · rw [List.getElem?_append_left hlt] at h
    exact .inl h
  · rw [List.getElem?_append_right hge, List.getElem?_singleton] at h
    split at h
    · cases h
      exact .inr ⟨by omega, rfl⟩
    · cases h

/-- Each point of a run is the one that its place says. -/
theorem made (h : p.Run settings clock state points reason s) {k : Nat} {q : Linearization α}
    (hk : points[k]? = some q) : p.Made state.size k q := by
  induction h with
  | opening _ built asked first =>
      rw [← List.nil_append [_]] at hk
      rcases getElem?_concat_cases hk with hold | ⟨rfl, rfl⟩
      · cases hold
      · exact made_of_make (of_firstPoint first).1 ((serves_evaluator built).evaluate asked).1
  | round before _ attempted ih =>
      rcases getElem?_concat_cases hk with hold | ⟨rfl, rfl⟩
      · exact ih hold
      · have hmade := attempted.made
        rw [before.nextId_eq] at hmade
        have hreported := (before.serves.evaluate attempted.asked).1
        exact made_of_make hmade hreported

/-- The candidate of a round is the next point of the run. -/
theorem made_candidate (before : p.Run settings clock state points none s)
    (room : s.iterations < settings.maxIterations) {r : Search.Round α (CholeskySolver α)}
    {s' : Search α (CholeskySolver α)} (attempted : s.Attempts clock r reason s') :
    p.Made state.size points.length r.candidate :=
  (Run.round before room attempted).made List.getElem?_concat_length

/-- Taking a step leaves the point alone until the decision about it. -/
theorem bare_workspace {r : Search.Round α (CholeskySolver α)} {s' : Search α (CholeskySolver α)}
    (attempted : s.Attempts clock r reason s') :
    r.workspace.point.bare = s.session.point.bare :=
  (Workspace.stepsTo_of_computeStep attempted.computed).bare_eq

theorem cost_workspace {r : Search.Round α (CholeskySolver α)} {s' : Search α (CholeskySolver α)}
    (attempted : s.Attempts clock r reason s') : r.workspace.point.cost = s.session.point.cost := by
  have h := congrArg Linearization.cost (bare_workspace attempted)
  exact h

/-- The current point is the one of the last accepted attempt, or the first one. -/
theorem current (h : p.Run settings clock state points reason s) :
    points[latestAccepted s.history]? = some s.session.point.bare := by
  induction h with
  | opening _ built asked first =>
      have hmade := made_of_make (of_firstPoint first).1 ((serves_evaluator built).evaluate asked).1
      exact congrArg some hmade.bare.symm
  | @round points s s' r reason before room attempted ih =>
      have hafter := attempted.after
      obtain ⟨a, ha, -, haccepted, -⟩ := hafter.history
      rw [ha, hafter.point, latestAccepted, haccepted]
      cases hacc : r.accepted s.session.settings with
      | true =>
          have hmade := before.made_candidate room attempted
          rw [Search.Round.endpoint_of_accepted hacc, if_pos rfl, ← before.length_points,
            List.getElem?_concat_length, hmade.bare]
      | false =>
          have hold : latestAccepted s.history < points.length :=
            (List.getElem?_eq_some_iff.mp ih).1
          rw [Search.Round.endpoint_of_rejected hacc, if_neg Bool.false_ne_true,
            bare_workspace attempted, List.getElem?_append_left hold, ih]

/-- Every point of a run is at a state of the length of the first one. -/
theorem size_state (h : p.Run settings clock state points reason s) {q : Linearization α}
    (hq : q ∈ points) : q.state.size = state.size := by
  induction h with
  | opening valid built asked first =>
      obtain ⟨gradient, -, rfl⟩ := Linearization.of_make (of_firstPoint first).1
      rw [List.mem_singleton.mp hq]
  | @round points s s' r reason before room attempted ih =>
      rcases List.mem_append.mp hq with hold | hnew
      · exact ih hold
      · obtain rfl := List.mem_singleton.mp hnew
        have hsize := before.serves.size_of_evaluate attempted.asked
        obtain ⟨gradient, -, hcandidate⟩ := Linearization.of_make attempted.made
        rw [hcandidate]
        exact hsize

/-- What a loop ends with is the end of a run; without a reason, the attempts are used up. -/
theorem loop (h : p.Run settings clock state points reason s) {reporting : Bool} {remaining : Nat}
    {final : StopReason} {s' : Search α (CholeskySolver α)}
    (room : s.iterations + remaining = settings.maxIterations)
    (run : (s.loop clock reporting remaining reason).value = (.ok final, s')) :
    ∃ points reason, p.Run settings clock state points reason s' ∧
      reason.getD .iterationLimit = final ∧
      (reason = none → s'.iterations = settings.maxIterations) := by
  obtain ⟨reason', ⟨points', hrun⟩, hfinal, hlimit⟩ :=
    Search.loop_induct (motive := fun _ reason s => ∃ points, p.Run settings clock state points reason s)
      (fun ⟨_, before⟩ room attempted => ⟨_, .round before room attempted⟩) [] ⟨points, h⟩ room run
  exact ⟨points', reason', hrun, hfinal, hlimit⟩

end Run

end Problem

/-! ### Results -/

section Result

variable {α β : Type} [Scalar α]

/-- The mean time of an attempt is undefined exactly if their number is not zero, but is as a word of
32 bits. -/
theorem Search.meanTime?_eq_none_iff {elapsed : Duration} {iterations : Nat} :
    meanTime? elapsed iterations = none ↔ iterations ≠ 0 ∧ Nat.pow 2 32 ∣ iterations := by
  unfold meanTime? Duration.share?
  rw [Nat.dvd_iff_mod_eq_zero]
  by_cases hzero : iterations = 0
  · simp [hzero]
  · by_cases hmod : iterations % Nat.pow 2 32 = 0
    · simp [hzero, hmod]
    · simp [hzero, hmod]

/-- What a search that comes to its end delivers: its result, unless it reports and has no mean time of
an attempt for its summary. -/
def deliver (reporting : Bool) (outcome : Outcome α) (session : Session α β) :
    Except (SolveError α) (Outcome α × Session α β) :=
  if reporting = true ∧ outcome.iterations ≠ 0 ∧ Nat.pow 2 32 ∣ outcome.iterations then
    .error (.meanTimeUndefined outcome.iterations)
  else .ok (outcome, session)

/-- What ending a search comes to. -/
theorem Search.value_finish (s : Search α β) (clock : Clock) (reporting : Bool)
    (reason : StopReason) :
    (s.finish clock reporting reason).value =
      { answer := deliver reporting (s.outcome clock reason) s.session
        state := s.session.point.state
        calls := s.evaluator.calls } := by
  unfold finish deliver
  cases reporting with
  | false => rfl
  | true =>
      simp only [if_true, true_and]
      cases htime : meanTime? (s.outcome clock reason).elapsed (s.outcome clock reason).iterations with
      | none =>
          rw [if_pos (meanTime?_eq_none_iff.mp htime)]
          rfl
      | some time =>
          rw [if_neg]
          · rfl
          · intro hundefined
            rw [meanTime?_eq_none_iff.mpr hundefined] at htime
            cases htime

omit [Scalar α] in
/-- Only a result that is delivered is the answer. -/
theorem eq_of_deliver {reporting : Bool} {outcome outcome' : Outcome α}
    {session session' : Session α β}
    (h : deliver reporting outcome session = .ok (outcome', session')) :
    outcome = outcome' ∧ session = session' := by
  unfold deliver at h
  split at h
  · cases h
  · cases h
    exact ⟨rfl, rfl⟩

end Result

namespace Problem

variable {α : Type} [Scalar α]

/-- An answer that is tested for success can be named. -/
theorem exists_eq_ok {ε γ : Type} {answer : Except ε γ} (h : answer.isOk = true) :
    ∃ result, answer = .ok result := by
  cases answer with
  | error e => cases h
  | ok result => exact ⟨result, rfl⟩

/-- What solving a problem comes to once its settings and its sizes are accepted. -/
theorem value_solve {p : Problem α} {settings : Settings α} {state : Vec α} {e : Evaluator α}
    (valid : settings.fault? = none) (built : (p.evaluator state.size).value = .ok e)
    (clock : Clock) (debugHeard : Bool) :
    (p.solve settings clock debugHeard state).value =
      match (e.evaluate state).value with
      | (.error error, e') => { answer := .error (.problem error), state, calls := e'.calls }
      | (.ok evaluation, e') =>
          match (firstPoint p.backend state evaluation).value with
          | .error error => { answer := .error error, state, calls := e'.calls }
          | .ok point =>
              match ((Search.start (Session.start p.backend settings point) e').loop clock
                  (settings.verbose || debugHeard) settings.maxIterations
                  (settings.converged? point none settings.radius)).value with
              | (.error error, s) => { answer := .error error, state, calls := s.evaluator.calls }
              | (.ok final, s) => (s.finish clock (settings.verbose || debugHeard) final).value := by
  rw [solve_eq]
  unfold solveWith Settings.validate
  simp only [valid, Logged.value_bind, Logged.value_pure, built]
  unfold TrustRegion.solve
  rcases hasked : (e.evaluate state).value with ⟨answer, e'⟩
  simp only [Logged.value_bind, hasked]
  cases answer with
  | error error => rfl
  | ok evaluation =>
      cases hfirst : (firstPoint p.backend state evaluation).value with
      | error error =>
          simp only [Logged.value_bind, hfirst]
          rfl
      | ok point =>
          have hradius : (Session.start p.backend settings point).radius = settings.radius := rfl
          rcases hloop : ((Search.start (Session.start p.backend settings point) e').loop clock
            (settings.verbose || debugHeard) settings.maxIterations
            (settings.converged? point none settings.radius)).value with ⟨answer, s⟩
          simp only [Logged.value_bind, hfirst, hradius, hloop]
          cases answer <;> rfl

/-- A solve ends as its loop does. -/
theorem value_solve_of_loop {p : Problem α} {settings : Settings α}
    {state : Vec α} {e e' : Evaluator α} {evaluation : Evaluation α} {point : Linearization α}
    {clock : Clock} {debugHeard : Bool} {final : StopReason} {s : Search α (CholeskySolver α)}
    (valid : settings.fault? = none) (built : (p.evaluator state.size).value = .ok e)
    (asked : (e.evaluate state).value = (.ok evaluation, e'))
    (first : (firstPoint p.backend state evaluation).value = .ok point)
    (ended : ((Search.start (Session.start p.backend settings point) e').loop clock
      (settings.verbose || debugHeard) settings.maxIterations
      (settings.converged? point none settings.radius)).value = (.ok final, s)) :
    (p.solve settings clock debugHeard state).value =
      (s.finish clock (settings.verbose || debugHeard) final).value := by
  rw [value_solve valid built, asked]
  simp only [first, ended]

/-- A search that may not attempt anything ends at its first point. -/
theorem exists_solve_of_no_attempts {p : Problem α} {settings : Settings α} {state : Vec α}
    {e e' : Evaluator α} {evaluation : Evaluation α} {point : Linearization α}
    (valid : settings.fault? = none) (built : (p.evaluator state.size).value = .ok e)
    (asked : (e.evaluate state).value = (.ok evaluation, e'))
    (first : (firstPoint p.backend state evaluation).value = .ok point)
    (limit : settings.maxIterations = 0) (quiet : settings.verbose = false) (clock : Clock) :
    ∃ result, (p.solve settings clock false state).value.answer = .ok result := by
  have hreporting : (settings.verbose || false) = false := by rw [quiet, Bool.or_false]
  rw [value_solve valid built, asked]
  simp only [first, limit, hreporting]
  cases settings.converged? point none settings.radius with
  | some reason => exact ⟨_, rfl⟩
  | none => exact ⟨_, rfl⟩

/-- There is a result only with settings and sizes that are accepted. -/
theorem accepted_of_solve {p : Problem α} {settings : Settings α} {clock : Clock}
    {debugHeard : Bool} {state : Vec α} {result : Outcome α × Session α (CholeskySolver α)}
    (h : (p.solve settings clock debugHeard state).value.answer = .ok result) :
    settings.fault? = none ∧ ∃ e, (p.evaluator state.size).value = .ok e := by
  rw [solve_eq] at h
  unfold solveWith Settings.validate at h
  cases hvalid : settings.fault? with
  | some fault =>
      simp only [hvalid, Logged.value_bind] at h
      cases h
  | none =>
      cases hbuilt : (p.evaluator state.size).value with
      | error e =>
          simp only [hvalid, Logged.value_bind, Logged.value_pure, hbuilt] at h
          cases h
      | ok e => exact ⟨rfl, e, rfl⟩

/-- There is a result only if the first point can be made and the loop from there comes to its end,
and then it is what the search holds. -/
theorem stages_of_solve {p : Problem α} {settings : Settings α} {clock : Clock} {debugHeard : Bool}
    {state : Vec α} {outcome : Outcome α} {session : Session α (CholeskySolver α)}
    (ok : (p.solve settings clock debugHeard state).value.answer = .ok (outcome, session)) :
    ∃ e e' evaluation point final s, settings.fault? = none ∧
      (p.evaluator state.size).value = .ok e ∧ (e.evaluate state).value = (.ok evaluation, e') ∧
      (firstPoint p.backend state evaluation).value = .ok point ∧
      ((Search.start (Session.start p.backend settings point) e').loop clock
        (settings.verbose || debugHeard) settings.maxIterations
        (settings.converged? point none settings.radius)).value = (.ok final, s) ∧
      outcome = s.outcome clock final ∧ session = s.session ∧
      (p.solve settings clock debugHeard state).value.state = s.session.point.state ∧
      (p.solve settings clock debugHeard state).value.calls = s.evaluator.calls := by
  obtain ⟨hvalid, e, hbuilt⟩ := accepted_of_solve ok
  have hvalue := value_solve hvalid hbuilt clock debugHeard
  rcases hasked : (e.evaluate state).value with ⟨answer, e'⟩
  simp only [hasked] at hvalue
  cases answer with
  | error error =>
      rw [hvalue] at ok
      cases ok
  | ok evaluation =>
      cases hfirst : (firstPoint p.backend state evaluation).value with
      | error error =>
          simp only [hfirst] at hvalue
          rw [hvalue] at ok
          cases ok
      | ok point =>
          rcases hloop : ((Search.start (Session.start p.backend settings point) e').loop clock
            (settings.verbose || debugHeard) settings.maxIterations
            (settings.converged? point none settings.radius)).value with ⟨answer, s⟩
          simp only [hfirst, hloop] at hvalue
          cases answer with
          | error error =>
              rw [hvalue] at ok
              cases ok
          | ok final =>
              simp only [Search.value_finish] at hvalue
              rw [hvalue] at ok ⊢
              obtain ⟨rfl, rfl⟩ := eq_of_deliver ok
              exact ⟨e, e', evaluation, point, final, s, hvalid, hbuilt, hasked, hfirst, hloop,
                rfl, rfl, rfl, rfl⟩

/-- What a caller is given is read off the search at the end of a run, which has a reason to end or
has used up its attempts. -/
theorem ended_run_of_solve {p : Problem α} {settings : Settings α} {clock : Clock}
    {debugHeard : Bool} {state : Vec α} {outcome : Outcome α}
    {session : Session α (CholeskySolver α)}
    (ok : (p.solve settings clock debugHeard state).value.answer = .ok (outcome, session)) :
    ∃ points reason s, p.Run settings clock state points reason s ∧
      outcome = s.outcome clock (reason.getD .iterationLimit) ∧ session = s.session ∧
      (p.solve settings clock debugHeard state).value.state = s.session.point.state ∧
      (p.solve settings clock debugHeard state).value.calls = points.length ∧
      (reason = none → s.iterations = settings.maxIterations) := by
  obtain ⟨e, e', evaluation, point, final, s, hvalid, hbuilt, hasked, hfirst, hloop, rfl, rfl, hstate,
    hcalls⟩ := stages_of_solve ok
  have hopening : p.Run settings clock state [point] _ _ := .opening hvalid hbuilt hasked hfirst
  obtain ⟨points, reason, hrun, rfl, hlimit⟩ :=
    hopening.loop (Nat.zero_add settings.maxIterations) hloop
  exact ⟨points, reason, s, hrun, rfl, rfl, hstate, hcalls.trans hrun.serves.calls_eq, hlimit⟩

/-- What a caller is given is read off the search at the end of a run. -/
theorem run_of_solve {p : Problem α} {settings : Settings α} {clock : Clock} {debugHeard : Bool}
    {state : Vec α} {solved : Solved α (CholeskySolver α)} {outcome : Outcome α}
    {session : Session α (CholeskySolver α)}
    (h : (p.solve settings clock debugHeard state).value = solved)
    (ok : solved.answer = .ok (outcome, session)) :
    ∃ points reason s, p.Run settings clock state points reason s ∧
      outcome = s.outcome clock (reason.getD .iterationLimit) ∧ session = s.session ∧
      solved.state = s.session.point.state ∧ solved.calls = points.length := by
  subst h
  obtain ⟨points, reason, s, hrun, houtcome, hsession, hstate, hcalls, -⟩ := ended_run_of_solve ok
  exact ⟨points, reason, s, hrun, houtcome, hsession, hstate, hcalls⟩

end Problem

end TrustRegion
