/-
Module: TrustRegion.Proofs.Search.Reporting
Purpose: What the wish to report, a listener and the clock change in a search: the times that it records
  and whether it reports at all. Two searches that differ in these alone ask the callback at the same
  states and come to the same result, except that a search that reports is left without one where the
  mean time for its summary is undefined.
Main exports: Search.destinations, Search.calls_loop, Problem.asked, Search.Alike,
  Search.Alike.attempt, Search.Alike.loop, Solved.Alike,
  Problem.solve_same_unless_meanTimeUndefined
-/
import TrustRegion.Proofs.Search.Failure
import TrustRegion.Proofs.Search.Level
import TrustRegion.Proofs.Search.Lockstep

namespace TrustRegion

/-! ### What is asked -/

namespace Evaluator

variable {α : Type} [Scalar α]

/-- Asking the callback leaves the sizes of the problem. -/
theorem states_evaluate (e : Evaluator α) (state : Vec α) :
    (e.evaluate state).value.2.states = e.states := by
  unfold evaluate
  split
  · rfl
  · cases e with
    | sparse e =>
        obtain ⟨entries, hwriter⟩ :=
          Writing.writer_run (e.callback e.calls state e.writer.measurements) e.writer.clear
        rcases hrun : ((e.callback e.calls state e.writer.measurements).run e.writer.clear).value with
          ⟨answer, writer⟩
        rw [hrun] at hwriter
        subst hwriter
        simp only [SparseEvaluator.ask, Logged.value_bind, hrun]
        cases answer with
        | error error => rfl
        | ok residuals =>
            simp only [Logged.value_bind]
            split <;> rfl
    | dense e =>
        simp only [DenseEvaluator.ask]
        split <;> rfl

/-- A state of the right length is what the callback is asked, once. -/
theorem calls_evaluate {e : Evaluator α} {state : Vec α} (size : state.size = e.states) :
    (e.evaluate state).value.2.calls = e.calls + 1 := by
  unfold evaluate
  rw [if_neg (not_not.mpr size)]
  cases e with
  | sparse e =>
      rcases hrun : ((e.callback e.calls state e.writer.measurements).run e.writer.clear).value with
        ⟨answer, writer⟩
      simp only [SparseEvaluator.ask, Logged.value_bind, hrun]
      cases answer with
      | error error => rfl
      | ok residuals =>
          simp only [Logged.value_bind]
          split <;> rfl
  | dense e =>
      simp only [DenseEvaluator.ask]
      split <;> rfl

end Evaluator

/-- A step is computed without moving. -/
theorem Workspace.StepsTo.state_eq {α β : Type} [Scalar α] [LinearSolver α β]
    {schedule : DampingSchedule α} {radius : α} {w w' : Workspace α β} {step : Step α}
    (h : w.StepsTo schedule radius step w') : w'.point.state = w.point.state :=
  (Linearization.parts_of_bare_eq h.bare_eq).2.1

namespace Search

variable {α β : Type} [Scalar α] [LinearSolver α β]

/-- The search once a step is computed. -/
def settled (w : Workspace α β) (s : Search α β) : Search α β :=
  { s with session := { s.session with workspace := w } }

/-- What an attempt comes to, stage by stage. -/
theorem value_attempt (clock : Clock) (reporting : Bool) (s : Search α β) :
    (s.attempt clock reporting).value =
      match (s.session.workspace.computeStep s.session.settings.damping s.session.radius).value with
      | (.error error, w) => (.error (.search (.linear error)), s.settled w)
      | (.ok step, w) =>
          match (predictedImprovement w.backend w.point step.update).value with
          | .error error => (.error (.search (.linear error)), s.settled w)
          | .ok predicted =>
              match ((s.settled w).evaluateAt step).value with
              | (.error error, s) => (.error error, s)
              | (.ok candidate, s) =>
                  (.ok (s.judge clock reporting step predicted candidate).value.1,
                    (s.judge clock reporting step predicted candidate).value.2) := by
  unfold attempt
  rcases hstep : (s.session.workspace.computeStep s.session.settings.damping
    s.session.radius).value with ⟨error | step, w⟩
  · simp only [Logged.value_bind, hstep]
    rfl
  · cases hpromise : (predictedImprovement w.backend w.point step.update).value with
    | error error =>
        simp only [Logged.value_bind, hstep, hpromise]
        rfl
    | ok predicted =>
        simp only [Logged.value_bind, hstep, hpromise]
        rw [show { s with session := { s.session with workspace := w } } = s.settled w from rfl]
        rcases ((s.settled w).evaluateAt step).value with ⟨error | candidate, left⟩
        · rfl
        · rfl

/-- The state where the next attempt asks the callback, if it comes to that. -/
def destination (s : Search α β) : Option (Vec α) :=
  let session := s.session
  match (session.workspace.computeStep session.settings.damping session.radius).value with
  | (.error _, _) => none
  | (.ok step, workspace) =>
      match (predictedImprovement workspace.backend workspace.point step.update).value with
      | .error _ => none
      | .ok _ => some (workspace.point.state.add step.update)

/-- The states where the attempts of a loop ask the callback, in order. -/
def destinations (clock : Clock) (reporting : Bool) :
    (remaining : Nat) → Option StopReason → Search α β → List (Vec α)
  | _, some _, _ => []
  | 0, none, _ => []
  | remaining + 1, none, s =>
      s.destination.toList ++
        match (s.attempt clock reporting).value with
        | (.error _, _) => []
        | (.ok reason, s) => destinations clock reporting remaining reason s

omit [LinearSolver α β] in
/-- A decision asks nothing. -/
theorem evaluator_judge (clock : Clock) (reporting : Bool) (step : Step α) (predicted : α)
    (candidate : Linearization α) (s : Search α β) :
    (s.judge clock reporting step predicted candidate).value.2.evaluator = s.evaluator := by
  simp only [judge]
  split <;> rfl

/-- An attempt that comes to its end leaves a point of the length that the callback expects. -/
theorem Attempts.size_point {clock : Clock} {s s' : Search α β} {r : Round α β}
    {reason : Option StopReason} (h : s.Attempts clock r reason s')
    (size : s.session.point.state.size = s.evaluator.states) :
    s'.session.point.state.size = s'.evaluator.states := by
  have hstates : s'.evaluator.states = s.evaluator.states := by
    have hasked := s.evaluator.states_evaluate (r.workspace.point.state.add r.step.update)
    rw [h.asked] at hasked
    rw [h.after.evaluator]
    exact hasked
  have hplace : r.workspace.point.state = s.session.point.state :=
    (Workspace.stepsTo_of_computeStep h.computed).state_eq
  obtain ⟨gradient, -, hcandidate⟩ := Linearization.of_make h.made
  rw [hstates, h.after.point, Round.endpoint]
  split
  · rw [hcandidate, Vec.size_add, hplace]
    exact size
  · rw [hplace]
    exact size

/-- An attempt that comes to its end has made its candidate at its destination. -/
theorem Attempts.destination_eq {clock : Clock} {s s' : Search α β} {r : Round α β}
    {reason : Option StopReason} (h : s.Attempts clock r reason s') :
    s.destination = some r.candidate.state := by
  obtain ⟨gradient, -, hcandidate⟩ := Linearization.of_make h.made
  unfold destination
  simp only [h.computed, h.promised]
  rw [hcandidate]

/-- Where a step leads, the callback is asked once. -/
theorem calls_evaluateAt {s : Search α β} (size : s.session.point.state.size = s.evaluator.states)
    (step : Step α) :
    (s.evaluateAt step).value.2.evaluator.calls = s.evaluator.calls + 1 := by
  have hcalls := Evaluator.calls_evaluate ((Vec.size_add _ step.update).trans size)
  rcases hasked : (s.evaluator.evaluate (s.session.point.state.add step.update)).value with
    ⟨error | evaluation, e⟩
  · rw [hasked] at hcalls
    simp only [evaluateAt, Logged.value_bind, hasked]
    exact hcalls
  · rw [hasked] at hcalls
    simp only [evaluateAt, Logged.value_bind, hasked]
    split
    · exact hcalls
    · exact hcalls

/-- An attempt asks the callback once, at its destination, or not at all if it has none. -/
theorem calls_attempt {s : Search α β} (size : s.session.point.state.size = s.evaluator.states)
    (clock : Clock) (reporting : Bool) :
    (s.attempt clock reporting).value.2.evaluator.calls =
      s.evaluator.calls + s.destination.toList.length := by
  rw [value_attempt, destination]
  rcases hstep : (s.session.workspace.computeStep s.session.settings.damping
    s.session.radius).value with ⟨error | step, w⟩
  · rfl
  · dsimp only
    cases (predictedImprovement w.backend w.point step.update).value with
    | error error => rfl
    | ok predicted =>
        have hplace : w.point.state = s.session.point.state :=
          (Workspace.stepsTo_of_computeStep hstep).state_eq
        have hcalls : ((s.settled w).evaluateAt step).value.2.evaluator.calls =
            s.evaluator.calls + 1 :=
          calls_evaluateAt (s := s.settled w) ((congrArg Vec.size hplace).trans size) step
        rcases hfound : ((s.settled w).evaluateAt step).value with ⟨error | candidate, left⟩
        · rw [hfound] at hcalls
          exact hcalls
        · rw [hfound] at hcalls
          exact (congrArg Evaluator.calls (evaluator_judge _ _ _ _ _ left)).trans hcalls

/-- A loop asks the callback once at each of its destinations. -/
theorem calls_loop {s : Search α β} (size : s.session.point.state.size = s.evaluator.states)
    (clock : Clock) (reporting : Bool) (remaining : Nat) (reason : Option StopReason) :
    (s.loop clock reporting remaining reason).value.2.evaluator.calls =
      s.evaluator.calls + (s.destinations clock reporting remaining reason).length := by
  induction remaining generalizing s reason with
  | zero => cases reason <;> rfl
  | succ remaining ih =>
      cases reason with
      | some given => rfl
      | none =>
          have hcalls := calls_attempt size clock reporting
          rcases hattempt : (s.attempt clock reporting).value with ⟨answer, s'⟩
          rw [hattempt] at hcalls
          simp only [loop, destinations, Logged.value_bind, hattempt, List.length_append]
          cases answer with
          | error error => exact hcalls
          | ok reason =>
              obtain ⟨r, attempted⟩ := attempt_iff.mp hattempt
              rw [ih (attempted.size_point size) reason, hcalls, Nat.add_assoc]

end Search

/-! ### Searches that differ in their reports -/

/-- A session without the wish to report. -/
def Session.muted {α β : Type} (s : Session α β) : Session α β :=
  { s with settings := { s.settings with verbose := false } }

namespace Search

variable {α β : Type} [Scalar α]

/-- The same search with another wish to report and with another history. -/
def retold (verbose : Bool) (history : List (Attempt α)) (s : Search α β) : Search α β :=
  { s with session := { s.session with settings := { s.session.settings with verbose } }, history }

omit [Scalar α] in
theorem point_retold (verbose : Bool) (history : List (Attempt α)) (s : Search α β) :
    (s.retold verbose history).session.point = s.session.point :=
  rfl

theorem accepts_retold (verbose : Bool) (history : List (Attempt α)) (s : Search α β) :
    (s.retold verbose history).session.settings.accepts = s.session.settings.accepts :=
  rfl

/-- Searches that differ in the wish to report and in the times of their attempts only. -/
inductive Alike (s : Search α β) : Search α β → Prop where
  | retold (verbose : Bool) {history : List (Attempt α)}
      (times : history.map Attempt.timeless = s.history.map Attempt.timeless) :
      Alike s (s.retold verbose history)

namespace Alike

variable {s₁ s₂ : Search α β}

/-- Searches that are alike decide alike. -/
theorem judge (h : s₁.Alike s₂) (clock₁ clock₂ : Clock) (reporting₁ reporting₂ : Bool)
    (step : Step α) (predicted : α) (candidate : Linearization α) :
    ∃ reason left₁ left₂,
      (s₁.judge clock₁ reporting₁ step predicted candidate).value = (reason, left₁) ∧
      (s₂.judge clock₂ reporting₂ step predicted candidate).value = (reason, left₂) ∧
      left₁.Alike left₂ := by
  cases h with
  | @retold verbose history times =>
      rw [value_judge clock₁ reporting₁, value_judge clock₂ reporting₂]
      simp only [Search.judge, point_retold, accepts_retold]
      split
      · rename_i taken
        simp only [taken, if_true]
        refine ⟨_, _, _, rfl, rfl, .retold verbose ?_⟩
        exact congrArg (_ :: ·) times
      · rename_i refused
        simp only [refused]
        refine ⟨_, _, _, rfl, rfl, .retold verbose ?_⟩
        exact congrArg (_ :: ·) times

variable [LinearSolver α β]

/-- Searches that are alike compute the same step. -/
theorem step_eq (h : s₁.Alike s₂) :
    (s₁.session.workspace.computeStep s₁.session.settings.damping s₁.session.radius).value =
      (s₂.session.workspace.computeStep s₂.session.settings.damping s₂.session.radius).value := by
  cases h with
  | retold verbose times => rfl

/-- Searches that are alike go to the same place. -/
theorem destination_eq (h : s₁.Alike s₂) : s₁.destination = s₂.destination := by
  cases h with
  | retold verbose times => rfl

/-- Searches that are alike find the same where a step leads. -/
theorem evaluateAt (h : s₁.Alike s₂) (step : Step α) :
    ∃ answer left₁ left₂, (s₁.evaluateAt step).value = (answer, left₁) ∧
      (s₂.evaluateAt step).value = (answer, left₂) ∧ left₁.Alike left₂ := by
  cases h with
  | @retold verbose history times =>
      simp only [Search.evaluateAt, Search.retold, Session.point, Logged.value_bind]
      rcases (s₁.evaluator.evaluate (s₁.session.workspace.point.state.add step.update)).value with
        ⟨error | evaluation, e⟩
      · exact ⟨_, _, _, rfl, rfl, .retold verbose times⟩
      · simp only [Logged.value_bind]
        cases (Linearization.make s₁.session.workspace.backend s₁.session.nextId
            (s₁.session.workspace.point.state.add step.update) evaluation).value with
        | error error => exact ⟨_, _, _, rfl, rfl, .retold verbose times⟩
        | ok candidate => exact ⟨_, _, _, rfl, rfl, .retold verbose times⟩

/-- Attempts of searches that are alike end alike. -/
theorem attempt (h : s₁.Alike s₂) (clock₁ clock₂ : Clock) (reporting₁ reporting₂ : Bool) :
    ∃ answer left₁ left₂, (s₁.attempt clock₁ reporting₁).value = (answer, left₁) ∧
      (s₂.attempt clock₂ reporting₂).value = (answer, left₂) ∧ left₁.Alike left₂ := by
  have hstepped (w : Workspace α β) : (s₁.settled w).Alike (s₂.settled w) := by
    cases h with
    | retold verbose times => exact .retold verbose times
  rw [value_attempt, value_attempt, ← h.step_eq]
  rcases (s₁.session.workspace.computeStep s₁.session.settings.damping s₁.session.radius).value with
    ⟨error | step, w⟩
  · exact ⟨_, _, _, rfl, rfl, hstepped w⟩
  · dsimp only
    cases (predictedImprovement w.backend w.point step.update).value with
    | error error => exact ⟨_, _, _, rfl, rfl, hstepped w⟩
    | ok predicted =>
        obtain ⟨answer, found₁, found₂, hfound₁, hfound₂, hfound⟩ := (hstepped w).evaluateAt step
        simp only [hfound₁, hfound₂]
        cases answer with
        | error error => exact ⟨_, _, _, rfl, rfl, hfound⟩
        | ok candidate =>
            obtain ⟨reason, left₁, left₂, hjudged₁, hjudged₂, hleft⟩ :=
              hfound.judge clock₁ clock₂ reporting₁ reporting₂ step predicted candidate
            simp only [hjudged₁, hjudged₂]
            exact ⟨_, _, _, rfl, rfl, hleft⟩

/-- Loops of searches that are alike end alike, and ask the callback at the same states. -/
theorem loop (h : s₁.Alike s₂) (clock₁ clock₂ : Clock) (reporting₁ reporting₂ : Bool)
    (remaining : Nat) (reason : Option StopReason) :
    s₁.destinations clock₁ reporting₁ remaining reason =
        s₂.destinations clock₂ reporting₂ remaining reason ∧
      ∃ answer left₁ left₂, (s₁.loop clock₁ reporting₁ remaining reason).value = (answer, left₁) ∧
        (s₂.loop clock₂ reporting₂ remaining reason).value = (answer, left₂) ∧
        left₁.Alike left₂ := by
  induction remaining generalizing s₁ s₂ reason with
  | zero => cases reason <;> exact ⟨rfl, _, _, _, rfl, rfl, h⟩
  | succ remaining ih =>
      cases reason with
      | some given => exact ⟨rfl, _, _, _, rfl, rfl, h⟩
      | none =>
          obtain ⟨answer, left₁, left₂, hattempt₁, hattempt₂, hleft⟩ :=
            h.attempt clock₁ clock₂ reporting₁ reporting₂
          simp only [Search.loop, Search.destinations, Logged.value_bind, hattempt₁, hattempt₂,
            h.destination_eq]
          cases answer with
          | error error => exact ⟨rfl, _, _, _, rfl, rfl, hleft⟩
          | ok reason =>
              obtain ⟨hasked, hended⟩ := ih hleft reason
              exact ⟨congrArg _ hasked, hended⟩

omit [LinearSolver α β] in
theorem evaluator_eq (h : s₁.Alike s₂) : s₁.evaluator = s₂.evaluator := by
  cases h with
  | retold verbose times => rfl

omit [LinearSolver α β] in
/-- The results of searches that are alike differ in times only. -/
theorem outcome_eq (h : s₁.Alike s₂) (clock₁ clock₂ : Clock) (reason : StopReason) :
    (s₁.outcome clock₁ reason).timeless = (s₂.outcome clock₂ reason).timeless := by
  cases h with
  | @retold verbose history times =>
      unfold outcome Outcome.timeless
      simp only [Search.retold, List.map_reverse, times]
      rfl

omit [LinearSolver α β] in
theorem session_eq (h : s₁.Alike s₂) : s₁.session.muted = s₂.session.muted := by
  cases h with
  | retold verbose times => rfl

end Alike

end Search

/-! ### Results that differ in their reports -/

section Result

variable {α β : Type} [Scalar α]

/-- Solves that differ in times and in the wish to report only. They leave the caller with the same
state after equally many evaluations, and fail with the same error or deliver the same result. -/
structure Solved.Alike (reporting₁ reporting₂ : Bool) (solved₁ solved₂ : Solved α β) : Prop where
  state : solved₁.state = solved₂.state
  calls : solved₁.calls = solved₂.calls
  answer :
    (∃ error, solved₁.answer = .error error ∧ solved₂.answer = .error error) ∨
      ∃ outcome₁ outcome₂ session₁ session₂, outcome₁.timeless = outcome₂.timeless ∧
        session₁.muted = session₂.muted ∧
        solved₁.answer = deliver reporting₁ outcome₁ session₁ ∧
        solved₂.answer = deliver reporting₂ outcome₂ session₂

/-- Where one solve has a result, the other delivers the same one up to its times. -/
theorem Solved.Alike.answer_of_ok {reporting₁ reporting₂ : Bool} {solved₁ solved₂ : Solved α β}
    (h : Solved.Alike reporting₁ reporting₂ solved₁ solved₂) {outcome : Outcome α}
    {session : Session α β} (ok : solved₁.answer = .ok (outcome, session)) :
    ∃ outcome' session', outcome'.timeless = outcome.timeless ∧ session'.muted = session.muted ∧
      solved₂.answer = deliver reporting₂ outcome' session' := by
  rcases h.answer with ⟨error, hfailed, -⟩ | ⟨outcome₁, outcome₂, session₁, session₂, htimes, hmuted,
    hdelivered₁, hdelivered₂⟩
  · rw [ok] at hfailed
    cases hfailed
  · obtain ⟨rfl, rfl⟩ := eq_of_deliver (hdelivered₁.symm.trans ok)
    exact ⟨outcome₂, session₂, htimes.symm, hmuted.symm, hdelivered₂⟩

/-- Searches that are alike end alike. -/
theorem Search.Alike.finish {s₁ s₂ : Search α β} (h : s₁.Alike s₂) (clock₁ clock₂ : Clock)
    (reporting₁ reporting₂ : Bool) (reason : StopReason) :
    Solved.Alike reporting₁ reporting₂ (s₁.finish clock₁ reporting₁ reason).value
      (s₂.finish clock₂ reporting₂ reason).value := by
  rw [value_finish, value_finish]
  have hstate : s₁.session.point.state = s₂.session.point.state :=
    congrArg (fun session => session.point.state) h.session_eq
  exact
    { state := hstate
      calls := congrArg Evaluator.calls h.evaluator_eq
      answer := .inr ⟨_, _, _, _, h.outcome_eq clock₁ clock₂ reason, h.session_eq, rfl, rfl⟩ }

end Result

namespace Problem

variable {α : Type} [Scalar α]

/-- The states that the callback of a problem is asked at when it is solved, in order. -/
def asked (settings : Settings α) (clock : Clock) (debugHeard : Bool) (state : Vec α)
    (p : Problem α) : List (Vec α) :=
  match settings.fault?, (p.evaluator state.size).value with
  | none, .ok e =>
      state ::
        match (e.evaluate state).value with
        | (.error _, _) => []
        | (.ok evaluation, e) =>
            match (firstPoint p.backend state evaluation).value with
            | .error _ => []
            | .ok point =>
                (Search.start (Session.start p.backend settings point) e).destinations clock
                  (settings.verbose || debugHeard) settings.maxIterations
                  (settings.converged? point none settings.radius)
  | _, _ => []

/-- What is asked once the settings and the sizes are accepted. -/
theorem asked_of_built {p : Problem α} {settings : Settings α} {state : Vec α} {e : Evaluator α}
    (valid : settings.fault? = none) (built : (p.evaluator state.size).value = .ok e)
    (clock : Clock) (debugHeard : Bool) :
    p.asked settings clock debugHeard state =
      state ::
        match (e.evaluate state).value with
        | (.error _, _) => []
        | (.ok evaluation, e') =>
            match (firstPoint p.backend state evaluation).value with
            | .error _ => []
            | .ok point =>
                (Search.start (Session.start p.backend settings point) e').destinations clock
                  (settings.verbose || debugHeard) settings.maxIterations
                  (settings.converged? point none settings.radius) := by
  unfold asked
  rw [valid, built]

/-- Nothing is asked if the settings or the sizes are refused. -/
theorem asked_of_refused {p : Problem α} {settings : Settings α} {state : Vec α}
    (refused : settings.fault? ≠ none ∨ ∃ error, (p.evaluator state.size).value = .error error)
    (clock : Clock) (debugHeard : Bool) : p.asked settings clock debugHeard state = [] := by
  unfold asked
  split
  · rename_i e hvalid hbuilt
    rcases refused with hfault | ⟨error, hrefused⟩
    · exact absurd hvalid hfault
    · rw [hbuilt] at hrefused
      cases hrefused
  · rfl

/-- The first point is where the search begins. -/
theorem state_of_firstPoint {backend : CholeskySolver α} {state : Vec α} {evaluation : Evaluation α}
    {point : Linearization α} (h : (firstPoint backend state evaluation).value = .ok point) :
    point.state = state := by
  obtain ⟨gradient, -, rfl⟩ := Linearization.of_make (of_firstPoint h).1
  rfl

/-- Once its first point is made, a solve asks once at each destination of its loop. -/
theorem calls_of_first {p : Problem α} {settings : Settings α} {state : Vec α} {e e' : Evaluator α}
    {evaluation : Evaluation α} {point : Linearization α} (valid : settings.fault? = none)
    (built : (p.evaluator state.size).value = .ok e)
    (evaluated : (e.evaluate state).value = (.ok evaluation, e'))
    (first : (firstPoint p.backend state evaluation).value = .ok point) (clock : Clock)
    (debugHeard : Bool) :
    (p.solve settings clock debugHeard state).value.calls =
      e'.calls + ((Search.start (Session.start p.backend settings point) e').destinations clock
        (settings.verbose || debugHeard) settings.maxIterations
        (settings.converged? point none settings.radius)).length := by
  have hstates := e.states_evaluate state
  rw [evaluated, (serves_evaluator built).states_eq] at hstates
  have hsize : (Search.start (Session.start p.backend settings point)
      e').session.point.state.size = e'.states :=
    (congrArg Vec.size (state_of_firstPoint first)).trans hstates.symm
  rw [value_solve valid built, evaluated]
  simp only [first]
  refine Eq.trans ?_ (Search.calls_loop hsize clock (settings.verbose || debugHeard)
    settings.maxIterations (settings.converged? point none settings.radius))
  rcases ((Search.start (Session.start p.backend settings point) e').loop clock
    (settings.verbose || debugHeard) settings.maxIterations
    (settings.converged? point none settings.radius)).value with ⟨error | final, s⟩
  · rfl
  · simp only [Search.value_finish]

/-- The callback is asked as often as the solve says. -/
theorem length_asked (p : Problem α) (settings : Settings α) (clock : Clock) (debugHeard : Bool)
    (state : Vec α) :
    (p.asked settings clock debugHeard state).length =
      (p.solve settings clock debugHeard state).value.calls := by
  cases hvalid : settings.fault? with
  | some fault =>
      have hfault : settings.fault? ≠ none := by
        rw [hvalid]
        nofun
      rw [value_solve_of_settings_fault hvalid, asked_of_refused (.inl hfault)]
      rfl
  | none =>
      rcases p.evaluator_cases state.size with ⟨fault, -, hrefused⟩ | ⟨-, e, hbuilt⟩
      · rw [value_solve_of_input_fault hvalid hrefused, asked_of_refused (.inr ⟨_, hrefused⟩)]
        rfl
      · have hserves := serves_evaluator hbuilt
        have hcalls := Evaluator.calls_evaluate hserves.states_eq.symm
        rw [hserves.calls_eq] at hcalls
        rw [asked_of_built hvalid hbuilt]
        rcases hevaluated : (e.evaluate state).value with ⟨error | evaluation, e'⟩
        · rw [hevaluated] at hcalls
          rw [value_solve hvalid hbuilt, hevaluated]
          exact hcalls.symm
        · rw [hevaluated] at hcalls
          cases hfirst : (firstPoint p.backend state evaluation).value with
          | error error =>
              rw [value_solve hvalid hbuilt, hevaluated]
              simp only [hfirst]
              exact hcalls.symm
          | ok point =>
              rw [calls_of_first hvalid hbuilt hevaluated hfirst]
              simp only [hfirst, List.length_cons]
              exact (Nat.add_comm _ 1).trans (congrArg (· + _) hcalls.symm)

section Reporting

variable (p : Problem α) (settings : Settings α) (verbose₁ verbose₂ heard₁ heard₂ : Bool)
  (clock₁ clock₂ : Clock)

/-- Solves that get as far as their first point ask the same and end alike. -/
theorem alike_of_first {state : Vec α} {e e' : Evaluator α} {evaluation : Evaluation α}
    {point : Linearization α} (valid : settings.fault? = none)
    (built : (p.evaluator state.size).value = .ok e)
    (evaluated : (e.evaluate state).value = (.ok evaluation, e'))
    (first : (firstPoint p.backend state evaluation).value = .ok point) :
    p.asked { settings with verbose := verbose₁ } clock₁ heard₁ state =
        p.asked { settings with verbose := verbose₂ } clock₂ heard₂ state ∧
      Solved.Alike (verbose₁ || heard₁) (verbose₂ || heard₂)
        (p.solve { settings with verbose := verbose₁ } clock₁ heard₁ state).value
        (p.solve { settings with verbose := verbose₂ } clock₂ heard₂ state).value := by
  have hvalid (verbose : Bool) : { settings with verbose }.fault? = none := valid
  have hconverged (verbose : Bool) : { settings with verbose }.converged? point none settings.radius =
      settings.converged? point none settings.radius := rfl
  have hstart : (Search.start (Session.start p.backend
      { settings with verbose := verbose₁ } point) e').Alike
      (Search.start (Session.start p.backend { settings with verbose := verbose₂ } point) e') :=
    .retold verbose₂ rfl
  obtain ⟨hasked, answer, s₁, s₂, hloop₁, hloop₂, hleft⟩ := hstart.loop clock₁ clock₂
    (verbose₁ || heard₁) (verbose₂ || heard₂) settings.maxIterations
    (settings.converged? point none settings.radius)
  rw [asked_of_built (hvalid _) built, asked_of_built (hvalid _) built,
    value_solve (hvalid _) built, value_solve (hvalid _) built, evaluated]
  simp only [first, hconverged, hloop₁, hloop₂]
  refine ⟨congrArg (state :: ·) hasked, ?_⟩
  cases answer with
  | error error =>
      exact ⟨rfl, congrArg Evaluator.calls hleft.evaluator_eq, .inl ⟨_, rfl, rfl⟩⟩
  | ok final => exact hleft.finish clock₁ clock₂ _ _ final

/-- Solves whose settings differ in nothing but the wish to report ask the same and end alike. -/
theorem alike (state : Vec α) :
    p.asked { settings with verbose := verbose₁ } clock₁ heard₁ state =
        p.asked { settings with verbose := verbose₂ } clock₂ heard₂ state ∧
      Solved.Alike (verbose₁ || heard₁) (verbose₂ || heard₂)
        (p.solve { settings with verbose := verbose₁ } clock₁ heard₁ state).value
        (p.solve { settings with verbose := verbose₂ } clock₂ heard₂ state).value := by
  cases hfault : settings.fault? with
  | some fault =>
      have hfault (verbose : Bool) : { settings with verbose }.fault? = some fault := hfault
      have hrefused (verbose : Bool) : { settings with verbose }.fault? ≠ none := by
        rw [hfault]
        nofun
      rw [asked_of_refused (.inl (hrefused _)), asked_of_refused (.inl (hrefused _)),
        value_solve_of_settings_fault (hfault _), value_solve_of_settings_fault (hfault _)]
      exact ⟨rfl, rfl, rfl, .inl ⟨_, rfl, rfl⟩⟩
  | none =>
      have hvalid (verbose : Bool) : { settings with verbose }.fault? = none := hfault
      rcases p.evaluator_cases state.size with ⟨fault, -, hrefused⟩ | ⟨-, e, hbuilt⟩
      · rw [asked_of_refused (.inr ⟨_, hrefused⟩), asked_of_refused (.inr ⟨_, hrefused⟩),
          value_solve_of_input_fault (hvalid _) hrefused,
          value_solve_of_input_fault (hvalid _) hrefused]
        exact ⟨rfl, rfl, rfl, .inl ⟨_, rfl, rfl⟩⟩
      · rcases hevaluated : (e.evaluate state).value with ⟨error | evaluation, e'⟩
        · rw [asked_of_built (hvalid _) hbuilt, asked_of_built (hvalid _) hbuilt,
            value_solve (hvalid _) hbuilt, value_solve (hvalid _) hbuilt, hevaluated]
          exact ⟨rfl, rfl, rfl, .inl ⟨_, rfl, rfl⟩⟩
        · cases hfirst : (firstPoint p.backend state evaluation).value with
          | error error =>
              rw [asked_of_built (hvalid _) hbuilt, asked_of_built (hvalid _) hbuilt,
                value_solve (hvalid _) hbuilt, value_solve (hvalid _) hbuilt, hevaluated]
              simp only [hfirst, true_and]
              exact ⟨rfl, rfl, .inl ⟨_, rfl, rfl⟩⟩
          | ok point =>
              exact p.alike_of_first settings verbose₁ verbose₂ heard₁ heard₂ clock₁ clock₂ hfault
                hbuilt hevaluated hfirst

/-- Two solves whose settings differ in nothing but the wish to report ask the callback at the same
states in the same order, whatever is heard of them and whatever their clocks say. They leave the
caller's state the same, and fail with the same error or deliver the same result up to its times, with
sessions that differ only in the wish to report. The one difference: a solve that reports delivers an
error in the place of its result exactly if the number of its iterations is a positive multiple of
`2 ^ 32`. -/
theorem solve_same_unless_meanTimeUndefined (state : Vec α) :
    p.asked { settings with verbose := verbose₁ } clock₁ heard₁ state =
        p.asked { settings with verbose := verbose₂ } clock₂ heard₂ state ∧
      (p.asked { settings with verbose := verbose₁ } clock₁ heard₁ state).length =
        (p.solve { settings with verbose := verbose₁ } clock₁ heard₁ state).value.calls ∧
      Solved.Alike (verbose₁ || heard₁) (verbose₂ || heard₂)
        (p.solve { settings with verbose := verbose₁ } clock₁ heard₁ state).value
        (p.solve { settings with verbose := verbose₂ } clock₂ heard₂ state).value := by
  obtain ⟨hasked, hsolved⟩ :=
    p.alike settings verbose₁ verbose₂ heard₁ heard₂ clock₁ clock₂ state
  exact ⟨hasked, p.length_asked _ clock₁ heard₁ state, hsolved⟩

end Reporting

/-! ### A search without a mean time -/

/-- The settings of a search from a radius of one that only the number of its attempts ends, and that
may attempt `2 ^ 32` steps. -/
noncomputable def patient : Settings ℝ :=
  { unitRadius with maxIterations := 2 ^ 32 }

/-- A search that comes to a result after `2 ^ 32` attempts is left without one if it reports. -/
theorem solve_patient_breaks_off :
    (∃ outcome session,
      (constantOne.solve { patient with verbose := false } Clock.stopped false
        ⟨#[0]⟩).value.answer = .ok (outcome, session) ∧ outcome.iterations = 2 ^ 32) ∧
      (constantOne.solve { patient with verbose := true } Clock.stopped false
        ⟨#[0]⟩).value.answer = .error (.meanTimeUndefined (2 ^ 32)) := by
  obtain ⟨outcome, session, hquiet, hiterations, -⟩ := exists_solve_constantOne (2 ^ 32) false
  obtain ⟨-, -, halike⟩ := constantOne.solve_same_unless_meanTimeUndefined patient false true
    false false Clock.stopped Clock.stopped ⟨#[0]⟩
  obtain ⟨outcome', session', htimes, -, hdelivered⟩ := halike.answer_of_ok hquiet
  have hcount := congrArg Outcome.iterations htimes
  have hsame : outcome'.iterations = 2 ^ 32 := hcount.trans hiterations
  refine ⟨⟨outcome, session, hquiet, hiterations⟩, ?_⟩
  rw [hdelivered, deliver, hsame]
  exact if_pos ⟨rfl, by decide, dvd_rfl⟩

end Problem

end TrustRegion
