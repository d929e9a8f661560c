/-
Module: TrustRegion.Proofs.Search.Round
Purpose: What one round of the search does, said once. A round that comes to its end computed a
  step, evaluated the problem where the step leads and decided about it; every field of the search
  after the round follows from these, whether the step was taken or not.
Main exports: Search.Round, Search.Lap, Search.Attempts, Search.attempt_iff, Search.Attempts.eq,
  Search.Attempts.lap, Search.After, Search.Attempts.after
-/
import TrustRegion.Search.Attempt
import TrustRegion.Proofs.Step.Outcome

namespace TrustRegion

namespace Search

variable {α β : Type} [Scalar α]

/-- What the stages of one round produced. -/
structure Round (α β : Type) where
  /-- The workspace once the step is computed. -/
  workspace : Workspace α β
  step : Step α
  /-- The improvement that the linear model promises. -/
  predicted : α
  evaluation : Evaluation α
  /-- The problem once it was asked. -/
  evaluator : Evaluator α
  /-- The point of the evaluation. -/
  candidate : Linearization α

namespace Round

/-- The improvement of the cost that the candidate brings. -/
def actual (r : Round α β) : α :=
  r.workspace.point.cost - r.candidate.cost

/-- The quality of the step. -/
def quality (r : Round α β) : α :=
  stepQuality r.actual r.predicted r.candidate.isFinite

/-- Whether the step is taken. -/
def accepted (settings : Settings α) (r : Round α β) : Bool :=
  settings.accepts r.quality r.actual

/-- The point where the round ends: the candidate if the step is taken, else where it began. -/
def endpoint (settings : Settings α) (r : Round α β) : Linearization α :=
  if r.accepted settings then r.candidate else r.workspace.point

theorem endpoint_of_accepted {settings : Settings α} {r : Round α β}
    (h : r.accepted settings = true) : r.endpoint settings = r.candidate := by
  rw [endpoint, if_pos h]

theorem endpoint_of_rejected {settings : Settings α} {r : Round α β}
    (h : r.accepted settings = false) : r.endpoint settings = r.workspace.point := by
  rw [endpoint, h, if_neg Bool.false_ne_true]

/-- The radius when the round ends. -/
def radiusAfter (settings : Settings α) (radius : α) (r : Round α β) : α :=
  if r.accepted settings then
    if settings.grows r.quality r.workspace.point.reachedEdge then radius * settings.growFactor
    else radius
  else radius * settings.shrinkFactor

/-- The search when the candidate is known and nothing is decided. -/
def arrived (r : Round α β) (s : Search α β) : Search α β :=
  { s with
    session := { s.session with workspace := r.workspace, nextId := s.session.nextId + 1 }
    evaluator := r.evaluator
    evaluations := s.evaluations + 1 }

end Round

/-- A round with the search it began from. -/
structure Lap (α β : Type) where
  before : Search α β
  round : Round α β

namespace Lap

/-- Whether the step of the round was taken. -/
def accepted (l : Lap α β) : Bool :=
  l.round.accepted l.before.session.settings

/-- The radius when the round ended. -/
def radius (l : Lap α β) : α :=
  l.round.radiusAfter l.before.session.settings l.before.session.radius

/-- What the round decided about the end of the search. -/
def verdict (l : Lap α β) : Option StopReason :=
  let settings := l.before.session.settings
  if l.accepted then
    settings.converged? l.round.candidate (some l.round.step.update.maxAbs) l.radius
  else settings.radiusConverged l.radius

/-- What was recorded of the round. -/
def record (clock : Clock) (l : Lap α β) : Attempt α :=
  let iteration := l.before.iterations + 1
  { iteration
    cost := (l.round.endpoint l.before.session.settings).cost
    candidateCost := l.round.candidate.cost
    gradientNorm := l.round.workspace.point.gradientMaxAbs
    stepNorm := l.round.step.norm
    kind := l.round.step.kind
    quality := l.round.quality
    radius := l.radius
    lambda := l.round.workspace.damping.lambda
    attemptTime := (clock.attempt iteration).milliseconds
    totalTime := (clock.elapsed iteration).milliseconds
    accepted := l.accepted }

/-- The search once the round is over. -/
def left (clock : Clock) (l : Lap α β) : Search α β :=
  let settings := l.before.session.settings
  { session :=
      { l.before.session with
        workspace := { l.round.workspace with point := l.round.endpoint settings }
        radius := l.radius
        nextId := l.before.session.nextId + 1 }
    evaluator := l.round.evaluator
    initialCost := l.before.initialCost
    evaluations := l.before.evaluations + 1
    iterations := l.before.iterations + 1
    accepted := if l.accepted then l.before.accepted + 1 else l.before.accepted
    rejected := if l.accepted then l.before.rejected else l.before.rejected + 1
    updateNorm := l.round.step.norm
    history := l.record clock :: l.before.history }

end Lap

/-- What a decision leaves is the same whether or not it is reported. -/
theorem value_judge (clock : Clock) (reporting : Bool) (step : Step α) (predicted : α)
    (candidate : Linearization α) (s : Search α β) :
    (s.judge clock reporting step predicted candidate).value =
      (s.judge clock false step predicted candidate).value := by
  simp only [judge]
  split <;> rfl

variable [LinearSolver α β]

/-- A round from `s` that produced `r` and came to its end with `reason` in `s'`. -/
structure Attempts (clock : Clock) (s : Search α β) (r : Round α β) (reason : Option StopReason)
    (s' : Search α β) : Prop where
  computed : (s.session.workspace.computeStep s.session.settings.damping s.session.radius).value =
    (.ok r.step, r.workspace)
  promised : (predictedImprovement r.workspace.backend r.workspace.point r.step.update).value =
    .ok r.predicted
  asked : (s.evaluator.evaluate (r.workspace.point.state.add r.step.update)).value =
    (.ok r.evaluation, r.evaluator)
  made : (Linearization.make r.workspace.backend s.session.nextId
    (r.workspace.point.state.add r.step.update) r.evaluation).value = .ok r.candidate
  judged : ((r.arrived s).judge clock false r.step r.predicted r.candidate).value = (reason, s')

/-- An attempt comes to its end exactly if each of its stages does. -/
theorem attempt_iff {clock : Clock} {reporting : Bool} {s s' : Search α β}
    {reason : Option StopReason} :
    (s.attempt clock reporting).value = (.ok reason, s') ↔
      ∃ r, s.Attempts clock r reason s' := by
  constructor
  · intro h
    unfold attempt at h
    rcases hstep : (s.session.workspace.computeStep s.session.settings.damping
      s.session.radius).value with ⟨answer, w⟩
    simp only [Logged.value_bind, hstep] at h
    cases answer with
    | error e => cases h
    | ok step =>
        cases hpred : (predictedImprovement w.backend w.point step.update).value with
        | error e =>
            simp only [Logged.value_bind, hpred] at h
            cases h
        | ok predicted =>
            rcases hask : (s.evaluator.evaluate (w.point.state.add step.update)).value with
              ⟨answer, evaluator⟩
            simp only [Logged.value_bind, hpred, evaluateAt, Session.point, hask] at h
            cases answer with
            | error e => cases h
            | ok evaluation =>
                cases hmake : (Linearization.make w.backend s.session.nextId
                  (w.point.state.add step.update) evaluation).value with
                | error e =>
                    simp only [Logged.value_bind, hmake] at h
                    cases h
                | ok candidate =>
                    simp only [Logged.value_bind, hmake, Logged.value_pure] at h
                    refine ⟨⟨w, step, predicted, evaluation, evaluator, candidate⟩,
                      hstep, hpred, hask, hmake, ?_⟩
                    rw [value_judge] at h
                    cases h
                    rfl
  · rintro ⟨r, h⟩
    simp only [attempt, evaluateAt, Session.point, Logged.value_bind, h.computed, h.promised,
      h.asked, h.made, Logged.value_pure]
    rw [value_judge]
    exact congrArg (fun p => (Except.ok p.1, p.2)) h.judged

/-- An attempt fails with its step, before the callback is asked. -/
theorem attempt_of_step_error {s : Search α β} {w : Workspace α β} {error : LinearError α}
    (failed : (s.session.workspace.computeStep s.session.settings.damping s.session.radius).value =
      (.error error, w)) (clock : Clock) (reporting : Bool) :
    ∃ s', (s.attempt clock reporting).value = (.error (.search (.linear error)), s') ∧
      s'.evaluator = s.evaluator := by
  unfold attempt
  simp only [Logged.value_bind, failed]
  exact ⟨_, rfl, rfl⟩

/-- An attempt fails with the evaluation where its step leads. -/
theorem attempt_of_evaluation_error {s : Search α β} {w : Workspace α β} {step : Step α}
    {predicted : α} {error : ProblemError α} {evaluator : Evaluator α}
    (computed : (s.session.workspace.computeStep s.session.settings.damping
      s.session.radius).value = (.ok step, w))
    (promised : (predictedImprovement w.backend w.point step.update).value = .ok predicted)
    (failed : (s.evaluator.evaluate (w.point.state.add step.update)).value =
      (.error error, evaluator)) (clock : Clock) (reporting : Bool) :
    ∃ s', (s.attempt clock reporting).value = (.error (.problem error), s') ∧
      s'.evaluator = evaluator := by
  unfold attempt
  simp only [Logged.value_bind, computed, promised, evaluateAt, Session.point, failed]
  exact ⟨_, rfl, rfl⟩

/-- An attempt has one outcome. -/
theorem Attempts.eq {clock : Clock} {s s₁ s₂ : Search α β} {r₁ r₂ : Round α β}
    {reason₁ reason₂ : Option StopReason} (h₁ : s.Attempts clock r₁ reason₁ s₁)
    (h₂ : s.Attempts clock r₂ reason₂ s₂) : r₁ = r₂ ∧ reason₁ = reason₂ ∧ s₁ = s₂ := by
  obtain ⟨hcomputed, hpromised, hasked, hmade, hjudged⟩ := h₁
  obtain ⟨w, step, predicted, evaluation, evaluator, candidate⟩ := r₁
  simp only at hcomputed hpromised hasked hmade
  have hcomputed₂ := h₂.computed.symm.trans hcomputed
  obtain ⟨w₂, step₂, predicted₂, evaluation₂, evaluator₂, candidate₂⟩ := r₂
  cases hcomputed₂
  cases h₂.promised.symm.trans hpromised
  cases h₂.asked.symm.trans hasked
  cases h₂.made.symm.trans hmade
  cases h₂.judged.symm.trans hjudged
  exact ⟨rfl, rfl, rfl⟩

/-- A round decides and leaves what its lap says. -/
theorem Attempts.lap {clock : Clock} {s s' : Search α β} {r : Round α β}
    {reason : Option StopReason} (h : s.Attempts clock r reason s') :
    reason = Lap.verdict ⟨s, r⟩ ∧ s' = Lap.left clock ⟨s, r⟩ := by
  have hdecision : (r.arrived s).session.settings.accepts
      (stepQuality ((r.arrived s).session.point.cost - r.candidate.cost) r.predicted
        r.candidate.isFinite) ((r.arrived s).session.point.cost - r.candidate.cost) =
      r.accepted s.session.settings := rfl
  have hjudged := h.judged
  simp only [judge, hdecision] at hjudged
  unfold Lap.verdict Lap.left Lap.record Lap.accepted Lap.radius
  cases hacc : r.accepted s.session.settings with
  | true =>
      simp only [hacc, if_true] at hjudged
      cases hjudged
      simp only [Round.endpoint, Round.radiusAfter, hacc, if_true]
      exact ⟨rfl, rfl⟩
  | false =>
      simp only [hacc, Bool.false_eq_true, if_false] at hjudged
      cases hjudged
      simp only [Round.endpoint, Round.radiusAfter, hacc, Bool.false_eq_true, if_false]
      exact ⟨rfl, rfl⟩

/-- What a search is after a round, field by field. -/
structure After (s : Search α β) (r : Round α β) (s' : Search α β) : Prop where
  workspace : s'.session.workspace =
    { r.workspace with point := r.endpoint s.session.settings }
  settings : s'.session.settings = s.session.settings
  radius : s'.session.radius = r.radiusAfter s.session.settings s.session.radius
  states : s'.session.states = s.session.states
  nextId : s'.session.nextId = s.session.nextId + 1
  evaluator : s'.evaluator = r.evaluator
  initialCost : s'.initialCost = s.initialCost
  iterations : s'.iterations = s.iterations + 1
  /-- The record of the round comes first, and nothing recorded before it changes. -/
  history : ∃ a : Attempt α, s'.history = a :: s.history ∧
    a.iteration = s.iterations + 1 ∧ a.accepted = r.accepted s.session.settings ∧
    a.candidateCost = r.candidate.cost ∧ a.cost = (r.endpoint s.session.settings).cost

omit [LinearSolver α β] in
theorem After.point {s s' : Search α β} {r : Round α β} (h : s.After r s') :
    s'.session.point = r.endpoint s.session.settings := by
  rw [Session.point, h.workspace]

/-- A round leaves the search as its parts say. -/
theorem Attempts.after {clock : Clock} {s s' : Search α β} {r : Round α β}
    {reason : Option StopReason} (h : s.Attempts clock r reason s') : s.After r s' := by
  obtain ⟨-, rfl⟩ := h.lap
  exact
    { workspace := rfl, settings := rfl, radius := rfl, states := rfl, nextId := rfl
      evaluator := rfl, initialCost := rfl, iterations := rfl
      history := ⟨_, rfl, rfl, rfl, rfl, rfl⟩ }

end Search

end TrustRegion
