/-
Module: TrustRegion.Proofs.Search.Lockstep
Purpose: Two problems that answer alike, whatever the storage of their Jacobians, are searched in
  lockstep when nothing rounds. The searches take the same steps and the same decisions, so they come
  to the same result or fail with the same error, and only the times that they report may differ.
Main exports: Problem.Agree, Linearization.Agree, Workspace.Agree.computeStep, Search.Agree,
  Search.Agree.after, Search.Agree.attempt, Search.Agree.loop, Problem.Agree.solve
-/
import TrustRegion.Proofs.Search.Sound
import TrustRegion.Proofs.Search.Trace

namespace TrustRegion

/-! ### Problems that answer alike -/

/-- Evaluations with the same residuals and the same derivatives, however these are stored. -/
structure Evaluation.Agree (m n : ℕ) (e₁ e₂ : Evaluation ℝ) : Prop where
  residuals : e₁.residuals = e₂.residuals
  slopes : ∀ r i, r < m → i < n → e₁.jacobian.slope r i = e₂.jacobian.slope r i

/-- Problems of the same size that answer alike whenever they are asked: with the same error or with
agreeing evaluations. -/
structure Problem.Agree (n : ℕ) (p₁ p₂ : Problem ℝ) : Prop where
  measurements : p₁.measurements = p₂.measurements
  answers : ∀ (calls : ℕ) (state : Vec ℝ), state.size = n →
    (∃ error, p₁.failure? n calls state = some error ∧ p₂.failure? n calls state = some error) ∨
      ∃ e₁ e₂, p₁.report n calls state = some e₁ ∧ p₂.report n calls state = some e₂ ∧
        e₁.Agree p₁.measurements n e₂

/-! ### Points that agree -/

/-- Points that are the same but for the storage of their Jacobians. -/
structure Linearization.Agree (m n : ℕ) (q₁ q₂ : Linearization ℝ) : Prop where
  id : q₁.id = q₂.id
  state : q₁.state = q₂.state
  residuals : q₁.residuals = q₂.residuals
  cost : q₁.cost = q₂.cost
  slopes : ∀ r i, r < m → i < n → q₁.jacobian.slope r i = q₂.jacobian.slope r i
  gradient : q₁.gradient = q₂.gradient
  cauchy : q₁.cauchy = q₂.cauchy
  gaussNewton : q₁.gaussNewton = q₂.gaussNewton
  reachedEdge : q₁.reachedEdge = q₂.reachedEdge

namespace Linearization.Agree

variable {m n : ℕ} {q₁ q₂ : Linearization ℝ}

/-- Points that agree have one linear model. -/
theorem model_eq (h : q₁.Agree m n q₂) (fits₁ : q₁.Fits m n) (fits₂ : q₂.Fits m n) :
    fits₁.model = fits₂.model := by
  have hmap : q₁.jacobian.linear m n = q₂.jacobian.linear m n := linearOf_congr h.slopes
  unfold Fits.model
  simp only [hmap, h.residuals, h.gradient]

theorem cauchyEnd (h : q₁.Agree m n q₂) {fits₁ : q₁.Fits m n} {fits₂ : q₂.Fits m n} {v : Vec ℝ}
    (hv : fits₁.CauchyEnd v) : fits₂.CauchyEnd v := by
  constructor
  · exact hv.size
  · rw [hv.point, h.model_eq fits₁ fits₂]

theorem gram_eq (h : q₁.Agree m n q₂) (fits₁ : q₁.Fits m n) (fits₂ : q₂.Fits m n) (lambda : ℝ)
    {i k : ℕ} (hi : i < n) (hk : k < n) :
    q₁.jacobian.gram lambda i k = q₂.jacobian.gram lambda i k := by
  unfold Jacobian.gram
  rw [fits₁.rows, fits₂.rows]
  apply congrArg (· + _)
  apply Finset.sum_congr rfl
  intro r hr
  have hr := Finset.mem_range.mp hr
  rw [h.slopes r i hr hi, h.slopes r k hr hk]

/-- A damping makes both of the normal matrices positive definite or none. -/
theorem definite_eq (h : q₁.Agree m n q₂) (fits₁ : q₁.Fits m n) (fits₂ : q₂.Fits m n) :
    q₁.jacobian.Definite = q₂.jacobian.Definite := by
  funext lambda
  unfold Jacobian.Definite
  rw [fits₁.cols, fits₂.cols]
  exact propext (positiveDefinite_congr fun i k hi hk => h.gram_eq fits₁ fits₂ lambda hi hk)

theorem newton (h : q₁.Agree m n q₂) (fits₁ : q₁.Fits m n) (fits₂ : q₂.Fits m n) {lambda : ℝ}
    {v : Vec ℝ} (hv : q₁.Newton lambda v) : q₂.Newton lambda v := by
  constructor
  · rw [← h.definite_eq fits₁ fits₂]
    exact hv.definite
  · rw [hv.size, fits₁.cols, fits₂.cols]
  · intro i hi
    have hsolves := hv.solves i (by rwa [fits₁.cols, ← fits₂.cols])
    rw [fits₁.cols, h.gradient] at hsolves
    rw [fits₂.cols] at hi ⊢
    rw [← hsolves]
    apply Finset.sum_congr rfl
    intro k hk
    rw [h.gram_eq fits₁ fits₂ lambda hi (Finset.mem_range.mp hk)]

/-- Points made from agreeing evaluations agree. -/
theorem of_make {p₁ p₂ : Problem ℝ} (problems : p₁.measurements = p₂.measurements)
    {s₁ s₂ : CholeskySolver ℝ} {calls id : ℕ} {state : Vec ℝ} {e₁ e₂ : Evaluation ℝ}
    (size : state.size = n) (reported₁ : p₁.report n calls state = some e₁)
    (reported₂ : p₂.report n calls state = some e₂) (agree : e₁.Agree p₁.measurements n e₂)
    (made₁ : (make s₁ id state e₁).value = .ok q₁) (made₂ : (make s₂ id state e₂).value = .ok q₂) :
    q₁.Agree p₁.measurements n q₂ := by
  have hfits₁ := (fits_of_make made₁ reported₁ size).1
  have hfits₂ := (fits_of_make made₂ reported₂ size).1
  rw [← problems] at hfits₂
  obtain ⟨gradient₁, -, rfl⟩ := Linearization.of_make made₁
  obtain ⟨gradient₂, -, rfl⟩ := Linearization.of_make made₂
  have hgradient : gradient₁ = gradient₂ := by
    apply Vec.ext_entry (hfits₁.size_gradient.trans hfits₂.size_gradient.symm)
    intro i hi
    rw [hfits₁.size_gradient] at hi
    have h₁ : gradient₁ = StoredMatrix.transposeMulVec e₁.jacobian.stored e₁.residuals :=
      hfits₁.gradient
    have h₂ : gradient₂ = StoredMatrix.transposeMulVec e₂.jacobian.stored e₂.residuals :=
      hfits₂.gradient
    have hrows₁ : e₁.jacobian.stored.rows = p₁.measurements := hfits₁.rows
    have hrows₂ : e₂.jacobian.stored.rows = p₁.measurements := hfits₂.rows
    have hcols₁ : e₁.jacobian.stored.cols = n := hfits₁.cols
    have hcols₂ : e₂.jacobian.stored.cols = n := hfits₂.cols
    rw [h₁, h₂, Jacobian.entry_transposeMulVec _ _ (hcols₁ ▸ hi),
      Jacobian.entry_transposeMulVec _ _ (hcols₂ ▸ hi), hrows₁, hrows₂, agree.residuals]
    apply Finset.sum_congr rfl
    intro r hr
    rw [agree.slopes r i (Finset.mem_range.mp hr) hi]
  exact
    { id := rfl, state := rfl, residuals := agree.residuals
      cost := congrArg Vec.normSq agree.residuals
      slopes := agree.slopes, gradient := hgradient, cauchy := rfl, gaussNewton := rfl
      reachedEdge := rfl }

end Linearization.Agree

/-! ### Steps in lockstep -/

namespace Workspace

/-- Workspaces that are the same but for the storage of the Jacobian and the factorization. -/
structure Agree (m n : ℕ) (w₁ w₂ : Workspace ℝ (CholeskySolver ℝ)) : Prop where
  point : w₁.point.Agree m n w₂.point
  damping : w₁.damping = w₂.damping
  key : w₁.backend.key = w₂.backend.key

variable {m n : ℕ} {w₁ w₂ : Workspace ℝ (CholeskySolver ℝ)} {schedule : DampingSchedule ℝ}

theorem Agree.stepped (h : w₁.Agree m n w₂) (c : Leg ℝ) (g : Option (Leg ℝ)) (step : Step ℝ) :
    (w₁.stepped c g step).Agree m n (w₂.stepped c g step) :=
  { h.point with cauchy := rfl, gaussNewton := rfl, reachedEdge := rfl }

/-- From workspaces that agree, the same step is computed and leaves workspaces that agree, or both
computations end with the damping exhausted at the same number. -/
theorem Agree.computeStep (h : w₁.Agree m n w₂) (sound₁ : w₁.Sound m n) (sound₂ : w₂.Sound m n)
    (usable : schedule.Usable) (radius : ℝ) :
    (∃ step w₁' w₂', w₁.StepsTo schedule radius step w₁' ∧ w₂.StepsTo schedule radius step w₂' ∧
        w₁'.Agree m n w₂') ∨
      ∃ lambda w₁' w₂',
        (w₁.computeStep schedule radius).value =
          (.error (.dampingExhausted schedule.maxAttempts lambda), w₁') ∧
        (w₂.computeStep schedule radius).value =
          (.error (.dampingExhausted schedule.maxAttempts lambda), w₂') := by
  obtain ⟨v, hend₁, hleg₁⟩ := sound₁.exists_cauchyLeg
  obtain ⟨v', hend₂, hleg₂⟩ := sound₂.exists_cauchyLeg
  obtain rfl := (h.point.cauchyEnd hend₁).eq hend₂
  have first₁ : w₁.CauchyLeg (Leg.ofVec v) := (hleg₁ _).mpr rfl
  have first₂ : w₂.CauchyLeg (Leg.ofVec v) := (hleg₂ _).mpr rfl
  have hsame := h.point.gaussNewton
  cases hg : w₁.point.gaussNewton with
  | some g =>
      rw [hg] at hsame
      exact .inl ⟨_, _, _, .reused first₁ hg, .reused first₂ hsame.symm, h.stepped _ _ _, h.damping,
        h.key⟩
  | none =>
      rw [hg] at hsame
      by_cases hreaches : radius * radius ≤ (Leg.ofVec v).normSq
      · exact .inl ⟨_, _, _, .clipped first₁ hg hreaches, .clipped first₂ hsame.symm hreaches,
          h.stepped _ _ _, h.damping, h.key⟩
      · obtain ⟨s₁, -, hvalue₁⟩ := gaussNewtonVector_exact usable sound₁.suits rfl sound₁.fits.cols
          sound₁.fits.size_gradient sound₁.nonneg fun mu hmu => (sound₁.held mu hmu).2
        obtain ⟨s₂, -, hvalue₂⟩ := gaussNewtonVector_exact usable sound₂.suits rfl sound₂.fits.cols
          sound₂.fits.size_gradient sound₂.nonneg fun mu hmu => (sound₂.held mu hmu).2
        -- both requests end as the schedule and the one normal matrix say
        have hserve : schedule.serve w₂.point.jacobian.Definite w₂.backend.key w₂.point.id
            w₂.damping = schedule.serve w₁.point.jacobian.Definite w₁.backend.key w₁.point.id
              w₁.damping := by
          rw [h.point.definite_eq sound₁.fits sound₂.fits, h.key, h.point.id, h.damping]
        rw [hserve] at hvalue₂
        rcases hvalue₁ with ⟨g₁, d, hserved, hnewton₁, hkey₁, hvalue₁⟩ | ⟨e, d, hserved, hvalue₁⟩
        · rcases hvalue₂ with ⟨g₂, d₂, hserved₂, hnewton₂, hkey₂, hvalue₂⟩ | ⟨e, d₂, hserved₂, -⟩
          · cases hserved.symm.trans hserved₂
            obtain rfl := (h.point.newton sound₁.fits sound₂.fits hnewton₁).eq hnewton₂
            refine .inl ⟨_, _, _, .factored first₁ hg hreaches hvalue₁,
              .factored first₂ hsame.symm hreaches hvalue₂, h.stepped _ _ _, rfl, ?_⟩
            rw [hkey₁, hkey₂, h.point.id]
          · cases hserved.symm.trans hserved₂
        · rcases hvalue₂ with ⟨g₂, d₂, hserved₂, -⟩ | ⟨e₂, d₂, hserved₂, hvalue₂⟩
          · cases hserved.symm.trans hserved₂
          · cases hserved.symm.trans hserved₂
            obtain ⟨lambda, rfl⟩ := DampingSchedule.serve_eq_error hserved
            exact .inr ⟨lambda, _, _, computeStep_of_error first₁ hg hreaches hvalue₁,
              computeStep_of_error first₂ hsame.symm hreaches hvalue₂⟩

end Workspace

/-! ### Decisions in lockstep -/

/-- A record of an attempt without its times. -/
def Attempt.timeless {α : Type} [Scalar α] (a : Attempt α) : Attempt α :=
  { a with attemptTime := 0, totalTime := 0 }

/-- A result without its times. -/
def Outcome.timeless {α : Type} [Scalar α] (o : Outcome α) : Outcome α :=
  { o with elapsed := ⟨0⟩, history := o.history.map Attempt.timeless }

/-- Of a point, a decision looks at the gradient only. -/
theorem Settings.converged?_congr {α : Type} [Scalar α] {q₁ q₂ : Linearization α}
    (gradient : q₁.gradient = q₂.gradient) (settings : Settings α) (update : Option α) (radius : α) :
    settings.converged? q₁ update radius = settings.converged? q₂ update radius := by
  unfold converged? Linearization.gradientMaxAbs
  rw [gradient]

namespace Search

/-- Rounds that are the same but for what the storage of the Jacobian makes different. -/
structure Round.Agree (m n : ℕ) (r₁ r₂ : Round ℝ (CholeskySolver ℝ)) : Prop where
  workspace : r₁.workspace.Agree m n r₂.workspace
  step : r₁.step = r₂.step
  predicted : r₁.predicted = r₂.predicted
  candidate : r₁.candidate.Agree m n r₂.candidate

namespace Round.Agree

variable {m n : ℕ} {r₁ r₂ : Round ℝ (CholeskySolver ℝ)}

theorem quality_eq (h : r₁.Agree m n r₂) : r₁.quality = r₂.quality := by
  unfold quality actual Linearization.isFinite Linearization.gradientMaxAbs
  rw [h.workspace.point.cost, h.candidate.cost, h.candidate.gradient, h.predicted]

theorem accepted_eq (h : r₁.Agree m n r₂) (settings : Settings ℝ) :
    r₁.accepted settings = r₂.accepted settings := by
  unfold accepted
  rw [h.quality_eq, actual, actual, h.workspace.point.cost, h.candidate.cost]

theorem endpoint (h : r₁.Agree m n r₂) (settings : Settings ℝ) :
    (r₁.endpoint settings).Agree m n (r₂.endpoint settings) := by
  unfold Round.endpoint
  rw [h.accepted_eq]
  split
  · exact h.candidate
  · exact h.workspace.point

theorem radiusAfter_eq (h : r₁.Agree m n r₂) (settings : Settings ℝ) (radius : ℝ) :
    r₁.radiusAfter settings radius = r₂.radiusAfter settings radius := by
  unfold radiusAfter
  rw [h.accepted_eq, h.quality_eq, h.workspace.point.reachedEdge]

end Round.Agree

/-- Searches that are the same but for the storage of the Jacobians and the times. -/
structure Agree (m n : ℕ) (s₁ s₂ : Search ℝ (CholeskySolver ℝ)) : Prop where
  workspace : s₁.session.workspace.Agree m n s₂.session.workspace
  settings : s₁.session.settings = s₂.session.settings
  radius : s₁.session.radius = s₂.session.radius
  nextId : s₁.session.nextId = s₂.session.nextId
  initialCost : s₁.initialCost = s₂.initialCost
  evaluations : s₁.evaluations = s₂.evaluations
  iterations : s₁.iterations = s₂.iterations
  accepted : s₁.accepted = s₂.accepted
  rejected : s₁.rejected = s₂.rejected
  updateNorm : s₁.updateNorm = s₂.updateNorm
  history : s₁.history.map Attempt.timeless = s₂.history.map Attempt.timeless

namespace Agree

variable {m n : ℕ} {clock₁ clock₂ : Clock} {s₁ s₂ s₁' s₂' : Search ℝ (CholeskySolver ℝ)}
  {r₁ r₂ : Round ℝ (CholeskySolver ℝ)} {reason₁ reason₂ : Option StopReason}

/-- The records of agreeing rounds differ in the times only. -/
theorem record_eq (h : s₁.Agree m n s₂) (rounds : r₁.Agree m n r₂) :
    (Lap.record clock₁ ⟨s₁, r₁⟩).timeless = (Lap.record clock₂ ⟨s₂, r₂⟩).timeless := by
  unfold Lap.record Attempt.timeless Lap.radius Lap.accepted
  simp only [h.settings, h.iterations, h.radius, rounds.accepted_eq, rounds.quality_eq,
    rounds.radiusAfter_eq, rounds.step, rounds.candidate.cost, rounds.workspace.damping,
    (rounds.endpoint _).cost, Linearization.gradientMaxAbs, rounds.workspace.point.gradient]

/-- Agreeing rounds decide the same. -/
theorem verdict_eq (h : s₁.Agree m n s₂) (rounds : r₁.Agree m n r₂) :
    Lap.verdict ⟨s₁, r₁⟩ = Lap.verdict ⟨s₂, r₂⟩ := by
  unfold Lap.verdict Lap.accepted Lap.radius
  simp only [h.settings, h.radius, rounds.accepted_eq, rounds.radiusAfter_eq, rounds.step,
    Settings.converged?_congr rounds.candidate.gradient]

/-- After agreeing rounds, agreeing searches agree again. -/
theorem after (h : s₁.Agree m n s₂) (rounds : r₁.Agree m n r₂)
    (attempted₁ : s₁.Attempts clock₁ r₁ reason₁ s₁')
    (attempted₂ : s₂.Attempts clock₂ r₂ reason₂ s₂') :
    reason₁ = reason₂ ∧ s₁'.Agree m n s₂' := by
  obtain ⟨rfl, rfl⟩ := attempted₁.lap
  obtain ⟨rfl, rfl⟩ := attempted₂.lap
  have haccepted : Lap.accepted ⟨s₁, r₁⟩ = Lap.accepted ⟨s₂, r₂⟩ := by
    rw [Lap.accepted, Lap.accepted, h.settings, rounds.accepted_eq]
  refine ⟨h.verdict_eq rounds, ?_⟩
  unfold Lap.left
  exact
    { workspace := by
        rw [h.settings]
        exact ⟨rounds.endpoint _, rounds.workspace.damping, rounds.workspace.key⟩
      settings := h.settings
      radius := by
        rw [Lap.radius, Lap.radius, h.settings, h.radius, rounds.radiusAfter_eq]
      nextId := congrArg (· + 1) h.nextId
      initialCost := h.initialCost
      evaluations := congrArg (· + 1) h.evaluations
      iterations := congrArg (· + 1) h.iterations
      accepted := by rw [haccepted, h.accepted]
      rejected := by rw [haccepted, h.rejected]
      updateNorm := congrArg Step.norm rounds.step
      history := by rw [List.map_cons, List.map_cons, h.record_eq rounds, h.history] }

/-- The results of agreeing searches differ in the times only. -/
theorem outcome_eq (h : s₁.Agree m n s₂) (reason : StopReason) :
    (s₁.outcome clock₁ reason).timeless = (s₂.outcome clock₂ reason).timeless := by
  have hpoint : s₁.session.point.Agree m n s₂.session.point := h.workspace.point
  have hdamping : s₁.session.workspace.damping = s₂.session.workspace.damping := h.workspace.damping
  unfold outcome Outcome.timeless Session.lambda Session.factorizations Linearization.gradientMaxAbs
  simp only [hpoint.state, hpoint.cost, hpoint.gradient, hdamping, h.initialCost, h.iterations,
    h.accepted, h.rejected, h.radius, h.updateNorm, h.evaluations, List.map_reverse, h.history]

end Agree

end Search

/-! ### Runs in lockstep -/

/-- What a search with usable settings and sizes can fail with where nothing rounds, once the callback
has been asked a number of times: a singular matrix if the damping may not be raised, or the error that
the callback gave when it was asked last. -/
inductive Problem.Failure (p : Problem ℝ) (settings : Settings ℝ) (n : ℕ) :
    ℕ → SolveError ℝ → Prop where
  | damping (calls : ℕ) (lambda : ℝ) (exhausted : settings.damping.maxAttempts = 0) :
      Failure p settings n calls
        (.search (.linear (.dampingExhausted settings.damping.maxAttempts lambda)))
  | callback {calls : ℕ} {state : Vec ℝ} {error : ProblemError ℝ} (size : state.size = n)
      (failed : p.failure? n calls state = some error) :
      Failure p settings n (calls + 1) (.problem error)

section Lockstep

variable {p₁ p₂ : Problem ℝ} {settings : Settings ℝ} {clock₁ clock₂ : Clock} {state : Vec ℝ}
  {points₁ points₂ : List (Linearization ℝ)} {s₁ s₂ : Search ℝ (CholeskySolver ℝ)}
  {reason : Option StopReason}

/-- In agreeing runs the callbacks have been asked equally often. -/
theorem Search.Agree.length_eq (h : s₁.Agree p₁.measurements state.size s₂)
    (run₁ : p₁.Run settings clock₁ state points₁ reason s₁)
    (run₂ : p₂.Run settings clock₂ state points₂ reason s₂) : points₁.length = points₂.length := by
  rw [run₁.length_eq, run₂.length_eq, h.iterations]

/-- Where the same step is computed in agreeing runs and leads to agreeing evaluations, attempts come
to their ends with one decision and leave agreeing searches. -/
theorem Search.Agree.exists_attempts (h : s₁.Agree p₁.measurements state.size s₂)
    (problems : Problem.Agree state.size p₁ p₂)
    (run₁ : p₁.Run settings clock₁ state points₁ none s₁)
    (run₂ : p₂.Run settings clock₂ state points₂ none s₂) {step : Step ℝ}
    {w₁ w₂ : Workspace ℝ (CholeskySolver ℝ)} {e₁ e₂ : Evaluation ℝ}
    (step₁ : s₁.session.workspace.StepsTo settings.damping s₁.session.radius step w₁)
    (step₂ : s₂.session.workspace.StepsTo settings.damping s₁.session.radius step w₂)
    (workspaces : w₁.Agree p₁.measurements state.size w₂)
    (reported₁ : p₁.report state.size points₁.length (w₁.point.state.add step.update) = some e₁)
    (reported₂ : p₂.report state.size points₁.length (w₁.point.state.add step.update) = some e₂)
    (evaluations : e₁.Agree p₁.measurements state.size e₂) :
    ∃ r₁ r₂ reason s₁' s₂', s₁.Attempts clock₁ r₁ reason s₁' ∧ s₂.Attempts clock₂ r₂ reason s₂' ∧
      s₁'.Agree p₁.measurements state.size s₂' := by
  have husable := run₁.usable.damping
  have hsound₂ : s₂.session.workspace.Sound p₁.measurements state.size :=
    problems.measurements ▸ run₂.sound
  obtain ⟨hfits₁, hpredicted₁⟩ := run₁.sound.predicts husable step₁
  obtain ⟨-, hpredicted₂⟩ := hsound₂.predicts husable step₂
  rw [← h.workspace.point.model_eq run₁.sound.fits hsound₂.fits] at hpredicted₂
  have hplace : w₂.point.state = w₁.point.state := workspaces.point.state.symm
  have hsize : (w₁.point.state.add step.update).size = state.size :=
    (Vec.size_add _ _).trans hfits₁.state
  -- each run states its step and its report by its own settings, place and number of calls
  obtain ⟨-, hstate₁, -⟩ := Linearization.parts_of_bare_eq step₁.bare_eq
  obtain ⟨-, hstate₂, -⟩ := Linearization.parts_of_bare_eq step₂.bare_eq
  have hreported₁ := reported₁
  have hreported₂ := reported₂
  rw [hstate₁] at hreported₁
  rw [← hplace, hstate₂, h.length_eq run₁ run₂] at hreported₂
  have husable₁ : s₁.session.settings.damping.Usable := run₁.settings_eq.symm ▸ husable
  have husable₂ : s₂.session.settings.damping.Usable := run₂.settings_eq.symm ▸ husable
  rw [← run₁.settings_eq] at step₁
  rw [← run₂.settings_eq, h.radius] at step₂
  obtain ⟨r₁, reason₁, s₁', hattempt₁, rfl, rfl, rfl⟩ :=
    Search.exists_attempts run₁.sound run₁.fits.2 run₁.serves husable₁ clock₁ step₁ hreported₁
  obtain ⟨r₂, reason₂, s₂', hattempt₂, hstep, rfl, rfl⟩ :=
    Search.exists_attempts run₂.sound run₂.fits.2 run₂.serves husable₂ clock₂ step₂ hreported₂
  have hpromised₂ := hattempt₂.promised
  rw [hstep, hpredicted₂] at hpromised₂
  have hmade₂ := hattempt₂.made
  rw [hstep, hplace, ← h.nextId] at hmade₂
  have hrounds : r₁.Agree p₁.measurements state.size r₂ :=
    { workspace := workspaces
      step := hstep.symm
      predicted := Except.ok.inj ((hattempt₁.promised.symm.trans hpredicted₁).trans hpromised₂)
      candidate := .of_make problems.measurements hsize reported₁ reported₂ evaluations
        hattempt₁.made hmade₂ }
  obtain ⟨rfl, hafter⟩ := h.after hrounds hattempt₁ hattempt₂
  exact ⟨r₁, r₂, _, s₁', s₂', hattempt₁, hattempt₂, hafter⟩

/-- From agreeing runs, an attempt ends alike in both: with agreeing searches and one decision, or
with one error after equally many calls. -/
theorem Search.Agree.attempt (h : s₁.Agree p₁.measurements state.size s₂)
    (problems : Problem.Agree state.size p₁ p₂)
    (run₁ : p₁.Run settings clock₁ state points₁ none s₁)
    (run₂ : p₂.Run settings clock₂ state points₂ none s₂) (reporting : Bool) :
    (∃ r₁ r₂ reason s₁' s₂', s₁.Attempts clock₁ r₁ reason s₁' ∧ s₂.Attempts clock₂ r₂ reason s₂' ∧
        s₁'.Agree p₁.measurements state.size s₂') ∨
      ∃ error s₁' s₂', p₁.Failure settings state.size s₁'.evaluator.calls error ∧
        (s₁.attempt clock₁ reporting).value = (.error error, s₁') ∧
        (s₂.attempt clock₂ reporting).value = (.error error, s₂') ∧
        s₁'.evaluator.calls = s₂'.evaluator.calls := by
  have hlength := h.length_eq run₁ run₂
  have husable := run₁.usable.damping
  have hsound₂ : s₂.session.workspace.Sound p₁.measurements state.size :=
    problems.measurements ▸ run₂.sound
  rcases h.workspace.computeStep run₁.sound hsound₂ husable s₁.session.radius with
    ⟨step, w₁, w₂, hstep₁, hstep₂, hagree⟩ | ⟨lambda, w₁, w₂, hfailed₁, hfailed₂⟩
  · obtain ⟨hfits₁, hpredicted₁⟩ := run₁.sound.predicts husable hstep₁
    obtain ⟨-, hpredicted₂⟩ := hsound₂.predicts husable hstep₂
    have hsize : (w₁.point.state.add step.update).size = state.size :=
      (Vec.size_add _ _).trans hfits₁.state
    rcases problems.answers points₁.length _ hsize with
      ⟨error, hfailed₁, hfailed₂⟩ | ⟨e₁, e₂, hreported₁, hreported₂, hevaluations⟩
    · have hserves₂ := run₂.serves
      rw [← hlength] at hserves₂
      obtain ⟨e₁, hasked₁, hcalls₁⟩ := run₁.serves.evaluate_of_failure hsize hfailed₁
      obtain ⟨e₂, hasked₂, hcalls₂⟩ := hserves₂.evaluate_of_failure hsize hfailed₂
      rw [hagree.point.state] at hasked₂
      rw [← run₁.settings_eq] at hstep₁
      rw [← run₂.settings_eq, h.radius] at hstep₂
      obtain ⟨s₁', hattempt₁, hleft₁⟩ := attempt_of_evaluation_error
        (Workspace.computeStep_of_stepsTo hstep₁) hpredicted₁ hasked₁ clock₁ reporting
      obtain ⟨s₂', hattempt₂, hleft₂⟩ := attempt_of_evaluation_error
        (Workspace.computeStep_of_stepsTo hstep₂) hpredicted₂ hasked₂ clock₂ reporting
      rw [← hleft₁] at hcalls₁
      rw [← hleft₂] at hcalls₂
      exact .inr ⟨_, s₁', s₂', hcalls₁ ▸ .callback hsize hfailed₁, hattempt₁, hattempt₂,
        hcalls₁.trans hcalls₂.symm⟩
    · exact .inl (h.exists_attempts problems run₁ run₂ hstep₁ hstep₂ hagree hreported₁ hreported₂
        hevaluations)
  · -- every positive damping would do, so the damping cannot have been raised
    have hexhausted : settings.damping.maxAttempts = 0 := by
      by_contra hroom
      obtain ⟨step, w, hstep⟩ := run₁.sound.exists_stepsTo husable (Nat.pos_of_ne_zero hroom)
        s₁.session.radius
      rw [Workspace.computeStep_of_stepsTo hstep] at hfailed₁
      cases hfailed₁
    rw [← run₁.settings_eq] at hfailed₁
    rw [← run₂.settings_eq, h.radius] at hfailed₂
    obtain ⟨s₁', hattempt₁, hleft₁⟩ := attempt_of_step_error hfailed₁ clock₁ reporting
    obtain ⟨s₂', hattempt₂, hleft₂⟩ := attempt_of_step_error hfailed₂ clock₂ reporting
    rw [run₁.settings_eq] at hattempt₁
    rw [run₂.settings_eq] at hattempt₂
    refine .inr ⟨_, s₁', s₂', .damping _ lambda hexhausted, hattempt₁, hattempt₂, ?_⟩
    rw [hleft₁, hleft₂, run₁.serves.calls_eq, run₂.serves.calls_eq, hlength]

/-- The loops of agreeing runs end alike: with agreeing searches and one reason, or with one error
after equally many calls. -/
theorem Search.Agree.loop (h : s₁.Agree p₁.measurements state.size s₂)
    (problems : Problem.Agree state.size p₁ p₂)
    (run₁ : p₁.Run settings clock₁ state points₁ reason s₁)
    (run₂ : p₂.Run settings clock₂ state points₂ reason s₂) (reporting : Bool) {remaining : ℕ}
    (room : s₁.iterations + remaining = settings.maxIterations) :
    (∃ final s₁' s₂', (s₁.loop clock₁ reporting remaining reason).value = (.ok final, s₁') ∧
        (s₂.loop clock₂ reporting remaining reason).value = (.ok final, s₂') ∧
        s₁'.Agree p₁.measurements state.size s₂' ∧ s₁'.evaluator.calls = s₂'.evaluator.calls) ∨
      ∃ error s₁' s₂', p₁.Failure settings state.size s₁'.evaluator.calls error ∧
        (s₁.loop clock₁ reporting remaining reason).value = (.error error, s₁') ∧
        (s₂.loop clock₂ reporting remaining reason).value = (.error error, s₂') ∧
        s₁'.evaluator.calls = s₂'.evaluator.calls := by
  have hcalls : s₁.evaluator.calls = s₂.evaluator.calls := by
    rw [run₁.serves.calls_eq, run₂.serves.calls_eq, h.length_eq run₁ run₂]
  induction remaining generalizing points₁ points₂ reason s₁ s₂ with
  | zero =>
      cases reason with
      | some given => exact .inl ⟨given, s₁, s₂, rfl, rfl, h, hcalls⟩
      | none => exact .inl ⟨.iterationLimit, s₁, s₂, rfl, rfl, h, hcalls⟩
  | succ remaining ih =>
      cases reason with
      | some given => exact .inl ⟨given, s₁, s₂, rfl, rfl, h, hcalls⟩
      | none =>
          rcases h.attempt problems run₁ run₂ reporting with
            ⟨r₁, r₂, reason, s₁', s₂', hattempt₁, hattempt₂, hagree⟩ |
            ⟨error, s₁', s₂', hfailure, hattempt₁, hattempt₂, hleft⟩
          · have hvalue₁ : (s₁.attempt clock₁ reporting).value = (.ok reason, s₁') :=
              Search.attempt_iff.mpr ⟨r₁, hattempt₁⟩
            have hvalue₂ : (s₂.attempt clock₂ reporting).value = (.ok reason, s₂') :=
              Search.attempt_iff.mpr ⟨r₂, hattempt₂⟩
            have hiterations := hattempt₁.after.iterations
            have hrun₁ := run₁.round (by omega) hattempt₁
            have hrun₂ := run₂.round (by rw [← h.iterations]; omega) hattempt₂
            have hleft : s₁'.evaluator.calls = s₂'.evaluator.calls := by
              rw [hrun₁.serves.calls_eq, hrun₂.serves.calls_eq, hagree.length_eq hrun₁ hrun₂]
            simp only [Search.loop, Logged.value_bind, hvalue₁, hvalue₂]
            exact ih hagree hrun₁ hrun₂ (by omega) hleft
          · simp only [Search.loop, Logged.value_bind, hattempt₁, hattempt₂]
            exact .inr ⟨error, s₁', s₂', hfailure, rfl, rfl, hleft⟩

/-- Solving two problems that answer alike comes to results that differ in the times only, and both are
delivered, or it fails with one error. The callers' states and the numbers of calls are the same. -/
theorem Problem.Agree.solve (problems : Problem.Agree state.size p₁ p₂)
    (valid : settings.fault? = none) {e₁ e₂ : Evaluator ℝ}
    (built₁ : (p₁.evaluator state.size).value = .ok e₁)
    (built₂ : (p₂.evaluator state.size).value = .ok e₂) (clock₁ clock₂ : Clock) (debugHeard : Bool)
    {solved₁ solved₂ : Solved ℝ (CholeskySolver ℝ)}
    (h₁ : (p₁.solve settings clock₁ debugHeard state).value = solved₁)
    (h₂ : (p₂.solve settings clock₂ debugHeard state).value = solved₂) :
    solved₁.state = solved₂.state ∧ solved₁.calls = solved₂.calls ∧
      ((∃ outcome₁ outcome₂ session₁ session₂, outcome₁.timeless = outcome₂.timeless ∧
          solved₁.answer = deliver (settings.verbose || debugHeard) outcome₁ session₁ ∧
          solved₂.answer = deliver (settings.verbose || debugHeard) outcome₂ session₂) ∨
        ∃ error, p₁.Failure settings state.size solved₁.calls error ∧
          solved₁.answer = .error error ∧ solved₂.answer = .error error) := by
  have hserves₁ := Problem.serves_evaluator built₁
  have hserves₂ := Problem.serves_evaluator built₂
  rw [Problem.value_solve valid built₁] at h₁
  rw [Problem.value_solve valid built₂] at h₂
  rcases problems.answers 0 state rfl with
    ⟨error, hfailed₁, hfailed₂⟩ | ⟨evaluation₁, evaluation₂, hreported₁, hreported₂, hevaluations⟩
  · obtain ⟨e₁', hasked₁, hcalls₁⟩ := hserves₁.evaluate_of_failure rfl hfailed₁
    obtain ⟨e₂', hasked₂, hcalls₂⟩ := hserves₂.evaluate_of_failure rfl hfailed₂
    simp only [hasked₁] at h₁
    simp only [hasked₂] at h₂
    subst h₁ h₂
    exact ⟨rfl, hcalls₁.trans hcalls₂.symm, .inr ⟨_, hcalls₁ ▸ .callback rfl hfailed₁, rfl, rfl⟩⟩
  · obtain ⟨e₁', hasked₁⟩ := hserves₁.evaluate_of_report rfl hreported₁
    obtain ⟨e₂', hasked₂⟩ := hserves₂.evaluate_of_report rfl hreported₂
    obtain ⟨q₁, hfirst₁⟩ := Problem.exists_firstPoint hreported₁
    obtain ⟨q₂, hfirst₂⟩ := Problem.exists_firstPoint hreported₂
    have hpoints : q₁.Agree p₁.measurements state.size q₂ :=
      .of_make problems.measurements rfl hreported₁ hreported₂ hevaluations
        (of_firstPoint hfirst₁).1 (of_firstPoint hfirst₂).1
    have hopening₁ : p₁.Run settings clock₁ state [q₁] _ _ := .opening valid built₁ hasked₁ hfirst₁
    have hopening₂ : p₂.Run settings clock₂ state [q₂] _ _ := .opening valid built₂ hasked₂ hfirst₂
    have hreason := settings.converged?_congr hpoints.gradient none settings.radius
    rw [← hreason] at hopening₂
    have hagree : (Search.start (Session.start p₁.backend settings q₁) e₁').Agree p₁.measurements
        state.size (Search.start (Session.start p₂.backend settings q₂) e₂') :=
      { workspace := ⟨hpoints, rfl, rfl⟩
        settings := rfl, radius := rfl, nextId := rfl, initialCost := hpoints.cost
        evaluations := rfl, iterations := rfl, accepted := rfl, rejected := rfl, updateNorm := rfl
        history := rfl }
    simp only [hasked₁, hfirst₁] at h₁
    simp only [hasked₂, hfirst₂, ← hreason] at h₂
    rcases hagree.loop problems hopening₁ hopening₂ (settings.verbose || debugHeard)
        (Nat.zero_add settings.maxIterations) with
      ⟨final, s₁, s₂, hloop₁, hloop₂, hends, hcalls⟩ |
      ⟨error, s₁, s₂, hfailure, hloop₁, hloop₂, hcalls⟩
    · simp only [hloop₁, Search.value_finish] at h₁
      simp only [hloop₂, Search.value_finish] at h₂
      subst h₁ h₂
      exact ⟨hends.workspace.point.state, hcalls,
        .inl ⟨_, _, _, _, hends.outcome_eq final, rfl, rfl⟩⟩
    · simp only [hloop₁] at h₁
      simp only [hloop₂] at h₂
      subst h₁ h₂
      exact ⟨rfl, hcalls, .inr ⟨error, hfailure, rfl, rfl⟩⟩

end Lockstep

end TrustRegion
