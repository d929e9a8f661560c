/-
Module: TrustRegion.Proofs.Search.Failure
Purpose: How a search and the questions to what it leaves can fail. A search without a result leaves the
  state it was given and ends with one of a few errors: settings or sizes that are refused before the
  callback is asked, an error of the callback itself, a first point out of range, or damping that is used
  up. Errors about kinds and lengths that do not agree never arise inside, because the sizes agree
  throughout.
Main exports: Problem.inputFault?, Problem.Fails, Problem.Run.fails_of_attempt,
  Problem.fails_of_solve, Problem.Fails.admissible, Problem.solve_fails_cleanly
-/
import TrustRegion.Proofs.Search.Query
import TrustRegion.Proofs.Search.Reads

namespace TrustRegion

namespace Problem

section Sizes

variable {α : Type}

/-- What is wrong with the sizes of a problem for a number of states, if anything is. -/
def inputFault? (states : Nat) : Problem α → Option InputFault
  | .sparse _ measurements capacity =>
      (sizeFault? states measurements).or (capacityFault? states measurements capacity)
  | .dense _ measurements => sizeFault? states measurements

variable [Scalar α]

/-- Sizes with a fault are refused, and all others are accepted. -/
theorem evaluator_cases (p : Problem α) (states : Nat) :
    (∃ fault, p.inputFault? states = some fault ∧
        (p.evaluator states).value = .error (.invalidInput fault)) ∨
      (p.inputFault? states = none ∧ ∃ e, (p.evaluator states).value = .ok e) := by
  cases p with
  | sparse callback measurements capacity =>
      simp only [inputFault?, evaluator, Evaluator.newSparse]
      cases (sizeFault? states measurements).or (capacityFault? states measurements capacity) with
      | some fault => exact .inl ⟨fault, rfl, rfl⟩
      | none => exact .inr ⟨rfl, _, rfl⟩
  | dense callback measurements =>
      simp only [inputFault?, evaluator, Evaluator.newDense]
      cases sizeFault? states measurements with
      | some fault => exact .inl ⟨fault, rfl, rfl⟩
      | none => exact .inr ⟨rfl, _, rfl⟩

/-- A callback reports something or fails. -/
theorem report_or_failure (p : Problem α) (states calls : Nat) (x : Vec α) :
    (∃ evaluation, p.report states calls x = some evaluation) ∨
      ∃ error, p.failure? states calls x = some error := by
  cases h : (p.answer states calls x).value with
  | ok evaluation => exact .inl ⟨evaluation, report_eq_some_iff.mpr h⟩
  | error error => exact .inr ⟨error, failure?_eq_some_iff.mpr h⟩

end Sizes

variable {α : Type} [Scalar α]

/-- How a search can fail, with the number of times that the callback has been asked by then. -/
inductive Fails (p : Problem α) (settings : Settings α) (clock : Clock) (state : Vec α) :
    Nat → SolveError α → Prop where
  /-- The settings cannot be used. -/
  | settings {fault : SettingsFault α} (refused : settings.fault? = some fault) :
      Fails p settings clock state 0 (.search (.invalidSettings fault))
  /-- The settings can be used, but not the sizes. -/
  | input {fault : InputFault} (valid : settings.fault? = none)
      (refused : p.inputFault? state.size = some fault) :
      Fails p settings clock state 0 (.problem (.invalidInput fault))
  /-- The callback fails where the search begins. -/
  | first {error : ProblemError α} (valid : settings.fault? = none)
      (accepted : p.inputFault? state.size = none)
      (failed : p.failure? state.size 0 state = some error) :
      Fails p settings clock state 1 (.problem error)
  /-- The cost or the gradient is out of range where the search begins. -/
  | range {q : Linearization α} (valid : settings.fault? = none)
      (accepted : p.inputFault? state.size = none) (made : p.Made state.size 0 q)
      (place : q.state = state) (out : q.isFinite = false) :
      Fails p settings clock state 1 (.problem (.nonFinite (.initial q.cost q.gradientMaxAbs)))
  /-- A step needs more damping than there may be. -/
  | damping {points : List (Linearization α)} {s : Search α (CholeskySolver α)}
      {w : Workspace α (CholeskySolver α)} (before : p.Run settings clock state points none s)
      (room : s.iterations < settings.maxIterations)
      (failed : (s.session.workspace.computeStep settings.damping s.session.radius).value =
        (.error (.dampingExhausted settings.damping.maxAttempts w.damping.lambda), w)) :
      Fails p settings clock state points.length
        (.search (.linear (.dampingExhausted settings.damping.maxAttempts w.damping.lambda)))
  /-- The callback fails where a step leads. -/
  | callback {points : List (Linearization α)} {s : Search α (CholeskySolver α)} {step : Step α}
      {w : Workspace α (CholeskySolver α)} {error : ProblemError α}
      (before : p.Run settings clock state points none s)
      (room : s.iterations < settings.maxIterations)
      (computed : s.session.workspace.StepsTo settings.damping s.session.radius step w)
      (failed : p.failure? state.size points.length (w.point.state.add step.update) = some error) :
      Fails p settings clock state (points.length + 1) (.problem error)

variable {p : Problem α} {settings : Settings α} {clock : Clock} {state : Vec α}
  {points : List (Linearization α)} {reason : Option StopReason} {s s' : Search α (CholeskySolver α)}
  {error : SolveError α}

/-- An attempt that fails does so for want of damping or with the error of the callback: whatever else
could fail has the right kind and the right sizes. -/
theorem Run.fails_of_attempt (before : p.Run settings clock state points none s)
    (room : s.iterations < settings.maxIterations) {reporting : Bool}
    (failed : (s.attempt clock reporting).value = (.error error, s')) :
    p.Fails settings clock state s'.evaluator.calls error := by
  have hshaped := before.shaped
  have hsettings := before.settings_eq
  rcases hshaped.computeStep_cases s.session.settings.damping s.session.radius with
    ⟨step, w, hstep⟩ | ⟨w, hexhausted⟩
  · have hcomputed := Workspace.computeStep_of_stepsTo hstep
    obtain ⟨hsize, hshaped'⟩ := hshaped.stepsTo hstep
    obtain ⟨predicted, hpredicted⟩ := hshaped'.exists_predicted hsize
    have hplace := hshaped'.size_add step.update
    rcases p.report_or_failure state.size points.length (w.point.state.add step.update) with
      ⟨evaluation, hreport⟩ | ⟨problem, hfailure⟩
    · -- with a report the attempt would come to its end
      obtain ⟨e', hasked⟩ := before.serves.evaluate_of_report hplace hreport
      obtain ⟨q, hmade⟩ := Linearization.exists_make (s := w.backend)
        hshaped'.backend.suits.storage s.session.nextId hreport
      let r : Search.Round α (CholeskySolver α) := ⟨w, step, predicted, evaluation, e', q⟩
      have hattempts : s.Attempts clock r
          ((r.arrived s).judge clock false step predicted q).value.1
          ((r.arrived s).judge clock false step predicted q).value.2 :=
        ⟨hcomputed, hpredicted, hasked, hmade, rfl⟩
      rw [Search.attempt_iff.mpr ⟨r, hattempts⟩] at failed
      cases failed
    · obtain ⟨e', hasked, hcalls⟩ := before.serves.evaluate_of_failure hplace hfailure
      obtain ⟨left, hattempt, hleft⟩ :=
        Search.attempt_of_evaluation_error hcomputed hpredicted hasked clock reporting
      rw [hattempt] at failed
      cases failed
      rw [hleft, hcalls]
      rw [hsettings] at hstep
      exact .callback before room hstep hfailure
  · obtain ⟨left, hattempt, hleft⟩ :=
      Search.attempt_of_step_error hexhausted clock reporting
    rw [hattempt] at failed
    cases failed
    rw [hleft, before.serves.calls_eq]
    rw [hsettings] at hexhausted ⊢
    exact .damping before room hexhausted

/-- A loop that fails does so in an attempt. -/
theorem Run.exists_failed_attempt (h : p.Run settings clock state points reason s)
    {reporting : Bool} {remaining : Nat} (room : s.iterations + remaining = settings.maxIterations)
    (failed : (s.loop clock reporting remaining reason).value = (.error error, s')) :
    ∃ points s₀, p.Run settings clock state points none s₀ ∧
      s₀.iterations < settings.maxIterations ∧
      (s₀.attempt clock reporting).value = (.error error, s') := by
  induction remaining generalizing points reason s with
  | zero => cases reason <;> cases failed
  | succ remaining ih =>
      cases reason with
      | some final => cases failed
      | none =>
          have hroom : s.iterations < settings.maxIterations := by omega
          rcases hattempt : (s.attempt clock reporting).value with ⟨answer, s₁⟩
          simp only [Search.loop, Logged.value_bind, hattempt] at failed
          cases answer with
          | error e =>
              cases failed
              exact ⟨points, s, h, hroom, hattempt⟩
          | ok reason =>
              obtain ⟨r, attempted⟩ := Search.attempt_iff.mp hattempt
              refine ih (h.round hroom attempted) ?_ failed
              rw [attempted.after.iterations]
              omega

/-- Settings that cannot be used are refused before anything else is done. -/
theorem value_solve_of_settings_fault {fault : SettingsFault α}
    (refused : settings.fault? = some fault) (p : Problem α) (clock : Clock) (debugHeard : Bool)
    (state : Vec α) :
    (p.solve settings clock debugHeard state).value =
      { answer := .error (.search (.invalidSettings fault)), state, calls := 0 } := by
  rw [solve_eq]
  unfold solveWith Settings.validate
  simp only [refused, Logged.value_bind]
  rfl

/-- Sizes that cannot be used are refused before the callback is asked. -/
theorem value_solve_of_input_fault {fault : InputFault} (valid : settings.fault? = none)
    (refused : (p.evaluator state.size).value = .error (.invalidInput fault)) (clock : Clock)
    (debugHeard : Bool) :
    (p.solve settings clock debugHeard state).value =
      { answer := .error (.problem (.invalidInput fault)), state, calls := 0 } := by
  rw [solve_eq]
  unfold solveWith Settings.validate
  simp only [valid, refused, Logged.value_bind, Logged.value_pure]

/-- How a search with usable settings and sizes fails, if it does: with its first evaluation, with its
first point, with one of its attempts, or only with the report of its result. -/
theorem fails_of_started {e : Evaluator α} {debugHeard : Bool} (valid : settings.fault? = none)
    (accepted : p.inputFault? state.size = none) (built : (p.evaluator state.size).value = .ok e)
    (failed : (p.solve settings clock debugHeard state).value.answer = .error error) :
    ((p.solve settings clock debugHeard state).value.state = state ∧
        p.Fails settings clock state (p.solve settings clock debugHeard state).value.calls error) ∨
      ∃ iterations, error = .meanTimeUndefined iterations ∧
        (settings.verbose || debugHeard) = true ∧ iterations ≠ 0 ∧ Nat.pow 2 32 ∣ iterations := by
  have hserves := serves_evaluator built
  have hvalue := value_solve valid built clock debugHeard
  rcases p.report_or_failure state.size 0 state with ⟨evaluation, hreport⟩ | ⟨problem, hfailure⟩
  · obtain ⟨e', hasked⟩ := hserves.evaluate_of_report rfl hreport
    have hcalls : e'.calls = 1 := (hserves.evaluate hasked).2.calls_eq
    obtain ⟨q, hmade⟩ := Linearization.exists_make (s := p.backend) rfl 0 hreport
    simp only [hasked] at hvalue
    cases hfinite : q.isFinite with
    | false =>
        have hfirst : (firstPoint p.backend state evaluation).value =
            .error (.problem (.nonFinite (.initial q.cost q.gradientMaxAbs))) := by
          unfold firstPoint
          simp only [Logged.value_bind, hmade, hfinite, Bool.false_eq_true, if_false]
          rfl
        have hplace : q.state = state := by
          obtain ⟨gradient, -, rfl⟩ := Linearization.of_make hmade
          rfl
        simp only [hfirst, hcalls] at hvalue
        rw [hvalue] at failed ⊢
        cases failed
        exact .inl ⟨rfl, .range valid accepted (made_of_make hmade hreport) hplace hfinite⟩
    | true =>
        have hfirst : (firstPoint p.backend state evaluation).value = .ok q := by
          unfold firstPoint
          simp only [Logged.value_bind, hmade, hfinite, if_true]
          rfl
        have hopening : p.Run settings clock state [q] _ _ := .opening valid built hasked hfirst
        rcases hloop : ((Search.start (Session.start p.backend settings q) e').loop clock
          (settings.verbose || debugHeard) settings.maxIterations
          (settings.converged? q none settings.radius)).value with ⟨answer, s⟩
        simp only [hfirst, hloop] at hvalue
        cases answer with
        | error problem =>
            rw [hvalue] at failed ⊢
            cases failed
            obtain ⟨points, s₀, hrun, hroom, hattempt⟩ :=
              hopening.exists_failed_attempt (Nat.zero_add _) hloop
            exact .inl ⟨rfl, hrun.fails_of_attempt hroom hattempt⟩
        | ok final =>
            simp only [Search.value_finish] at hvalue
            rw [hvalue] at failed
            unfold deliver at failed
            split at failed
            · rename_i hundefined
              cases failed
              exact .inr ⟨_, rfl, hundefined⟩
            · cases failed
  · obtain ⟨e', hasked, hcalls⟩ := hserves.evaluate_of_failure rfl hfailure
    simp only [hasked, hcalls] at hvalue
    rw [hvalue] at failed ⊢
    cases failed
    exact .inl ⟨rfl, .first valid accepted hfailure⟩

/-- A search that fails leaves the state it was given and fails in one of these ways, unless its report
breaks off because it has no mean time of an attempt to show. -/
theorem fails_of_solve {debugHeard : Bool}
    (failed : (p.solve settings clock debugHeard state).value.answer = .error error) :
    ((p.solve settings clock debugHeard state).value.state = state ∧
        p.Fails settings clock state (p.solve settings clock debugHeard state).value.calls error) ∨
      ∃ iterations, error = .meanTimeUndefined iterations ∧
        (settings.verbose || debugHeard) = true ∧ iterations ≠ 0 ∧ Nat.pow 2 32 ∣ iterations := by
  cases hvalid : settings.fault? with
  | some fault =>
      rw [value_solve_of_settings_fault hvalid] at failed ⊢
      cases failed
      exact .inl ⟨rfl, .settings hvalid⟩
  | none =>
      rcases p.evaluator_cases state.size with ⟨fault, hfault, hrefused⟩ | ⟨haccepted, e, hbuilt⟩
      · rw [value_solve_of_input_fault hvalid hrefused] at failed ⊢
        cases failed
        exact .inl ⟨rfl, .input hvalid hfault⟩
      · exact fails_of_started hvalid haccepted hbuilt failed

/-- The errors that a search can end with, by kind. None of them is about a Jacobian of the wrong kind, a
missing factorization or lengths that do not agree, unless the callback itself says so. -/
def Admissible (p : Problem α) (settings : Settings α) (states : Nat) :
    SolveError α → Prop
  | .search (.invalidSettings _) => True
  | .search (.linear (.dampingExhausted attempts _)) => attempts = settings.damping.maxAttempts
  | .problem error =>
      (∃ fault, error = .invalidInput fault) ∨ (∃ fault, error = .nonFinite fault) ∨
        ∃ calls x, p.failure? states calls x = some error
  | _ => False

/-- Every way to fail has one of these errors. -/
theorem Fails.admissible {calls : Nat} (h : p.Fails settings clock state calls error) :
    p.Admissible settings state.size error := by
  cases h with
  | settings refused => exact trivial
  | input valid refused => exact .inl ⟨_, rfl⟩
  | first valid accepted failed => exact .inr (.inr ⟨_, _, failed⟩)
  | range valid accepted made place out => exact .inr (.inl ⟨_, rfl⟩)
  | damping before room failed => exact rfl
  | callback before room computed failed => exact .inr (.inr ⟨_, _, failed⟩)

/-- A search that fails with its settings was given settings with this fault. -/
theorem Fails.settings_fault {calls : Nat} {fault : SettingsFault α}
    (h : p.Fails settings clock state calls (.search (.invalidSettings fault))) :
    settings.fault? = some fault := by
  cases h with
  | settings refused => exact refused

/-- A search refuses its settings exactly if they cannot be used. -/
theorem refuses_settings_iff {debugHeard : Bool} :
    (∃ fault, (p.solve settings clock debugHeard state).value.answer =
        .error (.search (.invalidSettings fault))) ↔ settings.fault? ≠ none := by
  constructor
  · rintro ⟨fault, hfailed⟩ hvalid
    rcases fails_of_solve hfailed with ⟨-, hfails⟩ | ⟨iterations, heq, -⟩
    · have hfault := hfails.settings_fault
      rw [hvalid] at hfault
      cases hfault
    · cases heq
  · intro hrefused
    obtain ⟨fault, hfault⟩ := Option.ne_none_iff_exists'.mp hrefused
    exact ⟨fault, by rw [value_solve_of_settings_fault hfault]⟩

/-- What a session that a search leaves can answer with instead of a result: the damping is used up, or a
right-hand side has the wrong length. -/
theorem reply_error_of_solve {debugHeard : Bool} {outcome : Outcome α}
    {session : Session α (CholeskySolver α)}
    (ok : (p.solve settings clock debugHeard state).value.answer = .ok (outcome, session))
    (queries : List (Query α)) (q : Query α) {e : LinearError α}
    (failed : (session.after queries).reply q = .error e) :
    (∃ lambda, e = .dampingExhausted settings.damping.maxAttempts lambda) ∨
      ∃ rhs : Vec α, q = .solve rhs ∧ rhs.size ≠ session.states ∧
        e = .dimensionMismatch (.rightHandSide rhs.size session.states) := by
  obtain ⟨points, reason, s, hrun, -, rfl, -⟩ := run_of_solve rfl ok
  have hshaped := hrun.session_shaped
  have hkeeps := hshaped.keeps_after queries
  have hanswers := (hshaped.after queries).answers q
  rw [failed] at hanswers
  generalize (s.session.after queries).afterQuery q = next at hanswers
  cases hanswers with
  | refused question size =>
      rw [hkeeps.states] at size ⊢
      exact .inr ⟨_, question, size, rfl⟩
  | exhausted fits request =>
      rw [hkeeps.settings, hrun.settings_eq]
      exact .inl ⟨_, rfl⟩

/-- After any questions, a session that a run leaves has the sizes of the problem, and nothing is read of
it that is not there. -/
theorem Run.readable_after (h : p.Run settings clock state points reason s) (queries : List (Query α)) :
    (s.session.after queries).workspace.Shaped p.storage p.measurements s.session.states ∧
      (s.session.after queries).workspace.Readable s.session.states := by
  have hshaped := (h.session_shaped.after queries).workspace
  have hpoint : (s.session.after queries).workspace.point = s.session.point :=
    (h.session_shaped.keeps_after queries).point
  rw [h.session_sizes.1]
  refine ⟨hshaped, hshaped.readable ?_⟩
  rw [hpoint]
  exact h.within

/-- If a search fails, the state is the one it was given and the error is one of these: settings or
sizes refused before the callback is asked, an error of the callback at one of its evaluations, a first
point out of range, or damping that is used up; the callback has been asked as often as the case says.
The one other ending without a result is not a failure of the search: its report breaks off because it
has no mean time of an attempt to show. Settings are refused exactly if they cannot be used.

What a search leaves answers every later question, or finds the damping used up, or refuses a right-hand
side of the wrong length.

Throughout the search and for the step it takes, everything has the sizes of the problem. Wherever a
vector or a matrix is read by place, the place is there: at every point that is made, in what is computed
there, in the buffer of a dense callback if its length is a word, for the state that is handed back and
for every later question. -/
theorem solve_fails_cleanly (p : Problem α) (settings : Settings α) (clock : Clock)
    (debugHeard : Bool) (state : Vec α) :
    (∀ error, (p.solve settings clock debugHeard state).value.answer = .error error →
      ((p.solve settings clock debugHeard state).value.state = state ∧
        p.Fails settings clock state (p.solve settings clock debugHeard state).value.calls error ∧
        p.Admissible settings state.size error) ∨
      ∃ iterations, error = .meanTimeUndefined iterations ∧
        (settings.verbose || debugHeard) = true ∧ iterations ≠ 0 ∧ Nat.pow 2 32 ∣ iterations) ∧
    ((∃ fault, (p.solve settings clock debugHeard state).value.answer =
        .error (.search (.invalidSettings fault))) ↔ settings.fault? ≠ none) ∧
    (∀ outcome session,
      (p.solve settings clock debugHeard state).value.answer = .ok (outcome, session) →
      (p.solve settings clock debugHeard state).value.state.size = state.size ∧
      ∀ queries,
        (session.after queries).workspace.Shaped p.storage p.measurements session.states ∧
        (session.after queries).workspace.Readable session.states ∧
        ∀ q e, (session.after queries).reply q = .error e →
          (∃ lambda, e = .dampingExhausted settings.damping.maxAttempts lambda) ∨
            ∃ rhs : Vec α, q = .solve rhs ∧ rhs.size ≠ session.states ∧
              e = .dimensionMismatch (.rightHandSide rhs.size session.states)) ∧
    (∀ k q, p.Made state.size k q → q.state.size = state.size → q.Readable) ∧
    (∀ points reason s, p.Run settings clock state points reason s →
      s.session.workspace.Shaped p.storage p.measurements state.size ∧
      s.session.workspace.Readable state.size ∧
      ∀ step w,
        s.session.workspace.StepsTo s.session.settings.damping s.session.radius step w →
        w.Shaped p.storage p.measurements state.size ∧ w.Readable state.size ∧
          w.point.Admits step.update) ∧
    (state.size * p.measurements < wordSize →
      ∀ calls e, p.Serves state.size calls e → e.Readable) := by
  refine ⟨fun error hfailed => ?_, refuses_settings_iff, fun outcome session hok => ?_,
    fun k q hmade hsize => hmade.readable hsize, fun points reason s hrun =>
      ⟨hrun.shaped, hrun.readable, fun step w => hrun.readable_of_stepsTo⟩,
    fun hfits calls e hserves => hserves.readable hfits⟩
  · exact (fails_of_solve hfailed).imp_left fun ⟨hstate, hfails⟩ =>
      ⟨hstate, hfails, hfails.admissible⟩
  · obtain ⟨points, reason, s, hrun, -, rfl, hstate, -⟩ := run_of_solve rfl hok
    refine ⟨?_, fun queries => ?_⟩
    · rw [hstate]
      exact hrun.shaped.point.state
    · obtain ⟨hshaped, hreadable⟩ := hrun.readable_after queries
      exact ⟨hshaped, hreadable, fun q e => reply_error_of_solve hok queries q⟩

/-- The equation `x ^ 2 = 2` from a callback that answers twice and fails from then on. -/
def answersTwice : Problem Float :=
  .dense
    (fun calls state _ buffer =>
      let x := state.entry 0
      if calls < 2 then (.ok ⟨#[x * x - 2.0]⟩, ⟨#[2.0 * x]⟩)
      else (.error (.callback "no answer"), buffer)) 1

/-- A callback that fails after a step was taken leaves the state as it was given, and its buffers have
every place that is read from them; a radius of zero is refused; and a session that a search leaves
refuses a right-hand side with two entries for one state. -/
theorem solve_answersTwice_fails :
    (answersTwice.solve Settings.standard Clock.stopped false ⟨#[1.0]⟩).value.state = ⟨#[1.0]⟩ ∧
    answersTwice.Fails Settings.standard Clock.stopped ⟨#[1.0]⟩ 3
      (.problem (.callback "no answer")) ∧
    (∀ calls e, answersTwice.Serves 1 calls e → e.Readable) ∧
    (∃ fault,
      (answersTwice.solve { Settings.standard with radius := 0.0 } Clock.stopped false
        ⟨#[1.0]⟩).value.answer = .error (.search (.invalidSettings fault))) ∧
    ∃ outcome session,
      ((squareIsTwo : Problem Float).solve
        { Settings.standard with maxIterations := 3, radius := 2.0 } Clock.stopped false
        ⟨#[0.25]⟩).value.answer = .ok (outcome, session) ∧
      session.workspace.Readable session.states ∧
      session.reply (.solve ⟨#[1.0, 2.0]⟩) =
        .error (.dimensionMismatch (.rightHandSide 2 session.states)) := by
  have hends :
      (match (answersTwice.solve Settings.standard Clock.stopped false ⟨#[1.0]⟩).value.answer with
        | .error (.problem (.callback text)) => text == "no answer"
        | _ => false) = true := by
    decide +kernel
  have hcalls :
      (answersTwice.solve Settings.standard Clock.stopped false ⟨#[1.0]⟩).value.calls = 3 := by
    decide +kernel
  have hfailed :
      (answersTwice.solve Settings.standard Clock.stopped false ⟨#[1.0]⟩).value.answer =
        .error (.problem (.callback "no answer")) := by
    split at hends
    · rename_i text hanswer
      rw [hanswer, beq_iff_eq.mp hends]
    · cases hends
  obtain ⟨hfails, -, -, -, -, hbuffers⟩ :=
    solve_fails_cleanly answersTwice Settings.standard Clock.stopped false ⟨#[1.0]⟩
  obtain ⟨-, hrefuses, -⟩ := solve_fails_cleanly answersTwice
    { Settings.standard with radius := 0.0 } Clock.stopped false ⟨#[1.0]⟩
  obtain ⟨-, -, hleaves, -⟩ := solve_fails_cleanly squareIsTwo
    { Settings.standard with maxIterations := 3, radius := 2.0 } Clock.stopped false ⟨#[0.25]⟩
  obtain ⟨⟨outcome, session⟩, h⟩ :
      ∃ result,
        ((squareIsTwo : Problem Float).solve
          { Settings.standard with maxIterations := 3, radius := 2.0 } Clock.stopped false
          ⟨#[0.25]⟩).value.answer = .ok result :=
    exists_eq_ok (by decide +kernel)
  have hsize : (⟨#[1.0, 2.0]⟩ : Vec Float).size ≠ session.states := by
    obtain ⟨points, reason, s, hrun, -, rfl, -⟩ := run_of_solve rfl h
    rw [hrun.session_sizes.1]
    decide
  have hreply := (Session.reply_of_wrong_size hsize).1
  obtain ⟨-, hqueries⟩ := hleaves outcome session h
  obtain ⟨-, hreadable, hreplies⟩ := hqueries []
  refine ⟨?_, ?_, hbuffers (by decide), hrefuses.mpr (by decide +kernel), outcome, session, h,
    hreadable, ?_⟩
  · rcases hfails _ hfailed with ⟨hstate, -, -⟩ | ⟨iterations, hbroken, -⟩
    · exact hstate
    · cases hbroken
  · rcases hfails _ hfailed with ⟨-, hfails, -⟩ | ⟨iterations, hbroken, -⟩
    · exact hcalls ▸ hfails
    · cases hbroken
  · rcases hreplies _ _ hreply with ⟨lambda, hdamping⟩ | ⟨rhs, hquery, -, hshape⟩
    · cases hdamping
    · cases hquery
      exact hreply.trans (congrArg Except.error hshape)

end Problem

end TrustRegion
