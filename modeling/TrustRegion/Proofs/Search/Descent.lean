/-
Module: TrustRegion.Proofs.Search.Descent
Purpose: A search only ever goes down, and what it hands over belongs together: the state, the
  residuals and the cost of a result are those of one evaluation, the one of the last accepted
  attempt.
Main exports: Descends, lastCost, Problem.Run.descends, Problem.solve_descends_from_one_evaluation
-/
import TrustRegion.Proofs.Scalar.Double
import TrustRegion.Proofs.Search.Run

namespace TrustRegion

/-- The cost after attempts in order that began at a cost. -/
def lastCost {α : Type} (cost : α) (history : List (Attempt α)) : α :=
  (history.getLast?.map Attempt.cost).getD cost

/-- The number of the last accepted attempt, counted from one, among attempts in order; zero if none
was accepted. -/
def lastAccepted {α : Type} (history : List (Attempt α)) : Nat :=
  latestAccepted history.reverse

/-- Attempts in order, from a cost on: an accepted one brings the cost of its candidate, which is
lower, and a rejected one changes nothing. -/
def Descends {α : Type} [LT α] : α → List (Attempt α) → Prop
  | _, [] => True
  | cost, a :: rest =>
      (if a.accepted then a.cost = a.candidateCost ∧ a.cost < cost else a.cost = cost) ∧
        Descends a.cost rest

section History

variable {α : Type}

@[simp] theorem lastCost_nil (cost : α) : lastCost cost [] = cost := rfl

@[simp] theorem lastCost_cons (cost : α) (a : Attempt α) (rest : List (Attempt α)) :
    lastCost cost (a :: rest) = lastCost a.cost rest := by
  unfold lastCost
  rw [List.getLast?_cons]
  cases rest.getLast? <;> rfl

@[simp] theorem lastCost_concat (cost : α) (history : List (Attempt α)) (a : Attempt α) :
    lastCost cost (history ++ [a]) = a.cost := by
  simp [lastCost]

/-- One more attempt continues a descent if it does what its decision says. -/
theorem Descends.concat [LT α] {cost : α} {history : List (Attempt α)} {a : Attempt α}
    (h : Descends cost history)
    (next : if a.accepted then a.cost = a.candidateCost ∧ a.cost < lastCost cost history
      else a.cost = lastCost cost history) :
    Descends cost (history ++ [a]) := by
  induction history generalizing cost with
  | nil => exact ⟨next, trivial⟩
  | cons b rest ih =>
      obtain ⟨hb, hrest⟩ := h
      exact ⟨hb, ih hrest (by simpa using next)⟩

/-- A descent does not end above where it began. -/
theorem Descends.lastCost_le [Scalar α] [LawfulScalar α] {cost : α} {history : List (Attempt α)}
    (h : Descends cost history) (defined : cost ≤ cost) : lastCost cost history ≤ cost := by
  induction history generalizing cost with
  | nil => exact defined
  | cons a rest ih =>
      obtain ⟨ha, hrest⟩ := h
      rw [lastCost_cons]
      cases hacc : a.accepted with
      | true =>
          simp only [hacc, if_true] at ha
          have hle : a.cost ≤ cost := LawfulScalar.le_of_lt ha.2
          have hself : a.cost ≤ a.cost :=
            LawfulScalar.le_refl_of_beq_self (LawfulScalar.beq_self_of_le hle).1
          exact LawfulScalar.le_trans (ih hrest hself) hle
      | false =>
          simp only [hacc, Bool.false_eq_true, if_false] at ha
          rw [ha] at hrest ⊢
          exact ih hrest defined

end History

/-- A step is taken only to a lower cost. -/
theorem Search.Round.cost_lt_of_accepted {α β : Type} [Scalar α] [LawfulScalar α]
    {settings : Settings α} {r : Search.Round α β} (h : r.accepted settings = true) :
    r.candidate.cost < r.workspace.point.cost := by
  have hactual : (0 : α) < r.actual := by
    simp only [Search.Round.accepted, Settings.accepts, Bool.and_eq_true, decide_eq_true_eq] at h
    exact h.2
  exact LawfulScalar.lt_of_sub_pos hactual

namespace Problem

variable {α : Type} [Scalar α] [LawfulScalar α] {p : Problem α} {settings : Settings α}
  {clock : Clock} {state : Vec α} {points : List (Linearization α)} {reason : Option StopReason}
  {s : Search α (CholeskySolver α)}

/-- The history of a run is a descent that ends at the cost of the current point. -/
theorem Run.descends (h : p.Run settings clock state points reason s) :
    Descends s.initialCost s.history.reverse ∧
      lastCost s.initialCost s.history.reverse = s.session.point.cost := by
  induction h with
  | opening _ _ _ _ => exact ⟨trivial, rfl⟩
  | @round points s s' r reason before room attempted ih =>
      obtain ⟨hdescends, hlast⟩ := ih
      have hafter := attempted.after
      have hpoint : s'.session.point = r.endpoint s.session.settings := hafter.point
      have hcost : r.workspace.point.cost = s.session.point.cost := Run.cost_workspace attempted
      obtain ⟨a, ha, -, haccepted, hcandidate, hend⟩ := hafter.history
      rw [hafter.initialCost, ha, List.reverse_cons, hpoint, lastCost_concat]
      refine ⟨hdescends.concat ?_, hend⟩
      rw [hlast, haccepted, hcandidate, hend, ← hcost]
      cases hacc : r.accepted s.session.settings with
      | true =>
          rw [Search.Round.endpoint_of_accepted hacc]
          exact ⟨rfl, Search.Round.cost_lt_of_accepted hacc⟩
      | false =>
          rw [Search.Round.endpoint_of_rejected hacc]
          rfl

omit [LawfulScalar α] in
/-- A run begins at a cost in range. -/
theorem Run.isFinite_initialCost (h : p.Run settings clock state points reason s) :
    Scalar.isFinite s.initialCost = true := by
  induction h with
  | opening _ _ _ first =>
      have hfinite := (of_firstPoint first).2
      simp only [Linearization.isFinite, Bool.and_eq_true] at hfinite
      exact hfinite.1
  | round _ _ attempted ih => rw [attempted.after.initialCost, ih]

/-- If a search ends with a result, its history descends from the initial to the final cost, and
the state that is returned, the caller's state, the state and the residuals of the current point and
the final cost are those of one evaluation, the one of the last accepted attempt: at the state that
the callback was handed then, with the residuals it wrote there. -/
theorem solve_descends_from_one_evaluation (debugHeard : Bool) {outcome : Outcome α}
    {session : Session α (CholeskySolver α)}
    (h : (p.solve settings clock debugHeard state).value.answer = .ok (outcome, session)) :
    Descends outcome.initialCost outcome.history ∧
      outcome.finalCost = lastCost outcome.initialCost outcome.history ∧
      outcome.finalCost ≤ outcome.initialCost ∧
      ∃ points reason s, p.Run settings clock state points reason s ∧ session = s.session ∧
        points.length = (p.solve settings clock debugHeard state).value.calls ∧
        ∃ handed evaluation,
          (points.map Linearization.state)[lastAccepted outcome.history]? = some handed ∧
          p.report state.size (lastAccepted outcome.history) handed = some evaluation ∧
          outcome.state = handed ∧
          (p.solve settings clock debugHeard state).value.state = handed ∧
          session.point.state = handed ∧
          session.point.residuals = evaluation.residuals ∧
          session.point.jacobian = evaluation.jacobian ∧
          outcome.finalCost = evaluation.cost := by
  obtain ⟨points, reason, s, hrun, rfl, rfl, hstate, hcalls⟩ := run_of_solve rfl h
  obtain ⟨hdescends, hlast⟩ := hrun.descends
  have hinitial : s.initialCost ≤ s.initialCost :=
    LawfulScalar.le_refl_of_isFinite hrun.isFinite_initialCost
  have hle := hdescends.lastCost_le hinitial
  rw [hlast] at hle
  have hplace : lastAccepted s.history.reverse = latestAccepted s.history :=
    congrArg latestAccepted (List.reverse_reverse s.history)
  have hmade := hrun.made hrun.current
  refine ⟨hdescends, hlast.symm, hle, points, reason, s, hrun, rfl, hcalls.symm,
    s.session.point.state, { residuals := s.session.point.residuals
                             jacobian := s.session.point.jacobian }, ?_, ?_, rfl, hstate, rfl, rfl,
    rfl, hmade.cost⟩
  · show (points.map Linearization.state)[lastAccepted s.history.reverse]? = _
    rw [hplace, List.getElem?_map, hrun.current]
    rfl
  · show p.report state.size (lastAccepted s.history.reverse) _ = _
    rw [hplace]
    exact hmade.reported

/-- From a quarter and with a radius of two, the first step of a search overshoots and is rejected,
and the next two are accepted. -/
theorem solve_squareIsTwo_descends :
    ∃ outcome session,
      (squareIsTwo.solve { Settings.standard with maxIterations := 3, radius := 2.0 } Clock.stopped
        false ⟨#[0.25]⟩).value.answer = .ok (outcome, session) ∧
      Descends outcome.initialCost outcome.history ∧
      outcome.finalCost = lastCost outcome.initialCost outcome.history ∧
      outcome.finalCost ≤ outcome.initialCost := by
  obtain ⟨⟨outcome, session⟩, h⟩ :
      ∃ result,
        (squareIsTwo.solve { Settings.standard with maxIterations := 3, radius := 2.0 }
          Clock.stopped false ⟨#[0.25]⟩).value.answer = .ok result :=
    exists_eq_ok (by decide +kernel)
  obtain ⟨hdescends, hlast, hle, -⟩ := solve_descends_from_one_evaluation false h
  exact ⟨outcome, session, h, hdescends, hlast, hle⟩

end Problem

end TrustRegion
