/-
Module: TrustRegion.Proofs.Search.Problem
Purpose: Problems of either kind as their callers state them, and what a callback reports when it is
  asked. A callback is asked with a number and a state and never sees what an earlier call left
  behind, so what it reports depends on these two alone.
Main exports: Problem, Problem.solve, Problem.report, Problem.shape_of_report, Problem.answer,
  Problem.Serves, Problem.Serves.evaluate_eq, Problem.Serves.evaluate, Problem.Serves.evaluate_of_report
-/
import TrustRegion.Search.Run
import TrustRegion.Proofs.Jacobian.Assembly
import TrustRegion.Proofs.Jacobian.Offers

namespace TrustRegion

/-- A clock that stands still. -/
def Clock.stopped : Clock :=
  { attempt := fun _ => ⟨0⟩, elapsed := fun _ => ⟨0⟩, total := ⟨0⟩ }

/-- A problem as a caller states it: a callback with the sizes that go with it. -/
inductive Problem (α : Type) where
  | sparse (callback : SparseCallback α) (measurements capacity : Nat)
  | dense (callback : DenseCallback α) (measurements : Nat)

/-- What a callback does with a writer touches nothing but the entries. -/
theorem Writing.writer_run {α β : Type} (program : Writing α β) (w : JacobianWriter α) :
    ∃ entries, (program.run w).value.2 = { w with entries } :=
  ⟨_, program.run_eq w⟩

/-- A writer takes only entries that lie in its grid. -/
theorem Writing.inBounds_run {α β : Type} (program : Writing α β) {w : JacobianWriter α}
    (h : ∀ e ∈ w.entries.toList, e.inBounds w.measurements w.states = true) :
    ∀ e ∈ (program.run w).value.2.entries.toList, e.inBounds w.measurements w.states = true := by
  intro e he
  rw [run_eq, JacobianWriter.toList_holding, List.mem_append] at he
  rcases he with hold | hnew
  · exact h e hold
  · rw [takenOf_offers] at hnew
    exact (List.mem_filter.mp (List.mem_of_mem_take hnew)).2

namespace Problem

variable {α : Type}

/-- How the Jacobian of a problem is stored. -/
def storage : Problem α → Storage
  | .sparse .. => .sparse
  | .dense .. => .dense

/-- The number of measurements of a problem. -/
def measurements : Problem α → Nat
  | .sparse _ measurements _ => measurements
  | .dense _ measurements => measurements

/-- The linear algebra for the Jacobian of a problem, before it is used. -/
def backend (p : Problem α) : CholeskySolver α :=
  CholeskySolver.new p.storage

variable [Scalar α]

/-- Solve a problem by the entry point for its kind. -/
def solve (settings : Settings α) (clock : Clock) (debugHeard : Bool) (state : Vec α) :
    Problem α → Logged α (Solved α (CholeskySolver α))
  | .sparse callback measurements capacity =>
      solveSparse settings clock debugHeard callback state measurements capacity
  | .dense callback measurements => solveDense settings clock debugHeard callback state measurements

/-- A problem ready to be asked, if its sizes are accepted. -/
def evaluator (states : Nat) : Problem α → Logged α (Except (ProblemError α) (Evaluator α))
  | .sparse callback measurements capacity =>
      Evaluator.newSparse callback states measurements capacity
  | .dense callback measurements => Evaluator.newDense callback states measurements

/-- What the callback reports when it has been asked `calls` times before and is handed `state`:
the residuals and the Jacobian it writes, or nothing if it fails. -/
def report (states calls : Nat) (state : Vec α) : Problem α → Option (Evaluation α)
  | .sparse callback measurements capacity =>
      let writer := JacobianWriter.new measurements states capacity
      match ((callback calls state measurements).run writer).value with
      | (.error _, _) => none
      | (.ok residuals, writer) =>
          let entries := writer.entries.toList
          let matrix := SparseJacobian.assemble measurements states entries
          some
            { residuals := residuals.fit measurements
              jacobian := .sparse { measurements, states, entries, matrix } }
  | .dense callback measurements =>
      let length := states * measurements % wordSize
      match callback calls state measurements (Vec.zeros length) with
      | (.error _, _) => none
      | (.ok residuals, buffer) =>
          some
            { residuals := residuals.fit measurements
              jacobian := .dense (matrixOfBuffer measurements states (buffer.fit length)) }

/-- The error of the callback when it has been asked `calls` times before and is handed `state`, if it
fails there. -/
def failure? (states calls : Nat) (state : Vec α) : Problem α → Option (ProblemError α)
  | .sparse callback measurements capacity =>
      match ((callback calls state measurements).run
        (JacobianWriter.new measurements states capacity)).value with
      | (.error error, _) => some error
      | (.ok _, _) => none
  | .dense callback measurements =>
      match callback calls state measurements (Vec.zeros (states * measurements % wordSize)) with
      | (.error error, _) => some error
      | (.ok _, _) => none

/-- What an evaluation comes to, with its events, when the callback has been asked `calls` times before and
is handed `state`, a writer that has taken nothing or a buffer of zeros. -/
def answer (states calls : Nat) (state : Vec α) :
    Problem α → Logged α (Except (ProblemError α) (Evaluation α))
  | .sparse callback measurements capacity => do
      let (answer, writer) ←
        (callback calls state measurements).run (JacobianWriter.new measurements states capacity)
      match answer with
      | .error error => pure (.error error)
      | .ok residuals =>
          let jacobian := SparseJacobian.assembled measurements states writer.entries.toList
          pure (.ok { residuals := residuals.fit measurements, jacobian := .sparse jacobian })
  | .dense callback measurements =>
      let length := states * measurements % wordSize
      match callback calls state measurements (Vec.zeros length) with
      | (.error error, _) => pure (.error error)
      | (.ok residuals, buffer) =>
          let matrix := matrixOfBuffer measurements states (buffer.fit length)
          pure (.ok { residuals := residuals.fit measurements, jacobian := .dense matrix })

/-- What is reported is what an evaluation comes to if it does not fail. -/
theorem report_eq_some_iff {p : Problem α} {states calls : Nat} {state : Vec α}
    {evaluation : Evaluation α} :
    p.report states calls state = some evaluation ↔
      (p.answer states calls state).value = .ok evaluation := by
  cases p with
  | sparse callback measurements capacity =>
      simp only [report, answer, Logged.value_bind]
      rcases ((callback calls state measurements).run
        (JacobianWriter.new measurements states capacity)).value with ⟨error | residuals, writer⟩
      · exact iff_of_false (by simp) (by simp)
      · exact Option.some_inj.trans (iff_of_eq (Except.ok.injEq _ _).symm)
  | dense callback measurements =>
      simp only [report, answer]
      rcases callback calls state measurements (Vec.zeros (states * measurements % wordSize)) with
        ⟨error | residuals, buffer⟩
      · exact iff_of_false (by simp) (by simp)
      · exact Option.some_inj.trans (iff_of_eq (Except.ok.injEq _ _).symm)

theorem failure?_eq_some_iff {p : Problem α} {states calls : Nat} {state : Vec α}
    {error : ProblemError α} :
    p.failure? states calls state = some error ↔
      (p.answer states calls state).value = .error error := by
  cases p with
  | sparse callback measurements capacity =>
      simp only [failure?, answer, Logged.value_bind]
      rcases ((callback calls state measurements).run
        (JacobianWriter.new measurements states capacity)).value with ⟨given | residuals, writer⟩
      · exact Option.some_inj.trans (iff_of_eq (Except.error.injEq _ _).symm)
      · exact iff_of_false (by simp) (by simp)
  | dense callback measurements =>
      simp only [failure?, answer]
      rcases callback calls state measurements (Vec.zeros (states * measurements % wordSize)) with
        ⟨given | residuals, buffer⟩
      · exact Option.some_inj.trans (iff_of_eq (Except.error.injEq _ _).symm)
      · exact iff_of_false (by simp) (by simp)

/-- What is reported has the storage and the sizes of the problem. -/
theorem shape_of_report {p : Problem α} {states calls : Nat} {state : Vec α}
    {evaluation : Evaluation α} (h : p.report states calls state = some evaluation) :
    evaluation.jacobian.storage = p.storage ∧
      evaluation.jacobian.stored.rows = p.measurements ∧
      evaluation.jacobian.stored.cols = states ∧ evaluation.residuals.size = p.measurements := by
  cases p with
  | sparse callback measurements capacity =>
      unfold report at h
      dsimp only at h
      split at h
      · cases h
      · cases h
        exact ⟨rfl, (SparseJacobian.shape_assemble measurements states _).1,
          (SparseJacobian.shape_assemble measurements states _).2, Vec.size_fit _ _⟩
  | dense callback measurements =>
      unfold report at h
      dsimp only at h
      split at h
      · cases h
      · cases h
        exact ⟨rfl, rfl, rfl, Vec.size_fit _ _⟩

/-- The equation `x ^ 2 = 2`. -/
def squareIsTwo : Problem α :=
  .dense
    (fun _ state _ _ =>
      let x := state.entry 0
      (.ok ⟨#[x * x - 2.0]⟩, ⟨#[2.0 * x]⟩)) 1

/-- Both entry points are the same search with another linear algebra. -/
theorem solve_eq (settings : Settings α) (clock : Clock) (debugHeard : Bool) (state : Vec α)
    (p : Problem α) :
    p.solve settings clock debugHeard state =
      solveWith settings clock debugHeard p.backend (p.evaluator state.size) state := by
  cases p <;> rfl

/-- An evaluator that asks the callback of a problem, `calls` times so far. -/
inductive Serves (states : Nat) : Problem α → Nat → Evaluator α → Prop where
  | sparse {callback : SparseCallback α} {measurements capacity calls : Nat}
      {entries : Array (JacobianEntry α)} :
      Serves states (.sparse callback measurements capacity) calls
        (.sparse { callback, writer := { measurements, states, capacity, entries }, calls })
  | dense {callback : DenseCallback α} {measurements calls : Nat} {buffer : Vec α}
      (length : buffer.size = states * measurements % wordSize) :
      Serves states (.dense callback measurements) calls
        (.dense { callback, states, measurements, buffer, calls })

/-- The evaluator of a problem asks its callback and has not done so yet. -/
theorem serves_evaluator {p : Problem α} {states : Nat} {e : Evaluator α}
    (h : (p.evaluator states).value = .ok e) : p.Serves states 0 e := by
  cases p with
  | sparse callback measurements capacity =>
      simp only [evaluator, Evaluator.newSparse] at h
      split at h
      · cases h
      · cases h
        exact .sparse
  | dense callback measurements =>
      simp only [evaluator, Evaluator.newDense] at h
      split at h
      · cases h
      · cases h
        exact .dense (Vec.size_zeros _)

omit [Scalar α] in
/-- The number of calls that an evaluator has counted. -/
theorem Serves.calls_eq {p : Problem α} {states calls : Nat} {e : Evaluator α}
    (h : p.Serves states calls e) : e.calls = calls := by
  cases h <;> rfl

omit [Scalar α] in
theorem Serves.states_eq {p : Problem α} {states calls : Nat} {e : Evaluator α}
    (h : p.Serves states calls e) : e.states = states := by
  cases h <;> rfl

/-- A state of the right length is answered by the callback, which is handed an empty writer or a buffer
of zeros, whatever was evaluated before. -/
theorem Serves.evaluate_eq {p : Problem α} {states calls : Nat} {e : Evaluator α} {state : Vec α}
    (h : p.Serves states calls e) (size : state.size = states) :
    ∃ e', p.Serves states (calls + 1) e' ∧
      e.evaluate state = (do return (← p.answer states calls state, e')) := by
  have hsize : ¬ state.size ≠ e.states := not_not.mpr (size.trans h.states_eq.symm)
  cases h with
  | @sparse callback measurements capacity calls entries =>
      have hclear : (JacobianWriter.clear { measurements, states, capacity, entries }) =
        JacobianWriter.new (α := α) measurements states capacity := rfl
      have hinBounds := Writing.inBounds_run (callback calls state measurements)
        (w := JacobianWriter.new measurements states capacity) fun e he => nomatch he
      obtain ⟨taken, htaken⟩ := Writing.writer_run (callback calls state measurements)
        (JacobianWriter.new measurements states capacity)
      rcases hrun : ((callback calls state measurements).run
        (JacobianWriter.new measurements states capacity)).value with ⟨given, writer⟩
      rw [hrun] at htaken hinBounds
      obtain rfl : writer = _ := htaken
      have hbuilt : SparseJacobian.ofEntries measurements states taken.toList = _ :=
        SparseJacobian.ofEntries_eq hinBounds
      let left : JacobianWriter α :=
        { measurements, states, capacity, entries := if given.isOk then #[] else taken }
      refine ⟨.sparse { callback, writer := left, calls := calls + 1 }, .sparse, ?_⟩
      rw [Evaluator.evaluate, if_neg hsize]
      simp only [SparseEvaluator.ask, hclear, answer, bind_assoc]
      apply Logged.bind_congr_value
      rw [hrun]
      cases given with
      | error error => rfl
      | ok residuals =>
          simp only [hbuilt]
          rfl
  | @dense callback measurements calls buffer length =>
      rw [Evaluator.evaluate, if_neg hsize]
      rcases hrun : callback calls state measurements
        (Vec.zeros (states * measurements % wordSize)) with ⟨given, written⟩
      refine ⟨_, .dense (Vec.size_fit _ written), ?_⟩
      simp only [DenseEvaluator.ask, length, answer, hrun]
      cases given <;> rfl

/-- A state is evaluated only if it has the right length. -/
theorem Serves.size_of_evaluate {p : Problem α} {states calls : Nat} {e e' : Evaluator α}
    {state : Vec α} {evaluation : Evaluation α} (h : p.Serves states calls e)
    (asked : (e.evaluate state).value = (.ok evaluation, e')) : state.size = states := by
  unfold Evaluator.evaluate at asked
  split at asked
  · cases asked
  · rename_i hsize
    exact (Decidable.not_not.mp hsize).trans h.states_eq

/-- An evaluation is what the callback reports at the state it is handed, whatever was evaluated
before. -/
theorem Serves.evaluate {p : Problem α} {states calls : Nat} {e e' : Evaluator α} {state : Vec α}
    {evaluation : Evaluation α} (h : p.Serves states calls e)
    (asked : (e.evaluate state).value = (.ok evaluation, e')) :
    p.report states calls state = some evaluation ∧ p.Serves states (calls + 1) e' := by
  obtain ⟨left, hserves, hanswer⟩ := h.evaluate_eq (h.size_of_evaluate asked)
  rw [hanswer] at asked
  obtain ⟨hvalue, rfl⟩ := Prod.mk.inj asked
  exact ⟨report_eq_some_iff.mpr hvalue, hserves⟩

/-- Where the callback reports something, the evaluation succeeds: no entry that was taken lies outside
the Jacobian. -/
theorem Serves.evaluate_of_report {p : Problem α} {states calls : Nat} {e : Evaluator α}
    {state : Vec α} {evaluation : Evaluation α} (h : p.Serves states calls e)
    (size : state.size = states) (reported : p.report states calls state = some evaluation) :
    ∃ e', (e.evaluate state).value = (.ok evaluation, e') := by
  obtain ⟨e', -, hanswer⟩ := h.evaluate_eq size
  refine ⟨e', ?_⟩
  rw [hanswer]
  exact congrArg (·, e') (report_eq_some_iff.mp reported)

/-- Where the callback fails, so does the evaluation, and the callback has been asked. -/
theorem Serves.evaluate_of_failure {p : Problem α} {states calls : Nat} {e : Evaluator α}
    {state : Vec α} {error : ProblemError α} (h : p.Serves states calls e)
    (size : state.size = states) (failed : p.failure? states calls state = some error) :
    ∃ e', (e.evaluate state).value = (.error error, e') ∧ e'.calls = calls + 1 := by
  obtain ⟨e', hserves, hanswer⟩ := h.evaluate_eq size
  refine ⟨e', ?_, hserves.calls_eq⟩
  rw [hanswer]
  exact congrArg (·, e') (failure?_eq_some_iff.mp failed)

end Problem

end TrustRegion
