/-
Module: TrustRegion.Proofs.Search.Afresh
Purpose: Every evaluation is like the first. A writer and a buffer are used again and again and may be left
  behind half full by a callback that fails, but each callback finds them empty. What an evaluation comes to
  depends on the callback and on the state alone, never on what was evaluated before or on how that ended.
Main exports: Evaluator.afterAll, Problem.later, Problem.Serves.afterAll, Problem.evaluates_like_first,
  Problem.evaluate_sparse, Problem.evaluate_dense, Problem.evaluates_afresh
-/
import TrustRegion.Proofs.Search.Problem

namespace TrustRegion

variable {α : Type} [Scalar α]

/-- An evaluator after some states have been evaluated, with success or without. -/
def Evaluator.afterAll (e : Evaluator α) (states : List (Vec α)) : Evaluator α :=
  states.foldl (fun e state => (e.evaluate state).value.2) e

namespace Problem

omit [Scalar α] in
/-- A problem with its callback as it is after it has been asked `k` times. -/
def later (k : Nat) : Problem α → Problem α
  | .sparse callback measurements capacity =>
      .sparse (fun calls => callback (k + calls)) measurements capacity
  | .dense callback measurements => .dense (fun calls => callback (k + calls)) measurements

/-- How often a callback is asked about some states: once for each that has the right length. -/
def asksAbout (n : Nat) (states : List (Vec α)) : Nat :=
  states.countP fun state => state.size = n

variable {p : Problem α} {n calls : Nat} {e : Evaluator α}

/-- A state of another length is refused, and the callback is not asked. -/
theorem Serves.evaluate_of_size_ne (h : p.Serves n calls e) {state : Vec α} (size : state.size ≠ n) :
    e.evaluate state = (do
      return (.error (← (ProblemError.dimensionMismatch (.length state.size n)).logged), e)) := by
  unfold Evaluator.evaluate
  rw [h.states_eq, if_pos size]

/-- After some evaluations an evaluator serves the same problem, and has counted how often it asked. -/
theorem Serves.afterAll (h : p.Serves n calls e) (states : List (Vec α)) :
    p.Serves n (calls + asksAbout n states) (e.afterAll states) := by
  induction states generalizing calls e with
  | nil => exact h
  | cons state states ih =>
      by_cases size : state.size = n
      · obtain ⟨e', hserves, hanswer⟩ := h.evaluate_eq size
        have hcount : calls + asksAbout n (state :: states) = calls + 1 + asksAbout n states := by
          simp only [asksAbout, List.countP_cons, size, decide_true, if_true]
          omega
        rw [hcount, Evaluator.afterAll, List.foldl_cons, hanswer]
        exact ih hserves
      · have hcount : asksAbout n (state :: states) = asksAbout n states := by
          simp [asksAbout, size]
        rw [hcount, Evaluator.afterAll, List.foldl_cons, h.evaluate_of_size_ne size]
        exact ih h

/-- Sizes that are accepted once are accepted later. -/
theorem exists_evaluator_later (built : (p.evaluator n).value = .ok e) (k : Nat) :
    ∃ fresh, ((p.later k).evaluator n).value = .ok fresh := by
  cases p with
  | sparse callback measurements capacity =>
      simp only [evaluator, Evaluator.newSparse] at built
      simp only [later, evaluator, Evaluator.newSparse]
      split at built
      · cases built
      · exact ⟨_, rfl⟩
  | dense callback measurements =>
      simp only [evaluator, Evaluator.newDense] at built
      simp only [later, evaluator, Evaluator.newDense]
      split at built
      · cases built
      · exact ⟨_, rfl⟩

/-- An evaluation is the first one of a new evaluator whose callback is as it is then. -/
theorem evaluates_like_first (built : (p.evaluator n).value = .ok e) (earlier : List (Vec α))
    (state : Vec α) :
    ∃ fresh, ((p.later (asksAbout n earlier)).evaluator n).value = .ok fresh ∧
      ((e.afterAll earlier).evaluate state).events = (fresh.evaluate state).events ∧
      ((e.afterAll earlier).evaluate state).value.1 = (fresh.evaluate state).value.1 := by
  obtain ⟨fresh, hfresh⟩ := exists_evaluator_later built (asksAbout n earlier)
  have hserves := (serves_evaluator built).afterAll earlier
  have hserves' := serves_evaluator hfresh
  refine ⟨fresh, hfresh, ?_⟩
  by_cases size : state.size = n
  · obtain ⟨_, -, hanswer⟩ := hserves.evaluate_eq size
    obtain ⟨_, -, hanswer'⟩ := hserves'.evaluate_eq size
    have hsame : (p.later (asksAbout n earlier)).answer n 0 state =
        p.answer n (0 + asksAbout n earlier) state := by
      rw [Nat.zero_add]
      cases p <;> rfl
    rw [hanswer, hanswer', hsame]
    exact ⟨rfl, rfl⟩
  · rw [hserves.evaluate_of_size_ne size, hserves'.evaluate_of_size_ne size]
    exact ⟨rfl, rfl⟩

/-- What an evaluation comes to is what the callback makes of the state, handed an empty writer or a buffer
of zeros after it has been asked so often. -/
theorem value_evaluate (built : (p.evaluator n).value = .ok e) (earlier : List (Vec α))
    {state : Vec α} (size : state.size = n) :
    ((e.afterAll earlier).evaluate state).value.1 =
      (p.answer n (asksAbout n earlier) state).value := by
  have hserves := (serves_evaluator built).afterAll earlier
  rw [Nat.zero_add] at hserves
  obtain ⟨_, -, hanswer⟩ := hserves.evaluate_eq size
  rw [hanswer]
  rfl

section Sparse

variable (callback : SparseCallback α) (measurements capacity : Nat) (n k : Nat) (state : Vec α)

/-- The entries that a callback has had taken when it comes to its end. -/
def takenBy : List (JacobianEntry α) :=
  takenOf ((callback k state measurements).offers (.new measurements n capacity))

/-- Entries that were taken are a Jacobian. -/
theorem ofEntries_takenBy :
    SparseJacobian.ofEntries measurements n (takenBy callback measurements capacity n k state) =
      pure (.ok (.assembled measurements n (takenBy callback measurements capacity n k state))) := by
  refine SparseJacobian.ofEntries_eq fun e he => ?_
  rw [takenBy, Writing.takenOf_offers_new] at he
  exact (List.mem_filter.mp (List.mem_of_mem_take he)).2

/-- Through a writer the answer is the error of the callback, or its residuals with the Jacobian of the
entries that were taken. -/
theorem value_answer_sparse :
    (answer n k state (.sparse callback measurements capacity)).value =
      ((callback k state measurements).run (.new measurements n capacity)).value.1.map
        fun residuals =>
          { residuals := residuals.fit measurements
            jacobian := .sparse
              (.assembled measurements n (takenBy callback measurements capacity n k state)) } := by
  have hentries := (callback k state measurements).entries_run_new measurements n capacity
  simp only [answer, Logged.value_bind, takenBy, ← hentries]
  cases ((callback k state measurements).run (.new measurements n capacity)).value.1 <;> rfl

end Sparse

/-- In a buffer the answer is the error of the callback that is handed zeros, or its residuals with the
matrix that it left. -/
theorem value_answer_dense (callback : DenseCallback α) (measurements n k : Nat) (state : Vec α) :
    (answer n k state (.dense callback measurements)).value =
      (callback k state measurements (Vec.zeros (n * measurements % wordSize))).1.map fun residuals =>
        { residuals := residuals.fit measurements
          jacobian := .dense (matrixOfBuffer measurements n
            ((callback k state measurements (Vec.zeros (n * measurements % wordSize))).2.fit
              (n * measurements % wordSize))) } := by
  simp only [answer]
  rcases callback k state measurements (Vec.zeros (n * measurements % wordSize)) with
    ⟨error | residuals, buffer⟩ <;> rfl

/-- Writers and evaluators have no memory. From a new writer, every entry that a callback offers is
answered by its place and by how many were taken before, and what is taken in the end are the first entries
that lie in the grid, up to the capacity. Every evaluation, after any others and however these ended, is the
first one of a new evaluator. With a writer it fails only if the callback does, and otherwise its Jacobian
holds at each place the sum of the values that were taken for it; without one, the callback is handed zeros
each time. -/
theorem evaluates_afresh :
    (∀ {β : Type} (program : Writing α β) (measurements n capacity : Nat),
      (∀ before o after,
        program.offers (.new measurements n capacity) = before ++ o :: after →
          o.Answered measurements n capacity (takenOf before)) ∧
      (program.run (.new measurements n capacity)).value.2.entries.toList =
        (((program.offers (.new measurements n capacity)).map Offer.entry).filter
          fun e => e.inBounds measurements n).take capacity) ∧
    (∀ (p : Problem α) (n : Nat) (e : Evaluator α), (p.evaluator n).value = .ok e →
      ∀ (earlier : List (Vec α)) (state : Vec α),
        ∃ fresh, ((p.later (asksAbout n earlier)).evaluator n).value = .ok fresh ∧
          ((e.afterAll earlier).evaluate state).events = (fresh.evaluate state).events ∧
          ((e.afterAll earlier).evaluate state).value.1 = (fresh.evaluate state).value.1) ∧
    (∀ (callback : SparseCallback α) (measurements capacity n : Nat) (e : Evaluator α),
      ((sparse callback measurements capacity).evaluator n).value = .ok e →
      ∀ (earlier : List (Vec α)) (state : Vec α), state.size = n →
        ∃ entries,
          entries = ((((callback (asksAbout n earlier) state measurements).offers
            (.new measurements n capacity)).map Offer.entry).filter
              fun e => e.inBounds measurements n).take capacity ∧
          SparseJacobian.ofEntries measurements n entries =
            pure (.ok (.assembled measurements n entries)) ∧
          (∀ r i, r < measurements → i < n →
            StoredMatrix.stored (SparseJacobian.assembled measurements n entries).matrix r i =
              JacobianEntry.entryAt r i entries) ∧
          ((e.afterAll earlier).evaluate state).value.1 =
            ((callback (asksAbout n earlier) state measurements).run
              (.new measurements n capacity)).value.1.map fun residuals =>
                { residuals := residuals.fit measurements
                  jacobian := .sparse (.assembled measurements n entries) }) ∧
    ∀ (callback : DenseCallback α) (measurements n : Nat) (e : Evaluator α),
      ((dense callback measurements).evaluator n).value = .ok e →
      ∀ (earlier : List (Vec α)) (state zeros : Vec α), state.size = n →
        zeros = Vec.zeros (n * measurements % wordSize) →
        ((e.afterAll earlier).evaluate state).value.1 =
          (callback (asksAbout n earlier) state measurements zeros).1.map fun residuals =>
            { residuals := residuals.fit measurements
              jacobian := .dense (matrixOfBuffer measurements n
                ((callback (asksAbout n earlier) state measurements zeros).2.fit zeros.size)) } := by
  refine ⟨?_, fun p n e => evaluates_like_first, ?_, ?_⟩
  · intro β program measurements n capacity
    refine ⟨fun before o after => program.answered, ?_⟩
    rw [program.entries_run_new, program.takenOf_offers_new]
  · intro callback measurements capacity n e built earlier state size
    refine ⟨takenBy callback measurements capacity n (asksAbout n earlier) state,
      Writing.takenOf_offers_new _ _ _ _, ofEntries_takenBy .., ?_, ?_⟩
    · exact fun r i hr hi => SparseJacobian.stored_assemble hr hi
    · rw [value_evaluate built earlier size, value_answer_sparse]
  · rintro callback measurements n e built earlier state _ size rfl
    rw [value_evaluate built earlier size, value_answer_dense, Vec.size_zeros]

/-- A callback that first fails half-way, and from then on offers an entry, another one outside the grid, one
more at the first place and one for which there is no room, without a look at the answers. -/
def failsFirst : SparseCallback Float := fun calls state _ =>
  if calls = 0 then .add ⟨1, 0, 7.0⟩ fun _ => .done (.error (.callback "no answer"))
  else
    .add ⟨0, 0, 1.0⟩ fun _ => .add ⟨0, 1, 3.0⟩ fun _ => .add ⟨0, 0, 2.0⟩ fun _ =>
      .add ⟨1, 0, 5.0⟩ fun _ => .done (.ok state)

/-- After the failure its Jacobian is made of the two entries that are taken this time, the second of them
offered when there was one. A dense problem answers again from zeros. -/
theorem evaluates_afresh_failsFirst :
    (∃ o : Offer Float, o.Answered 2 1 2 [⟨0, 0, 1.0⟩] ∧ o.entry = ⟨0, 0, 2.0⟩ ∧ o.answer = .ok ()) ∧
    (∃ e, ((sparse failsFirst 2 2).evaluator 1).value = .ok e ∧
      ((e.afterAll [⟨#[1.0]⟩]).evaluate ⟨#[1.0]⟩).value.1 =
        .ok
          { residuals := Vec.fit 2 ⟨#[1.0]⟩
            jacobian := .sparse (.assembled 2 1 [⟨0, 0, 1.0⟩, ⟨0, 0, 2.0⟩]) } ∧
      ∃ fresh, ((later 1 (sparse failsFirst 2 2)).evaluator 1).value = .ok fresh ∧
        ((e.afterAll [⟨#[1.0]⟩]).evaluate ⟨#[1.0]⟩).value.1 =
          (fresh.evaluate ⟨#[1.0]⟩).value.1) ∧
    ∃ e evaluation, ((squareIsTwo : Problem Float).evaluator 1).value = .ok e ∧
      ((e.afterAll [⟨#[1.0]⟩]).evaluate ⟨#[1.0]⟩).value.1 = .ok evaluation := by
  obtain ⟨hwriter, hfirst, hsparse, hdense⟩ := evaluates_afresh (α := Float)
  refine ⟨?_, ?_, ?_⟩
  · obtain ⟨hanswered, -⟩ := hwriter (failsFirst 1 ⟨#[1.0]⟩ 2) 2 1 2
    have hthird := hanswered [_, _] ⟨_, ⟨0, 0, 2.0⟩⟩ [_] rfl
    exact ⟨_, hthird, rfl, hthird.taken.mpr ⟨⟨by decide, by decide⟩, by decide⟩⟩
  · obtain ⟨e, hbuilt⟩ : ∃ e, ((sparse failsFirst 2 2).evaluator 1).value = .ok e := ⟨_, rfl⟩
    obtain ⟨entries, hentries, -, -, hanswer⟩ :=
      hsparse failsFirst 2 2 1 e hbuilt [⟨#[1.0]⟩] ⟨#[1.0]⟩ rfl
    obtain ⟨fresh, hfresh, -, hsame⟩ :=
      hfirst (sparse failsFirst 2 2) 1 e hbuilt [⟨#[1.0]⟩] ⟨#[1.0]⟩
    obtain rfl : entries = [⟨0, 0, 1.0⟩, ⟨0, 0, 2.0⟩] := hentries
    exact ⟨e, hbuilt, hanswer, fresh, hfresh, hsame⟩
  · obtain ⟨e, hbuilt⟩ : ∃ e, ((squareIsTwo : Problem Float).evaluator 1).value = .ok e := ⟨_, rfl⟩
    exact ⟨e, _, hbuilt, hdense _ 1 1 e hbuilt [⟨#[1.0]⟩] ⟨#[1.0]⟩ _ rfl rfl⟩

end Problem

end TrustRegion
