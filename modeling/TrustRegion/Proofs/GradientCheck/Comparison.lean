/-
Module: TrustRegion.Proofs.GradientCheck.Comparison
Purpose: How a check of a gradient goes. A variable that does not exist is refused before the callback is
  asked; otherwise the callback is asked at the state and, if it answers, once more with the variable moved,
  and the two answers are compared. What the comparison comes to is read off these answers alone.
Main exports: Vec.moved, Problem.gradientCheck, Problem.ChecksTo, Problem.Checks, Problem.exists_checksTo,
  Problem.ChecksTo.checks, Problem.rows_of_gradientCheck
-/
import TrustRegion.GradientCheck
import TrustRegion.Proofs.Search.Afresh

namespace TrustRegion

variable {α : Type} [Scalar α]

/-- A state with one variable moved as far as a check moves it. -/
def Vec.moved (state : Vec α) (index : Nat) : Vec α :=
  state.modify index fun x => x + checkDistance

@[simp] theorem Vec.size_moved (state : Vec α) (index : Nat) :
    (state.moved index).size = state.size :=
  size_modify _ _ _

/-- Only the one variable is moved. -/
theorem Vec.entry_moved {state : Vec α} {index : Nat} (h : index < state.size) (i : Nat) :
    (state.moved index).entry i =
      if index = i then state.entry i + checkDistance else state.entry i :=
  entry_modify _ h i

/-! ### The rows of a comparison -/

/-- There is a row for each place that both residuals and the column have. -/
theorem length_gradientRows (index : Nat) (before after reported : Vec α) :
    (gradientRows index before after reported).length =
      min before.size (min after.size reported.size) := by
  rw [gradientRows, List.length_map, List.length_range]

theorem getElem?_gradientRows (index : Nat) {before after reported : Vec α} {i : Nat}
    (h : i < min before.size (min after.size reported.size)) :
    (gradientRows index before after reported)[i]? =
      some (GradientRow.make index i (reported.entry i)
        ((after.entry i - before.entry i) / checkDistance)) := by
  rw [gradientRows, List.getElem?_map, List.getElem?_range h, Option.map_some]

/-- A row compares what was reported of its measurement with what was observed of it. -/
theorem eq_make_of_getElem? {index : Nat} {before after reported : Vec α} {i : Nat}
    {row : GradientRow α} (h : (gradientRows index before after reported)[i]? = some row) :
    row = GradientRow.make index i (reported.entry i)
      ((after.entry i - before.entry i) / checkDistance) := by
  rw [gradientRows, List.getElem?_map, Option.map_eq_some_iff] at h
  obtain ⟨k, hk, rfl⟩ := h
  obtain ⟨-, rfl⟩ := List.getElem?_eq_some_iff.mp hk
  rw [List.getElem_range]

namespace Problem

variable {p : Problem α} {index : Nat} {state : Vec α} {e : Evaluator α}

/-- Check a column of the Jacobian of a problem by the entry point for its kind. -/
def gradientCheck (index : Nat) (state : Vec α) :
    Problem α → Logged α (Except (ProblemError α) (GradientReport α))
  | .sparse callback measurements capacity =>
      checkGradientSparse index callback state measurements capacity
  | .dense callback measurements => checkGradientDense index callback state measurements

theorem gradientCheck_eq (p : Problem α) (index : Nat) (state : Vec α) :
    p.gradientCheck index state = checkGradientWith index state (p.evaluator state.size) := by
  cases p <;> rfl

/-- The ways that a check can go: the states at which the callback is asked, in order, and what the check
comes to. -/
inductive ChecksTo (p : Problem α) (index : Nat) (state : Vec α) :
    List (Vec α) → Except (ProblemError α) (GradientReport α) → Prop where
  | refused (absent : state.size ≤ index) :
      ChecksTo p index state [] (.error (.invalidInput (.noSuchVariable index state.size)))
  /-- The callback fails at the state itself. -/
  | failed {error : ProblemError α} (present : index < state.size)
      (base : (p.answer state.size 0 state).value = .error error) :
      ChecksTo p index state [state] (.error error)
  /-- The callback fails when the variable is moved. -/
  | failedMoved {base : Evaluation α} {error : ProblemError α} (present : index < state.size)
      (answered : (p.answer state.size 0 state).value = .ok base)
      (shifted : (p.answer state.size 1 (state.moved index)).value = .error error) :
      ChecksTo p index state [state, state.moved index] (.error error)
  | compared {base shifted : Evaluation α} (present : index < state.size)
      (answered : (p.answer state.size 0 state).value = .ok base)
      (answeredMoved : (p.answer state.size 1 (state.moved index)).value = .ok shifted) :
      ChecksTo p index state [state, state.moved index]
        (.ok ⟨gradientRows index base.residuals shifted.residuals
          (base.jacobian.partialDerivatives index)⟩)

/-- A check goes one of these ways. -/
theorem exists_checksTo (p : Problem α) (index : Nat) (state : Vec α) :
    ∃ asked answer, p.ChecksTo index state asked answer := by
  rcases Nat.lt_or_ge index state.size with present | absent
  · cases answered : (p.answer state.size 0 state).value with
    | error error => exact ⟨_, _, .failed present answered⟩
    | ok base =>
        cases answeredMoved : (p.answer state.size 1 (state.moved index)).value with
        | error error => exact ⟨_, _, .failedMoved present answered answeredMoved⟩
        | ok shifted => exact ⟨_, _, .compared present answered answeredMoved⟩
  · exact ⟨_, _, .refused absent⟩

/-- What a check of a problem whose sizes are accepted does and comes to: its evaluator evaluates some states
in order, asks the callback once for each of them and for nothing else, and the entry point hands on the
answer, which depends on what the callback makes of these states alone. -/
structure Checks (p : Problem α) (index : Nat) (state : Vec α) (asked : List (Vec α))
    (answer : Except (ProblemError α) (GradientReport α)) : Prop where
  evaluates : ∃ e, (p.evaluator state.size).value = .ok e ∧
    (checkGradient index state e).value = (answer, e.afterAll asked) ∧
    (e.afterAll asked).calls = asked.length
  comes : (p.gradientCheck index state).value = answer
  reads : ∀ (q : Problem α) (e : Evaluator α), (q.evaluator state.size).value = .ok e →
    (∀ k x, asked[k]? = some x →
      (q.answer state.size k x).value = (p.answer state.size k x).value) →
    (q.gradientCheck index state).value = answer

namespace ChecksTo

variable {asked : List (Vec α)} {answer : Except (ProblemError α) (GradientReport α)}

/-- All the states that a check asks about are as long as the one that it is made at. -/
theorem size_asked (h : p.ChecksTo index state asked answer) :
    ∀ x, x ∈ asked → x.size = state.size := by
  cases h <;> simp

theorem calls_eq (h : p.ChecksTo index state asked answer)
    (built : (p.evaluator state.size).value = .ok e) : (e.afterAll asked).calls = asked.length := by
  have hserves := (serves_evaluator built).afterAll asked
  rw [hserves.calls_eq, Nat.zero_add, asksAbout, List.countP_eq_length]
  simpa using h.size_asked

/-- A check goes through the states that the way names and ends with its answer. -/
theorem value_eq (h : p.ChecksTo index state asked answer)
    (built : (p.evaluator state.size).value = .ok e) :
    (checkGradient index state e).value = (answer, e.afterAll asked) := by
  have hserves := serves_evaluator built
  have hstates : e.states = state.size := hserves.states_eq
  have hpresent (present : index < state.size) : ¬ e.states ≤ index :=
    Nat.not_le.mpr (present.trans_eq hstates.symm)
  -- the evaluator that the first evaluation leaves serves the second one
  obtain ⟨e₁, hserves₁, hbase⟩ := hserves.evaluate_eq (rfl : state.size = state.size)
  obtain ⟨e₂, -, hmoved⟩ := hserves₁.evaluate_eq (Vec.size_moved state index)
  unfold Vec.moved at hmoved
  cases h with
  | refused absent =>
      rw [checkGradient, if_pos (hstates.trans_le absent), hstates]
      rfl
  | failed present base =>
      rw [checkGradient, if_neg (hpresent present)]
      simp only [Evaluator.afterAll, List.foldl_cons, List.foldl_nil, hbase, base,
        Logged.value_bind, Logged.value_pure]
  | failedMoved present answered shifted =>
      unfold Vec.moved at shifted
      rw [checkGradient, if_neg (hpresent present)]
      simp only [Evaluator.afterAll, Vec.moved, List.foldl_cons, List.foldl_nil, hbase, answered, hmoved,
        shifted, Logged.value_bind, Logged.value_pure]
  | compared present answered answeredMoved =>
      unfold Vec.moved at answeredMoved
      rw [checkGradient, if_neg (hpresent present)]
      simp only [Evaluator.afterAll, Vec.moved, List.foldl_cons, List.foldl_nil, hbase, answered, hmoved,
        answeredMoved, Logged.value_bind, Logged.value_pure]

/-- The entry point hands on what the check comes to. -/
theorem comes (h : p.ChecksTo index state asked answer)
    (built : (p.evaluator state.size).value = .ok e) : (p.gradientCheck index state).value = answer := by
  rw [gradientCheck_eq, checkGradientWith, Logged.value_bind, built]
  simp only [Logged.value_bind, Logged.value_pure, h.value_eq built]

/-- The way depends on what the callback makes of the states that are asked about alone. -/
theorem congr (h : p.ChecksTo index state asked answer) {q : Problem α}
    (same : ∀ k x, asked[k]? = some x →
      (q.answer state.size k x).value = (p.answer state.size k x).value) :
    q.ChecksTo index state asked answer := by
  cases h with
  | refused absent => exact .refused absent
  | failed present base => exact .failed present ((same 0 _ rfl).trans base)
  | failedMoved present answered shifted =>
      exact .failedMoved present ((same 0 _ rfl).trans answered) ((same 1 _ rfl).trans shifted)
  | compared present answered answeredMoved =>
      exact .compared present ((same 0 _ rfl).trans answered) ((same 1 _ rfl).trans answeredMoved)

/-- A check does and comes to what the way says that it goes. -/
theorem checks (h : p.ChecksTo index state asked answer)
    (built : (p.evaluator state.size).value = .ok e) : p.Checks index state asked answer where
  evaluates := ⟨e, built, h.value_eq built, h.calls_eq built⟩
  comes := h.comes built
  reads _ _ built' same := (h.congr same).comes built'

end ChecksTo

/-- A report holds the rows of a comparison of two answers. -/
theorem rows_of_gradientCheck {report : GradientReport α}
    (h : (p.gradientCheck index state).value = .ok report) :
    ∃ before after reported, report.rows = gradientRows index before after reported := by
  cases hbuilt : (p.evaluator state.size).value with
  | error error =>
      rw [gradientCheck_eq, checkGradientWith, Logged.value_bind, hbuilt] at h
      cases h
  | ok e =>
      obtain ⟨asked, answer, hgoes⟩ := exists_checksTo p index state
      obtain rfl : answer = .ok report := ((hgoes.comes hbuilt).symm.trans h)
      cases hgoes with
      | compared _ _ _ => exact ⟨_, _, _, rfl⟩

end Problem

end TrustRegion
