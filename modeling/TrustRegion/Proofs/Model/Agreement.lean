/-
Module: TrustRegion.Proofs.Model.Agreement
Purpose: A model is the same problem whichever kind of callback it is made into. Without rounding, the
  entries that it reports add up to the same derivatives in a matrix of entries and in a buffer, in
  any order and however often a place is reported, so both entry points come to the same result.
Main exports: ModelValues.Fits, Model.accumulate_eq, Model.Fits, Model.problems, Model.report_of_fits,
  Model.agree, Model.sparse_dense_agree_unless_meanTimeUndefined
-/
import TrustRegion.Model
import TrustRegion.Proofs.Jacobian.Layout
import TrustRegion.Proofs.Jacobian.Views
import TrustRegion.Proofs.Search.Level
import TrustRegion.Proofs.Search.Lockstep

namespace TrustRegion

/-- Values of a model that fit the sizes of a problem: the writer has room for the entries, and each of them
lies in the grid and has its place in the buffer. -/
def ModelValues.Fits {α : Type} (values : ModelValues α) (states measurements capacity : ℕ) : Prop :=
  values.entries.length ≤ capacity ∧
    ∀ e ∈ values.entries, e.inBounds measurements states = true ∧
      e.row * states + e.col < states * measurements % wordSize

/-! ### Entries in a buffer -/

@[simp] theorem Vec.entry_zeros {α : Type} [Scalar α] (n k : ℕ) :
    (Vec.zeros n : Vec α).entry k = 0 := by
  by_cases h : k < n
  · exact entry_ofFn h
  · exact entry_of_size_le ((size_zeros n).trans_le (not_lt.mp h))

namespace Model

/-- Accumulating entries that have their places in a buffer adds to each place what is reported
there. -/
theorem accumulate_eq (ignoresRefusals : Bool) {states : ℕ} {entries : List (JacobianEntry ℝ)}
    {buffer : Vec ℝ}
    (h : ∀ e ∈ entries, e.col < states ∧ e.row * states + e.col < buffer.size) :
    ∃ buffer', accumulate ignoresRefusals states entries buffer = (.ok (), buffer') ∧
      buffer'.size = buffer.size ∧
      ∀ row col, col < states →
        buffer'.entry (row * states + col) =
          buffer.entry (row * states + col) + entrySum row col entries := by
  induction entries generalizing buffer with
  | nil => exact ⟨buffer, rfl, rfl, fun _ _ _ => by rw [entrySum_nil, add_zero]⟩
  | cons e entries ih =>
      obtain ⟨hcol, hplace⟩ := h e List.mem_cons_self
      have hrest : ∀ e' ∈ entries, e'.col < states ∧ e'.row * states + e'.col <
          (buffer.modify (e.row * states + e.col) fun old => old + e.value).size := by
        intro e' he'
        rw [Vec.size_modify]
        exact h e' (List.mem_cons_of_mem _ he')
      obtain ⟨buffer', haccumulate, hsize, hentry⟩ := ih hrest
      refine ⟨buffer', ?_, hsize.trans (Vec.size_modify _ _ _), fun row col hcol' => ?_⟩
      · have hplace? : place? states buffer.size e = some (e.row * states + e.col) :=
          if_pos ⟨hcol, hplace⟩
        rw [accumulate, hplace?]
        exact haccumulate
      · rw [hentry row col hcol', Vec.entry_modify _ hplace, entrySum_cons]
        simp only [place_eq_iff hcol hcol']
        split
        · rw [add_assoc]
        · rw [zero_add]

/-! ### Entries through a writer -/

/-- Entries that lie in the grid and for which there is room are all taken. -/
theorem run_offer {α : Type} (ignoresRefusals : Bool) (residuals : Vec α)
    {entries : List (JacobianEntry α)} {w : JacobianWriter α}
    (inBounds : ∀ e ∈ entries, e.inBounds w.measurements w.states = true)
    (room : w.size + entries.length ≤ w.capacity) :
    ∃ w', ((offer ignoresRefusals residuals entries).run w).value = (.ok residuals, w') ∧
      w'.entries.toList = w.entries.toList ++ entries := by
  induction entries generalizing w with
  | nil => exact ⟨w, rfl, (List.append_nil _).symm⟩
  | cons e entries ih =>
      rw [List.length_cons] at room
      have hlast : ¬ w.capacity ≤ w.size := by omega
      have hrefusal : w.refusal? e = none := by
        simp [JacobianWriter.refusal?, inBounds e List.mem_cons_self, hlast]
      have hroom : (w.entries.push e).size + entries.length ≤ w.capacity := by
        rw [Array.size_push, Nat.add_assoc, Nat.add_comm 1]
        exact room
      obtain ⟨w', hrun, htaken⟩ := ih (w := { w with entries := w.entries.push e })
        (fun e' he' => inBounds e' (List.mem_cons_of_mem _ he')) hroom
      refine ⟨w', ?_, ?_⟩
      · simp only [offer, Writing.run, JacobianWriter.add, hrefusal, Logged.value_bind,
          Logged.value_pure]
        exact hrun
      · rw [htaken, Array.toList_push, List.append_assoc]
        rfl

/-! ### One model as two problems -/

/-- A model that fits the sizes of a problem: it never reports more entries than the writer has room
for, and each of them lies in the grid and has its place in the buffer, whose length is the number of
places as a word. -/
def Fits {α : Type} (model : Model α) (states measurements capacity : ℕ) : Prop :=
  ∀ (calls : ℕ) (state : Vec α) (values : ModelValues α), state.size = states →
    model.values calls state = .ok values → values.Fits states measurements capacity

/-- Where the places can be counted in a word, an entry in the grid has its place in the buffer. -/
theorem fits_of_inBounds {α : Type} {model : Model α} {states measurements capacity : ℕ}
    (small : states * measurements < wordSize)
    (h : ∀ (calls : ℕ) (state : Vec α) (values : ModelValues α), state.size = states →
      model.values calls state = .ok values →
        values.entries.length ≤ capacity ∧
          ∀ e ∈ values.entries, e.inBounds measurements states = true) :
    model.Fits states measurements capacity := by
  intro calls state values size hvalues
  obtain ⟨hlength, hentries⟩ := h calls state values size hvalues
  refine ⟨hlength, fun e he => ⟨hentries e he, ?_⟩⟩
  have hinBounds := hentries e he
  simp only [JacobianEntry.inBounds, Bool.and_eq_true, decide_eq_true_eq] at hinBounds
  obtain ⟨hrow, hcol⟩ := hinBounds
  rw [Nat.mod_eq_of_lt small]
  exact place_lt hrow hcol

variable {model : Model ℝ} {values : ModelValues ℝ} {states measurements capacity calls : ℕ}
  {state : Vec ℝ}

/-- Values that fit have all their entries taken. -/
theorem run_sparseCallback (fits : values.Fits states measurements capacity)
    (answered : model.values calls state = .ok values) :
    ∃ writer, ((model.sparseCallback calls state measurements).run
        (JacobianWriter.new measurements states capacity)).value = (.ok values.residuals, writer) ∧
      writer.entries.toList = values.entries := by
  obtain ⟨hlength, hentries⟩ := fits
  have hroom : (JacobianWriter.new measurements states capacity : JacobianWriter ℝ).size +
      values.entries.length ≤ capacity := by
    rw [JacobianWriter.size, JacobianWriter.new, Array.size_empty, Nat.zero_add]
    exact hlength
  obtain ⟨writer, hrun, htaken⟩ := run_offer model.ignoresRefusals values.residuals
    (w := JacobianWriter.new measurements states capacity) (fun e he => (hentries e he).1) hroom
  refine ⟨writer, ?_, htaken⟩
  unfold sparseCallback
  rw [answered]
  exact hrun

/-- A model that answers through a writer reports its residuals and the sums of its entries. -/
theorem report_sparse (fits : values.Fits states measurements capacity)
    (answered : model.values calls state = .ok values) :
    ∃ evaluation,
      (Problem.sparse model.sparseCallback measurements capacity).report states calls state =
        some evaluation ∧
      evaluation.residuals = values.residuals.fit measurements ∧
      ∀ r i, r < measurements → i < states →
        evaluation.jacobian.slope r i = entrySum r i values.entries := by
  obtain ⟨writer, hrun, htaken⟩ := run_sparseCallback fits answered
  simp only [Problem.report, hrun, htaken]
  exact ⟨_, rfl, rfl, fun r i hr hi => SparseJacobian.value_assemble values.entries hr hi⟩

/-- A model that answers in a buffer reports its residuals and the sums of its entries. -/
theorem report_dense (fits : values.Fits states measurements capacity) (size : state.size = states)
    (answered : model.values calls state = .ok values) :
    ∃ evaluation,
      (Problem.dense model.denseCallback measurements).report states calls state =
        some evaluation ∧
      evaluation.residuals = values.residuals.fit measurements ∧
      ∀ r i, r < measurements → i < states →
        evaluation.jacobian.slope r i = entrySum r i values.entries := by
  obtain ⟨-, hentries⟩ := fits
  set length := states * measurements % wordSize with hlength
  have hplaces : ∀ e ∈ values.entries,
      e.col < states ∧ e.row * states + e.col < (Vec.zeros length : Vec ℝ).size := by
    intro e he
    obtain ⟨hinBounds, hplace⟩ := hentries e he
    simp only [JacobianEntry.inBounds, Bool.and_eq_true, decide_eq_true_eq] at hinBounds
    exact ⟨hinBounds.2, hplace.trans_eq (Vec.size_zeros _).symm⟩
  obtain ⟨buffer, haccumulate, hsize, hentry⟩ := accumulate_eq model.ignoresRefusals hplaces
  have hcallback : model.denseCallback calls state measurements (Vec.zeros length) =
      (.ok values.residuals, buffer) := by
    unfold denseCallback
    rw [answered]
    simp only [size, haccumulate]
  simp only [Problem.report, ← hlength, hcallback]
  refine ⟨_, rfl, rfl, fun r i hr hi => ?_⟩
  have hslope : Jacobian.slope (.dense (matrixOfBuffer measurements states (buffer.fit length))) r i =
      (buffer.fit length).entry (r * states + i) := by
    show Entry.value (StoredMatrix.stored (StoredMatrix.ofFull _) r i) = _
    rw [StoredMatrix.stored_ofFull, matrixOfBuffer, Matrix.cell?_ofFn hr hi, Entry.value_some]
  rw [hslope, Vec.fit_eq_self (hsize.trans (Vec.size_zeros _)), hentry r i hi, Vec.entry_zeros,
    zero_add]

/-- The problems that a model is, through a writer and in a buffer. -/
def problems {α : Type} [Scalar α] (model : Model α) (measurements capacity : ℕ) : List (Problem α) :=
  [.sparse model.sparseCallback measurements capacity, .dense model.denseCallback measurements]

variable {p : Problem ℝ}

theorem mem_problems : p ∈ model.problems measurements capacity ↔
    p = .sparse model.sparseCallback measurements capacity ∨
      p = .dense model.denseCallback measurements := by
  rw [problems, List.mem_cons, List.mem_singleton]

theorem sparse_mem_problems (model : Model ℝ) (measurements capacity : ℕ) :
    .sparse model.sparseCallback measurements capacity ∈ model.problems measurements capacity :=
  mem_problems.mpr (.inl rfl)

theorem dense_mem_problems (model : Model ℝ) (measurements capacity : ℕ) :
    .dense model.denseCallback measurements ∈ model.problems measurements capacity :=
  mem_problems.mpr (.inr rfl)

/-- Either callback fails with the error of the model. -/
theorem failure?_of_error (hp : p ∈ model.problems measurements capacity) {error : ProblemError ℝ}
    (failed : model.values calls state = .error error) :
    p.failure? states calls state = some error := by
  rcases mem_problems.mp hp with rfl | rfl
  · simp only [Problem.failure?, sparseCallback, failed]
    rfl
  · simp only [Problem.failure?, denseCallback, failed]

/-- Either callback reports the residuals and the sums of the entries of values that fit. -/
theorem report_of_fits (hp : p ∈ model.problems measurements capacity)
    (fits : values.Fits states measurements capacity) (size : state.size = states)
    (answered : model.values calls state = .ok values) :
    p.measurements = measurements ∧ ∃ evaluation,
      p.report states calls state = some evaluation ∧
      evaluation.residuals = values.residuals.fit measurements ∧
      ∀ r i, r < measurements → i < states →
        evaluation.jacobian.slope r i = entrySum r i values.entries := by
  rcases mem_problems.mp hp with rfl | rfl
  · exact ⟨rfl, report_sparse fits answered⟩
  · exact ⟨rfl, report_dense fits size answered⟩

/-- A model that fits is the same problem through a writer and in a buffer. -/
theorem agree (fits : model.Fits states measurements capacity) :
    Problem.Agree states (.sparse model.sparseCallback measurements capacity)
      (.dense model.denseCallback measurements) where
  measurements := rfl
  answers calls state size := by
    have hsparse := sparse_mem_problems model measurements capacity
    have hdense := dense_mem_problems model measurements capacity
    cases hanswer : model.values calls state with
    | error error =>
        exact .inl ⟨error, failure?_of_error hsparse hanswer, failure?_of_error hdense hanswer⟩
    | ok values =>
        have hfits : values.Fits states measurements capacity := fits calls state values size hanswer
        obtain ⟨-, e₁, hreport₁, hresiduals₁, hslopes₁⟩ := report_of_fits hsparse hfits size hanswer
        obtain ⟨-, e₂, hreport₂, hresiduals₂, hslopes₂⟩ := report_of_fits hdense hfits size hanswer
        refine .inr ⟨e₁, e₂, hreport₁, hreport₂, hresiduals₁.trans hresiduals₂.symm, ?_⟩
        intro r i hr hi
        rw [hslopes₁ r i hr hi, hslopes₂ r i hr hi]

/-- A callback made of a model that fits fails only where the model does. -/
theorem answer_of_failure (fits : model.Fits states measurements capacity) {calls : ℕ}
    {state : Vec ℝ} {error : ProblemError ℝ} (size : state.size = states)
    (failed : (Problem.sparse model.sparseCallback measurements capacity).failure? states calls
      state = some error) : model.values calls state = .error error := by
  cases hanswer : model.values calls state with
  | error error' =>
      rw [failure?_of_error (sparse_mem_problems model measurements capacity) hanswer] at failed
      cases failed
      rfl
  | ok values =>
      obtain ⟨writer, hrun, -⟩ := run_sparseCallback (fits calls state values size hanswer) hanswer
      simp only [Problem.failure?, hrun] at failed
      cases failed

/-- With settings and sizes that are accepted and a model that fits, both entry points leave the caller
with the same state after equally many calls. Both come to a result, and these differ in the times only,
or both fail with one error: with a singular matrix at one damping if that may not be raised, or with
the error that the model gave when it was asked last. A result that is come to is delivered. The one
exception is for both the same: if a summary is wanted and the number of attempts is a positive multiple
of `2 ^ 32`, there is no mean time for it, and neither delivers its result. -/
theorem sparse_dense_agree_unless_meanTimeUndefined (model : Model ℝ) (settings : Settings ℝ)
    (clock₁ clock₂ : Clock) (debugHeard : Bool) (state : Vec ℝ) (measurements capacity : ℕ)
    (valid : settings.fault? = none) (sizes : sizeFault? state.size measurements = none)
    (room : capacityFault? state.size measurements capacity = none)
    (fits : model.Fits state.size measurements capacity) :
    ∃ solved₁ solved₂,
      (solveSparse settings clock₁ debugHeard model.sparseCallback state measurements
        capacity).value = solved₁ ∧
      (solveDense settings clock₂ debugHeard model.denseCallback state measurements).value =
        solved₂ ∧
      solved₁.state = solved₂.state ∧ solved₁.calls = solved₂.calls ∧
      ((∃ outcome₁ outcome₂ session₁ session₂, outcome₁.timeless = outcome₂.timeless ∧
          solved₁.answer = deliver (settings.verbose || debugHeard) outcome₁ session₁ ∧
          solved₂.answer = deliver (settings.verbose || debugHeard) outcome₂ session₂) ∨
        ∃ error, solved₁.answer = .error error ∧ solved₂.answer = .error error ∧
          ((∃ lambda, settings.damping.maxAttempts = 0 ∧ error =
              .search (.linear (.dampingExhausted settings.damping.maxAttempts lambda))) ∨
            ∃ calls x given, x.size = state.size ∧ solved₁.calls = calls + 1 ∧
              model.values calls x = .error given ∧ error = .problem given)) := by
  obtain ⟨e₁, hbuilt₁⟩ : ∃ e, ((Problem.sparse model.sparseCallback measurements capacity).evaluator
      state.size).value = .ok e := by
    simp only [Problem.evaluator, Evaluator.newSparse, sizes, room, Option.or_none]
    exact ⟨_, rfl⟩
  obtain ⟨e₂, hbuilt₂⟩ : ∃ e, ((Problem.dense model.denseCallback measurements).evaluator
      state.size).value = .ok e := by
    simp only [Problem.evaluator, Evaluator.newDense, sizes]
    exact ⟨_, rfl⟩
  obtain ⟨hstate, hcalls, hanswers⟩ :=
    (agree fits).solve valid hbuilt₁ hbuilt₂ clock₁ clock₂ debugHeard rfl rfl
  refine ⟨_, _, rfl, rfl, hstate, hcalls, ?_⟩
  rcases hanswers with hresults | ⟨error, hfailure, herror₁, herror₂⟩
  · exact .inl hresults
  · refine .inr ⟨error, herror₁, herror₂, ?_⟩
    generalize hasked : ((Problem.sparse model.sparseCallback measurements capacity).solve settings
      clock₁ debugHeard state).value.calls = asked at hfailure
    cases hfailure with
    | damping _ lambda exhausted => exact .inl ⟨lambda, exhausted, rfl⟩
    | callback size failed =>
        exact .inr ⟨_, _, _, size, hasked, answer_of_failure fits size failed, rfl⟩

/-- The residual `2 x - 1`, next to one that is missing, with the derivative in two equal parts. -/
noncomputable def twoParts : Model ℝ :=
  { values := fun _ state =>
      .ok ⟨⟨#[state.entry 0 + state.entry 0 - 1]⟩, [⟨0, 0, 1⟩, ⟨0, 0, 1⟩]⟩
    ignoresRefusals := false }

theorem fits_twoParts : twoParts.Fits 1 2 2 := by
  apply fits_of_inBounds (by decide)
  intro calls state values _ answered
  cases answered
  refine ⟨le_rfl, ?_⟩
  intro e he
  simp only [List.mem_cons, List.not_mem_nil, or_false, or_self] at he
  subst he
  rfl

/-- A residual that is one with a derivative of one, whatever the state. -/
noncomputable def constant : Model ℝ :=
  { values := fun _ _ => .ok ⟨⟨#[1]⟩, [⟨0, 0, 1⟩]⟩
    ignoresRefusals := false }

theorem fits_constant : constant.Fits 1 1 1 := by
  apply fits_of_inBounds (by decide)
  intro calls state values _ answered
  cases answered
  refine ⟨le_rfl, ?_⟩
  intro e he
  obtain rfl := List.mem_singleton.mp he
  rfl

/-- Either entry point is left without a result after `2 ^ 32` attempts if it reports. -/
theorem answer_constant (hp : p ∈ constant.problems 1 1) {e : Evaluator ℝ}
    (built : (p.evaluator 1).value = .ok e) :
    (p.solve { Problem.unitRadius with maxIterations := 2 ^ 32, verbose := true } Clock.stopped
      false ⟨#[0]⟩).value.answer = .error (.meanTimeUndefined (2 ^ 32)) := by
  have hlevel : p.Level (Vec.size (⟨#[0]⟩ : Vec ℝ)) 1 := by
    intro calls state size
    obtain ⟨-, evaluation, hreported, hresiduals, -⟩ :=
      report_of_fits hp (fits_constant calls state _ size rfl) size rfl
    refine ⟨evaluation, hreported, ?_⟩
    rw [Evaluation.cost, hresiduals]
    exact Problem.normSq_unitVector
  obtain ⟨outcome, session, hanswer, hiterations, -⟩ :=
    Problem.exists_solve_level hlevel built (2 ^ 32) true
  rw [hanswer, deliver, hiterations]
  exact if_pos ⟨rfl, by decide, dvd_rfl⟩

/-- From zero and with a radius of one, both entry points give the same result. A constant residual
leaves both without one after `2 ^ 32` attempts if a summary is wanted. -/
theorem sparse_dense_agree_twoParts :
    (∃ outcome₁ outcome₂ session₁ session₂,
      (solveSparse Problem.unitRadius Clock.stopped false twoParts.sparseCallback ⟨#[0]⟩ 2
        2).value.answer = .ok (outcome₁, session₁) ∧
      (solveDense Problem.unitRadius Clock.stopped false twoParts.denseCallback ⟨#[0]⟩
        2).value.answer = .ok (outcome₂, session₂) ∧
      outcome₁.timeless = outcome₂.timeless) ∧
    (solveSparse { Problem.unitRadius with maxIterations := 2 ^ 32, verbose := true } Clock.stopped
      false constant.sparseCallback ⟨#[0]⟩ 1 1).value.answer = .error (.meanTimeUndefined (2 ^ 32)) ∧
    (solveDense { Problem.unitRadius with maxIterations := 2 ^ 32, verbose := true } Clock.stopped
      false constant.denseCallback ⟨#[0]⟩ 1).value.answer = .error (.meanTimeUndefined (2 ^ 32)) := by
  refine ⟨?_, ?_, ?_⟩
  · obtain ⟨_, _, rfl, rfl, -, -,
        ⟨outcome₁, outcome₂, session₁, session₂, htimes, hok₁, hok₂⟩ | ⟨error, -, -, hfailure⟩⟩ :=
      sparse_dense_agree_unless_meanTimeUndefined twoParts Problem.unitRadius Clock.stopped
        Clock.stopped false ⟨#[0]⟩ 2 2 Problem.fault?_unitRadius rfl rfl fits_twoParts
    · exact ⟨outcome₁, outcome₂, session₁, session₂, hok₁, hok₂, htimes⟩
    · rcases hfailure with ⟨-, hexhausted, -⟩ | ⟨_, _, _, -, -, hanswer, -⟩
      · simp [Problem.unitRadius, Settings.standard, DampingSchedule.standard] at hexhausted
      · cases hanswer
  · exact answer_constant (sparse_mem_problems constant 1 1) rfl
  · exact answer_constant (dense_mem_problems constant 1 1) rfl

end Model

end TrustRegion
