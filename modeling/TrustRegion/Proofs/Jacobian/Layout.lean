/-
Module: TrustRegion.Proofs.Jacobian.Layout
Purpose: Where the entries of a dense Jacobian stand in the buffer of its callback. The places of a grid by
  rows are the indices below the number of places, each of them once, and the Jacobian is read off the buffer
  place by place. The buffer is as long as the number of places only if that number is a word; otherwise it is
  shorter and some places of the Jacobian have no index in it.
Main exports: place_eq_iff, place_lt, bijOn_place, LaidOut, laidOut_iff, cell?_matrixOfBuffer,
  Evaluator.buffer_laidOut_unless_wrapped
-/
import Mathlib.Data.Set.Function
import Mathlib.Order.Interval.Set.Defs
import Mathlib.Tactic.Ring
import TrustRegion.Proofs.Search.Afresh

namespace TrustRegion

/-! ### Places by rows -/

/-- Places by rows are different for different columns or rows. -/
theorem place_eq_iff {states row col row' col' : ℕ} (hcol : col < states) (hcol' : col' < states) :
    row * states + col = row' * states + col' ↔ row = row' ∧ col = col' := by
  constructor
  · intro h
    have hrow : row = row' := by
      have hdiv := congrArg (· / states) h
      simpa [Nat.mul_add_div (Nat.zero_lt_of_lt hcol), mul_comm, Nat.div_eq_of_lt hcol,
        Nat.div_eq_of_lt hcol'] using hdiv
    subst hrow
    exact ⟨rfl, Nat.add_left_cancel h⟩
  · rintro ⟨rfl, rfl⟩
    rfl

/-- The place of an entry of a grid is below the number of places. -/
theorem place_lt {states measurements row col : ℕ} (hrow : row < measurements) (hcol : col < states) :
    row * states + col < states * measurements :=
  calc row * states + col < row * states + states := Nat.add_lt_add_left hcol _
    _ = states * (row + 1) := by ring
    _ ≤ states * measurements := Nat.mul_le_mul_left _ hrow

/-- The places of a grid by rows are the numbers below the number of places, each of them once. -/
theorem bijOn_place (states measurements : ℕ) :
    Set.BijOn (fun place : ℕ × ℕ => place.1 * states + place.2)
      (Set.Iio measurements ×ˢ Set.Iio states) (Set.Iio (states * measurements)) := by
  refine ⟨?_, ?_, ?_⟩
  · rintro ⟨row, col⟩ ⟨hrow, hcol⟩
    exact place_lt hrow hcol
  · rintro ⟨row, col⟩ ⟨-, hcol⟩ ⟨row', col'⟩ ⟨-, hcol'⟩ h
    obtain ⟨rfl, rfl⟩ := (place_eq_iff hcol hcol').mp h
    rfl
  · intro k hk
    have hstates : 0 < states := Nat.pos_of_mul_pos_right (Nat.zero_lt_of_lt hk)
    refine ⟨(k / states, k % states), ⟨?_, Nat.mod_lt k hstates⟩, Nat.div_add_mod' k states⟩
    exact (Nat.div_lt_iff_lt_mul hstates).mpr (hk.trans_eq (mul_comm _ _))

/-- A buffer of some length holds a grid by rows: it has as many indices as the grid has places, and each of
them is the place of one entry. -/
structure LaidOut (states measurements length : ℕ) : Prop where
  length_eq : length = states * measurements
  bijOn : Set.BijOn (fun place : ℕ × ℕ => place.1 * states + place.2)
    (Set.Iio measurements ×ˢ Set.Iio states) (Set.Iio length)

/-- The length of a buffer, which is a word, is the number of places exactly if that number is a word. -/
theorem laidOut_iff {states measurements : ℕ} :
    LaidOut states measurements (states * measurements % wordSize) ↔
      states * measurements < wordSize := by
  constructor
  · intro h
    rw [← h.length_eq]
    exact Nat.mod_lt _ (by decide)
  · intro small
    rw [Nat.mod_eq_of_lt small]
    exact ⟨rfl, bijOn_place states measurements⟩

/-- If the number of places is not a word, some entry of the grid has its place right behind the buffer. -/
theorem exists_place_beyond {states measurements : ℕ} (wrapped : wordSize ≤ states * measurements) :
    ∃ row col, row < measurements ∧ col < states ∧
      row * states + col = states * measurements % wordSize := by
  have hlength : states * measurements % wordSize < states * measurements :=
    (Nat.mod_lt _ (by decide)).trans_le wrapped
  obtain ⟨⟨row, col⟩, ⟨hrow, hcol⟩, hplace⟩ := (bijOn_place states measurements).surjOn hlength
  exact ⟨row, col, hrow, hcol, hplace⟩

/-! ### A Jacobian in a buffer -/

variable {α : Type} [Scalar α]

/-- A vector that has the right length already stays as it is. -/
theorem Vec.fit_eq_self {n : ℕ} {v : Vec α} (size : v.size = n) :
    v.fit n = v := by
  apply ext_entry ((size_fit n v).trans size.symm)
  intro i hi
  rw [size_fit] at hi
  exact entry_ofFn hi

/-- A dense Jacobian holds at each place what stands at its index in the buffer. -/
theorem cell?_matrixOfBuffer {states measurements row col : ℕ} {buffer : Vec α}
    (hrow : row < measurements) (hcol : col < states) (size : buffer.size = states * measurements) :
    (matrixOfBuffer measurements states buffer).cell? row col =
      buffer.entries[row * states + col]? := by
  have hplace : row * states + col < buffer.entries.size := (place_lt hrow hcol).trans_eq size.symm
  rw [matrixOfBuffer, Matrix.cell?_ofFn hrow hcol, Vec.entry, Array.getElem?_eq_getElem hplace,
    Option.getD_some]

namespace Evaluator

/-- Sizes are accepted for a dense Jacobian if neither is zero, whatever their product is. -/
theorem exists_newDense_iff {callback : DenseCallback α} {states measurements : ℕ} :
    (∃ e, (newDense callback states measurements).value = .ok e) ↔
      states ≠ 0 ∧ measurements ≠ 0 := by
  unfold newDense sizeFault?
  by_cases hstates : states = 0
  · rw [if_pos hstates]
    exact iff_of_false (fun ⟨_, h⟩ => by cases h) fun h => h.1 hstates
  · rw [if_neg hstates]
    by_cases hmeasurements : measurements = 0
    · rw [if_pos hmeasurements]
      exact iff_of_false (fun ⟨_, h⟩ => by cases h) fun h => h.2 hmeasurements
    · rw [if_neg hmeasurements]
      exact iff_of_true ⟨_, rfl⟩ ⟨hstates, hmeasurements⟩

/-- What a dense callback fails with in a buffer of as many zeros as a word counts is the answer. -/
theorem evaluate_of_failed {callback : DenseCallback α} {states measurements : ℕ} {e : Evaluator α}
    (built : (newDense callback states measurements).value = .ok e) (earlier : List (Vec α))
    {state left : Vec α} {error : ProblemError α} (size : state.size = states)
    (asked : callback (Problem.asksAbout states earlier) state measurements
      (Vec.zeros (states * measurements % wordSize)) = (.error error, left)) :
    ((e.afterAll earlier).evaluate state).value.1 = .error error := by
  rw [Problem.value_evaluate (p := .dense callback measurements) built earlier size,
    Problem.value_answer_dense, asked]
  rfl

/-- What a dense callback does in a buffer that holds all places is its answer with the Jacobian that it
left there. -/
theorem evaluate_of_left {callback : DenseCallback α} {states measurements : ℕ} {e : Evaluator α}
    (built : (newDense callback states measurements).value = .ok e)
    (small : states * measurements < wordSize) (earlier : List (Vec α)) {state residuals left : Vec α}
    (size : state.size = states)
    (asked : callback (Problem.asksAbout states earlier) state measurements
      (Vec.zeros (states * measurements)) = (.ok residuals, left))
    (kept : left.size = states * measurements) :
    ∃ m, ((e.afterAll earlier).evaluate state).value.1 =
        .ok { residuals := residuals.fit measurements, jacobian := .dense m } ∧
      m.rows = measurements ∧ m.cols = states ∧
      ∀ row col, row < measurements → col < states →
        m.cell? row col = left.entries[row * states + col]? := by
  have hlength : states * measurements % wordSize = states * measurements := Nat.mod_eq_of_lt small
  refine ⟨matrixOfBuffer measurements states left, ?_, rfl, rfl, fun row col hrow hcol => ?_⟩
  · rw [Problem.value_evaluate (p := .dense callback measurements) built earlier size,
      Problem.value_answer_dense, hlength, asked]
    simp only [Vec.fit_eq_self kept]
    rfl
  · exact cell?_matrixOfBuffer hrow hcol kept

/-- The buffer of a dense Jacobian holds it by rows unless its length wraps. Sizes are accepted if neither is
zero, and every evaluation, after any others, hands the callback zeros of a length that is the number of
places as a word. The buffer is laid out by rows exactly if that number is a word: then each entry of the
Jacobian is what the callback left at its index, and otherwise some entry has its place right behind the
buffer. -/
theorem buffer_laidOut_unless_wrapped (callback : DenseCallback α) (states measurements : ℕ) :
    ((∃ e, (newDense callback states measurements).value = .ok e) ↔
      states ≠ 0 ∧ measurements ≠ 0) ∧
    (LaidOut states measurements (states * measurements % wordSize) ↔
      states * measurements < wordSize) ∧
    (wordSize ≤ states * measurements →
      ∃ row col, row < measurements ∧ col < states ∧
        row * states + col = states * measurements % wordSize) ∧
    ∀ e, (newDense callback states measurements).value = .ok e →
      ∀ (earlier : List (Vec α)) (state : Vec α), state.size = states →
        (∀ (error : ProblemError α) (left : Vec α),
          callback (Problem.asksAbout states earlier) state measurements
            (Vec.zeros (states * measurements % wordSize)) = (.error error, left) →
          ((e.afterAll earlier).evaluate state).value.1 = .error error) ∧
        (states * measurements < wordSize → ∀ residuals left : Vec α,
          callback (Problem.asksAbout states earlier) state measurements
            (Vec.zeros (states * measurements)) = (.ok residuals, left) →
          left.size = states * measurements →
            ∃ m, ((e.afterAll earlier).evaluate state).value.1 =
                .ok { residuals := residuals.fit measurements, jacobian := .dense m } ∧
              m.rows = measurements ∧ m.cols = states ∧
              ∀ row col, row < measurements → col < states →
                m.cell? row col = left.entries[row * states + col]?) := by
  refine ⟨exists_newDense_iff, laidOut_iff, exists_place_beyond, ?_⟩
  intro e built earlier state size
  exact ⟨fun error left asked => evaluate_of_failed built earlier size asked,
    fun small residuals left asked kept => evaluate_of_left built small earlier size asked kept⟩

/-- Residuals of two variables whose derivatives are left by rows. -/
def byRows : DenseCallback Float := fun _ state _ _ =>
  (.ok ⟨#[state.entry 0 + 2.0 * state.entry 1, 3.0 * state.entry 0, state.entry 1]⟩,
    ⟨#[1.0, 2.0, 3.0, 0.0, 0.0, 1.0]⟩)

/-- Three measurements of two variables are laid out by rows, and the second one has its derivative by the
first variable at the third index. As many measurements as half of all words are accepted as well, but their
buffer has no index at all. -/
theorem buffer_laidOut_byRows :
    (LaidOut 2 3 6 ∧
      ∃ e m, (newDense byRows 2 3).value = .ok e ∧
        (e.evaluate ⟨#[1.0, 1.0]⟩).value.1 =
          .ok { residuals := Vec.fit 3 ⟨#[1.0 + 2.0 * 1.0, 3.0 * 1.0, 1.0]⟩, jacobian := .dense m } ∧
        m.cell? 1 0 = some 3.0) ∧
    (∃ e, (newDense byRows 2 9223372036854775808).value = .ok e) ∧
    2 * 9223372036854775808 % wordSize = 0 ∧ ¬ LaidOut 2 9223372036854775808 0 := by
  have hlaid : LaidOut 2 3 6 :=
    (buffer_laidOut_unless_wrapped byRows 2 3).2.1.mpr (by decide)
  obtain ⟨e, hbuilt⟩ := (buffer_laidOut_unless_wrapped byRows 2 3).1.mpr ⟨by decide, by decide⟩
  obtain ⟨m, hvalue, -, -, hcell⟩ :=
    ((buffer_laidOut_unless_wrapped byRows 2 3).2.2.2 e hbuilt [] ⟨#[1.0, 1.0]⟩ rfl).2
      (by decide) _ _ rfl rfl
  obtain ⟨haccepted, hlaidOut, -⟩ := buffer_laidOut_unless_wrapped byRows 2 9223372036854775808
  refine ⟨⟨hlaid, e, m, hbuilt, hvalue, hcell 1 0 (by decide) (by decide)⟩,
    haccepted.mpr ⟨by decide, by decide⟩, by decide, fun h => ?_⟩
  exact absurd (hlaidOut.mp h) (by decide)

end Evaluator

end TrustRegion
