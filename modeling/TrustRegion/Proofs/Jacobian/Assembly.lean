/-
Module: TrustRegion.Proofs.Jacobian.Assembly
Purpose: What a list of entries comes to at one place. The matrix that is assembled, the full matrix
  and the columns are filled entry by entry, and each of them holds at a place the values that were
  reported there, added in the order of the list. Nothing is assumed of addition.
Main exports: JacobianEntry.valuesAt, SparseJacobian.assembled, SparseJacobian.ofEntries_eq,
  SparseJacobian.stored_assemble, Jacobian.cell?_toDense, Jacobian.entry_partialDerivatives,
  SparseJacobian.mem_pattern
-/
import Mathlib.Data.List.Basic
import Mathlib.Data.Prod.Lex
import TrustRegion.Proofs.Linear.Pattern

namespace TrustRegion

variable {α β : Type}

/-! ### One entry after another -/

namespace JacobianEntry

/-- The values reported at a place, in the order of the list. -/
def valuesAt (row col : Nat) (entries : List (JacobianEntry α)) : List α :=
  (entries.filter fun e => e.row = row ∧ e.col = col).map value

@[simp] theorem valuesAt_nil (row col : Nat) : valuesAt row col ([] : List (JacobianEntry α)) = [] :=
  rfl

theorem valuesAt_cons_of_eq {row col : Nat} {e : JacobianEntry α} {entries : List (JacobianEntry α)}
    (h : e.row = row ∧ e.col = col) :
    valuesAt row col (e :: entries) = e.value :: valuesAt row col entries := by
  simp [valuesAt, h]

theorem valuesAt_cons_of_ne {row col : Nat} {e : JacobianEntry α} {entries : List (JacobianEntry α)}
    (h : ¬ (e.row = row ∧ e.col = col)) :
    valuesAt row col (e :: entries) = valuesAt row col entries := by
  simp [valuesAt, h]

theorem mem_valuesAt {row col : Nat} {entries : List (JacobianEntry α)} {x : α} :
    x ∈ valuesAt row col entries ↔
      ∃ e, e ∈ entries ∧ e.row = row ∧ e.col = col ∧ e.value = x := by
  simp [valuesAt, and_assoc]

/-- Nothing is reported at a place exactly if no entry names it. -/
theorem valuesAt_eq_nil {row col : Nat} {entries : List (JacobianEntry α)} :
    valuesAt row col entries = [] ↔ ∀ e, e ∈ entries → ¬ (e.row = row ∧ e.col = col) := by
  simp [valuesAt]

/-- Reordering the entries reorders the values at a place. -/
theorem valuesAt_perm (row col : Nat) {entries entries' : List (JacobianEntry α)}
    (perm : entries.Perm entries') : (valuesAt row col entries).Perm (valuesAt row col entries') :=
  (perm.filter _).map _

end JacobianEntry

open JacobianEntry

/-- A grid that is changed by one entry after another holds at each place what the values reported
there make of what it held. -/
theorem Matrix.cell?_foldl_modify (add : β → α → β) (entries : List (JacobianEntry α)) (m : Matrix β)
    (row col : Nat) :
    (entries.foldl (fun m e => m.modify e.row e.col fun old => add old e.value) m).cell? row col =
      (m.cell? row col).map fun old => (valuesAt row col entries).foldl add old := by
  induction entries generalizing m with
  | nil => simp
  | cons e entries ih =>
      rw [List.foldl_cons, ih, cell?_modify]
      split
      · rename_i hplace
        rw [valuesAt_cons_of_eq hplace, Option.map_map]
        rfl
      · rename_i hplace
        rw [valuesAt_cons_of_ne hplace]

/-- Changing entries keeps the shape of a grid. -/
theorem Matrix.shape_foldl_modify (add : β → α → β) (entries : List (JacobianEntry α)) (m : Matrix β) :
    (entries.foldl (fun m e => m.modify e.row e.col fun old => add old e.value) m).rows = m.rows ∧
      (entries.foldl (fun m e => m.modify e.row e.col fun old => add old e.value) m).cols =
        m.cols := by
  induction entries generalizing m with
  | nil => exact ⟨rfl, rfl⟩
  | cons e entries ih =>
      obtain ⟨hrows, hcols⟩ := ih (m.modify e.row e.col fun old => add old e.value)
      exact ⟨hrows.trans (rows_modify _ _ _ _), hcols.trans (cols_modify _ _ _ _)⟩

section Sums

variable [Scalar α]

/-- The values reported at a place as what is stored there: their sum, or nothing. -/
def JacobianEntry.entryAt (row col : Nat) (entries : List (JacobianEntry α)) : Entry α :=
  (valuesAt row col entries).foldl (fun sum x => sum.plus (some x)) none

/-- The values reported at a place, added to zero. -/
def JacobianEntry.sumAt (row col : Nat) (entries : List (JacobianEntry α)) : α :=
  (valuesAt row col entries).foldl (· + ·) 0

/-- Something is stored at a place exactly if an entry names it. -/
theorem JacobianEntry.isSome_entryAt {row col : Nat} {entries : List (JacobianEntry α)} :
    (entryAt row col entries).isSome = true ↔ ∃ e, e ∈ entries ∧ e.row = row ∧ e.col = col := by
  have hfold (xs : List α) (a : Entry α) :
      (xs.foldl (fun sum x => sum.plus (some x)) a).isSome = (a.isSome || !xs.isEmpty) := by
    induction xs generalizing a with
    | nil => simp
    | cons x xs ih => simp [ih, Entry.isSome_plus]
  rw [entryAt, hfold]
  simp [valuesAt_eq_nil]

namespace SparseJacobian

/-- The Jacobian with entries that all lie in the grid. -/
def assembled (measurements states : Nat) (entries : List (JacobianEntry α)) : SparseJacobian α :=
  { measurements, states, entries, matrix := assemble measurements states entries }

/-- Entries that all lie in the grid are a Jacobian, and nothing is reported about it. -/
theorem ofEntries_eq {measurements states : Nat} {entries : List (JacobianEntry α)}
    (inBounds : ∀ e, e ∈ entries → e.inBounds measurements states = true) :
    ofEntries measurements states entries = pure (.ok (assembled measurements states entries)) := by
  have hfind : (entries.find? fun e => !e.inBounds measurements states) = none := by
    rw [List.find?_eq_none]
    intro e he
    simp [inBounds e he]
  unfold ofEntries
  rw [hfind]
  rfl

/-- A Jacobian is made of its entries only if these all lie in the grid. -/
theorem eq_assembled {measurements states : Nat} {entries : List (JacobianEntry α)}
    {j : SparseJacobian α} (h : (ofEntries measurements states entries).value = .ok j) :
    (∀ e, e ∈ entries → e.inBounds measurements states = true) ∧
      j = assembled measurements states entries := by
  unfold ofEntries at h
  split at h
  · cases h
  · rename_i hfind
    cases h
    refine ⟨fun e he => ?_, rfl⟩
    simpa using List.find?_eq_none.mp hfind e he

variable (measurements states : Nat) (entries : List (JacobianEntry α))

theorem shape_assemble :
    (assemble measurements states entries).rows = measurements ∧
      (assemble measurements states entries).cols = states :=
  Matrix.shape_foldl_modify (fun old x => Entry.plus old (some x)) entries
    (StoredMatrix.empty measurements states)

variable {measurements states entries} {row col : Nat}

/-- The matrix that is assembled stores at each place what was reported there. -/
theorem cell?_assemble (hrow : row < measurements) (hcol : col < states) :
    (assemble measurements states entries).cell? row col = some (entryAt row col entries) := by
  have hcell := Matrix.cell?_foldl_modify (fun old x => Entry.plus old (some x)) entries
    (StoredMatrix.empty measurements states) row col
  rw [StoredMatrix.empty, Matrix.cell?_ofFn hrow hcol] at hcell
  exact hcell

theorem stored_assemble (hrow : row < measurements) (hcol : col < states) :
    StoredMatrix.stored (assemble measurements states entries) row col = entryAt row col entries :=
  congrArg Option.join (cell?_assemble hrow hcol)

/-- The pattern names the places that occur among the entries. -/
theorem mem_pattern (inBounds : ∀ e, e ∈ entries → e.inBounds measurements states = true) :
    (row, col) ∈ (assembled measurements states entries).pattern ↔
      ∃ e, e ∈ entries ∧ e.row = row ∧ e.col = col := by
  obtain ⟨hrows, hcols⟩ := shape_assemble measurements states entries
  show (row, col) ∈ StoredMatrix.positions (assemble measurements states entries) ↔ _
  rw [StoredMatrix.mem_positions, hrows, hcols]
  constructor
  · rintro ⟨hrow, hcol, hstored⟩
    rw [stored_assemble hrow hcol] at hstored
    exact isSome_entryAt.mp hstored
  · rintro ⟨e, he, rfl, rfl⟩
    have hin := inBounds e he
    simp only [JacobianEntry.inBounds, Bool.and_eq_true, decide_eq_true_eq] at hin
    refine ⟨hin.1, hin.2, ?_⟩
    rw [stored_assemble hin.1 hin.2]
    exact isSome_entryAt.mpr ⟨e, he, rfl, rfl⟩

end SparseJacobian

end Sums

/-! ### The places in order -/

/-- The places that hold an entry are listed by rows, and within a row by columns, each one once. -/
theorem StoredMatrix.pairwise_positions (m : StoredMatrix α) :
    (positions m).Pairwise fun p q => toLex p < toLex q := by
  unfold positions
  rw [List.pairwise_flatMap]
  constructor
  · intro i _
    rw [List.pairwise_map]
    refine (List.pairwise_lt_range.filter _).imp fun h => ?_
    exact Prod.Lex.toLex_lt_toLex.mpr (.inr ⟨rfl, h⟩)
  · refine List.pairwise_lt_range.imp fun h => ?_
    intro p hp q hq
    obtain ⟨_, -, rfl⟩ := List.mem_map.mp hp
    obtain ⟨_, -, rfl⟩ := List.mem_map.mp hq
    exact Prod.Lex.toLex_lt_toLex.mpr (.inl h)

/-! ### Full matrices and columns -/

/-- A change of one entry is seen at its place only, and there only if the place is one of the
vector's. -/
theorem Vec.entry_modify_of_lt [Scalar α] {v : Vec α} (i : Nat) (f : α → α) {k : Nat}
    (h : k < v.size) : (v.modify i f).entry k = if i = k then f (v.entry k) else v.entry k := by
  by_cases hi : i < v.size
  · exact entry_modify f hi k
  · have hne : i ≠ k := by
      rintro rfl
      exact hi h
    simp [modify, entry, Array.getElem?_modify, hne]

namespace Jacobian

variable [Scalar α] {j : SparseJacobian α} {row col : Nat}

theorem shape_toDense (j : SparseJacobian α) :
    (Jacobian.toDense (.sparse j)).rows = j.measurements ∧
      (Jacobian.toDense (.sparse j)).cols = j.states :=
  Matrix.shape_foldl_modify (· + ·) j.entries (Matrix.zeros j.measurements j.states)

/-- The full matrix holds at each place what was reported there, added to zero. -/
theorem cell?_toDense (hrow : row < j.measurements) (hcol : col < j.states) :
    (Jacobian.toDense (.sparse j)).cell? row col = some (sumAt row col j.entries) := by
  have hcell := Matrix.cell?_foldl_modify (· + ·) j.entries
    (Matrix.zeros j.measurements j.states) row col
  rw [Matrix.zeros, Matrix.cell?_ofFn hrow hcol] at hcell
  exact hcell

theorem size_column (entries : List (JacobianEntry α)) (v : Vec α) :
    (entries.foldl (fun column e => column.modify e.row fun old => old + e.value) v).size =
      v.size := by
  induction entries generalizing v with
  | nil => rfl
  | cons e entries ih => exact (ih _).trans (Vec.size_modify _ _ _)

/-- A column that is changed by the entries of one state holds in each row what was reported there. -/
theorem entry_column (entries : List (JacobianEntry α)) {v : Vec α} (hrow : row < v.size) :
    ((entries.filter fun e => e.col = col).foldl
      (fun column e => column.modify e.row fun old => old + e.value) v).entry row =
      (valuesAt row col entries).foldl (· + ·) (v.entry row) := by
  induction entries generalizing v with
  | nil => rfl
  | cons e entries ih =>
      by_cases hcol : e.col = col
      · have hcons : (e :: entries).filter (fun e => e.col = col) =
            e :: entries.filter (fun e => e.col = col) :=
          List.filter_cons_of_pos (decide_eq_true hcol)
        rw [hcons, List.foldl_cons, ih (hrow.trans_eq (Vec.size_modify _ _ _).symm),
          Vec.entry_modify_of_lt _ _ hrow]
        split
        · rename_i hplace
          rw [valuesAt_cons_of_eq ⟨hplace, hcol⟩, List.foldl_cons]
        · rename_i hplace
          rw [valuesAt_cons_of_ne fun h => hplace h.1]
      · have hcons : (e :: entries).filter (fun e => e.col = col) =
            entries.filter (fun e => e.col = col) :=
          List.filter_cons_of_neg (by simpa using hcol)
        rw [hcons, ih hrow, valuesAt_cons_of_ne fun h => hcol h.2]

/-- Nothing depends on a state that there is not. -/
theorem partialDerivatives_of_le {j : Jacobian α} {state : Nat} (h : j.states ≤ state) :
    j.partialDerivatives state = Vec.zeros j.measurements :=
  if_pos h

theorem size_partialDerivatives (j : SparseJacobian α) (state : Nat) :
    (Jacobian.partialDerivatives (.sparse j) state).size = j.measurements := by
  unfold partialDerivatives
  split
  · exact Vec.size_zeros _
  · exact (size_column _ _).trans (Vec.size_zeros _)

/-- The partial derivatives by one state are what was reported for it, added to zero. -/
theorem entry_partialDerivatives (hrow : row < j.measurements) (hcol : col < j.states) :
    (Jacobian.partialDerivatives (.sparse j) col).entry row = sumAt row col j.entries := by
  have hstates : ¬ (Jacobian.sparse j).states ≤ col := Nat.not_le.mpr hcol
  rw [partialDerivatives, if_neg hstates]
  show ((j.entries.filter fun e => e.col = col).foldl _ (Vec.zeros j.measurements)).entry row = _
  rw [entry_column j.entries (hrow.trans_eq (Vec.size_zeros _).symm), Vec.zeros,
    Vec.entry_ofFn hrow]
  rfl

/-- The full matrix has the same partial derivatives, however addition rounds. -/
theorem partialDerivatives_toDense (j : SparseJacobian α) (state : Nat) :
    Jacobian.partialDerivatives (.dense (Jacobian.toDense (.sparse j))) state =
      Jacobian.partialDerivatives (.sparse j) state := by
  obtain ⟨hrows, hcols⟩ := shape_toDense j
  by_cases hstate : j.states ≤ state
  · have hdense := partialDerivatives_of_le (j := .dense (Jacobian.toDense (.sparse j)))
      (hcols.trans_le hstate)
    have hsparse := partialDerivatives_of_le (j := .sparse j) hstate
    rw [hdense, hsparse]
    exact congrArg Vec.zeros hrows
  · have hbelow : ¬ (Jacobian.dense (Jacobian.toDense (.sparse j))).states ≤ state := by
      intro h
      exact hstate (hcols.symm.trans_le h)
    have hdense : Jacobian.partialDerivatives (.dense (Jacobian.toDense (.sparse j))) state =
        Vec.ofFn (Jacobian.toDense (.sparse j)).rows fun i =>
          (Jacobian.toDense (.sparse j)).entry i state := by
      rw [partialDerivatives, if_neg hbelow]
    rw [hdense]
    apply Vec.ext_entry
    · rw [Vec.size_ofFn, size_partialDerivatives, hrows]
    · intro i hi
      rw [Vec.size_ofFn] at hi
      have hrow : i < j.measurements := hi.trans_eq hrows
      rw [Vec.entry_ofFn hi, entry_partialDerivatives hrow (Nat.not_le.mp hstate), Matrix.entry,
        cell?_toDense hrow (Nat.not_le.mp hstate)]
      rfl

end Jacobian

end TrustRegion
