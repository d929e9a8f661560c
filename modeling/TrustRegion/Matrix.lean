/-
Module: TrustRegion.Matrix
Purpose: Rectangular grids of entries, each computed once and stored.
Main exports: Matrix, Matrix.ofFn, Matrix.cell?, Matrix.entry, Matrix.modify, Matrix.rowLists
-/
import TrustRegion.Vec

namespace TrustRegion

/-- A grid of `rows` times `cols` entries, stored by rows. -/
structure Matrix (α : Type) where
  rows : Nat
  cols : Nat
  data : Vector (Vector α cols) rows

namespace Matrix

variable {α β : Type}

/-- The grid whose entry in row `i` and column `j` is `f i j`. -/
def ofFn (rows cols : Nat) (f : Nat → Nat → α) : Matrix α :=
  ⟨rows, cols, Vector.ofFn fun i => Vector.ofFn fun j => f i j⟩

/-- The entry in row `i` and column `j`, if there is such a place. -/
def cell? (m : Matrix α) (i j : Nat) : Option α :=
  m.data[i]?.bind fun row => row[j]?

/-- The entry in row `i` and column `j`, zero outside the grid. -/
def entry [Scalar α] (m : Matrix α) (i j : Nat) : α :=
  (m.cell? i j).getD 0

/-- The grid with the entry in row `i` and column `j` replaced by its image, unchanged if there is
no such place. -/
def modify (m : Matrix α) (i j : Nat) (f : α → α) : Matrix α :=
  if hi : i < m.rows then
    if hj : j < m.cols then
      let row := m.data[i]
      { m with data := m.data.set i (row.set j (f row[j])) }
    else m
  else m

/-- The grid of zeros. -/
def zeros [Scalar α] (rows cols : Nat) : Matrix α :=
  ofFn rows cols fun _ _ => 0

/-- Every entry replaced by its image. -/
def map (f : α → β) (m : Matrix α) : Matrix β :=
  ⟨m.rows, m.cols, m.data.map fun row => row.map f⟩

/-- The rows as lists. -/
def rowLists (m : Matrix α) : List (List α) :=
  m.data.toList.map fun row => row.toList

/-! ### Reading entries back -/

@[simp] theorem rows_ofFn (rows cols : Nat) (f : Nat → Nat → α) : (ofFn rows cols f).rows = rows :=
  rfl

@[simp] theorem cols_ofFn (rows cols : Nat) (f : Nat → Nat → α) : (ofFn rows cols f).cols = cols :=
  rfl

theorem cell?_ofFn {rows cols : Nat} {f : Nat → Nat → α} {i j : Nat} (hi : i < rows)
    (hj : j < cols) : (ofFn rows cols f).cell? i j = some (f i j) := by
  change ((Vector.ofFn fun i : Fin rows => Vector.ofFn fun j : Fin cols => f i j)[i]?.bind
    fun row => row[j]?) = some (f i j)
  simp [hi, hj]

theorem cell?_eq_none {m : Matrix α} {i j : Nat} (h : ¬ (i < m.rows ∧ j < m.cols)) :
    m.cell? i j = none := by
  unfold cell?
  by_cases hi : i < m.rows
  · have hj : ¬ j < m.cols := fun hj => h ⟨hi, hj⟩
    simp [hi, hj]
  · simp [hi]

theorem entry_ofFn [Scalar α] {rows cols : Nat} {f : Nat → Nat → α} {i j : Nat} (hi : i < rows)
    (hj : j < cols) : (ofFn rows cols f).entry i j = f i j := by
  simp [entry, cell?_ofFn hi hj]

@[simp] theorem rows_modify (m : Matrix α) (i j : Nat) (f : α → α) :
    (m.modify i j f).rows = m.rows := by
  unfold modify
  split
  · split <;> rfl
  · rfl

@[simp] theorem cols_modify (m : Matrix α) (i j : Nat) (f : α → α) :
    (m.modify i j f).cols = m.cols := by
  unfold modify
  split
  · split <;> rfl
  · rfl

/-- A change of one entry is seen at its place only. -/
theorem cell?_modify (m : Matrix α) (i j : Nat) (f : α → α) (r c : Nat) :
    (m.modify i j f).cell? r c =
      if i = r ∧ j = c then (m.cell? r c).map f else m.cell? r c := by
  unfold modify
  split
  · rename_i hi
    split
    · rename_i hj
      by_cases hr : i = r
      · subst hr
        by_cases hc : j = c
        · subst hc
          simp [cell?, hi, hj]
        · simp [cell?, hc, hi]
      · simp [cell?, hr]
    · rename_i hj
      split
      · rename_i h
        obtain ⟨rfl, rfl⟩ := h
        rw [cell?_eq_none (fun h => hj h.2)]
        rfl
      · rfl
  · rename_i hi
    split
    · rename_i h
      obtain ⟨rfl, rfl⟩ := h
      rw [cell?_eq_none (fun h => hi h.1)]
      rfl
    · rfl

@[simp] theorem cell?_map (f : α → β) (m : Matrix α) (i j : Nat) :
    (m.map f).cell? i j = (m.cell? i j).map f := by
  change ((m.data.map fun row => row.map f)[i]?.bind fun row => row[j]?) =
    (m.data[i]?.bind fun row => row[j]?).map f
  rw [Vector.getElem?_map]
  cases m.data[i]? with
  | none => rfl
  | some row => simp

/-- Two grids are equal when they have the same shape and the same entries. -/
theorem ext_cell? {a b : Matrix α} (hr : a.rows = b.rows) (hc : a.cols = b.cols)
    (h : ∀ i j, i < a.rows → j < a.cols → a.cell? i j = b.cell? i j) : a = b := by
  obtain ⟨rows, cols, x⟩ := a
  obtain ⟨rows', cols', y⟩ := b
  simp only at hr hc
  subst hr hc
  congr 1
  apply Vector.ext
  intro i hi
  apply Vector.ext
  intro j hj
  have := h i j hi hj
  simpa [cell?, hi, hj] using this

end Matrix

end TrustRegion
