/-
Module: TrustRegion.Linear.StoredMatrix
Purpose: Matrices in which a place may hold no entry at all. An absent entry takes part in no
  multiplication and no addition, which differs from an entry that is zero as soon as another
  factor is infinite or undefined. A matrix that is stored in full has an entry at every place.
Main exports: Entry, StoredMatrix, StoredMatrix.mulVec, StoredMatrix.transposeMulVec,
  StoredMatrix.normal, StoredMatrix.filled, StoredMatrix.positions
-/
import TrustRegion.Matrix

namespace TrustRegion

/-- The content of one place of a matrix: a stored value, or nothing. -/
abbrev Entry (α : Type) := Option α

namespace Entry

variable {α : Type} [Scalar α]

/-- The value an entry stands for; an absent entry stands for zero. -/
def value (a : Entry α) : α :=
  a.getD 0

/-- The sum of two entries, present if one of them is. -/
def plus : Entry α → Entry α → Entry α
  | none, b => b
  | some a, none => some a
  | some a, some b => some (a + b)

/-- The difference of two entries, present if one of them is. -/
def minus : Entry α → Entry α → Entry α
  | a, none => a
  | none, some b => some (-b)
  | some a, some b => some (a - b)

/-- The product of two entries, present if both are. -/
def times : Entry α → Entry α → Entry α
  | some a, some b => some (a * b)
  | _, _ => none

/-- An entry times a number. -/
def scale (a : Entry α) (x : α) : Entry α :=
  a.map (· * x)

/-- The sum of the first `n` entries from left to right, absent if none of them is present. -/
def total (f : Nat → Entry α) : Nat → Entry α
  | 0 => none
  | n + 1 => plus (total f n) (f n)

end Entry

/-- A matrix with stored and absent entries. -/
abbrev StoredMatrix (α : Type) := Matrix (Entry α)

namespace StoredMatrix

variable {α : Type}

/-- What is stored in row `i` and column `j`; nothing outside the grid. -/
def stored (m : StoredMatrix α) (i j : Nat) : Entry α :=
  (m.cell? i j).join

/-- The matrix without any stored entry. -/
def empty (rows cols : Nat) : StoredMatrix α :=
  Matrix.ofFn rows cols fun _ _ => none

/-- Every entry of a full matrix, stored. -/
def ofFull (m : Matrix α) : StoredMatrix α :=
  m.map some

/-- The places that hold an entry, by rows and within a row by columns: a list that is sorted and
names each place once. -/
def positions (m : StoredMatrix α) : List (Nat × Nat) :=
  (List.range m.rows).flatMap fun i =>
    ((List.range m.cols).filter fun j => (stored m i j).isSome).map fun j => (i, j)

/-- The stored entries by columns, with the rows of a column ascending. -/
def byColumns (m : StoredMatrix α) : List (Nat × Nat × α) :=
  (List.range m.cols).flatMap fun j =>
    (List.range m.rows).filterMap fun i => (stored m i j).map fun v => (i, j, v)

variable [Scalar α]

/-- The matrix times a vector. -/
def mulVec (m : StoredMatrix α) (v : Vec α) : Vec α :=
  Vec.ofFn m.rows fun i =>
    (Entry.total (fun j => (stored m i j).scale (v.entry j)) m.cols).value

/-- The transposed matrix times a vector. -/
def transposeMulVec (m : StoredMatrix α) (v : Vec α) : Vec α :=
  Vec.ofFn m.cols fun j =>
    (Entry.total (fun i => (stored m i j).scale (v.entry i)) m.rows).value

/-- The transposed matrix times the matrix, with `lambda` added along the diagonal. An entry is
stored where two columns share a row, and all along the diagonal. -/
def normal (m : StoredMatrix α) (lambda : α) : StoredMatrix α :=
  Matrix.ofFn m.cols m.cols fun i j =>
    let product := Entry.total (fun r => (stored m r i).times (stored m r j)) m.rows
    if i = j then product.plus (some lambda) else product

/-- The matrix with a zero stored wherever nothing was. -/
def filled (m : StoredMatrix α) : StoredMatrix α :=
  m.map fun a => some a.value

/-! ### Reading entries back -/

omit [Scalar α] in
theorem stored_ofFn {rows cols : Nat} {f : Nat → Nat → Entry α} {i j : Nat} (hi : i < rows)
    (hj : j < cols) : stored (Matrix.ofFn rows cols f) i j = f i j := by
  simp [stored, Matrix.cell?_ofFn hi hj]

omit [Scalar α] in
theorem stored_ofFull (m : Matrix α) (i j : Nat) : stored (ofFull m) i j = m.cell? i j := by
  simp only [stored, ofFull, Matrix.cell?_map]
  cases m.cell? i j <;> rfl

/-- Filling a matrix keeps the value of every place. -/
theorem value_stored_filled (m : StoredMatrix α) (i j : Nat) :
    (stored (filled m) i j).value = (stored m i j).value := by
  simp only [stored, filled, Matrix.cell?_map]
  cases m.cell? i j <;> rfl

@[simp] theorem size_mulVec (m : StoredMatrix α) (v : Vec α) : (mulVec m v).size = m.rows :=
  Vec.size_ofFn _ _

@[simp] theorem size_transposeMulVec (m : StoredMatrix α) (v : Vec α) :
    (transposeMulVec m v).size = m.cols :=
  Vec.size_ofFn _ _

end StoredMatrix

end TrustRegion
