/-
Module: TrustRegion.Proofs.Linear.Pattern
Purpose: The analysis of a normal matrix is a function of the number of states and of the pattern of the
  Jacobian. Neither the numbers nor the damping nor the number of rows matter, since the diagonal is always
  stored.
Main exports: StoredMatrix.mem_positions, StoredMatrix.isSome_normal, Symbolic.ofPattern,
  Symbolic.ofNormal_normal
-/
import Mathlib.Data.List.Basic
import TrustRegion.Linear.CholeskySolver

namespace TrustRegion

variable {α : Type}

/-! ### Which entries are stored -/

namespace Entry

variable [Scalar α]

theorem isSome_plus (a b : Entry α) : (a.plus b).isSome = (a.isSome || b.isSome) := by
  cases a <;> cases b <;> rfl

theorem isSome_times (a b : Entry α) : (a.times b).isSome = (a.isSome && b.isSome) := by
  cases a <;> cases b <;> rfl

/-- A sum is present if one of its entries is. -/
theorem isSome_total {f : Nat → Entry α} {n : Nat} :
    (total f n).isSome = true ↔ ∃ r, r < n ∧ (f r).isSome = true := by
  induction n with
  | zero => simp [total]
  | succ n ih =>
      rw [total, isSome_plus, Bool.or_eq_true, ih]
      constructor
      · rintro (⟨r, hr, hf⟩ | hf)
        · exact ⟨r, Nat.lt_succ_of_lt hr, hf⟩
        · exact ⟨n, Nat.lt_succ_self n, hf⟩
      · rintro ⟨r, hr, hf⟩
        rcases Nat.lt_succ_iff_lt_or_eq.mp hr with hlt | rfl
        · exact .inl ⟨r, hlt, hf⟩
        · exact .inr hf

end Entry

namespace StoredMatrix

/-- The places are those that hold an entry. -/
theorem mem_positions {m : StoredMatrix α} {i k : Nat} :
    (i, k) ∈ positions m ↔ i < m.rows ∧ k < m.cols ∧ (stored m i k).isSome = true := by
  simp [positions]

variable [Scalar α]

/-- The normal matrix has an entry on the diagonal, and where two columns share a row. -/
theorem isSome_normal (m : StoredMatrix α) (lambda : α) {i k : Nat} (hi : i < m.cols)
    (hk : k < m.cols) :
    (stored (normal m lambda) i k).isSome = true ↔
      i = k ∨ ∃ r, (r, i) ∈ positions m ∧ (r, k) ∈ positions m := by
  have hproduct : (Entry.total (fun r => (stored m r i).times (stored m r k)) m.rows).isSome = true ↔
      ∃ r, (r, i) ∈ positions m ∧ (r, k) ∈ positions m := by
    rw [Entry.isSome_total]
    apply exists_congr
    intro r
    rw [mem_positions, mem_positions, Entry.isSome_times, Bool.and_eq_true]
    tauto
  rw [normal, stored_ofFn hi hk]
  split
  · rename_i hdiagonal
    rw [Entry.isSome_plus]
    simp [hdiagonal]
  · rename_i hoff
    rw [hproduct]
    simp [hoff]

end StoredMatrix

open StoredMatrix

/-! ### The analysis -/

/-- The analysis of the normal matrices of the Jacobians with a number of states and a pattern. -/
def Symbolic.ofPattern (states : Nat) (pattern : List (Nat × Nat)) : Symbolic :=
  let positions := (List.range states).flatMap fun i =>
    ((List.range states).filter fun k =>
      i == k || pattern.any fun p => p.2 == i && pattern.contains (p.1, k)).map fun k => (i, k)
  { states
    positions
    inBlocks := (Graph.ofPositions states positions).favoursBlocks }

@[simp] theorem Symbolic.states_ofPattern (states : Nat) (pattern : List (Nat × Nat)) :
    (Symbolic.ofPattern states pattern).states = states := rfl

variable [Scalar α]

/-- The places of a normal matrix are those of the analysis for its pattern. -/
theorem StoredMatrix.positions_normal (m : StoredMatrix α) (lambda : α) :
    positions (normal m lambda) = (Symbolic.ofPattern m.cols (positions m)).positions := by
  show ((List.range m.cols).flatMap fun i => _) = (List.range m.cols).flatMap fun i => _
  apply List.flatMap_congr
  intro i hi
  apply congrArg
  apply List.filter_congr
  intro k hk
  rw [Bool.eq_iff_iff, isSome_normal m lambda (List.mem_range.mp hi) (List.mem_range.mp hk)]
  simp

/-- An analysis is determined by the number of states and the pattern. -/
theorem Symbolic.ofNormal_normal (m : StoredMatrix α) (lambda : α) :
    Symbolic.ofNormal (normal m lambda) = ofPattern m.cols (StoredMatrix.positions m) := by
  unfold Symbolic.ofNormal
  rw [positions_normal]
  rfl

end TrustRegion
