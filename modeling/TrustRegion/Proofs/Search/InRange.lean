/-
Module: TrustRegion.Proofs.Search.InRange
Purpose: Nothing in a point in range is out of range. The check of a point looks at two numbers only, the
  cost and the largest component of the gradient. A residual, an entry of the Jacobian or a component of
  the gradient that is out of range makes one of them out of range, whatever it is multiplied by and in
  whatever order the products of a component are added.
Main exports: AddsUpTo, AddsUpTo.isFinite_of_mem, StoredMatrix.columnProducts, AddsInSomeOrder,
  CholeskySolver.addsInSomeOrder, Linearization.inRange_of_isFinite
-/
import TrustRegion.Proofs.Scalar.Extended
import TrustRegion.Proofs.Jacobian.Assembly
import TrustRegion.Proofs.Search.Run

namespace TrustRegion

open Scalar

variable {α : Type} [Scalar α]

/-- What the sum of some values can be, in whatever order and grouping they are added. The sum of no
values is a zero of either sign. -/
inductive AddsUpTo : List α → α → Prop where
  | zero : AddsUpTo [] 0
  | negativeZero : AddsUpTo [] (-0)
  | value (x : α) : AddsUpTo [x] x
  | plus {xs ys zs : List α} {a b : α} (left : AddsUpTo xs a) (right : AddsUpTo ys b)
      (together : zs.Perm (xs ++ ys)) : AddsUpTo zs (a + b)

/-- A sum in range has no value out of range in it. -/
theorem AddsUpTo.isFinite_of_mem [ExtendedScalar α] {xs : List α} {sum : α} (h : AddsUpTo xs sum)
    (finite : isFinite sum = true) {x : α} (hx : x ∈ xs) : isFinite x = true := by
  induction h with
  | zero => cases hx
  | negativeZero => cases hx
  | value y =>
      rw [List.mem_singleton.mp hx]
      exact finite
  | plus left right together ihLeft ihRight =>
      obtain ⟨ha, hb⟩ := ExtendedScalar.isFinite_of_add finite
      rcases List.mem_append.mp (together.mem_iff.mp hx) with hleft | hright
      · exact ihLeft ha hleft
      · exact ihRight hb hright

namespace Scalar

/-- A sum from left to right is one way to add. -/
theorem addsUpTo_total (f : Nat → α) (n : Nat) : AddsUpTo ((List.range n).map f) (total f n) := by
  induction n with
  | zero => exact .negativeZero
  | succ n ih =>
      rw [List.range_succ, List.map_append]
      exact .plus ih (.value (f n)) (.refl _)

end Scalar

namespace Entry

/-- What the sum of some values can be as an entry: it is absent if there are none. -/
def IsSumOf (xs : List α) : Entry α → Prop
  | none => xs = []
  | some sum => AddsUpTo xs sum

/-- One more entry is one more value, if it is present. -/
theorem IsSumOf.plus {xs : List α} {sum : Entry α} (h : IsSumOf xs sum) (x : Entry α) :
    IsSumOf (xs ++ x.toList) (Entry.plus sum x) := by
  cases x with
  | none =>
      rw [Option.toList_none, List.append_nil]
      cases sum <;> exact h
  | some x =>
      cases sum with
      | none =>
          obtain rfl : xs = [] := h
          exact AddsUpTo.value x
      | some sum => exact AddsUpTo.plus h (.value x) (.refl _)

/-- A sum of entries is one way to add those that are present. -/
theorem isSumOf_total (f : Nat → Entry α) (n : Nat) :
    IsSumOf ((List.range n).filterMap f) (total f n) := by
  induction n with
  | zero => rfl
  | succ n ih =>
      have hlast : [n].filterMap f = (f n).toList := by
        cases h : f n <;> simp [h]
      rw [List.range_succ, List.filterMap_append, hlast]
      exact ih.plus (f n)

/-- The value of a sum that is absent is zero, the sum of no values. -/
theorem IsSumOf.addsUpTo_value {xs : List α} {sum : Entry α} (h : IsSumOf xs sum) :
    AddsUpTo xs sum.value := by
  cases sum with
  | none =>
      obtain rfl : xs = [] := h
      exact .zero
  | some sum => exact h

theorem IsSumOf.foldl {xs : List α} {sum : Entry α} (h : IsSumOf xs sum) (ys : List α) :
    IsSumOf (xs ++ ys) (ys.foldl (fun sum y => Entry.plus sum (some y)) sum) := by
  induction ys generalizing xs sum with
  | nil => exact (List.append_nil xs).symm ▸ h
  | cons y ys ih =>
      rw [← List.singleton_append, ← List.append_assoc]
      exact ih (h.plus (some y))

end Entry

/-- What is stored at a place is one way to add the values reported there. -/
theorem JacobianEntry.isSumOf_entryAt (row col : Nat) (entries : List (JacobianEntry α)) :
    Entry.IsSumOf (valuesAt row col entries) (entryAt row col entries) :=
  Entry.IsSumOf.foldl (show Entry.IsSumOf [] (none : Entry α) from rfl) (valuesAt row col entries)

/-- The products that make up one component of the transposed matrix times a vector: one for each entry
that is stored in the column. -/
def StoredMatrix.columnProducts (m : StoredMatrix α) (x : Vec α) (k : Nat) : List α :=
  (List.range m.rows).filterMap fun i => (stored m i k).scale (x.entry i)

theorem StoredMatrix.mem_columnProducts {m : StoredMatrix α} (x : Vec α) {i k : Nat} {a : α}
    (h : stored m i k = some a) : a * x.entry i ∈ columnProducts m x k := by
  refine List.mem_filterMap.mpr ⟨i, List.mem_range.mpr ?_, by rw [h]; rfl⟩
  by_contra hi
  rw [stored, Matrix.cell?_eq_none fun hplace => hi hplace.1] at h
  cases h

/-- A backend computes each component of the transposed Jacobian times a vector as the sum, in some
order, of the products with the entries that are stored. -/
def AddsInSomeOrder {β : Type} [LinearSolver α β] (backend : β) : Prop :=
  ∀ (j : Jacobian α) (x g : Vec α), (LinearSolver.gradient backend j x).value = .ok g →
    g.size = j.stored.cols ∧
      ∀ k, k < g.size → AddsUpTo (StoredMatrix.columnProducts j.stored x k) (g.entry k)

/-- Both kinds of storage add from the first row to the last. -/
theorem CholeskySolver.addsInSomeOrder (s : CholeskySolver α) : AddsInSomeOrder s := by
  intro j x g hg
  obtain ⟨-, -, rfl⟩ := gradient_eq hg
  refine ⟨StoredMatrix.size_transposeMulVec _ _, fun k hk => ?_⟩
  rw [StoredMatrix.size_transposeMulVec] at hk
  rw [StoredMatrix.transposeMulVec, Vec.entry_ofFn hk]
  have hsum : Entry.IsSumOf (StoredMatrix.columnProducts j.stored x k) _ :=
    Entry.isSumOf_total _ j.stored.rows
  exact hsum.addsUpTo_value

/-! ### From the two numbers to everything else -/

section InRange

variable [ExtendedScalar α]

/-- A squared length in range is that of a vector in range. -/
theorem Vec.isFinite_of_normSq {v : Vec α} (h : isFinite v.normSq = true) {x : α}
    (hx : x ∈ v.toList) : isFinite x = true := by
  obtain ⟨i, hi, rfl⟩ := mem_toList.mp hx
  have hsquare := (Scalar.addsUpTo_total (fun i => v.entry i * v.entry i) v.size).isFinite_of_mem h
    (List.mem_map.mpr ⟨i, List.mem_range.mpr hi, rfl⟩)
  exact (ExtendedScalar.isFinite_of_mul hsquare).1

/-- If the values reported at a place add up to an entry in range, each of them is in range. -/
theorem JacobianEntry.isFinite_of_entryAt {row col : Nat} {entries : List (JacobianEntry α)}
    (h : ∀ a : α, entryAt row col entries = some a → isFinite a = true) {x : α}
    (hx : x ∈ valuesAt row col entries) : isFinite x = true := by
  have hsum := isSumOf_entryAt row col entries
  cases hentry : entryAt row col entries with
  | none =>
      rw [hentry] at hsum
      rw [show valuesAt row col entries = [] from hsum] at hx
      cases hx
  | some sum =>
      rw [hentry] at hsum
      exact AddsUpTo.isFinite_of_mem hsum (h sum hentry) hx

/-- What is stored of the Jacobian is in range if the gradient is: an entry takes part in a product, and
a product in a sum. -/
theorem AddsInSomeOrder.isFinite_of_stored {β : Type} [LinearSolver α β] {backend : β}
    (adds : AddsInSomeOrder backend) {j : Jacobian α} {x g : Vec α}
    (computed : (LinearSolver.gradient backend j x).value = .ok g)
    (finite : ∀ y, y ∈ g.toList → isFinite y = true) {i k : Nat} {a : α}
    (h : StoredMatrix.stored j.stored i k = some a) : isFinite a = true := by
  obtain ⟨hsize, hsums⟩ := adds j x g computed
  have hk : k < g.size := by
    by_contra hk
    rw [hsize] at hk
    rw [StoredMatrix.stored, Matrix.cell?_eq_none fun hplace => hk hplace.2] at h
    cases h
  have hproduct : isFinite (a * x.entry i) = true :=
    (hsums k hk).isFinite_of_mem (finite _ (Vec.mem_toList.mpr ⟨k, hk, rfl⟩))
      (StoredMatrix.mem_columnProducts x h)
  exact (ExtendedScalar.isFinite_of_mul hproduct).1

/-- What was reported for a sparse Jacobian is in range if what is stored of it is. -/
theorem SparseJacobian.isFinite_of_reported {measurements states : Nat}
    {entries : List (JacobianEntry α)} {j : SparseJacobian α}
    (built : (ofEntries measurements states entries).value = .ok j)
    (finite : ∀ i k (a : α), StoredMatrix.stored j.matrix i k = some a → isFinite a = true)
    {e : JacobianEntry α} (he : e ∈ entries) : isFinite e.value = true := by
  obtain ⟨inBounds, rfl⟩ := eq_assembled built
  have hin := inBounds e he
  simp only [JacobianEntry.inBounds, Bool.and_eq_true, decide_eq_true_eq] at hin
  have hvalue : e.value ∈ JacobianEntry.valuesAt e.row e.col entries :=
    JacobianEntry.mem_valuesAt.mpr ⟨e, he, rfl, rfl, rfl⟩
  refine JacobianEntry.isFinite_of_entryAt (fun a ha => ?_) hvalue
  exact finite e.row e.col a ((stored_assemble hin.1 hin.2).trans ha)

end InRange

/-- A point in range has nothing out of range in it, with any backend that adds the products of a
component in some order, as both kinds of storage do. Neither the residuals nor the gradient nor what the
Jacobian stores is out of range, nor is any of the values that were reported for it. The largest component
that is looked at is undefined if and only if a component is, otherwise it is the magnitude of a component
and at least that of each, and it does not see their order. -/
theorem Linearization.inRange_of_isFinite [ExtendedScalar α] :
    (∀ backend : CholeskySolver α, AddsInSomeOrder backend) ∧
      (∀ {β : Type} [LinearSolver α β] (backend : β) (id : Nat) (state : Vec α)
        (evaluation : Evaluation α) (q : Linearization α), AddsInSomeOrder backend →
        (make backend id state evaluation).value = .ok q → q.isFinite = true →
          (∀ x, x ∈ evaluation.residuals.toList → Scalar.isFinite x = true) ∧
          (∀ i k a, StoredMatrix.stored evaluation.jacobian.stored i k = some a →
            Scalar.isFinite a = true) ∧
          (∀ measurements states entries j,
            (SparseJacobian.ofEntries measurements states entries).value = .ok j →
            evaluation.jacobian = .sparse j → ∀ e, e ∈ entries → Scalar.isFinite e.value = true) ∧
          ∀ x, x ∈ q.gradient.toList → Scalar.isFinite x = true) ∧
      ∀ v : Vec α,
        (isNaN v.maxAbs = true ↔ ∃ x, x ∈ v.toList ∧ isNaN x = true) ∧
          (v.toList ≠ [] → isNaN v.maxAbs = false →
            (∃ x, x ∈ v.toList ∧ v.maxAbs = abs x) ∧
              ∀ x, x ∈ v.toList → abs x ≤ v.maxAbs) ∧
          ∀ w : Vec α, v.toList.Perm w.toList → v.maxAbs = w.maxAbs := by
  refine ⟨CholeskySolver.addsInSomeOrder, ?_, fun v => ⟨Vec.isNaN_maxAbs_iff, ?_, ?_⟩⟩
  · intro β _ backend id state evaluation q adds made inRange
    obtain ⟨gradient, hgradient, rfl⟩ := of_make made
    simp only [Linearization.isFinite, Bool.and_eq_true] at inRange
    obtain ⟨hcost, hlargest⟩ := inRange
    have hcomponents : ∀ x, x ∈ gradient.toList → Scalar.isFinite x = true :=
      Vec.forall_mem_toList.mpr (gradient.isFinite_maxAbs_iff.mp hlargest)
    have hstored : ∀ i k a, StoredMatrix.stored evaluation.jacobian.stored i k = some a →
        Scalar.isFinite a = true :=
      fun i k a => adds.isFinite_of_stored hgradient hcomponents
    refine ⟨fun x => Vec.isFinite_of_normSq hcost, hstored, ?_, hcomponents⟩
    intro measurements states entries j built hj e he
    rw [hj] at hstored
    exact SparseJacobian.isFinite_of_reported built hstored he
  · intro nonempty defined
    have hself : (v.maxAbs == v.maxAbs) = true := by
      simpa [isNaN] using defined
    exact ⟨Vec.exists_maxAbs_eq nonempty hself, fun x => Vec.abs_le_maxAbs hself⟩
  · exact fun w => Vec.maxAbs_eq_of_perm

/-- Two residuals, one of them zero, and three values reported at two places. -/
def Evaluation.threeValues : Evaluation Float where
  residuals := ⟨#[3.0, 0.0]⟩
  jacobian := .sparse (SparseJacobian.assembled 2 1 [⟨0, 0, 1.0⟩, ⟨1, 0, 4.0⟩, ⟨0, 0, 2.0⟩])

/-- The point that is made of them is in range, and so is all that it was made of, the value next to the
residual of zero included. -/
theorem Linearization.inRange_of_isFinite_threeValues :
    ∃ q, (make (CholeskySolver.new .sparse : CholeskySolver Float) 0 ⟨#[1.0]⟩
        Evaluation.threeValues).value = .ok q ∧
      q.isFinite = true ∧
      (∀ x, x ∈ Evaluation.threeValues.residuals.toList → Scalar.isFinite x = true) ∧
      (∀ e, e ∈ ([⟨0, 0, 1.0⟩, ⟨1, 0, 4.0⟩, ⟨0, 0, 2.0⟩] : List (JacobianEntry Float)) →
        Scalar.isFinite e.value = true) ∧
      ∀ x, x ∈ q.gradient.toList → Scalar.isFinite x = true := by
  have hchecked : (make (CholeskySolver.new .sparse : CholeskySolver Float) 0 ⟨#[1.0]⟩
      Evaluation.threeValues).value.toOption.any (·.isFinite) = true := by decide +kernel
  cases hmade : (make (CholeskySolver.new .sparse : CholeskySolver Float) 0 ⟨#[1.0]⟩
      Evaluation.threeValues).value with
  | error error =>
      rw [hmade] at hchecked
      cases hchecked
  | ok q =>
      rw [hmade] at hchecked
      obtain ⟨hadds, hinRange, -⟩ := inRange_of_isFinite (α := Float)
      obtain ⟨hresiduals, -, hreported, hgradient⟩ :=
        hinRange _ 0 _ _ q (hadds (CholeskySolver.new .sparse)) hmade hchecked
      exact ⟨q, rfl, hchecked, hresiduals, hreported 2 1 _ _ rfl rfl, hgradient⟩

end TrustRegion
