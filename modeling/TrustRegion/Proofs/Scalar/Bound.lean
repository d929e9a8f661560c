/-
Module: TrustRegion.Proofs.Scalar.Bound
Purpose: When the largest magnitude of a vector is below a bound. One law more than those of
  `LawfulScalar` is needed, which doubles and real numbers obey as well: a value at most another one
  that is below a bound is below the bound.
Main exports: OrderedScalar, the instances for doubles and for real numbers, Vec.maxAbs_lt_iff
-/
import TrustRegion.Proofs.Scalar.Double
import TrustRegion.Proofs.Scalar.Exact

namespace TrustRegion

open Scalar

/-- Laws under which a bound on the largest of several values is a bound on each of them. -/
class OrderedScalar (α : Type) [Scalar α] : Prop extends LawfulScalar α where
  lt_of_le_of_lt {a b c : α} : a ≤ b → b < c → a < c

instance : OrderedScalar ℝ where
  lt_of_le_of_lt := lt_of_le_of_lt

instance : OrderedScalar Float where
  lt_of_le_of_lt := Double.placedBy.lt_of_le_of_lt

namespace Scalar

variable {α : Type} [Scalar α] [OrderedScalar α]

/-- The larger of two values is below a bound exactly if both are. -/
theorem maxStrict_lt_iff {a b c : α} : maxStrict a b < c ↔ a < c ∧ b < c := by
  constructor
  · intro h
    have hself := (LawfulScalar.beq_self_of_le (LawfulScalar.le_of_lt h)).1
    obtain ⟨ha, hb⟩ := le_maxStrict hself
    exact ⟨OrderedScalar.lt_of_le_of_lt ha h, OrderedScalar.lt_of_le_of_lt hb h⟩
  · rintro ⟨ha, hb⟩
    rcases maxStrict_eq a b with heq | heq
    · rw [heq]
      exact ha
    · rw [heq]
      exact hb

/-- The largest of a family is below a positive bound exactly if every member is. -/
theorem largest_lt_iff {f : Nat → α} {n : Nat} {c : α} (positive : 0 < c) :
    largest f n < c ↔ ∀ i, i < n → f i < c := by
  induction n with
  | zero => exact iff_of_true positive fun i hi => absurd hi (Nat.not_lt_zero i)
  | succ n ih =>
      rw [largest, maxStrict_lt_iff, ih]
      constructor
      · rintro ⟨hprev, hnew⟩ i hi
        rcases Nat.lt_succ_iff_lt_or_eq.mp hi with hlt | rfl
        · exact hprev i hlt
        · exact hnew
      · intro hall
        exact ⟨fun i hi => hall i (Nat.lt_succ_of_lt hi), hall n (Nat.lt_succ_self n)⟩

end Scalar

/-- The largest magnitude of a vector is below a positive bound exactly if the magnitude of every
entry is. -/
theorem Vec.maxAbs_lt_iff {α : Type} [Scalar α] [OrderedScalar α] (v : Vec α) {bound : α}
    (positive : 0 < bound) : v.maxAbs < bound ↔ ∀ i, i < v.size → abs (v.entry i) < bound :=
  largest_lt_iff positive

end TrustRegion
