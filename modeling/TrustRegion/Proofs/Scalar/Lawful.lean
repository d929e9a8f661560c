/-
Module: TrustRegion.Proofs.Scalar.Lawful
Purpose: The laws that doubles and real numbers have in common. They say how comparison, magnitude
  and being in range fit together, and nothing about how exact a sum or a product is, so what is
  proved from them holds of a search that rounds and of one that does not.
Main exports: LawfulScalar, LawfulScalar.le_refl_of_isFinite, Vec.isFinite_maxAbs_iff
-/
import TrustRegion.Vec

namespace TrustRegion

open Scalar

/-- Laws of comparison that hold with rounding and without it. An undefined value compares with
nothing and differs from itself, so reflexivity is stated for values that equal themselves. -/
class LawfulScalar (α : Type) [Scalar α] : Prop where
  lt_irrefl (a : α) : ¬ a < a
  lt_trans {a b c : α} : a < b → b < c → a < c
  le_trans {a b c : α} : a ≤ b → b ≤ c → a ≤ c
  le_of_lt {a b : α} : a < b → a ≤ b
  le_of_not_lt {a b : α} : (a == a) = true → (b == b) = true → ¬ a < b → b ≤ a
  /-- What compares with something is defined. -/
  beq_self_of_le {a b : α} : a ≤ b → (a == a) = true ∧ (b == b) = true
  /-- A computed difference is positive only if the second value is below the first. -/
  lt_of_sub_pos {a b : α} : 0 < a - b → b < a
  isFinite_zero : isFinite (0 : α) = true
  beq_self_of_isFinite {a : α} : isFinite a = true → (a == a) = true
  isFinite_of_nonneg_of_le {a b : α} : 0 ≤ a → a ≤ b → isFinite b = true → isFinite a = true
  isFinite_abs (a : α) : isFinite (abs a) = isFinite a
  abs_nonneg {a : α} : (abs a == abs a) = true → 0 ≤ abs a
  /-- Growing by a factor keeps a sign. -/
  mul_nonneg {a b : α} : 0 ≤ a → 1 < b → isFinite b = true → 0 ≤ a * b

namespace LawfulScalar

variable {α : Type} [Scalar α] [LawfulScalar α]

theorem le_refl_of_beq_self {a : α} (h : (a == a) = true) : a ≤ a :=
  le_of_not_lt h h (lt_irrefl a)

theorem le_refl_of_isFinite {a : α} (h : isFinite a = true) : a ≤ a :=
  le_refl_of_beq_self (beq_self_of_isFinite h)

theorem zero_le_zero : (0 : α) ≤ 0 :=
  le_refl_of_isFinite isFinite_zero

end LawfulScalar

namespace Scalar

variable {α : Type} [Scalar α]

/-- The larger of two values is one of them. -/
theorem maxStrict_eq (a b : α) : maxStrict a b = a ∨ maxStrict a b = b := by
  unfold maxStrict
  split
  · exact .inl rfl
  · split
    · exact .inr rfl
    · split
      · exact .inr rfl
      · exact .inl rfl

/-- The larger of two values, those that are undefined passed over, is one of them, the second one only
if it is defined. -/
theorem maxLenient_eq {a b : α} (ha : (a == a) = true) :
    maxLenient a b = a ∨ (b == b) = true ∧ maxLenient a b = b := by
  by_cases hb : (b == b) = true
  · simp only [maxLenient, isNaN, ha, hb, Bool.not_true, Bool.false_eq_true, if_false, true_and]
    split
    · exact .inr rfl
    · exact .inl rfl
  · left
    simp [maxLenient, isNaN, ha, hb]

/-- Going through a list from a value that is defined, the largest value is that one or a value of the
list that is defined. -/
theorem foldl_maxLenient_eq {a : α} (ha : (a == a) = true) (xs : List α) :
    xs.foldl maxLenient a = a ∨ ∃ x, x ∈ xs ∧ (x == x) = true ∧ xs.foldl maxLenient a = x := by
  induction xs generalizing a with
  | nil => exact .inl rfl
  | cons y ys ih =>
      rcases maxLenient_eq ha with hkept | ⟨hy, hnew⟩
      · rw [List.foldl_cons, hkept]
        exact (ih ha).imp_right fun ⟨x, hx, h⟩ => ⟨x, List.mem_cons_of_mem _ hx, h⟩
      · rw [List.foldl_cons, hnew]
        rcases ih hy with hsame | ⟨x, hx, h⟩
        · exact .inr ⟨y, List.mem_cons_self, hy, hsame⟩
        · exact .inr ⟨x, List.mem_cons_of_mem _ hx, h⟩

/-- The larger of two values is undefined as soon as one of them is. -/
theorem beq_self_of_maxStrict {a b : α} (h : (maxStrict a b == maxStrict a b) = true) :
    (a == a) = true ∧ (b == b) = true := by
  unfold maxStrict isNaN at h
  cases ha : (a == a) with
  | false => simp [ha] at h
  | true =>
      cases hb : (b == b) with
      | false => simp [ha, hb] at h
      | true => exact ⟨rfl, rfl⟩

variable [LawfulScalar α]

/-- If the larger of two values is defined, neither of them is above it. -/
theorem le_maxStrict {a b : α} (h : (maxStrict a b == maxStrict a b) = true) :
    a ≤ maxStrict a b ∧ b ≤ maxStrict a b := by
  obtain ⟨ha, hb⟩ := beq_self_of_maxStrict h
  simp only [maxStrict, isNaN, ha, hb, Bool.not_true, Bool.false_eq_true, if_false]
  split
  · rename_i hlt
    exact ⟨LawfulScalar.le_of_lt hlt, LawfulScalar.le_refl_of_beq_self hb⟩
  · rename_i hlt
    exact ⟨LawfulScalar.le_refl_of_beq_self ha, LawfulScalar.le_of_not_lt ha hb hlt⟩

/-- If the first of two values is defined, the larger of those that are is defined, and neither of them is
above it. -/
theorem le_maxLenient {a b : α} (ha : (a == a) = true) :
    (maxLenient a b == maxLenient a b) = true ∧ a ≤ maxLenient a b ∧
      ((b == b) = true → b ≤ maxLenient a b) := by
  by_cases hb : (b == b) = true
  · simp only [maxLenient, isNaN, ha, hb, Bool.not_true, Bool.false_eq_true, if_false, true_implies]
    split
    · rename_i hlt
      exact ⟨hb, LawfulScalar.le_of_lt hlt, LawfulScalar.le_refl_of_beq_self hb⟩
    · rename_i hlt
      exact ⟨ha, LawfulScalar.le_refl_of_beq_self ha, LawfulScalar.le_of_not_lt ha hb hlt⟩
  · have hkept : maxLenient a b = a := by simp [maxLenient, isNaN, ha, hb]
    rw [hkept]
    exact ⟨ha, LawfulScalar.le_refl_of_beq_self ha, fun h => absurd h hb⟩

/-- Going through a list from a value that is defined, the largest value so far stays defined and is at
least every value that is. -/
theorem le_foldl_maxLenient {a : α} (ha : (a == a) = true) (xs : List α) :
    a ≤ xs.foldl maxLenient a ∧ ∀ x, x ∈ xs → (x == x) = true → x ≤ xs.foldl maxLenient a := by
  induction xs generalizing a with
  | nil => exact ⟨LawfulScalar.le_refl_of_beq_self ha, fun x hx => nomatch hx⟩
  | cons y ys ih =>
      obtain ⟨hself, hold, hnew⟩ := le_maxLenient ha
      obtain ⟨hstart, hall⟩ := ih hself
      refine ⟨LawfulScalar.le_trans hold hstart, fun x hx hdefined => ?_⟩
      rcases List.mem_cons.mp hx with rfl | hx
      · exact LawfulScalar.le_trans (hnew hdefined) hstart
      · exact hall x hx hdefined

/-- The largest of a family is at least zero and at least every member, if it is defined. -/
theorem le_largest {f : Nat → α} {n : Nat} (h : (largest f n == largest f n) = true) :
    0 ≤ largest f n ∧ ∀ i, i < n → f i ≤ largest f n := by
  induction n with
  | zero => exact ⟨LawfulScalar.zero_le_zero, fun i hi => absurd hi (Nat.not_lt_zero i)⟩
  | succ n ih =>
      obtain ⟨hprev, hnew⟩ := le_maxStrict (show (maxStrict (largest f n) (f n) == _) = true from h)
      obtain ⟨hzero, hall⟩ := ih (LawfulScalar.beq_self_of_le hprev).1
      refine ⟨LawfulScalar.le_trans hzero hprev, fun i hi => ?_⟩
      rcases Nat.lt_succ_iff_lt_or_eq.mp hi with hlt | rfl
      · exact LawfulScalar.le_trans (hall i hlt) hprev
      · exact hnew

end Scalar

namespace Vec

variable {α : Type} [Scalar α] [LawfulScalar α]

/-- The largest magnitude of a vector is in range exactly if every entry is. -/
theorem isFinite_maxAbs_iff (v : Vec α) :
    isFinite v.maxAbs = true ↔ ∀ i, i < v.size → isFinite (v.entry i) = true := by
  constructor
  · intro h i hi
    obtain ⟨-, hall⟩ := le_largest (LawfulScalar.beq_self_of_isFinite h)
    have hle := hall i hi
    have hpos := LawfulScalar.abs_nonneg (LawfulScalar.beq_self_of_le hle).1
    rw [← LawfulScalar.isFinite_abs]
    exact LawfulScalar.isFinite_of_nonneg_of_le hpos hle h
  · intro h
    unfold maxAbs
    generalize v.size = n at h ⊢
    induction n with
    | zero => exact LawfulScalar.isFinite_zero
    | succ n ih =>
        rcases maxStrict_eq (largest (fun i => abs (v.entry i)) n) (abs (v.entry n)) with hm | hm
        · rw [largest, hm]
          exact ih fun i hi => h i (Nat.lt_succ_of_lt hi)
        · rw [largest, hm, LawfulScalar.isFinite_abs]
          exact h n (Nat.lt_succ_self n)

end Vec

end TrustRegion
