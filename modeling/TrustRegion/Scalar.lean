/-
Module: TrustRegion.Scalar
Purpose: The arithmetic the solver is written over. Every numerical definition of the library is
  stated for an arbitrary type with these operations and no laws, so the same definition runs on
  doubles and can be reasoned about over exact or extended numbers.
Main exports: Scalar, isNaN, total, largest
-/

namespace TrustRegion

/-- The operations of a scalar type. No law is assumed: addition may round and may fail to be
associative, and a value may differ from itself. -/
class Scalar (α : Type) extends Add α, Sub α, Mul α, Div α, Neg α, Zero α, One α,
    OfScientific α, LT α, LE α, BEq α where
  /-- Square root. -/
  sqrt : α → α
  /-- Magnitude. -/
  abs : α → α
  /-- Neither infinite nor undefined. -/
  isFinite : α → Bool
  /-- A value below every other, the quality of a step that led to values out of range. -/
  lowest : α
  /-- Strict comparison can be tested. -/
  decidableLT : DecidableLT α
  /-- Comparison can be tested. -/
  decidableLE : DecidableLE α

instance Scalar.instDecidableLT {α : Type} [Scalar α] : DecidableLT α :=
  Scalar.decidableLT

instance Scalar.instDecidableLE {α : Type} [Scalar α] : DecidableLE α :=
  Scalar.decidableLE

instance : Scalar Float where
  zero := 0
  one := 1
  sqrt := Float.sqrt
  abs := Float.abs
  isFinite := Float.isFinite
  lowest := -(1.0 / 0.0)
  decidableLT := inferInstance
  decidableLE := inferInstance

namespace Scalar

variable {α : Type} [Scalar α]

/-- An undefined value is the one that differs from itself. -/
def isNaN (x : α) : Bool :=
  !(x == x)

/-- A natural number as a scalar. -/
def ofNat (n : Nat) : α :=
  OfScientific.ofScientific n false 0

/-- `f 0 + f 1 + ⋯ + f (n - 1)`, added from left to right. The sum of nothing is negative zero,
which added to any value leaves that value as it is. -/
def total (f : Nat → α) : Nat → α
  | 0 => -0
  | n + 1 => total f n + f n

/-- The larger of two values, undefined if one of them is. -/
def maxStrict (a b : α) : α :=
  if isNaN a then a else if isNaN b then b else if a < b then b else a

/-- The larger of two values, the other one if one of them is undefined. -/
def maxLenient (a b : α) : α :=
  if isNaN a then b else if isNaN b then a else if a < b then b else a

/-- The largest of zero and `f 0, …, f (n - 1)`, undefined if one of them is. -/
def largest (f : Nat → α) : Nat → α
  | 0 => 0
  | n + 1 => maxStrict (largest f n) (f n)

/-- `x` moved to the nearer end of the range from `low` to `high` if it lies outside. -/
def clamp (low high x : α) : α :=
  if x < low then low else if high < x then high else x

@[simp] theorem total_zero (f : Nat → α) : total f 0 = -0 := rfl

@[simp] theorem total_succ (f : Nat → α) (n : Nat) : total f (n + 1) = total f n + f n := rfl

/-- A sum depends only on the values that are added. -/
theorem total_congr {f g : Nat → α} {n : Nat} (h : ∀ i, i < n → f i = g i) :
    total f n = total g n := by
  induction n with
  | zero => rfl
  | succ n ih =>
      rw [total_succ, total_succ, ih fun i hi => h i (Nat.lt_succ_of_lt hi), h n (Nat.lt_succ_self n)]

end Scalar

end TrustRegion
