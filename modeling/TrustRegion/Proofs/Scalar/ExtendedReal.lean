/-
Module: TrustRegion.Proofs.Scalar.ExtendedReal
Purpose: The real numbers with two infinities and an undefined value as a scalar type. On real numbers the
  operations are exact; what has no value there, such as the difference of two equal infinities or a quotient
  of infinities, is undefined, and whatever is computed from something undefined is undefined.
Main exports: ExtendedReal, ExtendedReal.placedBy, ExtendedReal.place_injective, the instances
  Scalar ExtendedReal and ExtendedScalar ExtendedReal
-/
import TrustRegion.Proofs.Scalar.Extended
import TrustRegion.Proofs.Scalar.Place

namespace TrustRegion

/-- A real number, an infinity or an undefined value. -/
inductive ExtendedReal where
  | undefined
  | infinite (negative : Bool)
  | finite (x : ℝ)

namespace ExtendedReal

/-- The place of a value between the two infinities; an undefined value has none. -/
noncomputable def place : ExtendedReal → Option EReal
  | .undefined => none
  | .infinite true => some ⊥
  | .infinite false => some ⊤
  | .finite x => some x

/-- The sign of a value. An undefined value has the sign of zero, which no infinity has. -/
noncomputable def sign : ExtendedReal → SignType
  | .undefined => 0
  | .infinite true => -1
  | .infinite false => 1
  | .finite x => SignType.sign x

/-- The infinity with a sign, undefined for the sign of zero. -/
def infinity : SignType → ExtendedReal
  | .neg => .infinite true
  | .zero => .undefined
  | .pos => .infinite false

/-- Negation turns infinities around. -/
noncomputable def neg : ExtendedReal → ExtendedReal
  | .undefined => .undefined
  | .infinite negative => .infinite !negative
  | .finite x => .finite (-x)

/-- The magnitude. -/
noncomputable def abs : ExtendedReal → ExtendedReal
  | .undefined => .undefined
  | .infinite _ => .infinite false
  | .finite x => .finite |x|

/-- The sum; that of opposite infinities is undefined. -/
noncomputable def add : ExtendedReal → ExtendedReal → ExtendedReal
  | .finite x, .finite y => .finite (x + y)
  | .infinite s, .finite _ => .infinite s
  | .finite _, .infinite t => .infinite t
  | .infinite s, .infinite t => if s = t then .infinite s else .undefined
  | _, _ => .undefined

/-- The product; that of zero and an infinity is undefined. -/
noncomputable def mul : ExtendedReal → ExtendedReal → ExtendedReal
  | .finite x, .finite y => .finite (x * y)
  | a, b => infinity (a.sign * b.sign)

open Classical in
/-- The quotient. Zero has no sign of its own and divides like a positive number that is too small. -/
noncomputable def div : ExtendedReal → ExtendedReal → ExtendedReal
  | .finite x, .finite y => if y = 0 then infinity (SignType.sign x) else .finite (x / y)
  | .finite _, .infinite _ => .finite 0
  | .infinite s, .finite y => .infinite (if y < 0 then !s else s)
  | _, _ => .undefined

open Classical in
/-- The square root, undefined below zero. -/
noncomputable def sqrt : ExtendedReal → ExtendedReal
  | .finite x => if x < 0 then .undefined else .finite (Real.sqrt x)
  | .infinite false => .infinite false
  | _ => .undefined

/-- Whether a value is a real number. -/
def isFinite : ExtendedReal → Bool
  | .finite _ => true
  | _ => false

open Classical in
noncomputable instance : Scalar ExtendedReal where
  add := add
  sub a b := a.add b.neg
  mul := mul
  div := div
  neg := neg
  zero := .finite 0
  one := .finite 1
  ofScientific mantissa negative exponent :=
    .finite (OfScientific.ofScientific mantissa negative exponent)
  lt a b := ∃ r s, a.place = some r ∧ b.place = some s ∧ r < s
  le a b := ∃ r s, a.place = some r ∧ b.place = some s ∧ r ≤ s
  beq a b := decide (∃ r, a.place = some r ∧ b.place = some r)
  sqrt := sqrt
  abs := abs
  isFinite := isFinite
  lowest := .infinite true
  decidableLT _ _ := propDecidable _
  decidableLE _ _ := propDecidable _

/-- Extended real numbers are compared by their places. -/
theorem placedBy : PlacedBy place where
  lt_iff := Iff.rfl
  le_iff := Iff.rfl
  beq_iff := decide_eq_true_iff

/-! ### Real numbers among them -/

theorem zero_eq : (0 : ExtendedReal) = .finite 0 := rfl

@[simp] theorem finite_add (x y : ℝ) : (.finite x + .finite y : ExtendedReal) = .finite (x + y) := rfl

@[simp] theorem finite_sub (x y : ℝ) : (.finite x - .finite y : ExtendedReal) = .finite (x - y) :=
  congrArg finite (sub_eq_add_neg x y).symm

@[simp] theorem abs_finite (x : ℝ) : Scalar.abs (.finite x : ExtendedReal) = .finite |x| := rfl

theorem finite_div {y : ℝ} (h : y ≠ 0) (x : ℝ) :
    (.finite x / .finite y : ExtendedReal) = .finite (x / y) :=
  if_neg h

@[simp] theorem finite_lt_finite {x y : ℝ} : (.finite x : ExtendedReal) < .finite y ↔ x < y := by
  simp [placedBy.lt_iff, place]

@[simp] theorem finite_le_finite {x y : ℝ} : (.finite x : ExtendedReal) ≤ .finite y ↔ x ≤ y := by
  simp [placedBy.le_iff, place]

/-! ### Values that are undefined -/

@[simp] theorem isNaN_iff {a : ExtendedReal} : Scalar.isNaN a = true ↔ a = .undefined := by
  rw [Scalar.isNaN, Bool.not_eq_true', Bool.eq_false_iff, ne_eq, placedBy.beq_self_iff]
  rcases a with _ | (_ | _) | x <;> simp [place]

@[simp] theorem abs_undefined : Scalar.abs (.undefined : ExtendedReal) = .undefined := rfl

@[simp] theorem undefined_add (a : ExtendedReal) : .undefined + a = .undefined := by
  rcases a with _ | s | x <;> rfl

@[simp] theorem add_undefined (a : ExtendedReal) : a + .undefined = .undefined := by
  rcases a with _ | s | x <;> rfl

@[simp] theorem undefined_div (a : ExtendedReal) : .undefined / a = .undefined := by
  rcases a with _ | s | x <;> rfl

@[simp] theorem not_lt_undefined (a : ExtendedReal) : ¬ a < .undefined := by
  rintro ⟨r, s, -, hs, -⟩
  cases hs

@[simp] theorem not_undefined_le (a : ExtendedReal) : ¬ .undefined ≤ a := by
  rintro ⟨r, s, hr, -, -⟩
  cases hr

/-! ### The laws -/

theorem zero_lt_infinite_false : (0 : ExtendedReal) < .infinite false :=
  ⟨_, _, rfl, rfl, EReal.coe_lt_top 0⟩

theorem not_zero_le_infinite_true : ¬ (0 : ExtendedReal) ≤ .infinite true := by
  rintro ⟨r, s, hr, hs, hle⟩
  cases hr
  cases hs
  exact EReal.coe_ne_bot 0 (le_bot_iff.mp hle)

/-- A difference is positive only if the second value is below the first. -/
theorem lt_of_sub_pos {a b : ExtendedReal} (h : 0 < a - b) : b < a := by
  rcases a with _ | s | x <;> rcases b with _ | t | y
  case finite.finite => simpa [zero_eq] using h
  case infinite.infinite =>
    -- only opposite infinities have a difference
    cases s <;> cases t
    · exact absurd h (not_lt_undefined _)
    · exact ⟨_, _, rfl, rfl, bot_lt_top⟩
    · exact absurd (placedBy.le_of_lt h) not_zero_le_infinite_true
    · exact absurd h (not_lt_undefined _)
  case infinite.finite =>
    cases s
    · exact ⟨_, _, rfl, rfl, EReal.coe_lt_top y⟩
    · exact absurd (placedBy.le_of_lt h) not_zero_le_infinite_true
  case finite.infinite =>
    cases t
    · exact absurd (placedBy.le_of_lt h) not_zero_le_infinite_true
    · exact ⟨_, _, rfl, rfl, EReal.bot_lt_coe x⟩
  all_goals exact absurd h (not_lt_undefined _)

theorem isFinite_of_nonneg_of_le {a b : ExtendedReal} (ha : 0 ≤ a) (hab : a ≤ b)
    (hb : b.isFinite = true) : a.isFinite = true := by
  rcases a with _ | (_ | _) | x
  · exact absurd hab (not_undefined_le _)
  · rcases b with _ | t | y
    · cases hb
    · cases hb
    · obtain ⟨r, s, hr, hs, hle⟩ := hab
      cases hr
      cases hs
      exact absurd (top_le_iff.mp hle) (EReal.coe_ne_top y)
  · exact absurd ha not_zero_le_infinite_true
  · rfl

theorem abs_nonneg {a : ExtendedReal} (h : (Scalar.abs a == Scalar.abs a) = true) :
    0 ≤ Scalar.abs a := by
  rcases a with _ | s | x
  · obtain ⟨r, hr⟩ := placedBy.beq_self_iff.mp h
    cases hr
  · exact placedBy.le_of_lt zero_lt_infinite_false
  · exact finite_le_finite.mpr (by positivity)

theorem mul_nonneg {a b : ExtendedReal} (ha : 0 ≤ a) (hb : 1 < b) (finite : b.isFinite = true) :
    0 ≤ a * b := by
  rcases b with _ | t | y
  · cases finite
  · cases finite
  · have hy : 0 < y := zero_lt_one.trans (finite_lt_finite.mp hb)
    rcases a with _ | (_ | _) | x
    · obtain ⟨r, s, -, hs, -⟩ := ha
      cases hs
    · have hproduct : (.infinite false * .finite y : ExtendedReal) = .infinite false := by
        show infinity (1 * SignType.sign y) = _
        rw [sign_pos hy]
        rfl
      rw [hproduct]
      exact placedBy.le_of_lt zero_lt_infinite_false
    · exact absurd ha not_zero_le_infinite_true
    · exact finite_le_finite.mpr (Left.mul_nonneg (finite_le_finite.mp ha) hy.le)

instance : LawfulScalar ExtendedReal where
  lt_irrefl := placedBy.lt_irrefl
  lt_trans := placedBy.lt_trans
  le_trans := placedBy.le_trans
  le_of_lt := placedBy.le_of_lt
  le_of_not_lt := placedBy.le_of_not_lt
  beq_self_of_le := placedBy.beq_self_of_le
  lt_of_sub_pos := lt_of_sub_pos
  isFinite_zero := rfl
  beq_self_of_isFinite {a} h := by
    rcases a with _ | s | x
    · cases h
    · cases h
    · exact placedBy.beq_self_iff.mpr ⟨x, rfl⟩
  isFinite_of_nonneg_of_le := isFinite_of_nonneg_of_le
  isFinite_abs a := by rcases a with _ | s | x <;> rfl
  abs_nonneg := abs_nonneg
  mul_nonneg := mul_nonneg

/-! ### Values out of range -/

theorem isFinite_of_add {a b : ExtendedReal} (h : (a + b).isFinite = true) :
    a.isFinite = true ∧ b.isFinite = true := by
  rcases a with _ | s | x <;> rcases b with _ | t | y
  case finite.finite => exact ⟨rfl, rfl⟩
  case infinite.infinite =>
    -- two infinities add up to an infinity or to nothing defined
    cases s <;> cases t <;> cases h
  all_goals cases h

theorem not_isFinite_infinity (s : SignType) : (infinity s).isFinite = false := by
  cases s <;> rfl

/-- Only real numbers have a product that is more than its sign. -/
theorem mul_eq_infinity {a b : ExtendedReal} (h : ¬ (a.isFinite = true ∧ b.isFinite = true)) :
    a * b = infinity (a.sign * b.sign) := by
  rcases a with _ | s | x <;> rcases b with _ | t | y
  case finite.finite => exact absurd ⟨rfl, rfl⟩ h
  all_goals rfl

theorem isFinite_of_mul {a b : ExtendedReal} (h : (a * b).isFinite = true) :
    a.isFinite = true ∧ b.isFinite = true := by
  by_contra hrange
  rw [mul_eq_infinity hrange, not_isFinite_infinity] at h
  cases h

/-- Different values have different places. -/
theorem place_injective : Function.Injective place := by
  intro a b h
  cases a with
  | undefined =>
      cases b with
      | undefined => rfl
      | infinite negative => cases negative <;> cases h
      | finite y => cases h
  | infinite negative =>
      cases b with
      | undefined => cases negative <;> cases h
      | infinite negative' =>
          cases negative <;> cases negative'
          · rfl
          · exact absurd (Option.some.inj h) top_ne_bot
          · exact absurd (Option.some.inj h) bot_ne_top
          · rfl
      | finite y =>
          cases negative
          · exact absurd (Option.some.inj h) (EReal.top_ne_coe y)
          · exact absurd (Option.some.inj h) (EReal.bot_ne_coe y)
  | finite x =>
      cases b with
      | undefined => cases h
      | infinite negative =>
          cases negative
          · exact absurd (Option.some.inj h) (EReal.coe_ne_top x)
          · exact absurd (Option.some.inj h) (EReal.coe_ne_bot x)
      | finite y => exact congrArg finite (EReal.coe_injective (Option.some.inj h))

theorem abs_antisymm {a b : ExtendedReal} (h : Scalar.abs a ≤ Scalar.abs b)
    (h' : Scalar.abs b ≤ Scalar.abs a) : Scalar.abs a = Scalar.abs b := by
  obtain ⟨r, s, hr, hs, hle⟩ := h
  obtain ⟨s', r', hs', hr', hle'⟩ := h'
  rw [hr, Option.some.injEq] at hr'
  rw [hs, Option.some.injEq] at hs'
  subst hr' hs'
  exact place_injective (hr.trans ((congrArg some (le_antisymm hle hle')).trans hs.symm))

theorem beq_self_abs (a : ExtendedReal) : (Scalar.abs a == Scalar.abs a) = (a == a) := by
  rw [Bool.eq_iff_iff, placedBy.beq_self_iff, placedBy.beq_self_iff]
  rcases a with _ | (_ | _) | x
  · rfl
  all_goals exact iff_of_true ⟨_, rfl⟩ ⟨_, rfl⟩

instance : ExtendedScalar ExtendedReal where
  isFinite_of_add := isFinite_of_add
  isFinite_of_mul := isFinite_of_mul
  beq_self_abs := beq_self_abs
  abs_zero := by rw [zero_eq, abs_finite, abs_zero]
  abs_antisymm := abs_antisymm
  eq_of_undefined {a b} ha hb := by
    have hundefined {c : ExtendedReal} (hc : (c == c) = false) : c = .undefined :=
      isNaN_iff.mp (by rw [Scalar.isNaN, hc]; rfl)
    rw [hundefined ha, hundefined hb]

end ExtendedReal

end TrustRegion
