/-
Module: TrustRegion.Proofs.Scalar.Growth
Purpose: A positive value that grows by a factor stays positive. Without rounding that is arithmetic;
  a double could have rounded to zero, but a factor above one keeps the exact product above the
  smallest positive double, and rounding keeps a value that is not below that.
Main exports: GrowingScalar, the instances for doubles and for real numbers
-/
import TrustRegion.Proofs.Scalar.Double
import TrustRegion.Proofs.Scalar.Exact

namespace TrustRegion

open Scalar

/-- Laws under which repeated growth never leads back to zero. -/
class GrowingScalar (α : Type) [Scalar α] : Prop extends LawfulScalar α where
  mul_pos {a b : α} : 0 < a → 1 < b → isFinite b = true → 0 < a * b
  beq_zero_of_pos {a : α} : 0 < a → (a == 0) = false

instance : GrowingScalar ℝ where
  mul_pos ha hb _ := mul_pos ha (zero_lt_one.trans hb)
  beq_zero_of_pos h := beq_eq_false_iff_ne.mpr h.ne'

namespace Double

open Float.Model (Format UnpackedFloat totalExponent)
open Float.Model.UnpackedFloat

/-! ### Rounding -/

/-- Shifting an extended mantissa divides the mantissa by a power of two. -/
theorem mantissa_shiftRight (em : ExtendedMantissa) (n : ℕ) :
    (em >>> n).mantissa = em.mantissa / 2 ^ n := by
  show (n.repeat ExtendedMantissa.shiftRightOne em).mantissa = _
  induction n with
  | zero => exact (Nat.div_one _).symm
  | succ n ih =>
      show (n.repeat ExtendedMantissa.shiftRightOne em).mantissa / 2 = _
      rw [ih, Nat.div_div_eq_div_mul, pow_succ]

/-- Rounding never takes from a mantissa. -/
theorem le_roundedMantissa (em : ExtendedMantissa) : em.mantissa ≤ em.roundedMantissa := by
  rcases em with ⟨m, roundBit, stickyBit⟩
  cases roundBit <;> cases stickyBit <;>
    simp [ExtendedMantissa.roundedMantissa, ExtendedMantissa.accuracy, Accuracy.roundToNearestEven]

/-- A number that is not below the smallest positive double, shifted to the exponent it should have,
keeps its leading bit and at most 53 of them. -/
theorem shiftToTargetExponent_of_le {m : ℕ} {e : ℤ} (hm : 0 < m) (large : -1074 ≤ m.log2 + e) :
    0 < (shiftToTargetExponent Format.binary64 m e .exact).1.mantissa ∧
      (shiftToTargetExponent Format.binary64 m e .exact).1.mantissa < 2 ^ 53 ∧
      -1074 ≤ (shiftToTargetExponent Format.binary64 m e .exact).2 := by
  have htarget : Format.binary64.targetExponent (totalExponent m e) =
      max (m.log2 + e - 52) (-1074) := by
    simp only [Format.targetExponent, totalExponent, Format.mantissaBits, Format.minExponent]
    norm_num
    omega
  have hmantissa (n : ℕ) :
      (ExtendedMantissa.ofMantissaAndAccuracy m .exact >>> n).mantissa = m / 2 ^ n :=
    mantissa_shiftRight _ n
  simp only [shiftToTargetExponent, shiftToExponent, htarget, hmantissa]
  generalize hk : (max (m.log2 + e - 52) (-1074) - e).toNat = k
  refine ⟨?_, ?_, by omega⟩
  · have hpow : 2 ^ k ≤ m :=
      (Nat.pow_le_pow_right two_pos (by omega)).trans (Nat.log2_self_le hm.ne')
    exact Nat.div_pos hpow (Nat.two_pow_pos k)
  · rw [Nat.div_lt_iff_lt_mul (Nat.two_pow_pos k), ← pow_add]
    exact Nat.lt_log2_self.trans_le (Nat.pow_le_pow_right two_pos (by omega))

/-- A number that is not below the smallest positive double rounds to one with a mantissa that fits
and an exponent that is not too small. -/
theorem roundWithAccuracy_of_le {s : Sign} {m : ℕ} {e : ℤ} (hm : 0 < m)
    (large : -1074 ≤ m.log2 + e) :
    ∃ m' e' h, roundWithAccuracy Format.binary64 s m e .exact = .finite s m' e' h ∧
      m' < 2 ^ 53 ∧ -1074 ≤ e' := by
  obtain ⟨hkept, -, hsmallest⟩ := shiftToTargetExponent_of_le hm large
  unfold roundWithAccuracy
  generalize shiftToTargetExponent Format.binary64 m e .exact = first at hkept hsmallest
  have hrounded := hkept.trans_le (le_roundedMantissa first.1)
  -- rounding may have added a bit, which the second shift takes away again
  obtain ⟨hfinal, hfits, hsmallest'⟩ :=
    shiftToTargetExponent_of_le (e := first.2) hrounded (by omega)
  exact ⟨_, _, hfinal, dif_neg hfinal.ne', hfits, hsmallest'⟩

/-! ### Storing -/

/-- Bits that are read as zero are all zero. -/
theorem eq_zero_of_unpack_eq_zero {s t : Sign} {e : BitVec 11} {m : BitVec 52}
    (h : unpack Format.binary64 (packComponents Format.binary64 s e m) = .zero t) :
    e = 0#11 ∧ m = 0#52 := by
  simp only [unpack, unpackMantissa_packComponents, unpackExponent_packComponents] at h
  split at h
  · split at h <;> cases h
  · split at h
    · split at h
      · exact ⟨‹_›, ‹_›⟩
      · cases h
    · cases h

/-- A number with a mantissa that fits and an exponent that is not too small is not stored as
zero. -/
theorem unpack_pack_ne_zero {s t : Sign} {m : ℕ} {e : ℤ} (hm : 0 < m) (fits : m < 2 ^ 53)
    (smallest : -1074 ≤ e) :
    unpack Format.binary64 (UnpackedFloat.pack Format.binary64 (.finite s m e hm)) ≠ .zero t := by
  intro h
  simp only [UnpackedFloat.pack] at h
  split at h
  · cases (eq_zero_of_unpack_eq_zero h).1
  · rename_i hrange
    split at h
    · -- a full mantissa comes with an exponent that is not zero
      have hexponent := congrArg BitVec.toNat (eq_zero_of_unpack_eq_zero h).1
      simp [exponentBias_binary64] at hexponent hrange
      omega
    · -- a mantissa that is not full is stored as it is
      rename_i hfull
      have hmantissa := congrArg BitVec.toNat (eq_zero_of_unpack_eq_zero h).2
      have hlog : m.log2 ≠ 52 := fun heq => hfull (by rw [heq]; rfl)
      have hbound : m.log2 < 53 := (Nat.log2_lt hm.ne').mpr fits
      have hsmall : m < 2 ^ 52 := (Nat.log2_lt hm.ne').mp (by omega)
      simp at hmantissa
      omega

/-- A stored value is positive if the value has a positive sign and is not stored as zero. -/
theorem zero_lt_stored {x : UnpackedFloat} (h : Signed .positive x)
    (nonzero : ∀ t, unpack Format.binary64 (UnpackedFloat.pack Format.binary64 x) ≠ .zero t) :
    (0 : Float) < stored x := by
  rw [lt_iff]
  refine ⟨origin, ?_⟩
  rw [place_stored]
  have hsigned := signed_unpack_pack h
  generalize unpack Format.binary64 (UnpackedFloat.pack Format.binary64 x) = y at hsigned nonzero
  cases hsigned with
  | infinity => exact ⟨_, place_zero, rfl, by simp [origin, Prod.Lex.toLex_lt_toLex]⟩
  | zero => exact absurd rfl (nonzero _)
  | finite => exact ⟨_, place_zero, rfl, by simp [origin, Prod.Lex.toLex_lt_toLex]⟩

/-! ### Products -/

/-- A factor above one that is in range has a full mantissa, and its last bit counts at least as much
as that of one. -/
theorem full_of_one_lt {b : Float} (h : 1 < b) (hfin : b.isFinite = true) :
    ∃ m e hm, b.toModel.unpack = .finite .positive m e hm ∧ 2 ^ 52 ≤ m ∧ -52 ≤ e := by
  obtain ⟨m, e, hm, hb⟩ := finite_of_one_lt h hfin
  obtain ⟨_, r, hone, hr, hlt⟩ := lt_iff.mp h
  rw [place_one, Option.some.injEq] at hone
  have hcanonical : Canonical b.toModel.unpack := canonical_unpack _
  rw [place, hb] at hr
  rw [hb] at hcanonical
  cases hr
  subst hone
  have hfull := hcanonical.2.2.2
  simp only [Prod.Lex.toLex_lt_toLex, lt_irrefl, false_or, true_and] at hlt
  refine ⟨m, e, hm, hb, ?_, ?_⟩ <;> omega

/-- What is above zero is infinite or has a mantissa and an exponent. -/
theorem infinity_or_finite_of_pos {a : Float} (h : 0 < a) :
    a.toModel.unpack = .infinity .positive ∨
      ∃ m e hm, a.toModel.unpack = .finite .positive m e hm := by
  obtain ⟨_, r, hzero, hr, hlt⟩ := lt_iff.mp h
  rw [place_zero, Option.some.injEq] at hzero
  subst hzero
  unfold place at hr
  rcases hx : a.toModel.unpack with s | _ | s | ⟨s, m, e, hm⟩ <;> rw [hx] at hr
  · cases s
    · cases hr
      exact absurd hlt (by simp [origin, Prod.Lex.toLex_lt_toLex])
    · exact .inl rfl
  · contradiction
  · cases hr
    exact absurd hlt (lt_irrefl _)
  · cases s
    · cases hr
      exact absurd hlt (by simp [origin, Prod.Lex.toLex_lt_toLex])
    · exact .inr ⟨m, e, hm, rfl⟩

/-- A positive double times a factor above one is positive: the exact product is not below the
smallest positive double. -/
theorem mul_pos {a b : Float} (ha : 0 < a) (hb : 1 < b) (hfin : b.isFinite = true) : 0 < a * b := by
  change (0 : Float) < stored
    (UnpackedFloat.mul Format.binary64 a.toModel.unpack b.toModel.unpack)
  obtain ⟨mb, eb, hmb, hy, hfull, hunit⟩ := full_of_one_lt hb hfin
  rw [hy]
  rcases infinity_or_finite_of_pos ha with hx | ⟨ma, ea, hma, hx⟩
  · rw [hx]
    refine zero_lt_stored (x := .infinity .positive) .infinity fun t h => ?_
    rw [unpack_pack_infinity] at h
    cases h
  · have hsmallest : -1074 ≤ ea := by
      have hcanonical : Canonical a.toModel.unpack := canonical_unpack _
      rw [hx] at hcanonical
      exact hcanonical.2.1
    have hlarge : -1074 ≤ ((ma * mb).log2 : ℤ) + (ea + eb) := by
      have hle : 2 ^ 52 ≤ ma * mb := hfull.trans (Nat.le_mul_of_pos_left mb hma)
      have hlog : 52 ≤ (ma * mb).log2 := (Nat.le_log2 (by omega)).mpr hle
      omega
    obtain ⟨m, e, hm, hround, hfits, he⟩ := roundWithAccuracy_of_le (s := .positive)
      (Nat.mul_pos hma hmb) hlarge
    have hproduct : UnpackedFloat.mul Format.binary64 (.finite .positive ma ea hma)
        (.finite .positive mb eb hmb) = .finite .positive m e hm := hround
    rw [hx, hproduct]
    exact zero_lt_stored (.finite hm) fun t => unpack_pack_ne_zero hm hfits he

end Double

open Double in
instance : GrowingScalar Float where
  mul_pos := Double.mul_pos
  beq_zero_of_pos {a} h := by
    rw [Bool.eq_false_iff]
    intro hzero
    obtain ⟨r, hr, hr'⟩ := beq_iff.mp hzero
    obtain ⟨r₀, s, h₀, hs, hlt⟩ := lt_iff.mp h
    rw [h₀, Option.some.injEq] at hr'
    rw [hs, Option.some.injEq] at hr
    exact absurd hlt (by rw [hr, hr']; exact lt_irrefl _)

end TrustRegion
