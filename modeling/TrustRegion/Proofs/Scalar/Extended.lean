/-
Module: TrustRegion.Proofs.Scalar.Extended
Purpose: Scalars among which some are out of range. A sum or a product is in range only if both of its
  operands are, whether or not it rounds, and magnitudes that are equally large are the same. Doubles
  and real numbers obey these laws, and under them the largest magnitude of a vector is reached at an
  entry, is undefined as soon as an entry is, and does not see the order of the entries.
Main exports: ExtendedScalar, the instances for doubles and for real numbers, Vec.beq_self_maxAbs_iff,
  Vec.exists_maxAbs_eq, Vec.maxAbs_eq_of_perm
-/
import TrustRegion.Proofs.Scalar.Double
import TrustRegion.Proofs.Scalar.Exact

namespace TrustRegion

open Scalar

/-- Laws of values that may be out of range: infinite or undefined. -/
class ExtendedScalar (α : Type) [Scalar α] : Prop extends LawfulScalar α where
  /-- Nothing that is added brings a value back into range. -/
  isFinite_of_add {a b : α} : isFinite (a + b) = true → isFinite a = true ∧ isFinite b = true
  /-- Nothing by which it is multiplied brings a value back into range, zero included. -/
  isFinite_of_mul {a b : α} : isFinite (a * b) = true → isFinite a = true ∧ isFinite b = true
  beq_self_abs (a : α) : (abs a == abs a) = (a == a)
  abs_zero : abs (0 : α) = 0
  /-- Magnitudes have one form each. -/
  abs_antisymm {a b : α} : abs a ≤ abs b → abs b ≤ abs a → abs a = abs b
  /-- There is one undefined value. -/
  eq_of_undefined {a b : α} : (a == a) = false → (b == b) = false → a = b

instance : ExtendedScalar ℝ where
  isFinite_of_add _ := ⟨rfl, rfl⟩
  isFinite_of_mul _ := ⟨rfl, rfl⟩
  beq_self_abs _ := (beq_self_eq_true _).trans (beq_self_eq_true _).symm
  abs_zero := abs_zero
  abs_antisymm := le_antisymm
  eq_of_undefined h := absurd ((beq_self_eq_true _).symm.trans h) (by decide)

/-! ### Doubles -/

namespace Double

open Float.Model (Format UnpackedFloat)
open Float.Model.UnpackedFloat

/-- A value out of range, infinite or undefined, is stored as one that is out of range. -/
theorem isFinite_of_stored {x : UnpackedFloat} (h : (stored x).isFinite = true) :
    x.isFinite = true := by
  change (unpack Format.binary64 (UnpackedFloat.pack Format.binary64 x)).isFinite = true at h
  rcases x with s | _ | s | ⟨s, m, e, hm⟩
  · rw [unpack_pack_infinity] at h
    exact h
  · exact h
  · rfl
  · rfl

theorem isFinite_of_add {x y : UnpackedFloat}
    (h : (UnpackedFloat.add Format.binary64 x y).isFinite = true) :
    x.isFinite = true ∧ y.isFinite = true := by
  rcases x with s | _ | s | ⟨s, m, e, hm⟩ <;> rcases y with s' | _ | s' | ⟨s', m', e', hm'⟩
  -- two infinities add up to an infinity or to nothing defined
  case infinity.infinity =>
    simp only [UnpackedFloat.add] at h
    split at h <;> contradiction
  all_goals first | exact ⟨rfl, rfl⟩ | contradiction

theorem isFinite_of_mul {x y : UnpackedFloat}
    (h : (UnpackedFloat.mul Format.binary64 x y).isFinite = true) :
    x.isFinite = true ∧ y.isFinite = true := by
  rcases x with s | _ | s | ⟨s, m, e, hm⟩ <;> rcases y with s' | _ | s' | ⟨s', m', e', hm'⟩
  all_goals first | exact ⟨rfl, rfl⟩ | contradiction

theorem place_abs (a : Float) : place a.abs = rank a.toModel.unpack.abs :=
  congrArg rank (unpack_abs a)

/-- Two magnitudes at one place are the same. -/
theorem abs_eq_of_rank_eq {x y : UnpackedFloat} (h : rank x.abs = rank y.abs) : x.abs = y.abs := by
  rcases x with s | _ | s | ⟨s, m, e, hm⟩ <;> rcases y with s' | _ | s' | ⟨s', m', e', hm'⟩
  case finite.finite =>
    simp only [UnpackedFloat.abs, rank, Option.some.injEq, EmbeddingLike.apply_eq_iff_eq,
      Prod.mk.injEq, true_and, Nat.cast_inj] at h
    obtain ⟨rfl, rfl⟩ := h
    rfl
  all_goals first | rfl | simp [UnpackedFloat.abs, rank] at h

theorem abs_antisymm {a b : Float} (h : a.abs ≤ b.abs) (h' : b.abs ≤ a.abs) : a.abs = b.abs := by
  obtain ⟨r, s, hr, hs, hle⟩ := le_iff.mp h
  obtain ⟨s', r', hs', hr', hle'⟩ := le_iff.mp h'
  rw [hr, Option.some.injEq] at hr'
  rw [hs, Option.some.injEq] at hs'
  subst hr' hs'
  have hplace : rank a.toModel.unpack.abs = rank b.toModel.unpack.abs := by
    rw [← place_abs, ← place_abs, hr, hs, le_antisymm hle hle']
  exact congrArg stored (abs_eq_of_rank_eq hplace)

theorem beq_self_abs (a : Float) : (a.abs == a.abs) = (a == a) := by
  rw [Bool.eq_iff_iff, beq_self_iff, beq_self_iff, place_abs, place]
  rcases a.toModel.unpack with s | _ | s | ⟨s, m, e, hm⟩
  · cases s <;> simp [UnpackedFloat.abs, rank]
  · rfl
  · rfl
  · cases s <;> simp [UnpackedFloat.abs, rank]

/-- Bits that are read as nothing defined have the largest exponent and a mantissa. -/
theorem of_unpack_eq_notANumber {b : BitVec Format.binary64.numBits}
    (h : unpack Format.binary64 b = .notANumber) :
    unpackExponent b = -1#11 ∧ unpackMantissa b ≠ 0#52 := by
  simp only [unpack] at h
  split at h
  · rename_i hexponent
    split at h
    · contradiction
    · rename_i hmantissa
      exact ⟨hexponent, hmantissa⟩
  · split at h
    · split at h <;> contradiction
    · contradiction

theorem unpack_of_undefined {a : Float} (h : (a == a) = false) :
    a.toModel.unpack = .notANumber := by
  rcases signed_or_signed a.toModel.unpack with hx | hneg | hpos
  · exact hx
  · obtain ⟨r, hr, -⟩ := rank_le_of_signed hneg
    rw [beq_self_iff.mpr ⟨r, hr⟩] at h
    contradiction
  · obtain ⟨r, hr, -⟩ := le_rank_of_signed hpos
    rw [beq_self_iff.mpr ⟨r, hr⟩] at h
    contradiction

/-- Undefined doubles have the same bits. -/
theorem eq_of_undefined {a b : Float} (ha : (a == a) = false) (hb : (b == b) = false) : a = b := by
  obtain ⟨⟨⟨x⟩, hx⟩⟩ := a
  obtain ⟨⟨⟨y⟩, hy⟩⟩ := b
  obtain ⟨hxe, hxm⟩ := of_unpack_eq_notANumber (unpack_of_undefined ha)
  obtain ⟨hye, hym⟩ := of_unpack_eq_notANumber (unpack_of_undefined hb)
  obtain rfl := (hx.eq_packedNaN hxe hxm).trans (hy.eq_packedNaN hye hym).symm
  rfl

end Double

open Double in
instance : ExtendedScalar Float where
  isFinite_of_add h := Double.isFinite_of_add (isFinite_of_stored h)
  isFinite_of_mul h := Double.isFinite_of_mul (isFinite_of_stored h)
  beq_self_abs := beq_self_abs
  abs_zero := by decide +kernel
  abs_antisymm := abs_antisymm
  eq_of_undefined := eq_of_undefined

/-! ### The largest magnitude -/

namespace Scalar

variable {α : Type} [Scalar α]

/-- The larger of two values is defined exactly if both are. -/
theorem beq_self_maxStrict_iff {a b : α} :
    (maxStrict a b == maxStrict a b) = true ↔ (a == a) = true ∧ (b == b) = true := by
  refine ⟨beq_self_of_maxStrict, fun ⟨ha, hb⟩ => ?_⟩
  rcases maxStrict_eq a b with h | h
  · rw [h]
    exact ha
  · rw [h]
    exact hb

/-- The largest of a family is zero or a member. -/
theorem largest_eq (f : Nat → α) (n : Nat) : largest f n = 0 ∨ ∃ i, i < n ∧ largest f n = f i := by
  induction n with
  | zero => exact .inl rfl
  | succ n ih =>
      rw [largest]
      rcases maxStrict_eq (largest f n) (f n) with h | h
      · rw [h]
        rcases ih with hzero | ⟨i, hi, heq⟩
        · exact .inl hzero
        · exact .inr ⟨i, Nat.lt_succ_of_lt hi, heq⟩
      · exact .inr ⟨n, Nat.lt_succ_self n, h⟩

/-- The largest of a family is defined exactly if every member is. -/
theorem beq_self_largest_iff [LawfulScalar α] {f : Nat → α} {n : Nat} :
    (largest f n == largest f n) = true ↔ ∀ i, i < n → (f i == f i) = true := by
  induction n with
  | zero =>
      exact iff_of_true (LawfulScalar.beq_self_of_isFinite LawfulScalar.isFinite_zero)
        fun i hi => absurd hi (Nat.not_lt_zero i)
  | succ n ih => rw [largest, beq_self_maxStrict_iff, ih, Nat.forall_lt_succ_right]

end Scalar

namespace Vec

variable {α : Type} [Scalar α]

/-- What is listed of a vector is what is read from it. -/
theorem mem_toList {v : Vec α} {x : α} : x ∈ v.toList ↔ ∃ i, i < v.size ∧ v.entry i = x := by
  have hread {i : Nat} (hi : i < v.size) : v.entry i = v.toList.get ⟨i, hi⟩ := by
    simp only [size] at hi
    simp [entry, toList, hi]
  rw [List.mem_iff_getElem]
  constructor
  · rintro ⟨i, hi, rfl⟩
    exact ⟨i, hi, hread hi⟩
  · rintro ⟨i, hi, rfl⟩
    exact ⟨i, hi, (hread hi).symm⟩

theorem forall_mem_toList {v : Vec α} {p : α → Prop} :
    (∀ x, x ∈ v.toList → p x) ↔ ∀ i, i < v.size → p (v.entry i) := by
  constructor
  · exact fun h i hi => h _ (mem_toList.mpr ⟨i, hi, rfl⟩)
  · rintro h x hx
    obtain ⟨i, hi, rfl⟩ := mem_toList.mp hx
    exact h i hi

variable [ExtendedScalar α] {v w : Vec α}

/-- The largest magnitude of a vector is defined exactly if every entry is. -/
theorem beq_self_maxAbs_iff :
    (v.maxAbs == v.maxAbs) = true ↔ ∀ x, x ∈ v.toList → (x == x) = true := by
  rw [maxAbs, beq_self_largest_iff, forall_mem_toList]
  simp only [ExtendedScalar.beq_self_abs]

/-- The largest magnitude of a vector is undefined exactly if an entry is. -/
theorem isNaN_maxAbs_iff : isNaN v.maxAbs = true ↔ ∃ x, x ∈ v.toList ∧ isNaN x = true := by
  simp only [isNaN, Bool.not_eq_true', Bool.eq_false_iff, ne_eq, beq_self_maxAbs_iff, not_forall,
    exists_prop]

/-- A largest magnitude that is defined is at least that of every entry. -/
theorem abs_le_maxAbs (defined : (v.maxAbs == v.maxAbs) = true) {x : α} (hx : x ∈ v.toList) :
    abs x ≤ v.maxAbs := by
  obtain ⟨i, hi, rfl⟩ := mem_toList.mp hx
  exact (le_largest defined).2 i hi

/-- A largest magnitude that is defined is reached at an entry. -/
theorem exists_maxAbs_eq (nonempty : v.toList ≠ []) (defined : (v.maxAbs == v.maxAbs) = true) :
    ∃ x, x ∈ v.toList ∧ v.maxAbs = abs x := by
  rcases largest_eq (fun i => abs (v.entry i)) v.size with hzero | ⟨i, hi, heq⟩
  · -- no entry is above zero, so each of them has the magnitude of zero
    obtain ⟨x, hx⟩ := List.exists_mem_of_ne_nil _ nonempty
    have hself : (abs x == abs x) = true :=
      (ExtendedScalar.beq_self_abs x).trans (beq_self_maxAbs_iff.mp defined x hx)
    have hle : abs x ≤ abs (0 : α) := by
      rw [ExtendedScalar.abs_zero, ← hzero]
      exact abs_le_maxAbs defined hx
    have hge : abs (0 : α) ≤ abs x := by
      rw [ExtendedScalar.abs_zero]
      exact LawfulScalar.abs_nonneg hself
    refine ⟨x, hx, ?_⟩
    rw [ExtendedScalar.abs_antisymm hle hge, ExtendedScalar.abs_zero]
    exact hzero
  · exact ⟨_, mem_toList.mpr ⟨i, hi, rfl⟩, heq⟩

/-- A vector whose entries are all among those of another one has no larger magnitude. -/
theorem maxAbs_le_of_subset (subset : v.toList ⊆ w.toList) (nonempty : v.toList ≠ [])
    (defined : (w.maxAbs == w.maxAbs) = true) :
    ∃ x : α, v.maxAbs = abs x ∧ abs x ≤ w.maxAbs := by
  have hdefined := beq_self_maxAbs_iff.mp defined
  obtain ⟨x, hx, heq⟩ :=
    exists_maxAbs_eq nonempty (beq_self_maxAbs_iff.mpr fun x hx => hdefined x (subset hx))
  exact ⟨x, heq, abs_le_maxAbs defined (subset hx)⟩

/-- The largest magnitude of a vector does not see the order of the entries. -/
theorem maxAbs_eq_of_perm (perm : v.toList.Perm w.toList) : v.maxAbs = w.maxAbs := by
  have hdefined : (v.maxAbs == v.maxAbs) = (w.maxAbs == w.maxAbs) := by
    rw [Bool.eq_iff_iff, beq_self_maxAbs_iff, beq_self_maxAbs_iff]
    simp only [perm.mem_iff]
  cases hw : (w.maxAbs == w.maxAbs) with
  | false => exact ExtendedScalar.eq_of_undefined (hdefined.trans hw) hw
  | true =>
      by_cases hempty : v.toList = []
      · have hv : v.size = 0 := congrArg List.length hempty
        have hw : w.size = 0 := perm.length_eq.symm.trans hv
        rw [maxAbs, maxAbs, hv, hw]
        rfl
      · obtain ⟨x, hx, hxle⟩ := maxAbs_le_of_subset perm.subset hempty hw
        have hempty' : w.toList ≠ [] := fun h => hempty (perm.trans (h ▸ .refl _)).eq_nil
        obtain ⟨y, hy, hyle⟩ := maxAbs_le_of_subset perm.symm.subset hempty' (hdefined.trans hw)
        rw [hy] at hxle
        rw [hx] at hyle
        rw [hx, hy, ExtendedScalar.abs_antisymm hxle hyle]

end Vec

end TrustRegion
