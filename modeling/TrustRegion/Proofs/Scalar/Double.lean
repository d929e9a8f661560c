/-
Module: TrustRegion.Proofs.Scalar.Double
Purpose: Doubles obey the laws of `LawfulScalar`. Every defined double has a place in a linear order;
  comparison is the comparison of places. A rounded difference keeps the sign of the exact one, which
  for numbers in canonical form is the sign that their places give, and a rounded product keeps the
  product of the signs.
Main exports: Double.place, Double.placedBy, the instance LawfulScalar Float
-/
import Mathlib
import TrustRegion.Proofs.Scalar.Lawful
import TrustRegion.Proofs.Scalar.Place

namespace TrustRegion

namespace Double

open Float.Model (Format UnpackedFloat)
open Float.Model.UnpackedFloat

/-! ### Places -/

/-- The place of an unpacked double: its sign first, then its exponent and its mantissa, which count
downwards below zero. An undefined value has none, and both zeros share one. -/
def rank : UnpackedFloat → Option (ℤ ×ₗ ℤ ×ₗ ℤ)
  | .notANumber => none
  | .infinity .negative => some (toLex (-2, toLex (0, 0)))
  | .finite .negative m e _ => some (toLex (-1, toLex (-e, -(m : ℤ))))
  | .zero _ => some (toLex (0, toLex (0, 0)))
  | .finite .positive m e _ => some (toLex (1, toLex (e, (m : ℤ))))
  | .infinity .positive => some (toLex (2, toLex (0, 0)))

/-- The place of zero. -/
def origin : ℤ ×ₗ ℤ ×ₗ ℤ :=
  toLex (0, toLex (0, 0))

/-- Comparing exponents and then mantissas is comparing places of the same sign. -/
theorem then_eq_cmp (c e e' : ℤ) (m m' : ℕ) :
    (compare e e').then (compare m m') =
      cmp (toLex (c, toLex (e, (m : ℤ)))) (toLex (c, toLex (e', (m' : ℤ)))) := by
  rcases lt_trichotomy e e' with h | rfl | h
  · rw [compare_lt_iff_lt.mpr h, eq_comm, Ordering.lt_then, cmp_eq_lt_iff]
    simp [Prod.Lex.toLex_lt_toLex, h]
  · rw [compare_eq_iff_eq.mpr rfl, Ordering.eq_then]
    rcases lt_trichotomy m m' with hm | rfl | hm
    · rw [compare_lt_iff_lt.mpr hm, eq_comm, cmp_eq_lt_iff]
      simp [Prod.Lex.toLex_lt_toLex, hm]
    · simp
    · rw [compare_gt_iff_gt.mpr hm, eq_comm, cmp_eq_gt_iff]
      simp [Prod.Lex.toLex_lt_toLex, hm]
  · rw [compare_gt_iff_gt.mpr h, eq_comm, Ordering.gt_then, cmp_eq_gt_iff]
    simp [Prod.Lex.toLex_lt_toLex, h]

/-- A place of two negative numbers is compared the other way round. -/
theorem negated_lt_iff (c e e' : ℤ) (m m' : ℤ) :
    toLex (c, toLex (-e, -m)) < toLex (c, toLex (-e', -m')) ↔
      toLex (e', m') < toLex (e, m) := by
  simp only [Prod.Lex.toLex_lt_toLex, lt_irrefl, false_or, true_and, neg_lt_neg_iff, neg_inj]
  rw [@eq_comm _ e e']

/-- Comparing two negative numbers is comparing their places. -/
theorem swap_then_eq_cmp (c e e' : ℤ) (m m' : ℕ) :
    ((compare e e').then (compare m m')).swap =
      cmp (toLex (c, toLex (-e, -(m : ℤ)))) (toLex (c, toLex (-e', -(m' : ℤ)))) := by
  rw [then_eq_cmp c, cmp_swap]
  have hsame (e e' m m' : ℤ) :
      toLex (c, toLex (e, m)) < toLex (c, toLex (e', m')) ↔ toLex (e, m) < toLex (e', m') := by
    simp [Prod.Lex.toLex_lt_toLex]
  rcases lt_trichotomy (toLex (e', (m' : ℤ))) (toLex (e, (m : ℤ))) with h | h | h
  · rw [cmp_eq_lt_iff .. |>.mpr ((hsame ..).mpr h), eq_comm, cmp_eq_lt_iff]
    exact (negated_lt_iff ..).mpr h
  · cases h
    simp
  · rw [cmp_eq_gt_iff .. |>.mpr ((hsame ..).mpr h), eq_comm, cmp_eq_gt_iff]
    exact (negated_lt_iff ..).mpr h

theorem compare_eq_cmp {x y : UnpackedFloat} {a b : ℤ ×ₗ ℤ ×ₗ ℤ} (ha : rank x = some a)
    (hb : rank y = some b) : x.compare y = some (cmp a b) := by
  rcases x with s | _ | s | ⟨s, m, e, hm⟩ <;> rcases y with s' | _ | s' | ⟨s', m', e', hm'⟩
  all_goals try cases s
  all_goals try cases s'
  all_goals simp only [rank, Option.some.injEq, reduceCtorEq] at ha hb
  all_goals subst ha hb
  -- unless both are finite and of one sign, the first component decides
  all_goals try rfl
  · exact congrArg some (swap_then_eq_cmp (-1) e e' m m')
  · exact congrArg some (then_eq_cmp 1 e e' m m')

theorem compare_eq_none {x y : UnpackedFloat} (h : rank x = none ∨ rank y = none) :
    x.compare y = none := by
  rcases x with s | _ | s | ⟨s, m, e, hm⟩ <;> rcases y with s' | _ | s' | ⟨s', m', e', hm'⟩
  all_goals try cases s
  all_goals try cases s'
  all_goals first | rfl | simp [rank] at h

/-- The place of a double among the doubles. -/
def place (a : Float) : Option (ℤ ×ₗ ℤ ×ₗ ℤ) :=
  rank a.toModel.unpack

theorem lt_iff {a b : Float} : a < b ↔ ∃ r s, place a = some r ∧ place b = some s ∧ r < s := by
  have hdef : a < b ↔ a.toModel.unpack.compare b.toModel.unpack = some .lt := by
    change (decide (a.toModel < b.toModel)) = true ↔ _
    rw [decide_eq_true_iff]
    change (a.toModel.unpack.compare b.toModel.unpack == some .lt) = true ↔ _
    exact beq_iff_eq
  rw [hdef]
  unfold place
  cases ha : rank a.toModel.unpack with
  | none => simp [compare_eq_none (.inl ha)]
  | some r =>
      cases hb : rank b.toModel.unpack with
      | none => simp [compare_eq_none (.inr hb)]
      | some s => simp [compare_eq_cmp ha hb]

theorem le_iff {a b : Float} : a ≤ b ↔ ∃ r s, place a = some r ∧ place b = some s ∧ r ≤ s := by
  have hdef : a ≤ b ↔ (a.toModel.unpack.compare b.toModel.unpack).any (·.isLE) = true := by
    change (decide (a.toModel ≤ b.toModel)) = true ↔ _
    rw [decide_eq_true_iff]
    exact Iff.rfl
  rw [hdef]
  unfold place
  cases ha : rank a.toModel.unpack with
  | none => simp [compare_eq_none (.inl ha)]
  | some r =>
      cases hb : rank b.toModel.unpack with
      | none => simp [compare_eq_none (.inr hb)]
      | some s =>
          rw [compare_eq_cmp ha hb]
          simp [Ordering.isLE_iff_eq_lt_or_eq_eq, le_iff_lt_or_eq]

theorem beq_iff {a b : Float} : (a == b) = true ↔ ∃ r, place a = some r ∧ place b = some r := by
  have hdef : (a == b) = true ↔ a.toModel.unpack.compare b.toModel.unpack = some .eq := by
    change (a.toModel.unpack.compare b.toModel.unpack == some .eq) = true ↔ _
    exact beq_iff_eq
  rw [hdef]
  unfold place
  cases ha : rank a.toModel.unpack with
  | none => simp [compare_eq_none (.inl ha)]
  | some r =>
      cases hb : rank b.toModel.unpack with
      | none => simp [compare_eq_none (.inr hb)]
      | some s => simp [compare_eq_cmp ha hb, @eq_comm _ s r]

/-- Doubles are compared by their places. -/
theorem placedBy : PlacedBy place :=
  { lt_iff, le_iff, beq_iff }

/-- A double equals itself exactly if it has a place. -/
theorem beq_self_iff {a : Float} : (a == a) = true ↔ ∃ r, place a = some r :=
  placedBy.beq_self_iff

theorem place_zero : place (0 : Float) = some origin := by
  decide +kernel

theorem place_one : place (1 : Float) = some (toLex (1, toLex (-52, 2 ^ 52))) := by
  decide +kernel

/-! ### Signs -/

/-- A value of the given sign; an undefined one has no sign. -/
inductive Signed (s : Sign) : UnpackedFloat → Prop where
  | infinity : Signed s (.infinity s)
  | zero : Signed s (.zero s)
  | finite {m : ℕ} {e : ℤ} (h : 0 < m) : Signed s (.finite s m e h)

theorem signed_roundWithAccuracy (s : Sign) (m : ℕ) (e : ℤ) (accuracy : Accuracy) :
    Signed s (roundWithAccuracy Format.binary64 s m e accuracy) := by
  unfold roundWithAccuracy
  dsimp only
  split
  · exact .zero
  · exact .finite _

theorem signed_round (s : Sign) (m : ℕ) (e : ℤ) :
    Signed s (round Format.binary64 s m e) :=
  signed_roundWithAccuracy _ _ _ _

theorem le_rank_of_signed {x : UnpackedFloat} (h : Signed .positive x) :
    ∃ r, rank x = some r ∧ origin ≤ r := by
  cases h with
  | infinity => exact ⟨_, rfl, by simp [origin, Prod.Lex.toLex_le_toLex]⟩
  | zero => exact ⟨_, rfl, le_refl _⟩
  | finite => exact ⟨_, rfl, by simp [origin, Prod.Lex.toLex_le_toLex]⟩

theorem rank_le_of_signed {x : UnpackedFloat} (h : Signed .negative x) :
    ∃ r, rank x = some r ∧ r ≤ origin := by
  cases h with
  | infinity => exact ⟨_, rfl, by simp [origin, Prod.Lex.toLex_le_toLex]⟩
  | zero => exact ⟨_, rfl, le_refl _⟩
  | finite => exact ⟨_, rfl, by simp [origin, Prod.Lex.toLex_le_toLex]⟩

theorem signed_or_signed (x : UnpackedFloat) :
    x = .notANumber ∨ Signed .negative x ∨ Signed .positive x := by
  rcases x with s | _ | s | ⟨s, m, e, hm⟩
  · cases s
    · exact .inr (.inl .infinity)
    · exact .inr (.inr .infinity)
  · exact .inl rfl
  · cases s
    · exact .inr (.inl .zero)
    · exact .inr (.inr .zero)
  · cases s
    · exact .inr (.inl (.finite hm))
    · exact .inr (.inr (.finite hm))

/-! ### Storing a value -/

theorem unpackSign_packComponents (s : Sign) (e : BitVec 11) (m : BitVec 52) :
    unpackSign (packComponents Format.binary64 s e m) = s.toBitVec := by
  have h : unpackSign (packComponents Format.binary64 s e m) =
      (s.toBitVec ++ e ++ m).extractLsb' 63 1 := rfl
  rw [h, BitVec.extractLsb'_append_eq_of_le (by decide),
    BitVec.extractLsb'_append_eq_of_le (by decide)]
  exact BitVec.extractLsb'_eq_self

theorem ofBitVec_toBitVec (s : Sign) : Sign.ofBitVec s.toBitVec = s := by
  cases s <;> rfl

/-- Bits read as a value of the sign they hold, unless they are those of an undefined value. -/
theorem signed_unpack {s : Sign} {e : BitVec 11} {m : BitVec 52} (h : e = -1#11 → m = 0#52) :
    Signed s (unpack Format.binary64 (packComponents Format.binary64 s e m)) := by
  simp only [unpack, unpackMantissa_packComponents, unpackExponent_packComponents,
    unpackSign_packComponents, ofBitVec_toBitVec]
  split
  · rename_i he
    rw [if_pos (h he)]
    exact .infinity
  · split
    · split
      · exact .zero
      · exact .finite _
    · exact .finite _

/-- A value that is not undefined keeps its sign when it is stored. -/
theorem signed_unpack_pack {s : Sign} {x : UnpackedFloat} (h : Signed s x) :
    Signed s (unpack Format.binary64 (UnpackedFloat.pack Format.binary64 x)) := by
  cases h with
  | infinity => exact signed_unpack fun _ => rfl
  | zero => exact signed_unpack fun he => absurd he (by decide)
  | @finite m e hm =>
      simp only [UnpackedFloat.pack]
      split
      · exact signed_unpack fun _ => rfl
      · rename_i hrange
        split
        · apply signed_unpack
          intro he
          have := congrArg BitVec.toNat he
          simp at this hrange
          omega
        · exact signed_unpack fun he => absurd he (by decide)

theorem unpack_pack_notANumber :
    unpack Format.binary64 (UnpackedFloat.pack Format.binary64 .notANumber) = .notANumber := rfl

theorem unpack_pack_infinity (s : Sign) :
    unpack Format.binary64 (UnpackedFloat.pack Format.binary64 (.infinity s)) = .infinity s := by
  cases s <;> rfl

theorem unpack_pack_zero (s : Sign) :
    unpack Format.binary64 (UnpackedFloat.pack Format.binary64 (.zero s)) = .zero s := by
  cases s <;> rfl

/-- The double that a computed value is stored as. -/
def stored (x : UnpackedFloat) : Float :=
  Float.ofModel (Float.Model.pack x)

theorem place_stored (x : UnpackedFloat) :
    place (stored x) = rank (unpack Format.binary64 (UnpackedFloat.pack Format.binary64 x)) := rfl

/-- A stored value is at least zero if the value has a positive sign. -/
theorem zero_le_stored {x : UnpackedFloat} (h : Signed .positive x) : (0 : Float) ≤ stored x := by
  obtain ⟨r, hr, hle⟩ := le_rank_of_signed (signed_unpack_pack h)
  exact le_iff.mpr ⟨origin, r, place_zero, hr, hle⟩

/-- A stored value is positive only if the value has a positive sign and is not zero. -/
theorem signed_of_zero_lt_stored {x : UnpackedFloat} (h : (0 : Float) < stored x) :
    Signed .positive x ∧ ∀ s, x ≠ .zero s := by
  obtain ⟨_, r, ho, hr, hlt⟩ := lt_iff.mp h
  rw [place_zero, Option.some.injEq] at ho
  subst ho
  rw [place_stored] at hr
  constructor
  · rcases signed_or_signed x with rfl | hneg | hpos
    · rw [unpack_pack_notANumber] at hr
      contradiction
    · obtain ⟨r', hr', hle⟩ := rank_le_of_signed (signed_unpack_pack hneg)
      rw [hr, Option.some.injEq] at hr'
      subst hr'
      exact absurd hlt (not_lt.mpr hle)
    · exact hpos
  · rintro s rfl
    rw [unpack_pack_zero] at hr
    cases hr
    exact lt_irrefl _ hlt

/-! ### Canonical form -/

/-- What reading a double guarantees of its mantissa and its exponent: the mantissa is full unless
the exponent is the smallest. -/
def Canonical : UnpackedFloat → Prop
  | .finite _ m e _ => m < 2 ^ 53 ∧ -1074 ≤ e ∧ e ≤ 971 ∧ (2 ^ 52 ≤ m ∨ e = -1074)
  | _ => True

theorem exponentBias_binary64 : Format.binary64.exponentBias = 1023 := rfl

theorem toNat_one_append (m : BitVec 52) : (1#1 ++ m).toNat = 2 ^ 52 + m.toNat := by
  rw [BitVec.toNat_append, ← Nat.shiftLeft_add_eq_or_of_lt m.isLt]
  rfl

theorem canonical_unpack (b : BitVec Format.binary64.numBits) :
    Canonical (unpack Format.binary64 b) := by
  simp only [unpack]
  have hm : (unpackMantissa b).toNat < 2 ^ 52 := (unpackMantissa b).isLt
  split
  · split <;> trivial
  · rename_i hmax
    split
    · split
      · trivial
      · rename_i hexp hmant
        simp [Canonical, hexp, exponentBias_binary64]
        omega
    · rename_i hexp
      have he : (unpackExponent b).toNat < 2 ^ 11 := (unpackExponent b).isLt
      have hzero : (unpackExponent b).toNat ≠ 0 := fun h => hexp (BitVec.eq_of_toNat_eq h)
      have hfull : (unpackExponent b).toNat ≠ 2047 := fun h => hmax (BitVec.eq_of_toNat_eq h)
      simp [Canonical, toNat_one_append, exponentBias_binary64]
      omega

/-- Bits with an exponent that is neither the smallest nor the largest are read with a full mantissa. -/
theorem unpack_normal {s : Sign} {e : BitVec 11} {m : BitVec 52} (hmin : 0 < e.toNat)
    (hmax : e.toNat < 2047) :
    unpack Format.binary64 (packComponents Format.binary64 s e m) =
      .finite s (1#1 ++ m).toNat (e.toNat - 1075) (by rw [toNat_one_append]; omega) := by
  have hmin' : e ≠ 0#11 := fun h => hmin.ne' (congrArg BitVec.toNat h)
  have hmax' : e ≠ -1#11 := fun h => hmax.ne (congrArg BitVec.toNat h)
  simp only [unpack, unpackMantissa_packComponents, unpackExponent_packComponents,
    unpackSign_packComponents, ofBitVec_toBitVec]
  rw [if_neg hmax', if_neg hmin']
  rfl

/-- Bits with the smallest exponent are read with the mantissa they hold, unless it is zero. -/
theorem unpack_subnormal {s : Sign} {m : BitVec 52} (h : 0 < m.toNat) :
    unpack Format.binary64 (packComponents Format.binary64 s 0#11 m) =
      .finite s m.toNat (-1074) h := by
  have hm : m ≠ 0#52 := by
    rintro rfl
    exact lt_irrefl 0 h
  simp only [unpack, unpackMantissa_packComponents, unpackExponent_packComponents,
    unpackSign_packComponents, ofBitVec_toBitVec]
  rw [if_neg (by decide), if_true, dif_neg hm]
  rfl

/-- A number in canonical form is read back as it was stored. -/
theorem unpack_pack_finite {s : Sign} {m : ℕ} {e : ℤ} {hm : 0 < m}
    (h : Canonical (.finite s m e hm)) :
    unpack Format.binary64 (UnpackedFloat.pack Format.binary64 (.finite s m e hm)) =
      .finite s m e hm := by
  obtain ⟨hlt, hmin, hmax, hfull⟩ := h
  have hrange : ¬ 2 ^ Format.binary64.exponentBits ≤
      (e + Format.binary64.exponentBias + Format.binary64.mantissaBitsWithoutImplicit).toNat + 1 := by
    change ¬ 2048 ≤ (e + 1023 + 52).toNat + 1
    omega
  simp only [UnpackedFloat.pack, if_neg hrange]
  by_cases hlow : 2 ^ 52 ≤ m
  · -- the leading one of a full mantissa is not stored
    have hlog : m.log2 + 1 = Format.binary64.mantissaBits :=
      congrArg (· + 1) ((Nat.log2_eq_iff hm.ne').mpr ⟨hlow, hlt⟩)
    have hexponent : (BitVec.ofNat 11 (e + 1023 + 52).toNat).toNat = (e + 1075).toNat := by
      rw [BitVec.toNat_ofNat]
      omega
    rw [if_pos hlog]
    change unpack Format.binary64 (packComponents Format.binary64 s
      (BitVec.ofNat 11 (e + 1023 + 52).toNat) (BitVec.ofNat 52 m)) = _
    rw [unpack_normal (by omega) (by omega)]
    simp only [toNat_one_append, hexponent, BitVec.toNat_ofNat]
    congr 1 <;> omega
  · have hlog : m.log2 + 1 ≠ Format.binary64.mantissaBits := fun h =>
      hlow ((Nat.log2_eq_iff hm.ne').mp (Nat.succ_injective h)).1
    have hmantissa : (BitVec.ofNat 52 m).toNat = m := by
      rw [BitVec.toNat_ofNat, Nat.mod_eq_of_lt (not_le.mp hlow)]
    obtain rfl := hfull.resolve_left hlow
    rw [if_neg hlog]
    change unpack Format.binary64 (packComponents Format.binary64 s 0#11 (BitVec.ofNat 52 m)) = _
    rw [unpack_subnormal (hmantissa.symm ▸ hm)]
    simp only [hmantissa]

/-- What is read of a double is read back as it is stored. -/
theorem unpack_pack_of_canonical {x : UnpackedFloat} (h : Canonical x) :
    unpack Format.binary64 (UnpackedFloat.pack Format.binary64 x) = x := by
  rcases x with s | _ | s | ⟨s, m, e, hm⟩
  · exact unpack_pack_infinity s
  · rfl
  · exact unpack_pack_zero s
  · exact unpack_pack_finite h

/-! ### Differences -/

/-- Of two positive numbers in canonical form the larger one has the larger place. -/
theorem lex_lt_of_scaled_lt {m m' : ℕ} {e e' : ℤ} (h : m < 2 ^ 53) (hmin : -1074 ≤ e)
    (h' : 2 ^ 52 ≤ m' ∨ e' = -1074)
    (hlt : m' * 2 ^ (e' - min e e').toNat < m * 2 ^ (e - min e e').toNat) :
    toLex (e', (m' : ℤ)) < toLex (e, (m : ℤ)) := by
  rw [Prod.Lex.toLex_lt_toLex]
  rcases lt_trichotomy e' e with he | rfl | he
  · exact .inl he
  · simp at hlt
    exact .inr ⟨rfl, Int.ofNat_lt.mpr hlt⟩
  · -- an exponent above the smallest one comes with a full mantissa
    exfalso
    have hm' : 2 ^ 52 ≤ m' := h'.resolve_right (by omega)
    have hscale : (e - min e e').toNat = 0 := by omega
    obtain ⟨k, hk⟩ : ∃ k, (e' - min e e').toNat = k + 1 := ⟨(e' - e).toNat - 1, by omega⟩
    rw [hscale, hk, pow_succ] at hlt
    have : 1 ≤ 2 ^ k := Nat.one_le_two_pow
    nlinarith

/-- An exact sum is positive if the rounded one is. -/
theorem pos_of_signed_normalize {m e : ℤ} {s : Sign}
    (h : Signed .positive (UnpackedFloat.normalize Format.binary64 m e s))
    (hz : ∀ t, UnpackedFloat.normalize Format.binary64 m e s ≠ .zero t) : 0 < m := by
  unfold UnpackedFloat.normalize at h hz
  rcases lt_trichotomy m 0 with hm | rfl | hm
  · rw [compare_lt_iff_lt.mpr hm] at h hz
    dsimp only at h hz
    have hneg := signed_round .negative (-m).toNat e
    generalize round Format.binary64 .negative (-m).toNat e = x at h hz hneg
    cases hneg with
    | infinity => contradiction
    | zero => exact absurd rfl (hz _)
    | finite => contradiction
  · exact absurd rfl (hz s)
  · exact hm

theorem scaled_lt_of_sub_pos {s s' : Sign} {m m' : ℕ} {e e' : ℤ} {hm : 0 < m} {hm' : 0 < m'}
    (h : Signed .positive
      (UnpackedFloat.sub Format.binary64 (.finite s m e hm) (.finite s' m' e' hm')))
    (hz : ∀ t, UnpackedFloat.sub Format.binary64 (.finite s m e hm) (.finite s' m' e' hm') ≠
      .zero t) :
    s'.apply ((m' * 2 ^ (e' - min e e').toNat : ℕ) : ℤ) <
      s.apply ((m * 2 ^ (e - min e e').toNat : ℕ) : ℤ) := by
  have hpos := pos_of_signed_normalize h hz
  simp only [Nat.shiftLeft_eq] at hpos
  exact sub_pos.mp hpos

/-- If a rounded difference is positive, the second number has the smaller place. -/
theorem rank_lt_of_sub_pos {x y : UnpackedFloat} (hx : Canonical x) (hy : Canonical y)
    (h : Signed .positive (UnpackedFloat.sub Format.binary64 x y))
    (hz : ∀ s, UnpackedFloat.sub Format.binary64 x y ≠ .zero s) :
    ∃ r s, rank y = some r ∧ rank x = some s ∧ r < s := by
  rcases x with sx | _ | sx | ⟨sx, mx, ex, hmx⟩ <;> rcases y with sy | _ | sy | ⟨sy, my, ey, hmy⟩
  all_goals try cases sx
  all_goals try cases sy
  -- unless both numbers are finite, their signs and whether they are zero decide
  all_goals first
    | (simp [UnpackedFloat.sub] at h; done)
    | (cases h; done)
    | exact absurd rfl (hz _)
    | (refine ⟨_, _, rfl, rfl, ?_⟩; simp [Prod.Lex.toLex_lt_toLex]; done)
    | have hlt := scaled_lt_of_sub_pos h hz
  case finite.finite.negative.negative =>
    have hlt' : mx * 2 ^ (ex - min ey ex).toNat < my * 2 ^ (ey - min ey ex).toNat := by
      rw [min_comm]
      exact Int.ofNat_lt.mp (neg_lt_neg_iff.mp hlt)
    have hlex := lex_lt_of_scaled_lt hy.1 hy.2.1 hx.2.2.2 hlt'
    exact ⟨_, _, rfl, rfl, (negated_lt_iff ..).mpr hlex⟩
  case finite.finite.negative.positive =>
    exfalso
    simp only [Sign.apply] at hlt
    have hmx' := Int.natCast_nonneg (mx * 2 ^ (ex - min ex ey).toNat)
    have hmy' := Int.natCast_nonneg (my * 2 ^ (ey - min ex ey).toNat)
    omega
  case finite.finite.positive.positive =>
    have hlex := lex_lt_of_scaled_lt hx.1 hx.2.1 hy.2.2.2 (Int.ofNat_lt.mp hlt)
    exact ⟨_, _, rfl, rfl, Prod.Lex.toLex_lt_toLex.mpr (.inr ⟨rfl, hlex⟩)⟩

theorem lt_of_sub_pos {a b : Float} (h : 0 < a - b) : b < a := by
  obtain ⟨hpos, hz⟩ := signed_of_zero_lt_stored
    (show (0 : Float) < stored (UnpackedFloat.sub Format.binary64 a.toModel.unpack
      b.toModel.unpack) from h)
  exact lt_iff.mpr (rank_lt_of_sub_pos (canonical_unpack _) (canonical_unpack _) hpos hz)

/-! ### Range, magnitude and products -/

/-- A double in range has a place strictly between the two infinities. -/
theorem rank_of_isFinite {x : UnpackedFloat} (h : x.isFinite = true) :
    ∃ r, rank x = some r ∧ r < toLex (2, toLex (0, 0)) := by
  rcases x with s | _ | s | ⟨s, m, e, hm⟩
  · simp [UnpackedFloat.isFinite] at h
  · simp [UnpackedFloat.isFinite] at h
  · exact ⟨_, rfl, by simp [Prod.Lex.toLex_lt_toLex]⟩
  · cases s
    · exact ⟨_, rfl, by simp [Prod.Lex.toLex_lt_toLex]⟩
    · exact ⟨_, rfl, by simp [Prod.Lex.toLex_lt_toLex]⟩

theorem beq_self_of_isFinite {a : Float} (h : a.isFinite = true) : (a == a) = true := by
  obtain ⟨r, hr, -⟩ := rank_of_isFinite h
  exact beq_self_iff.mpr ⟨r, hr⟩

theorem isFinite_of_nonneg_of_le {a b : Float} (ha : 0 ≤ a) (hab : a ≤ b)
    (hb : b.isFinite = true) : a.isFinite = true := by
  obtain ⟨_, r, ho, hr, hle⟩ := le_iff.mp ha
  obtain ⟨_, s, hr', hs, hle'⟩ := le_iff.mp hab
  obtain ⟨_, hs', hlt⟩ := rank_of_isFinite hb
  rw [place_zero, Option.some.injEq] at ho
  rw [hr, Option.some.injEq] at hr'
  subst ho hr'
  have hbound : r < toLex (2, toLex (0, 0)) := by
    rw [place, hs', Option.some.injEq] at hs
    subst hs
    exact lt_of_le_of_lt hle' hlt
  change a.toModel.unpack.isFinite = true
  unfold place at hr
  rcases hx : a.toModel.unpack with s | _ | s | ⟨s, m, e, hm⟩
  · rw [hx] at hr
    cases s <;> cases hr
    · exact absurd hle (by simp [origin, Prod.Lex.toLex_le_toLex])
    · exact absurd hbound (lt_irrefl _)
  · rw [hx] at hr
    contradiction
  · rfl
  · rfl

theorem canonical_abs {x : UnpackedFloat} (h : Canonical x) : Canonical x.abs := by
  rcases x with s | _ | s | ⟨s, m, e, hm⟩
  · trivial
  · trivial
  · trivial
  · exact h

/-- What is read of a magnitude is the magnitude of what is read. -/
theorem unpack_abs (a : Float) : a.abs.toModel.unpack = a.toModel.unpack.abs := by
  have hcanonical : Canonical a.toModel.unpack := canonical_unpack _
  exact unpack_pack_of_canonical (canonical_abs hcanonical)

theorem isFinite_abs (a : Float) : a.abs.isFinite = a.isFinite := by
  change a.abs.toModel.unpack.isFinite = a.toModel.unpack.isFinite
  rw [unpack_abs]
  rcases a.toModel.unpack with s | _ | s | ⟨s, m, e, hm⟩ <;> rfl

theorem signed_abs {x : UnpackedFloat} (h : x ≠ .notANumber) : Signed .positive x.abs := by
  rcases x with s | _ | s | ⟨s, m, e, hm⟩
  · exact .infinity
  · exact absurd rfl h
  · exact .zero
  · exact .finite hm

theorem abs_nonneg {a : Float} (h : (a.abs == a.abs) = true) : 0 ≤ a.abs := by
  refine zero_le_stored (signed_abs fun hx => ?_)
  obtain ⟨r, hr⟩ := beq_self_iff.mp h
  change place (stored a.toModel.unpack.abs) = some r at hr
  rw [hx] at hr
  contradiction

/-- What is at least zero, is zero or has a positive sign. -/
theorem zero_or_signed_of_nonneg {a : Float} (h : 0 ≤ a) :
    (∃ s, a.toModel.unpack = .zero s) ∨ Signed .positive a.toModel.unpack := by
  obtain ⟨_, r, ho, hr, hle⟩ := le_iff.mp h
  rw [place_zero, Option.some.injEq] at ho
  subst ho
  unfold place at hr
  rcases hx : a.toModel.unpack with s | _ | s | ⟨s, m, e, hm⟩
  · rw [hx] at hr
    cases s
    · cases hr
      exact absurd hle (by simp [origin, Prod.Lex.toLex_le_toLex])
    · exact .inr .infinity
  · rw [hx] at hr
    contradiction
  · exact .inl ⟨s, rfl⟩
  · rw [hx] at hr
    cases s
    · cases hr
      exact absurd hle (by simp [origin, Prod.Lex.toLex_le_toLex])
    · exact .inr (.finite hm)

theorem finite_of_one_lt {b : Float} (h : 1 < b) (hfin : b.isFinite = true) :
    ∃ m e hm, b.toModel.unpack = .finite .positive m e hm := by
  obtain ⟨_, r, ho, hr, hlt⟩ := lt_iff.mp h
  rw [place_one, Option.some.injEq] at ho
  subst ho
  unfold place at hr
  change b.toModel.unpack.isFinite = true at hfin
  rcases hx : b.toModel.unpack with s | _ | s | ⟨s, m, e, hm⟩
  · rw [hx] at hfin
    contradiction
  · rw [hx] at hfin
    contradiction
  · rw [hx] at hr
    cases hr
    exact absurd hlt (by simp [Prod.Lex.toLex_lt_toLex])
  · rw [hx] at hr
    cases s
    · cases hr
      exact absurd hlt (by simp [Prod.Lex.toLex_lt_toLex])
    · exact ⟨m, e, hm, rfl⟩

theorem mul_nonneg {a b : Float} (ha : 0 ≤ a) (hb : 1 < b) (hfin : b.isFinite = true) :
    0 ≤ a * b := by
  change (0 : Float) ≤ stored
    (UnpackedFloat.mul Format.binary64 a.toModel.unpack b.toModel.unpack)
  obtain ⟨m, e, hm, hy⟩ := finite_of_one_lt hb hfin
  rw [hy]
  rcases zero_or_signed_of_nonneg ha with ⟨s, hx⟩ | hpos
  · rw [hx]
    refine le_iff.mpr ⟨origin, origin, place_zero, ?_, le_refl _⟩
    rw [place_stored, UnpackedFloat.mul, unpack_pack_zero]
    rfl
  · apply zero_le_stored
    generalize a.toModel.unpack = x at hpos
    cases hpos with
    | infinity => exact .infinity
    | zero => exact .zero
    | finite => exact signed_roundWithAccuracy _ _ _ _

end Double

open Double in
instance : LawfulScalar Float where
  lt_irrefl := placedBy.lt_irrefl
  lt_trans := placedBy.lt_trans
  le_trans := placedBy.le_trans
  le_of_lt := placedBy.le_of_lt
  le_of_not_lt := placedBy.le_of_not_lt
  beq_self_of_le := placedBy.beq_self_of_le
  lt_of_sub_pos := lt_of_sub_pos
  isFinite_zero := by decide +kernel
  beq_self_of_isFinite := beq_self_of_isFinite
  isFinite_of_nonneg_of_le := isFinite_of_nonneg_of_le
  isFinite_abs := isFinite_abs
  abs_nonneg := abs_nonneg
  mul_nonneg := mul_nonneg

end TrustRegion
