/-
Module: TrustRegion.Proofs.Step.Region
Purpose: How long a blended step is when nothing rounds. The fraction of the second leg is the root
  of the quadratic that puts the step on the boundary, and the step is inside the trust region,
  except where the second leg is so short that it counts as a whole.
Main exports: legFraction_root, normSq_blend, TooShort, blend_inside_iff
-/
import TrustRegion.Proofs.Scalar.Exact
import TrustRegion.Step

namespace TrustRegion

open Finset

/-! ### Squared lengths -/

/-- The squared length of a vector and a multiple of another. -/
theorem Vec.normSq_add_mul {c v : Vec ℝ} (size : v.size = c.size) (t : ℝ) :
    (Vec.ofFn c.size fun i => c.entry i + t * v.entry i).normSq =
      c.normSq + 2 * t * c.dot v + t ^ 2 * v.normSq := by
  rw [normSq_eq, normSq_eq, normSq_eq, dot_eq, size_ofFn, size, mul_sum, mul_sum,
    ← sum_add_distrib, ← sum_add_distrib]
  apply sum_congr rfl
  intro i hi
  rw [entry_ofFn (mem_range.mp hi)]
  ring

/-- The squared length of a multiple of a vector. -/
theorem Vec.normSq_mul (v : Vec ℝ) (t : ℝ) :
    (Vec.ofFn v.size fun i => v.entry i * t).normSq = v.normSq * t ^ 2 := by
  rw [normSq_eq, normSq_eq, size_ofFn, sum_mul]
  apply sum_congr rfl
  intro i hi
  rw [entry_ofFn (mem_range.mp hi)]
  ring

/-- A vector and the whole of what leads from it to another are the other. -/
theorem Vec.add_sub_eq {c g : Vec ℝ} (size : g.size = c.size) :
    (Vec.ofFn c.size fun i => c.entry i + 1 * (g.sub c).entry i) = g := by
  apply ext_entry (by rw [size_ofFn, size])
  intro i hi
  rw [size_ofFn] at hi
  rw [entry_ofFn hi, sub, entry_ofFn (size ▸ hi)]
  ring

/-! ### The fraction of the second leg -/

section Fraction

variable {a b k : ℝ}

/-- The root in the form that adds no cancelling terms when `b` is at most zero. -/
theorem root_of_nonpos {d : ℝ} (ha : 0 < a) (hb : b ≤ 0) (hpast : 0 < a + 2 * b + k) (hk : k < 0)
    (hd : 0 ≤ d) (hsq : d ^ 2 = b * b - a * k) :
    0 ≤ (-b + d) / a ∧ (-b + d) / a ≤ 1 ∧
      a * ((-b + d) / a) ^ 2 + 2 * b * ((-b + d) / a) + k = 0 := by
  have hroot : (-b + d) / a * a = -b + d := div_mul_cancel₀ _ ha.ne'
  refine ⟨div_nonneg (by linarith) ha.le, ?_, ?_⟩
  · rw [div_le_one ha]
    have hsum : 0 ≤ a + b := by linarith
    have hle : d ^ 2 ≤ (a + b) ^ 2 := by
      rw [hsq]
      nlinarith [mul_pos ha hpast]
    linarith [(le_abs_self d).trans (abs_le_of_sq_le_sq hle hsum)]
  · apply mul_left_cancel₀ ha.ne'
    calc a * (a * ((-b + d) / a) ^ 2 + 2 * b * ((-b + d) / a) + k)
        = ((-b + d) / a * a) ^ 2 + 2 * b * ((-b + d) / a * a) + a * k := by ring
      _ = d ^ 2 - b * b + a * k := by rw [hroot]; ring
      _ = a * 0 := by rw [hsq]; ring

/-- The same root in the other form when `b` is positive. -/
theorem root_of_pos {d : ℝ} (hb : 0 < b) (hpast : 0 < a + 2 * b + k) (hk : k < 0) (hd : 0 ≤ d)
    (hsq : d ^ 2 = b * b - a * k) :
    0 ≤ -k / (b + d) ∧ -k / (b + d) ≤ 1 ∧
      a * (-k / (b + d)) ^ 2 + 2 * b * (-k / (b + d)) + k = 0 := by
  have hsum : 0 < b + d := by linarith
  have hroot : -k / (b + d) * (b + d) = -k := div_mul_cancel₀ _ hsum.ne'
  refine ⟨div_nonneg (by linarith) hsum.le, ?_, ?_⟩
  · rw [div_le_one hsum]
    by_contra hlt
    nlinarith [mul_neg_of_neg_of_pos hk hpast]
  · apply mul_left_cancel₀ (pow_ne_zero 2 hsum.ne')
    calc (b + d) ^ 2 * (a * (-k / (b + d)) ^ 2 + 2 * b * (-k / (b + d)) + k)
        = a * (-k / (b + d) * (b + d)) ^ 2 + 2 * b * (-k / (b + d) * (b + d)) * (b + d)
            + k * (b + d) ^ 2 := by ring
      _ = k * (d ^ 2 - b * b + a * k) := by rw [hroot]; ring
      _ = (b + d) ^ 2 * 0 := by rw [hsq]; ring

end Fraction

theorem clamp_eq_self {t : ℝ} (hnonneg : 0 ≤ t) (hle : t ≤ 1) : Scalar.clamp 0 1 t = t := by
  rw [Scalar.clamp, if_neg (not_lt.mpr hnonneg), if_neg (not_lt.mpr hle)]

/-- The fraction of the second leg that is not too short to tell puts the step on the boundary. -/
theorem legFraction_root {cauchy : Leg ℝ} {v : Vec ℝ} {radiusSq : ℝ}
    (long : ¬ v.normSq < 1e-15) (short : cauchy.normSq < radiusSq)
    (past : radiusSq < cauchy.normSq + 2 * cauchy.vector.dot v + v.normSq) :
    cauchy.normSq + 2 * legFraction cauchy v radiusSq * cauchy.vector.dot v +
      legFraction cauchy v radiusSq ^ 2 * v.normSq = radiusSq := by
  set a := v.normSq with hnormSq
  set b := cauchy.vector.dot v with hdot
  set k := cauchy.normSq - radiusSq with hdifference
  have ha : 0 < a := by
    refine lt_of_lt_of_le ?_ (not_lt.mp long)
    norm_num
  have hk : k < 0 := sub_neg.mpr short
  have hpast : 0 < a + 2 * b + k := by linarith
  have hdiscriminant : 0 ≤ b * b - a * k := by
    nlinarith [mul_neg_of_pos_of_neg ha hk, mul_self_nonneg b]
  have hd : 0 ≤ Real.sqrt (b * b - a * k) := Real.sqrt_nonneg _
  have hsq : Real.sqrt (b * b - a * k) ^ 2 = b * b - a * k := Real.sq_sqrt hdiscriminant
  have hguard : ¬ (b * b - a * k < 0 ∨ Scalar.abs a < 1e-15) := by
    rintro (hlt | hlt)
    · exact absurd hlt (not_lt.mpr hdiscriminant)
    · rw [Scalar.abs_eq, abs_of_pos ha] at hlt
      exact long hlt
  unfold legFraction
  simp only [← hnormSq, ← hdot, ← hdifference, hguard, if_false, Scalar.sqrt_eq]
  split
  · rename_i hb
    obtain ⟨hnonneg, hle, hroot⟩ := root_of_nonpos ha hb hpast hk hd hsq
    rw [clamp_eq_self hnonneg hle]
    linarith
  · rename_i hb
    obtain ⟨hnonneg, hle, hroot⟩ := root_of_pos (not_le.mp hb) hpast hk hd hsq
    rw [clamp_eq_self hnonneg hle]
    linarith

/-- The fraction of a second leg that is too short to tell is all of it. -/
theorem legFraction_of_short {cauchy : Leg ℝ} {v : Vec ℝ} {radiusSq : ℝ} (short : v.normSq < 1e-15) :
    legFraction cauchy v radiusSq = 1 := by
  have hguard : cauchy.vector.dot v * cauchy.vector.dot v -
      v.normSq * (cauchy.normSq - radiusSq) < 0 ∨ Scalar.abs v.normSq < 1e-15 := by
    rw [Scalar.abs_eq, abs_of_nonneg v.normSq_nonneg]
    exact .inr short
  unfold legFraction
  simp only [hguard, if_true]
  exact clamp_eq_self zero_le_one le_rfl

/-! ### The length of a step -/

section Length

variable {c g : Leg ℝ} {radius : ℝ}

/-- A leg that is cut off has the length of the radius. -/
theorem Step.norm_clipped (exact : c.normSq = c.vector.normSq) (hradius : 0 < radius)
    (reaches : radius * radius ≤ c.normSq) : (Step.clipped c radius).norm = radius := by
  have hpos : 0 < c.vector.normSq := by
    rw [← exact]
    exact lt_of_lt_of_le (mul_pos hradius hradius) reaches
  have hsq : (Step.clipped c radius).update.normSq = radius ^ 2 := by
    rw [Step.clipped]
    dsimp only
    rw [Vec.normSq_mul, Scalar.sqrt_eq, exact, div_pow, Real.sq_sqrt hpos.le,
      mul_div_cancel₀ _ hpos.ne']
  rw [Step.norm, Vec.norm_eq, hsq, Real.sqrt_sq hradius.le]

/-- The first leg ends inside the region and the path outside of it, and the second leg is too short
to tell how much of it is inside. -/
def TooShort (c g : Leg ℝ) (radius : ℝ) : Prop :=
  c.normSq < radius * radius ∧ radius * radius < g.normSq ∧
    (g.vector.sub c.vector).normSq < 1e-15

/-- The squared length of a blend of two legs, neither of which is the step. -/
theorem normSq_blend (hpast : ¬ g.normSq ≤ radius * radius)
    (hshort : ¬ radius * radius ≤ c.normSq) (size : g.vector.size = c.vector.size) :
    (blend c g radius).update.normSq =
      c.vector.normSq +
        2 * legFraction c (g.vector.sub c.vector) (radius * radius) *
          c.vector.dot (g.vector.sub c.vector) +
        legFraction c (g.vector.sub c.vector) (radius * radius) ^ 2 *
          (g.vector.sub c.vector).normSq := by
  have hsub : (g.vector.sub c.vector).size = c.vector.size := by rw [Vec.size_sub, size]
  unfold blend
  rw [if_neg hpast, if_neg hshort]
  exact Vec.normSq_add_mul hsub _

/-- The squared length of the end of the path, seen from the end of the first leg. -/
theorem normSq_eq_of_legs (size : g.vector.size = c.vector.size) :
    g.vector.normSq = c.vector.normSq + 2 * c.vector.dot (g.vector.sub c.vector) +
      (g.vector.sub c.vector).normSq := by
  have hsub : (g.vector.sub c.vector).size = c.vector.size := by rw [Vec.size_sub, size]
  have h := Vec.normSq_add_mul hsub 1
  rw [Vec.add_sub_eq size] at h
  rw [h]
  ring

/-- A second leg that is too short to tell is taken as a whole: the step is the end of the path. -/
theorem blend_of_tooShort (size : g.vector.size = c.vector.size) (short : TooShort c g radius) :
    (blend c g radius).update = g.vector := by
  obtain ⟨hinside, houtside, hshort⟩ := short
  unfold blend
  rw [if_neg (not_le.mpr houtside), if_neg (not_le.mpr hinside)]
  dsimp only
  rw [legFraction_of_short hshort]
  exact Vec.add_sub_eq size

/-- A blended step stays inside the trust region, and reaches the boundary when it says so, exactly
if the second leg is not too short to tell. -/
theorem blend_inside_iff (hc : c.normSq = c.vector.normSq) (hg : g.normSq = g.vector.normSq)
    (size : g.vector.size = c.vector.size) (hradius : 0 < radius) :
    ((blend c g radius).norm ≤ radius ∧
      ((blend c g radius).toEdge = true → (blend c g radius).norm = radius)) ↔
      ¬ TooShort c g radius := by
  by_cases hpast : g.normSq ≤ radius * radius
  · -- the whole path lies inside
    have hblend : blend c g radius =
        { update := g.vector, kind := .gaussNewton, toEdge := false } := by
      unfold blend
      exact if_pos hpast
    have hnorm : (blend c g radius).norm ≤ radius := by
      rw [hblend, Step.norm, Vec.norm_eq, ← hg]
      exact Real.sqrt_le_iff.mpr ⟨hradius.le, by rwa [sq]⟩
    refine iff_of_true ⟨hnorm, fun hedge => ?_⟩ fun h => absurd h.2.1 (not_lt.mpr hpast)
    rw [hblend] at hedge
    cases hedge
  by_cases hshort : radius * radius ≤ c.normSq
  · -- the first leg alone reaches the boundary
    have hblend : blend c g radius = Step.clipped c radius := by
      unfold blend
      exact (if_neg hpast).trans (if_pos hshort)
    rw [hblend, Step.norm_clipped hc hradius hshort]
    exact iff_of_true ⟨le_rfl, fun _ => rfl⟩ fun h => absurd h.1 (not_lt.mpr hshort)
  have hinside : c.normSq < radius * radius := not_le.mp hshort
  have houtside : radius * radius < g.normSq := not_le.mp hpast
  by_cases hlong : (g.vector.sub c.vector).normSq < 1e-15
  · have htooShort : TooShort c g radius := ⟨hinside, houtside, hlong⟩
    refine iff_of_false (fun h => ?_) (not_not.mpr htooShort)
    have hnorm : radius < (blend c g radius).norm := by
      rw [Step.norm, Vec.norm_eq, blend_of_tooShort size htooShort, ← hg]
      exact (Real.lt_sqrt hradius.le).mpr (by rwa [sq])
    exact absurd h.1 (not_le.mpr hnorm)
  · -- the second leg is cut off where it leaves the region
    have hpath : radius * radius < c.normSq + 2 * c.vector.dot (g.vector.sub c.vector) +
        (g.vector.sub c.vector).normSq := by
      rw [hc, ← normSq_eq_of_legs size, ← hg]
      exact houtside
    have hnorm : (blend c g radius).norm = radius := by
      rw [Step.norm, Vec.norm_eq, normSq_blend hpast hshort size, ← hc,
        legFraction_root hlong hinside hpath,
        Real.sqrt_mul_self hradius.le]
    rw [hnorm]
    exact iff_of_true ⟨le_rfl, fun _ => rfl⟩ fun h => hlong h.2.2

end Length

end TrustRegion
