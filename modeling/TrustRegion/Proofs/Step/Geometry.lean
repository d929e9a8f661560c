/-
Module: TrustRegion.Proofs.Step.Geometry
Purpose: The shape of the dog-leg path when nothing rounds. As the radius grows the step runs along
  the first leg, then along the second, and stays at the end of the path. On the second leg the
  fraction is the one root between zero and one of the quadratic that puts the step on the boundary,
  by either of its two forms. So the length of the step is the smaller of the radius and the length
  of the path's end, whatever the angle between the legs.
Main exports: Crossing, crossing_iff, Resolves, norm_blend, blend_on_secondLeg, blend_geometry
-/
import TrustRegion.Proofs.Step.Region

namespace TrustRegion

/-! ### The root of the quadratic -/

/-- The number is the root between zero and one of `a t² + 2 b t + k`. The discriminant is positive,
and the root is given by the form that subtracts `b` and by the one that divides by what is added to
it, neither of which divides by zero. -/
structure Crossing (a b k t : ℝ) : Prop where
  discriminant : 0 < b * b - a * k
  leading : a ≠ 0
  divisor : b + Real.sqrt (b * b - a * k) ≠ 0
  difference : (-b + Real.sqrt (b * b - a * k)) / a = t
  quotient : -k / (b + Real.sqrt (b * b - a * k)) = t
  nonneg : 0 ≤ t
  le_one : t ≤ 1

section Quadratic

variable {a b k : ℝ}

/-- A quadratic that is negative at zero has no two roots on the same side. -/
theorem eq_of_roots {s t : ℝ} (ha : 0 < a) (hk : k < 0) (hs : 0 ≤ s) (ht : 0 ≤ t)
    (hsroot : a * s ^ 2 + 2 * b * s + k = 0) (htroot : a * t ^ 2 + 2 * b * t + k = 0) : s = t := by
  have hfactor : (s - t) * (a * (s + t) + 2 * b) = 0 := by linear_combination hsroot - htroot
  rcases mul_eq_zero.mp hfactor with heq | hsum
  · exact sub_eq_zero.mp heq
  · -- two different roots have the product `k / a`
    have hproduct : k = a * (s * t) := by linear_combination hsroot - s * hsum
    exact absurd hk (not_lt.mpr (hproduct ▸ mul_nonneg ha.le (mul_nonneg hs ht)))

/-- The square root of the discriminant exceeds the middle coefficient, whatever its sign. -/
theorem abs_lt_sqrt_discriminant (ha : 0 < a) (hk : k < 0) :
    |b| < Real.sqrt (b * b - a * k) := by
  rw [← Real.sqrt_mul_self_eq_abs]
  apply Real.sqrt_lt_sqrt (mul_self_nonneg b)
  linarith [mul_neg_of_pos_of_neg ha hk]

/-- A quadratic that is negative at zero and positive at one crosses zero in between. -/
theorem exists_crossing (ha : 0 < a) (hk : k < 0) (hpast : 0 < a + 2 * b + k) :
    ∃ t, Crossing a b k t ∧ a * t ^ 2 + 2 * b * t + k = 0 := by
  set d := Real.sqrt (b * b - a * k) with hdef
  have hdiscriminant : 0 < b * b - a * k := by
    linarith [mul_neg_of_pos_of_neg ha hk, mul_self_nonneg b]
  have hd : d ^ 2 = b * b - a * k := Real.sq_sqrt hdiscriminant.le
  have habs : |b| < d := abs_lt_sqrt_discriminant ha hk
  have hminus : 0 < -b + d := by linarith [le_abs_self b]
  have hplus : 0 < b + d := by linarith [neg_abs_le b]
  have hforms : (-b + d) / a = -k / (b + d) := by
    rw [div_eq_div_iff ha.ne' hplus.ne']
    linear_combination hd
  have hscaled : a * (-k / (b + d)) = -b + d := by
    rw [← hforms, mul_div_cancel₀ _ ha.ne']
  have hroot : a * (-k / (b + d)) ^ 2 + 2 * b * (-k / (b + d)) + k = 0 := by
    calc a * (-k / (b + d)) ^ 2 + 2 * b * (-k / (b + d)) + k
        = -k / (b + d) * (a * (-k / (b + d)) + 2 * b) + k := by ring
      _ = -k / (b + d) * (b + d) + k := by rw [hscaled]; ring
      _ = 0 := by rw [div_mul_cancel₀ _ hplus.ne']; ring
  refine ⟨-k / (b + d), ⟨hdiscriminant, ha.ne', hplus.ne', hforms, rfl, ?_, ?_⟩, hroot⟩
  · exact div_nonneg (neg_nonneg.mpr hk.le) hplus.le
  · rw [← hforms, div_le_one ha]
    -- at one the quadratic is positive, so `a + b` lies beyond the root of the discriminant
    have hexpand : (a + b) ^ 2 - d ^ 2 = a * (a + 2 * b + k) := by rw [hd]; ring
    have hsum : d ^ 2 < (a + b) ^ 2 := by linarith [mul_pos ha hpast]
    have hnonneg : 0 ≤ a + b := by linarith
    linarith [le_abs_self d, abs_lt_of_sq_lt_sq hsum hnonneg]

end Quadratic

/-- A fraction that is the root between zero and one is taken as it is. -/
theorem legFraction_eq_of_crossing {cauchy : Leg ℝ} {v : Vec ℝ} {radiusSq t : ℝ}
    (long : 1e-15 ≤ v.normSq)
    (h : Crossing v.normSq (cauchy.vector.dot v) (cauchy.normSq - radiusSq) t) :
    legFraction cauchy v radiusSq = t := by
  have hguard : ¬ (cauchy.vector.dot v * cauchy.vector.dot v -
      v.normSq * (cauchy.normSq - radiusSq) < 0 ∨ Scalar.abs v.normSq < 1e-15) := by
    rw [Scalar.abs_eq, abs_of_nonneg v.normSq_nonneg]
    exact not_or.mpr ⟨not_lt.mpr h.discriminant.le, not_lt.mpr long⟩
  unfold legFraction
  simp only [hguard, if_false, Scalar.sqrt_eq, h.difference, h.quotient, ite_self,
    clamp_eq_self h.nonneg h.le_one]

/-! ### The parts of the path -/

namespace Vec

/-- The point of the second leg, from the end of the first leg to the end of the path, that leaves a
given fraction of the leg behind. -/
noncomputable def along (c g : Vec ℝ) (t : ℝ) : Vec ℝ :=
  Vec.ofFn c.size fun i => c.entry i + t * (g.sub c).entry i

/-- Where the boundary lies across the second leg, that leg is long enough to tell how much of it is
inside. -/
def Resolves (c g : Vec ℝ) (radius : ℝ) : Prop :=
  c.norm < radius → radius < g.norm → 1e-15 ≤ (g.sub c).normSq

/-- The fraction of the second leg within the radius, as the root of its quadratic. -/
def CrossesAt (c g : Vec ℝ) (radius t : ℝ) : Prop :=
  Crossing (g.sub c).normSq (c.dot (g.sub c)) (c.normSq - radius * radius) t

variable {c g v : Vec ℝ} {radius : ℝ}

theorem norm_le_iff (hradius : 0 ≤ radius) : v.norm ≤ radius ↔ v.normSq ≤ radius * radius := by
  rw [norm_eq, Real.sqrt_le_left hradius, sq]

theorem le_norm_iff (hradius : 0 ≤ radius) : radius ≤ v.norm ↔ radius * radius ≤ v.normSq := by
  rw [norm_eq, Real.le_sqrt hradius v.normSq_nonneg, sq]

theorem normSq_along (size : g.size = c.size) (t : ℝ) :
    (c.along g t).normSq =
      (g.sub c).normSq * t ^ 2 + 2 * c.dot (g.sub c) * t + c.normSq := by
  rw [along, normSq_add_mul (by rw [size_sub, size])]
  ring

/-- A point of the second leg is on the boundary if its fraction solves the quadratic. -/
theorem norm_along_eq_iff (size : g.size = c.size) (hradius : 0 < radius) (t : ℝ) :
    (c.along g t).norm = radius ↔
      (g.sub c).normSq * t ^ 2 + 2 * c.dot (g.sub c) * t + (c.normSq - radius * radius) = 0 := by
  rw [norm_eq, Real.sqrt_eq_iff_mul_self_eq_of_pos hradius, normSq_along size]
  constructor <;> intro h <;> linarith

/-- The boundary crosses the second leg at exactly one of its points. -/
theorem exists_crossesAt (size : g.size = c.size) (hradius : 0 < radius) (inside : c.norm < radius)
    (outside : radius < g.norm) (long : 1e-15 ≤ (g.sub c).normSq) :
    ∃ t, c.CrossesAt g radius t ∧ (c.along g t).norm = radius ∧
      ∀ s, 0 ≤ s → s ≤ 1 → (c.along g s).norm = radius → s = t := by
  have ha : 0 < (g.sub c).normSq := lt_of_lt_of_le (by norm_num) long
  have hk : c.normSq - radius * radius < 0 :=
    sub_neg.mpr (not_le.mp (mt (le_norm_iff hradius.le).mpr (not_le.mpr inside)))
  have hpast : 0 < (g.sub c).normSq + 2 * c.dot (g.sub c) + (c.normSq - radius * radius) := by
    have hlong : radius * radius < g.normSq :=
      not_le.mp (mt (norm_le_iff hradius.le).mpr (not_le.mpr outside))
    have hlegs := normSq_eq_of_legs (c := Leg.ofVec c) (g := Leg.ofVec g) size
    simp only [Leg.ofVec] at hlegs
    linarith
  obtain ⟨t, hcrossing, hroot⟩ := exists_crossing ha hk hpast
  refine ⟨t, hcrossing, (norm_along_eq_iff size hradius t).mpr (by linarith), ?_⟩
  intro s hs _ hnorm
  have hsroot := (norm_along_eq_iff size hradius s).mp hnorm
  exact eq_of_roots ha hk hs hcrossing.nonneg (by linarith) hroot

end Vec

section Parts

variable {c g : Vec ℝ} {radius : ℝ}

/-- A path that ends within the radius is taken to its end. -/
theorem blend_of_norm_le (hradius : 0 ≤ radius) (inside : g.norm ≤ radius) :
    blend (Leg.ofVec c) (Leg.ofVec g) radius =
      { update := g, kind := .gaussNewton, toEdge := false } := by
  unfold blend
  exact if_pos ((Vec.norm_le_iff hradius).mp inside)

/-- A path whose first leg reaches the boundary is cut off there. -/
theorem blend_on_firstLeg (hradius : 0 ≤ radius) (outside : radius < g.norm)
    (reaches : radius ≤ c.norm) :
    blend (Leg.ofVec c) (Leg.ofVec g) radius = Step.clipped (Leg.ofVec c) radius := by
  unfold blend
  exact (if_neg (mt (Vec.norm_le_iff hradius).mpr (not_le.mpr outside))).trans
    (if_pos ((Vec.le_norm_iff hradius).mp reaches))

/-- A path that leaves the region on its second leg is followed for a fraction of that leg. -/
theorem blend_past_firstLeg (hradius : 0 ≤ radius) (outside : radius < g.norm)
    (inside : c.norm < radius) :
    blend (Leg.ofVec c) (Leg.ofVec g) radius =
      { update := c.along g (legFraction (Leg.ofVec c) (g.sub c) (radius * radius))
        kind := .dogLeg
        toEdge := true } := by
  unfold blend
  exact (if_neg (mt (Vec.norm_le_iff hradius).mpr (not_le.mpr outside))).trans
    (if_neg (mt (Vec.le_norm_iff hradius).mpr (not_le.mpr inside)))

/-- A path whose second leg can be told is cut off where that leg crosses the boundary. -/
theorem blend_on_secondLeg (hradius : 0 ≤ radius) (outside : radius < g.norm)
    (inside : c.norm < radius) (long : 1e-15 ≤ (g.sub c).normSq) {t : ℝ}
    (crosses : c.CrossesAt g radius t) :
    blend (Leg.ofVec c) (Leg.ofVec g) radius =
      { update := c.along g t, kind := .dogLeg, toEdge := true } := by
  rw [blend_past_firstLeg hradius outside inside]
  exact congrArg (fun t => Step.mk (c.along g t) .dogLeg true)
    (legFraction_eq_of_crossing long crosses)

/-- A leg that is cut off is a positive multiple of the whole leg. -/
theorem clipped_eq_mul (hradius : 0 < radius) (reaches : radius ≤ c.norm) :
    0 < radius / c.norm ∧ (Step.clipped (Leg.ofVec c) radius).update =
      Vec.ofFn c.size fun i => c.entry i * (radius / c.norm) :=
  ⟨div_pos hradius (hradius.trans_le reaches), by rw [Vec.norm_eq]; rfl⟩

/-- The step is as long as the radius, up to the length of the end of the path. -/
theorem norm_blend (size : g.size = c.size) (hradius : 0 < radius)
    (resolves : c.Resolves g radius) :
    (blend (Leg.ofVec c) (Leg.ofVec g) radius).norm = min radius g.norm := by
  rcases le_or_gt g.norm radius with hinside | houtside
  · rw [blend_of_norm_le hradius.le hinside, min_eq_right hinside]
    rfl
  rw [min_eq_left houtside.le]
  rcases le_or_gt radius c.norm with hreaches | hshort
  · rw [blend_on_firstLeg hradius.le houtside hreaches]
    exact Step.norm_clipped rfl hradius ((Vec.le_norm_iff hradius.le).mp hreaches)
  · have hlong := resolves hshort houtside
    obtain ⟨t, hcrosses, hnorm, -⟩ := Vec.exists_crossesAt size hradius hshort houtside hlong
    rw [blend_on_secondLeg hradius.le houtside hshort hlong hcrosses]
    exact hnorm

end Parts

/-! ### The path as a whole -/

/-- What a step along two legs is at a radius. It is the whole path, or a positive multiple of the
first leg, or leads to the only point of the second leg on the boundary. -/
structure BlendsAt (c g : Vec ℝ) (radius : ℝ) (step : Step ℝ) : Prop where
  norm : step.norm = min radius g.norm
  toEdge : step.toEdge = false ↔ g.norm ≤ radius
  whole : g.norm ≤ radius → step.update = g
  firstLeg : radius < g.norm → radius ≤ c.norm →
    ∃ t, 0 < t ∧ step.update = Vec.ofFn c.size fun i => c.entry i * t
  secondLeg : radius < g.norm → c.norm < radius →
    ∃ t, c.CrossesAt g radius t ∧ Scalar.clamp 0 1 t = t ∧ step.update = c.along g t ∧
      (c.along g t).norm = radius ∧
      ∀ s, 0 ≤ s → s ≤ 1 → (c.along g s).norm = radius → s = t

/-- Every blend is of this form as long as the second leg can be told. -/
theorem blendsAt_blend {c g : Vec ℝ} {radius : ℝ} (size : g.size = c.size) (hradius : 0 < radius)
    (resolves : c.Resolves g radius) :
    BlendsAt c g radius (blend (Leg.ofVec c) (Leg.ofVec g) radius) where
  norm := norm_blend size hradius resolves
  toEdge := by
    rcases le_or_gt g.norm radius with hinside | houtside
    · rw [blend_of_norm_le hradius.le hinside]
      exact iff_of_true rfl hinside
    · refine iff_of_false (fun hfalse => ?_) (not_le.mpr houtside)
      rcases le_or_gt radius c.norm with hreaches | hshort
      · rw [blend_on_firstLeg hradius.le houtside hreaches] at hfalse
        cases hfalse
      · have hlong := resolves hshort houtside
        obtain ⟨t, hcrosses, -⟩ := Vec.exists_crossesAt size hradius hshort houtside hlong
        rw [blend_on_secondLeg hradius.le houtside hshort hlong hcrosses] at hfalse
        cases hfalse
  whole hinside := by rw [blend_of_norm_le hradius.le hinside]
  firstLeg houtside hreaches := by
    rw [blend_on_firstLeg hradius.le houtside hreaches]
    exact ⟨radius / c.norm, clipped_eq_mul hradius hreaches⟩
  secondLeg houtside hshort := by
    have hlong := resolves hshort houtside
    obtain ⟨t, hcrosses, hnorm, hunique⟩ :=
      Vec.exists_crossesAt size hradius hshort houtside hlong
    rw [blend_on_secondLeg hradius.le houtside hshort hlong hcrosses]
    exact ⟨t, hcrosses, clamp_eq_self hcrosses.nonneg hcrosses.le_one, rfl, hnorm, hunique⟩

/-- The length of a step as a function of the radius is the smaller of the radius and the length of
the path's end. -/
theorem eqOn_norm_blend {c g : Vec ℝ} (size : g.size = c.size) :
    Set.EqOn (fun radius => (blend (Leg.ofVec c) (Leg.ofVec g) radius).norm)
      (fun radius => min radius g.norm) {radius | 0 < radius ∧ c.Resolves g radius} :=
  fun _ h => norm_blend size h.1 h.2

/-- The geometry of the dog-leg path. At every radius the step is the whole path, a positive multiple
of the first leg, or leads to the one point of the second leg on the boundary, and its length never
falls nor grows faster than the radius. -/
theorem blend_geometry {c g : Vec ℝ} (size : g.size = c.size) :
    (∀ radius, 0 < radius → c.Resolves g radius →
        BlendsAt c g radius (blend (Leg.ofVec c) (Leg.ofVec g) radius)) ∧
      MonotoneOn (fun radius => (blend (Leg.ofVec c) (Leg.ofVec g) radius).norm)
        {radius | 0 < radius ∧ c.Resolves g radius} ∧
      LipschitzOnWith 1 (fun radius => (blend (Leg.ofVec c) (Leg.ofVec g) radius).norm)
        {radius | 0 < radius ∧ c.Resolves g radius} ∧
      ContinuousOn (fun radius => (blend (Leg.ofVec c) (Leg.ofVec g) radius).norm)
        {radius | 0 < radius ∧ c.Resolves g radius} := by
  have hmin : LipschitzWith 1 fun radius : ℝ => min radius g.norm :=
    LipschitzWith.id.min_const g.norm
  have hlipschitz :
      LipschitzOnWith 1 (fun radius => (blend (Leg.ofVec c) (Leg.ofVec g) radius).norm)
        {radius | 0 < radius ∧ c.Resolves g radius} := by
    intro r hr s hs
    rw [eqOn_norm_blend size hr, eqOn_norm_blend size hs]
    exact hmin r s
  refine ⟨fun radius hradius resolves => blendsAt_blend size hradius resolves, ?_, hlipschitz,
    hlipschitz.continuousOn⟩
  intro r hr s hs hle
  rw [eqOn_norm_blend size hr, eqOn_norm_blend size hs]
  exact min_le_min_right g.norm hle

/-! ### A path in the plane -/

theorem Vec.dot_pair (a b x y : ℝ) : (ofList [a, b]).dot (ofList [x, y]) = a * x + b * y := by
  simp [dot_eq, ofList, size, entry, Finset.sum_range_succ]

theorem Vec.normSq_pair (a b : ℝ) : (ofList [a, b]).normSq = a * a + b * b :=
  dot_pair a b a b

theorem Vec.sub_pair (a b x y : ℝ) :
    (ofList [a, b]).sub (ofList [x, y]) = ofList [a - x, b - y] := by
  simp [sub, ofFn, ofList, size, entry, Array.ofFn_succ]

theorem Vec.along_pair (a b x y t : ℝ) :
    (ofList [a, b]).along (ofList [x, y]) t = ofList [a + t * (x - a), b + t * (y - b)] := by
  rw [along, sub_pair]
  simp [ofFn, ofList, size, entry, Array.ofFn_succ]

/-- The boundary of radius five crosses the second leg from `(3, 0)` to `(-6, 6)`, which turns back
from the first at an obtuse angle, at `(-3, 4)`. -/
theorem blend_geometry_obtuse :
    (Vec.ofList [-6, 6] : Vec ℝ).size = (Vec.ofList [3, 0] : Vec ℝ).size ∧
      (Vec.ofList [3, 0] : Vec ℝ).dot ((Vec.ofList [-6, 6]).sub (Vec.ofList [3, 0])) = -27 ∧
      (0 : ℝ) < 5 ∧ (Vec.ofList [3, 0] : Vec ℝ).Resolves (Vec.ofList [-6, 6]) 5 ∧
      (blend (Leg.ofVec (Vec.ofList [3, 0] : Vec ℝ)) (Leg.ofVec (Vec.ofList [-6, 6])) 5).update =
        Vec.ofList [-3, 4] := by
  have hradius : (0 : ℝ) < 5 := by norm_num
  have hsize : (Vec.ofList [-6, 6] : Vec ℝ).size = (Vec.ofList [3, 0] : Vec ℝ).size := rfl
  have hresolves : (Vec.ofList [3, 0] : Vec ℝ).Resolves (Vec.ofList [-6, 6]) 5 := fun _ _ => by
    rw [Vec.sub_pair, Vec.normSq_pair]
    norm_num
  have houtside : 5 < (Vec.ofList [-6, 6] : Vec ℝ).norm := by
    rw [Vec.norm_eq, Vec.normSq_pair, Real.lt_sqrt hradius.le]
    norm_num
  have hinside : (Vec.ofList [3, 0] : Vec ℝ).norm < 5 := by
    rw [Vec.norm_eq, Vec.normSq_pair, Real.sqrt_lt' hradius]
    norm_num
  have hmeets : ((Vec.ofList [3, 0] : Vec ℝ).along (Vec.ofList [-6, 6]) (2 / 3)).norm = 5 := by
    rw [Vec.norm_along_eq_iff hsize hradius, Vec.sub_pair, Vec.normSq_pair, Vec.dot_pair,
      Vec.normSq_pair]
    norm_num
  obtain ⟨t, -, -, hupdate, -, hunique⟩ :=
    ((blend_geometry hsize).1 5 hradius hresolves).secondLeg houtside hinside
  have ht : 2 / 3 = t := hunique (2 / 3) (by norm_num) (by norm_num) hmeets
  refine ⟨hsize, ?_, hradius, hresolves, ?_⟩
  · rw [Vec.sub_pair, Vec.dot_pair]
    norm_num
  · rw [hupdate, ← ht, Vec.along_pair]
    norm_num

end TrustRegion
