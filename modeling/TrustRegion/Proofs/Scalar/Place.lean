/-
Module: TrustRegion.Proofs.Scalar.Place
Purpose: Comparison by places. Where every defined value of a scalar type has a place in a linear order and
  values are compared by their places, comparison is an order on the values that are defined, and what is
  undefined compares with nothing, itself included.
Main exports: PlacedBy with its laws
-/
import Mathlib
import TrustRegion.Scalar

namespace TrustRegion

/-- Values are compared by their places in a linear order. An undefined value has no place. -/
structure PlacedBy {α L : Type} [Scalar α] [LinearOrder L] (place : α → Option L) : Prop where
  lt_iff {a b : α} : a < b ↔ ∃ r s, place a = some r ∧ place b = some s ∧ r < s
  le_iff {a b : α} : a ≤ b ↔ ∃ r s, place a = some r ∧ place b = some s ∧ r ≤ s
  beq_iff {a b : α} : (a == b) = true ↔ ∃ r, place a = some r ∧ place b = some r

namespace PlacedBy

variable {α L : Type} [Scalar α] [LinearOrder L] {place : α → Option L} {a b c : α}

/-- A value equals itself exactly if it has a place. -/
theorem beq_self_iff (h : PlacedBy place) : (a == a) = true ↔ ∃ r, place a = some r := by
  rw [h.beq_iff]
  exact exists_congr fun r => and_self_iff

theorem lt_irrefl (h : PlacedBy place) (a : α) : ¬ a < a := by
  intro hlt
  obtain ⟨r, s, hr, hs, hrs⟩ := h.lt_iff.mp hlt
  rw [hr, Option.some.injEq] at hs
  subst hs
  exact hrs.false

theorem lt_trans (h : PlacedBy place) (hab : a < b) (hbc : b < c) : a < c := by
  obtain ⟨r, s, hr, hs, hrs⟩ := h.lt_iff.mp hab
  obtain ⟨s', t, hs', ht, hst⟩ := h.lt_iff.mp hbc
  rw [hs, Option.some.injEq] at hs'
  exact h.lt_iff.mpr ⟨r, t, hr, ht, hrs.trans (hs' ▸ hst)⟩

theorem le_trans (h : PlacedBy place) (hab : a ≤ b) (hbc : b ≤ c) : a ≤ c := by
  obtain ⟨r, s, hr, hs, hrs⟩ := h.le_iff.mp hab
  obtain ⟨s', t, hs', ht, hst⟩ := h.le_iff.mp hbc
  rw [hs, Option.some.injEq] at hs'
  exact h.le_iff.mpr ⟨r, t, hr, ht, hrs.trans (hs' ▸ hst)⟩

theorem lt_of_le_of_lt (h : PlacedBy place) (hab : a ≤ b) (hbc : b < c) : a < c := by
  obtain ⟨r, s, hr, hs, hrs⟩ := h.le_iff.mp hab
  obtain ⟨s', t, hs', ht, hst⟩ := h.lt_iff.mp hbc
  rw [hs, Option.some.injEq] at hs'
  exact h.lt_iff.mpr ⟨r, t, hr, ht, hrs.trans_lt (hs' ▸ hst)⟩

theorem le_of_lt (h : PlacedBy place) (hab : a < b) : a ≤ b := by
  obtain ⟨r, s, hr, hs, hrs⟩ := h.lt_iff.mp hab
  exact h.le_iff.mpr ⟨r, s, hr, hs, hrs.le⟩

/-- Of two defined values one is below the other or they compare the other way round. -/
theorem le_of_not_lt (h : PlacedBy place) (ha : (a == a) = true) (hb : (b == b) = true)
    (hab : ¬ a < b) : b ≤ a := by
  obtain ⟨r, hr⟩ := h.beq_self_iff.mp ha
  obtain ⟨s, hs⟩ := h.beq_self_iff.mp hb
  exact h.le_iff.mpr ⟨s, r, hs, hr, not_lt.mp fun hlt => hab (h.lt_iff.mpr ⟨r, s, hr, hs, hlt⟩)⟩

/-- What compares with something is defined. -/
theorem beq_self_of_le (h : PlacedBy place) (hab : a ≤ b) : (a == a) = true ∧ (b == b) = true := by
  obtain ⟨r, s, hr, hs, -⟩ := h.le_iff.mp hab
  exact ⟨h.beq_self_iff.mpr ⟨r, hr⟩, h.beq_self_iff.mpr ⟨s, hs⟩⟩

end PlacedBy

end TrustRegion
