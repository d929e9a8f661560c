/-
Module: TrustRegion.Settings
Purpose: What governs a search: the trust region, the tolerances that end the search, and the
  damping that makes a singular matrix factorable.
Main exports: DampingSchedule, Settings, Settings.fault?
-/
import TrustRegion.Error

namespace TrustRegion

open Scalar

/-- How the number added to the diagonal grows while a matrix cannot be factored. -/
structure DampingSchedule (α : Type) where
  /-- The first number tried after zero. -/
  initial : α
  /-- What the number is multiplied by after that. -/
  factor : α
  /-- How often it may grow within one request. -/
  maxAttempts : Nat
deriving DecidableEq, Repr, Inhabited

namespace DampingSchedule

variable {α : Type} [Scalar α]

/-- From `1e-10`, tenfold each time, twenty times. -/
def standard : DampingSchedule α :=
  { initial := 1e-10, factor := 10.0, maxAttempts := 20 }

/-- The number to try after the factorization failed with `lambda`. -/
def next (s : DampingSchedule α) (lambda : α) : α :=
  if lambda == 0 then s.initial else lambda * s.factor

end DampingSchedule

/-- The settings of a search. A tolerance that is not positive switches its criterion off. -/
structure Settings (α : Type) where
  /-- How many steps may be attempted. -/
  maxIterations : Nat
  /-- The radius of the trust region at the start. -/
  radius : α
  /-- What the radius is multiplied by after a rejected step. -/
  shrinkFactor : α
  /-- Steps of lower quality are rejected. -/
  rejectBelow : α
  /-- What the radius is multiplied by after a very good step to the boundary. -/
  growFactor : α
  /-- Steps of higher quality are very good. -/
  growAbove : α
  /-- Stop once every component of the gradient is smaller. -/
  gradientTolerance : α
  /-- Stop once every component of an accepted step is smaller. -/
  updateTolerance : α
  /-- Stop once the radius is smaller. -/
  radiusTolerance : α
  damping : DampingSchedule α
  /-- Report at the level of information rather than of debugging. -/
  verbose : Bool
deriving DecidableEq, Repr, Inhabited

namespace Settings

variable {α : Type} [Scalar α]

/-- The settings of a search that says nothing about them. -/
def standard : Settings α :=
  { maxIterations := 100
    radius := 1e3
    shrinkFactor := 0.1
    rejectBelow := 0.25
    growFactor := 2.0
    growAbove := 0.75
    gradientTolerance := 1e-8
    updateTolerance := 1e-8
    radiusTolerance := 1e-8
    damping := DampingSchedule.standard
    verbose := false }

/-- The first thing that makes the settings unusable, if there is one. A value that compares with
nothing fails every test. -/
def fault? (s : Settings α) : Option (SettingsFault α) :=
  if ¬ (0 < s.radius ∧ isFinite s.radius) then some (.radius s.radius)
  else if ¬ (0 < s.shrinkFactor ∧ s.shrinkFactor < 1) then some (.shrinkFactor s.shrinkFactor)
  else if ¬ (1 < s.growFactor ∧ isFinite s.growFactor) then some (.growFactor s.growFactor)
  else if ¬ s.rejectBelow < s.growAbove then some (.thresholds s.rejectBelow s.growAbove)
  else if isNaN s.gradientTolerance ∨ isNaN s.updateTolerance ∨ isNaN s.radiusTolerance then
    some .tolerance
  else if ¬ (0 < s.damping.initial ∧ isFinite s.damping.initial) then
    some (.initialDamping s.damping.initial)
  else if ¬ (1 < s.damping.factor ∧ isFinite s.damping.factor) then
    some (.dampingFactor s.damping.factor)
  else none

end Settings

end TrustRegion
