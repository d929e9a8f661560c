/-
Module: TrustRegion.Decimal.Rounding
Purpose: Decimal numbers for a binary one: the shortest that reads back to it, and the nearest with
  a given number of places or of digits. All comparisons are made in exact arithmetic.
Main exports: Decimal.shortest, Decimal.withPlaces, Decimal.withDigits
-/
import TrustRegion.Decimal.Binary64

namespace TrustRegion.Decimal

/-- The number of decimal digits of a whole number; zero has one. -/
def digitCount (n : Nat) : Nat :=
  (Nat.toDigits 10 n).length

/-- `m · 2 ^ q` as a quotient of whole numbers. -/
def asRatio (m : Nat) (q : Int) : Nat × Nat :=
  (m * raised 2 q, raised 2 (-q))

/-- The largest `k` with `10 ^ k ≤ num / den`, for positive `num` and `den`. -/
def floorLog10 (num den : Nat) : Int :=
  if den ≤ num then (digitCount (num / den) : Int) - 1
  else
    let inverse := (den + num - 1) / num
    Int.negOfNat (digitCount (inverse - 1))

/-- The numbers that read back to a positive double, as a range around it: the double and the ends
of the range, in units of a quarter of the double's last place, and whether the ends belong to it. -/
structure Neighbourhood where
  value : Nat
  low : Nat
  high : Nat
  closed : Bool
  unit : Int
deriving Repr, Inhabited

/-- The range of a double. The gap below a power of two is half the gap above it; a half-way point
reads back to the even mantissa. -/
def neighbourhood (mantissa : Nat) (exponent : Int) : Neighbourhood :=
  let narrow := mantissa = Nat.pow 2 Binary64.fractionBits ∧ Binary64.leastExponent < exponent
  { value := 4 * mantissa
    low := if narrow then 4 * mantissa - 1 else 4 * mantissa - 2
    high := 4 * mantissa + 2
    closed := mantissa % 2 = 0
    unit := exponent - 2 }

/-- Whether `candidate · 10 ^ k` reads back to the double. -/
def Neighbourhood.holds (n : Neighbourhood) (k : Int) (candidate : Nat) : Bool :=
  let c := candidate * (raised 10 k * raised 2 (-n.unit))
  let scale := raised 2 n.unit * raised 10 (-k)
  if n.closed then n.low * scale ≤ c ∧ c ≤ n.high * scale
  else n.low * scale < c ∧ c < n.high * scale

/-- A multiple of `10 ^ k` that reads back to the double, if there is one: of its two neighbours on
that grid the nearer, and the upper one if both are as near. -/
def Neighbourhood.onGrid (n : Neighbourhood) (k : Int) : Option Nat :=
  let scale := raised 2 n.unit * raised 10 (-k)
  let step := raised 10 k * raised 2 (-n.unit)
  let below := n.value * scale / step
  let rest := n.value * scale % step
  match n.holds k below, n.holds k (below + 1) with
  | true, true => some (if 2 * rest < step then below else below + 1)
  | true, false => some below
  | false, true => some (below + 1)
  | false, false => none

/-- The first of the grids `10 ^ k, 10 ^ (k - 1), …` with a number that reads back. -/
def Neighbourhood.search (n : Neighbourhood) : (grids : Nat) → (k : Int) → Decimal
  | 0, k => ⟨n.value * (raised 2 n.unit * raised 10 (-k)) / (raised 10 k * raised 2 (-n.unit)), k⟩
  | grids + 1, k =>
      match n.onGrid k with
      | some m => ⟨m, k⟩
      | none => n.search grids (k - 1)

/-- The shortest decimal number that reads back to `mantissa · 2 ^ exponent`, and of the shortest
ones the nearest. Seventeen digits always suffice. -/
def shortest (mantissa : Nat) (exponent : Int) : Decimal :=
  if mantissa = 0 then ⟨0, 0⟩
  else
    let (num, den) := asRatio mantissa exponent
    (neighbourhood mantissa exponent).search 19 (floorLog10 num den + 1)

/-- The multiple of `10 ^ (-places)` nearest to `mantissa · 2 ^ exponent`, halves to even. -/
def withPlaces (places : Nat) (mantissa : Nat) (exponent : Int) : Decimal :=
  let (num, den) := asRatio mantissa exponent
  ⟨roundHalfEven (num * Nat.pow 10 places) den, -(places : Int)⟩

/-- The decimal number with `places + 1` digits nearest to `mantissa · 2 ^ exponent`, halves to
even. -/
def withDigits (places : Nat) (mantissa : Nat) (exponent : Int) : Decimal :=
  if mantissa = 0 then ⟨0, 0⟩
  else
    let (num, den) := asRatio mantissa exponent
    let k := floorLog10 num den - places
    let rounded := roundHalfEven (num * raised 10 (-k)) (den * raised 10 k)
    if rounded = Nat.pow 10 (places + 1) then ⟨Nat.pow 10 places, k + 1⟩ else ⟨rounded, k⟩

end TrustRegion.Decimal
