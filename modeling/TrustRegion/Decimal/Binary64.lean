/-
Module: TrustRegion.Decimal.Binary64
Purpose: A double as a sign, a whole number and a power of two, and the nearest double to a decimal
  number, both in exact arithmetic.
Main exports: Binary64, Binary64.ofFloat, roundHalfEven, Decimal, Decimal.toFloat
-/

namespace TrustRegion

/-- What a double stands for. A finite one is `± mantissa · 2 ^ exponent`. -/
inductive Binary64 where
  | undefined
  | infinite (negative : Bool)
  | finite (negative : Bool) (mantissa : Nat) (exponent : Int)
deriving DecidableEq, Repr, Inhabited

namespace Binary64

/-- Number of bits of the mantissa that are stored. -/
def fractionBits : Nat := 52

/-- The exponent of the smallest positive double. -/
def leastExponent : Int := -1074

/-- The exponent field that marks infinities and undefined values. -/
def topField : Nat := 2047

/-- Read a double's bits: a sign, an exponent field and a fraction. -/
def ofFloat (x : Float) : Binary64 :=
  let bits := x.toBits.toNat
  let negative := decide (Nat.pow 2 63 ≤ bits)
  let field := bits / Nat.pow 2 fractionBits % Nat.pow 2 11
  let fraction := bits % Nat.pow 2 fractionBits
  if field = topField then
    if fraction = 0 then .infinite negative else .undefined
  else if field = 0 then .finite negative fraction leastExponent
  else .finite negative (fraction + Nat.pow 2 fractionBits) (leastExponent + (field - 1 : Nat))

end Binary64

/-- The whole number nearest to `num / den`; a half goes to the even neighbour. -/
def roundHalfEven (num den : Nat) : Nat :=
  let quotient := num / den
  let rest := num % den
  if 2 * rest < den then quotient
  else if den < 2 * rest then quotient + 1
  else quotient + quotient % 2

/-- A decimal number `mantissa · 10 ^ exponent`. -/
structure Decimal where
  mantissa : Nat
  exponent : Int
deriving DecidableEq, Repr, Inhabited

namespace Decimal

/-- `base` to the part of `exponent` above zero. -/
def raised (base : Nat) (exponent : Int) : Nat :=
  Nat.pow base exponent.toNat

/-- The bits of the double nearest to `num / den`, without its sign. The quotient is rounded once,
in units of the last place of the double that will hold it. -/
def nearestBits (num den : Nat) : Nat :=
  if num = 0 then 0
  else
    let scaledTo (q : Int) : Nat × Nat := (num * raised 2 (-q), den * raised 2 q)
    let low : Int := max Binary64.leastExponent ((num.log2 : Int) - den.log2 - 53)
    let (top, bottom) := scaledTo low
    let exponent := if Nat.pow 2 53 * bottom ≤ top then low + 1 else low
    let (top, bottom) := scaledTo exponent
    let mantissa := roundHalfEven top bottom
    let steps := (exponent - Binary64.leastExponent).toNat
    let bits := steps * Nat.pow 2 Binary64.fractionBits + mantissa
    min bits (Binary64.topField * Nat.pow 2 Binary64.fractionBits)

/-- The double nearest to a decimal number; ties go to the even mantissa, and values out of range
become infinite. -/
def toFloat (negative : Bool) (d : Decimal) : Float :=
  let bits := nearestBits (d.mantissa * raised 10 d.exponent) (raised 10 (-d.exponent))
  Float.ofBits (UInt64.ofNat (if negative then bits + Nat.pow 2 63 else bits))

end Decimal

end TrustRegion
