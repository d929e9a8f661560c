/-
Module: TrustRegion.Text.Number
Purpose: The written forms of doubles in messages, tables and reports.
Main exports: NumberStyle, NumberStyle.write
-/
import TrustRegion.Decimal.Rounding

namespace TrustRegion

/-- How a double is written. An exponent has neither a plus sign nor leading zeros, a mantissa has
one digit before the point, and the sign of zero is kept. -/
inductive NumberStyle where
  /-- The shortest text that reads back, never with an exponent. -/
  | plain
  /-- The shortest text that reads back, with an exponent. -/
  | scientific
  /-- A fixed number of places after the point. -/
  | places (count : Nat)
  /-- An exponent and a fixed number of places after the point of the mantissa. -/
  | scientificPlaces (count : Nat)
deriving DecidableEq, Repr, Inhabited

namespace NumberStyle

/-- `count` copies of the digit zero. -/
def zeros (count : Nat) : String :=
  String.ofList (List.replicate count '0')

/-- Digits with a point before the last `places` of them, with zeros in front as needed. -/
def withPoint (digits : String) (places : Nat) : String :=
  if places = 0 then digits
  else
    let padded := zeros (places + 1 - digits.length) ++ digits
    let whole := padded.length - places
    String.ofList (padded.toList.take whole) ++ "." ++ String.ofList (padded.toList.drop whole)

/-- A decimal number without an exponent. -/
def positional (d : Decimal) : String :=
  if 0 ≤ d.exponent then
    if d.mantissa = 0 then "0" else toString d.mantissa ++ zeros d.exponent.toNat
  else withPoint (toString d.mantissa) (-d.exponent).toNat

/-- A decimal number with an exponent; at least `places` digits follow the point. -/
def exponential (places : Nat) (d : Decimal) : String :=
  let digits := toString d.mantissa
  let rest := digits.toList.drop 1
  let fraction := rest ++ List.replicate (places - rest.length) '0'
  let exponent := if d.mantissa = 0 then 0 else d.exponent + rest.length
  let point := if fraction.isEmpty then "" else "."
  String.ofList (digits.toList.take 1) ++ point ++ String.ofList fraction ++ "e" ++ toString exponent

/-- The written form of the magnitude `mantissa · 2 ^ exponent`. -/
def magnitude (style : NumberStyle) (mantissa : Nat) (exponent : Int) : String :=
  match style with
  | .plain => positional (Decimal.shortest mantissa exponent)
  | .scientific => exponential 0 (Decimal.shortest mantissa exponent)
  | .places count => positional (Decimal.withPlaces count mantissa exponent)
  | .scientificPlaces count => exponential count (Decimal.withDigits count mantissa exponent)

/-- A double as text. -/
def write (style : NumberStyle) (x : Float) : String :=
  match Binary64.ofFloat x with
  | .undefined => "NaN"
  | .infinite negative => if negative then "-inf" else "inf"
  | .finite negative mantissa exponent =>
      (if negative then "-" else "") ++ style.magnitude mantissa exponent

end NumberStyle

end TrustRegion
