/-
Module: TrustRegion.Log.FieldTest
Purpose: What a directive of a filter asks of a field of an event: that there is one of a name, or
  that its value is a number or matches a pattern as well.
Main exports: FieldTest, FieldTest.ofText?
-/
import TrustRegion.Log.Pattern.Reader

namespace TrustRegion

/-- A test of one field. -/
structure FieldTest where
  name : String
  /-- The number or the pattern that is compared with the value of the field. -/
  value : Option String
deriving DecidableEq, Repr, Inhabited

namespace FieldTest

/-- A text without the sign it may begin with. -/
def unsigned : List Char → List Char
  | '+' :: s => s
  | '-' :: s => s
  | s => s

/-- Whether a text is an exponent of ten or empty. -/
def isExponent : List Char → Bool
  | [] => true
  | c :: s =>
      let digits := unsigned s
      (c == 'e' || c == 'E') && !digits.isEmpty && digits.all Char.isDigit

/-- Whether a text is a number in decimal notation or the name of a number that has none. -/
def isNumber (s : List Char) : Bool :=
  let s := unsigned s
  let whole := s.takeWhile Char.isDigit
  let rest := s.drop whole.length
  let fraction := match rest with
    | '.' :: rest => rest.takeWhile Char.isDigit
    | _ => []
  let exponent := match rest with
    | '.' :: rest => rest.drop fraction.length
    | _ => rest
  ["inf", "infinity", "nan"].contains (String.ofList (s.map Char.toLower)) ||
    (!(whole.isEmpty && fraction.isEmpty) && isExponent exponent)

/-- Whether a text can be compared with a value. -/
def isValue (s : List Char) : Bool :=
  isNumber s || Pattern.isPattern s

/-- A test from its text: a name, and after an equals sign a value, which goes up to the next equals
sign. -/
def ofText? (s : List Char) : Option FieldTest :=
  let name := s.takeWhile (· != '=')
  match s.drop name.length with
  | [] => if name.isEmpty then none else some { name := String.ofList name, value := none }
  | _ :: rest =>
      let value := rest.takeWhile (· != '=')
      if isValue value then
        some { name := String.ofList name, value := some (String.ofList value) }
      else none

/-- A value that matches no text is no part of a test. -/
theorem isValue_of_ofText? {s : List Char} {t : FieldTest} {v : String} (h : ofText? s = some t)
    (hv : t.value = some v) : isValue v.toList = true := by
  simp only [ofText?] at h
  split at h
  · split at h
    · simp at h
    · simp only [Option.some.injEq] at h
      simp [← h] at hv
  · split at h
    · rename_i hvalue
      simp only [Option.some.injEq] at h
      simp only [← h, Option.some.injEq] at hv
      simpa [← hv] using hvalue
    · simp at h

end FieldTest

end TrustRegion
