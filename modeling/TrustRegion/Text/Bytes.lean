/-
Module: TrustRegion.Text.Bytes
Purpose: Places in a text, counted in the bytes of its characters. A place inside of a character cuts
  it, and there is no text on either side of such a cut.
Main exports: byteLength, byteOffsets, dropBytes?, takeBytes?, slice?
-/

namespace TrustRegion.Text

/-- The number of bytes of a text. -/
def byteLength : List Char → Nat
  | [] => 0
  | c :: s => c.utf8Size + byteLength s

/-- The characters of a text, each with the place where it begins, if the text begins at `start`. -/
def byteOffsets (start : Nat) : List Char → List (Char × Nat)
  | [] => []
  | c :: s => (c, start) :: byteOffsets (start + c.utf8Size) s

/-- What follows the first `n` bytes. -/
def dropBytes? (n : Nat) : List Char → Option (List Char)
  | [] => if n = 0 then some [] else none
  | c :: s =>
      if n = 0 then some (c :: s)
      else if c.utf8Size ≤ n then dropBytes? (n - c.utf8Size) s
      else none

/-- The first `n` bytes. -/
def takeBytes? (n : Nat) : List Char → Option (List Char)
  | [] => if n = 0 then some [] else none
  | c :: s =>
      if n = 0 then some []
      else if c.utf8Size ≤ n then (takeBytes? (n - c.utf8Size) s).map (c :: ·)
      else none

/-- The text between two places. -/
def slice? (s : List Char) (first last : Nat) : Option String :=
  ((takeBytes? last s).bind (dropBytes? first)).map String.ofList

@[simp] theorem dropBytes?_zero (s : List Char) : dropBytes? 0 s = some s := by
  cases s <;> simp [dropBytes?]

@[simp] theorem takeBytes?_zero (s : List Char) : takeBytes? 0 s = some [] := by
  cases s <;> simp [takeBytes?]

/-- The bytes of a beginning of a text can be dropped. -/
theorem dropBytes?_append (start s : List Char) :
    dropBytes? (byteLength start) (start ++ s) = some s := by
  induction start with
  | nil => simp [byteLength]
  | cons c start ih =>
      have hc : c.utf8Size ≠ 0 := Nat.ne_of_gt c.utf8Size_pos
      simp [byteLength, dropBytes?, hc, ih]

/-- The bytes of a beginning of a text can be taken. -/
theorem takeBytes?_append (start s : List Char) :
    takeBytes? (byteLength start) (start ++ s) = some start := by
  induction start with
  | nil => simp [byteLength]
  | cons c start ih =>
      have hc : c.utf8Size ≠ 0 := Nat.ne_of_gt c.utf8Size_pos
      simp [byteLength, takeBytes?, hc, ih]

/-- The part in the middle of a text lies between the bytes before it and the bytes up to its end. -/
theorem slice?_append (start middle rest : List Char) :
    slice? (start ++ middle ++ rest) (byteLength start) (byteLength (start ++ middle)) =
      some (String.ofList middle) := by
  unfold slice?
  rw [takeBytes?_append, Option.bind_some, dropBytes?_append, Option.map_some]

end TrustRegion.Text
