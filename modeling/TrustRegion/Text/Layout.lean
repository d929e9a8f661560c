/-
Module: TrustRegion.Text.Layout
Purpose: Text brought to a width, and text in quotes.
Main exports: padLeft, padRight, padBoth, quoted
-/
import TrustRegion.Text.Hidden

namespace TrustRegion.Text

/-- `count` copies of a character. -/
def fill (c : Char) (count : Nat) : String :=
  String.ofList (List.replicate count c)

/-- Text moved to the right end of a field of at least `width` characters. -/
def padLeft (width : Nat) (s : String) : String :=
  fill ' ' (width - s.length) ++ s

/-- Text moved to the left end of a field of at least `width` characters. -/
def padRight (width : Nat) (s : String) : String :=
  s ++ fill ' ' (width - s.length)

/-- Text in the middle of a field of at least `width` characters; an odd character goes to the
right. -/
def padBoth (c : Char) (width : Nat) (s : String) : String :=
  let missing := width - s.length
  fill c (missing / 2) ++ s ++ fill c (missing - missing / 2)

/-- A character between quotes. -/
def quotedChar (c : Char) : String :=
  if c = '"' then "\\\""
  else if c = '\\' then "\\\\"
  else if c = '\n' then "\\n"
  else if c = '\r' then "\\r"
  else if c = '\t' then "\\t"
  else if c = '\x00' then "\\0"
  else if isHidden c then "\\u\x7b" ++ String.ofList (Nat.toDigits 16 c.toNat) ++ "\x7d"
  else c.toString

/-- Text between double quotes, with what would end it or would not show written as an escape. -/
def quoted (s : String) : String :=
  "\"" ++ String.join (s.toList.map quotedChar) ++ "\""

end TrustRegion.Text
