/-
Module: TrustRegion.Text.Ranges
Purpose: Sets of characters given by runs of code points, as the data files of the Unicode standard
  give its properties.
Main exports: CodeRanges, CodeRanges.covers
-/

namespace TrustRegion.Text

/-- Runs of code points, each by its first and its last one. -/
abbrev CodeRanges := Array (Nat × Nat)

/-- Whether a character lies in one of the runs. -/
def CodeRanges.covers (ranges : CodeRanges) (c : Char) : Bool :=
  ranges.any fun run => decide (run.1 ≤ c.toNat) && decide (c.toNat ≤ run.2)

end TrustRegion.Text
