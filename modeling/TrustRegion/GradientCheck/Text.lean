/-
Module: TrustRegion.GradientCheck.Text
Purpose: A gradient check as a table: a heading marked as a comment, then one line for each
  measurement with its cells separated by blanks.
Main exports: GradientReport.text
-/
import TrustRegion.GradientCheck
import TrustRegion.Text.Number

namespace TrustRegion

open NumberStyle

/-- One line of the table. -/
def GradientRow.text (r : GradientRow Float) : String :=
  " ".intercalate
    [toString r.index, toString r.measurement, plain.write r.reported, plain.write r.observed,
      plain.write r.error, plain.write r.relativeError]

/-- The whole table; every line is ended. -/
def GradientReport.text (r : GradientReport Float) : String :=
  let heading :=
    "# ivar imeasurement gradient_reported gradient_observed error error_relative"
  String.join ((heading :: r.rows.map GradientRow.text).map fun line => line ++ "\n")

end TrustRegion
