import TypeAssertions.Diagnostic.Codec
import TypeAssertions.Outcome

/-!
# Outcomes as JSON

A finding is an object of which the first member names its sort.  An outcome that no errors stopped
has no member `errors`.
-/

namespace TypeAssertions

open Json

/-- The JSON form of a span. -/
def Span.toJson (s : Span) : Value :=
  .object
    [("file", .ofNat s.file.index.toNat), ("start", .ofNat s.start.toNat),
      ("end", .ofNat s.stop.toNat)]

/-- The JSON form of a finding. -/
def Finding.toJson : Finding → Value
  | .diagnostic d => .object (("type", .string "diagnostic") :: d.members)
  | .missingError file span message =>
    .object
      [("type", .string "missingError"), ("file", .string file), ("span", span.toJson),
        ("message", .string message)]
  | .verdict kind file span message severity =>
    .object
      [("type", .string "assertion"), ("kind", .string kind.name), ("file", .string file),
        ("span", span.toJson), ("message", .string message), ("severity", .string severity.name)]

/-- The JSON form of an outcome. -/
def Outcome.toJson (o : Outcome) : Value :=
  .object
    ([("assertionCount", .ofNat o.assertionCount),
      ("results", .array (o.findings.map Finding.toJson))]
    ++ (o.errors.map fun errors => ("errors", Value.array (errors.map Diagnostic.toJson))).toList)

end TypeAssertions
