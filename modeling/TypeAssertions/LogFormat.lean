import TypeAssertions.Text.Blank

/-!
# Log formats

A log is written as lines of text, as a tree, or as JSON.  `LogFormat.ofText` reads the name of a
format without regard to case and to blanks around it, and takes any other text for the default.
-/

namespace TypeAssertions

/-- How a log is written. -/
inductive LogFormat where
  | text
  | tree
  | json
  deriving DecidableEq, Repr

namespace LogFormat

/-- The format that a text names. -/
def ofText (s : String) : LogFormat :=
  let name := (Text.trim s.toList).map Char.toLower
  if name = "tree".toList then .tree
  else if name = "json".toList then .json
  else .text

end LogFormat

end TypeAssertions
