import TypeAssertions.Path

/-!
# Command lines

A `CommandLine` is what the arguments of the program ask for.  A flag or an option has a long name
and may have a short one; an option takes a value.
-/

namespace TypeAssertions

/-- How the outcomes of a run are reported. -/
inductive ReportFormat where
  | text
  | json
  deriving DecidableEq, Repr

namespace ReportFormat

/-- The name of a format. -/
def name : ReportFormat → String
  | .text => "text"
  | .json => "json"

/-- The formats by name. -/
def byName : List (String × ReportFormat) := [("text", .text), ("json", .json)]

theorem lookup_name (f : ReportFormat) :
  byName.lookup f.name = some f
  := by
  cases f <;> decide

end ReportFormat

/-- What the program is asked to do. -/
structure CommandLine where
  paths : List Path
  checker : Option String
  project : Option Path
  patterns : List String
  format : ReportFormat
  noColor : Bool
  jobs : Option Nat
  deriving DecidableEq, Repr

namespace CommandLine

/-- The paths when none is given: the working directory. -/
def defaultPaths : List Path := [⟨"."⟩]

/-- A flag. -/
inductive Flag where
  | noColor
  | help
  | version
  deriving DecidableEq, Repr

/-- An option with a value. -/
inductive Setting where
  | checker
  | project
  | pattern
  | format
  | jobs
  deriving DecidableEq, Repr

/-- A flag or an option. -/
inductive Switch where
  | flag (f : Flag)
  | setting (s : Setting)
  deriving DecidableEq, Repr

/-- The switches by long name. -/
def longNames : List (String × Switch) :=
  [("checker", .setting .checker), ("project", .setting .project), ("pattern", .setting .pattern),
    ("format", .setting .format), ("no-color", .flag .noColor), ("noColor", .flag .noColor),
    ("jobs", .setting .jobs), ("help", .flag .help), ("version", .flag .version)]

/-- The switches by short name. -/
def shortNames : List (Char × Switch) :=
  [('p', .setting .project), ('j', .setting .jobs), ('h', .flag .help), ('V', .flag .version)]

/-- Why the program does not do what its arguments ask for. -/
inductive Refusal where
  | unknownArgument
  | missingValue
  | unfitValue
  | malformedNumber
  | repeated
  | unexpectedValue
  | helpAsked
  | versionAsked
  deriving DecidableEq, Repr

/-- The exit code of a refusal: asking for help or for the version is no error. -/
def Refusal.code : Refusal → Nat
  | .helpAsked | .versionAsked => 0
  | .unknownArgument | .missingValue | .unfitValue | .malformedNumber | .repeated
  | .unexpectedValue => 2

end CommandLine

end TypeAssertions
