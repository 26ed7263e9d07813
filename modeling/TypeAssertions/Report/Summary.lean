import TypeAssertions.Outcome
import TypeAssertions.Report.Style

/-!
# Summaries

A `Summary` counts what the outcomes of a run hold: files, files with failures, assertions, errors
and warnings.  An outcome that errors stopped counts these and not its findings.
-/

namespace TypeAssertions.Report

/-- The counts of a run. -/
structure Summary where
  files : Nat := 0
  failedFiles : Nat := 0
  assertions : Nat := 0
  errors : Nat := 0
  warnings : Nat := 0
  deriving DecidableEq, Repr

namespace Summary

/-- The summary after one more entry of a report, which is an error or a warning. -/
def count (s : Summary) (isError : Bool) : Summary :=
  if isError then { s with errors := s.errors + 1 } else { s with warnings := s.warnings + 1 }

/-- Whether the entries of an outcome are errors, in their order. -/
def entries (o : Outcome) : List Bool :=
  match o.errors with
  | some errors => errors.map Diagnostic.isError
  | none => o.findings.map Finding.isError

/-- The summary after one more outcome. -/
def record (s : Summary) (o : Outcome) : Summary :=
  let s : Summary := { s with
    files := s.files + 1
    assertions := s.assertions + o.assertionCount
    failedFiles := if o.hasFailures then s.failedFiles + 1 else s.failedFiles }
  (entries o).foldl count s

/-- Whether an error was counted. -/
def hasErrors (s : Summary) : Bool := 0 < s.errors

/-- A number of things. -/
def quantity (n : Nat) (one many : String) : String := s!"{n} {if n = 1 then one else many}"

/-- The line that sums up a run. -/
def text (s : Summary) (color : Bool) : String :=
  let errors := quantity s.errors "error" "errors"
  let warnings := quantity s.warnings "warning" "warnings"
  quantity s.files "file" "files" ++ " checked, "
    ++ quantity s.assertions "assertion" "assertions" ++ ", "
    ++ (if 0 < s.errors then Style.boldRed else Style.green).paint color errors ++ ", "
    ++ (if 0 < s.warnings then Style.yellow.paint color warnings else warnings)
    ++ (if 0 < s.failedFiles then " in " ++ quantity s.failedFiles "file" "files" else "")

end Summary

end TypeAssertions.Report
