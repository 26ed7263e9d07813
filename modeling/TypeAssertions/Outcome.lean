import TypeAssertions.Assertion.Kind
import TypeAssertions.Diagnostic.Basic
import TypeAssertions.Span

/-!
# Outcomes

A `Finding` is something to report about a checked file: a diagnostic that nothing expected, an
expected error that did not occur, or the verdict on an assertion.  An `Outcome` is what checking
one file gave: the number of its assertions and the findings, or the errors that stopped the check
before any assertion was looked at.
-/

namespace TypeAssertions

/-- How bad a finding is. -/
inductive Severity where
  | error
  | warning
  deriving DecidableEq, Repr

namespace Severity

/-- The name of a severity. -/
def name : Severity → String
  | .error => "error"
  | .warning => "warning"

/-- The severities by name. -/
def byName : List (String × Severity) := [("error", .error), ("warning", .warning)]

theorem lookup_name (s : Severity) :
  byName.lookup s.name = some s
  := by
  cases s <;> decide

/-- The category of diagnostics of a severity. -/
def category : Severity → Category
  | .error => .error
  | .warning => .warning

end Severity

/-- The severity of diagnostics of a category: only errors are errors. -/
def Category.severity : Category → Severity
  | .error => .error
  | .warning | .suggestion | .message => .warning

/-- Something to report about a file. -/
inductive Finding where
  | diagnostic (d : Diagnostic)
  | missingError (file : String) (span : Span) (message : String)
  | verdict (kind : AssertionKind) (file : String) (span : Span) (message : String)
      (severity : Severity)
  deriving DecidableEq, Repr

namespace Finding

/-- The severity of a finding. -/
def severity : Finding → Severity
  | .diagnostic d => d.category.severity
  | .missingError _ _ _ => .error
  | .verdict _ _ _ _ severity => severity

/-- Whether a finding is an error. -/
def isError (f : Finding) : Bool := f.severity = .error

end Finding

/-- What checking a file gave. -/
structure Outcome where
  assertionCount : Nat
  findings : List Finding
  errors : Option (List Diagnostic)
  deriving DecidableEq, Repr

namespace Outcome

/-- The outcome of a check that errors stopped. -/
def stopped (errors : List Diagnostic) : Outcome := ⟨0, [], some errors⟩

/-- The outcome of a check that went to the end. -/
def completed (assertionCount : Nat) (findings : List Finding) : Outcome :=
  ⟨assertionCount, findings, none⟩

/-- Whether the check was stopped by an error or found one. -/
def hasFailures (o : Outcome) : Bool :=
  (o.errors.any fun errors => !errors.isEmpty) || o.findings.any Finding.isError

end Outcome

end TypeAssertions
