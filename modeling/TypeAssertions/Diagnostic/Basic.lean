/-!
# Diagnostics

A `Diagnostic` is what a type checker reports about a range of bytes of a file, or about the
program as a whole when it has no file.
-/

namespace TypeAssertions

/-- The category of a diagnostic. -/
inductive Category where
  | warning
  | error
  | suggestion
  | message
  deriving DecidableEq, Repr

namespace Category

/-- The name of a category. -/
def name : Category → String
  | .warning => "warning"
  | .error => "error"
  | .suggestion => "suggestion"
  | .message => "message"

/-- The number of a category. -/
def number : Category → Nat
  | .warning => 0
  | .error => 1
  | .suggestion => 2
  | .message => 3

/-- All categories by name. -/
def byName : List (String × Category) :=
  [("warning", .warning), ("error", .error), ("suggestion", .suggestion), ("message", .message)]

theorem lookup_name (c : Category) :
  byName.lookup c.name = some c
  := by
  cases c <;> decide

end Category

/-- A report of a type checker. -/
structure Diagnostic where
  file : Option String
  start : UInt32
  length : UInt32
  text : String
  category : Category
  code : UInt32
  deriving DecidableEq, Repr

namespace Diagnostic

/-- The end of the range of a diagnostic, at most the greatest offset. -/
def stop (d : Diagnostic) : Nat := min (d.start.toNat + d.length.toNat) (UInt32.size - 1)

/-- Whether a diagnostic is an error. -/
def isError (d : Diagnostic) : Bool := d.category = .error

end Diagnostic

end TypeAssertions
