import TypeAssertions.Assertion.Extraction
import TypeAssertions.Outcome

/-!
# Expected errors

`Expectations` lists the expected errors of a program in the order of their discovery.  A place in
a file belongs to the first expectation that surrounds it, so of nested expectations the outermost
wins; an expectation to which no error belongs is missing.
-/

namespace TypeAssertions

/-- The expected errors in the order of their discovery. -/
structure Expectations where
  entries : List (AssertionId × Span)
  deriving DecidableEq, Repr

namespace Expectations

/-- The expected errors among assertions. -/
def ofExtracted (e : Extracted) : Expectations :=
  ⟨(e.ofKind .expectError).map fun a => (a.id, a.span)⟩

/-- Whether an expectation surrounds an offset in a file. -/
def covers (file : FileId) (offset : UInt32) (entry : AssertionId × Span) : Bool :=
  entry.2.file = file && entry.2.surrounds offset

/-- The first expectation that surrounds an offset in a file. -/
def firstAt? (x : Expectations) (file : FileId) (offset : UInt32) : Option AssertionId :=
  (x.entries.find? (covers file offset)).map Prod.fst

/-- The expectations without those of some identities. -/
def without (x : Expectations) (met : List AssertionId) : Expectations :=
  ⟨x.entries.filter fun entry => entry.1 ∉ met⟩

/-- The message of an expected error that did not occur. -/
def missingMessage : String := "Expected an error, but found none."

/-- The name of the first file with an identity, or no name. -/
def fileName (files : List SourceFile) (id : FileId) : String :=
  ((files.find? fun f => f.id = id).map SourceFile.name).getD ""

/-- A missing error for each expectation. -/
def missing (x : Expectations) (files : List SourceFile) : List Finding :=
  x.entries.map fun entry =>
    .missingError (fileName files entry.2.file) entry.2 missingMessage

end Expectations

end TypeAssertions
