import TypeAssertions.Diagnostic.Message
import TypeAssertions.Expectation

/-!
# Reconciliation

`reconcile` matches the diagnostics of a checker with the expected errors of a program.  A
diagnostic of the program's own files is ignored, preserved as a finding, or absorbed by an
expectation, as `classify` says; diagnostics without a file and those of dependencies are dropped.
After the diagnostics come the expectations that absorbed none.
-/

namespace TypeAssertions

/-- What becomes of a diagnostic. -/
inductive Classification where
  | ignored
  | preserved
  | absorbed (id : AssertionId)
  deriving DecidableEq, Repr

/-- What becomes of a diagnostic, given its file if that is part of the program. -/
def classify (d : Diagnostic) (file : Option FileId) (x : Expectations) : Classification :=
  if d.code ∈ Code.ignored then .ignored
  else if d.code ∉ Code.suppressible then .preserved
  else
    match file.bind fun file => x.firstAt? file d.start with
    | some id => .absorbed id
    | none => .preserved

/-- The name of directories that hold dependencies. -/
def dependencyDirectory : String := "node_modules"

/-- The parts of a path between slashes and backslashes. -/
def pathSegments (path : List Char) : List (List Char) :=
  path.splitOnP fun c => c = '/' || c = '\\'

/-- Whether a path leads through a directory of dependencies. -/
def isDependencyPath (path : String) : Bool :=
  dependencyDirectory.toList ∈ pathSegments path.toList

/-- The identity of the last file of a name. -/
def fileId? (files : List SourceFile) (name : String) : Option FileId :=
  (files.reverse.find? fun f => f.name = name).map SourceFile.id

/-- The diagnostics preserved and the expectations met so far. -/
structure Progress where
  preserved : List Diagnostic := []
  met : List AssertionId := []
  deriving DecidableEq, Repr

/-- The progress after one more diagnostic. -/
def Progress.add (files : List SourceFile) (x : Expectations) (p : Progress) (d : Diagnostic) :
    Progress :=
  match d.file with
  | none => p
  | some name =>
    if isDependencyPath name then p
    else
      match classify d (fileId? files name) x with
      | .ignored => p
      | .preserved => { p with preserved := p.preserved ++ [d] }
      | .absorbed id => { p with met := p.met ++ [id] }

/-- The findings of a program: those of `seed`, then the preserved diagnostics in their order,
then the expectations that absorbed no diagnostic in the order of their discovery. -/
def reconcile (files : List SourceFile) (diagnostics : List Diagnostic) (extracted : Extracted)
    (seed : List Finding) : List Finding :=
  let x := Expectations.ofExtracted extracted
  let p := diagnostics.foldl (Progress.add files x) {}
  seed ++ p.preserved.map .diagnostic ++ (x.without p.met).missing files

end TypeAssertions
