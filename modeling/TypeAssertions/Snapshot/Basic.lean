import TypeAssertions.Checking

/-!
# Checker snapshots

A `Snapshot` is the record of a checker's run on a program: its files with their syntax, its
diagnostics, and the verdict on each assertion that was evaluated.  `Snapshot.toProgram` numbers
the files and indexes the verdicts by place and kind, the last one of a place counting, and fails
when the root of a file is not one of its nodes; `Verdicts.evaluate` plays the verdicts back.
-/

namespace TypeAssertions

/-- A file of a snapshot.  Its root is its first node when it is not given. -/
structure SnapshotFile where
  name : String
  text : String
  nodes : Arena
  root : Option NodeIndex
  deriving DecidableEq, Repr

/-- The verdict of a checker on an assertion at a place. -/
structure Evaluation where
  kind : AssertionKind
  file : String
  start : UInt32
  stop : UInt32
  passed : Bool
  message : String
  severity : Severity
  deriving DecidableEq, Repr

/-- The record of a checker's run. -/
structure Snapshot where
  files : List SnapshotFile
  syntaxDiagnostics : List Diagnostic
  semanticDiagnostics : List Diagnostic
  evaluations : List Evaluation
  deriving DecidableEq, Repr

/-- The place and the kind of an assertion. -/
structure Site where
  file : String
  start : UInt32
  stop : UInt32
  kind : AssertionKind
  deriving DecidableEq, Repr

/-- The site of an evaluation. -/
def Evaluation.site (e : Evaluation) : Site := ⟨e.file, e.start, e.stop, e.kind⟩

/-- The verdicts on a program by site. -/
structure Verdicts where
  fileNames : List String
  evaluations : OrderedMap Site Evaluation
  deriving DecidableEq

namespace Verdicts

/-- The verdict on an assertion. -/
def find? (v : Verdicts) (a : Assertion) : Option Evaluation := do
  let file ← v.fileNames[a.span.file.index.toNat]?
  v.evaluations.get? ⟨file, a.span.start, a.span.stop, a.kind⟩

/-- The finding of a verdict on an assertion.  An assertion that held gives none, unless its
verdict is a warning. -/
def finding? (v : Verdicts) (a : Assertion) : Option Finding :=
  match v.find? a with
  | none => none
  | some e =>
    if e.passed ∧ e.severity = .error then none
    else some (.verdict a.kind e.file a.span e.message e.severity)

/-- The findings of the verdicts on assertions. -/
def evaluate (v : Verdicts) (groups : Groups) : List Finding :=
  groups.flatMap fun group => group.2.filterMap v.finding?

end Verdicts

/-- A file of a snapshot whose root is not one of its nodes. -/
structure MissingRoot where
  root : NodeIndex
  file : String
  deriving DecidableEq, Repr

/-- The wording of a missing root. -/
def MissingRoot.message (e : MissingRoot) : String :=
  s!"root node {e.root.index} missing in {e.file}"

/-- The source file that a file of a snapshot is, under a number. -/
def SnapshotFile.toSourceFile (f : SnapshotFile) (number : Nat) : Except MissingRoot SourceFile :=
  let root := f.root.getD ⟨0⟩
  if (f.nodes.get? root).isSome then
    .ok ⟨⟨UInt32.ofNat number⟩, f.name, f.text, f.nodes, root⟩
  else .error ⟨root, f.name⟩

namespace Snapshot

/-- The source files of a snapshot from a number on. -/
def sourceFilesFrom (number : Nat) : List SnapshotFile → Except MissingRoot (List SourceFile)
  | [] => .ok []
  | f :: fs => do
    let file ← f.toSourceFile number
    return file :: (← sourceFilesFrom (number + 1) fs)

/-- The verdicts of a snapshot on the files of its program. -/
def verdicts (s : Snapshot) (files : List SourceFile) : Verdicts :=
  ⟨files.map SourceFile.name, .ofList (s.evaluations.map fun e => (e.site, e))⟩

/-- The program of a snapshot. -/
def toProgram (s : Snapshot) : Except MissingRoot (Program Verdicts) := do
  let files ← sourceFilesFrom 0 s.files
  return ⟨files, s.syntaxDiagnostics, s.semanticDiagnostics, s.verdicts files⟩

end Snapshot

end TypeAssertions
