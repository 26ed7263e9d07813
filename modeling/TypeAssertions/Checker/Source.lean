import TypeAssertions.Checker.Process
import TypeAssertions.FileTree
import TypeAssertions.Snapshot.Codec

/-!
# Sources of snapshots

A checker's snapshot is read from a file next to the test file, or from the output of a command
that is given the test file and the compiler options.  `SnapshotSource.check` is the program of the
snapshot; when it fails, the error names the file or the command to blame.
-/

namespace TypeAssertions

/-- Where snapshots come from. -/
inductive SnapshotSource where
  | sidecar
  | command (line : String)
  deriving DecidableEq, Repr

namespace SnapshotSource

/-- The path of the snapshot next to a test file. -/
def sidecarPath (file : Path) : Path := ⟨file.spelling ++ ".check.json"⟩

/-- The output of the command on a line for a test file.  The line is cut at blanks, without any
quoting. -/
def commandOutput (launch : Launcher) (line : String) (file : Path) (options : CompilerOptions) :
    Except String (List Char) :=
  match (Text.words line.toList).map String.ofList with
  | [] => .error "empty command"
  | program :: arguments => do
    let all := arguments ++ [file.spelling, options.toJson.compact]
    let execution ← (launch program all).mapError LaunchError.message
    execution.result

/-- The text of the snapshot of a test file, and the path that stands for it. -/
def load (t : FileTree) (launch : Launcher) (source : SnapshotSource) (file : Path)
    (options : CompilerOptions) : Except CheckerError (List Char × Path) :=
  match source with
  | .sidecar =>
    let path := sidecarPath file
    match t.readText path with
    | .ok text => .ok (text, path)
    | .error e => .error (.unreadable path e.message)
  | .command line =>
    match commandOutput launch line file options with
    | .ok text => .ok (text, file)
    | .error reason => .error (.commandFailed line reason)

/-- The program of a snapshot, of which a malformed part is blamed on a path. -/
def programOf (origin : Path) (s : Snapshot) : Except CheckerError (Program Verdicts) :=
  s.toProgram.mapError fun e => .malformed origin e.message

/-- The program of the text of a snapshot. -/
def programOfText (origin : Path) (text : List Char) : Except CheckerError (Program Verdicts) := do
  let s ← (Snapshot.ofText text).mapError fun e => .malformed origin e.message
  programOf origin s

/-- The program of the first of some test files. -/
def check (t : FileTree) (launch : Launcher) (source : SnapshotSource) (files : List Path)
    (options : CompilerOptions) : Except CheckerError (Program Verdicts) :=
  match files with
  | [] => .error .noInputs
  | file :: _ => do
    let (text, origin) ← source.load t launch file options
    programOfText origin text

end SnapshotSource

end TypeAssertions
