import TypeAssertions.Checker.Source
import TypeAssertions.CommandLine.Basic
import TypeAssertions.Config.Resolution
import TypeAssertions.Discovery
import TypeAssertions.Glob.Match
import TypeAssertions.Outcome.Codec
import TypeAssertions.Report.Reporter
import TypeAssertions.Report.Summary

/-!
# Runs

`run` does what a command line asks for on a file tree: it discovers the test files, checks each of
them and reports the outcomes as text or as JSON.  A `Transcript` is what a run leaves behind: its
status and what it wrote.
-/

namespace TypeAssertions

open Json (Value)

/-- The status of a run: every assertion held, there were failures, or something could not be
checked. -/
inductive ExitStatus where
  | success
  | failures
  | error
  deriving DecidableEq, Repr

/-- The exit code of a status. -/
def ExitStatus.code : ExitStatus → Nat
  | .success => 0
  | .failures => 1
  | .error => 2

/-- What a run leaves behind. -/
structure Transcript where
  status : ExitStatus
  output : String
  complaints : String
  deriving DecidableEq, Repr

/-- Why a run could not begin. -/
inductive RunError where
  | pattern (e : Glob.PatternError)
  | missing (e : Discovery.Missing)
  deriving DecidableEq, Repr

/-- The wording of a run error. -/
def RunError.message : RunError → String
  | .pattern e => e.message
  | .missing e => e.message

/-- A checked file with what checking it gave. -/
structure FileRun where
  file : Path
  result : Except CheckError Outcome

namespace FileRun

/-- The outcome of a file, unless its check failed. -/
def outcome? (r : FileRun) : Option Outcome := r.result.toOption

/-- The failure of the check of a file. -/
def error? (r : FileRun) : Option CheckError :=
  match r.result with
  | .ok _ => none
  | .error e => some e

end FileRun

/-- A failed check on one line. -/
def CheckError.message (e : CheckError) : String := joinChain e.chain

namespace CommandLine

/-- Where the snapshots of a command line come from. -/
def source (c : CommandLine) : SnapshotSource :=
  match c.checker with
  | some line => .command line
  | none => .sidecar

/-- The collaborators that a command line asks for. -/
def collaborators (c : CommandLine) (t : FileTree) (launch : Launcher) :
    Collaborators Id Verdicts where
  resolve file := Config.resolve t c.project file
  check files options := c.source.check t launch files options
  evaluate verdicts groups := verdicts.evaluate groups

/-- The results of checking files. -/
def checkAll (c : CommandLine) (t : FileTree) (launch : Launcher) (files : List Path) :
    List FileRun :=
  files.map fun file => ⟨file, Id.run (checkFile (c.collaborators t launch) file)⟩

end CommandLine

namespace FileTree

/-- The text of a source file, if it can be read. -/
def sourceText? (t : FileTree) (file : String) : Option String :=
  ((t.readText ⟨file⟩).map String.ofList).toOption

end FileTree

namespace Report

/-- Outcomes one after the other, with an empty line after each that has something to report. -/
def outcomesText (disk : String → Option String) (r : Reporter) : List Outcome → String
  | [] => ""
  | o :: os =>
    let (text, r) := r.writeOutcome disk o
    (if text = "" then "" else text ++ "\n\n") ++ outcomesText disk r os

/-- The report of a run as text: the outcomes, and a summary. -/
def text (disk : String → Option String) (color : Bool) (outcomes : List Outcome) : String :=
  outcomesText disk (.new color) outcomes
    ++ (outcomes.foldl Summary.record {}).text color ++ "\n"

/-- What the report of a run as JSON says about a file. -/
def entry (r : FileRun) : Value :=
  match r.result with
  | .ok outcome => outcome.toJson
  | .error e => .object [("error", .string e.message)]

/-- The members of the report of a run as JSON, by the paths of the files as they are displayed. -/
def members (base : Path) (runs : List FileRun) : OrderedMap String Value :=
  .ofList (runs.map fun r => (r.file.display base, entry r))

/-- The report of a run as JSON. -/
def json (base : Path) (runs : List FileRun) : String :=
  (Value.object (members base runs).entries).pretty ++ "\n"

end Report

/-- The status of a run: a failed check is worse than a failure. -/
def statusOf (runs : List FileRun) : ExitStatus :=
  if runs.any fun r => r.error?.isSome then .error
  else if ((runs.filterMap FileRun.outcome?).foldl Report.Summary.record {}).hasErrors then
    .failures
  else .success

/-- The report of a run. -/
def reportOf (c : CommandLine) (t : FileTree) (runs : List FileRun) : String :=
  match c.format with
  | .text => Report.text t.sourceText? (!c.noColor) (runs.filterMap FileRun.outcome?)
  | .json => Report.json t.workingPath runs

/-- The lines about failed checks. -/
def complaintsOf (runs : List FileRun) : String :=
  String.join ((runs.filterMap FileRun.error?).map fun e => s!"error: {e.message}\n")

/-- The test files that paths stand for, the files below directories being those at paths that
patterns match. -/
def Discovery.discover (t : FileTree) (patterns : List (List Glob.Token)) (paths : List Path) :
    Except Missing (List Path) :=
  discoverBy t (Glob.anyMatches patterns) paths

/-- The test files that a command line asks for. -/
def CommandLine.testFiles (c : CommandLine) (t : FileTree) : Except RunError (List Path) := do
  let patterns ← (Glob.patternsOf c.patterns).mapError RunError.pattern
  (Discovery.discover t patterns c.paths).mapError RunError.missing

/-- A run on a file tree. -/
def run (c : CommandLine) (t : FileTree) (launch : Launcher) : Except RunError Transcript := do
  let files ← c.testFiles t
  if files.isEmpty then
    return ⟨.error, "", "No test files found.\n"⟩
  else
    let runs := c.checkAll t launch files
    return ⟨statusOf runs, reportOf c t runs, complaintsOf runs⟩

end TypeAssertions
