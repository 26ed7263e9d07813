import TypeAssertions.Diagnostic.Codec
import TypeAssertions.Snapshot.Basic
import TypeAssertions.Syntax.Codec

/-!
# Snapshots as JSON

A snapshot is written with all its members.  When it is read, diagnostics and evaluations may be
left out, and so may the root of a file, and the message and the severity of an evaluation.
-/

namespace TypeAssertions

open Json

namespace SnapshotFile

/-- The JSON form of a file. -/
def toJson (f : SnapshotFile) : Value :=
  .object
    [("fileName", .string f.name), ("text", .string f.text), ("nodes", f.nodes.toJson),
      ("root", (f.root.map NodeIndex.toJson).getD .null)]

/-- The fields of a file that have been read. -/
structure Draft where
  name : Option String := none
  text : Option String := none
  nodes : Option Arena := none
  root : Option (Option NodeIndex) := none

/-- The file of a draft. -/
def Draft.complete (d : Draft) : Except String SnapshotFile := do
  let some name := d.name | throw "fileName"
  let some text := d.text | throw "text"
  let some nodes := d.nodes | throw "nodes"
  return ⟨name, text, nodes, d.root.getD none⟩

/-- How a file is read. -/
def shape : RecordShape Draft SnapshotFile where
  name := "SnapshotFile"
  fields :=
    [.of "fileName" true Draft.name (fun d name => { d with name }) .string,
      .of "text" true Draft.text (fun d text => { d with text }) .string,
      .of "nodes" true Draft.nodes (fun d nodes => { d with nodes }) Arena.decoder,
      .of "root" false Draft.root (fun d root => { d with root })
        (.optional NodeIndex.decoder)]
  start := {}
  complete := Draft.complete

end SnapshotFile

namespace Evaluation

/-- The JSON form of an evaluation. -/
def toJson (e : Evaluation) : Value :=
  .object
    [("kind", .string e.kind.name), ("file", .string e.file), ("start", .ofNat e.start.toNat),
      ("end", .ofNat e.stop.toNat), ("passed", .bool e.passed), ("message", .string e.message),
      ("severity", .string e.severity.name)]

/-- The fields of an evaluation that have been read. -/
structure Draft where
  kind : Option AssertionKind := none
  file : Option String := none
  start : Option UInt32 := none
  stop : Option UInt32 := none
  passed : Option Bool := none
  message : Option String := none
  severity : Option Severity := none

/-- The evaluation of a draft. -/
def Draft.complete (d : Draft) : Except String Evaluation := do
  let some kind := d.kind | throw "kind"
  let some file := d.file | throw "file"
  let some start := d.start | throw "start"
  let some stop := d.stop | throw "end"
  let some passed := d.passed | throw "passed"
  return ⟨kind, file, start, stop, passed, d.message.getD "", d.severity.getD .error⟩

/-- How an evaluation is read. -/
def shape : RecordShape Draft Evaluation where
  name := "RecordedEvaluation"
  fields :=
    [.of "kind" true Draft.kind (fun d kind => { d with kind })
        (.choice AssertionKind.byName none),
      .of "file" true Draft.file (fun d file => { d with file }) .string,
      .of "start" true Draft.start (fun d start => { d with start }) .uint32,
      .of "end" true Draft.stop (fun d stop => { d with stop }) .uint32,
      .of "passed" true Draft.passed (fun d passed => { d with passed }) .bool,
      .of "message" false Draft.message (fun d message => { d with message }) .string,
      .of "severity" false Draft.severity (fun d severity => { d with severity })
        (.choice Severity.byName none)]
  start := {}
  complete := Draft.complete

end Evaluation

namespace Snapshot

/-- The JSON form of a snapshot. -/
def toJson (s : Snapshot) : Value :=
  .object
    [("files", .array (s.files.map SnapshotFile.toJson)),
      ("syntaxDiagnostics", .array (s.syntaxDiagnostics.map Diagnostic.toJson)),
      ("semanticDiagnostics", .array (s.semanticDiagnostics.map Diagnostic.toJson)),
      ("evaluations", .array (s.evaluations.map Evaluation.toJson))]

/-- The fields of a snapshot that have been read. -/
structure Draft where
  files : Option (List SnapshotFile) := none
  syntaxDiagnostics : Option (List Diagnostic) := none
  semanticDiagnostics : Option (List Diagnostic) := none
  evaluations : Option (List Evaluation) := none

/-- The snapshot of a draft. -/
def Draft.complete (d : Draft) : Except String Snapshot := do
  let some files := d.files | throw "files"
  return ⟨files, d.syntaxDiagnostics.getD [], d.semanticDiagnostics.getD [],
    d.evaluations.getD []⟩

/-- How a snapshot is read. -/
def shape : RecordShape Draft Snapshot where
  name := "CheckerSnapshot"
  fields :=
    [.of "files" true Draft.files (fun d files => { d with files })
        (.list SnapshotFile.shape.decoder),
      .of "syntaxDiagnostics" false Draft.syntaxDiagnostics
        (fun d syntaxDiagnostics => { d with syntaxDiagnostics }) (.list Diagnostic.decoder),
      .of "semanticDiagnostics" false Draft.semanticDiagnostics
        (fun d semanticDiagnostics => { d with semanticDiagnostics }) (.list Diagnostic.decoder),
      .of "evaluations" false Draft.evaluations (fun d evaluations => { d with evaluations })
        (.list Evaluation.shape.decoder)]
  start := {}
  complete := Draft.complete

/-- A reader of snapshots. -/
def decoder : Decoder Snapshot := shape.decoder

/-- The snapshot that a text writes. -/
def ofText (text : List Char) : Except ReadError Snapshot := decoder.readText text

end Snapshot

end TypeAssertions
