import TypeAssertions.OrderedMap
import TypeAssertions.Report.Style
import TypeAssertions.Outcome
import TypeAssertions.Text.LineMap

/-!
# Reports

A `Reporter` writes findings one below the other: the place, the category, the code and the message
on one line, and then, as a `Snippet`, the line of the source with the range underlined.  It reads a
source when it is first needed and keeps it, also when there is none, together with its line map; a
source may also be given to it.  `disk` is how sources are read.
-/

namespace TypeAssertions.Report

open Text (LineMap Position)

/-- What a reporter keeps: whether it writes in color, the sources that it has, and the line maps
that it has made of them. -/
structure Reporter where
  color : Bool
  sources : OrderedMap String (Option String)
  lineMaps : OrderedMap String LineMap
  deriving DecidableEq

/-- What is to be written about a range of a file. -/
structure Item where
  file : Option String
  start : UInt32
  length : Nat
  category : Category
  code : UInt32
  message : String
  deriving DecidableEq, Repr

/-- The file that an item is about, if that has a name. -/
def Item.named? (item : Item) : Option String := item.file.filter fun file => file ≠ ""

/-- The item of a diagnostic. -/
def Item.ofDiagnostic (d : Diagnostic) : Item :=
  ⟨d.file, d.start, d.length.toNat, d.category, d.code, d.text⟩

/-- The item of a finding. -/
def Item.ofFinding : Finding → Item
  | .diagnostic d => .ofDiagnostic d
  | .missingError file span message =>
    ⟨some file, span.start, span.length, .error, 0, message⟩
  | .verdict _ file span message severity =>
    ⟨some file, span.start, span.length, severity.category, 0, message⟩

/-- The items of an outcome: the errors that stopped it, or its findings. -/
def Item.ofOutcome (o : Outcome) : List Item :=
  match o.errors with
  | some errors => errors.map ofDiagnostic
  | none => o.findings.map ofFinding

/-- A text with four spaces for each tab. -/
def expandTabs (cs : List Char) : List Char :=
  cs.flatMap fun c => if c = '\t' then List.replicate 4 ' ' else [c]

/-- A text with blanks before it, up to a width. -/
def padLeft (width : Nat) (cs : List Char) : List Char :=
  List.replicate (width - cs.length) ' ' ++ cs

/-- A line of a source that is shown with a range of it underlined: its number, counted from one,
its characters with blanks for tabs, how many of them come before the range and how many are
underlined. -/
structure Snippet where
  number : Nat
  line : List Char
  lead : Nat
  width : Nat
  deriving DecidableEq, Repr

namespace Snippet

/-- What comes before the characters of the line: its number, at least three characters wide. -/
def gutter (s : Snippet) : List Char :=
  [' ', ' '] ++ padLeft 3 (Nat.toDigits 10 s.number) ++ [' ', ' ', ' ']

/-- The row with the number and the characters of the line. -/
def sourceRow (s : Snippet) : List Char := s.gutter ++ s.line

/-- The blanks before the underline. -/
def indent (s : Snippet) : List Char := List.replicate (8 + s.lead) ' '

/-- The underline. -/
def underline (s : Snippet) : List Char := List.replicate s.width '~'

/-- The two rows, each below what comes before it. -/
def text (s : Snippet) (color : Bool) : String :=
  "\n" ++ String.ofList s.sourceRow ++ "\n" ++ String.ofList s.indent
    ++ Style.red.paint color (String.ofList s.underline)

end Snippet

namespace Reporter

/-- A reporter that has no sources. -/
def new (color : Bool) : Reporter := ⟨color, .empty, .empty⟩

/-- The reporter with a source given to it. -/
def addSource (r : Reporter) (file text : String) : Reporter :=
  { r with lineMaps := r.lineMaps.erase file, sources := r.sources.insert file (some text) }

/-- The reporter after it has looked for a source. -/
def ensureSource (r : Reporter) (disk : String → Option String) (file : String) : Reporter :=
  if r.sources.contains file then r
  else { r with sources := r.sources.insert file (disk file) }

/-- The source and the line map of a file, if it has a source, and the reporter that keeps them. -/
def lookUp (r : Reporter) (disk : String → Option String) (file : String) :
    Option (List Char × LineMap) × Reporter :=
  let r := r.ensureSource disk file
  match r.sources.get? file with
  | some (some source) =>
    match r.lineMaps.get? file with
    | some lines => (some (source.toList, lines), r)
    | none =>
      let lines := LineMap.ofText source.toList
      (some (source.toList, lines), { r with lineMaps := r.lineMaps.insert file lines })
  | _ => (none, r)

/-- The line of a source that holds the start of a range, with the range underlined up to the end
of the line; none when the range does not start and end between characters of the line. -/
def snippet? (source : List Char) (lines : LineMap) (start length : Nat) : Option Snippet := do
  guard (length ≠ 0)
  let line := (lines.position start source).line
  let lineStart ← lines.lineStart? line
  let text ← lines.lineText? line source
  let stop := min (start + length) (lineStart + Text.byteLength text)
  let lead ← Text.slice? lineStart start source
  let marked ← Text.slice? start stop source
  return ⟨line + 1, expandTabs text, (expandTabs lead).length, max 1 (expandTabs marked).length⟩

/-- The category, the code unless it is zero, and the message of an item. -/
def headline (color : Bool) (item : Item) : String :=
  (Style.ofCategory item.category).paint color item.category.name
    ++ (if item.code = 0 then "" else " " ++ Style.brightBlue.paint color s!"TS{item.code}")
    ++ ": " ++ item.message

/-- What is written for an item about a file: the place, when the source of the file was found with
its line map, the headline, and the snippet if there is one. -/
def written (color : Bool) (item : Item) (file : String) : Option (List Char × LineMap) → String
  | none => file ++ " - " ++ headline color item
  | some (source, lines) =>
    let place := (lines.position item.start.toNat source).text
    let snippet := snippet? source lines item.start.toNat item.length
    s!"{file}:{place} - " ++ headline color item ++ (snippet.map fun s => s.text color).getD ""

/-- An item as it is written, and the reporter that keeps its source. -/
def write (r : Reporter) (disk : String → Option String) (item : Item) : String × Reporter :=
  match item.named? with
  | none => ("<global> - " ++ headline r.color item, r)
  | some file =>
    let (found, r) := r.lookUp disk file
    (written r.color item file found, r)

/-- Items as they are written, and the reporter that keeps their sources. -/
def writeAll (r : Reporter) (disk : String → Option String) : List Item → List String × Reporter
  | [] => ([], r)
  | item :: items =>
    let (first, r) := r.write disk item
    let (rest, r) := writeAll r disk items
    (first :: rest, r)

/-- An outcome as it is written, one item below the other, and the reporter that keeps the
sources. -/
def writeOutcome (r : Reporter) (disk : String → Option String) (o : Outcome) :
    String × Reporter :=
  let (texts, r) := r.writeAll disk (Item.ofOutcome o)
  (String.intercalate "\n" texts, r)

end Reporter

end TypeAssertions.Report
