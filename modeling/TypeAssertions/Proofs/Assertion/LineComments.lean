import Mathlib.Data.List.Basic
import TypeAssertions.Assertion.Extraction
import TypeAssertions.Proofs.Config.Comments
import TypeAssertions.Proofs.Syntax.Trivia

/-!
# Calls after line comments

Spans, and with them the assertions of files, depend on the scanner that finds the first token of a
node.  Another scanner extracts the same assertions when it finds the same tokens
(`Extracted.ofFilesBy_eq`), as the one that ends line comments where lines end does when each line
comment stops in its line (`Extracted.ofFiles_lineComments`).
-/

namespace TypeAssertions

open Text

/-! ### Extraction by any scanner -/

section

variable (skip : List Char → Nat → Nat)

namespace SourceFile

/-- The span of a node when `skip` finds its first token. -/
def spanBy? (f : SourceFile) (i : NodeIndex) : Option Span :=
  match f.arena.get? i with
  | none => none
  | some node =>
    if node.stop < node.start ∨ f.size < node.stop.toNat then none
    else
      let first := skip f.text.toList node.start.toNat
      some ⟨f.id, UInt32.ofNat (min first node.stop.toNat), node.stop⟩

/-- The text of a node when `skip` finds its first token. -/
def nodeTextBy? (f : SourceFile) (i : NodeIndex) : Option String := do
  let span ← f.spanBy? skip i
  let text ← Text.slice? span.start.toNat span.stop.toNat f.text.toList
  return String.ofList text

/-- The assertion that a node is, if it is one, when `skip` finds first tokens. -/
def assertionBy? (f : SourceFile) (i : NodeIndex) : Option Assertion := do
  let node ← f.arena.get? i
  guard (node.kind = .callExpression)
  let callee ← node.children.head?
  let kind ← AssertionKind.ofName? (← f.nodeTextBy? skip callee)
  let span ← f.spanBy? skip i
  guard (!span.isEmpty)
  return ⟨⟨f.id, i⟩, kind, span⟩

end SourceFile

/-- The assertions of files when `skip` finds first tokens. -/
def Extracted.ofFilesBy (files : List SourceFile) : Extracted :=
  (files.flatMap fun f => (f.arena.walk f.root).filterMap (f.assertionBy? skip)).foldl
    Extracted.insert .empty

end

theorem Extracted.ofFilesBy_skipTrivia :
  Extracted.ofFilesBy Syntax.skipTrivia = Extracted.ofFiles
  := rfl

theorem Arena.mem_nodes_of_get? {a : Arena} {i : NodeIndex} {n : Node} (h : a.get? i = some n) :
  n ∈ a.nodes
  := by
  rw [get?] at h
  split at h
  · cases h
  · apply List.mem_of_getElem? h

variable {skip skip' : List Char → Nat → Nat}

theorem SourceFile.spanBy?_eq {f : SourceFile}
    (same : ∀ node ∈ f.arena.nodes,
      skip f.text.toList node.start.toNat = skip' f.text.toList node.start.toNat) :
  f.spanBy? skip = f.spanBy? skip'
  := by
  funext i
  rw [spanBy?, spanBy?]
  cases found : f.arena.get? i with
  | none => rfl
  | some node => simp only [same node (Arena.mem_nodes_of_get? found)]

/-- Two scanners that find the same first tokens extract the same assertions. -/
theorem Extracted.ofFilesBy_eq {files : List SourceFile}
    (same : ∀ f ∈ files, ∀ node ∈ f.arena.nodes,
      skip f.text.toList node.start.toNat = skip' f.text.toList node.start.toNat) :
  Extracted.ofFilesBy skip files = Extracted.ofFilesBy skip' files
  := by
  have each : ∀ f ∈ files, f.assertionBy? skip = f.assertionBy? skip' := by
    intro f listed
    funext i
    have spans := SourceFile.spanBy?_eq (same f listed)
    simp only [SourceFile.assertionBy?, SourceFile.nodeTextBy?, spans]
  rw [ofFilesBy, ofFilesBy]
  congr 1
  apply List.flatMap_congr
  intro f listed
  rw [each f listed]

/-! ### Line comments -/

/-- The line comments before the nodes of a file end in the lines in which they start. -/
def SourceFile.Stops (f : SourceFile) : Prop :=
  ∀ node ∈ f.arena.nodes, ∀ before comment after,
    Syntax.Meets f.text.toList node.start.toNat before comment after →
    StopsInLine before comment after

/-- Every text is a sequence of blanks and comments up to a token, which is found after them, and
also a sequence of strings, comments and other characters, of which the comments are stripped but
for their line feeds.  A line comment, skipped or stripped, goes on up to a line feed or the end of
the text, and so ends in the line in which it starts exactly when it has no carriage return that no
line feed follows.  Where all line comments on the way to a token do, the token is found where a
scanner finds it that ends line comments wherever lines end; and where all before the nodes of
files do, the assertions are those that are extracted with that scanner. -/
theorem Extracted.ofFiles_lineComments (text : List Char) (offset : Nat)
    (files : List SourceFile) :
  (∃ parts token, Syntax.Skips text parts token)
    ∧ (∀ parts token, Syntax.Skips text parts token → ∀ above,
      Syntax.skipTrivia (above ++ text) (byteLength above) = byteLength (above ++ parts.flatten))
    ∧ (∃ chunks, Config.Scans text chunks)
    ∧ (∀ chunks, Config.Scans text chunks →
      Config.stripComments text = chunks.flatMap Config.left)
    ∧ (∀ before comment after, Config.Meets text before comment after →
      LineComment text before comment after)
    ∧ (∀ before comment after, Syntax.Meets text offset before comment after →
      LineComment text before comment after)
    ∧ ((∀ before comment after, Syntax.Meets text offset before comment after →
        StopsInLine before comment after) →
      Syntax.skipTrivia text offset = Syntax.skipUntil Syntax.isLineEnd text offset)
    ∧ Extracted.ofFiles files = Extracted.ofFilesBy (Syntax.skipUntil Syntax.isFeed) files
    ∧ ((∀ f ∈ files, f.Stops) →
      Extracted.ofFiles files = Extracted.ofFilesBy (Syntax.skipUntil Syntax.isLineEnd) files)
  := by
  refine ⟨Syntax.exists_skips text, ?_, Config.exists_scans text, ?_, ?_, ?_, ?_, ?_, ?_⟩
  · intro parts token skips above
    apply skips.skipTrivia
  · intro chunks scans
    apply scans.strip
  · intro before comment after meets
    apply meets.lineComment
  · intro before comment after meets
    apply meets.lineComment
  · intro stops
    rw [Syntax.skipUntil_isLineEnd stops]
  · rw [Syntax.skipUntil_isFeed, Extracted.ofFilesBy_skipTrivia]
  · intro stops
    rw [← Extracted.ofFilesBy_skipTrivia]
    apply Extracted.ofFilesBy_eq
    intro f listed node among
    rw [Syntax.skipUntil_isLineEnd (stops f listed node among)]

/-- A file with one call, which has a line comment before it. -/
def commentedFile (text : String) (stop : UInt32) : SourceFile where
  id := ⟨0⟩
  name := "a.ts"
  text := text
  arena := ⟨[⟨.sourceFile, 0, stop, [⟨1⟩]⟩, ⟨.callExpression, 0, stop, [⟨2⟩]⟩,
    ⟨.identifier, 0, stop - 3, []⟩]⟩
  root := ⟨0⟩

/-- A call after a carriage return and a line feed is extracted. -/
theorem ofFiles_lineComments_feed :
  let f := commentedFile "// c\r\nexpectError(f)" 20
  f.Stops ∧ Extracted.ofFiles [f] = Extracted.ofFilesBy (Syntax.skipUntil Syntax.isLineEnd) [f]
    ∧ (Extracted.ofFiles [f]).count = 1
  := by
  intro f
  have whole : ¬ HasLoneReturn f.text.toList [] := by decide +kernel
  have stops : f.Stops := by
    intro node _ before comment after meets
    apply meets.lineComment.stops whole
  obtain ⟨-, -, -, -, -, -, -, -, extracted⟩ :=
    Extracted.ofFiles_lineComments f.text.toList 0 [f]
  refine ⟨stops, extracted (by simpa using stops), ?_⟩
  cbv

/-- A call after a lone carriage return is skipped with the comment of the line above, though a
scanner that ends line comments where lines end finds it. -/
theorem ofFiles_lineComments_return :
  let f := commentedFile "// c\rexpectError(f)" 19
  let text := f.text.toList
  Syntax.Meets text 0 [] text [] ∧ Config.Meets text [] text [] ∧ ¬ StopsInLine [] text []
    ∧ (Extracted.ofFiles [f]).count = 0
    ∧ (Extracted.ofFilesBy (Syntax.skipUntil Syntax.isLineEnd) [f]).count = 1
  := by
  intro f text
  have slashes : ['/', '/'] <+: text := by decide +kernel
  have comment : IsComment text [] := by
    obtain ⟨body, same⟩ := slashes
    have inline : '\n' ∉ text := by decide +kernel
    rw [← same] at inline ⊢
    apply IsComment.line (by simpa using inline) (by simp)
  refine ⟨?_, ?_, by decide +kernel, by cbv, by cbv⟩
  · refine ⟨[], text, [], [], [], rfl, rfl, ⟨?_, ⟨by simp, by decide⟩⟩, slashes, rfl, rfl⟩
    simpa using Cut.part (.comment comment) (.last [])
  · refine ⟨[], [], ?_, slashes, rfl, rfl⟩
    rw [Config.Scans]
    simpa using Cut.part (.comment comment) (.last [])

end TypeAssertions
