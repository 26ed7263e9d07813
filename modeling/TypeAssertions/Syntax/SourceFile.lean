import TypeAssertions.Span
import TypeAssertions.Syntax.Arena
import TypeAssertions.Syntax.Trivia

/-!
# Source files

A `SourceFile` is a text with the arena of its syntax nodes.  The span of a node starts at its
first token and ends where the node ends; a node whose bytes are not in the text has none.
-/

namespace TypeAssertions

/-- A file of a checked program. -/
structure SourceFile where
  id : FileId
  name : String
  text : String
  arena : Arena
  root : NodeIndex
  deriving DecidableEq, Repr

namespace SourceFile

/-- The number of bytes of the text of a file. -/
def size (f : SourceFile) : Nat := Text.byteLength f.text.toList

/-- The span of a node without the trivia before it. -/
def span? (f : SourceFile) (i : NodeIndex) : Option Span :=
  match f.arena.get? i with
  | none => none
  | some node =>
    if node.stop < node.start ∨ f.size < node.stop.toNat then none
    else
      let first := Syntax.skipTrivia f.text.toList node.start.toNat
      some ⟨f.id, UInt32.ofNat (min first node.stop.toNat), node.stop⟩

/-- The text of a node without the trivia before it, unless its span cuts a character. -/
def nodeText? (f : SourceFile) (i : NodeIndex) : Option String := do
  let span ← f.span? i
  let text ← Text.slice? span.start.toNat span.stop.toNat f.text.toList
  return String.ofList text

end SourceFile

end TypeAssertions
