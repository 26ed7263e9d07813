import TypeAssertions.Text.Offset

/-!
# Trivia

What may stand before a token: blanks, line comments up to the end of the line, and block comments
up to their closing mark.  `dropTrivia` is the text without the trivia at its start, and
`skipTrivia` the byte offset at which that rest starts.
-/

namespace TypeAssertions.Syntax

/-- What the scanner is in the middle of. -/
inductive Trivia where
  | code
  | line
  | block
  deriving DecidableEq, Repr

/-- Whether a character may stand between tokens: space, tab, line feed, carriage return, vertical
tab or form feed. -/
def isBlank (c : Char) : Bool :=
  c = ' ' || c = '\t' || c = '\n' || c = '\r' || c = '\x0b' || c = '\x0c'

/-- The text without the trivia that it starts with or starts inside. -/
def dropTrivia : Trivia → List Char → List Char
  | _, [] => []
  | .code, '/' :: '/' :: cs => dropTrivia .line cs
  | .code, '/' :: '*' :: cs => dropTrivia .block cs
  | .code, c :: cs => if isBlank c then dropTrivia .code cs else c :: cs
  | .line, c :: cs => if c = '\n' then dropTrivia .code cs else dropTrivia .line cs
  | .block, '*' :: '/' :: cs => dropTrivia .code cs
  | .block, _ :: cs => dropTrivia .block cs

/-- The offset of the first token of a text at or after byte `offset`.  An offset that does not
stand between characters is left alone, because no trivia starts inside a character. -/
def skipTrivia (text : List Char) (offset : Nat) : Nat :=
  match Text.dropBytes? offset text with
  | some rest => offset + (Text.byteLength rest - Text.byteLength (dropTrivia .code rest))
  | none => offset

end TypeAssertions.Syntax
