/-!
# JSON with comments

Configuration files are JSON in which comments may stand between tokens.  `stripComments` removes
them and keeps their line ends, so that what follows stays on its line.  Nothing inside a string is
a comment, and in a string the character after a backslash does not end it.
-/

namespace TypeAssertions.Config

/-- What the scanner is in the middle of. -/
inductive CommentState where
  | code
  | string
  | line
  | block
  deriving DecidableEq, Repr

/-- The text without comments, when it starts in the middle of something. -/
def stripFrom : CommentState → List Char → List Char
  | _, [] => []
  | .code, '"' :: cs => '"' :: stripFrom .string cs
  | .code, '/' :: '/' :: cs => stripFrom .line cs
  | .code, '/' :: '*' :: cs => stripFrom .block cs
  | .code, c :: cs => c :: stripFrom .code cs
  | .string, '"' :: cs => '"' :: stripFrom .code cs
  | .string, '\\' :: c :: cs => '\\' :: c :: stripFrom .string cs
  | .string, c :: cs => c :: stripFrom .string cs
  | .line, '\n' :: cs => '\n' :: stripFrom .code cs
  | .line, _ :: cs => stripFrom .line cs
  | .block, '*' :: '/' :: cs => stripFrom .code cs
  | .block, '\n' :: cs => '\n' :: stripFrom .block cs
  | .block, _ :: cs => stripFrom .block cs

/-- The text without comments. -/
def stripComments (text : List Char) : List Char :=
  stripFrom .code text

end TypeAssertions.Config
