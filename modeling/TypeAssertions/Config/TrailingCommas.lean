import TypeAssertions.Text.Blank

/-!
# Trailing commas

Configuration files may have a comma before a closing bracket or brace.  `removeTrailingCommas`
removes these commas, and none inside a string.
-/

namespace TypeAssertions.Config

/-- What the scanner is in the middle of; in a string, `escaped` after a backslash. -/
inductive CommaState where
  | code
  | string
  | escaped
  deriving DecidableEq, Repr

/-- The state after a character. -/
def CommaState.next : CommaState → Char → CommaState
  | .code, c => if c = '"' then .string else .code
  | .string, c => if c = '\\' then .escaped else if c = '"' then .code else .string
  | .escaped, _ => .string

/-- Whether the first character that is no blank closes an array or an object. -/
def closes (cs : List Char) : Bool :=
  match cs.dropWhile Text.isBlank with
  | ']' :: _ | '\x7d' :: _ => true
  | _ => false

/-- The text without trailing commas, when it starts in the middle of something. -/
def removeCommasFrom : CommaState → List Char → List Char
  | _, [] => []
  | state, c :: cs =>
    if state = .code ∧ c = ',' ∧ closes cs then removeCommasFrom .code cs
    else c :: removeCommasFrom (state.next c) cs

/-- The text without trailing commas. -/
def removeTrailingCommas (text : List Char) : List Char :=
  removeCommasFrom .code text

end TypeAssertions.Config
