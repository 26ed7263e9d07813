import TypeAssertions.Json.Value
import TypeAssertions.Text.Quoted

/-!
# Problems of JSON texts

A reader of a JSON text fails with a `Problem` noticed after a number of bytes, a `Failure`.
`Failure.locate` finds its line and column, both counted from one, the column in bytes, and
`ReadError.message` is the wording of the failure with its place.
-/

namespace TypeAssertions.Json

/-- What a reader met in place of what it wanted. -/
inductive Found where
  | null
  | bool (b : Bool)
  | number (n : Number)
  | string (s : String)
  | sequence
  | map
  deriving DecidableEq, Repr

/-- Why a text cannot be read as a document, or a document as the wanted data. -/
inductive Problem where
  | endInValue
  | endInObject
  | endInList
  | endInString
  | expectedValue
  | expectedIdent
  | expectedColon
  | expectedListEnd
  | expectedObjectEnd
  | keyNotString
  | trailingComma
  | trailingCharacters
  | invalidNumber
  | numberOutOfRange
  | invalidEscape
  | endOfHexEscape
  | loneSurrogate
  | controlCharacter
  | tooDeep
  | invalidType (found : Found) (expected : String)
  | invalidValue (n : Int) (expected : String)
  | invalidLength (n : Nat) (expected : String)
  | missingField (name : String)
  | duplicateField (name : String)
  | unknownVariant (name : String) (variants : List String)
  | noVariant (name : String)
  deriving DecidableEq, Repr

/-- The text of a number. -/
def Number.text : Number → List Char
  | .integer n => (toString n).toList
  | .double x => x.text

/-- The wording of what a reader met. -/
def Found.describe : Found → String
  | .null => "null"
  | .bool b => s!"boolean `{b}`"
  | .number (.integer n) => s!"integer `{n}`"
  | .number (.double x) => s!"floating point `{String.ofList x.text}`"
  | .string s => s!"string {Text.quote s}"
  | .sequence => "sequence"
  | .map => "map"

/-- The wording of a choice between names. -/
def oneOf : List String → String
  | [] => "there are no variants"
  | [a] => s!"expected `{a}`"
  | [a, b] => s!"expected `{a}` or `{b}`"
  | names => "expected one of " ++ String.intercalate ", " (names.map fun n => s!"`{n}`")

/-- The wording of a problem. -/
def Problem.describe : Problem → String
  | .endInValue => "EOF while parsing a value"
  | .endInObject => "EOF while parsing an object"
  | .endInList => "EOF while parsing a list"
  | .endInString => "EOF while parsing a string"
  | .expectedValue => "expected value"
  | .expectedIdent => "expected ident"
  | .expectedColon => "expected `:`"
  | .expectedListEnd => "expected `,` or `]`"
  | .expectedObjectEnd => "expected `,` or `\x7d`"
  | .keyNotString => "key must be a string"
  | .trailingComma => "trailing comma"
  | .trailingCharacters => "trailing characters"
  | .invalidNumber => "invalid number"
  | .numberOutOfRange => "number out of range"
  | .invalidEscape => "invalid escape"
  | .endOfHexEscape => "unexpected end of hex escape"
  | .loneSurrogate => "lone leading surrogate in hex escape"
  | .controlCharacter => "control character (\\u0000-\\u001F) found while parsing a string"
  | .tooDeep => "recursion limit exceeded"
  | .invalidType found expected => s!"invalid type: {found.describe}, expected {expected}"
  | .invalidValue n expected => s!"invalid value: integer `{n}`, expected {expected}"
  | .invalidLength n expected => s!"invalid length {n}, expected {expected}"
  | .missingField name => s!"missing field `{name}`"
  | .duplicateField name => s!"duplicate field `{name}`"
  | .unknownVariant name variants => s!"unknown variant `{name}`, {oneOf variants}"
  | .noVariant name => s!"data did not match any variant of untagged enum {name}"

/-- A problem and the number of bytes read when it was noticed. -/
structure Failure where
  problem : Problem
  offset : Nat
  deriving DecidableEq, Repr

/-- A problem and its place in the text. -/
structure ReadError where
  problem : Problem
  line : Nat
  column : Nat
  deriving DecidableEq, Repr

/-- The line and column reached after some more bytes of a text. -/
def placeFrom (line column : Nat) : Nat → List Char → Nat × Nat
  | 0, _ => (line, column)
  | _, [] => (line, column)
  | n + 1, c :: cs =>
    if c = '\n' then placeFrom (line + 1) 0 n cs
    else if c.utf8Size ≤ n + 1 then placeFrom line (column + c.utf8Size) (n + 1 - c.utf8Size) cs
    else (line, column + (n + 1))

/-- The failure with its place in the text that was read. -/
def Failure.locate (f : Failure) (text : List Char) : ReadError :=
  let (line, column) := placeFrom 1 0 f.offset text
  ⟨f.problem, line, column⟩

/-- The wording of a failure with its place. -/
def ReadError.message (e : ReadError) : String :=
  s!"{e.problem.describe} at line {e.line} column {e.column}"

end TypeAssertions.Json
