import TypeAssertions.Json.Problem

/-!
# Writing JSON

`Value.compact` writes a value without spaces, and `Value.pretty` with one element or member to a
line, indented by two spaces for each container around it.  Both write strings in the same way:
quotes, backslashes and control characters are escaped, and no other character is.
-/

namespace TypeAssertions.Json

/-- A control character by its code point. -/
def unicodeEscape (c : Char) : List Char :=
  let digits := Nat.toDigits 16 c.toNat
  ['\\', 'u'] ++ List.replicate (4 - digits.length) '0' ++ digits

/-- The form of a character inside a string. -/
def escapeChar (c : Char) : List Char :=
  if c = '"' then ['\\', '"']
  else if c = '\\' then ['\\', '\\']
  else if c = '\x08' then ['\\', 'b']
  else if c = '\x0c' then ['\\', 'f']
  else if c = '\n' then ['\\', 'n']
  else if c = '\r' then ['\\', 'r']
  else if c = '\t' then ['\\', 't']
  else if c.toNat < 0x20 then unicodeEscape c
  else [c]

/-- A string between quotes. -/
def stringText (s : String) : List Char :=
  '"' :: s.toList.flatMap escapeChar ++ ['"']

namespace Value

mutual

/-- A value without spaces. -/
def compactChars : Value → List Char
  | .null => "null".toList
  | .bool true => "true".toList
  | .bool false => "false".toList
  | .number n => n.text
  | .string s => stringText s
  | .array [] => ['[', ']']
  | .array (v :: vs) => '[' :: compactChars v ++ compactItems vs ++ [']']
  | .object [] => ['\x7b', '\x7d']
  | .object ((k, v) :: ms) =>
    '\x7b' :: stringText k ++ ':' :: compactChars v ++ compactMembers ms ++ ['\x7d']

/-- Elements that follow another one. -/
def compactItems : List Value → List Char
  | [] => []
  | v :: vs => ',' :: compactChars v ++ compactItems vs

/-- Members that follow another one. -/
def compactMembers : List (String × Value) → List Char
  | [] => []
  | (k, v) :: ms => ',' :: stringText k ++ ':' :: compactChars v ++ compactMembers ms

end

/-- A value without spaces. -/
def compact (v : Value) : String :=
  String.ofList v.compactChars

/-- A line end and the indentation inside `level` containers. -/
def newLine (level : Nat) : List Char :=
  '\n' :: List.replicate (2 * level) ' '

mutual

/-- A value inside `level` containers, spread over lines. -/
def prettyChars (level : Nat) : Value → List Char
  | .null => "null".toList
  | .bool true => "true".toList
  | .bool false => "false".toList
  | .number n => n.text
  | .string s => stringText s
  | .array [] => ['[', ']']
  | .array (v :: vs) =>
    '[' :: newLine (level + 1) ++ prettyChars (level + 1) v ++ prettyItems (level + 1) vs
      ++ newLine level ++ [']']
  | .object [] => ['\x7b', '\x7d']
  | .object ((k, v) :: ms) =>
    '\x7b' :: newLine (level + 1) ++ stringText k ++ ':' :: ' ' :: prettyChars (level + 1) v
      ++ prettyMembers (level + 1) ms ++ newLine level ++ ['\x7d']

/-- Elements that follow another one. -/
def prettyItems (level : Nat) : List Value → List Char
  | [] => []
  | v :: vs => ',' :: newLine level ++ prettyChars level v ++ prettyItems level vs

/-- Members that follow another one. -/
def prettyMembers (level : Nat) : List (String × Value) → List Char
  | [] => []
  | (k, v) :: ms =>
    ',' :: newLine level ++ stringText k ++ ':' :: ' ' :: prettyChars level v
      ++ prettyMembers level ms

end

/-- A value spread over lines. -/
def pretty (v : Value) : String :=
  String.ofList (v.prettyChars 0)

/-- A natural number as a value. -/
def ofNat (n : Nat) : Value := .number (.integer n)

end Value

end TypeAssertions.Json
