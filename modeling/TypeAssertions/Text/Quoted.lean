import TypeAssertions.Text.Unprintable

/-!
# Quoted text

`quote` puts a text between double quotes in such a way that it can be told apart in a message:
quotes and backslashes are marked by a backslash, line ends and tabs by a letter, and any other
unprintable character by its code point.
-/

namespace TypeAssertions.Text

/-- The form of one character between quotes. -/
def quoteChar (c : Char) : List Char :=
  if c = '"' ∨ c = '\\' then ['\\', c]
  else if c = '\n' then ['\\', 'n']
  else if c = '\r' then ['\\', 'r']
  else if c = '\t' then ['\\', 't']
  else if c.toNat = 0 then ['\\', '0']
  else if isUnprintable c then
    ['\\', 'u', '\x7b'] ++ Nat.toDigits 16 c.toNat ++ ['\x7d']
  else [c]

/-- The text between double quotes. -/
def quote (s : String) : String :=
  String.ofList ('"' :: s.toList.flatMap quoteChar ++ ['"'])

end TypeAssertions.Text
