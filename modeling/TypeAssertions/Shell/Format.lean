import TypeAssertions.Text.Utf8

/-!
# Formats

`bytesOf` is a text with the characters that a backslash introduces.  `format` writes arguments
under a format, which it uses again and again until no argument is left.
-/

namespace TypeAssertions.Shell

/-- A part of a format: a byte, or the place of an argument. -/
inductive Directive where
  | byte (b : UInt8)
  | string
  | escaped
  | decimal
  deriving DecidableEq, Repr

/-- What is incomplete before a character of a format; octal digits have a value, and the number of
digits that may follow. -/
inductive Opening where
  | nothing
  | backslash
  | octal (value : Nat) (left : Nat)
  | percent
  deriving DecidableEq, Repr

/-- The byte that a letter after a backslash stands for. -/
def escapeLetters : List (Char × UInt8) :=
  [('a', 7), ('b', 8), ('f', 12), ('n', 10), ('r', 13), ('t', 9), ('v', 11), ('\\', 92)]

/-- The value of an octal digit. -/
def octalDigit? (c : Char) : Option Nat :=
  if '0' ≤ c ∧ c ≤ '7' then some (c.toNat - '0'.toNat) else none

/-- The directives of some bytes. -/
def literal (bytes : List UInt8) : List Directive := bytes.map .byte

/-- The place that a letter after a percent sign stands for. -/
def placeLetters : List (Char × Directive) :=
  [('s', .string), ('b', .escaped), ('d', .decimal), ('i', .decimal), ('u', .decimal),
    ('%', .byte 37)]

/-- What is open after a character when nothing was, and its directives.  Percent signs count in
a format only. -/
def openWith (isFormat : Bool) (c : Char) : List Directive × Opening :=
  if c = '\\' then ([], .backslash)
  else if isFormat ∧ c = '%' then ([], .percent)
  else (literal (String.utf8EncodeChar c), .nothing)

/-- The directives that a character completes, and what is open after it. -/
def next (isFormat : Bool) (opening : Opening) (c : Char) : List Directive × Opening :=
  match opening with
  | .nothing => openWith isFormat c
  | .backslash =>
    match octalDigit? c, escapeLetters.lookup c with
    | some n, _ => ([], .octal n (if n = 0 ∧ !isFormat then 3 else 2))
    | none, some b => ([.byte b], .nothing)
    | none, none => (literal (92 :: String.utf8EncodeChar c), .nothing)
  | .octal value left =>
    match octalDigit? c with
    | some n =>
      if left = 0 then
        let (more, opening) := openWith isFormat c
        (.byte (UInt8.ofNat value) :: more, opening)
      else ([], .octal (8 * value + n) (left - 1))
    | none =>
      let (more, opening) := openWith isFormat c
      (.byte (UInt8.ofNat value) :: more, opening)
  | .percent =>
    match placeLetters.lookup c with
    | some d => ([d], .nothing)
    | none => (literal (37 :: String.utf8EncodeChar c), .nothing)

/-- The directives of a text, of which the start is open. -/
def directivesFrom (isFormat : Bool) (opening : Opening) : List Char → List Directive
  | [] =>
    match opening with
    | .nothing => []
    | .backslash => [.byte 92]
    | .octal value _ => [.byte (UInt8.ofNat value)]
    | .percent => [.byte 37]
  | c :: cs =>
    let (found, opening) := next isFormat opening c
    found ++ directivesFrom isFormat opening cs

/-- The bytes of a text in which a backslash introduces special characters. -/
def bytesOf (cs : List Char) : List UInt8 :=
  (directivesFrom false .nothing cs).filterMap fun
    | .byte b => some b
    | .string | .escaped | .decimal => none

/-- The bytes of an argument in its place. -/
def fillPlace (d : Directive) (argument : String) : List UInt8 :=
  match d with
  | .byte b => [b]
  | .string => Text.Utf8.encode argument.toList
  | .escaped => bytesOf argument.toList
  | .decimal => Text.Utf8.encode (toString ((argument.toInt?).getD 0)).toList

/-- Directives with arguments in their places, and the arguments that are left. -/
def fillOnce : List Directive → List String → List UInt8 × List String
  | [], arguments => ([], arguments)
  | .byte b :: ds, arguments =>
    let (bytes, left) := fillOnce ds arguments
    (b :: bytes, left)
  | d :: ds, arguments =>
    let (bytes, left) := fillOnce ds arguments.tail
    (fillPlace d (arguments.head?.getD "") ++ bytes, left)

/-- Directives with arguments in their places, used at most `rounds` times more while arguments
are left. -/
def fillAll (ds : List Directive) : Nat → List String → List UInt8
  | 0, _ => []
  | rounds + 1, arguments =>
    let (bytes, left) := fillOnce ds arguments
    bytes ++ if left.isEmpty ∨ left.length = arguments.length then [] else fillAll ds rounds left

/-- Arguments written under a format. -/
def format (text : String) (arguments : List String) : List UInt8 :=
  fillAll (directivesFrom true .nothing text.toList) (arguments.length + 1) arguments

end TypeAssertions.Shell
