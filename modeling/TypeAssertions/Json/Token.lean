import TypeAssertions.Json.Numeral
import TypeAssertions.Text.Offset

/-!
# Tokens of JSON texts

`tokens` cuts a text into literals and marks.  A literal carries two readings, because a reader
that wants its value and a reader that passes over it do not reject the same spellings: a number
out of range and an unpaired surrogate do no harm to the second.  Both readings end at the same
place whenever the first succeeds.  A literal that cannot be passed over is the last token.
-/

namespace TypeAssertions.Json

/-- The value of a literal. -/
inductive Scalar where
  | null
  | bool (b : Bool)
  | number (n : Number)
  | string (s : String)
  deriving DecidableEq, Repr

/-- A literal with the bytes before it and up to its end, and its two readings. -/
structure Literal where
  start : Nat
  stop : Nat
  quoted : Bool
  read : Except Failure Scalar
  skip : Except Failure Unit

/-- A literal, or a character that is no part of one, with the bytes before it. -/
inductive Token where
  | literal (l : Literal)
  | mark (c : Char) (start : Nat)

/-- The number of bytes before a token. -/
def Token.start : Token → Nat
  | .literal l => l.start
  | .mark _ start => start

/-! ### Strings -/

/-- The value of a hexadecimal digit. -/
def hexDigit? (c : Char) : Option Nat :=
  if c.isDigit then some (c.toNat - '0'.toNat)
  else if 'a' ≤ c ∧ c ≤ 'f' then some (c.toNat - 'a'.toNat + 10)
  else if 'A' ≤ c ∧ c ≤ 'F' then some (c.toNat - 'A'.toNat + 10)
  else none

/-- The value of four hexadecimal digits. -/
def hex4? (a b c d : Char) : Option Nat := do
  return (((← hexDigit? a) * 16 + (← hexDigit? b)) * 16 + (← hexDigit? c)) * 16 + (← hexDigit? d)

/-- The failure of a text at byte `offset` that does not start with four hexadecimal digits. -/
def hexFailure (offset : Nat) (cs : List Char) : Failure :=
  let length := Text.byteLength cs
  if length < 4 then ⟨.endInString, offset + length⟩ else ⟨.invalidEscape, offset + 4⟩

/-- The character that a letter after a backslash stands for. -/
def escaped? : Char → Option Char
  | '"' => some '"'
  | '\\' => some '\\'
  | '/' => some '/'
  | 'b' => some '\x08'
  | 'f' => some '\x0c'
  | 'n' => some '\n'
  | 'r' => some '\r'
  | 't' => some '\t'
  | _ => none

/-- Whether a 16-bit unit is the first half of a pair. -/
def isLead (n : Nat) : Bool := 0xD800 ≤ n && n ≤ 0xDBFF

/-- Whether a 16-bit unit is the second half of a pair. -/
def isTrail (n : Nat) : Bool := 0xDC00 ≤ n && n ≤ 0xDFFF

/-- The character of a pair of 16-bit units. -/
def pairChar (lead trail : Nat) : Char :=
  Char.ofNat ((lead - 0xD800) * 0x400 + (trail - 0xDC00) + 0x10000)

/-- The characters of a string up to its closing quote; the text after the opening quote starts
at byte `offset`. -/
def readString (offset : Nat) : List Char → Except Failure (List Char)
  | [] => .error ⟨.endInString, offset⟩
  | '"' :: _ => .ok []
  | '\\' :: 'u' :: a :: b :: c :: d :: cs =>
    match hex4? a b c d with
    | none => .error (hexFailure (offset + 2) (a :: b :: c :: d :: cs))
    | some n =>
      if isTrail n then .error ⟨.loneSurrogate, offset + 6⟩
      else if isLead n then
        match cs with
        | [] => .error ⟨.endInString, offset + 6⟩
        | ['\\'] => .error ⟨.endInString, offset + 7⟩
        | '\\' :: 'u' :: e :: f :: g :: h :: rest =>
          match hex4? e f g h with
          | none => .error (hexFailure (offset + 8) (e :: f :: g :: h :: rest))
          | some m =>
            if isTrail m then (readString (offset + 12) rest).map (pairChar n m :: ·)
            else .error ⟨.loneSurrogate, offset + 12⟩
        | '\\' :: 'u' :: rest => .error (hexFailure (offset + 8) rest)
        | '\\' :: _ => .error ⟨.endOfHexEscape, offset + 8⟩
        | _ => .error ⟨.endOfHexEscape, offset + 7⟩
      else (readString (offset + 6) cs).map (Char.ofNat n :: ·)
  | '\\' :: 'u' :: cs => .error (hexFailure (offset + 2) cs)
  | ['\\'] => .error ⟨.endInString, offset + 1⟩
  | '\\' :: e :: cs =>
    match escaped? e with
    | some c => (readString (offset + 2) cs).map (c :: ·)
    | none => .error ⟨.invalidEscape, offset + 2⟩
  | c :: cs =>
    if c.toNat < 0x20 then .error ⟨.controlCharacter, offset + 1⟩
    else (readString (offset + c.utf8Size) cs).map (c :: ·)

/-! ### The scanner -/

/-- How far a string that is passed over has been read: `hex n` has `n` digits to come, which
have been looked at. -/
inductive StringPhase where
  | plain
  | escape
  | hex (n : Nat)

/-- What the scanner is in the middle of.  A word carries its value and its letters to come, a
number and a string the reading of their value. -/
inductive Scan where
  | between
  | word (start : Nat) (value : Scalar) (letters : List Char)
  | number (start : Nat) (read : Except Failure Number) (phase : NumberPhase)
  | string (start : Nat) (read : Except Failure (List Char)) (phase : StringPhase)
  | halted

/-- The token of a word. -/
def wordToken (start stop : Nat) (outcome : Except Failure Scalar) : Token :=
  .literal ⟨start, stop, false, outcome, outcome.map fun _ => ()⟩

/-- The token of a number. -/
def numberToken (start stop : Nat) (read : Except Failure Number) (skip : Except Failure Unit) :
    Token :=
  .literal ⟨start, stop, false, read.map .number, skip⟩

/-- The token of a string. -/
def stringToken (start stop : Nat) (read : Except Failure (List Char))
    (skip : Except Failure Unit) : Token :=
  .literal ⟨start, stop, true, read.map (.string <| String.ofList ·), skip⟩

/-- Whether a character may stand between tokens. -/
def isSpace (c : Char) : Bool := c = ' ' || c = '\n' || c = '\t' || c = '\r'

/-- The token that `c` is, or the literal that it begins; `cs` follows it. -/
def Scan.begin (offset : Nat) (c : Char) (cs : List Char) : List Token × Scan :=
  if isSpace c then ([], .between)
  else if c = '"' then ([], .string offset (readString (offset + 1) cs) .plain)
  else if c = '-' then ([], .number offset (readNumber offset (c :: cs)) .sign)
  else if c = '0' then ([], .number offset (readNumber offset (c :: cs)) .zero)
  else if c.isDigit then ([], .number offset (readNumber offset (c :: cs)) .whole)
  else if c = 'n' then ([], .word offset .null ['u', 'l', 'l'])
  else if c = 't' then ([], .word offset (.bool true) ['r', 'u', 'e'])
  else if c = 'f' then ([], .word offset (.bool false) ['a', 'l', 's', 'e'])
  else ([.mark c offset], .between)

/-- The tokens that end at `c`, and what the scanner is in the middle of after it. -/
def Scan.step (offset : Nat) (c : Char) (cs : List Char) : Scan → List Token × Scan
  | .between => Scan.begin offset c cs
  | .halted => ([], .halted)
  | .word start value letters =>
    match letters with
    | [] => ([], .halted)
    | l :: letters =>
      if c ≠ l then
        ([wordToken start offset (.error ⟨.expectedIdent, offset + 1⟩)], .halted)
      else if letters.isEmpty then ([wordToken start (offset + 1) (.ok value)], .between)
      else ([], .word start value letters)
  | .number start read phase =>
    match phase.step c with
    | .next phase => ([], .number start read phase)
    | .broken => ([numberToken start offset read (.error ⟨.invalidNumber, offset + 1⟩)], .halted)
    | .ended =>
      let (tokens, scan) := Scan.begin offset c cs
      (numberToken start offset read (.ok ()) :: tokens, scan)
  | .string start read phase =>
    match phase with
    | .hex n => ([], .string start read (if n ≤ 1 then .plain else .hex (n - 1)))
    | .escape =>
      if c = 'u' then
        match cs with
        | a :: b :: d :: e :: _ =>
          if (hex4? a b d e).isSome then ([], .string start read (.hex 4))
          else ([stringToken start offset read (.error (hexFailure (offset + 1) cs))], .halted)
        | _ => ([stringToken start offset read (.error (hexFailure (offset + 1) cs))], .halted)
      else if (escaped? c).isSome then ([], .string start read .plain)
      else ([stringToken start offset read (.error ⟨.invalidEscape, offset + 1⟩)], .halted)
    | .plain =>
      if c = '"' then ([stringToken start (offset + 1) read (.ok ())], .between)
      else if c = '\\' then ([], .string start read .escape)
      else if c.toNat < 0x20 then
        ([stringToken start offset read (.error ⟨.controlCharacter, offset⟩)], .halted)
      else ([], .string start read .plain)

/-- The token that the end of the text, at byte `size`, cuts off. -/
def Scan.finish (size : Nat) : Scan → List Token
  | .between | .halted => []
  | .word start _ _ => [wordToken start size (.error ⟨.endInValue, size⟩)]
  | .number start read phase =>
    [numberToken start size read
      (if phase.complete then .ok () else .error ⟨.invalidNumber, size⟩)]
  | .string start read _ => [stringToken start size read (.error ⟨.endInString, size⟩)]

/-- The tokens of a text at byte `offset` that follows what the scanner is in the middle of. -/
def tokensFrom (offset : Nat) (scan : Scan) : List Char → List Token
  | [] => scan.finish offset
  | c :: cs =>
    let (ended, next) := scan.step offset c cs
    ended ++ tokensFrom (offset + c.utf8Size) next cs

/-- The tokens of a text. -/
def tokens (text : List Char) : List Token :=
  tokensFrom 0 .between text

end TypeAssertions.Json
