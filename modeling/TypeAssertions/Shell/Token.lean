import TypeAssertions.Shell.Command

/-!
# Tokens of shell scripts

A token is a word, an operator or the arrow of a redirection, with the number of its line.  The
characters of a script are read one after the other; a `Reading` is the tokens that are complete
and what has been read of the next one.
-/

namespace TypeAssertions.Shell

/-- A word, an operator, or the arrow of a redirection, which points to a channel or to a file. -/
inductive Token where
  | word (w : Word) (line : Nat)
  | operator (symbol : String) (line : Nat)
  | arrow (source : Channel) (toChannel : Bool) (line : Nat)
  deriving DecidableEq, Repr

/-- The line of a token. -/
def Token.line : Token → Nat
  | .word _ line | .operator _ line | .arrow _ _ line => line

/-- The quotes around a character. -/
inductive Quote where
  | none
  | single
  | double
  deriving DecidableEq, Repr

/-- What is incomplete before a character. -/
inductive Pending where
  | nothing
  | escape
  | dollar
  | named (letters : List Char)
  | braced (letters : List Char)
  | operator (c : Char)
  | arrow (source : Channel)
  | comment
  deriving DecidableEq, Repr

/-- The tokens of a script up to a place, and what is incomplete there. -/
structure Reading where
  tokens : List Token := []
  word : Option (List Segment) := none
  quote : Quote := .none
  pending : Pending := .nothing
  line : Nat := 1
  deriving DecidableEq, Repr

namespace Reading

/-- The reading with one more segment of the word begun. -/
def addSegment (r : Reading) (s : Segment) : Reading :=
  match (r.word.getD []).getLast?, s with
  | some (.text before quoted), .text cs same =>
    if quoted = same then
      { r with word := some ((r.word.getD []).dropLast ++ [.text (before ++ cs) quoted]) }
    else { r with word := some (r.word.getD [] ++ [s]) }
  | _, _ => { r with word := some (r.word.getD [] ++ [s]) }

/-- The reading with one more character of the word begun. -/
def addChar (r : Reading) (c : Char) : Reading := r.addSegment (.text [c] (r.quote ≠ .none))

/-- The reading with a parameter in the word begun. -/
def addParameter (r : Reading) (p : Parameter) : Reading :=
  r.addSegment (.parameter p (r.quote ≠ .none))

/-- The reading when the word begun is complete. -/
def endWord (r : Reading) : Reading :=
  match r.word with
  | some segments => { r with tokens := r.tokens ++ [.word ⟨segments⟩ r.line], word := none }
  | none => r

/-- The reading with an operator. -/
def addOperator (r : Reading) (symbol : String) : Reading :=
  { r with tokens := r.tokens ++ [.operator symbol r.line], pending := .nothing }

/-- The operators of two characters. -/
def doubleOperators : List String := ["&&", "||", ";;"]

/-- The characters that an operator starts with. -/
def operatorChars : List Char := ['&', '|', ';', '<', '(', ')']

/-- The reading with an arrow. -/
def addArrow (r : Reading) (source : Channel) (toChannel : Bool) : Reading :=
  { r with tokens := r.tokens ++ [.arrow source toChannel r.line], pending := .nothing }

/-- The reading after the sign of an arrow.  A channel number right before it is part of it. -/
def beginArrow (r : Reading) : Reading :=
  if r.word = some [.text ['1'] false] then { r with word := none, pending := .arrow .output }
  else if r.word = some [.text ['2'] false] then
    { r with word := none, pending := .arrow .complaints }
  else { r.endWord with pending := .arrow .output }

/-- The parameter that a single character names. -/
def special? (c : Char) : Option Parameter :=
  if c = '@' then some .all
  else if c = '*' then some .joined
  else if c = '#' then some .count
  else if c = '?' then some .status
  else if c = '$' then some .process
  else if c.isDigit then some (.argument (c.toNat - '0'.toNat))
  else none

/-- The parameter that letters between braces name. -/
def named (letters : List Char) : Parameter :=
  match letters with
  | [c] => (special? c).getD (.variable (String.ofList letters))
  | _ =>
    match (String.ofList letters).toNat? with
    | some n => .argument n
    | none => .variable (String.ofList letters)

/-- The reading after a character when nothing is pending. -/
def plain (r : Reading) (c : Char) : Reading :=
  match r.quote with
  | .single =>
    if c = '\'' then { r with quote := .none } else r.addChar c
  | .double =>
    if c = '"' then { r with quote := .none }
    else if c = '\\' then { r with pending := .escape }
    else if c = '$' then { r with pending := .dollar }
    else r.addChar c
  | .none =>
    if c = '\'' then { r.addSegment (.text [] true) with quote := .single }
    else if c = '"' then { r.addSegment (.text [] true) with quote := .double }
    else if c = '\\' then { r with pending := .escape }
    else if c = '$' then { r with pending := .dollar }
    else if c = '#' ∧ r.word = none then { r with pending := .comment }
    else if c = ' ' ∨ c = '\t' then r.endWord
    else if c = '\n' then
      let r := r.endWord.addOperator "\n"
      { r with line := r.line + 1 }
    else if c = '>' then r.beginArrow
    else if c ∈ operatorChars then { r.endWord with pending := .operator c }
    else r.addChar c

/-- The reading when what is pending turns out to be complete without a further character. -/
def settle (r : Reading) : Reading :=
  match r.pending with
  | .escape => { r.addChar '\\' with pending := .nothing }
  | .dollar => { r.addChar '$' with pending := .nothing }
  | .named letters =>
    { r.addParameter (.variable (String.ofList letters)) with pending := .nothing }
  | .operator c => r.addOperator (String.singleton c)
  | .arrow source => r.addArrow source false
  | .nothing | .braced _ | .comment => { r with pending := .nothing }

/-- The characters that a backslash protects between double quotes. -/
def protectable : List Char := ['$', '"', '\\', Char.ofNat 96]

/-- The reading after a character. -/
def step (r : Reading) (c : Char) : Reading :=
  match r.pending with
  | .nothing => r.plain c
  | .escape =>
    let r := { r with pending := .nothing }
    if c = '\n' then { r with line := r.line + 1 }
    else if r.quote = .double then
      if c ∈ protectable then r.addChar c else (r.addChar '\\').addChar c
    else r.addSegment (.text [c] true)
  | .dollar =>
    match special? c with
    | some p => { r.addParameter p with pending := .nothing }
    | none =>
      if c = '\x7b' then { r with pending := .braced [] }
      else if c.isAlpha ∨ c = '_' then { r with pending := .named [c] }
      else r.settle.plain c
  | .named letters =>
    if c.isAlphanum ∨ c = '_' then { r with pending := .named (letters ++ [c]) }
    else r.settle.plain c
  | .braced letters =>
    if c = '\x7d' then { r.addParameter (named letters) with pending := .nothing }
    else { r with pending := .braced (letters ++ [c]) }
  | .operator d =>
    let symbol := String.ofList [d, c]
    if symbol ∈ doubleOperators then r.addOperator symbol else r.settle.plain c
  | .arrow source =>
    if c = '&' then r.addArrow source true
    else if c = '>' then r.addArrow source false
    else r.settle.plain c
  | .comment => if c = '\n' then r.settle.plain c else r

end Reading

/-- The tokens of a script, or its fault and the line of it. -/
def tokens (text : List Char) : Except (Fault × Nat) (List Token) :=
  let r := text.foldl Reading.step {}
  match r.quote, r.pending with
  | .none, .braced _ => .error (.unexpectedEnd, r.line)
  | .none, _ => .ok r.settle.endWord.tokens
  | _, _ => .error (.openQuote, r.line)

end TypeAssertions.Shell
