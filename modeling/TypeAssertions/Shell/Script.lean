import TypeAssertions.Shell.Token

/-!
# Shell scripts

`Script.ofText` reads a script.  The functions that read commands take as fuel a number that is
large enough for the number of tokens: between two tokens that they pass they spend at most three.
-/

namespace TypeAssertions.Shell

/-- The fault of finding a token where it cannot stand. -/
def misplaced : List Token → Fault × Nat
  | [] => (.unexpectedEnd, 0)
  | .operator "\n" line :: _ => (.unexpected "newline", line)
  | .operator symbol line :: _ => (.unexpected symbol, line)
  | .arrow _ _ line :: _ => (.unexpected ">", line)
  | .word w line :: _ => (.unexpected (w.plain?.getD "word"), line)

/-- The tokens after line ends. -/
def dropLineEnds : List Token → List Token
  | .operator "\n" _ :: rest => dropLineEnds rest
  | rest => rest

/-- Whether a token is a word of the language. -/
def isReserved (s : String) : Token → Bool
  | .word w _ => w.plain? = some s
  | .operator _ _ | .arrow _ _ _ => false

/-- The words that end a list of commands. -/
def closers : List String := ["esac", "fi", "then", "elif", "else", "do", "done", "\x7d"]

/-- Whether tokens go on with something that ends a list of commands. -/
def atEnd : List Token → Bool
  | [] => true
  | .operator symbol _ :: _ => symbol = ";;" || symbol = ")"
  | .arrow _ _ _ :: _ => false
  | .word w _ :: _ => closers.any fun s => w.plain? = some s

/-- The channel of a number. -/
def channel? (s : String) : Option Channel :=
  if s = "1" then some .output else if s = "2" then some .complaints else none

/-- The words, where there may be some, and the redirections from here on, and the tokens after
them. -/
def simpleFrom (withWords : Bool) (words : List Word) (redirections : List Redirection) :
    List Token → Except (Fault × Nat) (List Word × List Redirection × List Token)
  | .arrow source true line :: .word w _ :: rest =>
    match w.plain?.bind channel? with
    | some target => simpleFrom withWords words (redirections ++ [⟨source, .channel target⟩]) rest
    | none => .error (.unexpected ">&", line)
  | .arrow source false _ :: .word w _ :: rest =>
    simpleFrom withWords words (redirections ++ [⟨source, .file w⟩]) rest
  | .word w line :: rest =>
    if withWords then simpleFrom withWords (words ++ [w]) redirections rest
    else .ok (words, redirections, .word w line :: rest)
  | rest => .ok (words, redirections, rest)

/-- The words up to the end of a line, and the tokens after it. -/
def wordsFrom (words : List Word) : List Token → Except (Fault × Nat) (List Word × List Token)
  | .word w _ :: rest => wordsFrom (words ++ [w]) rest
  | .operator ";" _ :: rest | .operator "\n" _ :: rest => .ok (words, rest)
  | rest => .error (misplaced rest)

/-- What a loop goes over, and the tokens after it: the words that are given, or else all
arguments. -/
def valuesFrom (tokens : List Token) : Except (Fault × Nat) (List Word × List Token) :=
  match dropLineEnds tokens with
  | .operator ";" _ :: rest => .ok ([⟨[.parameter .all true]⟩], rest)
  | t :: rest =>
    if isReserved "in" t then wordsFrom [] rest
    else .ok ([⟨[.parameter .all true]⟩], t :: rest)
  | [] => .error (misplaced [])

/-- A compound command with the redirections after it. -/
def redirected (c : Command) (tokens : List Token) :
    Except (Fault × Nat) (Command × List Token) := do
  let (_, redirections, rest) ← simpleFrom false [] [] tokens
  if redirections.isEmpty then return (c, rest)
  else return (.group false (.step .always c .done) redirections, rest)

/-- The patterns of a branch up to the parenthesis that closes them, and the tokens after it. -/
def patternsFrom (patterns : List Word) :
    List Token → Except (Fault × Nat) (List Word × List Token)
  | .word w _ :: .operator "|" _ :: rest => patternsFrom (patterns ++ [w]) rest
  | .word w _ :: .operator ")" _ :: rest => .ok (patterns ++ [w], rest)
  | .operator "(" _ :: rest => patternsFrom patterns rest
  | rest => .error (misplaced rest)

/-- The tokens after a word of the language. -/
def expectReserved (s : String) (tokens : List Token) : Except (Fault × Nat) (List Token) :=
  match dropLineEnds tokens with
  | t :: rest => if isReserved s t then .ok rest else .error (misplaced (t :: rest))
  | [] => .error (misplaced [])

mutual

/-- The commands up to a closing token, of which the first is joined as given, and the tokens from
there on. -/
def commands (fuel : Nat) (joint : Joint) (tokens : List Token) :
    Except (Fault × Nat) (Script × List Token) :=
  match fuel with
  | 0 => .error (.unexpectedEnd, 0)
  | fuel + 1 =>
    let tokens := dropLineEnds tokens
    if atEnd tokens then
      if joint = .always then .ok (.done, tokens) else .error (misplaced tokens)
    else do
      let (first, rest) ← command fuel tokens
      match rest with
      | .operator "&&" _ :: rest =>
        let (more, rest) ← commands fuel .onSuccess rest
        return (.step joint first more, rest)
      | .operator "||" _ :: rest =>
        let (more, rest) ← commands fuel .onFailure rest
        return (.step joint first more, rest)
      | .operator ";" _ :: rest | .operator "\n" _ :: rest =>
        let (more, rest) ← commands fuel .always rest
        return (.step joint first more, rest)
      | rest =>
        if atEnd rest then return (.step joint first .done, rest) else throw (misplaced rest)

/-- The commands up to a closing token, of which there is at least one, and the tokens from there
on. -/
def body (fuel : Nat) (tokens : List Token) : Except (Fault × Nat) (Script × List Token) :=
  match fuel with
  | 0 => .error (.unexpectedEnd, 0)
  | fuel + 1 => do
    match ← commands fuel .always tokens with
    | (.done, rest) => throw (misplaced rest)
    | found => return found

/-- A command and the tokens after it. -/
def command (fuel : Nat) (tokens : List Token) :
    Except (Fault × Nat) (Command × List Token) :=
  match fuel with
  | 0 => .error (.unexpectedEnd, 0)
  | fuel + 1 =>
    match tokens with
    | [] => .error (misplaced [])
    | .operator "(" _ :: rest => do
      match ← body fuel rest with
      | (inner, .operator ")" _ :: rest) => redirected (.group true inner []) rest
      | (_, rest) => throw (misplaced rest)
    | t :: rest =>
      if isReserved "case" t then
        match rest with
        | .word subject _ :: rest => do
          let (found, rest) ← branches fuel (← expectReserved "in" rest)
          redirected (.choice subject found) rest
        | rest => .error (misplaced rest)
      else if isReserved "if" t then do
        let (condition, rest) ← body fuel rest
        let (chosen, rest) ← body fuel (← expectReserved "then" rest)
        let (more, rest) ← conditions fuel rest
        redirected (.conditional (.step condition chosen more)) rest
      else if isReserved "for" t then
        match rest with
        | .word w _ :: rest => do
          let (values, rest) ← valuesFrom rest
          let (inner, rest) ← body fuel (← expectReserved "do" rest)
          redirected (.loop (w.plain?.getD "") values inner) (← expectReserved "done" rest)
        | rest => .error (misplaced rest)
      else if isReserved "\x7b" t then do
        let (inner, rest) ← body fuel rest
        redirected (.group false inner []) (← expectReserved "\x7d" rest)
      else if isReserved "!" t then do
        let (c, rest) ← command fuel rest
        return (.negation c, rest)
      else do
        let (words, redirections, after) ← simpleFrom true [] [] (t :: rest)
        if words.isEmpty ∧ redirections.isEmpty then throw (misplaced (t :: rest))
        return (.simple t.line words redirections, after)

/-- The branches of a choice and the tokens after them. -/
def branches (fuel : Nat) (tokens : List Token) :
    Except (Fault × Nat) (Branches × List Token) :=
  match fuel with
  | 0 => .error (.unexpectedEnd, 0)
  | fuel + 1 =>
    match dropLineEnds tokens with
    | [] => .error (misplaced [])
    | t :: rest =>
      if isReserved "esac" t then .ok (.done, rest)
      else do
        let (patterns, rest) ← patternsFrom [] (t :: rest)
        let (chosen, rest) ← commands fuel .always rest
        match dropLineEnds rest with
        | .operator ";;" _ :: rest =>
          let (more, rest) ← branches fuel rest
          return (.step patterns chosen more, rest)
        | rest => return (.step patterns chosen .done, ← expectReserved "esac" rest)

/-- The further branches of a conditional and the tokens after them. -/
def conditions (fuel : Nat) (tokens : List Token) :
    Except (Fault × Nat) (Conditions × List Token) :=
  match fuel with
  | 0 => .error (.unexpectedEnd, 0)
  | fuel + 1 =>
    match dropLineEnds tokens with
    | [] => .error (misplaced [])
    | t :: rest =>
      if isReserved "elif" t then do
        let (condition, rest) ← body fuel rest
        let (chosen, rest) ← body fuel (← expectReserved "then" rest)
        let (more, rest) ← conditions fuel rest
        return (.step condition chosen more, rest)
      else if isReserved "else" t then do
        let (chosen, rest) ← body fuel rest
        return (.otherwise chosen, ← expectReserved "fi" rest)
      else return (.otherwise .done, ← expectReserved "fi" (t :: rest))

end

/-- A fault with its line.  The end of a text is in its last line. -/
def locate (text : List Char) : Fault × Nat → Fault × Nat
  | (.unexpectedEnd, _) => (.unexpectedEnd, text.count '\n' + 1)
  | other => other

/-- The script that tokens write. -/
def Script.ofTokens (found : List Token) : Except (Fault × Nat) Script := do
  match ← commands (3 * found.length + 3) .always found with
  | (script, []) => return script
  | (_, rest) => throw (misplaced rest)

/-- The script that a text writes, or its fault and the line of it. -/
def Script.ofText (text : List Char) : Except (Fault × Nat) Script :=
  ((tokens text).bind Script.ofTokens).mapError (locate text)

end TypeAssertions.Shell
