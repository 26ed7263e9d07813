/-!
# Shell commands

A script of the shell is a sequence of commands, each joined to the one before it: it runs in any
case, only if that one succeeded, or only if it failed.  A command is a list of words, a choice
among patterns, a conditional, a loop over words, a negation, or a group of commands; lists of words
and groups have redirections.  A word is made of segments, which are texts and parameters; inside
quotes a segment is neither cut at blanks nor taken for a pattern.
-/

namespace TypeAssertions.Shell

/-- A parameter of a script.  All arguments are several values, or joined into one. -/
inductive Parameter where
  | argument (n : Nat)
  | all
  | joined
  | count
  | status
  | process
  | variable (name : String)
  deriving DecidableEq, Repr

/-- A part of a word. -/
inductive Segment where
  | text (cs : List Char) (quoted : Bool)
  | parameter (p : Parameter) (quoted : Bool)
  deriving DecidableEq, Repr

/-- A word. -/
structure Word where
  segments : List Segment
  deriving DecidableEq, Repr

/-- The text of a word that has neither quotes nor parameters. -/
def Word.plain? (w : Word) : Option String :=
  match w.segments with
  | [.text cs false] => some (String.ofList cs)
  | _ => none

/-- A channel to which a command writes. -/
inductive Channel where
  | output
  | complaints
  deriving DecidableEq, Repr

/-- Where a redirection sends what is written. -/
inductive Target where
  | channel (c : Channel)
  | file (w : Word)
  deriving DecidableEq, Repr

/-- A redirection of a channel. -/
structure Redirection where
  source : Channel
  target : Target
  deriving DecidableEq, Repr

/-- When a command runs, by how the one before it ended. -/
inductive Joint where
  | always
  | onSuccess
  | onFailure
  deriving DecidableEq, Repr

mutual

/-- A command.  What a group that is apart does to the state of the script ends with it. -/
inductive Command where
  | simple (line : Nat) (words : List Word) (redirections : List Redirection)
  | choice (subject : Word) (branches : Branches)
  | conditional (conditions : Conditions)
  | loop (name : String) (values : List Word) (body : Script)
  | negation (command : Command)
  | group (apart : Bool) (body : Script) (redirections : List Redirection)

/-- Commands in their order, each with its joint to the one before it. -/
inductive Script where
  | done
  | step (joint : Joint) (command : Command) (rest : Script)

/-- The branches of a choice, each with its patterns. -/
inductive Branches where
  | done
  | step (patterns : List Word) (body : Script) (rest : Branches)

/-- The branches of a conditional, each with its condition, and what runs otherwise. -/
inductive Conditions where
  | otherwise (body : Script)
  | step (condition body : Script) (rest : Conditions)

end

/-- Why a text is not a script. -/
inductive Fault where
  | openQuote
  | unexpected (symbol : String)
  | unexpectedEnd
  deriving DecidableEq, Repr

/-- The wording of a fault. -/
def Fault.message : Fault → String
  | .openQuote => "Unterminated quoted string"
  | .unexpected symbol => s!"\"{symbol}\" unexpected"
  | .unexpectedEnd => "end of file unexpected"

end TypeAssertions.Shell
