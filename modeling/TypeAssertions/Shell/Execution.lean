import TypeAssertions.Checker.Process
import TypeAssertions.FileTree
import TypeAssertions.Shell.Format
import TypeAssertions.Shell.Script

/-!
# Running shell scripts

A script runs on a file tree, which it cannot change: what it writes to a file is lost.  A `Machine`
is the state of a running script.  Words are expanded into fields, of which the first one names a
utility; `utility?` has those that there are.  `launch` is the way to run a script as a program.
-/

namespace TypeAssertions.Shell

/-- Where what is written to the two channels goes; a channel without a destination is lost. -/
structure Routes where
  output : Option Channel := some .output
  complaints : Option Channel := some .complaints
  deriving DecidableEq, Repr

/-- The state of a script: its name, its arguments, what its variables are assigned, where its
channels go, whether a failure ends it, the status of the last command, what has been written, and
how it ended if it has. -/
structure Machine where
  tree : FileTree
  name : String
  arguments : List String
  assigned : OrderedMap String String := .empty
  routes : Routes := {}
  strict : Bool := false
  status : Nat := 0
  output : List UInt8 := []
  complaints : List UInt8 := []
  ended : Option ExitState := none

/-! ### Expansion of words -/

/-- A character of a word, with whether it was quoted, the border of a field, or a sign that there
is a field here, even if it is empty. -/
inductive Cell where
  | char (c : Char) (quoted : Bool)
  | border
  | mark
  deriving DecidableEq, Repr

/-- The number that stands for the process of the script. -/
def processNumber : Nat := 2

/-- The values of a parameter. -/
def Machine.valuesOf (m : Machine) : Parameter → List String
  | .argument 0 => [m.name]
  | .argument (n + 1) => [(m.arguments[n]?).getD ""]
  | .all => m.arguments
  | .joined => [String.intercalate " " m.arguments]
  | .count => [toString m.arguments.length]
  | .status => [toString m.status]
  | .process => [toString processNumber]
  | .variable name => [(m.assigned.get? name).getD ""]

/-- The characters of a text, all quoted or none. -/
def charCells (quoted : Bool) (cs : List Char) : List Cell := cs.map fun c => .char c quoted

/-- The characters of a value outside quotes, where blanks are borders. -/
def looseCells (cs : List Char) : List Cell :=
  cs.map fun c => if c = ' ' ∨ c = '\t' ∨ c = '\n' then .border else .char c false

/-- The cells of a segment. -/
def Machine.cells (m : Machine) : Segment → List Cell
  | .text cs quoted => (if quoted then [.mark] else []) ++ charCells quoted cs
  | .parameter p true =>
    ((m.valuesOf p).map fun s => .mark :: charCells true s.toList).intersperse [.border] |>.flatten
  | .parameter p false =>
    ((m.valuesOf p).map fun s => looseCells s.toList).intersperse [.border] |>.flatten

/-- The fields of cells, when a field may have begun. -/
def fieldsFrom (begun : Option (List Char)) : List Cell → List String
  | [] => (begun.map String.ofList).toList
  | .border :: rest => (begun.map String.ofList).toList ++ fieldsFrom none rest
  | .mark :: rest => fieldsFrom (some (begun.getD [])) rest
  | .char c _ :: rest => fieldsFrom (some (begun.getD [] ++ [c])) rest

/-- The fields of a word. -/
def Machine.fields (m : Machine) (w : Word) : List String :=
  fieldsFrom none (w.segments.flatMap m.cells)

/-- The characters of a word that is not cut into fields, each with whether it is quoted. -/
def Machine.characters (m : Machine) (w : Word) : List (Char × Bool) :=
  w.segments.flatMap fun
    | .text cs quoted => cs.map fun c => (c, quoted)
    | .parameter p quoted =>
      (String.intercalate " " (m.valuesOf p)).toList.map fun c => (c, quoted)

/-- Whether a pattern, of which unquoted stars and question marks are special, matches a text. -/
def matchesPattern : List (Char × Bool) → List Char → Bool
  | [], cs => cs.isEmpty
  | (c, quoted) :: ps, cs =>
    if !quoted && c = '*' then
      (List.range (cs.length + 1)).any fun n => matchesPattern ps (cs.drop n)
    else
      match cs with
      | [] => false
      | d :: rest => (c = d || (!quoted && c = '?')) && matchesPattern ps rest

/-! ### Utilities -/

/-- What a utility did. -/
structure Effect where
  status : Nat := 0
  output : List UInt8 := []
  complaints : List UInt8 := []
  ended : Option ExitState := none

/-- The bytes of a text. -/
def textBytes (s : String) : List UInt8 := Text.Utf8.encode s.toList

/-- The effect of a utility that complains. -/
def Effect.complaint (status : Nat) (text : String) : Effect :=
  { status, complaints := textBytes (text ++ "\n") }

/-- The effect of a test. -/
def Effect.ofBool (b : Bool) : Effect := { status := if b then 0 else 1 }

/-- Writing files one after the other. -/
def concatenate (t : FileTree) : List String → Effect
  | [] => {}
  | file :: rest =>
    let after := concatenate t rest
    match t.readBytes ⟨file⟩ with
    | .ok bytes => { after with output := bytes ++ after.output }
    | .error e =>
      let reason :=
        match e with
        | .isDirectory => "Is a directory"
        | .notDirectory => "Not a directory"
        | .notFound | .notText => "No such file or directory"
      { after with
        status := 1, complaints := textBytes s!"cat: {file}: {reason}\n" ++ after.complaints }

/-- The signal of a name or a number. -/
def signal? (s : String) : Option Nat :=
  match s.toNat? with
  | some n => some n
  | none =>
    let named := fun (entry : Nat × String) => entry.2 = s || entry.2 = "SIG" ++ s
    (ExitState.signalNames.find? named).map Prod.fst

/-- Sending a signal to a process. -/
def send (signal : Option Nat) (process : String) : Effect :=
  match signal with
  | none => .complaint 1 "kill: bad signal"
  | some n =>
    if process ≠ toString processNumber then .complaint 1 "kill: No such process"
    else if n = 0 then {}
    else { ended := some (.killed n) }

/-- Sending a signal as the arguments say. -/
def kill : List String → Effect
  | ["-s", name, process] => send (signal? name) process
  | [option, process] => send (signal? (String.ofList (option.toList.drop 1))) process
  | [process] => send (some 15) process
  | _ => .complaint 2 "kill: usage"

/-- Ending the script as the arguments say, on a line of which `place` is the name. -/
def exit (place : String) (status : Nat) : List String → Effect
  | [] => { status, ended := some (.exited status) }
  | s :: _ =>
    match s.toNat? with
    | some n => { status := n % 256, ended := some (.exited (n % 256)) }
    | none =>
      { Effect.complaint 2 s!"{place}: exit: Illegal number: {s}" with ended := some (.exited 2) }

/-- Whether the numbers that two texts write are related. -/
def compares (related : Int → Int → Bool) (a b : String) : Bool :=
  match a.toInt?, b.toInt? with
  | some m, some n => related m n
  | _, _ => false

/-- A test. -/
def test (t : FileTree) : List String → Bool
  | ["-f", p] => t.isFile ⟨p⟩
  | ["-d", p] => t.isDirectory ⟨p⟩
  | ["-e", p] | ["-r", p] => (t.entry? ⟨p⟩).isSome
  | ["-s", p] => (t.readBytes ⟨p⟩).toOption.any fun bytes => !bytes.isEmpty
  | ["-n", s] => s ≠ ""
  | ["-z", s] => s = ""
  | ["!", a, b] => !test t [a, b]
  | [a, "=", b] => a = b
  | [a, "!=", b] => a ≠ b
  | [a, "-eq", b] => compares (· = ·) a b
  | [a, "-ne", b] => compares (· ≠ ·) a b
  | [a, "-lt", b] => compares (· < ·) a b
  | [a, "-le", b] => compares (· ≤ ·) a b
  | [a, "-gt", b] => compares (· > ·) a b
  | [a, "-ge", b] => compares (· ≥ ·) a b
  | [s] => s ≠ ""
  | _ => false

/-- The effect of a utility with arguments in a state, if there is one of the name; `place` is the
name of the line on which it stands. -/
def utility? (m : Machine) (place name : String) (arguments : List String) : Option Effect :=
  match name with
  | ":" | "true" | "sleep" | "unset" => some {}
  | "false" => some { status := 1 }
  | "echo" =>
    match arguments with
    | "-n" :: rest => some { output := bytesOf (String.intercalate " " rest).toList }
    | all => some { output := bytesOf (String.intercalate " " all ++ "\n").toList }
  | "printf" =>
    match arguments with
    | [] => some (.complaint 2 "printf: usage: printf format [arg ...]")
    | f :: rest => some { output := format f rest }
  | "cat" => some (concatenate m.tree (arguments.filter (· ≠ "--")))
  | "pwd" => some { output := textBytes (m.tree.workingPath.spelling ++ "\n") }
  | "exit" | "return" => some (exit place m.status arguments)
  | "kill" => some (kill arguments)
  | "test" => some (.ofBool (test m.tree arguments))
  | "[" => some (.ofBool (test m.tree arguments.dropLast))
  | _ => none

/-! ### Commands -/

/-- The routes after a redirection. -/
def Routes.after (routes : Routes) (r : Redirection) : Routes :=
  let target :=
    match r.target with
    | .file _ => none
    | .channel .output => routes.output
    | .channel .complaints => routes.complaints
  match r.source with
  | .output => { routes with output := target }
  | .complaints => { routes with complaints := target }

/-- The state in which redirections are in force, made from left to right. -/
def Machine.redirect (m : Machine) (redirections : List Redirection) : Machine :=
  { m with routes := redirections.foldl Routes.after m.routes }

/-- The state after bytes are written where a route leads. -/
def Machine.write (m : Machine) (bytes : List UInt8) : Option Channel → Machine
  | some .output => { m with output := m.output ++ bytes }
  | some .complaints => { m with complaints := m.complaints ++ bytes }
  | none => m

/-- The state after an effect. -/
def Machine.apply (m : Machine) (e : Effect) : Machine :=
  let m := (m.write e.output m.routes.output).write e.complaints m.routes.complaints
  { m with status := e.status, ended := e.ended }

/-- The state with a variable assigned. -/
def Machine.assign (m : Machine) (name value : String) : Machine :=
  { m with assigned := m.assigned.insert name value }

/-- The state in which a group that is apart leaves the script: its end is no end of the script,
unless it was killed. -/
def Machine.leave (outer inner : Machine) : Machine :=
  let outer := { outer with output := inner.output, complaints := inner.complaints }
  match inner.ended with
  | some (.exited n) => { outer with status := n }
  | some (.killed n) => { outer with status := inner.status, ended := some (.killed n) }
  | none => { outer with status := inner.status }

/-- The name and the value that a word assigns. -/
def Machine.assignment? (m : Machine) (w : Word) : Option (String × String) :=
  let written := m.characters w
  let name := (written.takeWhile fun c => !c.2 && (c.1.isAlphanum || c.1 = '_')).map Prod.fst
  match written.drop name.length with
  | ('=', false) :: value =>
    if name.any fun c => !c.isDigit then
      some (String.ofList name, String.ofList (value.map Prod.fst))
    else none
  | _ => none

/-- The state after the assignments that words begin with, and the words after them. -/
def Machine.assignAll (m : Machine) : List Word → Machine × List Word
  | [] => (m, [])
  | w :: ws =>
    match m.assignment? w with
    | some (name, value) => (m.assign name value).assignAll ws
    | none => (m, w :: ws)

/-- The state after the utility that fields name, which ends the script if it takes its place. -/
def Machine.runUtility (m : Machine) (line : Nat) : List String → Machine
  | [] => { m with status := 0 }
  | "exec" :: name :: arguments =>
    let m := m.runUtility line (name :: arguments)
    { m with ended := some (m.ended.getD (.exited m.status)) }
  | "shift" :: _ => { m with arguments := m.arguments.drop 1, status := 0 }
  | "set" :: "--" :: arguments => { m with arguments, status := 0 }
  | "set" :: option :: _ => { m with strict := m.strict || 'e' ∈ option.toList, status := 0 }
  | name :: arguments =>
    let place := s!"{m.name}: {line}"
    m.apply
      ((utility? m place name arguments).getD (.complaint 127 s!"{place}: {name}: not found"))

/-- The state after a simple command.  Assignments before a utility hold for it alone. -/
def Machine.runSimple (m : Machine) (line : Nat) (words : List Word)
    (redirections : List Redirection) : Machine :=
  let (assigned, words) := m.assignAll words
  match words.flatMap m.fields with
  | [] => { assigned with status := 0 }
  | ["exec"] => { m.redirect redirections with status := 0 }
  | fields => { (m.redirect redirections).runUtility line fields with routes := m.routes }

/-- Whether the status after a command ends the script: it is a failure that nothing looks at. -/
def Machine.failsAt (m : Machine) (c : Command) (rest : Script) : Bool :=
  let looked :=
    match c, rest with
    | .negation _, _ | _, .step .onSuccess _ _ | _, .step .onFailure _ _ => true
    | _, _ => false
  m.strict && m.ended.isNone && m.status ≠ 0 && !looked

/-- Whether a command runs after one with a status. -/
def Joint.allows : Joint → Nat → Bool
  | .always, _ => true
  | .onSuccess, status => status = 0
  | .onFailure, status => status ≠ 0

mutual

/-- The state after a command. -/
def runCommand (m : Machine) : Command → Machine
  | .simple line words redirections => m.runSimple line words redirections
  | .choice subject branches =>
    runBranches { m with status := 0 } ((m.characters subject).map Prod.fst) branches
  | .conditional conditions => runConditions m conditions
  | .loop name values body =>
    (values.flatMap m.fields).foldl
      (fun m value => if m.ended.isSome then m else runScript (m.assign name value) body)
      { m with status := 0 }
  | .negation c =>
    let m := runCommand m c
    { m with status := if m.status = 0 then 1 else 0 }
  | .group false body redirections =>
    { runScript (m.redirect redirections) body with routes := m.routes }
  | .group true body redirections => m.leave (runScript (m.redirect redirections) body)

/-- The state after a script. -/
def runScript (m : Machine) : Script → Machine
  | .done => m
  | .step joint c rest =>
    if m.ended.isSome then m
    else if joint.allows m.status then
      let m := runCommand m c
      runScript (if m.failsAt c rest then { m with ended := some (.exited m.status) } else m) rest
    else runScript m rest

/-- The state after the first branch with a pattern that matches a text. -/
def runBranches (m : Machine) (subject : List Char) : Branches → Machine
  | .done => m
  | .step patterns body rest =>
    if patterns.any fun w => matchesPattern (m.characters w) subject then runScript m body
    else runBranches m subject rest

/-- The state after the first branch whose condition succeeds, or after what runs otherwise. -/
def runConditions (m : Machine) : Conditions → Machine
  | .otherwise body => runScript { m with status := 0 } body
  | .step condition body rest =>
    let tried := { runScript { m with strict := false } condition with strict := m.strict }
    if tried.ended.isSome then tried
    else if tried.status = 0 then runScript tried body
    else runConditions tried rest

end

/-! ### Programs -/

/-- What is left of a script that has come to its end. -/
def Machine.execution (m : Machine) : Execution :=
  ⟨m.ended.getD (.exited m.status), m.output, m.complaints⟩

/-- Running the script that a text writes. -/
def runText (t : FileTree) (name : String) (arguments : List String) (text : List Char) :
    Execution :=
  match Script.ofText text with
  | .error (fault, line) =>
    ⟨.exited 2, [], textBytes s!"{name}: {line}: Syntax error: {fault.message}\n"⟩
  | .ok script => (runScript { tree := t, name, arguments } script).execution

/-- Running the script of a file. -/
def runFile (t : FileTree) (name : String) (arguments : List String) : Execution :=
  match t.readBytes ⟨name⟩ with
  | .error _ => ⟨.exited 2, [], textBytes s!"sh: 0: cannot open {name}: No such file\n"⟩
  | .ok bytes => runText t name arguments (Text.Utf8.decodeLossy bytes)

/-- The names of the shell. -/
def programNames : List String := ["sh", "/bin/sh", "/usr/bin/sh"]

/-- Why a program other than the shell cannot be run on a file tree. -/
def launchError (t : FileTree) (program : String) : LaunchError :=
  if program.toList.contains '/' then
    match t.locate ⟨program⟩ with
    | .ok _ => .notPermitted
    | .error .notDirectory => .notDirectory
    | .error _ => .notFound
  else .notFound

/-- The way to run scripts on a file tree.  There is no other program than the shell. -/
def launch (t : FileTree) : Launcher := fun program arguments =>
  if program ∈ programNames then
    match arguments with
    | "-c" :: script :: rest => .ok (runText t (rest.head?.getD program) rest.tail script.toList)
    | script :: rest => .ok (runFile t script rest)
    | [] => .ok ⟨.exited 0, [], []⟩
  else .error (launchError t program)

end TypeAssertions.Shell
