import TypeAssertions.Text.Blank
import TypeAssertions.Text.Utf8

/-!
# Processes

An `Execution` is what is left of a process that has ended: how it ended and what it wrote.  Its
`result` is its output as a text, unless it failed or wrote anything else.  A `Launcher` runs a
program with arguments, or says why the program cannot be run.
-/

namespace TypeAssertions

/-- How a process ended. -/
inductive ExitState where
  | exited (code : Nat)
  | killed (signal : Nat)
  deriving DecidableEq, Repr

namespace ExitState

/-- The names of signals. -/
def signalNames : List (Nat × String) :=
  [(1, "SIGHUP"), (2, "SIGINT"), (3, "SIGQUIT"), (4, "SIGILL"), (5, "SIGTRAP"), (6, "SIGABRT"),
    (7, "SIGBUS"), (8, "SIGFPE"), (9, "SIGKILL"), (10, "SIGUSR1"), (11, "SIGSEGV"),
    (12, "SIGUSR2"), (13, "SIGPIPE"), (14, "SIGALRM"), (15, "SIGTERM"), (16, "SIGSTKFLT"),
    (17, "SIGCHLD"), (18, "SIGCONT"), (19, "SIGSTOP"), (20, "SIGTSTP"), (21, "SIGTTIN"),
    (22, "SIGTTOU"), (23, "SIGURG"), (24, "SIGXCPU"), (25, "SIGXFSZ"), (26, "SIGVTALRM"),
    (27, "SIGPROF"), (28, "SIGWINCH"), (29, "SIGIO"), (30, "SIGPWR"), (31, "SIGSYS")]

/-- The wording of how a process ended. -/
def text : ExitState → String
  | .exited code => s!"exit status: {code}"
  | .killed signal =>
    match signalNames.lookup signal with
    | some name => s!"signal: {signal} ({name})"
    | none => s!"signal: {signal}"

end ExitState

/-- How a process ended and what it wrote. -/
structure Execution where
  state : ExitState
  output : List UInt8
  complaints : List UInt8
  deriving DecidableEq, Repr

/-- The output of a process as a text, or the reason why there is none: it failed, or its output is
no text. -/
def Execution.result (e : Execution) : Except String (List Char) :=
  if e.state = .exited 0 then (Text.Utf8.decode e.output).mapError Text.Utf8.Malformed.message
  else
    let complaints := String.ofList (Text.trim (Text.Utf8.decodeLossy e.complaints))
    .error s!"{e.state.text}: {complaints}"

/-- Why a program cannot be run. -/
inductive LaunchError where
  | notFound
  | notPermitted
  | notDirectory
  deriving DecidableEq, Repr

/-- The wording of a launch error. -/
def LaunchError.message : LaunchError → String
  | .notFound => "No such file or directory (os error 2)"
  | .notPermitted => "Permission denied (os error 13)"
  | .notDirectory => "Not a directory (os error 20)"

/-- A way to run a program with arguments. -/
abbrev Launcher := String → List String → Except LaunchError Execution

end TypeAssertions
