import TypeAssertions.CompilerOptions
import TypeAssertions.Path
import TypeAssertions.Reconciliation

/-!
# Checking a file

Checking drives three collaborators: one resolves the compiler options of a file, one runs the type
checker, and one gives the verdicts on assertions that do not expect an error.  `checkFile` calls
them in this order and stops at the first stage that reports errors; then it reconciles the
diagnostics with the expected errors.  The collaborators may have effects of any kind.
`Collaborators.traced` records the calls made to the last two.
-/

namespace TypeAssertions

/-- What a type checker found out about a program; the model is what verdicts are taken from. -/
structure Program (M : Type) where
  files : List SourceFile
  syntaxDiagnostics : List Diagnostic
  semanticDiagnostics : List Diagnostic
  model : M

/-- Why a type checker could not run at all. -/
inductive CheckerError where
  | unreadable (path : Path) (reason : String)
  | malformed (path : Path) (reason : String)
  | noInputs
  | commandFailed (line : String) (reason : String)
  deriving DecidableEq, Repr

/-- The wording of a checker error, followed by that of its cause if it has one. -/
def CheckerError.chain : CheckerError → List String
  | .unreadable path reason => [s!"failed to read {path.spelling}", reason]
  | .malformed path reason => [s!"checker output for {path.spelling} is malformed: {reason}"]
  | .noInputs => ["no input files"]
  | .commandFailed line reason => [s!"checker command `{line}` failed: {reason}"]

/-- The failure of a check: the checker could not run on a file. -/
structure CheckError where
  file : Path
  cause : CheckerError
  deriving DecidableEq, Repr

/-- The wording of a failed check, followed by that of its causes. -/
def CheckError.chain (e : CheckError) : List String :=
  s!"type-checking engine failed on {e.file.spelling}" :: e.cause.chain

/-- A chain of wordings on one line. -/
def joinChain (chain : List String) : String := String.intercalate ": " chain

/-- Assertions by kind. -/
abbrev Groups := List (AssertionKind × List Assertion)

/-- The parties to a check, with effects `m` and checker models `M`. -/
structure Collaborators (m : Type → Type) (M : Type) where
  resolve : Path → m Resolved
  check : List Path → CompilerOptions → m (Except CheckerError (Program M))
  evaluate : M → Groups → m (List Finding)

/-- The outcome of checking a program that has no syntax errors, given the verdicts on its
assertions. -/
def Program.outcome {M : Type} (p : Program M) (verdicts : List Finding) : Outcome :=
  let extracted := Extracted.ofFiles p.files
  .completed extracted.count (reconcile p.files p.semanticDiagnostics extracted verdicts)

/-- Check one file. -/
def checkFile {m : Type → Type} [Monad m] {M : Type} (c : Collaborators m M) (file : Path) :
    m (Except CheckError Outcome) := do
  let resolved ← c.resolve file
  if !resolved.diagnostics.isEmpty then
    return .ok (.stopped resolved.diagnostics)
  else
    match ← c.check [file] resolved.options with
    | .error cause => return .error ⟨file, cause⟩
    | .ok program =>
      if !program.syntaxDiagnostics.isEmpty then
        return .ok (.stopped program.syntaxDiagnostics)
      else
        let verdicts ← c.evaluate program.model (Extracted.ofFiles program.files).evaluable
        return .ok (program.outcome verdicts)

/-- A call to the checker or to the evaluator. -/
inductive Call where
  | checker (files : List Path) (options : CompilerOptions)
  | evaluator (groups : Groups)
  deriving DecidableEq

/-- Collaborators that also record their calls in order. -/
def Collaborators.traced {m : Type → Type} [Monad m] {M : Type} (c : Collaborators m M) :
    Collaborators (StateT (List Call) m) M where
  resolve file := StateT.lift (c.resolve file)
  check files options := do
    modify (· ++ [.checker files options])
    StateT.lift (c.check files options)
  evaluate model groups := do
    modify (· ++ [.evaluator groups])
    StateT.lift (c.evaluate model groups)

end TypeAssertions
