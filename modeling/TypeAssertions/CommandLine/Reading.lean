import TypeAssertions.CommandLine.Basic

/-!
# Reading command lines

Arguments are read from left to right.  A `Reading` is what has been settled so far, and the paths
or the option that came last, which are settled when something else follows: a value may be found
unfit only then.  An unknown argument, or a value for a flag, is refused at once.
-/

namespace TypeAssertions.CommandLine

/-- What has been settled. -/
structure Draft where
  paths : List Path := []
  checker : Option String := none
  project : Option Path := none
  patterns : List String := []
  format : Option ReportFormat := none
  noColor : Bool := false
  jobs : Option Nat := none
  deriving DecidableEq, Repr

/-- What has been read and not settled. -/
inductive Pending where
  | nothing
  | paths (given : List String)
  | setting (s : Setting) (value : Option String)
  deriving DecidableEq, Repr

/-- The arguments up to a place. -/
structure Reading where
  draft : Draft := {}
  pending : Pending := .nothing
  deriving DecidableEq, Repr

/-- The path that a value names; an empty value names none. -/
def path? (value : String) : Except Refusal Path :=
  if value = "" then .error .unfitValue else .ok ⟨value⟩

/-- The number of decimal digits, which a plus sign may precede. -/
def number (value : String) : Except Refusal Nat :=
  let digits :=
    match value.toList with
    | '+' :: rest => rest
    | all => all
  if digits ≠ [] ∧ digits.all Char.isDigit then
    let n := digits.foldl (fun n c => 10 * n + (c.toNat - '0'.toNat)) 0
    if n < UInt64.size then .ok n else .error .malformedNumber
  else .error .malformedNumber

namespace Draft

/-- The draft with more paths. -/
def addPaths (d : Draft) (given : List String) : Except Refusal Draft := do
  let more ← given.mapM path?
  return { d with paths := d.paths ++ more }

/-- Refuses a setting that has been made. -/
def requireUnset {α : Type} (before : Option α) : Except Refusal Unit :=
  if before.isSome then .error .repeated else .ok ()

/-- The draft with one more setting.  Only patterns may be given more than once. -/
def set (d : Draft) (s : Setting) (value : String) : Except Refusal Draft :=
  match s with
  | .checker => do
    requireUnset d.checker
    return { d with checker := some value }
  | .project => do
    requireUnset d.project
    return { d with project := some (← path? value) }
  | .pattern => .ok { d with patterns := d.patterns ++ [value] }
  | .format => do
    requireUnset d.format
    match ReportFormat.byName.lookup value with
    | some f => return { d with format := some f }
    | none => throw .unfitValue
  | .jobs => do
    requireUnset d.jobs
    return { d with jobs := some (← number value) }

/-- The draft with one more flag. -/
def raise (d : Draft) : Flag → Except Refusal Draft
  | .noColor => if d.noColor then .error .repeated else .ok { d with noColor := true }
  | .help => .error .helpAsked
  | .version => .error .versionAsked

/-- The command line of a draft. -/
def complete (d : Draft) : CommandLine where
  paths := if d.paths.isEmpty then defaultPaths else d.paths
  checker := d.checker
  project := d.project
  patterns := d.patterns
  format := d.format.getD .text
  noColor := d.noColor
  jobs := d.jobs

end Draft

namespace Reading

/-- The draft when all that is pending is settled. -/
def settle (r : Reading) : Except Refusal Draft :=
  match r.pending with
  | .nothing => .ok r.draft
  | .paths given => r.draft.addPaths given
  | .setting s (some value) => r.draft.set s value
  | .setting _ none => .error .missingValue

/-- The reading after a flag. -/
def raise (r : Reading) (f : Flag) : Except Refusal Reading := do
  return ⟨← (← r.settle).raise f, .nothing⟩

/-- The reading after an option together with its value. -/
def set (r : Reading) (s : Setting) (value : String) : Except Refusal Reading := do
  return ⟨← (← r.settle).set s value, .nothing⟩

/-- The reading after an option of which the value is to follow. -/
def await (r : Reading) (s : Setting) : Except Refusal Reading := do
  return ⟨← r.settle, .setting s none⟩

/-- The reading after one more path. -/
def addPath (r : Reading) (value : String) : Except Refusal Reading :=
  match r.pending with
  | .paths given => .ok { r with pending := .paths (given ++ [value]) }
  | _ => do return ⟨← r.settle, .paths [value]⟩

/-- The reading after an argument that is no switch. -/
def addValue (r : Reading) (value : String) : Except Refusal Reading :=
  match r.pending with
  | .setting s none => .ok { r with pending := .setting s (some value) }
  | _ => r.addPath value

/-- The reading after a long name, which a value may follow behind an equals sign. -/
def readLong (r : Reading) (cs : List Char) : Except Refusal Reading :=
  let name := cs.takeWhile (· ≠ '=')
  match longNames.lookup (String.ofList name), cs.drop name.length with
  | none, _ => .error .unknownArgument
  | some (.flag f), [] => r.raise f
  | some (.flag _), _ :: _ => .error .unexpectedValue
  | some (.setting s), [] => r.await s
  | some (.setting s), _ :: value => r.set s (String.ofList value)

/-- A value without the equals sign before it. -/
def attachedValue : List Char → String
  | '=' :: rest => String.ofList rest
  | all => String.ofList all

/-- The reading after short names, of which the first option takes the rest for its value. -/
def readShort (r : Reading) : List Char → Except Refusal Reading
  | [] => .ok r
  | c :: rest =>
    match shortNames.lookup c with
    | none => .error .unknownArgument
    | some (.flag f) => do readShort (← r.raise f) rest
    | some (.setting s) => if rest = [] then r.await s else r.set s (attachedValue rest)

/-- The reading after arguments that are all paths. -/
def readPaths (r : Reading) : List String → Except Refusal Reading
  | [] => .ok r
  | a :: rest => do readPaths (← r.addPath a) rest

/-- The reading after arguments; two hyphens alone end the switches. -/
def readAll (r : Reading) : List String → Except Refusal Reading
  | [] => .ok r
  | a :: rest =>
    match a.toList with
    | ['-', '-'] => r.readPaths rest
    | '-' :: '-' :: long => do readAll (← r.readLong long) rest
    | '-' :: c :: short => do readAll (← r.readShort (c :: short)) rest
    | _ => do readAll (← r.addValue a) rest

end Reading

/-- The command line that arguments write. -/
def ofArguments (arguments : List String) : Except Refusal CommandLine := do
  return (← (← Reading.readAll {} arguments).settle).complete

end TypeAssertions.CommandLine
