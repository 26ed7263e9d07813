/-!
# Glob patterns

`Glob.parse` reads a pattern: `?` for one byte, `*` for any bytes, `**` between slashes for any
directories, `[...]` for one byte of a class, `{...}` for alternatives separated by commas, and a
backslash before a character that stands for itself.
-/

namespace TypeAssertions.Glob

/-- A part of a pattern.  Directories may lead a pattern, end it, or stand in between; a class
lists ranges of characters. -/
inductive Token where
  | literal (c : Char)
  | one
  | many
  | leadingDirectories
  | innerDirectories
  | trailingDirectories
  | oneOf (negated : Bool) (ranges : List (Char × Char))
  | alternatives (branches : List (List Token))
  deriving Inhabited

/-- Why a pattern cannot be read. -/
inductive Fault where
  | unclosedClass
  | invalidRange (first last : Char)
  | unopenedAlternatives
  | unclosedAlternatives
  | danglingEscape
  deriving DecidableEq, Repr

/-- The wording of a fault. -/
def Fault.message : Fault → String
  | .unclosedClass => "unclosed character class; missing ']'"
  | .invalidRange first last => s!"invalid range; '{first}' > '{last}'"
  | .unopenedAlternatives =>
    "unopened alternate group; missing '\x7b' (maybe escape '\x7d' with '[\x7d]'?)"
  | .unclosedAlternatives =>
    "unclosed alternate group; missing '\x7d' (maybe escape '\x7b' with '[\x7b]'?)"
  | .danglingEscape => "dangling '\\'"

/-- The ranges of a class read so far, the last one first, and whether a hyphen after them may
continue the last range. -/
structure ClassState where
  negated : Bool
  ranges : List (Char × Char)
  hyphen : Bool

/-- The class with one more character. -/
def ClassState.add (s : ClassState) (c : Char) : Except Fault ClassState :=
  match s.hyphen, s.ranges with
  | true, (first, _) :: ranges =>
    if c < first then .error (.invalidRange first c)
    else .ok ⟨s.negated, (first, c) :: ranges, false⟩
  | _, ranges => .ok ⟨s.negated, (c, c) :: ranges, false⟩

/-- The token of a class; a hyphen at its end stands for itself. -/
def ClassState.token (s : ClassState) : Token :=
  .oneOf s.negated (if s.hyphen then ('-', '-') :: s.ranges else s.ranges).reverse

/-- The branches read so far, the current one first and each with its last token first, and the
numbers of branches before the groups that are open. -/
structure Groups where
  branches : List (List Token)
  marks : List Nat

namespace Groups

/-- The groups with a token at the end of the current branch. -/
def push (g : Groups) (t : Token) : Groups :=
  match g.branches with
  | [] => ⟨[[t]], g.marks⟩
  | branch :: rest => ⟨(t :: branch) :: rest, g.marks⟩

/-- The current branch, with its last token first. -/
def current (g : Groups) : List Token := g.branches.head?.getD []

/-- The groups with a new one open. -/
def openGroup (g : Groups) : Groups := ⟨[] :: g.branches, g.branches.length :: g.marks⟩

/-- The groups with the innermost one closed. -/
def closeGroup (g : Groups) : Except Fault Groups :=
  match g.marks with
  | [] => .error .unopenedAlternatives
  | mark :: marks =>
    let inside := g.branches.length - mark
    let branches := ((g.branches.take inside).map List.reverse).reverse
    .ok (push ⟨g.branches.drop inside, marks⟩ (.alternatives branches))

/-- The groups with a new branch of the innermost one, or with a comma outside of groups. -/
def nextBranch (g : Groups) : Groups :=
  if g.marks.isEmpty then g.push (.literal ',') else { g with branches := [] :: g.branches }

/-- The groups with `**` after `/`, or in place of directories that are there already; `last` when
no slash follows it. -/
def pushDirectories (g : Groups) (last : Bool) : Groups :=
  let directories : Token := if last then .trailingDirectories else .innerDirectories
  match g.branches with
  | (.leadingDirectories :: _) :: _ | (.trailingDirectories :: _) :: _ => g
  | (_ :: branch) :: rest => ⟨(directories :: branch) :: rest, g.marks⟩
  | _ => g.push directories

end Groups

/-- What the reader is in the middle of; stars remember the character before them. -/
inductive Mode where
  | pattern
  | star (before : Option Char)
  | stars (before : Option Char)
  | classStart
  | classFirst (s : ClassState)
  | classRest (s : ClassState)
  | escape

/-- The groups and the mode after a character of the pattern proper; `before` is the one before
it. -/
def patternStep (g : Groups) (before : Option Char) (c : Char) : Except Fault (Groups × Mode) :=
  if c = '?' then .ok (g.push .one, .pattern)
  else if c = '*' then .ok (g, .star before)
  else if c = '[' then .ok (g, .classStart)
  else if c = '\x7b' then .ok (g.openGroup, .pattern)
  else if c = '\x7d' then g.closeGroup.map fun g => (g, .pattern)
  else if c = ',' then .ok (g.nextBranch, .pattern)
  else if c = '\\' then .ok (g, .escape)
  else .ok (g.push (.literal c), .pattern)

/-- Whether `**` after a character stands for directories: after a slash, or at the start of a
branch of a group. -/
def startsDirectories (g : Groups) (before : Option Char) : Bool :=
  before = some '/' ||
    (2 ≤ g.branches.length && (before = some ',' || before = some '\x7b'))

/-- The groups and the mode after one more character; `before` is the one before it. -/
def step (g : Groups) (before : Option Char) (mode : Mode) (c : Char) :
    Except Fault (Groups × Mode) :=
  match mode with
  | .pattern => patternStep g before c
  | .escape => .ok (g.push (.literal c), .pattern)
  | .star start =>
    if c = '*' then .ok (g, .stars start) else patternStep (g.push .many) before c
  | .stars start =>
    let plain := (g.push .many).push .many
    if g.current.isEmpty then
      if c = '/' then .ok (g.push .leadingDirectories, .pattern) else patternStep plain before c
    else if !startsDirectories g start then patternStep plain before c
    else if c = '/' then .ok (g.pushDirectories false, .pattern)
    else if 2 ≤ g.branches.length ∧ (c = ',' ∨ c = '\x7d') then
      patternStep (g.pushDirectories true) before c
    else patternStep plain before c
  | .classStart =>
    if c = '!' ∨ c = '^' then .ok (g, .classFirst ⟨true, [], false⟩)
    else .ok (g, .classRest ⟨false, [(c, c)], false⟩)
  | .classFirst s => .ok (g, .classRest { s with ranges := [(c, c)] })
  | .classRest s =>
    if c = ']' then .ok (g.push s.token, .pattern)
    else if c = '-' ∧ !s.hyphen then .ok (g, .classRest { s with hyphen := true })
    else (s.add c).map fun s => (g, .classRest s)

/-- The groups at the end of a pattern. -/
def finish (g : Groups) : Mode → Except Fault Groups
  | .pattern => .ok g
  | .escape => .error .danglingEscape
  | .classStart | .classFirst _ | .classRest _ => .error .unclosedClass
  | .star _ => .ok (g.push .many)
  | .stars start =>
    if g.current.isEmpty then .ok (g.push .leadingDirectories)
    else if startsDirectories g start then .ok (g.pushDirectories true)
    else .ok ((g.push .many).push .many)

/-- The groups after the rest of a pattern; `before` is the character before it. -/
def read (g : Groups) (before : Option Char) (mode : Mode) : List Char → Except Fault Groups
  | [] => finish g mode
  | c :: cs => do
    let (g, mode) ← step g before mode c
    read g (some c) mode cs

/-- The tokens of a pattern. -/
def parse (pattern : String) : Except Fault (List Token) := do
  let g ← read ⟨[[]], []⟩ none .pattern pattern.toList
  match g.branches with
  | [branch] => return branch.reverse
  | _ => throw .unclosedAlternatives

end TypeAssertions.Glob
