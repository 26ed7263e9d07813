/-!
# Paths

A `Path` is a spelling.  Its `parts` are what the spelling names step by step: the root, the
directory it starts from, the directory above, or a name; empty steps, and `.` except at the
start, are no parts.  Two paths are `equivalent` when they have the same components, and paths are
ordered component by component.  The parent of a path, the path relative to another one, and the
path with an extension are cut out of the spelling, so that they keep it as it is.
-/

namespace TypeAssertions

/-- A step of a path. -/
inductive Component where
  | root
  | here
  | up
  | name (s : String)
  deriving DecidableEq, Repr

/-- A component and the characters of the spelling from which it is read. -/
structure Part where
  component : Component
  start : Nat
  stop : Nat
  deriving DecidableEq, Repr

/-- The spelling of a path. -/
structure Path where
  spelling : String
  deriving DecidableEq, Repr

namespace Path

/-- The characters of a path. -/
def chars (p : Path) : List Char := p.spelling.toList

/-- Whether a path starts at the root. -/
def isAbsolute (p : Path) : Bool := p.chars.head? = some '/'

/-- The steps between the slashes of a spelling, with the characters before each, when `step` has
been read and the next character has number `index`. -/
def stepsFrom (index : Nat) (step : List Char) : List Char → List (Nat × List Char)
  | [] => [(index - step.length, step)]
  | c :: cs =>
    if c = '/' then (index - step.length, step) :: stepsFrom (index + 1) [] cs
    else stepsFrom (index + 1) (step ++ [c]) cs

/-- The part that a step is, if it is one. -/
def partOfStep (step : Nat × List Char) : Option Part :=
  let part (component : Component) : Part := ⟨component, step.1, step.1 + step.2.length⟩
  if step.2 = [] then none
  else if step.2 = ['.'] then if step.1 = 0 then some (part .here) else none
  else if step.2 = ['.', '.'] then some (part .up)
  else some (part (.name (String.ofList step.2)))

/-- The parts of a path. -/
def parts (p : Path) : List Part :=
  (if p.isAbsolute then [⟨.root, 0, 1⟩] else []) ++ (stepsFrom 0 [] p.chars).filterMap partOfStep

/-- The components of a path. -/
def components (p : Path) : List Component := p.parts.map Part.component

/-- The characters of a path from `start` up to `stop`. -/
def cut (p : Path) (start stop : Nat) : Path :=
  ⟨String.ofList ((p.chars.take stop).drop start)⟩

/-- The path without its last component; the root and the empty path have no parent. -/
def parent? (p : Path) : Option Path :=
  match p.parts.reverse with
  | [] => none
  | last :: before =>
    if last.component = .root then none
    else some (p.cut 0 ((before.head?.map Part.stop).getD 0))

/-- The path and the paths above it, from the nearest on: the root or the empty path is the last. -/
def ancestors (p : Path) : List Path :=
  match p.parts.reverse with
  | [] => [p]
  | _ :: above =>
    let root := if p.isAbsolute then [] else [p.cut 0 0]
    p :: above.map (fun part => p.cut 0 part.stop) ++ root

/-- The path followed by a relative path, or an absolute path in its place. -/
def join (p q : Path) : Path :=
  if q.isAbsolute ∨ p.chars = [] then q
  else if p.chars.getLast? = some '/' then ⟨p.spelling ++ q.spelling⟩
  else ⟨p.spelling ++ "/" ++ q.spelling⟩

/-- The path followed by a name. -/
def child (p : Path) (name : String) : Path := p.join ⟨name⟩

/-- The last component of a path, if that is a name. -/
def fileName? (p : Path) : Option String :=
  match p.parts.getLast? with
  | some ⟨.name s, _, _⟩ => some s
  | _ => none

/-- Whether a file name has an extension: a dot that is not its first character. -/
def hasExtension (p : Path) : Bool :=
  match p.fileName? with
  | some s => (s.toList.drop 1).contains '.'
  | none => false

/-- The path with `.` and an extension after its file name; a path without a file name stays as it
is.  The file name has no extension of its own. -/
def addExtension (p : Path) (extension : String) : Path :=
  match p.parts.getLast? with
  | some ⟨.name _, _, stop⟩ => ⟨(p.cut 0 stop).spelling ++ "." ++ extension⟩
  | _ => p

/-- The path relative to one above it. -/
def relativeTo? (p base : Path) : Option Path :=
  let above := base.components
  if above.isPrefixOf p.components then
    let below := p.parts.drop above.length
    let start := if above.isEmpty then 0 else (below.head?.map Part.start).getD 0
    some (p.cut start ((below.getLast?.map Part.stop).getD 0))
  else none

/-- Whether two paths have the same components. -/
def equivalent (p q : Path) : Bool := p.components = q.components

theorem equivalent_refl (p : Path) :
  p.equivalent p = true
  := by
  rw [equivalent, decide_eq_true_eq]

/-- Whether a path is equivalent to one of a list. -/
def isAmong (p : Path) (paths : List Path) : Bool := paths.any p.equivalent

@[simp] theorem not_isAmong_nil {p : Path} :
  ¬ p.isAmong []
  := Bool.false_ne_true

@[simp] theorem isAmong_cons (p q : Path) (paths : List Path) :
  p.isAmong (q :: paths) = (p.equivalent q || p.isAmong paths)
  := rfl

theorem isAmong_iff {p : Path} {paths : List Path} :
  p.isAmong paths ↔ p.components ∈ paths.map components
  := by
  simp only [isAmong, equivalent, List.any_eq_true, List.mem_map, decide_eq_true_eq]
  simp only [eq_comm]

theorem isAmong_of_subset {p : Path} {paths more : List Path} (h : paths ⊆ more)
    (among : p.isAmong paths) :
  p.isAmong more
  := by
  rw [isAmong_iff] at among ⊢
  apply List.map_subset components h among

end Path

/-! ### Order -/

namespace Component

/-- The place of a component among components of other sorts. -/
def rank : Component → Nat
  | .root => 0
  | .here => 1
  | .up => 2
  | .name _ => 3

/-- The name of a component, empty unless it is a name. -/
def text : Component → String
  | .name s => s
  | .root | .here | .up => ""

/-- The order of components: the root, the directory itself, the directory above, then names. -/
def order (a b : Component) : Ordering := (compare a.rank b.rank).then (compare a.text b.text)

end Component

/-- The order of lists of components, from the first difference on. -/
def compareComponents : List Component → List Component → Ordering
  | [], [] => .eq
  | [], _ :: _ => .lt
  | _ :: _, [] => .gt
  | a :: as, b :: bs => (a.order b).then (compareComponents as bs)

namespace Path

/-- The order of paths. -/
def order (p q : Path) : Ordering := compareComponents p.components q.components

/-- Whether a path comes before another one, or their components are the same. -/
def le (p q : Path) : Bool := (p.order q).isLE

/-- A path for display: relative to a directory above it, and with slashes for backslashes. -/
def display (p base : Path) : String :=
  String.ofList
    (((p.relativeTo? base).getD p).chars.map fun c => if c = '\\' then '/' else c)

end Path

end TypeAssertions
