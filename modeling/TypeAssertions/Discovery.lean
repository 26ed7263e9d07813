import TypeAssertions.FileTree
import TypeAssertions.Reconciliation

/-!
# Discovery of test files

`discoverBy` expands paths into test files.  A file stands for itself; a directory for the files
below it whose paths from there are wanted, except below hidden directories and directories of
dependencies.  The files are sorted, and of equivalent paths the first one given is kept.  Names are
Unicode text: a directory on disk whose name is no text is not passed over, but `isSkipped` is never
asked about one.
-/

namespace TypeAssertions.Discovery

/-- Whether a directory of a name is passed over: dependencies and hidden directories are. -/
def isSkipped (name : String) : Bool :=
  name = dependencyDirectory || name.toList.head? = some '.'

mutual

/-- The paths of the files of an entry at a path. -/
def filesAt (p : Path) : Entry → List Path
  | .file _ => [p]
  | .directory entries => filesBelow p entries

/-- The paths of the files of the entries of a directory at a path. -/
def filesBelow (p : Path) : List (String × Entry) → List Path
  | [] => []
  | (name, e) :: rest =>
    (if e.isDirectory && isSkipped name then [] else filesAt (p.child name) e)
      ++ filesBelow p rest

end

/-- A path that is neither a file nor a directory. -/
structure Missing where
  path : Path
  deriving DecidableEq, Repr

/-- The wording of a missing path. -/
def Missing.message (e : Missing) : String := s!"{e.path.spelling} does not exist"

/-- The test files that a path stands for: itself, or the files below it at the paths from there
that are wanted. -/
def expand (t : FileTree) (wanted : Path → Bool) (p : Path) : Except Missing (List Path) :=
  match t.entry? p with
  | none => .error ⟨p⟩
  | some (.file _) => .ok [p]
  | some (.directory entries) =>
    .ok ((filesBelow p entries).filter fun file => wanted ((file.relativeTo? p).getD file))

/-- Paths without those that are equivalent to the path before them, the first being after `p`. -/
def dropRepeatedAfter (p : Path) : List Path → List Path
  | [] => []
  | q :: rest =>
    if p.equivalent q then dropRepeatedAfter p rest else q :: dropRepeatedAfter q rest

/-- Paths without those that are equivalent to the path before them. -/
def dropRepeated : List Path → List Path
  | [] => []
  | p :: rest => p :: dropRepeatedAfter p rest

/-- The test files that paths stand for. -/
def discoverBy (t : FileTree) (wanted : Path → Bool) (paths : List Path) :
    Except Missing (List Path) := do
  let files ← paths.mapM (expand t wanted)
  return dropRepeated (files.flatten.mergeSort Path.le)

end TypeAssertions.Discovery
