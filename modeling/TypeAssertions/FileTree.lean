import TypeAssertions.OrderedMap
import TypeAssertions.Path
import TypeAssertions.Text.Utf8

/-!
# File trees

A `FileTree` is the state of a file system without links: files and directories below a root, and
a working directory from which relative paths start.  Names are Unicode text, as paths are: a name
that is any other sequence of bytes is not in a tree, so there is none to be displayed with
replacement characters.  `FileTree.locate` follows a path step by step to the names of what it
denotes, `FileTree.readText` is the text of a file, and `FileTree.canonical?` is the one path from
the root that denotes the same thing.
-/

namespace TypeAssertions

/-- A file or a directory. -/
inductive Entry where
  | file (content : List UInt8)
  | directory (entries : List (String × Entry))
  deriving Inhabited

/-- Whether an entry is a directory. -/
def Entry.isDirectory : Entry → Bool
  | .file _ => false
  | .directory _ => true

/-- Why a path cannot be read. -/
inductive FileError where
  | notFound
  | notDirectory
  | isDirectory
  | notText
  deriving DecidableEq, Repr

/-- The wording of a file error. -/
def FileError.message : FileError → String
  | .notFound => "No such file or directory (os error 2)"
  | .notDirectory => "Not a directory (os error 20)"
  | .isDirectory => "Is a directory (os error 21)"
  | .notText => "stream did not contain valid UTF-8"

/-- A file system: the entries of its root, and the names that lead to the working directory. -/
structure FileTree where
  entries : List (String × Entry)
  workingDirectory : List String

namespace FileTree

/-- The entry that names lead to from an entry. -/
def follow? : Entry → List String → Option Entry
  | e, [] => some e
  | .file _, _ :: _ => none
  | .directory entries, name :: names => (entries.lookup name).bind fun e => follow? e names

/-- The entry that names lead to from the root. -/
def entryAt? (t : FileTree) (names : List String) : Option Entry :=
  follow? (.directory t.entries) names

/-- The names reached from a directory by one step of a path. -/
def step (t : FileTree) (names : List String) (s : List Char) : Except FileError (List String) :=
  match t.entryAt? names with
  | none => .error .notFound
  | some (.file _) => .error .notDirectory
  | some (.directory entries) =>
    if s = [] ∨ s = ['.'] then .ok names
    else if s = ['.', '.'] then .ok names.dropLast
    else
      let name := String.ofList s
      if (entries.lookup name).isSome then .ok (names ++ [name]) else .error .notFound

/-- The names that lead from the root to what a path denotes. -/
def locate (t : FileTree) (p : Path) : Except FileError (List String) :=
  if p.chars = [] then .error .notFound
  else
    ((Path.stepsFrom 0 [] p.chars).map Prod.snd).foldlM t.step
      (if p.isAbsolute then [] else t.workingDirectory)

/-- What a path denotes. -/
def entry? (t : FileTree) (p : Path) : Option Entry :=
  match t.locate p with
  | .ok names => t.entryAt? names
  | .error _ => none

/-- Whether a path denotes a file. -/
def isFile (t : FileTree) (p : Path) : Bool :=
  match t.entry? p with
  | some (.file _) => true
  | _ => false

/-- Whether a path denotes a directory. -/
def isDirectory (t : FileTree) (p : Path) : Bool :=
  match t.entry? p with
  | some (.directory _) => true
  | _ => false

/-- The bytes of a file. -/
def readBytes (t : FileTree) (p : Path) : Except FileError (List UInt8) := do
  match t.entryAt? (← t.locate p) with
  | some (.file content) => return content
  | some (.directory _) => throw .isDirectory
  | none => throw .notFound

/-- The text of a file. -/
def readText (t : FileTree) (p : Path) : Except FileError (List Char) := do
  match Text.Utf8.decode (← t.readBytes p) with
  | .ok text => return text
  | .error _ => throw .notText

/-- The path from the root that names spell. -/
def pathOf (names : List String) : Path := ⟨"/" ++ String.intercalate "/" names⟩

/-- The path from the root of what a path denotes. -/
def canonical? (t : FileTree) (p : Path) : Option Path :=
  match t.locate p with
  | .ok names => some (pathOf names)
  | .error _ => none

theorem locate_of_readText {t : FileTree} {p : Path} {text : List Char}
    (read : t.readText p = .ok text) :
  ∃ names content, t.locate p = .ok names ∧ t.entryAt? names = some (.file content)
  := by
  simp only [readText, readBytes, bind, Except.bind] at read
  split at read
  case h_1 => cases read
  case h_2 bytes found =>
    split at found
    case h_1 => cases found
    case h_2 names located =>
      split at found
      case h_1 content entry => exact ⟨names, content, located, entry⟩
      case h_2 => cases found
      case h_3 => cases found

/-- The path of the working directory. -/
def workingPath (t : FileTree) : Path := pathOf t.workingDirectory

/-! ### Construction -/

/-- Entries with one more where the names lead, and the directories on the way to it.  A directory
that is there already keeps its entries. -/
def place (e : Entry) : List String → List (String × Entry) → List (String × Entry)
  | [], entries => entries
  | [name], entries =>
    match entries.lookup name, e with
    | some (.directory _), .directory _ => entries
    | _, _ => OrderedMap.put name e entries
  | name :: names, entries =>
    match entries.lookup name with
    | some (.directory inner) => OrderedMap.put name (.directory (place e names inner)) entries
    | _ => OrderedMap.put name (.directory (place e names [])) entries

/-- The names of the steps of a path, from the root or below the working directory. -/
def names (t : FileTree) (p : Path) : List String :=
  (if p.isAbsolute then [] else t.workingDirectory) ++
    p.components.filterMap fun
      | .name s => some s
      | _ => none

/-- The tree with a file at a path. -/
def addFile (t : FileTree) (p : Path) (content : List UInt8) : FileTree :=
  { t with entries := place (.file content) (t.names p) t.entries }

/-- The tree with a directory at a path. -/
def addDirectory (t : FileTree) (p : Path) : FileTree :=
  { t with entries := place (.directory []) (t.names p) t.entries }

/-- The tree that holds nothing but a working directory. -/
def ofWorkingDirectory (names : List String) : FileTree :=
  ⟨place (.directory []) names [], names⟩

end FileTree

end TypeAssertions
