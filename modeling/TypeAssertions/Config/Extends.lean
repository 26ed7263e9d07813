import TypeAssertions.Config.File
import TypeAssertions.Diagnostic.Message
import TypeAssertions.FileSystem

/-!
# Extended configurations

A configuration is merged over the ones that it extends, in their order, and these over the ones
that they extend.  `load` collects the options, and beside them the name of the file that set each
one: a file that is merged later replaces both.  A file may be reached along several branches, but
not from itself: the places on the way to a file are `visited` while it is loaded, and reaching
one of them again is a circularity.  Places are compared by their components, which matters for
paths that lead nowhere: a slash at the end of one does not make it another place.
-/

namespace TypeAssertions.Config

open Json

/-! ### Options and their origins -/

/-- Options, and the name of the file that set each of them. -/
structure Sources where
  options : OrderedMap String Value
  origins : OrderedMap String String
  deriving DecidableEq

namespace Sources

/-- No options. -/
def empty : Sources := ⟨.empty, .empty⟩

/-- Sources with an option set by a file. -/
def set (s : Sources) (name : String) (v : Value) (origin : String) : Sources :=
  ⟨s.options.insert name v, s.origins.insert name origin⟩

/-- Sources, and origins of which some have been moved to them, after an option that is moved with
its origin. -/
def move (state : Sources × OrderedMap String String) (option : String × Value) :
    Sources × OrderedMap String String :=
  match state.2.get? option.1 with
  | some origin => (state.1.set option.1 option.2 origin, state.2.erase option.1)
  | none => ({ state.1 with options := state.1.options.insert option.1 option.2 }, state.2)

/-- Sources with others over them. -/
def merge (below above : Sources) : Sources :=
  (above.options.entries.foldl move (below, above.origins)).1

/-- Sources with the options of a file over them. -/
def extendFrom (s : Sources) (options : OrderedMap String Value) (origin : String) : Sources :=
  options.entries.foldl (fun s option => s.set option.1 option.2 origin) s

end Sources

/-! ### Paths of configurations -/

/-- The diagnostic of a file, about a configuration that it needs and that cannot be read. -/
def cannotRead (target file : String) : Diagnostic :=
  .ofCode (some file) Code.cannotRead [target]

/-- The diagnostic of a file that extends itself. -/
def circular (file : String) : Diagnostic :=
  .ofCode (some file) Code.circularity [file]

/-- The name of the directories in which packages are installed. -/
def packageDirectory : Path := ⟨"node_modules"⟩

/-- The file that a package name denotes from the directories above a file: itself, with the
extension of JSON files, or the configuration of a package directory. -/
def findPackage? (fs : FileSystem) (directory : Path) (specifier : String) : Option Path :=
  directory.ancestors.findSome? fun above =>
    let candidate := (above.join packageDirectory).child specifier
    [candidate, ⟨candidate.spelling ++ ".json"⟩, candidate.child ConfigFile.fileName].find?
      fs.isFile

/-- Whether a specifier is a path, and not the name of a package. -/
def isPathSpecifier (specifier : String) : Bool :=
  ['/'].isPrefixOf specifier.toList || ['.', '/'].isPrefixOf specifier.toList ||
    ['.', '.', '/'].isPrefixOf specifier.toList

/-- The path of a configuration that a file in a directory extends. -/
def basePath? (fs : FileSystem) (directory : Path) (specifier : String) : Option Path :=
  if isPathSpecifier specifier then
    let path := directory.child specifier
    some (if path.hasExtension then path else path.addExtension "json")
  else findPackage? fs directory specifier

/-- The directory in which the specifiers of a file start. -/
def directoryOf (p : Path) : Path := p.parent?.getD ⟨"."⟩

/-- The configuration that a path denotes, if it denotes a text that writes one. -/
def config? (fs : FileSystem) (p : Path) : Option ConfigFile :=
  (fs.readText? p).bind fun text => (ConfigFile.ofText text).toOption

theorem unseen_lt_of_config? {fs : FileSystem} {p : Path} {visited : List Path}
    {config : ConfigFile} (found : config? fs p = some config)
    (fresh : ¬ (fs.identity p).isAmong visited) :
  fs.unseen (fs.identity p :: visited) < fs.unseen visited
  := by
  obtain ⟨text, read, -⟩ := Option.bind_eq_some_iff.1 found
  exact fs.unseen_cons_lt read fresh

/-! ### Loading -/

/-- What loading gives: the sources, or the diagnostic of what went wrong, and the places that are
marked when it is over. -/
structure Loaded (visited : List Path) where
  result : Except Diagnostic Sources
  after : List Path
  kept : visited ⊆ after

/-- The marked places without the mark of a place. -/
def unmark (identity : Path) (visited : List Path) : List Path := visited.eraseP identity.equivalent

@[simp] theorem unmark_cons (identity : Path) (visited : List Path) :
  unmark identity (identity :: visited) = visited
  := List.eraseP_cons_of_pos identity.equivalent_refl

theorem subset_unmark {identity : Path} {visited after : List Path}
    (fresh : ¬ identity.isAmong visited) (kept : identity :: visited ⊆ after) :
  visited ⊆ unmark identity after
  := by
  intro place member
  have other : ¬ identity.equivalent place :=
    fun same => fresh (List.any_eq_true.2 ⟨place, member, same⟩)
  exact (List.mem_eraseP_of_neg other).2 (kept (List.mem_cons_of_mem _ member))

mutual

/-- The sources of the configuration at a path, merged along what it extends, when the places
`visited` are on the way to it; or the diagnostic of the first thing that is wrong. -/
def load (fs : FileSystem) (p : Path) (visited : List Path) : Loaded visited :=
  if seen : (fs.identity p).isAmong visited then
    ⟨.error (circular p.spelling), visited, List.Subset.refl _⟩
  else
    match found : config? fs p with
    | none =>
      ⟨.error (cannotRead p.spelling p.spelling),
        unmark (fs.identity p) (fs.identity p :: visited),
        subset_unmark seen (List.Subset.refl _)⟩
    | some config =>
      have := unseen_lt_of_config? found seen
      let bases := loadBases fs p config.bases .empty (fs.identity p :: visited)
      ⟨bases.result.map fun sources => sources.extendFrom config.options p.spelling,
        unmark (fs.identity p) bases.after, subset_unmark seen bases.kept⟩
termination_by (fs.unseen visited, 0)
decreasing_by exact .left _ _ this

/-- The sources merged over `sources` from the configurations that a file extends. -/
def loadBases (fs : FileSystem) (p : Path) (specifiers : List String) (sources : Sources)
    (visited : List Path) : Loaded visited :=
  match specifiers with
  | [] => ⟨.ok sources, visited, List.Subset.refl _⟩
  | specifier :: specifiers =>
    match basePath? fs (directoryOf p) specifier with
    | none => ⟨.error (cannotRead specifier p.spelling), visited, List.Subset.refl _⟩
    | some base =>
      let loaded := load fs base visited
      match loaded.result with
      | .error d => ⟨.error d, loaded.after, loaded.kept⟩
      | .ok above =>
        let rest := loadBases fs p specifiers (sources.merge above) loaded.after
        ⟨rest.result, rest.after, List.Subset.trans loaded.kept rest.kept⟩
termination_by (fs.unseen visited, specifiers.length + 1)
decreasing_by
  · exact .right _ (Nat.succ_pos _)
  · rcases Nat.lt_or_eq_of_le (FileSystem.unseen_le loaded.kept) with fewer | same
    · exact .left _ _ fewer
    · rw [same]
      exact .right _ (Nat.lt_succ_self _)

end

end TypeAssertions.Config
