import TypeAssertions.FileTree

/-!
# File systems

A `FileSystem` is what a program asks about files, whatever links there are: which path from the
root a path leads to, which text it denotes, and whether it denotes a file.  Two paths that lead
to the same place have the same `identity`, a path that leads nowhere is its own, and only finitely
many places hold a text.  A file tree is a file system.
-/

namespace TypeAssertions

/-- What can be asked about files. -/
structure FileSystem where
  /-- The path from the root to what a path denotes. -/
  canonical? : Path → Option Path
  /-- The text that a path denotes. -/
  readText? : Path → Option (List Char)
  /-- Whether a path denotes a file. -/
  isFile : Path → Bool
  /-- The places that hold a text. -/
  places : List Path
  mem_places : ∀ {p text}, readText? p = some text → (canonical? p).getD p ∈ places

namespace FileSystem

/-- What tells apart the places that paths lead to: the path from the root, or the path as it is
when it leads nowhere. -/
def identity (fs : FileSystem) (p : Path) : Path := (fs.canonical? p).getD p

/-- The number of places outside of a list. -/
def unseen (fs : FileSystem) (seen : List Path) : Nat :=
  (fs.places.filter fun place => !place.isAmong seen).length

theorem unseen_le {fs : FileSystem} {seen more : List Path} (h : seen ⊆ more) :
  fs.unseen more ≤ fs.unseen seen
  := by
  simp only [unseen, ← List.countP_eq_length_filter]
  apply List.countP_mono_left
  intro place _ outside
  rw [Bool.not_eq_true', Bool.eq_false_iff] at outside ⊢
  exact fun inside => outside (Path.isAmong_of_subset h inside)

theorem unseen_cons_lt {fs : FileSystem} {seen : List Path} {p : Path} {text : List Char}
    (read : fs.readText? p = some text) (fresh : ¬ (fs.identity p).isAmong seen) :
  fs.unseen (fs.identity p :: seen) < fs.unseen seen
  := by
  simp only [unseen, Path.isAmong_cons, Bool.not_or, ← List.filter_filter]
  have kept : fs.identity p ∈ fs.places.filter fun place => !place.isAmong seen := by
    simpa using ⟨fs.mem_places read, Bool.eq_false_iff.2 fresh⟩
  exact List.length_filter_lt_length_iff_exists.2
    ⟨fs.identity p, kept, by simp [Path.equivalent_refl]⟩

end FileSystem

/-! ### Trees -/

mutual

/-- The names that lead to the files of an entry. -/
def entryFiles : Entry → List (List String)
  | .file _ => [[]]
  | .directory entries => entriesFiles entries

/-- The names that lead to the files of entries. -/
def entriesFiles : List (String × Entry) → List (List String)
  | [] => []
  | (name, e) :: rest => (entryFiles e).map (name :: ·) ++ entriesFiles rest

end

theorem mem_entriesFiles {entries : List (String × Entry)} {name : String} {e : Entry}
    {names : List String} (found : entries.lookup name = some e) (h : names ∈ entryFiles e) :
  name :: names ∈ entriesFiles entries
  := by
  induction entries with
  | nil => simp at found
  | cons entry rest ih =>
    obtain ⟨key, other⟩ := entry
    simp only [entriesFiles, List.mem_append, List.mem_map]
    rw [List.lookup_cons] at found
    split at found
    case h_1 same =>
      obtain rfl := Option.some.inj found
      obtain rfl := eq_of_beq same
      exact .inl ⟨names, h, rfl⟩
    case h_2 => exact .inr (ih found)

theorem mem_entryFiles {e : Entry} {names : List String} {content : List UInt8}
    (h : FileTree.follow? e names = some (.file content)) :
  names ∈ entryFiles e
  := by
  fun_induction FileTree.follow? e names with
  | case1 e =>
    obtain rfl := Option.some.inj h
    simp [entryFiles]
  | case2 => simp at h
  | case3 entries name names ih =>
    obtain ⟨inner, found, below⟩ := Option.bind_eq_some_iff.1 h
    simp only [entryFiles]
    exact mem_entriesFiles found (ih inner below)

namespace FileTree

theorem canonical?_mem_of_readText {t : FileTree} {p : Path} {text : List Char}
    (read : (t.readText p).toOption = some text) :
  (t.canonical? p).getD p ∈ (entriesFiles t.entries).map pathOf
  := by
  obtain ⟨names, content, located, entry⟩ : ∃ names content,
      t.locate p = .ok names ∧ t.entryAt? names = some (.file content) := by
    cases given : t.readText p with
    | error e => simp [given, Except.toOption] at read
    | ok text => exact locate_of_readText given
  have member : names ∈ entriesFiles t.entries := by
    simpa [entryFiles] using mem_entryFiles entry
  simpa [canonical?, located] using ⟨names, member, rfl⟩

/-- A tree as a file system. -/
def fileSystem (t : FileTree) : FileSystem where
  canonical? := t.canonical?
  readText? p := (t.readText p).toOption
  isFile := t.isFile
  places := (entriesFiles t.entries).map pathOf
  mem_places := canonical?_mem_of_readText

instance : Coe FileTree FileSystem := ⟨fileSystem⟩

end FileTree

end TypeAssertions
