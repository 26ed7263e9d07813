import TypeAssertions.Proofs.Path.Joining

/-!
# Names in a tree

In a well-named tree the entries of a directory have proper names, no two the same, so that what is
in a directory is what its names lead to.  A tree is well named when it is made by adding files and
directories at any paths to one that holds nothing but a working directory
(`FileTree.wellNamed_ofWorkingDirectory`, `FileTree.wellNamed_addFile`,
`FileTree.wellNamed_addDirectory`).
-/

namespace TypeAssertions

open TypeAssertions.Path

mutual

/-- The entries below an entry have proper names, and those of one directory different ones. -/
def Entry.WellNamed : Entry → Prop
  | .file _ => True
  | .directory entries => (entries.map Prod.fst).Nodup ∧ EntriesWellNamed entries

/-- Entries have proper names, and so have the entries below them. -/
def EntriesWellNamed : List (String × Entry) → Prop
  | [] => True
  | (name, e) :: rest => IsName name ∧ e.WellNamed ∧ EntriesWellNamed rest

end

variable {entries : List (String × Entry)} {name : String} {names : List String} {e x : Entry}

theorem entriesWellNamed_iff :
  EntriesWellNamed entries ↔ ∀ entry ∈ entries, IsName entry.1 ∧ entry.2.WellNamed
  := by
  induction entries with
  | nil => simp [EntriesWellNamed]
  | cons entry rest ih =>
    obtain ⟨name, e⟩ := entry
    rw [EntriesWellNamed, ih, List.forall_mem_cons, and_assoc]

theorem Entry.wellNamed_directory_iff :
  (Entry.directory entries).WellNamed
    ↔ (entries.map Prod.fst).Nodup ∧ ∀ entry ∈ entries, IsName entry.1 ∧ entry.2.WellNamed
  := by
  rw [WellNamed, entriesWellNamed_iff]

/-- Entries with different names are found by their names. -/
theorem lookup_eq_some_iff_mem (distinct : (entries.map Prod.fst).Nodup) :
  entries.lookup name = some e ↔ (name, e) ∈ entries
  := by
  induction entries with
  | nil => simp
  | cons entry rest ih =>
    obtain ⟨key, other⟩ := entry
    rw [List.map_cons, List.nodup_cons] at distinct
    rw [List.lookup_cons, List.mem_cons]
    split
    case h_1 same =>
      obtain rfl := eq_of_beq same
      constructor
      · intro found
        left
        rw [Option.some.inj found]
      · rintro (same | member)
        · rw [(Prod.mk.inj same).2]
        · cases distinct.1 (List.mem_map.2 ⟨(name, e), member, rfl⟩)
    case h_2 different =>
      have apart : name ≠ key := by simpa using different
      rw [ih distinct.2]
      simp [apart]

namespace Entry

theorem WellNamed.lookup (h : (directory entries).WellNamed) :
  entries.lookup name = some e ↔ (name, e) ∈ entries
  := lookup_eq_some_iff_mem (wellNamed_directory_iff.1 h).1

theorem WellNamed.of_mem (h : (directory entries).WellNamed) (member : (name, e) ∈ entries) :
  IsName name ∧ e.WellNamed
  := (wellNamed_directory_iff.1 h).2 _ member

theorem WellNamed.follow? (h : e.WellNamed) (found : FileTree.follow? e names = some x) :
  x.WellNamed
  := by
  fun_induction FileTree.follow? e names with
  | case1 e =>
    obtain rfl := Option.some.inj found
    apply h
  | case2 => cases found
  | case3 entries name names ih =>
    obtain ⟨inner, there, below⟩ := Option.bind_eq_some_iff.1 found
    apply ih inner (h.of_mem (h.lookup.1 there)).2 below

end Entry

namespace FileTree

variable {t : FileTree} {p : Path} {d : List String}

/-- The entries of a tree have proper names, and those of one directory different ones. -/
def WellNamed (t : FileTree) : Prop := (Entry.directory t.entries).WellNamed

theorem WellNamed.entryAt? (h : t.WellNamed) (found : t.entryAt? d = some x) :
  x.WellNamed
  := Entry.WellNamed.follow? h found

/-! ### Trees of files and directories -/

theorem mem_put {k : String} {a : Entry} {entry : String × Entry}
    (member : entry ∈ OrderedMap.put k a entries) :
  entry = (k, a) ∨ entry ∈ entries
  := by
  induction entries with
  | nil =>
    left
    apply List.mem_singleton.1 member
  | cons first rest ih =>
    rw [OrderedMap.put] at member
    split at member
    · rcases List.mem_cons.1 member with rfl | member
      · left
        rfl
      · right
        apply List.mem_cons_of_mem _ member
    · rcases List.mem_cons.1 member with rfl | member
      · right
        apply List.mem_cons_self
      · rcases ih member with rfl | member
        · left
          rfl
        · right
          apply List.mem_cons_of_mem _ member

theorem wellNamed_put (h : (Entry.directory entries).WellNamed) (proper : IsName name)
    (below : e.WellNamed) :
  (Entry.directory (OrderedMap.put name e entries)).WellNamed
  := by
  rw [Entry.wellNamed_directory_iff] at h ⊢
  use OrderedMap.nodup_put name e h.1
  intro entry member
  rcases mem_put member with rfl | member
  · use proper
  · apply h.2 entry member

theorem wellNamed_place (below : e.WellNamed) (proper : ∀ name ∈ names, IsName name)
    (h : (Entry.directory entries).WellNamed) :
  (Entry.directory (place e names entries)).WellNamed
  := by
  have empty : (Entry.directory []).WellNamed := by simp [Entry.WellNamed, EntriesWellNamed]
  fun_induction place e names entries with
  | case1 => apply h
  | case2 => apply h
  | case3 name => apply wellNamed_put h (proper name List.mem_cons_self) below
  | case4 name names entries _ inner held ih =>
    obtain ⟨first, others⟩ := List.forall_mem_cons.1 proper
    apply wellNamed_put h first
    apply ih others (h.of_mem (h.lookup.1 held)).2
  | case5 name names entries _ _ ih =>
    obtain ⟨first, others⟩ := List.forall_mem_cons.1 proper
    apply wellNamed_put h first
    apply ih others empty

/-- The tree that holds nothing but a working directory is well named. -/
theorem wellNamed_ofWorkingDirectory (proper : ∀ name ∈ names, IsName name) :
  (ofWorkingDirectory names).WellNamed
  := by
  have empty : (Entry.directory []).WellNamed := by simp [Entry.WellNamed, EntriesWellNamed]
  apply wellNamed_place empty proper empty

theorem names_proper (directory : ∀ name ∈ t.workingDirectory, IsName name)
    (member : name ∈ t.names p) :
  IsName name
  := by
  rw [names_eq, List.mem_append] at member
  rcases member with member | member
  · rw [start] at member
    split at member
    · cases member
    · apply directory name member
  · apply isName_of_mem_names member

/-- A file may be added at any path. -/
theorem wellNamed_addFile (h : t.WellNamed) (directory : ∀ name ∈ t.workingDirectory, IsName name)
    (p : Path) (content : List UInt8) :
  (t.addFile p content).WellNamed
  := by
  have below : (Entry.file content).WellNamed := by simp [Entry.WellNamed]
  apply wellNamed_place below _ h
  intro name member
  apply names_proper directory member

/-- A directory may be added at any path. -/
theorem wellNamed_addDirectory (h : t.WellNamed)
    (directory : ∀ name ∈ t.workingDirectory, IsName name) (p : Path) :
  (t.addDirectory p).WellNamed
  := by
  have empty : (Entry.directory []).WellNamed := by simp [Entry.WellNamed, EntriesWellNamed]
  apply wellNamed_place empty _ h
  intro name member
  apply names_proper directory member

end FileTree

end TypeAssertions
