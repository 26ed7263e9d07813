import TypeAssertions.Proofs.Discovery.Order
import TypeAssertions.Proofs.Tree.Names

/-!
# Files below a directory

The walk through a directory finds the files to which names lead down from it, without those below
directories that are passed over (`Reaches`, `mem_filesBelow_iff`).  In a well-named tree these are
the files at the directory joined with the names (`reaches_iff`), so that `expand` gives the paths
that an argument stands for (`mem_expand_iff`).
-/

namespace TypeAssertions.Discovery

open FileTree TypeAssertions.Path

/-- Names lead from entries down to a file, through no directory that is passed over. -/
inductive Reaches : List (String × Entry) → List String → Prop
  | file {entries : List (String × Entry)} {name : String} {content : List UInt8}
      (member : (name, .file content) ∈ entries) : Reaches entries [name]
  | directory {entries inner : List (String × Entry)} {name : String} {names : List String}
      (member : (name, .directory inner) ∈ entries) (kept : isSkipped name = false)
      (below : Reaches inner names) : Reaches entries (name :: names)

variable {t : FileTree} {wanted : Path → Bool} {p q : Path}
  {entries rest : List (String × Entry)} {name : String} {names d : List String} {e : Entry}

theorem reaches_cons_iff :
  Reaches ((name, e) :: rest) names
    ↔ (∃ content, e = .file content ∧ names = [name])
      ∨ (∃ inner below, e = .directory inner ∧ isSkipped name = false ∧ Reaches inner below
        ∧ names = name :: below)
      ∨ Reaches rest names
  := by
  constructor
  · rintro (member | ⟨member, kept, below⟩)
    · rcases List.mem_cons.1 member with same | member
      · obtain ⟨rfl, rfl⟩ := Prod.mk.inj same
        left
        exact ⟨_, rfl, rfl⟩
      · right
        right
        apply Reaches.file member
    · rcases List.mem_cons.1 member with same | member
      · obtain ⟨rfl, rfl⟩ := Prod.mk.inj same
        right
        left
        exact ⟨_, _, rfl, kept, below, rfl⟩
      · right
        right
        apply Reaches.directory member kept below
  · rintro (⟨content, rfl, rfl⟩ | ⟨inner, below, rfl, kept, reaches, rfl⟩ | reaches)
    · apply Reaches.file List.mem_cons_self
    · apply Reaches.directory List.mem_cons_self kept reaches
    · cases reaches with
      | file member => apply Reaches.file (List.mem_cons_of_mem _ member)
      | directory member kept below =>
        apply Reaches.directory (List.mem_cons_of_mem _ member) kept below

mutual

/-- The walk finds the files to which names lead, at the path followed by the names. -/
theorem mem_filesBelow_iff (p : Path) (entries : List (String × Entry)) :
  q ∈ filesBelow p entries ↔ ∃ names, Reaches entries names ∧ q = names.foldl Path.child p
  := by
  cases entries with
  | nil =>
    simp only [filesBelow, List.not_mem_nil, false_iff]
    rintro ⟨names, reaches, -⟩
    cases reaches with
    | file member => cases member
    | directory member => cases member
  | cons entry rest =>
    obtain ⟨name, e⟩ := entry
    rw [filesBelow, List.mem_append, mem_filesBelow_iff p rest, mem_filesOf_iff p name e]
    simp only [reaches_cons_iff, or_and_right, exists_or]
    rw [or_assoc]
    apply or_congr
    · constructor
      · rintro ⟨content, rfl, rfl⟩
        exact ⟨[name], ⟨content, rfl, rfl⟩, rfl⟩
      · rintro ⟨_, ⟨content, rfl, rfl⟩, rfl⟩
        exact ⟨content, rfl, rfl⟩
    · apply or_congr_left
      constructor
      · rintro ⟨inner, below, rfl, kept, reaches, rfl⟩
        exact ⟨name :: below, ⟨inner, below, rfl, kept, reaches, rfl⟩, rfl⟩
      · rintro ⟨_, ⟨inner, below, rfl, kept, reaches, rfl⟩, rfl⟩
        exact ⟨inner, below, rfl, kept, reaches, rfl⟩

theorem mem_filesOf_iff (p : Path) (name : String) (e : Entry) :
  q ∈ (if e.isDirectory && isSkipped name then [] else filesAt (p.child name) e)
    ↔ (∃ content, e = .file content ∧ q = p.child name)
      ∨ ∃ inner below, e = .directory inner ∧ isSkipped name = false ∧ Reaches inner below
        ∧ q = below.foldl Path.child (p.child name)
  := by
  cases e with
  | file content => simp [filesAt, Entry.isDirectory]
  | directory inner =>
    cases kept : isSkipped name with
    | true => simp [Entry.isDirectory]
    | false =>
      simp only [Entry.isDirectory, Bool.and_false, Bool.false_eq_true, if_false, filesAt,
        mem_filesBelow_iff (p.child name) inner]
      simp

end

/-! ### What names lead to -/

/-- In a well-named tree, names that lead down to a file do so when they are followed. -/
theorem reaches_iff (named : (Entry.directory entries).WellNamed) :
  Reaches entries names
    ↔ names ≠ [] ∧ (∀ name ∈ names, IsName name)
      ∧ (∃ content, follow? (.directory entries) names = some (.file content))
      ∧ ∀ name ∈ names.dropLast, isSkipped name = false
  := by
  induction names generalizing entries with
  | nil =>
    simp only [ne_eq, not_true_eq_false, false_and, iff_false]
    rintro ⟨⟩
  | cons name names ih =>
    constructor
    · rintro (member | ⟨member, kept, below⟩)
      · obtain ⟨proper, -⟩ := named.of_mem member
        refine ⟨List.cons_ne_nil _ _, List.forall_mem_singleton.2 proper, ?_, ?_⟩
        · rw [follow?, named.lookup.2 member]
          exact ⟨_, rfl⟩
        · simp
      · obtain ⟨proper, inner_named⟩ := named.of_mem member
        obtain ⟨nonempty, further, found, others⟩ := (ih inner_named).1 below
        refine ⟨List.cons_ne_nil _ _, List.forall_mem_cons.2 ⟨proper, further⟩, ?_, ?_⟩
        · rw [follow?, named.lookup.2 member]
          apply found
        · rw [List.dropLast_cons_of_ne_nil nonempty]
          rw [List.forall_mem_cons]
          use kept
    · rintro ⟨-, proper, ⟨content, found⟩, kept⟩
      rw [follow?, Option.bind_eq_some_iff] at found
      obtain ⟨e, held, found⟩ := found
      have member := named.lookup.1 held
      by_cases last : names = []
      · subst last
        obtain rfl := Option.some.inj found
        apply Reaches.file member
      · rw [List.dropLast_cons_of_ne_nil last] at kept
        obtain ⟨kept, others⟩ := List.forall_mem_cons.1 kept
        cases e with
        | file => cases names with
          | nil => cases last rfl
          | cons => cases found
        | directory inner =>
          apply Reaches.directory member kept
          apply (ih (named.of_mem member).2).2
          exact ⟨last, (List.forall_mem_cons.1 proper).2, ⟨content, found⟩, others⟩

/-- Names one after the other are joined to a path. -/
theorem foldl_child (spelled : p.chars ≠ []) (proper : ∀ name ∈ names, IsName name)
    (nonempty : names ≠ []) :
  names.foldl Path.child p = p.join (ofNames names)
  := by
  induction names generalizing p with
  | nil => cases nonempty rfl
  | cons name names ih =>
    rw [List.foldl_cons]
    by_cases last : names = []
    · rw [last, List.foldl_nil, child_eq_join]
    · have child : (p.child name).chars ≠ [] := by
        have first := List.forall_mem_singleton.2 (proper name List.mem_cons_self)
        rw [child_eq_join, chars_join spelled (isAbsolute_ofNames first)]
        simp
      rw [ih child (List.forall_mem_cons.1 proper).2 last, join_child spelled proper last]

/-! ### What an argument stands for -/

/-- The files that an argument stands for: a file stands for itself, and a directory for the files
below it at a path that is wanted, unless a directory on the way down is passed over. -/
inductive StandsFor (t : FileTree) (wanted : Path → Bool) : Path → Path → Prop
  | file {p : Path} (is_file : t.isFile p = true) : StandsFor t wanted p p
  | below {p : Path} {names : List String} (directory : t.isDirectory p = true)
      (nonempty : names ≠ []) (proper : ∀ name ∈ names, IsName name)
      (is_file : t.isFile (p.join (ofNames names)) = true)
      (matched : wanted (ofNames names) = true)
      (kept : ∀ name ∈ names.dropLast, isSkipped name = false) :
      StandsFor t wanted p (p.join (ofNames names))

theorem isFile_iff :
  t.isFile p = true ↔ ∃ content, t.entry? p = some (.file content)
  := by
  rw [FileTree.isFile]
  split <;> simp_all

theorem isDirectory_iff :
  t.isDirectory p = true ↔ ∃ entries, t.entry? p = some (.directory entries)
  := by
  rw [FileTree.isDirectory]
  split <;> simp_all

theorem entry?_eq_some_iff :
  t.entry? p = some e ↔ ∃ d, t.locate p = .ok d ∧ t.entryAt? d = some e
  := by
  rw [FileTree.entry?]
  cases t.locate p with
  | error => simp
  | ok d => simp

/-- Below a directory, what names lead to is a file when they are joined to the directory. -/
theorem isFile_join_iff (directory : t.entry? p = some (.directory entries))
    (proper : ∀ name ∈ names, IsName name) (nonempty : names ≠ []) :
  t.isFile (p.join (ofNames names)) = true
    ↔ ∃ content, follow? (.directory entries) names = some (.file content)
  := by
  obtain ⟨d, located, there⟩ := entry?_eq_some_iff.1 directory
  have below : t.entryAt? (d ++ names) = follow? (.directory entries) names := by
    rw [entryAt?_append, there, Option.bind_some]
  rw [isFile_iff]
  apply exists_congr
  intro content
  simp only [entry?_eq_some_iff, locate_join_iff located (by simp [there]) proper nonempty]
  constructor
  · rintro ⟨_, ⟨rfl, -⟩, found⟩
    rw [← below, found]
  · intro found
    use d ++ names, ⟨rfl, ?_⟩
    · rw [below, found]
    · rw [below, found]
      rfl

/-- The walk from a directory finds the files that it stands for. -/
theorem mem_filter_filesBelow_iff (named : t.WellNamed)
    (directory : t.entry? p = some (.directory entries)) :
  q ∈ ((filesBelow p entries).filter fun file =>
      wanted ((file.relativeTo? p).getD file))
    ↔ StandsFor t wanted p q
  := by
  obtain ⟨d, located, there⟩ := entry?_eq_some_iff.1 directory
  have spelled := spelled_of_locate located
  have held : t.isDirectory p = true := isDirectory_iff.2 ⟨entries, directory⟩
  rw [List.mem_filter, mem_filesBelow_iff]
  constructor
  · rintro ⟨⟨names, reaches, rfl⟩, matched⟩
    obtain ⟨nonempty, proper, found, kept⟩ := (reaches_iff (named.entryAt? there)).1 reaches
    rw [foldl_child spelled proper nonempty] at matched ⊢
    rw [relativeTo?_join spelled proper nonempty, Option.getD_some] at matched
    have is_file := (isFile_join_iff directory proper nonempty).2 found
    apply StandsFor.below held nonempty proper is_file matched kept
  · rintro (is_file | ⟨-, nonempty, proper, is_file, matched, kept⟩)
    · obtain ⟨content, file⟩ := isFile_iff.1 is_file
      rw [directory] at file
      cases file
    · have found := (isFile_join_iff directory proper nonempty).1 is_file
      have reaches := (reaches_iff (named.entryAt? there)).2 ⟨nonempty, proper, found, kept⟩
      constructor
      · exact ⟨_, reaches, (foldl_child spelled proper nonempty).symm⟩
      · rw [relativeTo?_join spelled proper nonempty, Option.getD_some]
        apply matched

theorem mem_expand_iff (named : t.WellNamed) {files : List Path}
    (h : expand t wanted p = .ok files) :
  q ∈ files ↔ StandsFor t wanted p q
  := by
  rw [expand] at h
  split at h
  case h_1 => cases h
  case h_2 content found =>
    obtain rfl := Except.ok.inj h
    rw [List.mem_singleton]
    constructor
    · rintro rfl
      apply StandsFor.file (isFile_iff.2 ⟨content, found⟩)
    · rintro (- | ⟨directory, -⟩)
      · rfl
      · obtain ⟨entries, directory⟩ := isDirectory_iff.1 directory
        rw [found] at directory
        cases directory
  case h_3 entries found =>
    obtain rfl := Except.ok.inj h
    apply mem_filter_filesBelow_iff named found

/-- Only what is neither a file nor a directory stands for nothing. -/
theorem expand_eq_error_iff {e : Missing} :
  expand t wanted p = .error e
    ↔ t.isFile p = false ∧ t.isDirectory p = false ∧ e = ⟨p⟩
  := by
  rw [expand, FileTree.isFile, FileTree.isDirectory]
  cases t.entry? p with
  | none => simp [eq_comm]
  | some x => cases x <;> simp

end TypeAssertions.Discovery
