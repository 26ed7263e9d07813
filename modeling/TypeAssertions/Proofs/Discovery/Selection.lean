import Mathlib.Data.List.Sort
import TypeAssertions.Glob.Match
import TypeAssertions.Proofs.Discovery.Walk

/-!
# The selection of test files

`discoverBy` fails when an argument is neither a file nor a directory.  Otherwise its result has, of
all files that the arguments stand for, one path of each kind of equivalent paths, in increasing
order, and nothing else (`discover_selection`).  So it depends on the set of the arguments alone.
-/

namespace TypeAssertions.Discovery

open FileTree TypeAssertions.Path

variable {t : FileTree} {wanted : Path → Bool} {paths files others : List Path}
  {p q : Path}

/-! ### Dropping repetitions -/

theorem dropRepeatedAfter_sublist (p : Path) (paths : List Path) :
  (dropRepeatedAfter p paths).Sublist paths
  := by
  induction paths generalizing p with
  | nil => apply List.Sublist.refl
  | cons q rest ih =>
    rw [dropRepeatedAfter]
    split
    · apply List.Sublist.cons
      apply ih
    · apply List.Sublist.cons_cons
      apply ih

theorem dropRepeated_sublist (paths : List Path) :
  (dropRepeated paths).Sublist paths
  := by
  cases paths with
  | nil => apply List.Sublist.refl
  | cons p rest => apply List.Sublist.cons_cons _ (dropRepeatedAfter_sublist p rest)

/-- A path that is dropped is equivalent to one that is kept. -/
theorem exists_mem_dropRepeatedAfter (member : q ∈ p :: paths) :
  ∃ r ∈ p :: dropRepeatedAfter p paths, r.equivalent q = true
  := by
  induction paths generalizing p with
  | nil =>
    obtain rfl := List.mem_singleton.1 member
    use q, List.mem_cons_self, equivalent_refl q
  | cons first rest ih =>
    rw [dropRepeatedAfter]
    rcases List.mem_cons.1 member with rfl | member
    · use q, List.mem_cons_self, equivalent_refl q
    · split
      case isTrue same =>
        rcases List.mem_cons.1 member with rfl | member
        · use p, List.mem_cons_self, same
        · apply ih (List.mem_cons_of_mem p member)
      case isFalse =>
        obtain ⟨r, kept, same⟩ := ih member
        use r, List.mem_cons_of_mem p kept, same

theorem exists_mem_dropRepeated (member : q ∈ paths) :
  ∃ r ∈ dropRepeated paths, r.equivalent q = true
  := by
  cases paths with
  | nil => cases member
  | cons p rest => apply exists_mem_dropRepeatedAfter member

/-! ### Lists in increasing order -/

instance : Std.TransCmp compareComponents := by
  rw [compareComponents_eq_compareLex]
  infer_instance

instance : Std.Irrefl fun a b => compareComponents a b = .lt where
  irrefl a before := by
    have same : compareComponents a a = .eq := Std.ReflCmp.compare_self
    rw [same] at before
    cases before

instance : Std.Antisymm fun a b => compareComponents a b = .lt where
  antisymm a b before after := by
    have swapped : compareComponents a b = (compareComponents b a).swap :=
      Std.OrientedCmp.eq_swap
    rw [swapped, after] at before
    cases before

/-- Lists in increasing order are equivalent when each path of one has an equivalent in the other
one. -/
theorem forall₂_equivalent (increasing : files.Pairwise fun p q => p.order q = .lt)
    (increasing' : others.Pairwise fun p q => p.order q = .lt)
    (there : ∀ p ∈ files, ∃ q ∈ others, q.equivalent p = true)
    (back : ∀ q ∈ others, ∃ p ∈ files, p.equivalent q = true) :
  List.Forall₂ (fun p q => p.equivalent q = true) files others
  := by
  simp only [equivalent, decide_eq_true_eq] at there back ⊢
  have same : files.map Path.components = others.map Path.components := by
    have sorted : (files.map Path.components).Pairwise fun a b => compareComponents a b = .lt :=
      List.pairwise_map.2 increasing
    have sorted' : (others.map Path.components).Pairwise fun a b => compareComponents a b = .lt :=
      List.pairwise_map.2 increasing'
    apply sorted.eq_of_mem_iff sorted'
    intro components
    simp only [List.mem_map]
    constructor
    · rintro ⟨p, member, rfl⟩
      apply there p member
    · rintro ⟨q, member, rfl⟩
      apply back q member
  rw [← List.forall₂_eq_eq_eq, List.forall₂_map_left_iff, List.forall₂_map_right_iff] at same
  apply same

/-! ### Test files -/

theorem discoverBy_eq_ok_iff :
  discoverBy t wanted paths = .ok files
    ↔ ∃ found, List.Forall₂ (fun p some_files => expand t wanted p = .ok some_files) paths found
      ∧ dropRepeated (found.flatten.mergeSort Path.le) = files
  := by
  simp only [discoverBy, Except.bind_eq_ok_iff, Except.pure_eq_ok_iff, Except.mapM_eq_ok_iff]

theorem exists_discoverBy_eq_error_iff :
  (∃ e, discoverBy t wanted paths = .error e)
    ↔ ∃ p ∈ paths, t.isFile p = false ∧ t.isDirectory p = false
  := by
  have failed : (∃ e, discoverBy t wanted paths = .error e)
      ↔ ∃ e, paths.mapM (expand t wanted) = .error e := by
    rw [discoverBy]
    cases paths.mapM (expand t wanted) with
    | error e => simp [bind, Except.bind]
    | ok found => simp [bind, Except.bind, pure, Except.pure]
  rw [failed, Except.exists_mapM_eq_error_iff]
  simp only [expand_eq_error_iff, exists_and_left, exists_eq, and_true]

theorem mem_flatten_iff (named : t.WellNamed) {found : List (List Path)}
    (h : List.Forall₂ (fun p some_files => expand t wanted p = .ok some_files) paths found) :
  q ∈ found.flatten ↔ ∃ p ∈ paths, StandsFor t wanted p q
  := by
  induction h with
  | nil => simp
  | cons first _ ih =>
    rw [List.flatten_cons, List.mem_append, ih, mem_expand_iff named first,
      List.exists_mem_cons_iff]

/-- The test files are files that arguments stand for, and there is one equivalent to each of
these. -/
theorem mem_discoverBy (named : t.WellNamed) (h : discoverBy t wanted paths = .ok files) :
  (∀ q ∈ files, ∃ p ∈ paths, StandsFor t wanted p q)
    ∧ ∀ p ∈ paths, ∀ q, StandsFor t wanted p q → ∃ r ∈ files, r.equivalent q = true
  := by
  obtain ⟨found, expanded, rfl⟩ := discoverBy_eq_ok_iff.1 h
  constructor
  · intro q member
    have sorted := (dropRepeated_sublist _).subset member
    rw [List.mem_mergeSort, mem_flatten_iff named expanded] at sorted
    apply sorted
  · intro p member q stands
    apply exists_mem_dropRepeated
    rw [List.mem_mergeSort, mem_flatten_iff named expanded]
    use p, member

/-- Arguments that name the same paths, in any order and any number of times, give equivalent test
files. -/
theorem exists_discoverBy_of_mem_iff (named : t.WellNamed)
    (h : discoverBy t wanted paths = .ok files) (same : ∀ p, p ∈ others ↔ p ∈ paths) :
  ∃ files', discoverBy t wanted others = .ok files'
    ∧ List.Forall₂ (fun p q => p.equivalent q = true) files files'
  := by
  cases h' : discoverBy t wanted others with
  | error e =>
    have failed : ∃ e, discoverBy t wanted others = .error e := ⟨e, h'⟩
    simp only [exists_discoverBy_eq_error_iff, same] at failed
    rw [← exists_discoverBy_eq_error_iff, h] at failed
    obtain ⟨_, failed⟩ := failed
    cases failed
  | ok files' =>
    obtain ⟨from_args, all⟩ := mem_discoverBy named h
    obtain ⟨from_args', all'⟩ := mem_discoverBy named h'
    use files', rfl
    apply forall₂_equivalent (pairwise_discoverBy h) (pairwise_discoverBy h')
    · intro q member
      obtain ⟨p, argument, stands⟩ := from_args q member
      apply all' p ((same p).2 argument) q stands
    · intro q member
      obtain ⟨p, argument, stands⟩ := from_args' q member
      apply all p ((same p).1 argument) q stands

/-- In a well-named tree discovery fails exactly when an argument is neither a file nor a directory.
Otherwise it gives files in increasing order: those that the arguments stand for, one for all that
are equivalent.  It gives equivalent files for arguments that are the same in another order and with
repetitions. -/
theorem discover_selection (named : t.WellNamed) (wanted : Path → Bool)
    (paths : List Path) :
  ((∃ e, discoverBy t wanted paths = .error e)
      ↔ ∃ p ∈ paths, t.isFile p = false ∧ t.isDirectory p = false)
    ∧ ∀ files, discoverBy t wanted paths = .ok files →
      (files.Pairwise fun p q => p.order q = .lt)
      ∧ (∀ q ∈ files, ∃ p ∈ paths, StandsFor t wanted p q)
      ∧ (∀ p ∈ paths, ∀ q, StandsFor t wanted p q → ∃ r ∈ files, r.equivalent q = true)
      ∧ ∀ others, (∀ p, p ∈ others ↔ p ∈ paths) →
        ∃ files', discoverBy t wanted others = .ok files'
          ∧ List.Forall₂ (fun p q => p.equivalent q = true) files files'
  := by
  use exists_discoverBy_eq_error_iff
  intro files h
  obtain ⟨from_args, all⟩ := mem_discoverBy named h
  use pairwise_discoverBy h, from_args, all
  intro others
  apply exists_discoverBy_of_mem_iff named h

/-! ### Hidden files and directories -/

/-- A tree with a hidden file and a hidden directory, and with dependencies below a directory. -/
def hiddenTree : FileTree where
  entries :=
    [("a", .directory
        [(".x.ts", .file []), (".h", .directory [("y.ts", .file [])]),
          ("node_modules", .directory [("z.ts", .file [])])])]
  workingDirectory := []

/-- The pattern of all files with an extension. -/
def scriptPattern : List Glob.Token :=
  [.leadingDirectories, .many, .literal '.', .literal 't', .literal 's']

/-- The paths of all files with the extension. -/
def scripts : Path → Bool := Glob.anyMatches [scriptPattern]

theorem wellNamed_hiddenTree :
  hiddenTree.WellNamed
  := by
  simp only [FileTree.WellNamed, hiddenTree, Entry.WellNamed, EntriesWellNamed]
  decide

/-- A hidden file is found, a file in a hidden directory is not, and dependencies are found when
their directory is an argument. -/
theorem discover_hidden :
  discoverBy hiddenTree scripts [⟨"a"⟩, ⟨"a"⟩, ⟨"a/node_modules"⟩]
    = .ok [⟨"a/.x.ts"⟩, ⟨"a/node_modules/z.ts"⟩]
  := by
  have below : expand hiddenTree scripts ⟨"a"⟩ = .ok [⟨"a/.x.ts"⟩] := by
    decide
  have dependencies : expand hiddenTree scripts ⟨"a/node_modules"⟩
      = .ok [⟨"a/node_modules/z.ts"⟩] := by
    decide
  let found : List (List Path) := [[⟨"a/.x.ts"⟩], [⟨"a/.x.ts"⟩], [⟨"a/node_modules/z.ts"⟩]]
  have sorted : found.flatten.Pairwise fun p q => p.le q = true := by
    decide
  rw [discoverBy_eq_ok_iff]
  use found, .cons below (.cons below (.cons dependencies .nil))
  rw [List.mergeSort_of_pairwise sorted]
  decide

/-- The directories of the last run, in another order and without repetition, give equivalent
files. -/
theorem discover_selection_hidden :
  hiddenTree.WellNamed
    ∧ (∃ p, StandsFor hiddenTree scripts p ⟨"a/node_modules/z.ts"⟩)
    ∧ ∃ files, discoverBy hiddenTree scripts [⟨"a/node_modules"⟩, ⟨"a"⟩] = .ok files
      ∧ List.Forall₂ (fun (p q : Path) => p.equivalent q = true)
        [⟨"a/.x.ts"⟩, ⟨"a/node_modules/z.ts"⟩] files
  := by
  obtain ⟨-, selected, -, others⟩ :=
    (discover_selection wellNamed_hiddenTree _ _).2 _ discover_hidden
  obtain ⟨p, -, stands⟩ := selected ⟨"a/node_modules/z.ts"⟩ (by simp)
  refine ⟨wellNamed_hiddenTree, ⟨p, stands⟩, ?_⟩
  apply others
  intro p
  simp [or_comm]

end TypeAssertions.Discovery
