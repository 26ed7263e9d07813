import TypeAssertions.Proofs.Discovery.Order
import TypeAssertions.Proofs.Insertion
import TypeAssertions.Proofs.Path.Relative
import TypeAssertions.Proofs.Run.Status

/-!
# The report of a run as JSON

The report has one member for each path that is displayed, which says what checking the last file
displayed so gave.  So nothing is lost when all files are displayed differently, and only then.
Files are, unless there are backslashes in their paths or some paths start at the root and others
do not: `report_members` says this, and in `report_members_overwritten` a file whose name has a
backslash takes the place of another one that failed.
-/

namespace TypeAssertions

open Json (Value)

namespace Report

/-- Members keep what checking files gave: there is one for each file, and what is there under the
path of a file is what checking that file gave. -/
def Keeps (base : Path) (runs : List FileRun) (members : List (String × Value)) : Prop :=
  members.length = runs.length ∧ ∀ r ∈ runs, (r.file.display base, entry r) ∈ members

/-- The members of a report are what checking the last files displayed under their names gave. -/
theorem mem_entries_members_iff (base : Path) (runs : List FileRun) (name : String)
    (value : Value) :
  (name, value) ∈ (members base runs).entries
    ↔ ∃ r, entry r = value ∧ r.file.display base = name
      ∧ ∃ before after, runs = before ++ r :: after
        ∧ ∀ later ∈ after, later.file.display base ≠ name
  := by
  rw [OrderedMap.mem_entries_iff]
  apply OrderedMap.get?_ofList_map_eq_some_iff

theorem keeps_members_iff (base : Path) (runs : List FileRun) :
  Keeps base runs (members base runs).entries
    ↔ (runs.map fun r => r.file.display base).Nodup
  := by
  have full := OrderedMap.length_entries_ofList_eq_iff
    (runs.map fun r => (r.file.display base, entry r))
  rw [List.length_map, List.map_map] at full
  constructor
  · rintro ⟨count, -⟩
    apply full.1 count
  · intro distinct
    use full.2 distinct
    intro r member
    rw [mem_entries_members_iff]
    obtain ⟨before, after, rfl⟩ := List.append_of_mem member
    use r, rfl, rfl, before, after, rfl
    rw [List.map_append, List.map_cons, List.nodup_append, List.nodup_cons] at distinct
    intro later found same
    apply distinct.2.1.1
    rw [← same]
    apply List.mem_map_of_mem found

end Report

theorem FileTree.isAbsolute_workingPath (t : FileTree) :
  t.workingPath.isAbsolute = true
  := by
  simp [workingPath, pathOf, Path.isAbsolute, Path.chars]

/-- Test files without backslashes in their paths are displayed differently when all of their paths
start at the root or none does. -/
theorem CommandLine.nodup_display {c : CommandLine} {t : FileTree} {files : List Path}
    (found : c.testFiles t = .ok files) (plain : ∀ file ∈ files, '\\' ∉ file.chars)
    (alike : ∀ p ∈ files, ∀ q ∈ files, p.isAbsolute = q.isAbsolute) :
  (files.map fun file => file.display t.workingPath).Nodup
  := by
  simp only [testFiles, Except.bind_eq_ok_iff, Except.mapError_eq_ok_iff] at found
  obtain ⟨patterns, -, discovered⟩ := found
  rw [List.Nodup, List.pairwise_map]
  apply (Discovery.pairwise_discoverBy discovered).imp_of_mem
  intro p q member_p member_q before same
  have equivalent := Path.equivalent_of_display_eq t.isAbsolute_workingPath (plain p member_p)
    (plain q member_q) (alike p member_p q member_q) same
  rw [← Path.order_eq_eq_iff, before] at equivalent
  cases equivalent

/-- A run that reports as JSON prints an object whose names are the displayed paths of its test
files, with what checking the last file of each path gave.  This keeps what checking all files gave
exactly when no two of them are displayed alike, and so whenever there are no backslashes in their
paths and either all of these start at the root or none does. -/
theorem report_members (c : CommandLine) (t : FileTree) (launch : Launcher) (files : List Path)
    (json : c.format = .json) (found : c.testFiles t = .ok files) (nonempty : files ≠ []) :
  let base := t.workingPath
  let runs := c.checkAll t launch files
  ∃ transcript members, run c t launch = .ok transcript
    ∧ transcript.output = (Value.object members).pretty ++ "\n"
    ∧ members.map Prod.fst = (files.map fun file => file.display base).eraseDups
    ∧ (∀ name value, (name, value) ∈ members
      ↔ ∃ r, Report.entry r = value ∧ r.file.display base = name
        ∧ ∃ before after, runs = before ++ r :: after
          ∧ ∀ later ∈ after, later.file.display base ≠ name)
    ∧ (Report.Keeps base runs members ↔ (files.map fun file => file.display base).Nodup)
    ∧ ((∀ file ∈ files, '\\' ∉ file.chars) →
      (∀ p ∈ files, ∀ q ∈ files, p.isAbsolute = q.isAbsolute) → Report.Keeps base runs members)
  := by
  intro base runs
  have names : runs.map (fun r => r.file.display base) = files.map fun file => file.display base :=
    List.map_map
  have keeps := Report.keeps_members_iff base runs
  rw [names] at keeps
  refine ⟨_, (Report.members base runs).entries, run_of_testFiles launch found nonempty, ?_, ?_,
    Report.mem_entries_members_iff base runs, keeps, ?_⟩
  · rw [reportOf, json]
    rfl
  · have keys := OrderedMap.keys_ofList (runs.map fun r => (r.file.display base, Report.entry r))
    rw [List.map_map] at keys
    rw [← names]
    apply keys
  · intro plain alike
    apply keeps.2 (CommandLine.nodup_display found plain alike)

/-! ### A file in the place of another -/

/-- The text of a snapshot with an error in a file that is not part of it. -/
def failingText : String :=
  "\x7b\"files\":[],\"semanticDiagnostics\":"
    ++ "[\x7b\"file\":\"a.ts\",\"messageText\":\"m\",\"code\":1\x7d]\x7d"

/-- A tree with three test files: one in a directory fails, one with a backslash in its name passes,
and one has no snapshot. -/
def slashTree : FileTree where
  entries :=
    [("a", .directory
        [("b.test-d.ts", .file []),
          ("b.test-d.ts.check.json", .file (Text.Utf8.encode failingText.toList))]),
      ("a\\b.test-d.ts", .file []),
      ("a\\b.test-d.ts.check.json", .file (Text.Utf8.encode "\x7b\"files\":[]\x7d".toList)),
      ("c.test-d.ts", .file [])]
  workingDirectory := []

/-- The command line that names test files and asks for a report as JSON. -/
def reportLine (paths : List Path) : CommandLine := ⟨paths, none, none, [], .json, true, none⟩

theorem testFiles_reportLine {files : List Path} (named : ∀ p ∈ files, slashTree.isFile p = true)
    (ordered : files.Pairwise fun p q => p.order q = .lt) :
  (reportLine files).testFiles slashTree = .ok files
  := by
  have standard : (Glob.patternsOf []).isOk = true := by
    decide
  cases read : Glob.patternsOf [] with
  | error e =>
    rw [read] at standard
    cases standard
  | ok patterns =>
    simp only [CommandLine.testFiles, Except.bind_eq_ok_iff, Except.mapError_eq_ok_iff]
    use patterns, read
    apply Discovery.discoverBy_of_isFile named ordered

/-- The report on the file that fails and the one without a snapshot keeps both. -/
theorem report_members_kept :
  let files : List Path := [⟨"a/b.test-d.ts"⟩, ⟨"c.test-d.ts"⟩]
  let runs := (reportLine files).checkAll slashTree noPrograms files
  (reportLine files).testFiles slashTree = .ok files
    ∧ (∀ file ∈ files, '\\' ∉ file.chars)
    ∧ (∀ p ∈ files, ∀ q ∈ files, p.isAbsolute = q.isAbsolute)
    ∧ ∃ transcript members, run (reportLine files) slashTree noPrograms = .ok transcript
      ∧ transcript.output = (Value.object members).pretty ++ "\n"
      ∧ Report.Keeps slashTree.workingPath runs members
  := by
  intro files runs
  have found : (reportLine files).testFiles slashTree = .ok files := by
    apply testFiles_reportLine <;> decide +kernel
  have plain : ∀ file ∈ files, '\\' ∉ file.chars := by
    decide +kernel
  have alike : ∀ p ∈ files, ∀ q ∈ files, p.isAbsolute = q.isAbsolute := by
    decide +kernel
  obtain ⟨transcript, members, ran, printed, -, -, -, keeps⟩ :=
    report_members (reportLine files) slashTree noPrograms files rfl found (List.cons_ne_nil _ _)
  use found, plain, alike, transcript, members, ran, printed
  apply keeps plain alike

/-- The report on the file that fails and the one with a backslash in its name has a single member,
which says that nothing was found, although the run ends with failures. -/
theorem report_members_overwritten :
  let files : List Path := [⟨"a/b.test-d.ts"⟩, ⟨"a\\b.test-d.ts"⟩]
  let runs := (reportLine files).checkAll slashTree noPrograms files
  let members := [("a/b.test-d.ts", (Outcome.completed 0 []).toJson)]
  (reportLine files).testFiles slashTree = .ok files
    ∧ (∃ transcript, run (reportLine files) slashTree noPrograms = .ok transcript
      ∧ transcript.status = .failures
      ∧ transcript.output = (Value.object members).pretty ++ "\n")
    ∧ ¬ Report.Keeps slashTree.workingPath runs members
  := by
  intro files runs members
  have found : (reportLine files).testFiles slashTree = .ok files := by
    apply testFiles_reportLine <;> decide +kernel
  have failures : statusOf runs = .failures := by
    decide +kernel
  have single : (Report.members slashTree.workingPath runs).entries = members := by
    decide +kernel
  have ran := run_of_testFiles noPrograms found (List.cons_ne_nil _ _)
  refine ⟨found, ⟨_, ran, failures, ?_⟩, ?_⟩
  · rw [← single]
    rfl
  · rintro ⟨count, -⟩
    cases count

end TypeAssertions
