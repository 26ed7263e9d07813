import TypeAssertions.Proofs.Discovery.Selection
import TypeAssertions.Proofs.Path.Targets
import TypeAssertions.Proofs.Run.Status

/-!
# Files that are tested more than once

Test files are told apart by the components of their paths, not by what these denote.  A file is
tested once when the arguments are `Aligned`, that is when they overlap only as they are spelled:
for instance when their components are all names.  In general `testFiles_targets` says which
arguments repeat a file, and in `testFiles_targets_repeated` a file is checked and counted twice
because an argument names it and another one is the directory that holds it.
-/

namespace TypeAssertions

open FileTree

namespace Discovery

variable {t : FileTree} {wanted : Path → Bool} {paths files : List Path}
  {p q r s : Path}

/-! ### What arguments lead to -/

theorem locate_of_isFile (h : t.isFile p = true) :
  t.locate p = .ok (t.target p) ∧ ∃ content, t.entryAt? (t.target p) = some (.file content)
  := by
  obtain ⟨content, found⟩ := isFile_iff.1 h
  obtain ⟨d, located, file⟩ := entry?_eq_some_iff.1 found
  rw [target_of_locate located]
  use located, content

theorem StandsFor.isFile (h : StandsFor t wanted p q) :
  t.isFile q = true
  := by
  cases h with
  | file is_file => apply is_file
  | below _ _ _ is_file => apply is_file

/-- What an argument stands for goes down from it, as it is spelled and in the tree. -/
theorem StandsFor.exists_names (h : StandsFor t wanted p q) :
  ∃ names : List String, q.components = p.components ++ names.map .name
    ∧ t.target q = t.target p ++ names
  := by
  cases h with
  | file =>
    use []
    simp
  | @below names directory nonempty proper =>
    obtain ⟨entries, found⟩ := isDirectory_iff.1 directory
    obtain ⟨d, located, -⟩ := entry?_eq_some_iff.1 found
    have spelled := spelled_of_locate located
    use names, Path.components_join spelled proper nonempty, target_join spelled proper nonempty

/-! ### Repetition -/

/-- No file is tested twice exactly when the files that arguments stand for are equivalent whenever
they have the same target. -/
theorem nodup_targets_iff (named : t.WellNamed) (h : discoverBy t wanted paths = .ok files) :
  (files.map t.target).Nodup
    ↔ ∀ p ∈ paths, ∀ q ∈ paths, ∀ r s, StandsFor t wanted p r → StandsFor t wanted q s →
      t.target r = t.target s → r.equivalent s = true
  := by
  obtain ⟨from_args, all⟩ := mem_discoverBy named h
  simp only [Path.equivalent, decide_eq_true_eq] at all ⊢
  constructor
  · intro distinct p argument q argument' r s stands stands' same
    obtain ⟨r', member, like⟩ := all p argument r stands
    obtain ⟨s', member', like'⟩ := all q argument' s stands'
    have targets : t.target r' = t.target s' := by
      rw [target_eq_of_components_eq like, same, target_eq_of_components_eq like']
    rw [← like, ← like', List.inj_on_of_nodup_map distinct member member' targets]
  · intro only
    rw [List.Nodup, List.pairwise_map]
    apply (pairwise_discoverBy h).imp_of_mem
    intro r s member member' before same
    obtain ⟨p, argument, stands⟩ := from_args r member
    obtain ⟨q, argument', stands'⟩ := from_args s member'
    have equivalent : r.equivalent s = true :=
      decide_eq_true (only p argument q argument' r s stands stands' same)
    rw [← Path.order_eq_eq_iff, before] at equivalent
    cases equivalent

/-- Paths overlap only as they are spelled: one whose target is below that of another one is spelled
as that one with the names that lead down. -/
def Aligned (t : FileTree) (paths : List Path) : Prop :=
  ∀ p ∈ paths, ∀ q ∈ paths, ∀ names : List String, t.target q = t.target p ++ names →
    q.components = p.components ++ names.map .name

/-- What aligned arguments stand for is told apart by its target. -/
theorem Aligned.equivalent (aligned : Aligned t paths) (argument : p ∈ paths)
    (argument' : q ∈ paths) (stands : StandsFor t wanted p r) (stands' : StandsFor t wanted q s)
    (same : t.target r = t.target s) :
  r.equivalent s = true
  := by
  obtain ⟨names, spelled, leads⟩ := stands.exists_names
  obtain ⟨names', spelled', leads'⟩ := stands'.exists_names
  rw [Path.equivalent, decide_eq_true_eq, spelled, spelled']
  rw [leads, leads', List.append_eq_append_iff] at same
  -- the arguments are above the same file, so that one of them is above the other one
  rcases same with ⟨between, below, rfl⟩ | ⟨between, above, rfl⟩
  · rw [aligned p argument q argument' between below, List.map_append, List.append_assoc]
  · rw [aligned q argument' p argument between above, List.map_append, List.append_assoc]

/-- Arguments that go down from one common start are aligned. -/
theorem aligned_of_start {start : List Component}
    (down : ∀ p ∈ paths, ∃ names : List String, p.components = start ++ names.map .name) :
  Aligned t paths
  := by
  intro p argument q argument' between below
  obtain ⟨names, spelled⟩ := down p argument
  obtain ⟨names', spelled'⟩ := down q argument'
  rw [target, target, spelled, spelled', List.foldl_append, List.foldl_append,
    Component.foldl_follow_names, Component.foldl_follow_names, List.append_assoc,
    List.append_cancel_left_eq] at below
  rw [spelled, spelled', below, List.map_append, List.append_assoc]

end Discovery

open Discovery

/-! ### Test files of a run -/

/-- The check of a file either has an outcome or fails. -/
theorem FileRun.length_outcomes_add_length_errors (runs : List FileRun) :
  (runs.filterMap FileRun.outcome?).length + (runs.filterMap FileRun.error?).length = runs.length
  := by
  have failed : (fun r : FileRun => r.error?.isSome) = fun r => !r.outcome?.isSome := by
    funext ⟨file, result⟩
    cases result with
    | ok => rfl
    | error => rfl
  rw [List.length_filterMap_eq_countP, List.length_filterMap_eq_countP, failed,
    List.length_eq_countP_add_countP fun r : FileRun => r.outcome?.isSome]
  congr 2
  funext r
  cases r.outcome?.isSome <;> rfl

/-- Each test file is a file on disk, that of its target, and its check counts once in the summary
unless it fails.  No file on disk is tested twice exactly when arguments stand for equivalent paths
whenever these have the same target.  So it is when the arguments overlap only as they are spelled,
and in particular when they go down from one common start. -/
theorem testFiles_targets {c : CommandLine} {t : FileTree} {patterns : List (List Glob.Token)}
    {files : List Path} (named : t.WellNamed) (read : Glob.patternsOf c.patterns = .ok patterns)
    (found : c.testFiles t = .ok files) (launch : Launcher) :
  let runs := c.checkAll t launch files
  let summary := (c.outcomes t launch files).foldl Report.Summary.record {}
  (∀ p ∈ files, t.locate p = .ok (t.target p)
      ∧ ∃ content, t.entryAt? (t.target p) = some (.file content))
    ∧ summary.files + (runs.filterMap FileRun.error?).length = (files.map t.target).length
    ∧ ((files.map t.target).Nodup
      ↔ ∀ p ∈ c.paths, ∀ q ∈ c.paths, ∀ r s,
        StandsFor t (Glob.anyMatches patterns) p r → StandsFor t (Glob.anyMatches patterns) q s →
          t.target r = t.target s → r.equivalent s = true)
    ∧ (Aligned t c.paths → (files.map t.target).Nodup)
    ∧ ((∃ start, ∀ p ∈ c.paths, ∃ names : List String, p.components = start ++ names.map .name) →
      (files.map t.target).Nodup)
  := by
  intro runs summary
  have discovered : discoverBy t (Glob.anyMatches patterns) c.paths = .ok files := by
    simp only [CommandLine.testFiles, read, Except.bind_eq_ok_iff, Except.mapError_eq_ok_iff]
      at found
    obtain ⟨_, same, discovered⟩ := found
    rw [← Except.ok.inj same] at discovered
    apply discovered
  have aligned_once (aligned : Aligned t c.paths) : (files.map t.target).Nodup := by
    rw [nodup_targets_iff named discovered]
    intro p argument q argument' r s
    apply aligned.equivalent argument argument'
  refine ⟨?_, ?_, nodup_targets_iff named discovered, aligned_once, ?_⟩
  · intro p member
    obtain ⟨_, -, stands⟩ := (mem_discoverBy named discovered).1 p member
    apply locate_of_isFile stands.isFile
  · have counted : summary.files = (runs.filterMap FileRun.outcome?).length := by
      simp only [summary, Report.Summary.foldl_record, Nat.zero_add]
      rfl
    rw [counted, FileRun.length_outcomes_add_length_errors]
    simp only [runs, CommandLine.checkAll, List.length_map]
  · rintro ⟨start, down⟩
    apply aligned_once (aligned_of_start down)

/-- The directories of the tree overlap and one is repeated, but all of them go down by names from
the working directory: each file is tested once. -/
theorem testFiles_targets_hidden :
  let line : CommandLine :=
    ⟨[⟨"a"⟩, ⟨"a"⟩, ⟨"a/node_modules"⟩], none, none, ["**/*.ts"], .text, true, none⟩
  let files : List Path := [⟨"a/.x.ts"⟩, ⟨"a/node_modules/z.ts"⟩]
  hiddenTree.WellNamed
    ∧ Glob.patternsOf line.patterns = .ok [scriptPattern]
    ∧ line.testFiles hiddenTree = .ok files
    ∧ (files.map hiddenTree.target).Nodup
  := by
  intro line files
  have read : Glob.patternsOf line.patterns = .ok [scriptPattern] := by
    rfl
  have found : line.testFiles hiddenTree = .ok files := by
    simp only [CommandLine.testFiles, Except.bind_eq_ok_iff, Except.mapError_eq_ok_iff]
    use [scriptPattern], read, discover_hidden
  obtain ⟨-, -, -, -, common⟩ := testFiles_targets wellNamed_hiddenTree read found noPrograms
  use wellNamed_hiddenTree, read, found
  apply common
  use []
  intro p argument
  have spelled : p.components = [.name "a"] ∨ p.components = [.name "a", .name "node_modules"] := by
    revert p
    decide
  rcases spelled with spelled | spelled
  · use ["a"], spelled
  · use ["a", "node_modules"], spelled

/-! ### A file that is tested twice -/

/-- A tree with a test file that passes. -/
def singleTree : FileTree where
  entries :=
    [("a.test-d.ts", .file []),
      ("a.test-d.ts.check.json", .file (Text.Utf8.encode "\x7b\"files\":[]\x7d".toList))]
  workingDirectory := []

/-- The command line that names the directory of the tree and the file. -/
def dottedLine : CommandLine := ⟨[⟨"."⟩, ⟨"a.test-d.ts"⟩], none, none, [], .text, true, none⟩

/-- The directory of the tree stands for its test file. -/
theorem exists_expand_singleTree :
  ∃ patterns, Glob.patternsOf [] = .ok patterns
    ∧ expand singleTree (Glob.anyMatches patterns) ⟨"."⟩ = .ok [⟨"./a.test-d.ts"⟩]
  := by
  have expanded : (Glob.patternsOf []).toOption.map (fun patterns =>
      expand singleTree (Glob.anyMatches patterns) ⟨"."⟩) = some (.ok [⟨"./a.test-d.ts"⟩]) := by
    decide +kernel
  cases read : Glob.patternsOf [] with
  | error e =>
    rw [read] at expanded
    cases expanded
  | ok patterns =>
    rw [read] at expanded
    use patterns, rfl, Option.some.inj expanded

/-- The path of the file below the directory and the one that names it are not equivalent. -/
theorem testFiles_dottedLine :
  dottedLine.testFiles singleTree = .ok [⟨"./a.test-d.ts"⟩, ⟨"a.test-d.ts"⟩]
  := by
  obtain ⟨patterns, read, below⟩ := exists_expand_singleTree
  have named : singleTree.isFile ⟨"a.test-d.ts"⟩ = true := by decide
  have itself := expand_of_isFile named (Glob.anyMatches patterns)
  let found : List (List Path) := [[⟨"./a.test-d.ts"⟩], [⟨"a.test-d.ts"⟩]]
  have sorted : found.flatten.Pairwise fun p q => p.le q = true := by
    decide
  simp only [CommandLine.testFiles, Except.bind_eq_ok_iff, Except.mapError_eq_ok_iff]
  use patterns, read
  rw [discover, discoverBy_eq_ok_iff]
  use found, .cons below (.cons itself .nil)
  rw [List.mergeSort_of_pairwise sorted]
  decide

/-- A file is checked and counted twice when it is named and the directory that holds it is, too:
the two test files denote the same file. -/
theorem testFiles_targets_repeated :
  let files : List Path := [⟨"./a.test-d.ts"⟩, ⟨"a.test-d.ts"⟩]
  dottedLine.testFiles singleTree = .ok files
    ∧ (∀ file ∈ files, singleTree.locate file = .ok ["a.test-d.ts"])
    ∧ ¬ (files.map singleTree.target).Nodup
    ∧ ∃ transcript, run dottedLine singleTree noPrograms = .ok transcript
      ∧ transcript.output = "2 files checked, 0 assertions, 0 errors, 0 warnings\n"
  := by
  intro files
  have located : ∀ file ∈ files, singleTree.locate file = .ok ["a.test-d.ts"] := by
    decide
  have twice : ¬ (files.map singleTree.target).Nodup := by
    decide
  have ran := run_of_testFiles noPrograms testFiles_dottedLine (List.cons_ne_nil _ _)
  refine ⟨testFiles_dottedLine, located, twice, _, ran, ?_⟩
  decide +kernel

end TypeAssertions
