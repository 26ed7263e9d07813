import Mathlib
import TypeAssertions.Proofs.Reconciliation.Absorption
import TypeAssertions.Proofs.Snapshot.Verdicts
import TypeAssertions.Proofs.Text.Utf8
import TypeAssertions.Run

/-!
# Checks that pass

The check of a file against the snapshot of a checker ends without failures when three things hold:
every expected error absorbs a diagnostic, every error of the checker in the program's own files is
absorbed by an expected error, and the verdict on every other assertion passed, if it is an error.
`Snapshot.Passes` collects the three, and `checkFile_passes_iff` follows a check from the text of
the snapshot to its outcome.
-/

namespace TypeAssertions

/-- What has to hold for the check of the files of a snapshot to pass. -/
structure Snapshot.Passes (s : Snapshot) (files : List SourceFile) : Prop where
  met : ∀ a ∈ (Extracted.ofFiles files).ofKind .expectError,
    ∃ d ∈ s.semanticDiagnostics, Absorbs files (Extracted.ofFiles files) d a
  expected : ∀ d ∈ s.semanticDiagnostics, d.category = .error → ¬ d.Dropped →
    ∃ a, Absorbs files (Extracted.ofFiles files) d a
  held : ∀ a ∈ (Extracted.ofFiles files).assertions, a.kind ≠ .expectError →
    ∀ v, s.LastAt (a.site files) v → v.severity = .error → v.passed = true

/-! ### Findings without errors -/

theorem Category.severity_eq_error_iff (c : Category) :
  c.severity = .error ↔ c = .error
  := by
  cases c <;> decide

theorem hasFailures_completed_eq_false_iff (count : Nat) (findings : List Finding) :
  (Outcome.completed count findings).hasFailures = false ↔ ∀ f ∈ findings, f.severity ≠ .error
  := by
  simp [Outcome.hasFailures, Outcome.completed, Finding.isError]

theorem forall_reported_iff (files : List SourceFile) (e : Extracted)
    (diagnostics : List Diagnostic) :
  (∀ d ∈ diagnostics.filter fun d => Reported files e d, d.category ≠ .error)
    ↔ ∀ d ∈ diagnostics, d.category = .error → ¬ d.Dropped → ∃ a, Absorbs files e d a
  := by
  simp only [List.mem_filter, decide_eq_true_eq, reported_iff]
  constructor
  · intro h d member error kept
    by_contra unabsorbed
    apply h d ⟨member, kept, not_exists.1 unabsorbed⟩ error
  · rintro h d ⟨member, kept, unabsorbed⟩ error
    obtain ⟨a, absorbs⟩ := h d member error kept
    apply unabsorbed a absorbs

theorem filter_unmet_eq_nil_iff (files : List SourceFile) (e : Extracted)
    (diagnostics : List Diagnostic) :
  ((e.ofKind .expectError).filter fun a => Unmet files e diagnostics a) = []
    ↔ ∀ a ∈ e.ofKind .expectError, ∃ d ∈ diagnostics, Absorbs files e d a
  := by
  rw [List.filter_eq_nil_iff]
  apply forall₂_congr
  intro a member
  rw [decide_eq_true_eq, Unmet]
  push Not
  rfl

/-- The findings of a program are no errors when those of the seed are none, every error that is
not dropped is absorbed, and every expected error absorbs something. -/
theorem forall_reconcile_iff (files : List SourceFile) (diagnostics : List Diagnostic)
    (e : Extracted) (seed : List Finding) :
  (∀ f ∈ reconcile files diagnostics e seed, f.severity ≠ .error)
    ↔ (∀ f ∈ seed, f.severity ≠ .error)
      ∧ (∀ d ∈ diagnostics, d.category = .error → ¬ d.Dropped → ∃ a, Absorbs files e d a)
      ∧ ∀ a ∈ e.ofKind .expectError, ∃ d ∈ diagnostics, Absorbs files e d a
  := by
  rw [reconcile_eq, List.forall_mem_append, List.forall_mem_append, List.forall_mem_map,
    List.forall_mem_map, ← forall_reported_iff, ← filter_unmet_eq_nil_iff, and_assoc]
  apply and_congr_right'
  apply and_congr
  · simp only [Finding.severity, ne_eq, Category.severity_eq_error_iff]
  · rw [List.eq_nil_iff_forall_not_mem]
    apply forall₂_congr
    intro a member
    simp [Assertion.missing, Finding.severity]

/-! ### The stages of a check -/

/-- A check goes to the end when neither the resolution of its options nor the syntax of its
program has diagnostics. -/
theorem checkFile_of_answer {M : Type} (c : Collaborators Id M) {file : Path} {p : Program M}
    (resolved : (c.resolve file).diagnostics = [])
    (answered : c.check [file] (c.resolve file).options = .ok p)
    (parsed : p.syntaxDiagnostics = []) :
  Id.run (checkFile c file)
    = .ok (p.outcome (c.evaluate p.model (Extracted.ofFiles p.files).evaluable))
  := by
  simp only [checkFile, Id.run, bind, pure, resolved, answered, parsed, List.isEmpty_nil,
    Bool.not_true, Bool.false_eq_true, if_false]

namespace SnapshotSource

/-- The collaborators that play back the snapshots of a source, with compiler options that are
resolved in any way. -/
def playback (source : SnapshotSource) (t : FileTree) (launch : Launcher)
    (resolve : Path → Resolved) : Collaborators Id Verdicts where
  resolve := resolve
  check files options := source.check t launch files options
  evaluate verdicts groups := verdicts.evaluate groups

/-- A command line plays snapshots back with the compiler options of the nearest configuration. -/
theorem collaborators_eq_playback (c : CommandLine) (t : FileTree) (launch : Launcher) :
  c.collaborators t launch = c.source.playback t launch (Config.resolve t c.project)
  := rfl

/-- A source gives a snapshot for a test file. -/
def Gives (source : SnapshotSource) (t : FileTree) (launch : Launcher) (file : Path)
    (options : CompilerOptions) (s : Snapshot) : Prop :=
  ∃ text origin, source.load t launch file options = .ok (text, origin)
    ∧ Snapshot.ofText text = .ok s

theorem check_of_gives {source : SnapshotSource} {t : FileTree} {launch : Launcher} {file : Path}
    {options : CompilerOptions} {s : Snapshot} {p : Program Verdicts}
    (given : source.Gives t launch file options s) (accepted : s.toProgram = .ok p) :
  source.check t launch [file] options = .ok p
  := by
  obtain ⟨text, origin, loaded, read⟩ := given
  simp only [check, Except.bind_eq_ok_iff]
  use (text, origin), loaded
  simp only [programOfText, Except.bind_eq_ok_iff, Except.mapError_eq_ok_iff]
  use s, read
  rw [programOf, Except.mapError_eq_ok_iff]
  apply accepted

end SnapshotSource

/-- The check of a file passes when, and only when, the snapshot that its source gives does. -/
theorem checkFile_passes_iff (source : SnapshotSource) (t : FileTree) (launch : Launcher)
    (resolve : Path → Resolved) (file : Path) (s : Snapshot) (p : Program Verdicts)
    (resolved : (resolve file).diagnostics = [])
    (given : source.Gives t launch file (resolve file).options s)
    (accepted : s.toProgram = .ok p) (parsed : s.syntaxDiagnostics = []) :
  ∃ o, Id.run (checkFile (source.playback t launch resolve) file) = .ok o
    ∧ (o.hasFailures = false ↔ s.Passes p.files)
  := by
  have checked := SnapshotSource.check_of_gives given accepted
  obtain ⟨-, rfl⟩ := (s.toProgram_eq_ok_iff p).1 accepted
  have ran := checkFile_of_answer (source.playback t launch resolve) resolved checked parsed
  refine ⟨_, ran, ?_⟩
  rw [Program.outcome, hasFailures_completed_eq_false_iff, forall_reconcile_iff]
  have replayed := s.forall_evaluate_iff
  constructor
  · rintro ⟨quiet, expected, met⟩
    use met, expected
    apply replayed.1 quiet
  · rintro ⟨met, expected, held⟩
    use replayed.2 held, expected

/-! ### A check that passes -/

/-- A snapshot of a file in which an expected error occurs around an assertion that holds. -/
def heldSnapshot : Snapshot where
  files :=
    [⟨"a.ts", "expectError(printType(f))",
      ⟨[⟨.callExpression, 0, 25, [⟨1⟩, ⟨2⟩]⟩, ⟨.other, 0, 11, []⟩,
        ⟨.callExpression, 12, 24, [⟨3⟩]⟩, ⟨.other, 12, 21, []⟩]⟩, none⟩]
  syntaxDiagnostics := []
  semanticDiagnostics := [⟨some "a.ts", 22, 1, "", .error, 2322⟩]
  evaluations := [⟨.printType, "a.ts", 12, 24, true, "", .error⟩]

/-- The text of the snapshot, with its records as arrays. -/
def heldText : String :=
  "[[[\"a.ts\",\"expectError(printType(f))\",[[\"CallExpression\",0,25,[1,2]],[\"\",0,11],"
    ++ "[\"CallExpression\",12,24,[3]],[\"\",12,21]]]],[],[[\"a.ts\",22,1,\"\",\"error\",2322]],"
    ++ "[[\"printType\",\"a.ts\",12,24,true]]]"

/-- A tree with the file and the text of its snapshot. -/
def heldTree : FileTree where
  entries :=
    [("a.ts", .file []), ("a.ts.check.json", .file (Text.Utf8.encode heldText.toList))]
  workingDirectory := []

/-- The command line that names the file. -/
def heldLine : CommandLine := ⟨[⟨"a.ts"⟩], none, none, [], .text, true, none⟩

/-- A system without programs. -/
def noPrograms : Launcher := fun _ _ => .error .notFound

theorem resolve_heldTree :
  Config.resolve heldTree none ⟨"a.ts"⟩ = ⟨.default, []⟩
  := by
  decide

theorem load_heldTree :
  SnapshotSource.sidecar.load heldTree noPrograms ⟨"a.ts"⟩ .default
    = .ok (heldText.toList, ⟨"a.ts.check.json"⟩)
  := by
  have sidecar : SnapshotSource.sidecarPath ⟨"a.ts"⟩ = ⟨"a.ts.check.json"⟩ := by
    decide
  have located : heldTree.locate ⟨"a.ts.check.json"⟩ = .ok ["a.ts.check.json"] := by
    decide
  have lookup (e : Entry) :
      List.lookup "a.ts.check.json" [("a.ts", .file []), ("a.ts.check.json", e)] = some e := by
    simp [List.lookup]
  have file : heldTree.entryAt? ["a.ts.check.json"]
      = some (.file (Text.Utf8.encode heldText.toList)) := by
    simp only [FileTree.entryAt?, FileTree.follow?, heldTree, lookup, Option.bind_some]
  have text := FileTree.readText_of_encode located file
  rw [SnapshotSource.load]
  simp only [sidecar, text]

theorem toList_of_eq_ofList {s : String} {cs : List Char} (h : s = String.ofList cs) :
  s.toList = cs
  := by
  rw [h, String.toList_ofList]

theorem gives_heldSnapshot :
  SnapshotSource.sidecar.Gives heldTree noPrograms ⟨"a.ts"⟩ .default heldSnapshot
  := by
  have read : Snapshot.ofText heldText.toList = .ok heldSnapshot := by
    -- evaluation is slow on the text itself, and fast on the list of its characters
    delta heldText
    rw [String.toList_append, String.toList_append, toList_of_eq_ofList rfl,
      toList_of_eq_ofList rfl, toList_of_eq_ofList rfl]
    decide +kernel
  use heldText.toList, ⟨"a.ts.check.json"⟩, load_heldTree

theorem toProgram_heldSnapshot :
  heldSnapshot.toProgram
    = .ok ⟨heldSnapshot.sourceFiles, [], heldSnapshot.semanticDiagnostics,
        heldSnapshot.verdicts heldSnapshot.sourceFiles⟩
  := by
  rw [Snapshot.toProgram_eq_ok_iff]
  constructor
  · intro f member
    obtain rfl := List.mem_singleton.1 member
    rfl
  · rfl

/-- The two assertions of the file. -/
def heldAssertions : Extracted where
  assertions :=
    [⟨⟨⟨0⟩, ⟨0⟩⟩, .expectError, ⟨⟨0⟩, 0, 25⟩⟩, ⟨⟨⟨0⟩, ⟨2⟩⟩, .printType, ⟨⟨0⟩, 12, 24⟩⟩]
  distinct := by decide

theorem ofFiles_heldSnapshot :
  Extracted.ofFiles heldSnapshot.sourceFiles = heldAssertions
  := by
  cbv

theorem passes_heldSnapshot :
  heldSnapshot.Passes heldSnapshot.sourceFiles
  := by
  constructor <;> rw [ofFiles_heldSnapshot]
  · decide
  · intro d member
    obtain rfl := List.mem_singleton.1 member
    intro error kept
    use ⟨⟨⟨0⟩, ⟨0⟩⟩, .expectError, ⟨⟨0⟩, 0, 25⟩⟩
    decide
  · rintro a recorded evaluated v ⟨-, before, after, split, -⟩ error
    have member : v ∈ heldSnapshot.evaluations := by simp [split]
    obtain rfl := List.mem_singleton.1 member
    rfl

/-- The check of the file that the command line asks for passes. -/
theorem checkFile_passes_held :
  SnapshotSource.sidecar.Gives heldTree noPrograms ⟨"a.ts"⟩ .default heldSnapshot
    ∧ ∃ o, Id.run (checkFile (heldLine.collaborators heldTree noPrograms) ⟨"a.ts"⟩) = .ok o
      ∧ o.hasFailures = false
  := by
  have resolved : (Config.resolve heldTree none ⟨"a.ts"⟩).diagnostics = [] := by
    rw [resolve_heldTree]
  have given : SnapshotSource.sidecar.Gives heldTree noPrograms ⟨"a.ts"⟩
      (Config.resolve heldTree none ⟨"a.ts"⟩).options heldSnapshot := by
    rw [resolve_heldTree]
    apply gives_heldSnapshot
  obtain ⟨o, checked, passes⟩ := checkFile_passes_iff .sidecar heldTree noPrograms
    (Config.resolve heldTree none) ⟨"a.ts"⟩ heldSnapshot _ resolved given toProgram_heldSnapshot rfl
  rw [SnapshotSource.collaborators_eq_playback]
  use gives_heldSnapshot, o, checked
  apply passes.2 passes_heldSnapshot

end TypeAssertions
