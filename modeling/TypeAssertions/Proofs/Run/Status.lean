import TypeAssertions.Proofs.Checking.Passing
import TypeAssertions.Proofs.Report.Summary

/-!
# The status of a run

A run that checks all its files ends with failures when one of their outcomes holds an error, and
with success otherwise.  Whether an outcome fails is another question: diagnostics that are no
errors stop the check of a file as well, so that its outcome fails and yet holds no error.
`status_run` says when the status of a run agrees with the failures of its outcomes, and
`status_run_ne_failures` is a run in which it does not.
-/

namespace TypeAssertions

/-- The outcomes of the files of a run. -/
def CommandLine.outcomes (c : CommandLine) (t : FileTree) (launch : Launcher) (files : List Path) :
    List Outcome :=
  (c.checkAll t launch files).filterMap FileRun.outcome?

theorem run_of_testFiles {c : CommandLine} {t : FileTree} {files : List Path} (launch : Launcher)
    (found : c.testFiles t = .ok files) (nonempty : files ≠ []) :
  run c t launch
    = .ok ⟨statusOf (c.checkAll t launch files), reportOf c t (c.checkAll t launch files),
        complaintsOf (c.checkAll t launch files)⟩
  := by
  rw [run, Except.bind_eq_ok_iff]
  use files, found
  rw [if_neg (by simpa using nonempty)]
  rfl

/-- The status of runs whose checks did not fail goes by the errors in the outcomes. -/
theorem statusOf_of_checked {runs : List FileRun} (checked : ∀ r ∈ runs, r.error? = none) :
  (statusOf runs = .failures ↔ ∃ o ∈ runs.filterMap FileRun.outcome?, o.HoldsError)
    ∧ (statusOf runs = .success ↔ ¬ ∃ o ∈ runs.filterMap FileRun.outcome?, o.HoldsError)
  := by
  have unfailed : (runs.any fun r => r.error?.isSome) = false := by
    simpa using checked
  have counted := Report.Summary.hasErrors_foldl_record_iff (runs.filterMap FileRun.outcome?)
  simp only [Outcome.true_mem_entries_iff] at counted
  rw [← counted, statusOf, unfailed, if_neg Bool.false_ne_true]
  cases ((runs.filterMap FileRun.outcome?).foldl Report.Summary.record {}).hasErrors <;> simp

/-- The status of a run that checks some files, and all of them, is that of failures when an outcome
holds an error, and that of success otherwise; the errors and the failed files of a summary are
counted accordingly.  This agrees with the failures of the outcomes unless an outcome fails
quietly while none holds an error. -/
theorem status_run (c : CommandLine) (t : FileTree) (launch : Launcher) (files : List Path)
    (found : c.testFiles t = .ok files) (nonempty : files ≠ [])
    (checked : ∀ r ∈ c.checkAll t launch files, r.error? = none) :
  let outcomes := c.outcomes t launch files
  (∃ transcript, run c t launch = .ok transcript
    ∧ (transcript.status = .failures ↔ ∃ o ∈ outcomes, o.HoldsError)
    ∧ (transcript.status = .success ↔ ¬ ∃ o ∈ outcomes, o.HoldsError)
    ∧ (((transcript.status = .failures ↔ ∃ o ∈ outcomes, o.hasFailures = true)
        ∧ (transcript.status = .success ↔ ¬ ∃ o ∈ outcomes, o.hasFailures = true))
      ↔ (∃ o ∈ outcomes, o.HoldsError) ∨ ∀ o ∈ outcomes, ¬ o.FailsQuietly))
  ∧ ∀ recorded : List Outcome,
    let summary := recorded.foldl Report.Summary.record {}
    (summary.hasErrors = true ↔ ∃ o ∈ recorded, o.HoldsError)
      ∧ (0 < summary.failedFiles ↔ ∃ o ∈ recorded, o.hasFailures = true)
      ∧ ((summary.hasErrors = true ↔ 0 < summary.failedFiles)
        ↔ (∃ o ∈ recorded, o.HoldsError) ∨ ∀ o ∈ recorded, ¬ o.FailsQuietly)
  := by
  intro outcomes
  constructor
  · obtain ⟨failures, success⟩ := statusOf_of_checked checked
    refine ⟨_, run_of_testFiles launch found nonempty, failures, success, ?_⟩
    rw [← Outcome.exists_holdsError_iff_exists_hasFailures outcomes, failures, success]
    apply and_iff_left_of_imp not_congr
  · intro recorded summary
    have errors : summary.hasErrors = true ↔ ∃ o ∈ recorded, o.HoldsError := by
      simp only [summary, Report.Summary.hasErrors_foldl_record_iff, Outcome.true_mem_entries_iff]
    have failed := Report.Summary.failedFiles_foldl_record_pos_iff recorded
    use errors, failed
    rw [errors, failed]
    apply Outcome.exists_holdsError_iff_exists_hasFailures

/-! ### A run that fails quietly -/

/-- The text of a snapshot without files, whose only syntax diagnostic is a warning. -/
def stoppedText : String :=
  "\x7b\"files\":[],\"syntaxDiagnostics\":"
    ++ "[\x7b\"messageText\":\"m\",\"code\":1,\"category\":\"warning\"\x7d]\x7d"

/-- A tree with a test file whose check is stopped by a warning. -/
def stoppedTree : FileTree where
  entries :=
    [("quiet.test-d.ts", .file []),
      ("quiet.test-d.ts.check.json", .file (Text.Utf8.encode stoppedText.toList))]
  workingDirectory := []

/-- The command line that names the test file of the tree. -/
def stoppedLine : CommandLine := ⟨[⟨"quiet.test-d.ts"⟩], none, none, [], .text, true, none⟩

theorem testFiles_stopped :
  stoppedLine.testFiles stoppedTree = .ok [⟨"quiet.test-d.ts"⟩]
  := by
  decide +kernel

theorem checked_stopped :
  ∀ r ∈ stoppedLine.checkAll stoppedTree noPrograms [⟨"quiet.test-d.ts"⟩], r.error? = none
  := by
  decide

/-- The check of the only file of this run does not fail, although a warning stops it. -/
theorem status_run_stopped :
  stoppedLine.testFiles stoppedTree = .ok [⟨"quiet.test-d.ts"⟩]
    ∧ (∀ r ∈ stoppedLine.checkAll stoppedTree noPrograms [⟨"quiet.test-d.ts"⟩], r.error? = none)
    ∧ ∃ transcript, run stoppedLine stoppedTree noPrograms = .ok transcript
      ∧ (transcript.status = .success
        ↔ ¬ ∃ o ∈ stoppedLine.outcomes stoppedTree noPrograms [⟨"quiet.test-d.ts"⟩], o.HoldsError)
  := by
  obtain ⟨⟨transcript, ran, -, success, -⟩, -⟩ :=
    status_run stoppedLine stoppedTree noPrograms [⟨"quiet.test-d.ts"⟩] testFiles_stopped
      (List.cons_ne_nil _ _) checked_stopped
  use testFiles_stopped, checked_stopped, transcript

/-- A warning stops the check of the only file of this run: its outcome fails, but the run ends
with success. -/
theorem status_run_ne_failures :
  stoppedLine.testFiles stoppedTree = .ok [⟨"quiet.test-d.ts"⟩]
    ∧ (∀ r ∈ stoppedLine.checkAll stoppedTree noPrograms [⟨"quiet.test-d.ts"⟩], r.error? = none)
    ∧ (∃ o ∈ stoppedLine.outcomes stoppedTree noPrograms [⟨"quiet.test-d.ts"⟩],
      o.hasFailures = true)
    ∧ ∃ transcript, run stoppedLine stoppedTree noPrograms = .ok transcript
      ∧ transcript.status = .success ∧ transcript.status ≠ .failures
  := by
  have failed : ∃ o ∈ stoppedLine.outcomes stoppedTree noPrograms [⟨"quiet.test-d.ts"⟩],
      o.hasFailures = true := by
    decide +kernel
  have success : statusOf (stoppedLine.checkAll stoppedTree noPrograms [⟨"quiet.test-d.ts"⟩])
      = .success := by
    decide +kernel
  have ran := run_of_testFiles noPrograms testFiles_stopped (List.cons_ne_nil _ _)
  rw [success] at ran
  refine ⟨testFiles_stopped, checked_stopped, failed, _, ran, rfl, ?_⟩
  apply ExitStatus.noConfusion

end TypeAssertions
