import Mathlib
import TypeAssertions.Report.Summary

/-!
# What a summary counts

`Summary.foldl_record` gives all counts of a summary at once.  A run goes by the errors among the
entries of its outcomes, while the summary also counts the files that failed.  The two differ for
outcomes that fail quietly: diagnostics stopped them, of which none is an error.
-/

namespace TypeAssertions

/-! ### Counts -/

namespace Report.Summary

theorem foldl_count (s : Summary) (entries : List Bool) :
  entries.foldl count s
    = { s with
        errors := s.errors + entries.count true
        warnings := s.warnings + entries.count false }
  := by
  induction entries generalizing s with
  | nil => rfl
  | cons isError rest ih =>
    rw [List.foldl_cons, ih]
    cases isError with
    | true => simp [count, Nat.add_assoc, Nat.add_comm 1]
    | false => simp [count, Nat.add_assoc, Nat.add_comm 1]

/-- A summary counts the outcomes, those that failed, their assertions, and their entries. -/
theorem foldl_record (s : Summary) (outcomes : List Outcome) :
  outcomes.foldl record s
    = { files := s.files + outcomes.length
        failedFiles := s.failedFiles + outcomes.countP Outcome.hasFailures
        assertions := s.assertions + (outcomes.map Outcome.assertionCount).sum
        errors := s.errors + (outcomes.flatMap entries).count true
        warnings := s.warnings + (outcomes.flatMap entries).count false }
  := by
  induction outcomes generalizing s with
  | nil => rfl
  | cons o rest ih =>
    rw [List.foldl_cons, ih, record, foldl_count]
    cases failed : o.hasFailures with
    | true => simp [failed, Nat.add_assoc, Nat.add_comm 1]
    | false => simp [failed, Nat.add_assoc, Nat.add_comm 1]

theorem hasErrors_foldl_record_iff (outcomes : List Outcome) :
  (outcomes.foldl record {}).hasErrors = true ↔ ∃ o ∈ outcomes, true ∈ entries o
  := by
  simp [hasErrors, foldl_record, List.count_pos_iff]

theorem failedFiles_foldl_record_pos_iff (outcomes : List Outcome) :
  0 < (outcomes.foldl record {}).failedFiles ↔ ∃ o ∈ outcomes, o.hasFailures = true
  := by
  simp [foldl_record, List.countP_pos_iff]

end Report.Summary

/-! ### Failures -/

namespace Outcome

/-- An outcome holds an error: one of the diagnostics that stopped it, or else of its findings. -/
def HoldsError (o : Outcome) : Prop :=
  (∃ errors, o.errors = some errors ∧ ∃ d ∈ errors, d.category = .error)
    ∨ (o.errors = none ∧ ∃ f ∈ o.findings, f.severity = .error)

/-- An outcome fails quietly: none of the diagnostics that stopped it is an error. -/
def FailsQuietly (o : Outcome) : Prop :=
  ∃ errors, o.errors = some errors ∧ (∀ d ∈ errors, d.category ≠ .error)
    ∧ (errors ≠ [] ∨ ∃ f ∈ o.findings, f.severity = .error)

theorem true_mem_entries_iff (o : Outcome) :
  true ∈ Report.Summary.entries o ↔ o.HoldsError
  := by
  cases stopped : o.errors <;>
    simp [Report.Summary.entries, HoldsError, stopped, Diagnostic.isError, Finding.isError]

theorem hasFailures_iff (o : Outcome) :
  o.hasFailures = true ↔ o.HoldsError ∨ o.FailsQuietly
  := by
  cases stopped : o.errors with
  | none => simp [hasFailures, HoldsError, FailsQuietly, stopped, Finding.isError]
  | some errors =>
    have failed : o.hasFailures = true
        ↔ errors ≠ [] ∨ ∃ f ∈ o.findings, f.severity = .error := by
      simp [hasFailures, stopped, Finding.isError]
    rw [failed]
    by_cases loud : ∃ d ∈ errors, d.category = .error
    · obtain ⟨d, member, error⟩ := loud
      apply iff_of_true
      · left
        apply List.ne_nil_of_mem member
      · left
        left
        use errors, stopped, d, member
    · have quiet : ∀ d ∈ errors, d.category ≠ .error := fun d member error =>
        loud ⟨d, member, error⟩
      constructor
      · intro h
        right
        use errors, stopped, quiet
      · have silent : ¬ o.HoldsError := by
          simpa [HoldsError, stopped] using quiet
        rintro (error | ⟨same, stopped', -, h⟩)
        · apply absurd error silent
        · obtain rfl := Option.some.inj (stopped.symm.trans stopped')
          apply h

/-- Errors tell failures, unless an outcome fails quietly while no outcome holds an error. -/
theorem exists_holdsError_iff_exists_hasFailures (outcomes : List Outcome) :
  ((∃ o ∈ outcomes, o.HoldsError) ↔ ∃ o ∈ outcomes, o.hasFailures = true)
    ↔ (∃ o ∈ outcomes, o.HoldsError) ∨ ∀ o ∈ outcomes, ¬ o.FailsQuietly
  := by
  simp only [hasFailures_iff, and_or_left, exists_or]
  by_cases error : ∃ o ∈ outcomes, o.HoldsError
  · simp [error]
  · simp [error]

end Outcome

end TypeAssertions
