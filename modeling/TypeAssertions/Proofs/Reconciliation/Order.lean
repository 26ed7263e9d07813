import Mathlib.Data.List.Perm.Basic
import TypeAssertions.Proofs.Reconciliation.Absorption

/-!
# The order of diagnostics

What reconciliation does with a diagnostic does not depend on the diagnostics before it: an
expectation that has been met absorbs the next diagnostic as well.  So the diagnostics that are
preserved come in the order of the checker whatever that order is, and which expectations are
missing depends only on which diagnostics there are.
-/

namespace TypeAssertions

namespace Reconciliation

/-- The progress after all diagnostics of a program. -/
def progress (files : List SourceFile) (e : Extracted) (diagnostics : List Diagnostic) :
    Progress :=
  diagnostics.foldl (Progress.add files (.ofExtracted e)) {}

/-- The diagnostics that are preserved. -/
def preserved (files : List SourceFile) (e : Extracted) (diagnostics : List Diagnostic) :
    List Diagnostic :=
  (progress files e diagnostics).preserved

/-- The expectations that are left over at the end, which are the missing ones. -/
def leftOver (files : List SourceFile) (e : Extracted) (diagnostics : List Diagnostic) :
    Expectations :=
  (Expectations.ofExtracted e).without (progress files e diagnostics).met

variable (files : List SourceFile) (e : Extracted)

theorem reconcile_eq_preserved_append_leftOver (diagnostics : List Diagnostic)
    (seed : List Finding) :
  reconcile files diagnostics e seed
    = seed ++ (preserved files e diagnostics).map .diagnostic
      ++ (leftOver files e diagnostics).missing files
  := rfl

theorem preserved_eq (diagnostics : List Diagnostic) :
  preserved files e diagnostics = diagnostics.filter fun d => Reported files e d
  := by
  rw [preserved, progress, foldl_add_ofExtracted]
  apply List.nil_append

theorem entries_leftOver (diagnostics : List Diagnostic) :
  (leftOver files e diagnostics).entries
    = ((e.ofKind .expectError).filter fun a => Unmet files e diagnostics a).map fun a =>
        (a.id, a.span)
  := by
  rw [leftOver, progress, foldl_add_ofExtracted, ← entries_without_ofExtracted]
  rfl

/-- Expected errors are told apart by their entries. -/
theorem mem_entries_leftOver_iff (diagnostics : List Diagnostic) {a : Assertion}
    (ha : a ∈ e.ofKind .expectError) :
  (a.id, a.span) ∈ (leftOver files e diagnostics).entries ↔ Unmet files e diagnostics a
  := by
  simp only [entries_leftOver, List.mem_map, List.mem_filter, decide_eq_true_eq, Prod.mk.injEq]
  constructor
  · rintro ⟨b, ⟨hb, unmet⟩, same, -⟩
    obtain rfl := Extracted.eq_of_id_eq hb ha same
    apply unmet
  · intro unmet
    use a

/-! ### More diagnostics, and the same ones -/

variable {files e}

theorem unmet_of_subset {diagnostics more : List Diagnostic} (h : diagnostics ⊆ more)
    {a : Assertion} (unmet : Unmet files e more a) :
  Unmet files e diagnostics a
  := by
  intro d member
  apply unmet d (h member)

theorem unmet_append_iff (earlier later : List Diagnostic) (a : Assertion) :
  Unmet files e (earlier ++ later) a ↔ Unmet files e earlier a ∧ Unmet files e later a
  := List.forall_mem_append

/-- More diagnostics leave fewer expectations over. -/
theorem entries_leftOver_sublist {diagnostics more : List Diagnostic} (h : diagnostics ⊆ more) :
  (leftOver files e more).entries.Sublist (leftOver files e diagnostics).entries
  := by
  rw [entries_leftOver, entries_leftOver]
  apply List.Sublist.map
  apply List.monotone_filter_right
  intro a unmet
  rw [decide_eq_true_eq] at unmet ⊢
  apply unmet_of_subset h unmet

/-- Which expectations are left over depends only on which diagnostics there are. -/
theorem leftOver_congr {diagnostics same : List Diagnostic}
    (h : ∀ d, d ∈ diagnostics ↔ d ∈ same) :
  leftOver files e diagnostics = leftOver files e same
  := by
  have entries : (leftOver files e diagnostics).entries = (leftOver files e same).entries := by
    apply List.Sublist.antisymm
    · apply entries_leftOver_sublist fun d => (h d).2
    · apply entries_leftOver_sublist fun d => (h d).1
  generalize leftOver files e diagnostics = x at entries
  generalize leftOver files e same = y at entries
  cases x
  cases y
  apply congrArg Expectations.mk entries

theorem entries_leftOver_append (earlier later : List Diagnostic) :
  (leftOver files e (earlier ++ later)).entries
    = (leftOver files e earlier).entries.filter fun entry =>
        entry ∈ (leftOver files e later).entries
  := by
  rw [entries_leftOver, entries_leftOver files e earlier, List.filter_map, List.filter_filter]
  congr 1
  apply List.filter_congr
  intro a ha
  rw [Function.comp_apply, ← Bool.decide_and, decide_eq_decide, unmet_append_iff,
    mem_entries_leftOver_iff files e later ha, and_comm]

theorem reconcile_insert_of_absorbed {d : Diagnostic} {a : Assertion}
    (absorbs : Absorbs files e d a) {before after : List Diagnostic}
    (repeated : d ∈ before ++ after) (seed : List Finding) :
  reconcile files (before ++ d :: after) e seed = reconcile files (before ++ after) e seed
  := by
  have unreported : ¬ Reported files e d := fun h => h.2.2 a absorbs
  have kept : preserved files e (before ++ d :: after) = preserved files e (before ++ after) := by
    simp [preserved_eq, unreported]
  have same : leftOver files e (before ++ d :: after) = leftOver files e (before ++ after) := by
    apply leftOver_congr
    intro other
    rw [List.mem_append, List.mem_cons, or_left_comm, ← List.mem_append, or_iff_right_iff_imp]
    rintro rfl
    apply repeated
  rw [reconcile_eq_preserved_append_leftOver, reconcile_eq_preserved_append_leftOver, kept, same]

end Reconciliation

open Reconciliation

/-- The findings of a program are the seed, the preserved diagnostics and the expectations left
over.  Diagnostics in another order leave the same expectations over and are preserved in that
order; those of two parts are preserved part by part, and an expectation is left over by both parts
together when it is by each.  So more diagnostics leave nothing more over, and a diagnostic that is
absorbed may as well be repeated. -/
theorem reconcile_reordered (files : List SourceFile) (e : Extracted) :
  (∀ diagnostics seed,
    reconcile files diagnostics e seed
      = seed ++ (preserved files e diagnostics).map .diagnostic
        ++ (leftOver files e diagnostics).missing files)
    ∧ (∀ diagnostics reordered : List Diagnostic, diagnostics.Perm reordered →
      (preserved files e diagnostics).Perm (preserved files e reordered)
        ∧ leftOver files e diagnostics = leftOver files e reordered)
    ∧ (∀ earlier later,
      preserved files e (earlier ++ later) = preserved files e earlier ++ preserved files e later
        ∧ (leftOver files e (earlier ++ later)).entries
          = (leftOver files e earlier).entries.filter fun entry =>
              entry ∈ (leftOver files e later).entries)
    ∧ (∀ diagnostics more, diagnostics ⊆ more →
      (leftOver files e more).entries.Sublist (leftOver files e diagnostics).entries)
    ∧ ∀ before d after seed, d ∈ before ++ after → (∃ a, Absorbs files e d a) →
      reconcile files (before ++ d :: after) e seed = reconcile files (before ++ after) e seed
  := by
  refine ⟨reconcile_eq_preserved_append_leftOver files e, ?_, ?_, ?_, ?_⟩
  · intro diagnostics reordered permuted
    constructor
    · rw [preserved_eq, preserved_eq]
      apply permuted.filter
    · apply leftOver_congr
      intro d
      apply permuted.mem_iff
  · intro earlier later
    constructor
    · rw [preserved_eq, preserved_eq, preserved_eq, List.filter_append]
    · apply entries_leftOver_append
  · intro diagnostics more fewer
    apply entries_leftOver_sublist fewer
  · rintro before d after seed repeated ⟨a, absorbs⟩
    apply reconcile_insert_of_absorbed absorbs repeated

/-! ### Overlapping expectations -/

/-- An expected error inside another one, and a third one apart from them. -/
def overlapping : Extracted where
  assertions :=
    [⟨⟨⟨0⟩, ⟨1⟩⟩, .expectError, ⟨⟨0⟩, 0, 40⟩⟩, ⟨⟨⟨0⟩, ⟨2⟩⟩, .expectError, ⟨⟨0⟩, 10, 20⟩⟩,
      ⟨⟨⟨0⟩, ⟨3⟩⟩, .expectError, ⟨⟨0⟩, 50, 60⟩⟩]
  distinct := by decide

/-- The file of the expected errors. -/
def overlappingFiles : List SourceFile := [⟨⟨0⟩, "a.ts", "", .empty, ⟨0⟩⟩]

/-- An error of a type at an offset of the file. -/
def errorAt (offset : UInt32) : Diagnostic := ⟨some "a.ts", offset, 1, "", .error, 2322⟩

/-- The two errors inside the inner expected error are both absorbed by the outer one, whatever
comes between them. -/
theorem reconcile_reordered_overlapping :
  let files := overlappingFiles
  [errorAt 12, errorAt 45, errorAt 15].Perm [errorAt 15, errorAt 12, errorAt 45]
    ∧ leftOver files overlapping [errorAt 12, errorAt 45, errorAt 15]
      = leftOver files overlapping [errorAt 15, errorAt 12, errorAt 45]
    ∧ [errorAt 15] ⊆ [errorAt 45, errorAt 15, errorAt 12]
    ∧ (leftOver files overlapping [errorAt 45, errorAt 15, errorAt 12]).entries.Sublist
      (leftOver files overlapping [errorAt 15]).entries
    ∧ Absorbs files overlapping (errorAt 15) ⟨⟨⟨0⟩, ⟨1⟩⟩, .expectError, ⟨⟨0⟩, 0, 40⟩⟩
    ∧ reconcile files [errorAt 15, errorAt 45, errorAt 15] overlapping []
      = reconcile files [errorAt 45, errorAt 15] overlapping []
  := by
  intro files
  obtain ⟨-, permutes, -, more, repeats⟩ := reconcile_reordered files overlapping
  have permuted :
      [errorAt 12, errorAt 45, errorAt 15].Perm [errorAt 15, errorAt 12, errorAt 45] := by
    decide
  have fewer : [errorAt 15] ⊆ [errorAt 45, errorAt 15, errorAt 12] := by
    decide
  have absorbs : Absorbs files overlapping (errorAt 15)
      ⟨⟨⟨0⟩, ⟨1⟩⟩, .expectError, ⟨⟨0⟩, 0, 40⟩⟩ := by
    decide +kernel
  have repeated : errorAt 15 ∈ [] ++ [errorAt 45, errorAt 15] := by
    decide
  use permuted, (permutes _ _ permuted).2, fewer, more _ _ fewer, absorbs
  apply repeats [] (errorAt 15) [errorAt 45, errorAt 15] [] repeated ⟨_, absorbs⟩

end TypeAssertions
