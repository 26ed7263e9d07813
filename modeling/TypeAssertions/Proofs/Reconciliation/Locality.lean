import TypeAssertions.Proofs.Reconciliation.Order

/-!
# The reach of an expectation

An expectation acts on the diagnostics inside its span and on no others.  When one more expected
error is discovered, wherever that is among the others, the diagnostics inside it are no longer
preserved if they can be absorbed, and those that later expectations absorbed now belong to it; so
only a later expectation all of whose diagnostics it surrounds is missing because of it.
-/

namespace TypeAssertions

/-! ### Diagnostics inside an assertion -/

/-- A diagnostic lies strictly inside the span of an assertion, in the file of the span. -/
def Assertion.Contains (files : List SourceFile) (a : Assertion) (d : Diagnostic) : Prop :=
  ∃ name f, d.file = some name ∧ LastNamed files name f ∧ a.Around f.id d.start

theorem Assertion.contains_iff (files : List SourceFile) (a : Assertion) (d : Diagnostic) :
  a.Contains files d ↔ ∃ id, d.file.bind (fileId? files) = some id ∧ a.Around id d.start
  := by
  simp only [Option.bind_eq_some_iff, fileId?_eq_some_iff]
  constructor
  · rintro ⟨name, f, located, last, around⟩
    use f.id, ⟨name, located, f, last, rfl⟩
  · rintro ⟨-, ⟨name, located, f, last, rfl⟩, around⟩
    use name, f

instance (files : List SourceFile) (a : Assertion) (d : Diagnostic) :
    Decidable (a.Contains files d) :=
  have : Decidable (∃ id, d.file.bind (fileId? files) = some id ∧ a.Around id d.start) :=
    decidable_of_iff ((d.file.bind (fileId? files)).any fun id => a.Around id d.start)
      (by simp [Option.any_eq_true])
  decidable_of_iff _ (a.contains_iff files d).symm

instance (d : Diagnostic) : Decidable d.Dropped :=
  have : Decidable (∃ name, d.file = some name ∧ isDependencyPath name = true) :=
    decidable_of_iff (d.file.any isDependencyPath) (by simp [Option.any_eq_true])
  inferInstanceAs (Decidable (_ ∨ _ ∨ _))

/-- A diagnostic that can be absorbed is absorbed by the first expected error that contains it. -/
theorem absorber?_eq (files : List SourceFile) (e : Extracted) (d : Diagnostic) :
  absorber? files e d
    = if d.code ∈ Code.suppressible ∧ ¬ d.Dropped then
        (e.ofKind .expectError).find? fun a => a.Contains files d
      else none
  := by
  cases located : d.file with
  | none => simp [absorber?, Diagnostic.Dropped, located]
  | some name =>
    have eligible : (isDependencyPath name = false ∧ d.code ∉ Code.ignored
        ∧ d.code ∈ Code.suppressible) ↔ d.code ∈ Code.suppressible ∧ ¬ d.Dropped := by
      simp only [Diagnostic.Dropped, located, Option.some.injEq, exists_eq_left', reduceCtorEq,
        false_or, not_or, Bool.not_eq_true]
      tauto
    simp only [absorber?, located, eligible]
    congr 1
    cases numbered : fileId? files name with
    | none =>
      symm
      simp [List.find?_eq_none, Assertion.contains_iff, located, numbered]
    | some id => simp [Assertion.contains_iff, located, numbered]

/-! ### One more expected error -/

variable {files : List SourceFile} {e e' : Extracted} {before after : List Assertion}
  {a : Assertion}

/-- With one more expected error, a diagnostic is absorbed as before unless the new one contains it
and comes first. -/
theorem absorbs_inserted_iff (without : e.ofKind .expectError = before ++ after)
    (inserted : e'.ofKind .expectError = before ++ a :: after) {b : Assertion} (other : b ≠ a)
    (d : Diagnostic) :
  Absorbs files e' d b ↔ Absorbs files e d b ∧ (b ∈ before ∨ ¬ a.Contains files d)
  := by
  rw [← absorber?_eq_some_iff, ← absorber?_eq_some_iff, absorber?_eq, absorber?_eq, without,
    inserted]
  split
  case isFalse => simp
  case isTrue =>
    rw [List.find?_append, List.find?_append, List.find?_cons]
    cases first : before.find? fun c => c.Contains files d with
    | some c =>
      have known := List.mem_of_find?_eq_some first
      simp only [Option.some_or, Option.some.injEq, iff_self_and]
      rintro rfl
      left
      apply known
    | none =>
      rw [Option.none_or, Option.none_or]
      have later (found : after.find? (fun c => c.Contains files d) = some b) : b ∉ before := by
        intro member
        have inside := List.find?_some found
        apply List.find?_eq_none.1 first b member inside
      by_cases inside : a.Contains files d
      · simp only [inside, decide_true, Option.some.injEq, other.symm, not_true, or_false,
          false_iff, not_and]
        apply later
      · simp [inside]

/-- With one more expected error, a diagnostic is reported as before unless the new one contains
it and it can be absorbed. -/
theorem reported_inserted_iff (without : e.ofKind .expectError = before ++ after)
    (inserted : e'.ofKind .expectError = before ++ a :: after) (d : Diagnostic) :
  Reported files e' d
    ↔ Reported files e d ∧ ¬ (d.code ∈ Code.suppressible ∧ a.Contains files d)
  := by
  rw [reported_iff, reported_iff, ← absorber?_eq_none_iff, ← absorber?_eq_none_iff, absorber?_eq,
    absorber?_eq, without, inserted]
  by_cases dropped : d.Dropped
  · simp [dropped]
  by_cases suppressible : d.code ∈ Code.suppressible
  · simp only [suppressible, dropped, not_false_eq_true, and_self, true_and, if_true,
      List.find?_append, List.find?_cons, Option.or_eq_none_iff, and_assoc, and_congr_right_iff]
    intro _
    by_cases inside : a.Contains files d <;> simp [inside]
  · simp [suppressible]

/-- An expected error comes in only once. -/
theorem ne_of_inserted (inserted : e'.ofKind .expectError = before ++ a :: after) {b : Assertion}
    (h : b ∈ before ++ after) :
  b ≠ a
  := by
  have once := e'.nodup_ofKind .expectError
  rw [inserted, List.nodup_middle, List.nodup_cons] at once
  rintro rfl
  apply once.1 h

/-- With one more expected error, another one is unmet if it was, or if it comes later and the new
one contains all that it absorbed. -/
theorem unmet_inserted_iff (without : e.ofKind .expectError = before ++ after)
    (inserted : e'.ofKind .expectError = before ++ a :: after) (diagnostics : List Diagnostic)
    {b : Assertion} (h : b ∈ before ++ after) :
  Unmet files e' diagnostics b
    ↔ Unmet files e diagnostics b
      ∨ (b ∈ after ∧ ∀ d ∈ diagnostics, Absorbs files e d b → a.Contains files d)
  := by
  have absorbs (d : Diagnostic) :
      Absorbs files e' d b ↔ Absorbs files e d b ∧ (b ∈ before ∨ ¬ a.Contains files d) :=
    absorbs_inserted_iff without inserted (ne_of_inserted inserted h) d
  have split := e.nodup_ofKind .expectError
  rw [without, List.nodup_append] at split
  constructor
  · intro unmet
    by_cases always : Unmet files e diagnostics b
    · left
      apply always
    right
    have taken {d : Diagnostic} (member : d ∈ diagnostics) (old : Absorbs files e d b) :
        b ∉ before ∧ a.Contains files d := by
      have lost := unmet d member
      rw [absorbs, not_and, not_or, not_not] at lost
      apply lost old
    simp only [Unmet, not_forall, not_not] at always
    obtain ⟨d, member, old⟩ := always
    constructor
    · apply (List.mem_append.1 h).resolve_left (taken member old).1
    · intro d member old
      apply (taken member old).2
  · rintro (unmet | ⟨later, contained⟩) d member new
    · apply unmet d member ((absorbs d).1 new).1
    · obtain ⟨old, early | free⟩ := (absorbs d).1 new
      · apply split.2.2 b early b later rfl
      · apply free (contained d member old)

open Reconciliation

/-- One more expected error, discovered at any place, takes from the preserved diagnostics those
that can be absorbed and lie inside its span.  Another expectation is left over if it was before,
or if it comes later and the new one contains each diagnostic that it absorbed before. -/
theorem reconcile_inserted (files : List SourceFile) (diagnostics : List Diagnostic)
    (seed : List Finding) {e e' : Extracted} {before after : List Assertion} {a : Assertion}
    (without : e.ofKind .expectError = before ++ after)
    (inserted : e'.ofKind .expectError = before ++ a :: after) :
  reconcile files diagnostics e seed
      = seed ++ (preserved files e diagnostics).map .diagnostic
        ++ (leftOver files e diagnostics).missing files
    ∧ reconcile files diagnostics e' seed
      = seed ++ (preserved files e' diagnostics).map .diagnostic
        ++ (leftOver files e' diagnostics).missing files
    ∧ preserved files e' diagnostics
      = (preserved files e diagnostics).filter
          (fun d => ¬ (d.code ∈ Code.suppressible ∧ a.Contains files d))
    ∧ ∀ b ∈ before ++ after,
      (b.id, b.span) ∈ (leftOver files e' diagnostics).entries
        ↔ (b.id, b.span) ∈ (leftOver files e diagnostics).entries
          ∨ (b ∈ after ∧ ∀ d ∈ diagnostics, Absorbs files e d b → a.Contains files d)
  := by
  refine ⟨rfl, rfl, ?_, ?_⟩
  · rw [preserved_eq, preserved_eq, List.filter_filter]
    apply List.filter_congr
    intro d _
    rw [← Bool.decide_and, decide_eq_decide, reported_inserted_iff without inserted, and_comm]
  · intro b h
    have old : b ∈ e.ofKind .expectError := by
      rw [without]
      apply h
    have new : b ∈ e'.ofKind .expectError := by
      rw [inserted, List.mem_append, List.mem_cons]
      apply (List.mem_append.1 h).imp_right .inr
    rw [mem_entries_leftOver_iff files e' diagnostics new,
      mem_entries_leftOver_iff files e diagnostics old]
    apply unmet_inserted_iff without inserted diagnostics h

/-- The overlapping expected errors but the outer one. -/
def innerOnly : Extracted where
  assertions :=
    [⟨⟨⟨0⟩, ⟨2⟩⟩, .expectError, ⟨⟨0⟩, 10, 20⟩⟩, ⟨⟨⟨0⟩, ⟨3⟩⟩, .expectError, ⟨⟨0⟩, 50, 60⟩⟩]
  distinct := by decide

/-- With the outer expected error the inner one is missing, because all that it absorbed lies inside
the outer one; the one apart from both is as before. -/
theorem reconcile_inserted_outer :
  let outer : Assertion := ⟨⟨⟨0⟩, ⟨1⟩⟩, .expectError, ⟨⟨0⟩, 0, 40⟩⟩
  let diagnostics := [errorAt 15, errorAt 30, errorAt 55]
  innerOnly.ofKind .expectError = [] ++ innerOnly.assertions
    ∧ overlapping.ofKind .expectError = [] ++ outer :: innerOnly.assertions
    ∧ preserved overlappingFiles overlapping diagnostics
      = (preserved overlappingFiles innerOnly diagnostics).filter
          (fun d => ¬ (d.code ∈ Code.suppressible ∧ outer.Contains overlappingFiles d))
    ∧ (⟨⟨0⟩, ⟨2⟩⟩, ⟨⟨0⟩, 10, 20⟩) ∈ (leftOver overlappingFiles overlapping diagnostics).entries
    ∧ (⟨⟨0⟩, ⟨3⟩⟩, ⟨⟨0⟩, 50, 60⟩) ∉ (leftOver overlappingFiles overlapping diagnostics).entries
  := by
  intro outer diagnostics
  have without : innerOnly.ofKind .expectError = [] ++ innerOnly.assertions := by
    decide
  have inserted : overlapping.ofKind .expectError = [] ++ outer :: innerOnly.assertions := by
    decide
  obtain ⟨-, -, kept, left⟩ :=
    reconcile_inserted overlappingFiles diagnostics [] without inserted
  use without, inserted, kept
  constructor
  · apply (left ⟨⟨⟨0⟩, ⟨2⟩⟩, .expectError, ⟨⟨0⟩, 10, 20⟩⟩ (by decide)).2
    right
    decide +kernel
  · rw [left ⟨⟨⟨0⟩, ⟨3⟩⟩, .expectError, ⟨⟨0⟩, 50, 60⟩⟩ (by decide)]
    decide +kernel

end TypeAssertions
