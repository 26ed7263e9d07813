import Mathlib.Data.List.Nodup
import TypeAssertions.Proofs.Lookup
import TypeAssertions.Reconciliation

/-!
# Absorption

A diagnostic of a checker is dropped, absorbed by an expected error, or reported.  The relations of
this module say which, without going through the program step by step: `Diagnostic.Dropped`,
`Absorbs`, in which the file of a diagnostic is the last one of its name and the expected error is
the first one around it, and `Reported`.

`absorber?` computes `Absorbs`, so that all three can be decided, and `reconcile_eq` says that the
findings of a program are the seed, the reported diagnostics and the expected errors that absorb
nothing, each list in its own order.
-/

namespace TypeAssertions

/-! ### The relations -/

/-- File `f` is the last one of a name. -/
def LastNamed (files : List SourceFile) (name : String) (f : SourceFile) : Prop :=
  f.name = name ∧ ∃ before after, files = before ++ f :: after ∧ ∀ g ∈ after, g.name ≠ name

/-- The span of an assertion lies around an offset in a file: it starts before and ends after. -/
def Assertion.Around (a : Assertion) (file : FileId) (offset : UInt32) : Prop :=
  a.span.file = file ∧ a.span.start < offset ∧ offset < a.span.stop

instance (a : Assertion) (file : FileId) (offset : UInt32) : Decidable (a.Around file offset) :=
  inferInstanceAs (Decidable (_ ∧ _ ∧ _))

/-- Expected error `a` is the first one, in the order of discovery, around an offset in a file. -/
def FirstAround (e : Extracted) (file : FileId) (offset : UInt32) (a : Assertion) : Prop :=
  a.Around file offset ∧ ∃ before after,
    e.ofKind .expectError = before ++ a :: after ∧ ∀ b ∈ before, ¬ b.Around file offset

/-- Expected error `a` absorbs diagnostic `d`.  The code of `d` is one that expected errors absorb,
its file is no dependency, and `a` is the first one around it in the last file of that name. -/
structure Absorbs (files : List SourceFile) (e : Extracted) (d : Diagnostic) (a : Assertion) :
    Prop where
  suppressible : d.code ∈ Code.suppressible
  notIgnored : d.code ∉ Code.ignored
  located : ∃ name, d.file = some name ∧ isDependencyPath name = false ∧
    ∃ f, LastNamed files name f ∧ FirstAround e f.id d.start a

/-- A diagnostic is dropped when it has no file, when its file is one of a dependency, and when its
code is ignored. -/
def Diagnostic.Dropped (d : Diagnostic) : Prop :=
  d.file = none ∨ (∃ name, d.file = some name ∧ isDependencyPath name = true)
    ∨ d.code ∈ Code.ignored

/-- A diagnostic is reported when it has a file that is no dependency, its code is not ignored, and
nothing absorbs it. -/
def Reported (files : List SourceFile) (e : Extracted) (d : Diagnostic) : Prop :=
  (∃ name, d.file = some name ∧ isDependencyPath name = false) ∧ d.code ∉ Code.ignored
    ∧ ∀ a, ¬ Absorbs files e d a

/-- An expected error is unmet when it absorbs none of the diagnostics. -/
def Unmet (files : List SourceFile) (e : Extracted) (diagnostics : List Diagnostic)
    (a : Assertion) : Prop :=
  ∀ d ∈ diagnostics, ¬ Absorbs files e d a

/-! ### Deciding them -/

theorem fileId?_eq_some_iff (files : List SourceFile) (name : String) (id : FileId) :
  fileId? files name = some id ↔ ∃ f, LastNamed files name f ∧ f.id = id
  := by
  simp only [fileId?, Option.map_eq_some_iff, find?_reverse_eq_some_iff, LastNamed,
    decide_eq_true_eq, decide_eq_false_iff_not, ne_eq]

theorem find?_around_eq_some_iff (e : Extracted) (file : FileId) (offset : UInt32)
    (a : Assertion) :
  (e.ofKind .expectError).find? (fun b => b.Around file offset) = some a
    ↔ FirstAround e file offset a
  := by
  simp [List.find?_eq_some_iff_append, FirstAround]

/-- The expected error that absorbs a diagnostic, if there is one. -/
def absorber? (files : List SourceFile) (e : Extracted) (d : Diagnostic) : Option Assertion :=
  match d.file with
  | none => none
  | some name =>
    if isDependencyPath name = false ∧ d.code ∉ Code.ignored ∧ d.code ∈ Code.suppressible then
      (fileId? files name).bind fun id =>
        (e.ofKind .expectError).find? fun a => a.Around id d.start
    else none

theorem absorber?_eq_some_iff (files : List SourceFile) (e : Extracted) (d : Diagnostic)
    (a : Assertion) :
  absorber? files e d = some a ↔ Absorbs files e d a
  := by
  cases located : d.file with
  | none =>
    simp only [absorber?, located, reduceCtorEq, false_iff]
    rintro ⟨-, -, name, named, -⟩
    rw [located] at named
    cases named
  | some name =>
    simp only [absorber?, located]
    constructor
    · intro h
      split at h
      case isTrue eligible =>
        obtain ⟨own, notIgnored, suppressible⟩ := eligible
        obtain ⟨id, found, first⟩ := Option.bind_eq_some_iff.1 h
        obtain ⟨f, last, rfl⟩ := (fileId?_eq_some_iff files name id).1 found
        rw [find?_around_eq_some_iff] at first
        exact ⟨suppressible, notIgnored, name, located, own, f, last, first⟩
      case isFalse => cases h
    · rintro ⟨suppressible, notIgnored, other, named, own, f, last, first⟩
      obtain rfl := Option.some.inj (located.symm.trans named)
      rw [if_pos ⟨own, notIgnored, suppressible⟩, Option.bind_eq_some_iff]
      refine ⟨f.id, (fileId?_eq_some_iff files name f.id).2 ⟨f, last, rfl⟩, ?_⟩
      rw [find?_around_eq_some_iff]
      apply first

instance (files : List SourceFile) (e : Extracted) (d : Diagnostic) (a : Assertion) :
    Decidable (Absorbs files e d a) :=
  decidable_of_iff _ (absorber?_eq_some_iff files e d a)

theorem absorber?_eq_none_iff (files : List SourceFile) (e : Extracted) (d : Diagnostic) :
  absorber? files e d = none ↔ ∀ a, ¬ Absorbs files e d a
  := by
  simp only [← absorber?_eq_some_iff, Option.eq_none_iff_forall_ne_some, ne_eq]

instance (files : List SourceFile) (e : Extracted) (d : Diagnostic) :
    Decidable (Reported files e d) :=
  have : Decidable (∃ name, d.file = some name ∧ isDependencyPath name = false) :=
    decidable_of_iff (d.file.any fun name => !isDependencyPath name) (by simp [Option.any_eq_true])
  have : Decidable (∀ a, ¬ Absorbs files e d a) :=
    decidable_of_iff _ (absorber?_eq_none_iff files e d)
  inferInstanceAs (Decidable (_ ∧ _ ∧ _))

instance (files : List SourceFile) (e : Extracted) (diagnostics : List Diagnostic)
    (a : Assertion) : Decidable (Unmet files e diagnostics a) :=
  inferInstanceAs (Decidable (∀ d ∈ diagnostics, _))

/-! ### What the relations exclude -/

/-- At most one expected error absorbs a diagnostic. -/
theorem Absorbs.unique {files : List SourceFile} {e : Extracted} {d : Diagnostic} {a b : Assertion}
    (ha : Absorbs files e d a) (hb : Absorbs files e d b) :
  a = b
  := by
  rw [← absorber?_eq_some_iff] at ha hb
  apply Option.some.inj (ha.symm.trans hb)

/-- Only expected errors absorb diagnostics. -/
theorem Absorbs.mem_ofKind {files : List SourceFile} {e : Extracted} {d : Diagnostic}
    {a : Assertion} (h : Absorbs files e d a) :
  a ∈ e.ofKind .expectError
  := by
  obtain ⟨-, -, -, -, -, -, -, -, before, after, split, -⟩ := h
  simp [split]

theorem Absorbs.not_dropped {files : List SourceFile} {e : Extracted} {d : Diagnostic}
    {a : Assertion} (h : Absorbs files e d a) :
  ¬ d.Dropped
  := by
  obtain ⟨-, notIgnored, name, located, own, -⟩ := h
  rintro (global | ⟨other, named, dependency⟩ | ignored)
  · rw [located] at global
    cases global
  · obtain rfl := Option.some.inj (located.symm.trans named)
    rw [own] at dependency
    cases dependency
  · apply notIgnored ignored

/-- A diagnostic that nothing absorbs is reported unless it is dropped. -/
theorem reported_iff (files : List SourceFile) (e : Extracted) (d : Diagnostic) :
  Reported files e d ↔ ¬ d.Dropped ∧ ∀ a, ¬ Absorbs files e d a
  := by
  simp only [Reported, Diagnostic.Dropped]
  cases d.file <;> simp [and_assoc]

/-- Two expected errors with one identity are the same. -/
theorem Extracted.eq_of_id_eq {e : Extracted} {k : AssertionKind} {a b : Assertion}
    (ha : a ∈ e.ofKind k) (hb : b ∈ e.ofKind k) (same : a.id = b.id) :
  a = b
  := by
  obtain ⟨ha, kind_a⟩ := List.mem_filter.1 ha
  obtain ⟨hb, kind_b⟩ := List.mem_filter.1 hb
  have kinds : a.kind = b.kind :=
    (of_decide_eq_true kind_a).trans (of_decide_eq_true kind_b).symm
  apply List.inj_on_of_nodup_map e.distinct ha hb
  apply Prod.ext kinds same

/-! ### Reconciliation -/

theorem firstAt?_ofExtracted (e : Extracted) (file : FileId) (offset : UInt32) :
  (Expectations.ofExtracted e).firstAt? file offset
    = ((e.ofKind .expectError).find? fun a => a.Around file offset).map Assertion.id
  := by
  have same : Expectations.covers file offset ∘ (fun a : Assertion => (a.id, a.span))
      = fun a => decide (a.Around file offset) := by
    funext a
    rw [Bool.eq_iff_iff, decide_eq_true_eq]
    simp [Expectations.covers, Assertion.Around, Span.surrounds]
  rw [Expectations.firstAt?, Expectations.ofExtracted, List.find?_map, same, Option.map_map]
  rfl

/-- What becomes of a diagnostic of the program's own files. -/
theorem classify_ofExtracted (files : List SourceFile) (e : Extracted) (d : Diagnostic)
    {name : String} (located : d.file = some name) (own : isDependencyPath name = false) :
  classify d (fileId? files name) (.ofExtracted e)
    = if d.code ∈ Code.ignored then .ignored
      else ((absorber? files e d).map fun a => Classification.absorbed a.id).getD .preserved
  := by
  simp only [classify, absorber?, located, own, true_and]
  by_cases ignored : d.code ∈ Code.ignored
  · simp [ignored]
  by_cases suppressible : d.code ∈ Code.suppressible
  · simp only [ignored, suppressible, not_true, not_false_eq_true, and_self, if_true, if_false]
    cases fileId? files name with
    | none => rfl
    | some id =>
      simp only [Option.bind_some, firstAt?_ofExtracted]
      cases (e.ofKind .expectError).find? fun a => a.Around id d.start <;> rfl
  · simp [ignored, suppressible]

/-- One more diagnostic is preserved if it is reported, and meets the expectation that absorbs
it. -/
theorem Progress.add_ofExtracted (files : List SourceFile) (e : Extracted) (p : Progress)
    (d : Diagnostic) :
  p.add files (.ofExtracted e) d
    = ⟨p.preserved ++ [d].filter fun d => Reported files e d,
        p.met ++ ((absorber? files e d).map Assertion.id).toList⟩
  := by
  have silent (dropped : d.Dropped) :
      p = ⟨p.preserved ++ [d].filter fun d => Reported files e d,
        p.met ++ ((absorber? files e d).map Assertion.id).toList⟩ := by
    have unreported : ¬ Reported files e d := fun h => ((reported_iff files e d).1 h).1 dropped
    have unabsorbed : absorber? files e d = none :=
      (absorber?_eq_none_iff files e d).2 fun a h => h.not_dropped dropped
    simp [unreported, unabsorbed]
  cases located : d.file with
  | none =>
    simp only [Progress.add, located]
    apply silent (.inl located)
  | some name =>
    simp only [Progress.add, located]
    cases own : isDependencyPath name with
    | true => apply silent (.inr (.inl ⟨name, located, own⟩))
    | false =>
      rw [if_neg Bool.false_ne_true, classify_ofExtracted files e d located own]
      by_cases ignored : d.code ∈ Code.ignored
      · rw [if_pos ignored]
        apply silent (.inr (.inr ignored))
      rw [if_neg ignored]
      have kept : ¬ d.Dropped := by
        simp [Diagnostic.Dropped, located, own, ignored]
      cases found : absorber? files e d with
      | none =>
        have reported : Reported files e d :=
          (reported_iff files e d).2 ⟨kept, (absorber?_eq_none_iff files e d).1 found⟩
        simp [reported]
      | some a =>
        have unreported : ¬ Reported files e d := fun h =>
          ((reported_iff files e d).1 h).2 a ((absorber?_eq_some_iff files e d a).1 found)
        simp [unreported]

theorem foldl_add_ofExtracted (files : List SourceFile) (e : Extracted) (p : Progress)
    (diagnostics : List Diagnostic) :
  diagnostics.foldl (Progress.add files (.ofExtracted e)) p
    = ⟨p.preserved ++ diagnostics.filter fun d => Reported files e d,
        p.met ++ diagnostics.filterMap fun d => (absorber? files e d).map Assertion.id⟩
  := by
  induction diagnostics generalizing p with
  | nil => simp
  | cons d rest ih =>
    rw [List.foldl_cons, ih, Progress.add_ofExtracted]
    congr 1
    · rw [List.append_assoc, ← List.filter_append, List.singleton_append]
    · rw [List.append_assoc, List.filterMap_cons]
      cases absorber? files e d <;> rfl

/-- The identities of the expectations met are those of the expected errors that are not unmet. -/
theorem id_not_mem_met_iff (files : List SourceFile) (e : Extracted)
    (diagnostics : List Diagnostic) {a : Assertion} (ha : a ∈ e.ofKind .expectError) :
  a.id ∉ diagnostics.filterMap (fun d => (absorber? files e d).map Assertion.id)
    ↔ Unmet files e diagnostics a
  := by
  simp only [List.mem_filterMap, Option.map_eq_some_iff, absorber?_eq_some_iff, Unmet, not_exists,
    not_and]
  constructor
  · intro absent d member absorbs
    apply absent d member a absorbs rfl
  · intro unmet d member b absorbs same
    obtain rfl := Extracted.eq_of_id_eq absorbs.mem_ofKind ha same
    apply unmet d member absorbs

/-- The expectations without those met are the unmet expected errors. -/
theorem entries_without_ofExtracted (files : List SourceFile) (e : Extracted)
    (diagnostics : List Diagnostic) :
  ((Expectations.ofExtracted e).without
      (diagnostics.filterMap fun d => (absorber? files e d).map Assertion.id)).entries
    = ((e.ofKind .expectError).filter fun a => Unmet files e diagnostics a).map fun a =>
        (a.id, a.span)
  := by
  simp only [Expectations.without, Expectations.ofExtracted, List.filter_map]
  congr 1
  apply List.filter_congr
  intro a ha
  apply decide_eq_decide.2 (id_not_mem_met_iff files e diagnostics ha)

/-- The finding that an expected error did not occur. -/
def Assertion.missing (files : List SourceFile) (a : Assertion) : Finding :=
  .missingError (Expectations.fileName files a.span.file) a.span Expectations.missingMessage

theorem missing_without_ofExtracted (files : List SourceFile) (e : Extracted)
    (diagnostics : List Diagnostic) :
  ((Expectations.ofExtracted e).without
      (diagnostics.filterMap fun d => (absorber? files e d).map Assertion.id)).missing files
    = ((e.ofKind .expectError).filter fun a => Unmet files e diagnostics a).map
        (Assertion.missing files)
  := by
  rw [Expectations.missing, entries_without_ofExtracted, List.map_map]
  rfl

/-- The findings of a program: the seed, the reported diagnostics, and the expected errors that
absorb nothing. -/
theorem reconcile_eq (files : List SourceFile) (diagnostics : List Diagnostic) (e : Extracted)
    (seed : List Finding) :
  reconcile files diagnostics e seed
    = seed ++ (diagnostics.filter fun d => Reported files e d).map Finding.diagnostic
      ++ ((e.ofKind .expectError).filter fun a => Unmet files e diagnostics a).map
          (Assertion.missing files)
  := by
  simp only [reconcile, foldl_add_ofExtracted, List.nil_append, missing_without_ofExtracted]

/-! ### Nothing is lost and nothing is reported twice -/

/-- What becomes of a diagnostic. -/
inductive Fate where
  | dropped
  | absorbed (a : Assertion)
  | reported

/-- Whether a diagnostic meets a fate. -/
def Fate.Of (files : List SourceFile) (e : Extracted) (d : Diagnostic) : Fate → Prop
  | .dropped => d.Dropped
  | .absorbed a => Absorbs files e d a
  | .reported => Reported files e d

/-- Every diagnostic meets exactly one fate. -/
theorem existsUnique_fate (files : List SourceFile) (e : Extracted) (d : Diagnostic) :
  ∃! fate, Fate.Of files e d fate
  := by
  by_cases dropped : d.Dropped
  · refine ⟨.dropped, dropped, ?_⟩
    rintro (_ | a | _) h
    · rfl
    · apply absurd dropped h.not_dropped
    · apply absurd dropped ((reported_iff files e d).1 h).1
  by_cases absorbed : ∃ a, Absorbs files e d a
  · obtain ⟨a, ha⟩ := absorbed
    refine ⟨.absorbed a, ha, ?_⟩
    rintro (_ | b | _) h
    · apply absurd h dropped
    · rw [Absorbs.unique h ha]
    · apply absurd ha (((reported_iff files e d).1 h).2 a)
  · have reported : Reported files e d :=
      (reported_iff files e d).2 ⟨dropped, fun a ha => absorbed ⟨a, ha⟩⟩
    refine ⟨.reported, reported, ?_⟩
    rintro (_ | b | _) h
    · apply absurd h dropped
    · apply absurd ⟨b, h⟩ absorbed
    · rfl

/-- Expected errors are listed once. -/
theorem Extracted.nodup_ofKind (e : Extracted) (k : AssertionKind) :
  (e.ofKind k).Nodup
  := e.distinct.of_map.filter _

/-- The findings of a program are the seed, the reported diagnostics in the order of the checker,
and a missing error for each unmet expectation in the order of discovery.  Every diagnostic is
dropped, absorbed by one expectation, or reported; every expectation either absorbs a diagnostic or
is among the missing ones exactly once. -/
theorem reconcile_account (files : List SourceFile) (diagnostics : List Diagnostic)
    (e : Extracted) (seed : List Finding) :
  let reported := diagnostics.filter fun d => Reported files e d
  let unmet := (e.ofKind .expectError).filter fun a => Unmet files e diagnostics a
  reconcile files diagnostics e seed
      = seed ++ reported.map Finding.diagnostic ++ unmet.map (Assertion.missing files)
    ∧ (∀ d, ∃! fate, Fate.Of files e d fate)
    ∧ ∀ a, unmet.count a
        = if a ∈ e.ofKind .expectError ∧ ¬ ∃ d ∈ diagnostics, Absorbs files e d a then 1 else 0
  := by
  refine ⟨reconcile_eq files diagnostics e seed, existsUnique_fate files e, ?_⟩
  intro a
  have once := (e.nodup_ofKind .expectError).filter fun a => Unmet files e diagnostics a
  have member : a ∈ (e.ofKind .expectError).filter (fun a => Unmet files e diagnostics a)
      ↔ a ∈ e.ofKind .expectError ∧ ¬ ∃ d ∈ diagnostics, Absorbs files e d a := by
    rw [List.mem_filter, decide_eq_true_iff]
    simp [Unmet]
  rw [List.Nodup.count once]
  apply if_congr member rfl rfl

end TypeAssertions
