import TypeAssertions.Proofs.Assertion.Extraction
import TypeAssertions.Proofs.Lookup
import TypeAssertions.Proofs.Snapshot.Program

/-!
# Verdicts

The verdict on an assertion is the last evaluation that a snapshot records at its site: under the
name of its file, with its span and its kind.  Playing the verdicts back gives an error for each
evaluated assertion whose verdict is an error that did not pass.
-/

namespace TypeAssertions

/-- The site of an assertion. -/
def Assertion.site (files : List SourceFile) (a : Assertion) : Site :=
  ⟨Expectations.fileName files a.span.file, a.span.start, a.span.stop, a.kind⟩

namespace Snapshot

/-- An evaluation is the last one at a site. -/
def LastAt (s : Snapshot) (site : Site) (v : Evaluation) : Prop :=
  v.site = site ∧ ∃ before after, s.evaluations = before ++ v :: after ∧ ∀ w ∈ after, w.site ≠ site

theorem get?_verdicts_eq_some_iff (s : Snapshot) (files : List SourceFile) (site : Site)
    (v : Evaluation) :
  (s.verdicts files).evaluations.get? site = some v ↔ s.LastAt site v
  := by
  have last := OrderedMap.get?_ofList_map_eq_some_iff Evaluation.site id s.evaluations site v
  simp only [id_eq, exists_eq_left] at last
  apply last

/-- The verdict on an assertion in one of the files. -/
theorem find?_verdicts_eq_some_iff (s : Snapshot) {a : Assertion}
    (placed : ∃ f ∈ s.sourceFiles, f.id = a.span.file) (v : Evaluation) :
  (s.verdicts s.sourceFiles).find? a = some v ↔ s.LastAt (a.site s.sourceFiles) v
  := by
  obtain ⟨f, member, same⟩ := placed
  have name : (s.verdicts s.sourceFiles).fileNames[a.span.file.index.toNat]?
      = some (Expectations.fileName s.sourceFiles a.span.file) := by
    rw [verdicts, List.getElem?_map]
    apply s.name_of_getElem?_sourceFiles member same
  rw [← get?_verdicts_eq_some_iff s s.sourceFiles, Verdicts.find?, name]
  rfl

end Snapshot

namespace Verdicts

theorem mem_evaluate_iff (v : Verdicts) (e : Extracted) (f : Finding) :
  f ∈ v.evaluate e.evaluable
    ↔ ∃ a ∈ e.assertions, a.kind ≠ .expectError ∧ v.finding? a = some f
  := by
  simp only [evaluate, List.mem_flatMap, List.mem_filterMap]
  constructor
  · rintro ⟨group, evaluated, a, member, found⟩
    obtain ⟨recorded, kind⟩ := (e.exists_mem_evaluable_iff a).1 ⟨group, evaluated, member⟩
    use a, recorded, kind, found
  · rintro ⟨a, recorded, kind, found⟩
    obtain ⟨group, evaluated, member⟩ := (e.exists_mem_evaluable_iff a).2 ⟨recorded, kind⟩
    use group, evaluated, a, member, found

/-- The finding of a verdict is an error when the verdict is one that did not pass. -/
theorem exists_error_finding?_iff (v : Verdicts) (a : Assertion) :
  (∃ f, v.finding? a = some f ∧ f.severity = .error)
    ↔ ∃ w, v.find? a = some w ∧ w.severity = .error ∧ w.passed = false
  := by
  simp only [finding?]
  cases v.find? a with
  | none => simp
  | some w =>
    cases severity : w.severity <;> cases passed : w.passed <;>
      simp [Finding.severity, severity, passed]

end Verdicts

/-- Playing the verdicts of a snapshot back gives no error when the verdict on every assertion that
is evaluated passed, if it is an error. -/
theorem Snapshot.forall_evaluate_iff (s : Snapshot) :
  let e := Extracted.ofFiles s.sourceFiles
  (∀ f ∈ (s.verdicts s.sourceFiles).evaluate e.evaluable, f.severity ≠ .error)
    ↔ ∀ a ∈ e.assertions, a.kind ≠ .expectError →
      ∀ v, s.LastAt (a.site s.sourceFiles) v → v.severity = .error → v.passed = true
  := by
  intro e
  have verdict {a : Assertion} (recorded : a ∈ e.assertions) :=
    s.find?_verdicts_eq_some_iff (Extracted.placed_of_mem_ofFiles recorded)
  simp only [Verdicts.mem_evaluate_iff]
  constructor
  · intro quiet a recorded kind v last error
    by_contra failed
    have found := (verdict recorded v).2 last
    obtain ⟨f, finding, bad⟩ := (Verdicts.exists_error_finding?_iff _ a).2
      ⟨v, found, error, Bool.eq_false_iff.2 failed⟩
    apply quiet f ⟨a, recorded, kind, finding⟩ bad
  · rintro held f ⟨a, recorded, kind, finding⟩ bad
    obtain ⟨v, found, error, failed⟩ := (Verdicts.exists_error_finding?_iff _ a).1 ⟨f, finding, bad⟩
    have passed := held a recorded kind v ((verdict recorded v).1 found) error
    rw [failed] at passed
    cases passed

end TypeAssertions
