import Mathlib
import TypeAssertions.Proofs.Snapshot.Verdicts

/-!
# Replay of verdicts

Playing the verdicts of a snapshot back joins its evaluations with the assertions of its program by
their sites.  The findings are those of the assertions that the snapshot tells of, in the order of
the assertions and each at its own span (`Snapshot.evaluate_replays`); evaluations at other sites
have no effect.
-/

namespace TypeAssertions

/-! ### Assertions that are evaluated -/

namespace Extracted

/-- The assertions that are evaluated, all but the expected errors: kind after kind, those of a kind
in the order of their discovery. -/
def evaluated (e : Extracted) : List Assertion :=
  (AssertionKind.all.filter fun k => k ≠ .expectError).flatMap e.ofKind

theorem mem_of_mem_evaluated {e : Extracted} {a : Assertion} (h : a ∈ e.evaluated) :
  a ∈ e.assertions
  := by
  obtain ⟨k, -, member⟩ := List.mem_flatMap.1 h
  apply (List.mem_filter.1 member).1

end Extracted

theorem Verdicts.evaluate_evaluable (v : Verdicts) (e : Extracted) :
  v.evaluate e.evaluable = e.evaluated.filterMap v.finding?
  := by
  rw [Extracted.evaluated, ← e.flatMap_groups, List.filterMap_flatMap]
  rfl

/-- An evaluation is at the site of an assertion that is evaluated. -/
def Evaluation.Matches (files : List SourceFile) (v : Evaluation) : Prop :=
  ∃ a ∈ (Extracted.ofFiles files).evaluated, v.site = a.site files

instance (files : List SourceFile) (v : Evaluation) : Decidable (v.Matches files) :=
  inferInstanceAs (Decidable (∃ a ∈ _, _))

namespace Snapshot

/-- The site of an assertion is in the file that the assertion is from, as long as there are not
more files than numbers. -/
theorem file_site_of_mem_assertions (s : Snapshot) (few : s.sourceFiles.length ≤ 2 ^ 32)
    {f : SourceFile} (listed : f ∈ s.sourceFiles) {a : Assertion} (inside : a ∈ f.assertions) :
  (a.site s.sourceFiles).file = f.name
  := by
  obtain ⟨i, at_i⟩ := List.mem_iff_getElem?.1 listed
  have small := Nat.lt_of_lt_of_le (List.getElem?_eq_some_iff.1 at_i).1 few
  have first : s.sourceFiles.find? (fun g => g.id = a.span.file) = some f := by
    rw [SourceFile.file_of_mem_assertions inside, id_of_getElem?_sourceFiles at_i,
      find?_id_sourceFiles, UInt32.toNat_ofNat', Nat.mod_eq_of_lt small, at_i]
  rw [Assertion.site, Expectations.fileName, first]
  rfl

/-! ### What a snapshot tells of -/

/-- A snapshot tells of an evaluation at a site: it is the last one there, and not an error that
passed. -/
def Tells (s : Snapshot) (site : Site) (v : Evaluation) : Prop :=
  s.LastAt site v ∧ ¬ (v.passed = true ∧ v.severity = .error)

/-- The evaluation at a site that a snapshot tells of. -/
def told? (s : Snapshot) (site : Site) : Option Evaluation :=
  (s.evaluations.reverse.find? fun v => v.site = site).filter fun v =>
    ¬ (v.passed = true ∧ v.severity = .error)

theorem told?_eq_some_iff {s : Snapshot} {site : Site} {v : Evaluation} :
  s.told? site = some v ↔ s.Tells site v
  := by
  rw [told?, Option.filter_eq_some_iff, find?_reverse_eq_some_iff, Tells, LastAt]
  simp only [decide_eq_true_eq, decide_eq_false_iff_not, ne_eq]

instance (s : Snapshot) (site : Site) : Decidable (∃ v, s.Tells site v) :=
  decidable_of_iff ((s.told? site).isSome = true) (by
    simp only [Option.isSome_iff_exists, told?_eq_some_iff])

/-- The finding of an assertion is that of the evaluation which the snapshot tells of at its
site. -/
theorem finding?_verdicts (s : Snapshot) {a : Assertion}
    (placed : ∃ f ∈ s.sourceFiles, f.id = a.span.file) :
  (s.verdicts s.sourceFiles).finding? a = (s.told? (a.site s.sourceFiles)).map fun v =>
    .verdict a.kind (a.site s.sourceFiles).file a.span v.message v.severity
  := by
  have verdict : (s.verdicts s.sourceFiles).find? a
      = s.evaluations.reverse.find? fun v => v.site = a.site s.sourceFiles := by
    apply Option.ext
    intro v
    rw [s.find?_verdicts_eq_some_iff placed, find?_reverse_eq_some_iff, LastAt]
    simp only [decide_eq_true_eq, decide_eq_false_iff_not, ne_eq]
  rw [Verdicts.finding?, told?, verdict]
  cases found : s.evaluations.reverse.find? fun v => v.site = a.site s.sourceFiles with
  | none => rfl
  | some v =>
    obtain ⟨site, -⟩ := find?_reverse_eq_some_iff.1 found
    rw [← of_decide_eq_true site]
    by_cases quiet : v.passed = true ∧ v.severity = .error
    · simp [quiet]
    · simp only [Option.filter_some, quiet, not_false_eq_true, decide_true, if_true, if_false]
      rfl

/-- Playing the verdicts back gives the findings of the evaluations that the snapshot tells of. -/
theorem evaluate_verdicts (s : Snapshot) :
  let e := Extracted.ofFiles s.sourceFiles
  (s.verdicts s.sourceFiles).evaluate e.evaluable
    = e.evaluated.filterMap fun a => (s.told? (a.site s.sourceFiles)).map fun v =>
        .verdict a.kind (a.site s.sourceFiles).file a.span v.message v.severity
  := by
  intro e
  rw [Verdicts.evaluate_evaluable]
  apply List.filterMap_congr
  intro a member
  apply s.finding?_verdicts (Extracted.placed_of_mem_ofFiles (Extracted.mem_of_mem_evaluated member))

/-- A snapshot tells the same at the site of an assertion that is evaluated, whatever it records at
sites of no such assertion. -/
theorem told?_of_matches {s s' : Snapshot} {files : List SourceFile}
    (same : s'.evaluations.filter (fun v => v.Matches files)
      = s.evaluations.filter fun v => v.Matches files) {a : Assertion}
    (member : a ∈ (Extracted.ofFiles files).evaluated) :
  s'.told? (a.site files) = s.told? (a.site files)
  := by
  have chosen (v : Evaluation) (h : decide (v.site = a.site files) = true) :
      decide (v.Matches files) = true := decide_eq_true ⟨a, member, of_decide_eq_true h⟩
  rw [told?, told?, ← find?_reverse_filter s'.evaluations chosen, same,
    find?_reverse_filter s.evaluations chosen]

/-- Playing the verdicts of a snapshot back on the assertions of its program gives one finding for
each evaluated assertion of whose site the snapshot tells, with the message and the severity of the
evaluation and the span of the assertion, and none for the others.  The findings are in the order
of the assertions.  Evaluations at sites of no such assertion have no effect, whether there are more
or fewer of them.  The name in a site is that of the file which the assertion is from. -/
theorem evaluate_replays (s : Snapshot) (p : Program Verdicts) (accepted : s.toProgram = .ok p) :
  let e := Extracted.ofFiles p.files
  let findings := p.model.evaluate e.evaluable
  List.Forall₂
      (fun (a : Assertion) finding => ∃ v, s.Tells (a.site p.files) v
        ∧ finding = .verdict a.kind (a.site p.files).file a.span v.message v.severity)
      (e.evaluated.filter fun a => ∃ v, s.Tells (a.site p.files) v) findings
    ∧ (∀ others : List Evaluation,
      others.filter (fun v => v.Matches p.files)
        = s.evaluations.filter (fun v => v.Matches p.files) →
      ∃ q, { s with evaluations := others }.toProgram = .ok q ∧ q.files = p.files
        ∧ q.model.evaluate e.evaluable = findings)
    ∧ (p.files.length ≤ 2 ^ 32 →
      ∀ f ∈ p.files, ∀ a ∈ f.assertions, (a.site p.files).file = f.name)
  := by
  obtain ⟨rooted, rfl⟩ := (s.toProgram_eq_ok_iff p).1 accepted
  intro e findings
  have told : findings = _ := s.evaluate_verdicts
  refine ⟨?_, ?_, ?_⟩
  · rw [told]
    apply forall₂_filterMap
    · intro a _
      rw [Option.isSome_map, ← Bool.coe_iff_coe, decide_eq_true_eq, Option.isSome_iff_exists]
      simp only [told?_eq_some_iff]
    · intro a _ finding found
      obtain ⟨v, tells, rfl⟩ := Option.map_eq_some_iff.1 found
      use v, told?_eq_some_iff.1 tells
  · intro others same
    let s' : Snapshot := { s with evaluations := others }
    use ⟨s'.sourceFiles, s'.syntaxDiagnostics, s'.semanticDiagnostics, s'.verdicts s'.sourceFiles⟩
    refine ⟨(s'.toProgram_eq_ok_iff _).2 ⟨rooted, rfl⟩, rfl, ?_⟩
    have told' : (s'.verdicts s'.sourceFiles).evaluate e.evaluable = _ := s'.evaluate_verdicts
    rw [told, told']
    apply List.filterMap_congr
    intro a member
    have agree : s'.told? (a.site s.sourceFiles) = s.told? (a.site s.sourceFiles) :=
      told?_of_matches same member
    rw [← agree]
    rfl
  · intro few f listed a inside
    apply s.file_site_of_mem_assertions few listed inside

end Snapshot

/-- A snapshot of two calls at one place.  The last evaluation there is a warning that passed; there
is an earlier one, and one with another span, one of another kind and one in another file. -/
def replayedSnapshot : Snapshot where
  files :=
    [⟨"a.ts", "printType(f)",
      ⟨[⟨.sourceFile, 0, 12, [⟨1⟩, ⟨3⟩]⟩, ⟨.callExpression, 0, 12, [⟨2⟩]⟩, ⟨.identifier, 0, 9, []⟩,
        ⟨.callExpression, 0, 12, [⟨2⟩]⟩]⟩, none⟩]
  syntaxDiagnostics := []
  semanticDiagnostics := []
  evaluations :=
    [⟨.printType, "a.ts", 0, 12, false, "f: unknown", .error⟩,
      ⟨.printType, "a.ts", 0, 12, true, "f: void", .warning⟩,
      ⟨.printType, "a.ts", 0, 11, false, "f: unknown", .error⟩,
      ⟨.expectError, "a.ts", 0, 12, false, "f: unknown", .error⟩,
      ⟨.printType, "b.ts", 0, 12, false, "f: unknown", .error⟩]

/-- The program of the snapshot. -/
def replayedProgram : Program Verdicts :=
  ⟨replayedSnapshot.sourceFiles, [], [], replayedSnapshot.verdicts replayedSnapshot.sourceFiles⟩

theorem toProgram_replayedSnapshot :
  replayedSnapshot.toProgram = .ok replayedProgram
  := by
  rw [Snapshot.toProgram_eq_ok_iff]
  have rooted : ∀ f ∈ replayedSnapshot.files, (f.nodes.get? (f.root.getD ⟨0⟩)).isSome = true := by
    decide
  use rooted
  rfl

/-- The two calls at one place both have the finding of the last evaluation there. -/
theorem evaluate_replays_shared :
  replayedSnapshot.toProgram = .ok replayedProgram
    ∧ replayedProgram.model.evaluate (Extracted.ofFiles replayedProgram.files).evaluable
      = [.verdict .printType "a.ts" ⟨⟨0⟩, 0, 12⟩ "f: void" .warning,
          .verdict .printType "a.ts" ⟨⟨0⟩, 0, 12⟩ "f: void" .warning]
  := by
  use toProgram_replayedSnapshot
  have joined := (replayedSnapshot.evaluate_replays _ toProgram_replayedSnapshot).1
  have chosen : ((Extracted.ofFiles replayedProgram.files).evaluated.filter fun a : Assertion =>
        ∃ v, replayedSnapshot.Tells (a.site replayedProgram.files) v)
      = [⟨⟨⟨0⟩, ⟨1⟩⟩, .printType, ⟨⟨0⟩, 0, 12⟩⟩, ⟨⟨⟨0⟩, ⟨3⟩⟩, .printType, ⟨⟨0⟩, 0, 12⟩⟩] := by
    cbv
  have told : replayedSnapshot.told? ⟨"a.ts", 0, 12, .printType⟩
      = some ⟨.printType, "a.ts", 0, 12, true, "f: void", .warning⟩ := by decide
  rw [chosen] at joined
  generalize replayedProgram.model.evaluate _ = findings at joined ⊢
  rcases joined with _ | ⟨⟨v, tells, rfl⟩, _ | ⟨⟨w, tells', rfl⟩, ⟨⟩⟩⟩
  obtain rfl := Option.some.inj (told.symm.trans (Snapshot.told?_eq_some_iff.2 tells))
  obtain rfl := Option.some.inj (told.symm.trans (Snapshot.told?_eq_some_iff.2 tells'))
  rfl

end TypeAssertions
