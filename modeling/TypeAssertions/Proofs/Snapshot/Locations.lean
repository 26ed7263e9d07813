import Mathlib
import TypeAssertions.Proofs.Reconciliation.Absorption
import TypeAssertions.Proofs.Snapshot.Verdicts
import TypeAssertions.Proofs.Syntax.Discovery

/-!
# Locations

A missing error and a verdict show the name of a file and a span.  Whatever graph the nodes of a
snapshot are, and whatever offsets they have, what is shown is a call of the assertion in the text
of a file, and the name is that of the file with the number in the span.
-/

namespace TypeAssertions

/-! ### Calls -/

namespace SourceFile

/-- A file has a call of assertions of a kind at a span: a call node at or below the root, with
this span and the name of the kind as its callee. -/
structure HasCall (f : SourceFile) (kind : AssertionKind) (span : Span) : Prop where
  nonempty : span.start < span.stop
  inside : span.stop.toNat ≤ f.size
  call : ∃ i node callee, f.arena.Reaches f.root i ∧ f.arena.get? i = some node
    ∧ node.kind = .callExpression ∧ node.children.head? = some callee
    ∧ f.nodeText? callee = some kind.name ∧ f.span? i = some span

variable {f : SourceFile} {a : Assertion}

theorem stop_le_size_of_span? {i : NodeIndex} {s : Span} (h : f.span? i = some s) :
  s.stop.toNat ≤ f.size
  := by
  simp only [span?] at h
  split at h
  · cases h
  · split at h
    · cases h
    case isFalse proper =>
      obtain rfl := Option.some.inj h
      apply Nat.le_of_not_lt
      intro beyond
      apply proper (.inr beyond)

theorem hasCall_of_mem_assertions (h : a ∈ f.assertions) :
  f.HasCall a.kind a.span
  := by
  obtain ⟨i, visited, found⟩ := List.mem_filterMap.1 h
  obtain ⟨node, callee, text, node_at, call, first, spelled, rfl, located, solid, -⟩ :=
    assertion?_eq_some_iff.1 found
  constructor
  · apply UInt32.not_le.1
    rw [Span.isEmpty, decide_eq_false_iff_not] at solid
    apply solid
  · apply stop_le_size_of_span? located
  · have reached := (f.arena.discovered_walk f.root).reaches i visited
    use i, node, callee

end SourceFile

/-- Every extracted assertion is a call in one of the files. -/
theorem Extracted.exists_hasCall {files : List SourceFile} {a : Assertion}
    (h : a ∈ (Extracted.ofFiles files).assertions) :
  ∃ f ∈ files, f.id = a.span.file ∧ f.HasCall a.kind a.span
  := by
  obtain ⟨f, member, inside⟩ := List.mem_flatMap.1 ((Extracted.ofFiles_sublist files).subset h)
  use f, member, (SourceFile.file_of_mem_assertions inside).symm
  apply SourceFile.hasCall_of_mem_assertions inside

/-! ### What findings show -/

/-- The kind of assertion, the file name and the span that a finding shows, unless it is a
diagnostic. -/
def Finding.shown? : Finding → Option (AssertionKind × String × Span)
  | .diagnostic _ => none
  | .missingError file span _ => some (.expectError, file, span)
  | .verdict kind file span _ _ => some (kind, file, span)

/-- What a finding of reconciliation shows is shown by the seed, or is an expected error under the
name of its file. -/
theorem shown?_of_mem_reconcile {files : List SourceFile} {diagnostics : List Diagnostic}
    {e : Extracted} {seed : List Finding} {finding : Finding}
    (h : finding ∈ reconcile files diagnostics e seed) :
  finding ∈ seed ∨ finding.shown? = none
    ∨ ∃ a ∈ e.assertions,
      finding.shown? = some (a.kind, Expectations.fileName files a.span.file, a.span)
  := by
  rw [reconcile_eq, List.mem_append, List.mem_append, List.mem_map, List.mem_map] at h
  rcases h with (seeded | ⟨d, -, rfl⟩) | ⟨a, member, rfl⟩
  · left
    apply seeded
  · right; left
    rfl
  · right; right
    obtain ⟨recorded, kind⟩ := List.mem_filter.1 (List.mem_filter.1 member).1
    use a, recorded
    rw [of_decide_eq_true kind]
    rfl

namespace Snapshot

/-- A verdict that is played back shows its assertion under the name of its file. -/
theorem shown?_of_mem_evaluate (s : Snapshot) {finding : Finding} :
  let e := Extracted.ofFiles s.sourceFiles
  finding ∈ (s.verdicts s.sourceFiles).evaluate e.evaluable → ∃ a ∈ e.assertions,
    finding.shown? = some (a.kind, Expectations.fileName s.sourceFiles a.span.file, a.span)
  := by
  intro e h
  obtain ⟨a, recorded, -, found⟩ := (Verdicts.mem_evaluate_iff _ e finding).1 h
  use a, recorded
  rw [Verdicts.finding?] at found
  split at found
  · cases found
  case h_2 v verdict =>
    split at found
    · cases found
    · obtain rfl := Option.some.inj found
      have placed := Extracted.placed_of_mem_ofFiles recorded
      obtain ⟨same, -⟩ := (s.find?_verdicts_eq_some_iff placed v).1 verdict
      have file : v.file = (a.site s.sourceFiles).file := by
        rw [← same]
        rfl
      rw [Finding.shown?, file]
      rfl

/-- A snapshot is refused when the root of one of its files is not among the nodes; otherwise the
files of its program have their places as their numbers.  Each finding but the diagnostics then
shows a call of its assertion in the file at a place with the number in the span, and the name of
the file with that number.  Numbers are 32 bits wide, so that these are one file unless there are
more files than numbers. -/
theorem findings_located (s : Snapshot) :
  ((∃ e, s.toProgram = .error e) ↔ ∃ f ∈ s.files, f.nodes.get? (f.root.getD ⟨0⟩) = none)
  ∧ ∀ p, s.toProgram = .ok p →
    (p.files = s.sourceFiles
      ∧ ∀ (i : Nat) (f : SourceFile), p.files[i]? = some f → f.id = ⟨UInt32.ofNat i⟩)
    ∧ ∀ finding ∈ (p.outcome (p.model.evaluate (Extracted.ofFiles p.files).evaluable)).findings,
      ∀ kind name span, finding.shown? = some (kind, name, span) →
        (p.files[span.file.index.toNat]?).map SourceFile.name = some name
        ∧ ∃ (i : Nat) (f : SourceFile),
          p.files[i]? = some f ∧ f.HasCall kind span ∧ span.file = ⟨UInt32.ofNat i⟩
          ∧ (p.files.length ≤ 2 ^ 32 → span.file.index.toNat = i)
  := by
  use s.toProgram_eq_error_iff
  intro p accepted
  obtain ⟨-, rfl⟩ := (s.toProgram_eq_ok_iff p).1 accepted
  constructor
  · use rfl
    intro i f
    apply id_of_getElem?_sourceFiles
  · intro finding member kind name span shown
    have source : ∃ a ∈ (Extracted.ofFiles s.sourceFiles).assertions, finding.shown?
        = some (a.kind, Expectations.fileName s.sourceFiles a.span.file, a.span) := by
      rcases shown?_of_mem_reconcile member with seeded | nothing | expected
      · apply s.shown?_of_mem_evaluate seeded
      · rw [nothing] at shown
        cases shown
      · apply expected
    obtain ⟨a, recorded, same⟩ := source
    obtain ⟨rfl, rfl, rfl⟩ : kind = a.kind
        ∧ name = Expectations.fileName s.sourceFiles a.span.file ∧ span = a.span := by
      simpa using shown.symm.trans same
    obtain ⟨f, listed, numbered, call⟩ := Extracted.exists_hasCall recorded
    use s.name_of_getElem?_sourceFiles listed numbered
    obtain ⟨i, at_i⟩ := List.mem_iff_getElem?.1 listed
    have number := numbered.symm.trans (id_of_getElem?_sourceFiles at_i)
    use i, f, at_i, call, number
    intro few
    have inside := (List.getElem?_eq_some_iff.1 at_i).1
    rw [number, UInt32.toNat_ofNat', Nat.mod_eq_of_lt (Nat.lt_of_lt_of_le inside few)]

end Snapshot

/-- A snapshot with two files.  In the second one the offsets of the root are the wrong way round,
calls lead back to the nodes above them, and one has a child that is missing. -/
def tangledSnapshot : Snapshot where
  files :=
    [⟨"empty.ts", "", ⟨[⟨.sourceFile, 0, 0, []⟩]⟩, none⟩,
      ⟨"a.ts", " expectError(printType(f))",
        ⟨[⟨.sourceFile, 26, 0, [⟨1⟩]⟩, ⟨.callExpression, 0, 26, [⟨2⟩, ⟨3⟩, ⟨0⟩, ⟨9⟩]⟩,
          ⟨.other, 0, 12, []⟩, ⟨.callExpression, 13, 25, [⟨4⟩, ⟨1⟩]⟩, ⟨.other, 13, 22, []⟩]⟩,
        some ⟨0⟩⟩]
  syntaxDiagnostics := []
  semanticDiagnostics := []
  evaluations := [⟨.printType, "a.ts", 13, 25, false, "f: void", .warning⟩]

/-- The program of the snapshot. -/
def tangledProgram : Program Verdicts :=
  ⟨tangledSnapshot.sourceFiles, [], [], tangledSnapshot.verdicts tangledSnapshot.sourceFiles⟩

theorem toProgram_tangledSnapshot :
  tangledSnapshot.toProgram = .ok tangledProgram
  := by
  have rooted : ∀ f ∈ tangledSnapshot.files, (f.nodes.get? (f.root.getD ⟨0⟩)).isSome = true := by
    decide
  rw [Snapshot.toProgram_eq_ok_iff]
  use rooted
  rfl

theorem findings_tangledProgram :
  (tangledProgram.outcome
      (tangledProgram.model.evaluate (Extracted.ofFiles tangledProgram.files).evaluable)).findings
    = [.verdict .printType "a.ts" ⟨⟨1⟩, 13, 25⟩ "f: void" .warning,
        .missingError "a.ts" ⟨⟨1⟩, 1, 26⟩ Expectations.missingMessage]
  := by
  cbv

/-- The two findings of the tangled snapshot show the calls of its second file, without the blank
before the outer one. -/
theorem findings_located_tangled :
  tangledSnapshot.toProgram = .ok tangledProgram
    ∧ ∀ shown ∈ [(AssertionKind.printType, "a.ts", (⟨⟨1⟩, 13, 25⟩ : Span)),
        (.expectError, "a.ts", ⟨⟨1⟩, 1, 26⟩)],
      ∃ (i : Nat) (f : SourceFile), tangledProgram.files[i]? = some f
        ∧ f.HasCall shown.1 shown.2.2 ∧ shown.2.2.file = ⟨UInt32.ofNat i⟩
        ∧ (tangledProgram.files.length ≤ 2 ^ 32 → shown.2.2.file.index.toNat = i)
  := by
  use toProgram_tangledSnapshot
  have located :=
    ((Snapshot.findings_located tangledSnapshot).2 tangledProgram toProgram_tangledSnapshot).2
  rw [findings_tangledProgram] at located
  intro shown member
  rcases List.mem_pair.1 member with rfl | rfl
  · apply (located _ List.mem_cons_self _ _ _ rfl).2
  · apply (located _ (List.mem_cons_of_mem _ List.mem_cons_self) _ _ _ rfl).2

end TypeAssertions
