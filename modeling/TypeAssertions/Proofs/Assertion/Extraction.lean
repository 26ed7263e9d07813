import Mathlib.Data.Option.Basic
import Mathlib.Tactic.Use
import TypeAssertions.Assertion.Extraction

/-!
# What is extracted

A node is an assertion when it is a call whose first child has the text of a kind's name and whose
own span is not empty.  The assertions of files are among those of their nodes and come in the same
order, because recording one never moves another.
-/

namespace TypeAssertions

namespace SourceFile

variable {f : SourceFile} {i : NodeIndex} {a : Assertion}

theorem assertion?_eq_some_iff :
  f.assertion? i = some a
    ↔ ∃ node callee text, f.arena.get? i = some node ∧ node.kind = .callExpression
      ∧ node.children.head? = some callee ∧ f.nodeText? callee = some text
      ∧ text = a.kind.name ∧ f.span? i = some a.span ∧ a.span.isEmpty = false
      ∧ a.id = ⟨f.id, i⟩
  := by
  simp only [assertion?, Option.bind_eq_bind, Option.bind_eq_some_iff, Option.guard_eq_some',
    AssertionKind.ofName?_eq_some_iff, Option.pure_def, Option.some.injEq, exists_and_left,
    exists_const, Bool.not_eq_true']
  constructor
  · rintro ⟨node, found, call, callee, first, text, spelled, kind, rfl, span, located, solid, rfl⟩
    use node, found, call, callee, first, kind.name
  · rintro ⟨node, found, call, callee, first, text, spelled, named, located, solid, same⟩
    use node, found, call, callee, first, text, spelled, a.kind, named, a.span, located, solid
    obtain ⟨id, kind, span⟩ := a
    obtain rfl := same
    rfl

theorem span?_of_assertion? (h : f.assertion? i = some a) :
  f.span? i = some a.span
  := by
  obtain ⟨-, -, -, -, -, -, -, -, located, -, -⟩ := assertion?_eq_some_iff.1 h
  apply located

theorem file_of_span? {s : Span} (h : f.span? i = some s) :
  s.file = f.id
  := by
  simp only [span?] at h
  split at h
  · cases h
  · split at h
    · cases h
    · obtain rfl := Option.some.inj h
      rfl

theorem file_of_mem_assertions (h : a ∈ f.assertions) :
  a.span.file = f.id
  := by
  obtain ⟨i, -, found⟩ := List.mem_filterMap.1 h
  apply file_of_span? (span?_of_assertion? found)

end SourceFile

/-- Recording assertions keeps those that are there, and adds some of the new ones in order. -/
theorem Extracted.foldl_insert_sublist (e : Extracted) (assertions : List Assertion) :
  (assertions.foldl Extracted.insert e).assertions.Sublist (e.assertions ++ assertions)
  := by
  induction assertions generalizing e with
  | nil => simp
  | cons a rest ih =>
    apply (ih (e.insert a)).trans
    rw [Extracted.assertions_insert]
    split
    · apply List.Sublist.append_left
      apply List.sublist_cons_self
    · simp

theorem Extracted.ofFiles_sublist (files : List SourceFile) :
  (Extracted.ofFiles files).assertions.Sublist (files.flatMap SourceFile.assertions)
  := Extracted.foldl_insert_sublist .empty _

/-- Every extracted assertion lies in one of the files. -/
theorem Extracted.placed_of_mem_ofFiles {files : List SourceFile} {a : Assertion}
    (h : a ∈ (Extracted.ofFiles files).assertions) :
  ∃ f ∈ files, f.id = a.span.file
  := by
  obtain ⟨f, member, inside⟩ := List.mem_flatMap.1 ((Extracted.ofFiles_sublist files).subset h)
  use f, member
  apply (SourceFile.file_of_mem_assertions inside).symm

/-- The groups of some kinds hold the assertions of these kinds, kind after kind. -/
theorem Extracted.flatMap_groups (e : Extracted) (p : AssertionKind → Bool) :
  (e.groups.filter fun group => p group.1).flatMap Prod.snd
    = (AssertionKind.all.filter p).flatMap e.ofKind
  := by
  rw [groups, List.filter_filter]
  induction AssertionKind.all with
  | nil => rfl
  | cons k rest ih =>
    rw [List.map_cons, List.filter_cons, List.filter_cons]
    by_cases chosen : p k = true
    · by_cases empty : e.ofKind k = []
      · simpa [chosen, empty] using ih
      · simpa [chosen, empty] using ih
    · simpa [chosen] using ih

/-- The groups that are evaluated hold all assertions but the expected errors. -/
theorem Extracted.exists_mem_evaluable_iff (e : Extracted) (a : Assertion) :
  (∃ group ∈ e.evaluable, a ∈ group.2) ↔ a ∈ e.assertions ∧ a.kind ≠ .expectError
  := by
  simp only [evaluable, groups, List.mem_filter, List.mem_map, decide_eq_true_eq]
  constructor
  · rintro ⟨-, ⟨⟨⟨k, -, rfl⟩, -⟩, evaluated⟩, member⟩
    obtain ⟨recorded, kind⟩ := List.mem_filter.1 member
    rw [of_decide_eq_true kind]
    use recorded, evaluated
  · rintro ⟨recorded, evaluated⟩
    have member : a ∈ e.ofKind a.kind := by simp [ofKind, recorded]
    have inhabited : (e.ofKind a.kind).isEmpty = false :=
      List.isEmpty_eq_false_iff.2 (List.ne_nil_of_mem member)
    use (a.kind, e.ofKind a.kind)
    constructor
    · constructor
      · constructor
        · use a.kind, a.kind.mem_all
        · rw [inhabited, Bool.not_false]
      · apply evaluated
    · apply member

end TypeAssertions
