import Mathlib
import TypeAssertions.Expectation
import TypeAssertions.Proofs.Assertion.Extraction
import TypeAssertions.Proofs.Lookup
import TypeAssertions.Proofs.Syntax.Discovery

/-!
# The outermost expectation

Where the spans of a file are nested as its nodes are, the nodes around an offset lie on one path
from the root, and of two of them the one discovered first is above the other.  So the first
expectation around an offset, which is the one that an error there belongs to, is the outermost.

The nodes of the file need not form a tree: what counts is that the spans of children lie inside
that of their parent, and that different children of one parent have no byte in common.
-/

namespace TypeAssertions

/-! ### Spans -/

namespace Span

/-- Span `t` lies inside span `s` of the same file. -/
def Includes (s t : Span) : Prop := s.file = t.file ∧ s.start ≤ t.start ∧ t.stop ≤ s.stop

/-- Two spans have no byte in common. -/
def Apart (s t : Span) : Prop :=
  ∀ offset, ¬ ((s.start ≤ offset ∧ offset < s.stop) ∧ t.start ≤ offset ∧ offset < t.stop)

theorem Includes.refl (s : Span) :
  s.Includes s
  := ⟨rfl, UInt32.le_refl _, UInt32.le_refl _⟩

theorem Includes.trans {s t u : Span} (h : s.Includes t) (h' : t.Includes u) :
  s.Includes u
  := by
  obtain ⟨file, start, stop⟩ := h
  obtain ⟨file', start', stop'⟩ := h'
  exact ⟨file.trans file', UInt32.le_trans start start', UInt32.le_trans stop' stop⟩

theorem Includes.surrounds {s t : Span} (h : s.Includes t) {offset : UInt32}
    (inner : t.surrounds offset = true) :
  s.surrounds offset = true
  := by
  obtain ⟨-, start, stop⟩ := h
  rw [surrounds_iff] at inner ⊢
  exact ⟨UInt32.lt_of_le_of_lt start inner.1, UInt32.lt_of_lt_of_le inner.2 stop⟩

theorem Apart.not_surrounds {s t : Span} (h : s.Apart t) {offset : UInt32}
    (hs : s.surrounds offset = true) :
  t.surrounds offset = false
  := by
  rw [Bool.eq_false_iff]
  intro ht
  rw [surrounds_iff] at hs ht
  apply h offset
  exact ⟨⟨UInt32.le_of_lt hs.1, hs.2⟩, UInt32.le_of_lt ht.1, ht.2⟩

end Span

/-! ### Nested files -/

namespace SourceFile

/-- Every node below the root of a file has a span, which includes those of its children, and the
spans of different children of one node are apart. -/
structure Nested (f : SourceFile) : Prop where
  spanned : ∀ i, f.arena.Reaches f.root i → ∃ s, f.span? i = some s
  inside : ∀ i j s t, f.arena.Reaches f.root i → f.arena.IsChild i j →
    f.span? i = some s → f.span? j = some t → s.Includes t
  apart : ∀ i j k s t, f.arena.Reaches f.root i → f.arena.IsChild i j → f.arena.IsChild i k →
    j ≠ k → f.span? j = some s → f.span? k = some t → s.Apart t

/-- It suffices to look at finitely many indices, among which are the root and all children. -/
theorem nested_of_indices {f : SourceFile} (indices : List NodeIndex) (start : f.root ∈ indices)
    (closed : ∀ i ∈ indices, ∀ j ∈ f.arena.children i, j ∈ indices)
    (spanned : ∀ i ∈ indices, (f.span? i).isSome = true)
    (inside : ∀ i ∈ indices, ∀ j ∈ f.arena.children i,
      ∀ s ∈ (f.span? i).toList, ∀ t ∈ (f.span? j).toList,
        s.file = t.file ∧ s.start ≤ t.start ∧ t.stop ≤ s.stop)
    (ordered : ∀ i ∈ indices, ∀ j ∈ f.arena.children i, ∀ k ∈ f.arena.children i, j ≠ k →
      ∀ s ∈ (f.span? j).toList, ∀ t ∈ (f.span? k).toList,
        s.stop ≤ t.start ∨ t.stop ≤ s.start) :
  f.Nested
  := by
  have listed (i : NodeIndex) (h : f.arena.Reaches f.root i) : i ∈ indices :=
    Arena.mem_of_reaches start closed h
  constructor
  · intro i h
    apply Option.isSome_iff_exists.1 (spanned i (listed i h))
  · intro i j s t h child hs ht
    apply inside i (listed i h) j child s (by simp [hs]) t (by simp [ht])
  · intro i j k s t h hj hk different hs ht offset both
    obtain ⟨⟨low, high⟩, low', high'⟩ := both
    rcases ordered i (listed i h) j hj k hk different s (by simp [hs]) t (by simp [ht])
      with before | after
    · apply absurd (UInt32.lt_of_lt_of_le high before) (UInt32.not_lt.2 low')
    · apply absurd (UInt32.lt_of_lt_of_le high' after) (UInt32.not_lt.2 low)

/-- The span of a node surrounds an offset. -/
def IsAround (f : SourceFile) (offset : UInt32) (i : NodeIndex) : Prop :=
  ∃ s, f.span? i = some s ∧ s.surrounds offset = true

variable {f : SourceFile} {offset : UInt32}

theorem Nested.includes (nested : f.Nested) {i j : NodeIndex} (above : f.arena.Reaches f.root i)
    (h : f.arena.Reaches i j) {s t : Span} (hs : f.span? i = some s) (ht : f.span? j = some t) :
  s.Includes t
  := by
  induction h generalizing t with
  | refl =>
    obtain rfl := Option.some.inj (hs.symm.trans ht)
    apply Span.Includes.refl s
  | tail descent child ih =>
    have reached := Relation.ReflTransGen.trans above descent
    obtain ⟨u, hu⟩ := nested.spanned _ reached
    apply (ih hu).trans (nested.inside _ _ u t reached child hu ht)

theorem Nested.isAround (nested : f.Nested) {i j : NodeIndex} (above : f.arena.Reaches f.root i)
    (h : f.arena.Reaches i j) (around : f.IsAround offset j) :
  f.IsAround offset i
  := by
  obtain ⟨s, hs⟩ := nested.spanned i above
  obtain ⟨t, ht, inner⟩ := around
  use s, hs
  apply (nested.includes above h hs ht).surrounds inner

/-- At most one child of a node is around an offset. -/
theorem Nested.child_unique (nested : f.Nested) {i j k : NodeIndex}
    (above : f.arena.Reaches f.root i) (hj : f.arena.IsChild i j) (hk : f.arena.IsChild i k)
    (around : f.IsAround offset j) (around' : f.IsAround offset k) :
  j = k
  := by
  by_contra different
  obtain ⟨s, hs, inner⟩ := around
  obtain ⟨t, ht, inner'⟩ := around'
  have outside := (nested.apart i j k s t above hj hk different hs ht).not_surrounds inner
  rw [inner'] at outside
  cases outside

/-! ### Discovery from the outside in -/

/-- Of the nodes around an offset, those discovered before an index lie above it. -/
theorem Nested.reaches_of_discovered (nested : f.Nested) {indices : List NodeIndex}
    (h : f.arena.Discovered f.root indices) {j : NodeIndex} (below : f.arena.Reaches f.root j)
    (later : j ∉ indices) (around : f.IsAround offset j) :
  ∀ i ∈ indices, f.IsAround offset i → f.arena.Reaches i j
  := by
  induction h with
  | nil =>
    intro i member
    cases member
  | @snoc before k earlier fresh origin ih =>
    rw [List.mem_append, not_or] at later
    intro i member around_i
    rcases List.mem_append.1 member with old | new
    · apply ih later.1 i old around_i
    obtain rfl := List.mem_singleton.1 new
    rcases origin with rfl | ⟨p, found, child⟩
    · apply below
    -- The parent `p` lies above `j` too; the next step from it down to `j` must be `i`.
    have above := earlier.reaches p found
    have around_p := nested.isAround above (.single child) around_i
    rcases Relation.ReflTransGen.cases_head (ih later.1 p found around_p) with rfl | ⟨c, step, rest⟩
    · apply absurd found later.1
    · have around_c := nested.isAround (Relation.ReflTransGen.tail above step) rest around
      obtain rfl := nested.child_unique above child step around_i around_c
      apply rest

theorem Nested.pairwise_discovered (nested : f.Nested) (offset : UInt32) {indices : List NodeIndex}
    (h : f.arena.Discovered f.root indices) :
  indices.Pairwise fun i j => f.IsAround offset i → f.IsAround offset j → f.arena.Reaches i j
  := by
  induction h with
  | nil => apply List.Pairwise.nil
  | @snoc before j earlier fresh origin ih =>
    rw [List.pairwise_append]
    refine ⟨ih, List.pairwise_singleton _ _, ?_⟩
    intro i member k new around_i around_k
    obtain rfl := List.mem_singleton.1 new
    have below := (earlier.snoc fresh origin).reaches k (List.mem_append_right before new)
    apply nested.reaches_of_discovered earlier below fresh around_k i member around_i

/-! ### Assertions -/

/-- Of the assertions of a nested file around an offset, the earlier ones include the later. -/
theorem Nested.pairwise_assertions (nested : f.Nested) (offset : UInt32) :
  f.assertions.Pairwise fun a b =>
    a.span.surrounds offset = true → b.span.surrounds offset = true → a.span.Includes b.span
  := by
  have walked := f.arena.discovered_walk f.root
  rw [assertions, List.pairwise_filterMap]
  apply List.Pairwise.imp_of_mem _ (nested.pairwise_discovered offset walked)
  intro i j member_i member_j descends a found_a b found_b around_a around_b
  have hs := span?_of_assertion? found_a
  have ht := span?_of_assertion? found_b
  have below := descends ⟨a.span, hs, around_a⟩ ⟨b.span, ht, around_b⟩
  apply nested.includes (walked.reaches i member_i) below hs ht

end SourceFile

/-- Of the assertions extracted around an offset in a nested file, the earlier ones include the
later.  The numbers of the files are distinct, so that the assertions of other files do not
count. -/
theorem pairwise_ofFiles {files : List SourceFile} (numbered : (files.map SourceFile.id).Nodup)
    {f : SourceFile} (member : f ∈ files) (nested : f.Nested) (offset : UInt32) :
  (Extracted.ofFiles files).assertions.Pairwise fun a b =>
    a.span.file = f.id ∧ a.span.surrounds offset = true →
      b.span.file = f.id ∧ b.span.surrounds offset = true → a.span.Includes b.span
  := by
  apply List.Pairwise.sublist (Extracted.ofFiles_sublist files)
  rw [List.pairwise_flatMap]
  constructor
  · intro g other
    by_cases same : g.id = f.id
    · obtain rfl := List.inj_on_of_nodup_map numbered other member same
      apply List.Pairwise.imp _ (nested.pairwise_assertions offset)
      intro a b includes ha hb
      apply includes ha.2 hb.2
    · apply List.pairwise_of_forall_mem_list
      intro a ha b hb inside
      rw [SourceFile.file_of_mem_assertions ha] at inside
      apply absurd inside.1 same
  · rw [List.Nodup, List.pairwise_map] at numbered
    apply List.Pairwise.imp _ numbered
    intro g h different a ha b hb inside inside'
    rw [SourceFile.file_of_mem_assertions ha] at inside
    rw [SourceFile.file_of_mem_assertions hb] at inside'
    apply absurd (inside.1.trans inside'.1.symm) different

/-! ### The first expectation -/

/-- Where one expected error of a nested file surrounds an offset, the first one does, and its span
includes those of all others around the offset. -/
theorem firstAt?_outermost {files : List SourceFile}
    (numbered : (files.map SourceFile.id).Nodup) {f : SourceFile} (member : f ∈ files)
    (nested : f.Nested) (offset : UInt32) {entry : AssertionId × Span}
    (listed : entry ∈ (Expectations.ofExtracted (Extracted.ofFiles files)).entries)
    (inside : entry.2.file = f.id) (around : entry.2.surrounds offset = true) :
  let x := Expectations.ofExtracted (Extracted.ofFiles files)
  ∃ first ∈ x.entries, x.firstAt? f.id offset = some first.1
    ∧ first.2.file = f.id ∧ first.2.surrounds offset = true
    ∧ ∀ other ∈ x.entries, other.2.file = f.id → other.2.surrounds offset = true →
      first.2.Includes other.2
  := by
  intro x
  have covered (other : AssertionId × Span) :
      Expectations.covers f.id offset other = true
        ↔ other.2.file = f.id ∧ other.2.surrounds offset = true := by
    simp [Expectations.covers]
  have ordered : x.entries.Pairwise fun s t =>
      s.2.file = f.id ∧ s.2.surrounds offset = true →
        t.2.file = f.id ∧ t.2.surrounds offset = true → s.2.Includes t.2 := by
    simp only [x, Expectations.ofExtracted, List.pairwise_map]
    apply List.Pairwise.filter
    apply pairwise_ofFiles numbered member nested offset
  obtain ⟨first, found⟩ := Option.isSome_iff_exists.1
    (List.find?_isSome.2 ⟨entry, listed, (covered entry).2 ⟨inside, around⟩⟩)
  have surrounding := (covered first).1 (List.find?_some found)
  use first, List.mem_of_find?_eq_some found
  refine ⟨?_, surrounding.1, surrounding.2, ?_⟩
  · rw [Expectations.firstAt?, found]
    rfl
  · intro other known inside' around'
    apply rel_of_find? (fun s _ _ => Span.Includes.refl s.2) ordered found other known
    · apply (covered other).2 ⟨inside', around'⟩
    · apply surrounding
    · apply And.intro inside' around'

/-- A file with an expected error as the argument of another one. -/
def nestedCalls : SourceFile where
  id := ⟨1⟩
  name := "nested.ts"
  text := "/* both */ expectError(expectError(f), g);"
  arena := ⟨[⟨.sourceFile, 0, 42, [⟨1⟩]⟩, ⟨.callExpression, 0, 41, [⟨2⟩, ⟨3⟩, ⟨6⟩]⟩,
    ⟨.identifier, 11, 22, []⟩, ⟨.callExpression, 23, 37, [⟨4⟩, ⟨5⟩]⟩, ⟨.identifier, 23, 34, []⟩,
    ⟨.identifier, 35, 36, []⟩, ⟨.identifier, 38, 40, []⟩]⟩
  root := ⟨0⟩

theorem nested_nestedCalls :
  nestedCalls.Nested
  := by
  apply SourceFile.nested_of_indices [⟨0⟩, ⟨1⟩, ⟨2⟩, ⟨3⟩, ⟨4⟩, ⟨5⟩, ⟨6⟩] <;> decide +kernel

/-- Two files with the same calls. -/
def nestedFiles : List SourceFile := [{ nestedCalls with id := ⟨0⟩ }, nestedCalls]

theorem entries_nestedCalls :
  (Expectations.ofExtracted (Extracted.ofFiles nestedFiles)).entries
    = [(⟨⟨0⟩, ⟨1⟩⟩, ⟨⟨0⟩, 11, 41⟩), (⟨⟨0⟩, ⟨3⟩⟩, ⟨⟨0⟩, 23, 37⟩),
      (⟨⟨1⟩, ⟨1⟩⟩, ⟨⟨1⟩, 11, 41⟩), (⟨⟨1⟩, ⟨3⟩⟩, ⟨⟨1⟩, 23, 37⟩)]
  := by
  cbv

/-- Both expected errors of the second file are around offset 35, and the outer one is the first. -/
theorem firstAt?_outermost_nestedCalls :
  let x := Expectations.ofExtracted (Extracted.ofFiles nestedFiles)
  (⟨⟨1⟩, ⟨3⟩⟩, ⟨⟨1⟩, 23, 37⟩) ∈ x.entries
    ∧ ∃ first ∈ x.entries, x.firstAt? ⟨1⟩ 35 = some first.1
      ∧ first.2.file = ⟨1⟩ ∧ first.2.surrounds 35 = true
      ∧ ∀ other ∈ x.entries, other.2.file = ⟨1⟩ → other.2.surrounds 35 = true →
        first.2.Includes other.2
  := by
  intro x
  have inner : (⟨⟨1⟩, ⟨3⟩⟩, ⟨⟨1⟩, 23, 37⟩) ∈ x.entries := by
    simp [x, entries_nestedCalls]
  use inner
  apply firstAt?_outermost (by decide) (by simp [nestedFiles]) nested_nestedCalls 35 inner rfl (by decide)

end TypeAssertions
