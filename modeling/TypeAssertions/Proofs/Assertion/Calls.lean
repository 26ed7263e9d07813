import Mathlib
import TypeAssertions.Proofs.Assertion.Register
import TypeAssertions.Proofs.Syntax.DepthFirst

/-!
# Calls of assertions

`SourceFile.Calls` says that a node is a call of the assertions of a kind, in a file whose nodes may
be any graph.  From files with distinct numbers each such node at or below the root of its file is
extracted once and under its kind, and nothing else is (`Extracted.ofFiles_calls`): the files come
in their order, and the nodes of a file in the order of depth-first search.
-/

namespace TypeAssertions

/-! ### Calls in a file -/

namespace SourceFile

/-- A node calls the assertions of a kind: it is a call, the text of its first child is the name of
the kind, and its own text is not empty. -/
structure Calls (f : SourceFile) (k : AssertionKind) (i : NodeIndex) : Prop where
  named : ∃ node callee, f.arena.get? i = some node ∧ node.kind = .callExpression
    ∧ node.children.head? = some callee ∧ f.nodeText? callee = some k.name
  solid : ∃ span, f.span? i = some span ∧ span.start < span.stop

/-- The nodes at or below the root in the order of depth-first search. -/
def preorder (f : SourceFile) : List NodeIndex := (f.arena.visit [] f.root).after

variable {f : SourceFile} {k : AssertionKind} {i : NodeIndex} {a : Assertion}

theorem calls_iff :
  f.Calls k i ↔ ∃ a, f.assertion? i = some a ∧ a.kind = k
  := by
  constructor
  · rintro ⟨⟨node, callee, found, call, first, named⟩, span, located, solid⟩
    use ⟨⟨f.id, i⟩, k, span⟩
    rw [assertion?_eq_some_iff]
    refine ⟨⟨node, callee, k.name, found, call, first, named, rfl, located, ?_, rfl⟩, rfl⟩
    apply decide_eq_false (UInt32.not_le.2 solid)
  · rintro ⟨a, found, rfl⟩
    obtain ⟨node, callee, text, found, call, first, named, rfl, located, solid, -⟩ :=
      assertion?_eq_some_iff.1 found
    constructor
    · use node, callee
    · use a.span, located
      apply UInt32.not_le.1 (of_decide_eq_false solid)

instance (f : SourceFile) (k : AssertionKind) (i : NodeIndex) : Decidable (f.Calls k i) :=
  decidable_of_iff (∃ a ∈ f.assertion? i, a.kind = k) calls_iff.symm

theorem calls_of_assertion? (found : f.assertion? i = some a) :
  f.Calls k i ↔ a.kind = k
  := by
  simp [calls_iff, found]

theorem mem_preorder_iff :
  i ∈ f.preorder ↔ (f.arena.get? i).isSome = true ∧ f.arena.Reaches f.root i
  := by
  rw [preorder, ← Arena.walk_eq_visit, Arena.mem_walk_iff]

theorem nodup_preorder (f : SourceFile) :
  f.preorder.Nodup
  := by
  rw [preorder, ← Arena.walk_eq_visit]
  apply (Arena.discovered_walk f.arena f.root).nodup

theorem assertions_eq (f : SourceFile) :
  f.assertions = f.preorder.filterMap f.assertion?
  := by
  rw [assertions, Arena.walk_eq_visit, preorder]

theorem id_of_assertion? (found : f.assertion? i = some a) :
  a.id = ⟨f.id, i⟩
  := by
  obtain ⟨-, -, -, -, -, -, -, -, -, -, same⟩ := assertion?_eq_some_iff.1 found
  apply same

theorem mem_assertions_iff :
  a ∈ f.assertions ↔ f.assertion? a.id.node = some a ∧ f.arena.Reaches f.root a.id.node
  := by
  rw [assertions_eq, List.mem_filterMap]
  constructor
  · rintro ⟨i, listed, found⟩
    rw [id_of_assertion? found]
    use found, (mem_preorder_iff.1 listed).2
  · rintro ⟨found, reached⟩
    obtain ⟨node, -, -, isNode, -⟩ := assertion?_eq_some_iff.1 found
    use a.id.node
    rw [mem_preorder_iff, isNode]
    use ⟨rfl, reached⟩

theorem nodup_assertions (f : SourceFile) :
  (f.assertions.map Assertion.id).Nodup
  := by
  rw [assertions_eq, List.map_filterMap]
  apply f.nodup_preorder.filterMap
  intro i j id hi hj
  simp only [Option.mem_def, Option.map_eq_some_iff] at hi hj
  obtain ⟨a, found, rfl⟩ := hi
  obtain ⟨b, found', same⟩ := hj
  rw [id_of_assertion? found, id_of_assertion? found'] at same
  apply (AssertionId.mk.inj same).2.symm

/-- The assertions of a kind among nodes are those at the nodes that call it. -/
theorem filter_filterMap_assertion? (f : SourceFile) (k : AssertionKind)
    (indices : List NodeIndex) :
  ((indices.filterMap f.assertion?).filter fun a => a.kind = k).map (fun a => (a.id, some a.span))
    = (indices.filter fun i => f.Calls k i).map fun i => (⟨f.id, i⟩, f.span? i)
  := by
  induction indices with
  | nil => rfl
  | cons i rest ih =>
    cases found : f.assertion? i with
    | none =>
      have other : ¬ f.Calls k i := by simp [calls_iff, found]
      rw [List.filterMap_cons_none found, ih, List.filter_cons_of_neg (by simpa using other)]
    | some a =>
      rw [List.filterMap_cons_some found]
      by_cases same : a.kind = k
      · have calls : f.Calls k i := (calls_of_assertion? found).2 same
        rw [List.filter_cons_of_pos (by simpa using same),
          List.filter_cons_of_pos (by simpa using calls), List.map_cons, List.map_cons, ih,
          id_of_assertion? found, span?_of_assertion? found]
      · have other : ¬ f.Calls k i := fun calls => same ((calls_of_assertion? found).1 calls)
        rw [List.filter_cons_of_neg (by simpa using same),
          List.filter_cons_of_neg (by simpa using other), ih]

theorem isSome_assertion?_iff :
  (f.assertion? i).isSome = true ↔ ∃ k, f.Calls k i
  := by
  simp [calls_iff, Option.isSome_iff_exists]

/-- A file has as many assertions as there are nodes at or below its root that call assertions. -/
theorem length_assertions (f : SourceFile) :
  f.assertions.length = {i | f.arena.Reaches f.root i ∧ ∃ k, f.Calls k i}.ncard
  := by
  have distinct := f.nodup_preorder.filter fun i => (f.assertion? i).isSome
  rw [assertions_eq, List.length_filterMap_eq_countP, List.countP_eq_length_filter,
    ← List.toFinset_card_of_nodup distinct, ← Set.ncard_coe_finset]
  congr 1
  ext i
  rw [List.coe_toFinset, Set.mem_ofPred_eq, List.mem_filter, isSome_assertion?_iff,
    mem_preorder_iff, Set.mem_ofPred_eq]
  constructor
  · rintro ⟨⟨-, reached⟩, calls⟩
    use reached
  · rintro ⟨reached, k, calls⟩
    obtain ⟨node, -, found, -⟩ := calls.named
    rw [found]
    use ⟨rfl, reached⟩, k

theorem file_of_mem_ids {id : AssertionId} (h : id ∈ f.assertions.map Assertion.id) :
  id.file = f.id
  := by
  obtain ⟨a, member, rfl⟩ := List.mem_map.1 h
  obtain ⟨i, -, found⟩ := List.mem_filterMap.1 member
  rw [id_of_assertion? found]

end SourceFile

/-! ### Calls in files -/

namespace Extracted

/-- Assertions whose nodes or kinds differ are all recorded. -/
theorem foldl_insert_of_nodup {e : Extracted} {assertions : List Assertion}
    (distinct : ((e.assertions ++ assertions).map Assertion.key).Nodup) :
  (assertions.foldl insert e).assertions = e.assertions ++ assertions
  := by
  induction assertions generalizing e with
  | nil => simp
  | cons a rest ih =>
    have fresh : e.contains a = false := by
      rw [List.map_append, List.nodup_append] at distinct
      rw [contains, decide_eq_false_iff_not]
      intro member
      apply distinct.2.2 _ member _ List.mem_cons_self rfl
    have added : (e.insert a).assertions = e.assertions ++ [a] := by
      rw [assertions_insert, fresh]
      rfl
    rw [List.foldl_cons, ih, added, List.append_assoc, List.singleton_append]
    rw [added, List.append_assoc, List.singleton_append]
    apply distinct

variable {files : List SourceFile}

theorem nodup_flatMap_assertions (numbered : (files.map SourceFile.id).Nodup) :
  ((files.flatMap SourceFile.assertions).map Assertion.id).Nodup
  := by
  rw [List.map_flatMap, List.nodup_flatMap]
  constructor
  · intro f _
    apply f.nodup_assertions
  · rw [List.Nodup, List.pairwise_map] at numbered
    apply List.Pairwise.imp _ numbered
    intro f g different id inside inside'
    apply different
    rw [← SourceFile.file_of_mem_ids inside, SourceFile.file_of_mem_ids inside']

/-- Nothing is dropped from files with distinct numbers. -/
theorem assertions_ofFiles (numbered : (files.map SourceFile.id).Nodup) :
  (ofFiles files).assertions = files.flatMap SourceFile.assertions
  := by
  have distinct := nodup_flatMap_assertions numbered
  have ids : Assertion.id = Prod.snd ∘ Assertion.key := rfl
  rw [ids, ← List.map_map] at distinct
  apply foldl_insert_of_nodup (e := .empty) distinct.of_map

theorem mem_ofKind_ofFiles_iff (numbered : (files.map SourceFile.id).Nodup) {k : AssertionKind}
    {a : Assertion} :
  a ∈ (ofFiles files).ofKind k ↔ a.kind = k ∧ ∃ f ∈ files, a ∈ f.assertions
  := by
  rw [ofKind, List.mem_filter, assertions_ofFiles numbered, List.mem_flatMap, decide_eq_true_eq,
    and_comm]

theorem mem_ids_ofKind_iff (numbered : (files.map SourceFile.id).Nodup) {f : SourceFile}
    (listed : f ∈ files) (k : AssertionKind) (i : NodeIndex) :
  ⟨f.id, i⟩ ∈ ((ofFiles files).ofKind k).map Assertion.id
    ↔ f.arena.Reaches f.root i ∧ f.Calls k i
  := by
  simp only [List.mem_map, mem_ofKind_ofFiles_iff numbered]
  constructor
  · rintro ⟨a, ⟨rfl, g, listed', member⟩, same⟩
    have file := SourceFile.file_of_mem_ids (List.mem_map_of_mem member)
    rw [same] at file
    obtain rfl := List.inj_on_of_nodup_map numbered listed listed' file
    obtain ⟨found, reached⟩ := SourceFile.mem_assertions_iff.1 member
    rw [same] at found reached
    exact ⟨reached, SourceFile.calls_iff.2 ⟨a, found, rfl⟩⟩
  · rintro ⟨reached, calls⟩
    obtain ⟨a, found, rfl⟩ := SourceFile.calls_iff.1 calls
    have same := SourceFile.id_of_assertion? found
    use a
    refine ⟨⟨rfl, f, listed, ?_⟩, same⟩
    rw [SourceFile.mem_assertions_iff, same]
    use found

/-- Nodes that are recorded under one kind only are in one of its groups, once. -/
theorem nodup_flatMap_groups {e : Extracted} (distinct : (e.assertions.map Assertion.id).Nodup) :
  ((e.groups.flatMap Prod.snd).map Assertion.id).Nodup
  := by
  have all : e.groups.flatMap Prod.snd = AssertionKind.all.flatMap e.ofKind := by
    simpa using e.flatMap_groups fun _ => true
  rw [all, List.map_flatMap, List.nodup_flatMap]
  constructor
  · intro k _
    apply distinct.sublist (List.filter_sublist.map Assertion.id)
  · have kinds : AssertionKind.all.Nodup := by decide
    apply List.Pairwise.imp _ kinds
    intro k l different id inside inside'
    obtain ⟨a, ha, rfl⟩ := List.mem_map.1 inside
    obtain ⟨b, hb, same⟩ := List.mem_map.1 inside'
    obtain ⟨ha, kind_a⟩ := List.mem_filter.1 ha
    obtain ⟨hb, kind_b⟩ := List.mem_filter.1 hb
    apply different
    rw [← of_decide_eq_true kind_a, ← of_decide_eq_true kind_b,
      List.inj_on_of_nodup_map distinct hb ha same]

theorem mem_groups_iff (e : Extracted) (k : AssertionKind) (set : List Assertion) :
  (k, set) ∈ e.groups ↔ set = e.ofKind k ∧ ∃ a, a ∈ e.ofKind k
  := by
  rw [groups, List.mem_filter, List.mem_map, Bool.not_eq_true', List.isEmpty_eq_false_iff_exists_mem]
  constructor
  · rintro ⟨⟨k, -, same⟩, inhabited⟩
    obtain ⟨rfl, rfl⟩ := Prod.mk.inj same
    use rfl
  · rintro ⟨rfl, inhabited⟩
    use ⟨k, k.mem_all, rfl⟩

end Extracted

/-- From files with distinct numbers, the assertions of a kind are the nodes that call it, file
after file and in a file in depth-first order, each with its own span in its own file.  A node is
extracted when it is at or below the root of its file and calls assertions of some kind; it is so
once, and under no other kind.  The kinds without such nodes have no group, and the number of
assertions is that of all such nodes.  A register of the assertions has the same groups, and its
count is this number. -/
theorem Extracted.ofFiles_calls (files : List SourceFile)
    (numbered : (files.map SourceFile.id).Nodup) :
  let e := Extracted.ofFiles files
  (∀ k, (e.ofKind k).map (fun a => (a.id, some a.span))
      = files.flatMap fun f =>
          (f.preorder.filter fun i => f.Calls k i).map fun i => (⟨f.id, i⟩, f.span? i))
    ∧ (∀ k, ∀ a ∈ e.ofKind k, a.kind = k ∧ a.span.file = a.id.file)
    ∧ (∀ f ∈ files, ∀ k i, ⟨f.id, i⟩ ∈ (e.ofKind k).map Assertion.id
      ↔ f.arena.Reaches f.root i ∧ f.Calls k i)
    ∧ ((e.groups.flatMap Prod.snd).map Assertion.id).Nodup
    ∧ (∀ k set, (k, set) ∈ e.groups
      ↔ set = e.ofKind k ∧ ∃ f ∈ files, ∃ i, f.arena.Reaches f.root i ∧ f.Calls k i)
    ∧ e.count
      = (files.map fun f => {i | f.arena.Reaches f.root i ∧ ∃ k, f.Calls k i}.ncard).sum
    ∧ (Register.ofFiles files).groups = e.groups ∧ (Register.ofFiles files).count = e.count
  := by
  intro e
  have recorded := assertions_ofFiles numbered
  have keeps := Register.keeps_ofFiles files
  refine ⟨?_, ?_, ?_, ?_, ?_, ?_, keeps.groups_eq, keeps.count⟩
  · intro k
    simp only [e, ofKind, recorded, List.filter_flatMap, List.map_flatMap,
      SourceFile.assertions_eq, SourceFile.filter_filterMap_assertion?]
  · intro k a member
    obtain ⟨kind, f, -, inside⟩ := (mem_ofKind_ofFiles_iff numbered).1 member
    use kind
    rw [SourceFile.file_of_mem_assertions inside,
      SourceFile.file_of_mem_ids (List.mem_map_of_mem inside)]
  · intro f listed k i
    apply mem_ids_ofKind_iff numbered listed
  · apply nodup_flatMap_groups
    rw [recorded]
    apply nodup_flatMap_assertions numbered
  · intro k set
    rw [mem_groups_iff]
    apply and_congr_right
    intro _
    constructor
    · rintro ⟨a, member⟩
      obtain ⟨rfl, f, listed, inside⟩ := (mem_ofKind_ofFiles_iff numbered).1 member
      obtain ⟨found, reached⟩ := SourceFile.mem_assertions_iff.1 inside
      exact ⟨f, listed, a.id.node, reached, SourceFile.calls_iff.2 ⟨a, found, rfl⟩⟩
    · rintro ⟨f, listed, i, reached, calls⟩
      obtain ⟨a, member, -⟩ :=
        List.mem_map.1 ((mem_ids_ofKind_iff numbered listed k i).2 ⟨reached, calls⟩)
      use a, member
  · simp only [e, count, recorded, List.length_flatMap, SourceFile.length_assertions]

/-- A file with a call in another one.  The call inside leads back to the one around it, and this to
the first node; one call has no text but a comment, another is below no node, and a child is
missing. -/
def loopedFile (id : FileId) (name : String) (root : NodeIndex) : SourceFile where
  id := id
  name := name
  text := "expectType(printType(f)) // printType(g)"
  arena := ⟨[⟨.sourceFile, 0, 40, [⟨1⟩, ⟨5⟩, ⟨1⟩, ⟨9⟩]⟩, ⟨.callExpression, 0, 24, [⟨2⟩, ⟨3⟩, ⟨0⟩]⟩,
    ⟨.identifier, 0, 10, []⟩, ⟨.callExpression, 11, 23, [⟨4⟩, ⟨1⟩]⟩, ⟨.identifier, 11, 20, []⟩,
    ⟨.callExpression, 24, 40, [⟨4⟩]⟩, ⟨.callExpression, 11, 23, [⟨4⟩]⟩]⟩
  root := root

/-- Two such files, the second with the call inside as its root. -/
def loopedFiles : List SourceFile := [loopedFile ⟨0⟩ "a.ts" ⟨0⟩, loopedFile ⟨1⟩ "b.ts" ⟨3⟩]

theorem preorder_loopedFile (id : FileId) (name : String) :
  (loopedFile id name ⟨0⟩).preorder = [⟨0⟩, ⟨1⟩, ⟨2⟩, ⟨3⟩, ⟨4⟩, ⟨5⟩]
    ∧ (loopedFile id name ⟨3⟩).preorder = [⟨3⟩, ⟨4⟩, ⟨1⟩, ⟨2⟩, ⟨0⟩, ⟨5⟩]
  := by
  simp only [SourceFile.preorder, ← Arena.walk_eq_visit]
  constructor <;> cbv

/-- The call inside is extracted once from each file. -/
theorem ofFiles_calls_looped :
  (loopedFiles.map SourceFile.id).Nodup
    ∧ ((Extracted.ofFiles loopedFiles).ofKind .printType).map (fun a => (a.id, some a.span))
      = [(⟨⟨0⟩, ⟨3⟩⟩, some ⟨⟨0⟩, 11, 23⟩), (⟨⟨1⟩, ⟨3⟩⟩, some ⟨⟨1⟩, 11, 23⟩)]
  := by
  have numbered : (loopedFiles.map SourceFile.id).Nodup := by decide
  use numbered
  rw [(Extracted.ofFiles_calls loopedFiles numbered).1, loopedFiles, List.flatMap_cons,
    List.flatMap_singleton, (preorder_loopedFile _ _).1, (preorder_loopedFile _ _).2]
  decide +kernel

end TypeAssertions
