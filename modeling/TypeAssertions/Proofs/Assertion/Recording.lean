import Mathlib
import TypeAssertions.Proofs.Assertion.Calls

/-!
# Recorded assertions

Assertions are recorded one after the other, and an assertion is new unless its node has been
recorded under its kind (`Extracted.contains_ofList_eq_false_iff`).  So a node is recorded once when
it stands under one kind only (`OneKind`), as the nodes of files with distinct numbers do, and again
when it comes back under another kind (`Extracted.count_ofList`).
-/

namespace TypeAssertions

/-- No node stands under two kinds. -/
def OneKind (assertions : List Assertion) : Prop :=
  ∀ a ∈ assertions, ∀ b ∈ assertions, a.id = b.id → a.kind = b.kind

/-- The register of assertions that are recorded one after the other. -/
def Register.ofList (assertions : List Assertion) : Register := assertions.foldl insert empty

namespace Extracted

/-- The assertions that are recorded one after the other. -/
def ofList (assertions : List Assertion) : Extracted := assertions.foldl insert empty

theorem ofList_concat (recorded : List Assertion) (a : Assertion) :
  ofList (recorded ++ [a]) = (ofList recorded).insert a
  := by
  rw [ofList, List.foldl_append, List.foldl_cons, List.foldl_nil, ofList]

/-- Assertions stand under the keys of those that are recorded. -/
theorem mem_keys_ofList_iff (recorded : List Assertion) (key : AssertionKind × AssertionId) :
  key ∈ (ofList recorded).assertions.map Assertion.key ↔ key ∈ recorded.map Assertion.key
  := by
  induction recorded using List.reverseRecOn with
  | nil => exact Iff.rfl
  | append_singleton recorded a ih =>
    rw [ofList_concat, assertions_insert, List.map_append, List.mem_append, ← ih]
    split
    case isTrue known =>
      have here : a.key ∈ (ofList recorded).assertions.map Assertion.key := of_decide_eq_true known
      constructor
      · apply Or.inl
      · rintro (old | new)
        · apply old
        · obtain rfl := List.mem_singleton.1 new
          apply here
    case isFalse => rw [List.map_append, List.mem_append]

/-- An assertion is new when its node has not been recorded under its kind. -/
theorem contains_ofList_eq_false_iff (recorded : List Assertion) (a : Assertion) :
  (ofList recorded).contains a = false ↔ ∀ b ∈ recorded, b.id = a.id → b.kind ≠ a.kind
  := by
  rw [contains, decide_eq_false_iff_not, mem_keys_ofList_iff, List.mem_map]
  simp only [Assertion.key, Prod.mk.injEq, not_exists, not_and]
  apply forall₂_congr
  intro b _
  constructor
  · intro apart same kind
    apply apart kind same
  · intro apart kind same
    apply apart same kind

theorem count_ofList_eq_card (recorded : List Assertion) :
  (ofList recorded).count = (recorded.map Assertion.key).toFinset.card
  := by
  have keys : (recorded.map Assertion.key).toFinset
      = ((ofList recorded).assertions.map Assertion.key).toFinset := by
    ext key
    rw [List.mem_toFinset, List.mem_toFinset, mem_keys_ofList_iff]
  rw [keys, List.toFinset_card_of_nodup (ofList recorded).distinct, List.length_map, count]

/-! ### Nodes under one kind -/

/-- There are as many nodes as keys when no node stands under two kinds, and fewer otherwise. -/
theorem card_ids_eq_iff (recorded : List Assertion) :
  (recorded.map Assertion.id).toFinset.card = (recorded.map Assertion.key).toFinset.card
    ↔ OneKind recorded
  := by
  have ids : (recorded.map Assertion.id).toFinset
      = (recorded.map Assertion.key).toFinset.image Prod.snd := by
    ext id
    simp [Assertion.key]
  rw [ids, Finset.card_image_iff]
  simp only [Set.InjOn, Finset.mem_coe, List.mem_toFinset, List.mem_map]
  constructor
  · intro injective a ha b hb same
    have equal := injective ⟨a, ha, rfl⟩ ⟨b, hb, rfl⟩ same
    apply (Prod.mk.inj equal).1
  · rintro one _ ⟨a, ha, rfl⟩ _ ⟨b, hb, rfl⟩ same
    apply Prod.ext (one a ha b hb same) same

/-- Each assertion is found new exactly when its node is. -/
def ToldByNode (recorded : List Assertion) : Prop :=
  ∀ before a, before ++ [a] <+: recorded →
    ((ofList before).contains a = false ↔ ∀ b ∈ before, b.id ≠ a.id)

theorem toldByNode_of_oneKind {recorded : List Assertion} (one : OneKind recorded) :
  ToldByNode recorded
  := by
  intro before a part
  rw [contains_ofList_eq_false_iff]
  apply forall₂_congr
  intro b earlier
  have listed : b ∈ recorded := part.subset (List.mem_append_left _ earlier)
  have last : a ∈ recorded := part.subset List.mem_concat_self
  constructor
  · intro apart same
    apply apart same (one b listed a last same)
  · intro apart same
    cases apart same

theorem oneKind_of_toldByNode {recorded : List Assertion} (told : ToldByNode recorded) :
  OneKind recorded
  := by
  induction recorded using List.reverseRecOn with
  | nil =>
    intro a member
    cases member
  | append_singleton recorded a ih =>
    have one : OneKind recorded :=
      ih fun before b part => told before b (part.trans (List.prefix_append _ _))
    -- a node that has come before is found under the kind of the last assertion
    have last : ∀ b ∈ recorded, b.id = a.id → b.kind = a.kind := by
      intro b member same
      have known : (ofList recorded).contains a ≠ false := by
        intro new
        apply (told recorded a List.prefix_rfl).1 new b member same
      rw [Ne, contains_ofList_eq_false_iff] at known
      push Not at known
      obtain ⟨c, member', same', kind⟩ := known
      rw [← kind]
      apply one b member c member' (same.trans same'.symm)
    intro b hb c hc same
    rw [List.mem_append, List.mem_singleton] at hb hc
    rcases hb with hb | rfl
    · rcases hc with hc | rfl
      · apply one b hb c hc same
      · apply last b hb same
    · rcases hc with hc | rfl
      · apply (last c hc same.symm).symm
      · rfl

/-- The calls of files with distinct numbers have one kind each. -/
theorem oneKind_of_numbered {files : List SourceFile}
    (numbered : (files.map SourceFile.id).Nodup) :
  OneKind (files.flatMap SourceFile.assertions)
  := by
  intro a ha b hb same
  rw [List.inj_on_of_nodup_map (nodup_flatMap_assertions numbered) ha hb same]

/-- An assertion is new unless its node has been recorded under its kind, and the new ones are
counted, so that the count is the number of pairs of a kind and a node.  A register answers and
counts in the same way.  The node alone decides which assertions are new, and the count is the
number of nodes, exactly when no node stands under two kinds; the calls of files with distinct
numbers do not. -/
theorem count_ofList (recorded : List Assertion) :
  (∀ a, (ofList recorded).contains a = false ↔ ∀ b ∈ recorded, b.id = a.id → b.kind ≠ a.kind)
    ∧ (∀ a, ((ofList recorded).insert a).count
      = (ofList recorded).count + if (ofList recorded).contains a then 0 else 1)
    ∧ (ofList recorded).count = (recorded.map Assertion.key).toFinset.card
    ∧ (∀ a, ((Register.ofList recorded).set a.kind).contains a.id = (ofList recorded).contains a)
    ∧ (Register.ofList recorded).count = (ofList recorded).count
    ∧ (ToldByNode recorded ↔ OneKind recorded)
    ∧ ((ofList recorded).count = (recorded.map Assertion.id).toFinset.card ↔ OneKind recorded)
    ∧ ∀ files : List SourceFile, (files.map SourceFile.id).Nodup →
      OneKind (files.flatMap SourceFile.assertions)
  := by
  have keeps : (Register.ofList recorded).Keeps (ofList recorded) :=
    Register.keeps_empty.foldl_insert recorded
  refine ⟨contains_ofList_eq_false_iff recorded, ?_, count_ofList_eq_card recorded,
    keeps.contains_set, keeps.count, ⟨oneKind_of_toldByNode, toldByNode_of_oneKind⟩, ?_,
    fun files => oneKind_of_numbered⟩
  · intro a
    cases known : (ofList recorded).contains a with
    | true => rw [insert_of_contains known, if_pos rfl, Nat.add_zero]
    | false => rw [count_insert known, if_neg Bool.false_ne_true]
  · rw [count_ofList_eq_card, eq_comm, card_ids_eq_iff]

/-- An assertion at the first node of the first file. -/
def atFirstNode (k : AssertionKind) : Assertion := ⟨⟨⟨0⟩, ⟨0⟩⟩, k, ⟨⟨0⟩, 0, 5⟩⟩

/-- A node that has been recorded under one kind is new under another one, and is counted again. -/
theorem count_ofList_twice :
  (ofList [atFirstNode .expectType]).contains (atFirstNode .expectError) = false
    ∧ (atFirstNode .expectError).id = (atFirstNode .expectType).id
    ∧ (ofList [atFirstNode .expectType, atFirstNode .expectError]).count = 2
    ∧ ([atFirstNode .expectType, atFirstNode .expectError].map Assertion.id).toFinset.card = 1
  := by
  decide

end Extracted

end TypeAssertions
