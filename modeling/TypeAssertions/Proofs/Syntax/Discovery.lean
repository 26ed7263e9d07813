import Mathlib.Logic.Relation
import TypeAssertions.Syntax.Arena

/-!
# The order of discovery

`Arena.Reaches` says that an index lies at or below another one along the children of nodes, in an
arena that may be any graph.  A list of indices is `Arena.Discovered` from a root when it has no
index twice and each index in it is the root or has a parent before it; the indices that
`Arena.walk` visits are, in their order.
-/

namespace TypeAssertions.Arena

/-! ### Descent -/

/-- The children of the node at an index. -/
def children (a : Arena) (i : NodeIndex) : List NodeIndex :=
  ((a.get? i).map Node.children).getD []

theorem children_of_get? {a : Arena} {i : NodeIndex} {n : Node} (h : a.get? i = some n) :
  a.children i = n.children
  := by
  simp [children, h]

/-- Index `j` is a child of the node at index `i`. -/
def IsChild (a : Arena) (i j : NodeIndex) : Prop := j ∈ a.children i

/-- Index `j` lies at or below index `i`. -/
def Reaches (a : Arena) : NodeIndex → NodeIndex → Prop := Relation.ReflTransGen a.IsChild

/-- Indices that hold a root and the children of each of them hold all that lies below the root. -/
theorem mem_of_reaches {a : Arena} {root i : NodeIndex} {indices : List NodeIndex}
    (start : root ∈ indices) (closed : ∀ j ∈ indices, ∀ k ∈ a.children j, k ∈ indices)
    (h : a.Reaches root i) :
  i ∈ indices
  := by
  induction h with
  | refl => apply start
  | tail _ child ih => apply closed _ ih _ child

/-! ### Discovery -/

/-- An index is the root, or a child of one of the indices before it. -/
def HasOrigin (a : Arena) (root : NodeIndex) (before : List NodeIndex) (i : NodeIndex) : Prop :=
  i = root ∨ ∃ j ∈ before, a.IsChild j i

theorem HasOrigin.append {a : Arena} {root i : NodeIndex} {before : List NodeIndex}
    (h : a.HasOrigin root before i) (more : List NodeIndex) :
  a.HasOrigin root (before ++ more) i
  := by
  rcases h with rfl | ⟨j, member, child⟩
  · left
    rfl
  · right
    use j, List.mem_append_left more member

/-- No index is in the list twice, and each is the root or a child of one before it. -/
inductive Discovered (a : Arena) (root : NodeIndex) : List NodeIndex → Prop
  | nil : Discovered a root []
  | snoc {before : List NodeIndex} {i : NodeIndex} (earlier : Discovered a root before)
      (fresh : i ∉ before) (origin : a.HasOrigin root before i) :
      Discovered a root (before ++ [i])

theorem discovered_walkFrom {a : Arena} {root : NodeIndex} {visited stack : List NodeIndex}
    (earlier : Discovered a root visited) (origins : ∀ i ∈ stack, a.HasOrigin root visited i) :
  Discovered a root (a.walkFrom visited stack)
  := by
  fun_induction walkFrom a visited stack with
  | case1 visited => apply earlier
  | case2 visited i stack missing ih =>
    apply ih earlier
    intro j member
    apply origins j (List.mem_cons_of_mem i member)
  | case3 visited i stack node found known ih =>
    apply ih earlier
    intro j member
    apply origins j (List.mem_cons_of_mem i member)
  | case4 visited i stack node found fresh _ ih =>
    apply ih (earlier.snoc fresh (origins i List.mem_cons_self))
    intro j member
    rcases List.mem_append.1 member with child | waiting
    · right
      use i, List.mem_concat_self
      rw [IsChild, children_of_get? found]
      apply child
    · apply (origins j (List.mem_cons_of_mem i waiting)).append [i]

theorem discovered_walk (a : Arena) (root : NodeIndex) :
  Discovered a root (a.walk root)
  := by
  apply discovered_walkFrom .nil
  intro i member
  left
  apply List.mem_singleton.1 member

theorem Discovered.reaches {a : Arena} {root : NodeIndex} {indices : List NodeIndex}
    (h : Discovered a root indices) :
  ∀ i ∈ indices, a.Reaches root i
  := by
  induction h with
  | nil =>
    intro i member
    cases member
  | snoc earlier fresh origin ih =>
    intro i member
    rcases List.mem_append.1 member with old | new
    · apply ih i old
    · obtain rfl := List.mem_singleton.1 new
      rcases origin with rfl | ⟨j, found, child⟩
      · apply Relation.ReflTransGen.refl
      · apply (ih j found).tail child

theorem Discovered.nodup {a : Arena} {root : NodeIndex} {indices : List NodeIndex}
    (h : Discovered a root indices) :
  indices.Nodup
  := by
  induction h with
  | nil => apply List.nodup_nil
  | snoc earlier fresh origin ih =>
    rw [List.nodup_append]
    refine ⟨ih, List.pairwise_singleton _ _, ?_⟩
    rintro i old j new rfl
    obtain rfl := List.mem_singleton.1 new
    apply fresh old

/-- What comes before an index holds its origin. -/
theorem Discovered.hasOrigin {a : Arena} {root i : NodeIndex} {before after : List NodeIndex}
    (h : Discovered a root (before ++ i :: after)) :
  a.HasOrigin root before i
  := by
  generalize whole : before ++ i :: after = indices at h
  induction h generalizing after with
  | nil => cases List.append_ne_nil_of_right_ne_nil before (List.cons_ne_nil i after) whole
  | snoc earlier fresh origin ih =>
    rcases List.eq_nil_or_concat after with rfl | ⟨between, last, rfl⟩
    · obtain ⟨rfl, same⟩ := List.append_inj' whole rfl
      obtain rfl := List.singleton_inj.1 same
      apply origin
    · rw [List.concat_eq_append, ← List.cons_append, ← List.append_assoc] at whole
      apply ih (List.append_inj' whole rfl).1

end TypeAssertions.Arena
