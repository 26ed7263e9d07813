import Mathlib.Tactic.Use
import TypeAssertions.Proofs.Syntax.Discovery

/-!
# Depth-first search

`Arena.visit` is depth-first search by recursion: an index that is no node, or that was visited, is
skipped; any other is visited, and then its children from left to right.  `Arena.walk` keeps a stack
instead, on which an index may wait several times, and visits the same indices in the same order.

Whatever graph the arena is, these are the nodes at or below the root.  Where they form a tree,
nothing is ever skipped, and the order is the `Arena.Preorder` that does not know what was visited.
-/

namespace TypeAssertions.Arena

/-! ### Recursion -/

/-- Indices that have been visited, and among them all that were visited before. -/
structure Visits (visited : List NodeIndex) where
  after : List NodeIndex
  kept : visited ⊆ after

theorem unvisited_le {a : Arena} {visited after : List NodeIndex} (kept : visited ⊆ after) :
  a.unvisited after ≤ a.unvisited visited
  := by
  simp only [unvisited, ← List.countP_eq_length_filter]
  apply List.countP_mono_left
  intro k _ outside
  simp only [decide_eq_true_eq] at outside ⊢
  exact fun inside => outside (List.map_subset _ kept inside)

mutual

/-- The indices that have been visited once an index and all below it are, when `visited` were
visited before. -/
def visit (a : Arena) (visited : List NodeIndex) (i : NodeIndex) : Visits visited :=
  match found : a.get? i with
  | none => ⟨visited, List.Subset.refl _⟩
  | some node =>
    if known : i ∈ visited then ⟨visited, List.Subset.refl _⟩
    else
      have := unvisited_append_lt (position_lt_of_get? found) known
      let below := a.visitAll (visited ++ [i]) node.children
      ⟨below.after, List.Subset.trans (List.subset_append_left _ _) below.kept⟩
termination_by (a.unvisited visited, 0)
decreasing_by exact .left _ _ this

/-- The indices that have been visited once some indices and all below them are, from left to
right. -/
def visitAll (a : Arena) (visited : List NodeIndex) (indices : List NodeIndex) : Visits visited :=
  match indices with
  | [] => ⟨visited, List.Subset.refl _⟩
  | i :: indices =>
    let first := a.visit visited i
    let others := a.visitAll first.after indices
    ⟨others.after, List.Subset.trans first.kept others.kept⟩
termination_by (a.unvisited visited, indices.length + 1)
decreasing_by
  · exact .right _ (Nat.succ_pos _)
  · rcases Nat.lt_or_eq_of_le (unvisited_le first.kept) with fewer | same
    · exact .left _ _ fewer
    · rw [same]
      exact .right _ (Nat.lt_succ_self _)

end

variable {a : Arena} {root i j : NodeIndex} {visited stack : List NodeIndex}

/-- An index that is no node is skipped. -/
theorem visit_of_missing (missing : a.get? i = none) :
  (a.visit visited i).after = visited
  := by
  rw [visit]
  split
  · rfl
  case h_2 node found =>
    rw [missing] at found
    cases found

/-- An index that was visited is skipped. -/
theorem visit_of_known (known : i ∈ visited) :
  (a.visit visited i).after = visited
  := by
  rw [visit]
  split
  · rfl
  · rw [dif_pos known]

/-- A new node is visited before its children. -/
theorem visit_of_fresh {node : Node} (found : a.get? i = some node) (fresh : i ∉ visited) :
  (a.visit visited i).after = (a.visitAll (visited ++ [i]) node.children).after
  := by
  rw [visit]
  split
  case h_1 missing =>
    rw [missing] at found
    cases found
  case h_2 other found' =>
    obtain rfl := Option.some.inj (found'.symm.trans found)
    rw [dif_neg fresh]

theorem visitAll_nil :
  (a.visitAll visited []).after = visited
  := by
  rw [visitAll]

theorem visitAll_cons (indices : List NodeIndex) :
  (a.visitAll visited (i :: indices)).after
    = (a.visitAll (a.visit visited i).after indices).after
  := by
  rw [visitAll]

theorem visitAll_append (before indices : List NodeIndex) :
  (a.visitAll visited (before ++ indices)).after
    = (a.visitAll (a.visitAll visited before).after indices).after
  := by
  induction before generalizing visited with
  | nil => rw [List.nil_append, visitAll_nil]
  | cons i before ih => rw [List.cons_append, visitAll_cons, visitAll_cons, ih]

/-! ### The stack -/

/-- With a stack, the indices on it are visited from the top, each with all below it. -/
theorem walkFrom_eq_visitAll (a : Arena) (visited stack : List NodeIndex) :
  a.walkFrom visited stack = (a.visitAll visited stack).after
  := by
  fun_induction walkFrom a visited stack with
  | case1 visited => rw [visitAll_nil]
  | case2 visited i stack missing ih => rw [visitAll_cons, visit_of_missing missing, ih]
  | case3 visited i stack node found known ih => rw [visitAll_cons, visit_of_known known, ih]
  | case4 visited i stack node found fresh _ ih =>
    rw [visitAll_cons, visit_of_fresh found fresh, ih, visitAll_append]

theorem walk_eq_visit (a : Arena) (root : NodeIndex) :
  a.walk root = (a.visit [] root).after
  := by
  rw [walk, walkFrom_eq_visitAll, visitAll_cons, visitAll_nil]

/-! ### What is visited -/

/-- Only nodes are visited. -/
theorem isSome_of_mem_walkFrom (nodes : ∀ j ∈ visited, (a.get? j).isSome = true) :
  ∀ j ∈ a.walkFrom visited stack, (a.get? j).isSome = true
  := by
  fun_induction walkFrom a visited stack with
  | case1 visited => apply nodes
  | case2 visited i stack missing ih => apply ih nodes
  | case3 visited i stack node found known ih => apply ih nodes
  | case4 visited i stack node found fresh _ ih =>
    apply ih
    rw [List.forall_mem_append, List.forall_mem_singleton]
    use nodes
    rw [found]
    rfl

/-- Each child of a visited node is visited, or waits on the stack, or is no node. -/
def Covers (a : Arena) (visited stack : List NodeIndex) : Prop :=
  ∀ i ∈ visited, ∀ j ∈ a.children i, (a.get? j).isSome = true → j ∈ visited ∨ j ∈ stack

/-- An index that is visited, or is no node, need not wait on the stack. -/
theorem Covers.pop (covers : a.Covers visited (i :: stack))
    (idle : (a.get? i).isSome = true → i ∈ visited) :
  a.Covers visited stack
  := by
  intro p member j child node
  rcases covers p member j child node with known | waiting
  · left
    apply known
  · rcases List.mem_cons.1 waiting with rfl | waiting
    · left
      apply idle node
    · right
      apply waiting

/-- A node is visited when its children wait on the stack. -/
theorem Covers.push (covers : a.Covers visited (i :: stack)) {node : Node}
    (found : a.get? i = some node) :
  a.Covers (visited ++ [i]) (node.children ++ stack)
  := by
  intro p member j child isNode
  simp only [List.mem_append, List.mem_singleton] at member ⊢
  rcases member with old | rfl
  · rcases covers p old j child isNode with known | waiting
    · left; left
      apply known
    · rcases List.mem_cons.1 waiting with rfl | waiting
      · left; right
        rfl
      · right; right
        apply waiting
  · right; left
    rw [children_of_get? found] at child
    apply child

theorem covers_walkFrom (covers : a.Covers visited stack) :
  a.Covers (a.walkFrom visited stack) []
  := by
  fun_induction walkFrom a visited stack with
  | case1 visited => apply covers
  | case2 visited i stack missing ih =>
    apply ih (covers.pop _)
    rw [missing]
    intro node
    cases node
  | case3 visited i stack node found known ih => apply ih (covers.pop fun _ => known)
  | case4 visited i stack node found fresh _ ih => apply ih (covers.push found)

theorem root_mem_walk (node : (a.get? root).isSome = true) :
  root ∈ a.walk root
  := by
  obtain ⟨node, found⟩ := Option.isSome_iff_exists.1 node
  rw [walk_eq_visit, visit_of_fresh found List.not_mem_nil]
  apply Visits.kept
  apply List.mem_singleton_self

/-- The nodes that are visited are those at or below the root. -/
theorem mem_walk_iff (a : Arena) (root i : NodeIndex) :
  i ∈ a.walk root ↔ (a.get? i).isSome = true ∧ a.Reaches root i
  := by
  constructor
  · intro member
    constructor
    · apply isSome_of_mem_walkFrom _ i member
      intro j member
      cases member
    · apply (discovered_walk a root).reaches i member
  · rintro ⟨node, reached⟩
    have covers : a.Covers (a.walk root) [] := by
      apply covers_walkFrom
      intro p member
      cases member
    induction reached with
    | refl => apply root_mem_walk node
    | @tail p j above child ih =>
      -- what has a child is a node
      have parent : (a.get? p).isSome = true := by
        cases found : a.get? p with
        | some node => rfl
        | none => simp [IsChild, children, found] at child
      rcases covers p (ih parent) j child node with visited | waiting
      · apply visited
      · cases waiting

/-! ### Trees -/

/-- What lies below a root is a tree: there are no missing children, no node is the child of two
nodes or twice of one, and the root is no child. -/
structure IsTree (a : Arena) (root : NodeIndex) : Prop where
  node : ∀ i, a.Reaches root i → (a.get? i).isSome = true
  parent_unique : ∀ i j k, a.Reaches root i → a.Reaches root j → a.IsChild i k → a.IsChild j k →
    i = j
  nodup : ∀ i, a.Reaches root i → (a.children i).Nodup
  top : ∀ i, a.Reaches root i → ¬ a.IsChild i root

mutual

/-- The order of an index and all below it in which each comes before its children, and what lies
below a child before the next child. -/
inductive Preorder (a : Arena) : NodeIndex → List NodeIndex → Prop
  | node {i : NodeIndex} {node : Node} {below : List NodeIndex} (found : a.get? i = some node)
      (children : PreorderAll a node.children below) :
      Preorder a i (i :: below)

/-- The orders of some indices one after the other. -/
inductive PreorderAll (a : Arena) : List NodeIndex → List NodeIndex → Prop
  | nil : PreorderAll a [] []
  | cons {i : NodeIndex} {indices first others : List NodeIndex} (head : Preorder a i first)
      (tail : PreorderAll a indices others) :
      PreorderAll a (i :: indices) (first ++ others)

end

mutual

theorem Preorder.unique {i : NodeIndex} {order order' : List NodeIndex} :
    a.Preorder i order → a.Preorder i order' → order = order'
  | .node found children, .node found' children' => by
    obtain rfl := Option.some.inj (found.symm.trans found')
    rw [children.unique children']

theorem PreorderAll.unique {indices order order' : List NodeIndex} :
    a.PreorderAll indices order → a.PreorderAll indices order' → order = order'
  | .nil, .nil => rfl
  | .cons head tail, .cons head' tail' => by
    rw [head.unique head', tail.unique tail']

end

namespace IsTree

/-- No node of a tree lies below itself. -/
theorem acyclic (tree : a.IsTree root) (reached : a.Reaches root i) :
  ¬ Relation.TransGen a.IsChild i i
  := by
  induction reached with
  | refl =>
    intro cycle
    obtain ⟨p, above, child⟩ := Relation.TransGen.tail'_iff.1 cycle
    apply tree.top p above child
  | @tail p i above child ih =>
    intro cycle
    obtain ⟨q, below, last⟩ := Relation.TransGen.tail'_iff.1 cycle
    -- the last step of the cycle comes from the parent, so the parent is on it
    have same := tree.parent_unique q p i ((above.tail child).trans below) above last child
    apply ih
    apply Relation.TransGen.head' child
    rw [← same]
    apply below

theorem not_reaches_parent (tree : a.IsTree root) (reached : a.Reaches root i)
    (child : a.IsChild i j) :
  ¬ a.Reaches j i
  := by
  intro below
  apply tree.acyclic reached (Relation.TransGen.head' child below)

/-- Nothing lies below two children of one node. -/
theorem disjoint (tree : a.IsTree root) {p k : NodeIndex} (reached : a.Reaches root p)
    (hi : a.IsChild p i) (hj : a.IsChild p j) (different : i ≠ j) (below : a.Reaches i k) :
  ¬ a.Reaches j k
  := by
  induction below with
  | refl =>
    intro below'
    rcases Relation.ReflTransGen.cases_tail below' with same | ⟨q, above, last⟩
    · apply different same
    · obtain rfl := tree.parent_unique q p i ((reached.tail hj).trans above) reached last hi
      apply tree.not_reaches_parent reached hj above
  | @tail q k above last ih =>
    intro below'
    have reached_q := (reached.tail hi).trans above
    rcases Relation.ReflTransGen.cases_tail below' with same | ⟨q', above', last'⟩
    · obtain rfl := same
      obtain rfl := tree.parent_unique q p k reached_q reached last hj
      apply tree.not_reaches_parent reached hi above
    · obtain rfl := tree.parent_unique q q' k reached_q ((reached.tail hj).trans above') last last'
      apply ih above'

theorem pairwise_children (tree : a.IsTree root) (reached : a.Reaches root i) :
  (a.children i).Pairwise fun j k => ∀ l, a.Reaches j l → ¬ a.Reaches k l
  := by
  apply List.Pairwise.imp_of_mem _ (tree.nodup i reached)
  intro j k hj hk different l below
  apply tree.disjoint reached hj hk different below

end IsTree

/-- With nothing below an index visited before, what is visited is in preorder. -/
def VisitsInPreorder (a : Arena) (root : NodeIndex) (visited : List NodeIndex) (i : NodeIndex) :
    Prop :=
  a.Reaches root i → (∀ j ∈ visited, ¬ a.Reaches i j) →
    ∃ order, (a.visit visited i).after = visited ++ order ∧ a.Preorder i order
      ∧ ∀ j ∈ order, a.Reaches i j

/-- With nothing below some indices visited before, and nothing below two of them, what is visited
is in preorder. -/
def VisitsAllInPreorder (a : Arena) (root : NodeIndex) (visited indices : List NodeIndex) : Prop :=
  (∀ i ∈ indices, a.Reaches root i) →
    (indices.Pairwise fun i j => ∀ k, a.Reaches i k → ¬ a.Reaches j k) →
    (∀ i ∈ indices, ∀ j ∈ visited, ¬ a.Reaches i j) →
    ∃ order, (a.visitAll visited indices).after = visited ++ order
      ∧ a.PreorderAll indices order ∧ ∀ j ∈ order, ∃ i ∈ indices, a.Reaches i j

theorem visitsInPreorder_of_children (tree : a.IsTree root) {node : Node}
    (found : a.get? i = some node) (unknown : i ∉ visited)
    (children : a.VisitsAllInPreorder root (visited ++ [i]) node.children) :
  a.VisitsInPreorder root visited i
  := by
  intro reached fresh
  rw [VisitsAllInPreorder, ← children_of_get? found] at children
  obtain ⟨below, visits, preorder, inside⟩ : ∃ below,
      (a.visitAll (visited ++ [i]) (a.children i)).after = visited ++ [i] ++ below
        ∧ a.PreorderAll (a.children i) below ∧ ∀ j ∈ below, ∃ c ∈ a.children i, a.Reaches c j := by
    apply children
    · intro c child
      apply reached.tail child
    · apply tree.pairwise_children reached
    · intro c child j member below
      rcases List.mem_append.1 member with old | new
      · apply fresh j old (Relation.ReflTransGen.head child below)
      · obtain rfl := List.mem_singleton.1 new
        apply tree.not_reaches_parent reached child below
  rw [children_of_get? found] at visits preorder
  use i :: below
  constructor
  · rw [visit_of_fresh found unknown, visits, List.append_assoc, List.singleton_append]
  · use .node found preorder
    rw [List.forall_mem_cons]
    use Relation.ReflTransGen.refl
    intro j member
    obtain ⟨c, child, below⟩ := inside j member
    apply Relation.ReflTransGen.head child below

theorem visitsAllInPreorder_cons {indices : List NodeIndex}
    (head : a.VisitsInPreorder root visited i)
    (tail : a.VisitsAllInPreorder root (a.visit visited i).after indices) :
  a.VisitsAllInPreorder root visited (i :: indices)
  := by
  intro reached apart fresh
  rw [List.forall_mem_cons] at reached fresh
  rw [List.pairwise_cons] at apart
  obtain ⟨first, visits, preorder, inside⟩ := head reached.1 fresh.1
  obtain ⟨others, visits', preorder', inside'⟩ : ∃ others,
      (a.visitAll (a.visit visited i).after indices).after
        = (a.visit visited i).after ++ others
        ∧ a.PreorderAll indices others ∧ ∀ j ∈ others, ∃ k ∈ indices, a.Reaches k j := by
    apply tail reached.2 apart.2
    intro k member j known
    rw [visits, List.mem_append] at known
    rcases known with old | new
    · apply fresh.2 k member j old
    · apply apart.1 k member j (inside j new)
  use first ++ others
  constructor
  · rw [visitAll_cons, visits', visits, List.append_assoc]
  · use .cons preorder preorder'
    intro j member
    rcases List.mem_append.1 member with mine | other
    · use i, List.mem_cons_self, inside j mine
    · obtain ⟨k, member', below⟩ := inside' j other
      use k, List.mem_cons_of_mem i member', below

/-- A tree is visited in preorder. -/
theorem visitsInPreorder (tree : a.IsTree root) (visited : List NodeIndex) (i : NodeIndex) :
  a.VisitsInPreorder root visited i
  := by
  induction visited, i using Arena.visit.induct a _ (a.VisitsAllInPreorder root) with
  | case1 visited i missing =>
    intro reached
    have node := tree.node i reached
    rw [missing] at node
    cases node
  | case2 visited i node found known =>
    intro reached fresh
    apply absurd Relation.ReflTransGen.refl (fresh i known)
  | case3 visited i node found unknown _ children =>
    apply visitsInPreorder_of_children tree found unknown children
  | case4 visited =>
    intro _ _ _
    use [], by rw [visitAll_nil, List.append_nil], .nil
    intro j member
    cases member
  | case5 visited i indices first head _ tail => apply visitsAllInPreorder_cons head tail

/-- The nodes below the root of a tree are visited in preorder. -/
theorem preorder_walk (tree : a.IsTree root) :
  a.Preorder root (a.walk root)
  := by
  obtain ⟨order, visits, preorder, -⟩ : ∃ order, (a.visit [] root).after = [] ++ order
      ∧ a.Preorder root order ∧ ∀ j ∈ order, a.Reaches root j := by
    apply visitsInPreorder tree [] root Relation.ReflTransGen.refl
    intro j member
    cases member
  rw [walk_eq_visit, visits, List.nil_append]
  apply preorder

/-! ### The walk -/

/-- Walking an arena is depth-first search: what is visited are the nodes at or below the root, each
once, and all but the root after one of their parents; a tree is visited in preorder. -/
theorem walk_depthFirst (a : Arena) (root : NodeIndex) :
  a.walk root = (a.visit [] root).after
    ∧ (∀ i, i ∈ a.walk root ↔ (a.get? i).isSome = true ∧ a.Reaches root i)
    ∧ (a.walk root).Nodup
    ∧ (∀ before i after, a.walk root = before ++ i :: after → i ≠ root →
      ∃ p ∈ before, a.IsChild p i)
    ∧ (a.IsTree root → ∀ order, a.Preorder root order ↔ order = a.walk root)
  := by
  have discovered := discovered_walk a root
  refine ⟨walk_eq_visit a root, mem_walk_iff a root, discovered.nodup, ?_, ?_⟩
  · intro before i after split other
    rw [split] at discovered
    apply discovered.hasOrigin.resolve_left other
  · intro tree order
    constructor
    · intro preorder
      apply preorder.unique (preorder_walk tree)
    · rintro rfl
      apply preorder_walk tree

/-- It suffices to look at finitely many indices, among which are the root and all children. -/
theorem isTree_of_indices (indices : List NodeIndex) (start : root ∈ indices)
    (closed : ∀ i ∈ indices, ∀ j ∈ a.children i, j ∈ indices)
    (node : ∀ i ∈ indices, (a.get? i).isSome = true)
    (parent_unique : ∀ i ∈ indices, ∀ j ∈ indices, ∀ k ∈ a.children i, k ∈ a.children j → i = j)
    (nodup : ∀ i ∈ indices, (a.children i).Nodup)
    (top : ∀ i ∈ indices, root ∉ a.children i) :
  a.IsTree root
  := by
  have listed (i : NodeIndex) (h : a.Reaches root i) : i ∈ indices :=
    mem_of_reaches start closed h
  constructor
  · intro i h
    apply node i (listed i h)
  · intro i j k hi hj child child'
    apply parent_unique i (listed i hi) j (listed j hj) k child child'
  · intro i h
    apply nodup i (listed i h)
  · intro i h
    apply top i (listed i h)

/-- A tree whose nodes stand in another order than they are visited in, and a cycle that leads to
it. -/
def branches : Arena :=
  ⟨[⟨.sourceFile, 0, 9, [⟨3⟩, ⟨1⟩]⟩, ⟨.callExpression, 5, 9, [⟨4⟩, ⟨2⟩]⟩, ⟨.other, 7, 9, []⟩,
    ⟨.identifier, 0, 5, []⟩, ⟨.identifier, 5, 7, []⟩, ⟨.other, 0, 0, [⟨6⟩]⟩,
    ⟨.other, 0, 0, [⟨5⟩, ⟨7⟩, ⟨0⟩]⟩]⟩

theorem isTree_branches :
  branches.IsTree ⟨0⟩
  := by
  apply isTree_of_indices [⟨0⟩, ⟨1⟩, ⟨2⟩, ⟨3⟩, ⟨4⟩] <;> decide

/-- The tree is visited from left to right, and from the cycle beside it both nodes of the cycle and
then the tree. -/
theorem walk_depthFirst_branches :
  branches.Preorder ⟨0⟩ [⟨0⟩, ⟨3⟩, ⟨1⟩, ⟨4⟩, ⟨2⟩]
    ∧ (branches.visit [] ⟨5⟩).after = [⟨5⟩, ⟨6⟩, ⟨0⟩, ⟨3⟩, ⟨1⟩, ⟨4⟩, ⟨2⟩]
  := by
  have visits : branches.walk ⟨0⟩ = [⟨0⟩, ⟨3⟩, ⟨1⟩, ⟨4⟩, ⟨2⟩] := by cbv
  have visits' : branches.walk ⟨5⟩ = [⟨5⟩, ⟨6⟩, ⟨0⟩, ⟨3⟩, ⟨1⟩, ⟨4⟩, ⟨2⟩] := by cbv
  constructor
  · obtain ⟨-, -, -, -, preorder⟩ := walk_depthFirst branches ⟨0⟩
    apply (preorder isTree_branches _).2 visits.symm
  · rw [← (walk_depthFirst branches ⟨5⟩).1, visits']

end TypeAssertions.Arena
