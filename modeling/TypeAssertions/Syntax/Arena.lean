/-!
# Syntax arenas

An `Arena` is a flat list of syntax nodes that refer to their children by index.  Arenas come from
outside and need not be trees: a child may be missing, shared, or lead back to its parent.
`Arena.walk` visits the nodes below a root depth first, a node before its children and each node
once, with a stack of the indices still to visit.
-/

namespace TypeAssertions

/-- The place of a node in an arena. -/
structure NodeIndex where
  index : UInt32
  deriving DecidableEq, Repr

namespace NodeIndex

/-- The index that stands for no node. -/
def absent : NodeIndex := ⟨4294967295⟩

/-- The index as a position in a list. -/
def position (i : NodeIndex) : Nat := i.index.toNat

end NodeIndex

/-- The kinds of nodes that are told apart. -/
inductive NodeKind where
  | sourceFile
  | callExpression
  | identifier
  | propertyAccess
  | other
  deriving DecidableEq, Repr

namespace NodeKind

/-- The name of a kind. -/
def name : NodeKind → String
  | .sourceFile => "SourceFile"
  | .callExpression => "CallExpression"
  | .identifier => "Identifier"
  | .propertyAccess => "PropertyAccessExpression"
  | .other => "Other"

/-- The kinds by name. -/
def byName : List (String × NodeKind) :=
  [("SourceFile", .sourceFile), ("CallExpression", .callExpression), ("Identifier", .identifier),
    ("PropertyAccessExpression", .propertyAccess), ("Other", .other)]

/-- The kind of a name; any unknown name is that of other nodes. -/
def ofName (s : String) : NodeKind := (byName.lookup s).getD .other

theorem lookup_name (k : NodeKind) :
  byName.lookup k.name = some k
  := by
  cases k <;> decide

end NodeKind

/-- A node: its kind, its bytes including what stands before its first token, and its children. -/
structure Node where
  kind : NodeKind
  start : UInt32
  stop : UInt32
  children : List NodeIndex
  deriving DecidableEq, Repr

/-- A list of nodes that refer to each other by index. -/
structure Arena where
  nodes : List Node
  deriving DecidableEq, Repr

namespace Arena

/-- The arena without nodes. -/
def empty : Arena := ⟨[]⟩

/-- The number of nodes. -/
def size (a : Arena) : Nat := a.nodes.length

/-- The node at an index. -/
def get? (a : Arena) (i : NodeIndex) : Option Node :=
  if i = .absent then none else a.nodes[i.position]?

/-- The arena with a node without children at the end, and the index of that node. -/
def addNode (a : Arena) (kind : NodeKind) (start stop : UInt32) : NodeIndex × Arena :=
  (⟨UInt32.ofNat a.size⟩, ⟨a.nodes ++ [⟨kind, start, stop, []⟩]⟩)

/-- The arena in which `child` is the last child of `parent`, if the arena has that parent. -/
def addChild? (a : Arena) (parent child : NodeIndex) : Option Arena :=
  match a.nodes[parent.position]? with
  | some node =>
    some ⟨a.nodes.set parent.position { node with children := node.children ++ [child] }⟩
  | none => none

theorem position_lt_of_get? {a : Arena} {i : NodeIndex} {n : Node} (h : a.get? i = some n) :
  i.position < a.size
  := by
  simp only [get?] at h
  split at h
  · exact nomatch h
  · exact (List.getElem?_eq_some_iff.1 h).1

/-! ### Depth-first order -/

/-- The number of nodes that have not been visited. -/
def unvisited (a : Arena) (visited : List NodeIndex) : Nat :=
  ((List.range a.size).filter fun k => k ∉ visited.map NodeIndex.position).length

theorem position_injective {i j : NodeIndex} (h : i.position = j.position) :
  i = j
  := by
  cases i
  cases j
  exact congrArg NodeIndex.mk (UInt32.toNat_inj.1 h)

theorem unvisited_append_lt {a : Arena} {visited : List NodeIndex} {i : NodeIndex}
    (inside : i.position < a.size) (fresh : i ∉ visited) :
  a.unvisited (visited ++ [i]) < a.unvisited visited
  := by
  have absent : i.position ∉ visited.map NodeIndex.position := by
    intro h
    obtain ⟨j, member, same⟩ := List.mem_map.1 h
    exact fresh (position_injective same ▸ member)
  have split : (fun k => decide (k ∉ (visited ++ [i]).map NodeIndex.position))
      = fun k => decide (k ≠ i.position) && decide (k ∉ visited.map NodeIndex.position) := by
    funext k
    simp [Bool.and_comm]
  simp only [unvisited, split, ← List.filter_filter]
  have member : i.position
      ∈ (List.range a.size).filter fun k => k ∉ visited.map NodeIndex.position := by
    simpa using ⟨inside, by simpa using absent⟩
  exact List.length_filter_lt_length_iff_exists.2 ⟨i.position, member, by simp⟩

/-- The indices visited in order, when `visited` were visited before and the stack holds the
indices to visit next. -/
def walkFrom (a : Arena) (visited : List NodeIndex) : List NodeIndex → List NodeIndex
  | [] => visited
  | i :: stack =>
    match found : a.get? i with
    | none => a.walkFrom visited stack
    | some node =>
      if h : i ∈ visited then a.walkFrom visited stack
      else
        have := unvisited_append_lt (position_lt_of_get? found) h
        a.walkFrom (visited ++ [i]) (node.children ++ stack)
termination_by stack => (a.unvisited visited, stack.length)

/-- The nodes at or below a root in the order in which they are visited. -/
def walk (a : Arena) (root : NodeIndex) : List NodeIndex :=
  a.walkFrom [] [root]

end Arena

end TypeAssertions
