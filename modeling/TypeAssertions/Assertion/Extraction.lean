import TypeAssertions.Assertion.Kind
import TypeAssertions.Syntax.SourceFile

/-!
# Extraction of assertions

An `Assertion` is a call node, its kind and its span.  `Extracted` lists assertions in the order in
which they were discovered, none twice under one kind; `ofKind` and `groups` are its views by
kind.  `Extracted.ofFiles` discovers the assertions of files: file after file, in each file depth
first, the calls whose callee's text is the name of a kind and whose span is not empty.
-/

namespace TypeAssertions

/-- The identity of an assertion: its call node within its file. -/
structure AssertionId where
  file : FileId
  node : NodeIndex
  deriving DecidableEq, Repr

/-- A call that asserts something. -/
structure Assertion where
  id : AssertionId
  kind : AssertionKind
  span : Span
  deriving DecidableEq, Repr

/-- Under what an assertion is recorded. -/
def Assertion.key (a : Assertion) : AssertionKind × AssertionId := (a.kind, a.id)

/-- Assertions in the order of their discovery, none twice under one kind. -/
structure Extracted where
  assertions : List Assertion
  distinct : (assertions.map Assertion.key).Nodup

namespace Extracted

instance : DecidableEq Extracted := fun e f =>
  decidable_of_iff (e.assertions = f.assertions) ⟨by cases e; cases f; simp, fun h => h ▸ rfl⟩

/-- No assertions. -/
def empty : Extracted := ⟨[], List.nodup_nil⟩

/-- Whether the node of an assertion is recorded under its kind. -/
def contains (e : Extracted) (a : Assertion) : Bool := a.key ∈ e.assertions.map Assertion.key

/-- The assertions with one more at the end, unless its node is recorded under its kind. -/
def insert (e : Extracted) (a : Assertion) : Extracted :=
  if h : a.key ∈ e.assertions.map Assertion.key then e
  else
    ⟨e.assertions ++ [a], by
      rw [List.map_append, List.nodup_append]
      refine ⟨e.distinct, by simp, ?_⟩
      rintro x mx y my rfl
      obtain rfl := List.mem_singleton.1 my
      exact h mx⟩

theorem assertions_insert (e : Extracted) (a : Assertion) :
  (e.insert a).assertions = if e.contains a then e.assertions else e.assertions ++ [a]
  := by
  by_cases h : a.key ∈ e.assertions.map Assertion.key <;> simp [insert, contains, h]

/-- The number of assertions. -/
def count (e : Extracted) : Nat := e.assertions.length

/-- The assertions of a kind. -/
def ofKind (e : Extracted) (k : AssertionKind) : List Assertion :=
  e.assertions.filter fun a => a.kind = k

/-- The kinds that have assertions, in order, with their assertions. -/
def groups (e : Extracted) : List (AssertionKind × List Assertion) :=
  (AssertionKind.all.map fun k => (k, e.ofKind k)).filter fun group => !group.2.isEmpty

/-- The groups that are evaluated: all but the expected errors, which are matched with the
diagnostics of the checker. -/
def evaluable (e : Extracted) : List (AssertionKind × List Assertion) :=
  e.groups.filter fun group => group.1 ≠ .expectError

end Extracted

/-- The assertion that a node is, if it is one. -/
def SourceFile.assertion? (f : SourceFile) (i : NodeIndex) : Option Assertion := do
  let node ← f.arena.get? i
  guard (node.kind = .callExpression)
  let callee ← node.children.head?
  let kind ← AssertionKind.ofName? (← f.nodeText? callee)
  let span ← f.span? i
  guard (!span.isEmpty)
  return ⟨⟨f.id, i⟩, kind, span⟩

/-- The assertions of a file in the order of its nodes. -/
def SourceFile.assertions (f : SourceFile) : List Assertion :=
  (f.arena.walk f.root).filterMap f.assertion?

/-- The assertions of files. -/
def Extracted.ofFiles (files : List SourceFile) : Extracted :=
  (files.flatMap SourceFile.assertions).foldl Extracted.insert .empty

end TypeAssertions
