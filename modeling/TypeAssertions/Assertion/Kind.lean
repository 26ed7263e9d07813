/-!
# Kinds of assertions

An assertion is a call such as `expectType<string>(value)`; its kind is the name of the function
that it calls, and no other name is one.
-/

namespace TypeAssertions

/-- What an assertion asserts about its argument. -/
inductive AssertionKind where
  | expectType
  | expectNotType
  | expectAssignable
  | expectNotAssignable
  | expectError
  | expectDeprecated
  | expectNotDeprecated
  | printType
  | expectDocCommentIncludes
  deriving DecidableEq, Repr

namespace AssertionKind

/-- All kinds in their order. -/
def all : List AssertionKind :=
  [.expectType, .expectNotType, .expectAssignable, .expectNotAssignable, .expectError,
    .expectDeprecated, .expectNotDeprecated, .printType, .expectDocCommentIncludes]

theorem mem_all (k : AssertionKind) :
  k ∈ all
  := by
  cases k <;> decide

/-- The name of the function that assertions of a kind call. -/
def name : AssertionKind → String
  | .expectType => "expectType"
  | .expectNotType => "expectNotType"
  | .expectAssignable => "expectAssignable"
  | .expectNotAssignable => "expectNotAssignable"
  | .expectError => "expectError"
  | .expectDeprecated => "expectDeprecated"
  | .expectNotDeprecated => "expectNotDeprecated"
  | .printType => "printType"
  | .expectDocCommentIncludes => "expectDocCommentIncludes"

/-- The kinds by name. -/
def byName : List (String × AssertionKind) := all.map fun k => (k.name, k)

/-- The kind of assertions that call a function. -/
def ofName? (s : String) : Option AssertionKind := byName.lookup s

theorem ofName?_name (k : AssertionKind) :
  ofName? k.name = some k
  := by
  cases k <;> decide

theorem ofName?_eq_some_iff (s : String) (k : AssertionKind) :
  ofName? s = some k ↔ s = k.name
  := by
  constructor
  · intro h
    obtain ⟨l₁, l₂, split, -⟩ := List.lookup_eq_some_iff.1 h
    have member : (s, k) ∈ byName := by simp [split]
    obtain ⟨j, -, same⟩ := List.mem_map.1 member
    obtain ⟨rfl, rfl⟩ := Prod.mk.inj same
    rfl
  · rintro rfl
    exact ofName?_name k

/-- The complaint about a name that is no kind. -/
def unknownMessage (s : String) : String := s!"`{s}` is not a recognized assertion"

end AssertionKind

end TypeAssertions
