import TypeAssertions.Proofs.Path.Joining

/-!
# What paths denote

As there are no links, where a path leads can be read off its components: `FileTree.target` follows
them from the working directory on, and a path that denotes anything denotes its target
(`FileTree.target_of_locate`).  So equivalent paths do not denote different things.  Paths that are
not equivalent may denote the same thing, as `a` and `./a` do.
-/

namespace TypeAssertions

open TypeAssertions.Path

/-- The names that a component leads to from names. -/
def Component.follow (d : List String) : Component → List String
  | .root => []
  | .here => d
  | .up => d.dropLast
  | .name s => d ++ [s]

theorem Component.foldl_follow_names (d names : List String) :
  (names.map Component.name).foldl Component.follow d = d ++ names
  := by
  induction names generalizing d with
  | nil => rw [List.append_nil, List.map_nil, List.foldl_nil]
  | cons name names ih =>
    rw [List.map_cons, List.foldl_cons, ih, follow, List.append_assoc, List.singleton_append]

namespace FileTree

variable {t : FileTree} {p q : Path} {d e names : List String}

/-- The names that the components of a path lead to from the working directory. -/
def target (t : FileTree) (p : Path) : List String :=
  p.components.foldl Component.follow t.workingDirectory

theorem target_eq_of_components_eq (same : p.components = q.components) :
  t.target p = t.target q
  := by
  rw [target, same, target]

/-- A step that is a part follows its component. -/
theorem Steps.eq_follow {step : Nat × List Char} {part : Part} (h : t.Steps d step.2 e)
    (proper : partOfStep step = some part) :
  e = part.component.follow d
  := by
  obtain ⟨start, s⟩ := step
  simp only [partOfStep] at proper
  cases h with
  | stay directory blank =>
    rcases blank with rfl | rfl
    · cases proper
    · rw [if_neg (List.cons_ne_nil _ _), if_pos rfl] at proper
      split at proper
      · rw [← Option.some.inj proper, Component.follow]
      · cases proper
  | up =>
    rw [if_neg (by decide), if_neg (by decide), if_pos rfl] at proper
    rw [← Option.some.inj proper, Component.follow]
  | down directory solid onward =>
    rw [if_neg solid.1, if_neg solid.2, if_neg onward] at proper
    rw [← Option.some.inj proper, Component.follow]

theorem foldlM_step_eq_follow {steps : List (Nat × List Char)}
    (reached : (steps.map Prod.snd).foldlM t.step d = .ok e) :
  e = ((steps.filterMap partOfStep).map Part.component).foldl Component.follow d
  := by
  induction steps generalizing d with
  | nil =>
    rw [List.map_nil, List.foldlM_nil, Except.pure_eq_ok_iff] at reached
    rw [← reached]
    rfl
  | cons step steps ih =>
    rw [List.map_cons, List.foldlM_cons, Except.bind_eq_ok_iff] at reached
    obtain ⟨c, first, reached⟩ := reached
    rw [step_eq_ok_iff] at first
    cases read : partOfStep step with
    | none =>
      rw [List.filterMap_cons_none read, ih reached, first.eq (blank_of_partOfStep read)]
    | some part =>
      rw [List.filterMap_cons_some read, List.map_cons, List.foldl_cons, ih reached,
        first.eq_follow read]

/-- A path that denotes something denotes its target. -/
theorem target_of_locate (located : t.locate p = .ok d) :
  t.target p = d
  := by
  rw [foldlM_step_eq_follow (follow_of_locate located), target, components, parts, start]
  cases p.isAbsolute with
  | false => rfl
  | true => rfl

/-- Names that are joined to a path go down from its target. -/
theorem target_join (spelled : p.chars ≠ []) (proper : ∀ name ∈ names, IsName name)
    (nonempty : names ≠ []) :
  t.target (p.join (ofNames names)) = t.target p ++ names
  := by
  rw [target, components_join spelled proper nonempty, List.foldl_append,
    Component.foldl_follow_names, target]

end FileTree

end TypeAssertions
