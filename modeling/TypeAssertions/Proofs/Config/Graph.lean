import Mathlib.Data.List.Nodup
import Mathlib.Logic.Relation
import TypeAssertions.Config.Extends

/-!
# The graph of configurations

Configurations are told apart by their vertices, the components of their identities: two paths with
one vertex are the same file.  A path is `Loadable` when everything that it reaches by extending can
be read, every specifier on the way denotes a path, and no chain of paths comes back to a vertex.
What a file extends may depend on the path that reaches it, since packages are looked up above that
path.  So a path with all that it reaches is loadable when the graph has no cycle
(`Complete.loadable`), and the graph of a loadable path has no cycle when what files extend does not
depend on the way (`Loadable.not_transGen_arc`), which is decided on finitely many paths
(`uniform_of_nodup`).
-/

namespace TypeAssertions.Config

open Relation

variable {fs : FileSystem}

/-! ### Loadable configurations -/

/-- A path is that of a configuration that the one at another path extends. -/
def Extends (fs : FileSystem) (p q : Path) : Prop :=
  ∃ config specifier, config? fs p = some config ∧ specifier ∈ config.bases
    ∧ basePath? fs (directoryOf p) specifier = some q

/-- A path is reached from another one by extending. -/
def Reaches (fs : FileSystem) : Path → Path → Prop := ReflTransGen (Extends fs)

/-- The vertex of a path: the components of its identity. -/
def vertex (fs : FileSystem) (p : Path) : List Component := (fs.identity p).components

/-- The configurations that are reached from a path can be read, and what they name is there. -/
structure Complete (fs : FileSystem) (p : Path) : Prop where
  readable : ∀ q, Reaches fs p q → ∃ config, config? fs q = some config
  resolved : ∀ q config specifier, Reaches fs p q → config? fs q = some config →
    specifier ∈ config.bases → ∃ base, basePath? fs (directoryOf q) specifier = some base

/-- Nothing is wrong with the configurations that are reached from a path: besides, no chain of
paths comes back to the vertex of one of them. -/
structure Loadable (fs : FileSystem) (p : Path) : Prop extends Complete fs p where
  acyclic : ∀ q r, Reaches fs p q → TransGen (Extends fs) q r → vertex fs r ≠ vertex fs q

theorem Loadable.of_extends {p q : Path} (h : Loadable fs p) (step : Extends fs p q) :
  Loadable fs q
  := by
  constructor
  · constructor
    · intro r reached
      apply h.readable r (reached.head step)
    · intro r config specifier reached
      apply h.resolved r config specifier (reached.head step)
  · intro r s reached
    apply h.acyclic r s (reached.head step)

/-! ### The graph of configurations -/

/-- At a vertex is a file, reached from a path, that extends the file at another vertex. -/
def Arc (fs : FileSystem) (p : Path) (a b : List Component) : Prop :=
  ∃ q r, Reaches fs p q ∧ Extends fs q r ∧ vertex fs q = a ∧ vertex fs r = b

/-- What a file extends does not depend on the way on which it is reached from a path. -/
def Uniform (fs : FileSystem) (p : Path) : Prop :=
  ∀ q q' r, Reaches fs p q → Reaches fs p q' → vertex fs q = vertex fs q' → Extends fs q r →
    ∃ s, Extends fs q' s ∧ vertex fs s = vertex fs r

/-- A chain of paths is a chain in the graph. -/
theorem transGen_arc {p q r : Path} (reached : Reaches fs p q)
    (chain : TransGen (Extends fs) q r) :
  TransGen (Arc fs p) (vertex fs q) (vertex fs r)
  := by
  induction chain with
  | single step => apply TransGen.single ⟨_, _, reached, step, rfl, rfl⟩
  | @tail s r before step ih =>
    apply ih.tail
    exact ⟨s, r, reached.trans before.to_reflTransGen, step, rfl, rfl⟩

/-- A chain in the graph is that of paths when what files extend does not depend on the way. -/
theorem transGen_of_arc {p q : Path} {b : List Component} (uniform : Uniform fs p)
    (reached : Reaches fs p q) (chain : TransGen (Arc fs p) (vertex fs q) b) :
  ∃ r, TransGen (Extends fs) q r ∧ vertex fs r = b
  := by
  induction chain with
  | single arc =>
    obtain ⟨q', r', reached', step, same, rfl⟩ := arc
    obtain ⟨r, step', same'⟩ := uniform q' q r' reached' reached same step
    use r, .single step', same'
  | tail before arc ih =>
    obtain ⟨r, chain', rfl⟩ := ih
    obtain ⟨q', r', reached', step, same, rfl⟩ := arc
    have along := reached.trans chain'.to_reflTransGen
    obtain ⟨s, step', same'⟩ := uniform q' r r' reached' along same step
    use s, chain'.tail step', same'

/-- The paths of the configurations that the one at a path extends. -/
def extended (fs : FileSystem) (p : Path) : List Path :=
  ((config? fs p).elim [] ConfigFile.bases).filterMap (basePath? fs (directoryOf p))

theorem extends_iff {p q : Path} :
  Extends fs p q ↔ q ∈ extended fs p
  := by
  rw [Extends, extended, List.mem_filterMap]
  cases config? fs p with
  | none => simp
  | some config => simp

theorem extended_of_config {p : Path} {config : ConfigFile} (found : config? fs p = some config) :
  extended fs p = config.bases.filterMap (basePath? fs (directoryOf p))
  := by
  rw [extended, found]
  rfl

/-- Paths that hold what they extend hold all that is reached from one of them. -/
theorem mem_of_reaches {p q : Path} {paths : List Path}
    (closed : ∀ r ∈ paths, ∀ s ∈ extended fs r, s ∈ paths) (start : p ∈ paths)
    (reached : Reaches fs p q) :
  q ∈ paths
  := by
  induction reached with
  | refl => apply start
  | tail _ step ih => apply closed _ ih _ (extends_iff.1 step)

/-- What files extend does not depend on the way when paths that hold what they extend have
different vertices. -/
theorem uniform_of_nodup {p : Path} {paths : List Path}
    (closed : ∀ q ∈ paths, ∀ r ∈ extended fs q, r ∈ paths) (start : p ∈ paths)
    (apart : (paths.map (vertex fs)).Nodup) :
  Uniform fs p
  := by
  intro q q' r reached reached' same step
  have member := mem_of_reaches closed start reached
  have member' := mem_of_reaches closed start reached'
  obtain rfl := List.inj_on_of_nodup_map apart member member' same
  use r

theorem Complete.loadable {p : Path} (complete : Complete fs p)
    (acyclic : ∀ a, ¬ TransGen (Arc fs p) a a) :
  Loadable fs p
  := by
  use complete
  intro q r reached chain same
  have cycle := transGen_arc reached chain
  rw [same] at cycle
  apply acyclic _ cycle

theorem Loadable.not_transGen_arc {p : Path} (loadable : Loadable fs p) (uniform : Uniform fs p)
    (a : List Component) :
  ¬ TransGen (Arc fs p) a a
  := by
  intro cycle
  obtain ⟨b, ⟨q, r, reached, -, rfl, -⟩, -⟩ := TransGen.head'_iff.1 cycle
  obtain ⟨s, chain, same⟩ := transGen_of_arc uniform reached cycle
  apply loadable.acyclic q s reached chain same

end TypeAssertions.Config
