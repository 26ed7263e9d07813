import Mathlib
import TypeAssertions.Proofs.Config.Loading

/-!
# Depth of loading

Loading a configuration calls itself for every file that the configuration extends.  `Loads` says
how such a call runs to its end, step by step and without any bound, and how many calls are inside
each other at most while it runs.  Every call runs to its end, in one way, with at most one call
more inside each other than there are places that hold a text (`exists_loads_depth_le`), however
long the paths become on the way.  In a tree these places are at most as many as its files
(`depth_le_of_loads_tree`).
-/

namespace TypeAssertions

/-! ### Places that hold a text -/

namespace FileSystem

/-- The places that hold a text. -/
def textPlaces (fs : FileSystem) : Set Path :=
  {place | ∃ p text, fs.readText? p = some text ∧ fs.identity p = place}

theorem textPlaces_subset (fs : FileSystem) :
  fs.textPlaces ⊆ fs.places.toFinset
  := by
  rintro place ⟨p, text, read, rfl⟩
  rw [List.coe_toFinset]
  apply fs.mem_places read

theorem finite_textPlaces (fs : FileSystem) :
  fs.textPlaces.Finite
  := fs.places.toFinset.finite_toSet.subset fs.textPlaces_subset

theorem ncard_textPlaces_le (fs : FileSystem) :
  fs.textPlaces.ncard ≤ fs.places.length
  := by
  apply (Set.ncard_le_ncard fs.textPlaces_subset (Finset.finite_toSet _)).trans
  rw [Set.ncard_coe_finset]
  apply List.toFinset_card_le

/-- The number of places that hold a text and are not in a list. -/
noncomputable def textsOutside (fs : FileSystem) (chain : List Path) : Nat :=
  (fs.textPlaces \ {place | place.isAmong chain}).ncard

theorem textsOutside_nil (fs : FileSystem) :
  fs.textsOutside [] = fs.textPlaces.ncard
  := by
  simp [textsOutside]

end FileSystem

namespace Config

variable {fs : FileSystem}

/-- One text fewer is outside of a chain after a configuration has been added to it. -/
theorem textsOutside_cons {p : Path} {chain : List Path} {config : ConfigFile}
    (found : config? fs p = some config) (fresh : ¬ (fs.identity p).isAmong chain) :
  fs.textsOutside (fs.identity p :: chain) + 1 ≤ fs.textsOutside chain
  := by
  obtain ⟨text, read, -⟩ := Option.bind_eq_some_iff.1 found
  have outside : fs.identity p ∈ fs.textPlaces \ {place | place.isAmong chain} :=
    ⟨⟨p, text, read, rfl⟩, fresh⟩
  have fewer : fs.textPlaces \ {place | place.isAmong (fs.identity p :: chain)}
      ⊆ (fs.textPlaces \ {place | place.isAmong chain}) \ {fs.identity p} := by
    rintro place ⟨holds, apart⟩
    simp only [Set.mem_ofPred_eq, Path.isAmong_cons, Bool.or_eq_true, not_or] at apart
    refine ⟨⟨holds, apart.2⟩, ?_⟩
    rintro rfl
    apply apart.1 (Path.equivalent_refl _)
  rw [FileSystem.textsOutside, FileSystem.textsOutside,
    ← Set.ncard_sdiff_singleton_add_one outside fs.finite_textPlaces.sdiff]
  apply Nat.succ_le_succ
  apply Set.ncard_le_ncard fewer fs.finite_textPlaces.sdiff.sdiff

/-! ### Runs -/

mutual

/-- A call for the configuration at a path, with places marked, runs to its end: with a result, the
places that are marked then, and the number of calls that are inside each other at most. -/
inductive Loads (fs : FileSystem) :
    Path → List Path → Except Diagnostic Sources → List Path → Nat → Prop
  | seen {p : Path} {visited : List Path} (seen : (fs.identity p).isAmong visited) :
      Loads fs p visited (.error (circular p.spelling)) visited 1
  | unreadable {p : Path} {visited : List Path} (fresh : ¬ (fs.identity p).isAmong visited)
      (unreadable : config? fs p = none) :
      Loads fs p visited (.error (cannotRead p.spelling p.spelling))
        (unmark (fs.identity p) (fs.identity p :: visited)) 1
  | config {p : Path} {visited : List Path} {config : ConfigFile}
      {result : Except Diagnostic Sources} {after : List Path} {depth : Nat}
      (fresh : ¬ (fs.identity p).isAmong visited) (found : config? fs p = some config)
      (bases : LoadsBases fs p config.bases .empty (fs.identity p :: visited) result after depth) :
      Loads fs p visited (result.map fun sources => sources.extendFrom config.options p.spelling)
        (unmark (fs.identity p) after) (depth + 1)

/-- The calls for the configurations that a file extends run to their ends, over some sources. -/
inductive LoadsBases (fs : FileSystem) :
    Path → List String → Sources → List Path → Except Diagnostic Sources → List Path → Nat → Prop
  | nil {p : Path} {sources : Sources} {visited : List Path} :
      LoadsBases fs p [] sources visited (.ok sources) visited 0
  | unresolved {p : Path} {specifier : String} {specifiers : List String} {sources : Sources}
      {visited : List Path} (unresolved : basePath? fs (directoryOf p) specifier = none) :
      LoadsBases fs p (specifier :: specifiers) sources visited
        (.error (cannotRead specifier p.spelling)) visited 0
  | failed {p base : Path} {specifier : String} {specifiers : List String} {sources : Sources}
      {visited after : List Path} {d : Diagnostic} {depth : Nat}
      (resolved : basePath? fs (directoryOf p) specifier = some base)
      (failed : Loads fs base visited (.error d) after depth) :
      LoadsBases fs p (specifier :: specifiers) sources visited (.error d) after depth
  | cons {p base : Path} {specifier : String} {specifiers : List String} {sources above : Sources}
      {visited between after : List Path} {result : Except Diagnostic Sources} {depth depth' : Nat}
      (resolved : basePath? fs (directoryOf p) specifier = some base)
      (loaded : Loads fs base visited (.ok above) between depth)
      (rest : LoadsBases fs p specifiers (sources.merge above) between result after depth') :
      LoadsBases fs p (specifier :: specifiers) sources visited result after (max depth depth')

end

mutual

/-- A call runs in one way. -/
theorem Loads.unique {p : Path} {visited after after' : List Path}
    {result result' : Except Diagnostic Sources} {depth depth' : Nat} :
    Loads fs p visited result after depth → Loads fs p visited result' after' depth' →
      result = result' ∧ after = after' ∧ depth = depth'
  | .seen seen, other => by
    cases other with
    | seen => exact ⟨rfl, rfl, rfl⟩
    | unreadable fresh => exact absurd seen fresh
    | config fresh => exact absurd seen fresh
  | .unreadable fresh unreadable, other => by
    cases other with
    | seen seen => exact absurd seen fresh
    | unreadable => exact ⟨rfl, rfl, rfl⟩
    | config _ found =>
      rw [unreadable] at found
      cases found
  | .config fresh found bases, other => by
    cases other with
    | seen seen => exact absurd seen fresh
    | unreadable _ unreadable =>
      rw [unreadable] at found
      cases found
    | config _ found' bases' =>
      rw [found] at found'
      obtain rfl := Option.some.inj found'
      obtain ⟨rfl, rfl, rfl⟩ := bases.unique bases'
      exact ⟨rfl, rfl, rfl⟩

theorem LoadsBases.unique {p : Path} {specifiers : List String} {sources : Sources}
    {visited after after' : List Path} {result result' : Except Diagnostic Sources}
    {depth depth' : Nat} :
    LoadsBases fs p specifiers sources visited result after depth →
      LoadsBases fs p specifiers sources visited result' after' depth' →
      result = result' ∧ after = after' ∧ depth = depth'
  | .nil, other => by
    cases other
    exact ⟨rfl, rfl, rfl⟩
  | .unresolved unresolved, other => by
    cases other with
    | unresolved => exact ⟨rfl, rfl, rfl⟩
    | failed resolved | cons resolved =>
      rw [unresolved] at resolved
      cases resolved
  | .failed resolved failed, other => by
    cases other with
    | unresolved unresolved =>
      rw [unresolved] at resolved
      cases resolved
    | failed resolved' failed' =>
      rw [resolved] at resolved'
      obtain rfl := Option.some.inj resolved'
      exact failed.unique failed'
    | cons resolved' loaded =>
      rw [resolved] at resolved'
      obtain rfl := Option.some.inj resolved'
      cases (failed.unique loaded).1
  | .cons resolved loaded rest, other => by
    cases other with
    | unresolved unresolved =>
      rw [unresolved] at resolved
      cases resolved
    | failed resolved' failed =>
      rw [resolved] at resolved'
      obtain rfl := Option.some.inj resolved'
      cases (loaded.unique failed).1
    | cons resolved' loaded' rest' =>
      rw [resolved] at resolved'
      obtain rfl := Option.some.inj resolved'
      obtain ⟨same, rfl, rfl⟩ := loaded.unique loaded'
      obtain rfl := Except.ok.inj same
      obtain ⟨rfl, rfl, rfl⟩ := rest.unique rest'
      exact ⟨rfl, rfl, rfl⟩

end

/-! ### Runs come to an end -/

theorem exists_loadsBases {p : Path} {visited : List Path} {bound : Nat}
    (inner : ∀ base, ∃ depth, Loads fs base visited (load fs base visited).result visited depth
      ∧ depth ≤ bound) (specifiers : List String) (sources : Sources) :
  ∃ depth, LoadsBases fs p specifiers sources visited
      (loadBases fs p specifiers sources visited).result visited depth
    ∧ depth ≤ bound
  := by
  induction specifiers generalizing sources with
  | nil =>
    rw [(loadBases_nil p sources visited).1]
    exact ⟨0, .nil, Nat.zero_le _⟩
  | cons specifier specifiers ih =>
    cases resolved : basePath? fs (directoryOf p) specifier with
    | none =>
      rw [(loadBases_of_unresolved specifiers sources visited resolved).1]
      exact ⟨0, .unresolved resolved, Nat.zero_le _⟩
    | some base =>
      obtain ⟨depth, run, few⟩ := inner base
      cases loaded : (load fs base visited).result with
      | error d =>
        rw [loaded] at run
        rw [(loadBases_of_error specifiers sources resolved loaded).1]
        exact ⟨depth, .failed resolved run, few⟩
      | ok above =>
        rw [loaded] at run
        obtain ⟨depth', rest, few'⟩ := ih (sources.merge above)
        rw [(loadBases_of_ok specifiers sources resolved loaded).1, after_load]
        exact ⟨max depth depth', .cons resolved run rest, max_le few few'⟩

/-- Along a chain there are at most as many calls as places outside of it that hold a text, and one
more that finds a place of the chain or none that can be read. -/
theorem exists_loads (fs : FileSystem) (p : Path) (chain : List Path) :
  ∃ depth, Loads fs p chain (load fs p chain).result chain depth
    ∧ depth ≤ fs.textsOutside chain + 1
  := by
  induction p, chain using chain_induction fs with
  | step p chain ih =>
    by_cases seen : (fs.identity p).isAmong chain
    · rw [(load_of_seen seen).1]
      exact ⟨1, .seen seen, Nat.le_add_left 1 _⟩
    · cases found : config? fs p with
      | none =>
        have run := Loads.unreadable seen found
        rw [unmark_cons] at run
        rw [(load_of_unreadable seen found).1]
        exact ⟨1, run, Nat.le_add_left 1 _⟩
      | some config =>
        obtain ⟨depth, bases, few⟩ := exists_loadsBases (ih config found seen) config.bases .empty
        have run := Loads.config seen found bases
        rw [unmark_cons] at run
        rw [(load_of_config seen found).1]
        exact ⟨depth + 1, run, Nat.succ_le_succ (few.trans (textsOutside_cons found seen))⟩

/-- Whatever the configurations of a file system extend, loading one of them runs to its end, with
nothing marked before and after.  It does so in one way, and while it runs the number of calls
inside each other exceeds the number of the places that hold a text by at most one. -/
theorem exists_loads_depth_le (fs : FileSystem) (p : Path) :
  fs.textPlaces.Finite
    ∧ ∃ depth, Loads fs p [] (load fs p []).result [] depth
      ∧ depth ≤ fs.textPlaces.ncard + 1
      ∧ ∀ result after depth', Loads fs p [] result after depth' →
        result = (load fs p []).result ∧ after = [] ∧ depth' = depth
  := by
  use fs.finite_textPlaces
  obtain ⟨depth, run, few⟩ := exists_loads fs p []
  rw [fs.textsOutside_nil] at few
  use depth, run, few
  intro result after depth' other
  apply other.unique run

/-- In a tree, the number of calls inside each other exceeds the number of its files by at most
one. -/
theorem depth_le_of_loads_tree {t : FileTree} {p : Path} {result : Except Diagnostic Sources}
    {after : List Path} {depth : Nat} (run : Loads t p [] result after depth) :
  depth ≤ (entriesFiles t.entries).length + 1
  := by
  obtain ⟨depth', run', few⟩ := exists_loads t p []
  obtain ⟨-, -, rfl⟩ := run.unique run'
  have files : t.fileSystem.places.length = (entriesFiles t.entries).length := List.length_map _
  rw [t.fileSystem.textsOutside_nil] at few
  rw [← files]
  apply few.trans (Nat.succ_le_succ t.fileSystem.ncard_textPlaces_le)

end Config

end TypeAssertions
