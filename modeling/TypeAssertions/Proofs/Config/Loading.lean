import Mathlib.Tactic.Use
import TypeAssertions.Config.Extends
import TypeAssertions.Proofs.Except

/-!
# Loading along chains

A configuration is loaded after the ones that it extends, each along a chain with one more place.
No chain goes on for ever, since every place that is added holds a text (`chain_induction`).
Loading marks the places of the chain and takes each mark away again, whatever comes of it
(`after_load`), so what a configuration gives depends only on the chain that leads to it; the
equations for `result` say how.
-/

namespace TypeAssertions.Config

open Json

variable {fs : FileSystem}

/-- A property of paths at the end of chains holds if it holds at a path whenever it holds at all
paths one step further. -/
theorem chain_induction (fs : FileSystem) {P : Path → List Path → Prop}
    (step : ∀ p chain,
      (∀ config, config? fs p = some config → ¬ (fs.identity p).isAmong chain →
        ∀ base, P base (fs.identity p :: chain)) → P p chain)
    (p : Path) (chain : List Path) :
  P p chain
  := by
  induction bound : fs.unseen chain using Nat.strongRecOn generalizing p chain with
  | ind n ih =>
    apply step
    intro config found fresh base
    apply ih _ _ base _ rfl
    rw [← bound]
    apply unseen_lt_of_config? found fresh

/-! ### One step -/

theorem load_of_seen {p : Path} {visited : List Path} (seen : (fs.identity p).isAmong visited) :
  (load fs p visited).result = .error (circular p.spelling)
    ∧ (load fs p visited).after = visited
  := by
  rw [load]
  simp [seen]

theorem load_of_unreadable {p : Path} {visited : List Path} (fresh : ¬ (fs.identity p).isAmong visited)
    (unreadable : config? fs p = none) :
  (load fs p visited).result = .error (cannotRead p.spelling p.spelling)
    ∧ (load fs p visited).after = visited
  := by
  rw [load, dif_neg fresh]
  split
  case h_1 => simp
  case h_2 config found =>
    rw [unreadable] at found
    cases found

theorem load_of_config {p : Path} {visited : List Path} {config : ConfigFile}
    (fresh : ¬ (fs.identity p).isAmong visited) (found : config? fs p = some config) :
  (load fs p visited).result
      = (loadBases fs p config.bases .empty (fs.identity p :: visited)).result.map
          (fun sources => sources.extendFrom config.options p.spelling)
    ∧ (load fs p visited).after
      = unmark (fs.identity p)
          (loadBases fs p config.bases .empty (fs.identity p :: visited)).after
  := by
  rw [load, dif_neg fresh]
  split
  case h_1 unreadable =>
    rw [unreadable] at found
    cases found
  case h_2 other found' =>
    rw [found] at found'
    obtain rfl := Option.some.inj found'
    constructor <;> rfl

theorem loadBases_nil (p : Path) (sources : Sources) (visited : List Path) :
  (loadBases fs p [] sources visited).result = .ok sources
    ∧ (loadBases fs p [] sources visited).after = visited
  := by
  rw [loadBases]
  constructor <;> rfl

theorem loadBases_of_unresolved {p : Path} {specifier : String} (specifiers : List String)
    (sources : Sources) (visited : List Path)
    (unresolved : basePath? fs (directoryOf p) specifier = none) :
  (loadBases fs p (specifier :: specifiers) sources visited).result
      = .error (cannotRead specifier p.spelling)
    ∧ (loadBases fs p (specifier :: specifiers) sources visited).after = visited
  := by
  rw [loadBases]
  simp [unresolved]

theorem loadBases_of_error {p base : Path} {specifier : String} (specifiers : List String)
    (sources : Sources) {visited : List Path} {d : Diagnostic}
    (resolved : basePath? fs (directoryOf p) specifier = some base)
    (failed : (load fs base visited).result = .error d) :
  (loadBases fs p (specifier :: specifiers) sources visited).result = .error d
    ∧ (loadBases fs p (specifier :: specifiers) sources visited).after
      = (load fs base visited).after
  := by
  rw [loadBases]
  simp only [resolved]
  split
  case h_1 other failed' =>
    rw [failed] at failed'
    obtain rfl := Except.error.inj failed'
    constructor <;> rfl
  case h_2 above loaded =>
    rw [failed] at loaded
    cases loaded

theorem loadBases_of_ok {p base : Path} {specifier : String} (specifiers : List String)
    (sources : Sources) {visited : List Path} {above : Sources}
    (resolved : basePath? fs (directoryOf p) specifier = some base)
    (loaded : (load fs base visited).result = .ok above) :
  (loadBases fs p (specifier :: specifiers) sources visited).result
      = (loadBases fs p specifiers (sources.merge above) (load fs base visited).after).result
    ∧ (loadBases fs p (specifier :: specifiers) sources visited).after
      = (loadBases fs p specifiers (sources.merge above) (load fs base visited).after).after
  := by
  rw [loadBases]
  simp only [resolved]
  split
  case h_1 d failed =>
    rw [loaded] at failed
    cases failed
  case h_2 other loaded' =>
    rw [loaded] at loaded'
    obtain rfl := Except.ok.inj loaded'
    constructor <;> rfl

/-! ### Marks -/

theorem after_loadBases_of_after_load {p : Path} {visited : List Path}
    (restores : ∀ base, (load fs base visited).after = visited) (specifiers : List String)
    (sources : Sources) :
  (loadBases fs p specifiers sources visited).after = visited
  := by
  induction specifiers generalizing sources with
  | nil => apply (loadBases_nil p sources visited).2
  | cons specifier specifiers ih =>
    cases resolved : basePath? fs (directoryOf p) specifier with
    | none => apply (loadBases_of_unresolved specifiers sources visited resolved).2
    | some base =>
      cases loaded : (load fs base visited).result with
      | error d =>
        rw [(loadBases_of_error specifiers sources resolved loaded).2]
        apply restores
      | ok above =>
        rw [(loadBases_of_ok specifiers sources resolved loaded).2, restores]
        apply ih

/-- Loading leaves the marked places as they were, on success and on failure. -/
theorem after_load (p : Path) (visited : List Path) :
  (load fs p visited).after = visited
  := by
  induction p, visited using chain_induction fs with
  | step p visited ih =>
    by_cases seen : (fs.identity p).isAmong visited
    · apply (load_of_seen seen).2
    · cases found : config? fs p with
      | none => apply (load_of_unreadable seen found).2
      | some config =>
        rw [(load_of_config seen found).2,
          after_loadBases_of_after_load (ih config found seen)]
        apply unmark_cons

/-! ### Results -/

/-- A configuration is loaded when it is not on its chain, can be read, and its bases are loaded. -/
theorem load_eq_ok_iff {p : Path} {chain : List Path} {sources : Sources} :
  (load fs p chain).result = .ok sources
    ↔ ¬ (fs.identity p).isAmong chain ∧ ∃ config below, config? fs p = some config
      ∧ (loadBases fs p config.bases .empty (fs.identity p :: chain)).result = .ok below
      ∧ below.extendFrom config.options p.spelling = sources
  := by
  by_cases seen : (fs.identity p).isAmong chain
  · rw [(load_of_seen seen).1]
    simp [seen]
  · cases found : config? fs p with
    | none =>
      rw [(load_of_unreadable seen found).1]
      simp
    | some config =>
      rw [(load_of_config seen found).1, Except.map_eq_ok_iff]
      simp [seen]

/-- The sources after one more base are those merged with the sources of that base. -/
theorem result_loadBases_cons {p base : Path} {specifier : String} (specifiers : List String)
    (sources : Sources) (visited : List Path)
    (resolved : basePath? fs (directoryOf p) specifier = some base) :
  (loadBases fs p (specifier :: specifiers) sources visited).result
    = (load fs base visited).result >>= fun above =>
        (loadBases fs p specifiers (sources.merge above) visited).result
  := by
  cases loaded : (load fs base visited).result with
  | error d =>
    rw [(loadBases_of_error specifiers sources resolved loaded).1]
    rfl
  | ok above =>
    rw [(loadBases_of_ok specifiers sources resolved loaded).1, after_load]
    rfl

theorem loadBases_cons_eq_ok_iff {p : Path} {specifier : String} {specifiers : List String}
    {below sources : Sources} {chain : List Path} :
  (loadBases fs p (specifier :: specifiers) below chain).result = .ok sources
    ↔ ∃ base above, basePath? fs (directoryOf p) specifier = some base
      ∧ (load fs base chain).result = .ok above
      ∧ (loadBases fs p specifiers (below.merge above) chain).result = .ok sources
  := by
  cases resolved : basePath? fs (directoryOf p) specifier with
  | none =>
    rw [(loadBases_of_unresolved specifiers below chain resolved).1]
    simp
  | some base =>
    rw [result_loadBases_cons specifiers below chain resolved, Except.bind_eq_ok_iff]
    simp

/-- A configuration that extends nothing gives its own options. -/
theorem load_of_bases_nil {p : Path} {chain : List Path} {options : OrderedMap String Value}
    (fresh : ¬ (fs.identity p).isAmong chain) (found : config? fs p = some ⟨[], options⟩) :
  (load fs p chain).result = .ok (Sources.empty.extendFrom options p.spelling)
  := by
  rw [load_eq_ok_iff]
  use fresh, ⟨[], options⟩, .empty, found, (loadBases_nil _ _ _).1

/-- A configuration that extends one other gives the sources of this one with its own options over
them. -/
theorem load_of_bases_singleton {p base : Path} {chain : List Path} {specifier : String}
    {options : OrderedMap String Value} {above : Sources}
    (fresh : ¬ (fs.identity p).isAmong chain) (found : config? fs p = some ⟨[specifier], options⟩)
    (resolved : basePath? fs (directoryOf p) specifier = some base)
    (loaded : (load fs base (fs.identity p :: chain)).result = .ok above) :
  (load fs p chain).result
    = .ok ((Sources.empty.merge above).extendFrom options p.spelling)
  := by
  rw [load_eq_ok_iff]
  use fresh, ⟨[specifier], options⟩, Sources.empty.merge above, found
  rw [loadBases_cons_eq_ok_iff]
  use ⟨base, above, resolved, loaded, (loadBases_nil _ _ _).1⟩

end TypeAssertions.Config
