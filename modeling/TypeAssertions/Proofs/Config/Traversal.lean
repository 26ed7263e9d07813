import TypeAssertions.Config.Resolution
import TypeAssertions.Proofs.Config.Loading
import TypeAssertions.Proofs.Config.Merging
import TypeAssertions.Proofs.Except

/-!
# Traversal of extended configurations

The layers of a configuration are those of the ones that it extends, in their order, and then the
file itself (`Traverses`).  A configuration that can be loaded has one such list of layers, and
loading gives the sources that these layers give (`load_layers`): the last layer that sets an
option decides its value and its origin, however often files are reached.  Options and origins are
for the same names all the time that a configuration is loaded (`Arises.matched`), so a diagnostic
about an option names the file that set it.
-/

namespace TypeAssertions.Config

open Json

variable {fs : FileSystem}

/-! ### Traversals -/

mutual

/-- The layers of a configuration: those of the configurations that it extends, then itself. -/
inductive Traverses (fs : FileSystem) : Path → List Layer → Prop
  | file {p : Path} {config : ConfigFile} {lower : List Layer}
      (found : config? fs p = some config) (bases : TraversesBases fs p config.bases lower) :
      Traverses fs p (lower ++ [⟨p.spelling, config.options⟩])

/-- The layers of the configurations that a file extends. -/
inductive TraversesBases (fs : FileSystem) : Path → List String → List Layer → Prop
  | nil {p : Path} : TraversesBases fs p [] []
  | cons {p base : Path} {specifier : String} {specifiers : List String}
      {first rest : List Layer} (resolved : basePath? fs (directoryOf p) specifier = some base)
      (layers : Traverses fs base first) (others : TraversesBases fs p specifiers rest) :
      TraversesBases fs p (specifier :: specifiers) (first ++ rest)

end

mutual

theorem Traverses.unique {p : Path} {layers layers' : List Layer} :
    Traverses fs p layers → Traverses fs p layers' → layers' = layers
  | .file found bases, .file found' bases' => by
    rw [found] at found'
    obtain rfl := Option.some.inj found'
    rw [bases.unique bases']

theorem TraversesBases.unique {p : Path} {specifiers : List String}
    {layers layers' : List Layer} :
    TraversesBases fs p specifiers layers → TraversesBases fs p specifiers layers' →
      layers' = layers
  | .nil, .nil => rfl
  | .cons resolved first others, .cons resolved' first' others' => by
    rw [resolved] at resolved'
    obtain rfl := Option.some.inj resolved'
    rw [first.unique first', others.unique others']

end

/-! ### Sources of traversals -/

theorem traverses_of_loadBases {p : Path} {chain : List Path}
    (traverses : ∀ base above, (load fs base chain).result = .ok above →
      ∃ layers, Traverses fs base layers ∧ above.Merges layers)
    {specifiers : List String} {lower : List Layer} {below sources : Sources}
    (merges : below.Merges lower)
    (loaded : (loadBases fs p specifiers below chain).result = .ok sources) :
  ∃ layers, TraversesBases fs p specifiers layers ∧ sources.Merges (lower ++ layers)
  := by
  induction specifiers generalizing lower below with
  | nil =>
    rw [(loadBases_nil p below chain).1] at loaded
    obtain rfl := Except.ok.inj loaded
    use [], .nil
    rw [List.append_nil]
    apply merges
  | cons specifier specifiers ih =>
    obtain ⟨base, above, resolved, first, rest⟩ := loadBases_cons_eq_ok_iff.1 loaded
    obtain ⟨upper, traversed, merges'⟩ := traverses base above first
    obtain ⟨others, bases, merged⟩ := ih (merges.merge merges') rest
    use upper ++ others, .cons resolved traversed bases
    rw [← List.append_assoc]
    apply merged

/-- What is loaded merges the layers of a traversal. -/
theorem traverses_of_load {p : Path} {chain : List Path} :
  ∀ sources, (load fs p chain).result = .ok sources →
    ∃ layers, Traverses fs p layers ∧ sources.Merges layers
  := by
  induction p, chain using chain_induction fs with
  | step p chain ih =>
    intro sources loaded
    obtain ⟨fresh, config, below, found, bases, rfl⟩ := load_eq_ok_iff.1 loaded
    obtain ⟨lower, traversed, merges⟩ :=
      traverses_of_loadBases (ih config found fresh) .empty bases
    use lower ++ [⟨p.spelling, config.options⟩], .file found traversed
    apply merges.extendFrom

/-! ### Sources that arise -/

/-- The sources of the bases of the configuration at `p` that come before the specifiers `after`. -/
def MergedBefore (fs : FileSystem) (p : Path) (chain : List Path) (after : List String)
    (below : Sources) : Prop :=
  ¬ (fs.identity p).isAmong chain ∧ ∃ config before, config? fs p = some config
    ∧ config.bases = before ++ after
    ∧ (loadBases fs p before .empty (fs.identity p :: chain)).result = .ok below

/-- Sources that arise while the configuration at a path is loaded: between its bases, while the
options of a base are moved, while its own options are set, and while a base is loaded. -/
inductive Arises (fs : FileSystem) : Path → List Path → Sources → Prop
  | between {p : Path} {chain : List Path} {after : List String} {s : Sources}
      (merged : MergedBefore fs p chain after s) :
      Arises fs p chain s
  | moving {p base : Path} {chain : List Path} {specifier : String} {after : List String}
      {s above : Sources} {moved : List (String × Value)}
      (merged : MergedBefore fs p chain (specifier :: after) s)
      (resolved : basePath? fs (directoryOf p) specifier = some base)
      (loaded : (load fs base (fs.identity p :: chain)).result = .ok above)
      (part : moved <+: above.options.entries) :
      Arises fs p chain (moved.foldl Sources.move (s, above.origins)).1
  | setting {p : Path} {chain : List Path} {config : ConfigFile} {s : Sources}
      {options : List (String × Value)} (merged : MergedBefore fs p chain [] s)
      (found : config? fs p = some config) (part : options <+: config.options.entries) :
      Arises fs p chain (options.foldl (fun s option => s.set option.1 option.2 p.spelling) s)
  | inside {p base : Path} {chain : List Path} {specifier : String} {after : List String}
      {below s : Sources} (merged : MergedBefore fs p chain (specifier :: after) below)
      (resolved : basePath? fs (directoryOf p) specifier = some base)
      (inner : Arises fs base (fs.identity p :: chain) s) :
      Arises fs p chain s

theorem MergedBefore.matched {p : Path} {chain : List Path} {after : List String} {s : Sources}
    (h : MergedBefore fs p chain after s) :
  s.Matched
  := by
  obtain ⟨-, config, before, -, -, loaded⟩ := h
  obtain ⟨layers, -, merges⟩ :=
    traverses_of_loadBases (fun base above => traverses_of_load above) .empty loaded
  apply merges.matched

/-- Options and origins are for the same names all the time. -/
theorem Arises.matched {p : Path} {chain : List Path} {s : Sources} (h : Arises fs p chain s) :
  s.Matched
  := by
  induction h with
  | between merged => apply merged.matched
  | moving merged resolved loaded part =>
    obtain ⟨layers, -, merges⟩ := traverses_of_load _ loaded
    apply merged.matched.foldl_move merges.matched part
  | setting merged found part => apply merged.matched.foldl_set
  | inside merged resolved inner ih => apply ih

/-! ### Diagnostics -/

/-- The diagnostic that an option is given, with a value, by the file `origin`. -/
inductive Complains (origin : Option String) (name : String) : Value → Diagnostic → Prop
  | unknown {v : Value} (unknown : optionKind? name = none) :
      Complains origin name v (.ofCode origin Code.unknownOption [name])
  | unfit {v : Value} {kind : OptionKind} {misfit : Misfit}
      (known : optionKind? name = some kind) (given : v ≠ .null)
      (unfit : kind.check v = .error misfit) :
      Complains origin name v (misfit.diagnostic origin name)

theorem file_ofCode (file : Option String) (code : UInt32) (arguments : List String) :
  (Diagnostic.ofCode file code arguments).file = file
  := by
  rw [Diagnostic.ofCode]
  split <;> rfl

theorem code_ofCode (file : Option String) (code : UInt32) (arguments : List String) :
  (Diagnostic.ofCode file code arguments).code = code
  := by
  rw [Diagnostic.ofCode]
  split <;> rfl

theorem Complains.file {origin : Option String} {name : String} {v : Value} {d : Diagnostic}
    (h : Complains origin name v d) :
  d.file = origin
  := by
  cases h with
  | unknown => apply file_ofCode
  | @unfit kind misfit =>
    cases misfit with
    | wrongKind => apply file_ofCode
    | notAChoice => apply file_ofCode

theorem Complains.code {origin : Option String} {name : String} {v : Value} {d : Diagnostic}
    (h : Complains origin name v d) :
  d.code ∈ [Code.unknownOption, Code.optionType, Code.optionChoice]
  := by
  cases h with
  | unknown =>
    rw [code_ofCode]
    simp
  | @unfit kind misfit =>
    cases misfit with
    | wrongKind =>
      rw [Misfit.diagnostic, code_ofCode]
      simp
    | notAChoice =>
      rw [Misfit.diagnostic, code_ofCode]
      simp

/-- The diagnostic about an option with a value, if there is something wrong. -/
def complaint? (origin : Option String) (name : String) (v : Value) : Option Diagnostic :=
  match optionKind? name with
  | none => some (.ofCode origin Code.unknownOption [name])
  | some kind =>
    if v = .null then none
    else
      match kind.check v with
      | .ok _ => none
      | .error misfit => some (misfit.diagnostic origin name)

theorem complaint?_eq_some_iff {origin : Option String} {name : String} {v : Value}
    {d : Diagnostic} :
  complaint? origin name v = some d ↔ Complains origin name v d
  := by
  constructor
  · intro found
    rw [complaint?] at found
    split at found
    case h_1 unknown =>
      obtain rfl := Option.some.inj found
      apply Complains.unknown unknown
    case h_2 kind known =>
      split at found
      · cases found
      case isFalse given =>
        split at found
        · cases found
        case h_2 misfit unfit =>
          obtain rfl := Option.some.inj found
          apply Complains.unfit known given unfit
  · rintro (unknown | ⟨known, given, unfit⟩)
    · simp [complaint?, unknown]
    · simp [complaint?, known, given, unfit]

/-- Applying an option adds the diagnostic about it at the end. -/
theorem diagnostics_applyOption (r : Resolved) (origin : Option String) (name : String)
    (v : Value) :
  (applyOption r origin name v).diagnostics = r.diagnostics ++ (complaint? origin name v).toList
  := by
  rw [applyOption, complaint?]
  cases optionKind? name with
  | none => rfl
  | some kind =>
    by_cases null : v = .null
    · simp [null]
    · cases checked : kind.check v <;> simp [null, checked]

theorem diagnostics_foldl_applyOption (origins : OrderedMap String String)
    (options : List (String × Value)) (r : Resolved) :
  (options.foldl
      (fun r option => applyOption r (origins.get? option.1) option.1 option.2) r).diagnostics
    = r.diagnostics ++ options.filterMap fun option =>
        complaint? (origins.get? option.1) option.1 option.2
  := by
  induction options generalizing r with
  | nil => simp
  | cons option rest ih =>
    rw [List.foldl_cons, ih, diagnostics_applyOption, List.append_assoc]
    cases found : complaint? (origins.get? option.1) option.1 option.2 <;> simp [found]

/-- The diagnostics of sources are those about their options, in the order of the options. -/
theorem diagnostics_apply (s : Sources) :
  (apply s).diagnostics
    = s.options.entries.filterMap fun option =>
        complaint? (s.origins.get? option.1) option.1 option.2
  := diagnostics_foldl_applyOption s.origins s.options.entries ⟨.default, []⟩

/-- The diagnostics of sources are about their options, each from its origin. -/
theorem mem_diagnostics_apply_iff (s : Sources) (d : Diagnostic) :
  d ∈ (apply s).diagnostics
    ↔ ∃ name v, s.options.get? name = some v ∧ Complains (s.origins.get? name) name v d
  := by
  simp [diagnostics_apply, complaint?_eq_some_iff, ← OrderedMap.mem_entries_iff]

/-! ### Layers decide -/

/-- What loading gives is decided by the layers of the configuration: the options that they set, in
the order in which they are first set, each with the value and the name of the last layer that sets
it.  A diagnostic about an option names that layer. -/
theorem load_layers (fs : FileSystem) (p : Path) (chain : List Path) (sources : Sources)
    (loaded : (load fs p chain).result = .ok sources) :
  (∃ layers, Traverses fs p layers ∧ (∀ others, Traverses fs p others → others = layers)
    ∧ sources.options.keys = (Layer.set layers).eraseDups
    ∧ (∀ name, name ∈ sources.options.keys ↔ ∃ layer ∈ layers, name ∈ layer.options.keys)
    ∧ (∀ name ∈ sources.options.keys, ∃ v origin, Layer.LastSets layers name v origin
      ∧ sources.options.get? name = some v ∧ sources.origins.get? name = some origin)
    ∧ ∀ d, d ∈ (apply sources).diagnostics
      ↔ ∃ name v origin, Layer.LastSets layers name v origin
        ∧ Complains (some origin) name v d ∧ d.file = some origin)
  ∧ Arises fs p chain sources ∧ ∀ s, Arises fs p chain s → s.Matched
  := by
  obtain ⟨layers, traversed, merges⟩ := traverses_of_load sources loaded
  have decided (name : String) (v : Value) (found : sources.options.get? name = some v) :
      ∃ origin, Layer.LastSets layers name v origin
        ∧ sources.origins.get? name = some origin := by
    rw [merges.value] at found
    obtain ⟨⟨v, origin⟩, last, rfl⟩ := Option.map_eq_some_iff.1 found
    use origin, (Layer.last?_eq_some_iff layers name v origin).1 last
    rw [merges.origin, last]
    rfl
  constructor
  · use layers, traversed, fun others other => traversed.unique other, merges.keys
    refine ⟨?_, ?_, ?_⟩
    · intro name
      rw [merges.keys, List.mem_eraseDups, Layer.set, List.mem_flatMap]
    · intro name present
      rw [OrderedMap.mem_keys_iff, Option.isSome_iff_exists] at present
      obtain ⟨v, found⟩ := present
      obtain ⟨origin, last, named⟩ := decided name v found
      use v, origin
    · intro d
      rw [mem_diagnostics_apply_iff]
      constructor
      · rintro ⟨name, v, found, complaint⟩
        obtain ⟨origin, last, named⟩ := decided name v found
        rw [named] at complaint
        use name, v, origin, last, complaint, complaint.file
      · rintro ⟨name, v, origin, last, complaint, -⟩
        have decides := (Layer.last?_eq_some_iff layers name v origin).2 last
        use name, v
        rw [merges.value, merges.origin, decides]
        use rfl, complaint
  · obtain ⟨fresh, config, below, found, bases, rfl⟩ := load_eq_ok_iff.1 loaded
    constructor
    · apply Arises.setting ⟨fresh, config, config.bases, found, by simp, bases⟩ found
      apply List.prefix_rfl
    · intro s arises
      apply arises.matched

/-! ### A base that is reached twice -/

/-- A file with a text. -/
def textFile (text : String) : Entry := .file (Text.Utf8.encode text.toList)

/-- A tree in which a configuration reaches `base.json` along two branches, and sets to `null` an
option that one of them sets. -/
def twoBranches : FileTree where
  entries :=
    [("base.json", textFile ("\x7b\"compilerOptions\":\x7b\"target\":\"es2020\","
        ++ "\"lib\":[\"dom\"]\x7d\x7d")),
      ("left.json", textFile ("\x7b\"extends\":\"./base.json\",\"compilerOptions\":"
        ++ "\x7b\"target\":\"es5\",\"strict\":false\x7d\x7d")),
      ("right.json", textFile ("\x7b\"extends\":\"./base.json\",\"compilerOptions\":"
        ++ "\x7b\"jsx\":\"react\"\x7d\x7d")),
      ("main.json", textFile ("\x7b\"extends\":[\"./left.json\",\"./right.json\"],"
        ++ "\"compilerOptions\":\x7b\"strict\":null\x7d\x7d"))]
  workingDirectory := []

/-- The sources of the tree: the second time that it is reached, the base decides `target`. -/
def twoBranchesSources : Sources where
  options := .ofList
    [("target", .string "es2020"), ("lib", .array [.string "dom"]), ("strict", .null),
      ("jsx", .string "react")]
  origins := .ofList
    [("target", "././base.json"), ("lib", "././base.json"), ("strict", "main.json"),
      ("jsx", "./right.json")]

/-- The sources of the base. -/
def baseSources : Sources :=
  Sources.empty.extendFrom
    (.ofList [("target", .string "es2020"), ("lib", .array [.string "dom"])]) "././base.json"

theorem config?_twoBranches :
  config? twoBranches ⟨"main.json"⟩
      = some ⟨["./left.json", "./right.json"], .ofList [("strict", .null)]⟩
    ∧ config? twoBranches ⟨"./left.json"⟩
      = some ⟨["./base.json"], .ofList [("target", .string "es5"), ("strict", .bool false)]⟩
    ∧ config? twoBranches ⟨"./right.json"⟩
      = some ⟨["./base.json"], .ofList [("jsx", .string "react")]⟩
    ∧ config? twoBranches ⟨"././base.json"⟩
      = some ⟨[], .ofList [("target", .string "es2020"), ("lib", .array [.string "dom"])]⟩
  := by decide +kernel

theorem load_base {chain : List Path} (fresh : ¬ Path.isAmong ⟨"/base.json"⟩ chain) :
  (load twoBranches ⟨"././base.json"⟩ chain).result = .ok baseSources
  := by
  have reached : twoBranches.fileSystem.identity ⟨"././base.json"⟩ = ⟨"/base.json"⟩ := by
    decide +kernel
  obtain ⟨-, -, -, base⟩ := config?_twoBranches
  apply load_of_bases_nil _ base
  rw [reached]
  apply fresh

theorem load_branch {p : Path} {options : OrderedMap String Value}
    (found : config? twoBranches p = some ⟨["./base.json"], options⟩)
    (resolved : basePath? twoBranches (directoryOf p) "./base.json" = some ⟨"././base.json"⟩)
    (fresh : ¬ (twoBranches.fileSystem.identity p).isAmong [⟨"/main.json"⟩])
    (apart : ¬ Path.equivalent ⟨"/base.json"⟩ (twoBranches.fileSystem.identity p)) :
  (load twoBranches p [⟨"/main.json"⟩]).result
    = .ok ((Sources.empty.merge baseSources).extendFrom options p.spelling)
  := by
  apply load_of_bases_singleton fresh found resolved
  apply load_base
  rw [Path.isAmong_cons, Bool.or_eq_true, not_or]
  use apart
  decide +kernel

theorem load_twoBranches :
  (load twoBranches ⟨"main.json"⟩ []).result = .ok twoBranchesSources
  := by
  have reached : twoBranches.fileSystem.identity ⟨"main.json"⟩ = ⟨"/main.json"⟩ := by
    decide +kernel
  let left : OrderedMap String Value := .ofList [("target", .string "es5"), ("strict", .bool false)]
  let right : OrderedMap String Value := .ofList [("jsx", .string "react")]
  obtain ⟨main, onLeft, onRight, -⟩ := config?_twoBranches
  rw [load_eq_ok_iff, reached]
  use Path.not_isAmong_nil, ⟨["./left.json", "./right.json"], .ofList [("strict", .null)]⟩,
    (Sources.empty.merge ((Sources.empty.merge baseSources).extendFrom left "./left.json")).merge
      ((Sources.empty.merge baseSources).extendFrom right "./right.json"), main
  refine ⟨?_, by decide +kernel⟩
  rw [loadBases_cons_eq_ok_iff]
  use ⟨"./left.json"⟩, (Sources.empty.merge baseSources).extendFrom left "./left.json",
    by decide +kernel
  refine ⟨load_branch onLeft (by decide +kernel) (by decide +kernel) (by decide +kernel), ?_⟩
  rw [loadBases_cons_eq_ok_iff]
  use ⟨"./right.json"⟩, (Sources.empty.merge baseSources).extendFrom right "./right.json",
    by decide +kernel
  refine ⟨load_branch onRight (by decide +kernel) (by decide +kernel) (by decide +kernel), ?_⟩
  apply (loadBases_nil _ _ _).1

/-- The base decides an option that a file between its two visits sets. -/
theorem load_layers_twoBranches :
  (load twoBranches ⟨"main.json"⟩ []).result = .ok twoBranchesSources
    ∧ ∃ layers, Traverses twoBranches ⟨"main.json"⟩ layers
      ∧ Layer.LastSets layers "target" (.string "es2020") "././base.json"
  := by
  use load_twoBranches
  obtain ⟨⟨layers, traversed, -, -, -, decided, -⟩, -, -⟩ :=
    load_layers twoBranches ⟨"main.json"⟩ [] twoBranchesSources load_twoBranches
  obtain ⟨v, origin, last, value, named⟩ := decided "target" (by decide +kernel)
  have valueOf : twoBranchesSources.options.get? "target" = some (.string "es2020") := by
    decide +kernel
  have originOf : twoBranchesSources.origins.get? "target" = some "././base.json" := by
    decide +kernel
  rw [valueOf] at value
  rw [originOf] at named
  obtain rfl := Option.some.inj value
  obtain rfl := Option.some.inj named
  exact ⟨layers, traversed, last⟩

end TypeAssertions.Config
