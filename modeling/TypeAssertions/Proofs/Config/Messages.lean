import TypeAssertions.Proofs.Config.Failures
import TypeAssertions.Proofs.Diagnostic.Substitution

/-!
# Messages about configurations

A diagnostic about a configuration quotes the path of a file, a specifier in a file, or the name of
an option (`Quotes`), as they stand there, and what it quotes besides is in the tables of the
options.  A name that comes before another argument is that of a known option and has no brace, so
every message is its template with all arguments put in at once (`resolve_messages`).
-/

namespace TypeAssertions.Config

open Json Relation Template

variable {fs : FileSystem}

/-! ### Quotations -/

/-- The choices of an option as they are listed in a message. -/
def listing (choices : List String) : String :=
  String.intercalate ", " (choices.map fun c => s!"'{c}'")

/-- A file that is reached from a configuration gives an option a value. -/
def Gives (fs : FileSystem) (p q : Path) (name : String) (v : Value) : Prop :=
  Reaches fs p q ∧ ∃ config, config? fs q = some config ∧ config.options.get? name = some v

/-- What may be reported about the configuration at `p`: the name of a file that is reached from it,
the code, and what the message quotes. -/
inductive Quotes (fs : FileSystem) (p : Path) : String → UInt32 → List String → Prop
  | circular {q r : Path} (reached : Reaches fs p r) (chain : TransGen (Extends fs) r q)
      (again : vertex fs r = vertex fs q) :
      Quotes fs p q.spelling Code.circularity [q.spelling]
  | unreadable {q : Path} (reached : Reaches fs p q) (unreadable : config? fs q = none) :
      Quotes fs p q.spelling Code.cannotRead [q.spelling]
  | unresolved {q : Path} {config : ConfigFile} {specifier : String} (reached : Reaches fs p q)
      (found : config? fs q = some config) (named : specifier ∈ config.bases)
      (unresolved : basePath? fs (directoryOf q) specifier = none) :
      Quotes fs p q.spelling Code.cannotRead [specifier]
  | unknownOption {q : Path} {name : String} {v : Value} (gives : Gives fs p q name v)
      (unknown : optionKind? name = none) :
      Quotes fs p q.spelling Code.unknownOption [name]
  | wrongKind {q : Path} {name : String} {v : Value} {kind : OptionKind}
      (gives : Gives fs p q name v) (known : optionKind? name = some kind)
      (unfit : kind.check v = .error (.wrongKind kind.name)) :
      Quotes fs p q.spelling Code.optionType [name, kind.name]
  | notAChoice {q : Path} {name : String} {v : Value} {choices : List String}
      (gives : Gives fs p q name v) (known : optionKind? name = some (.choice choices))
      (unfit : (OptionKind.choice choices).check v = .error (.notAChoice choices)) :
      Quotes fs p q.spelling Code.optionChoice [name, listing choices]

/-! ### Faults -/

/-- A fault below a file that is reached from a configuration quotes what stands there. -/
theorem FaultAt.quotes {p q : Path} {chain : List Path} {address : List Nat} {fault : Fault}
    (h : FaultAt fs chain q address fault) (reached : Reaches fs p q)
    (way : ∀ a ∈ chain.map Path.components, ∃ r, Reaches fs p r ∧ TransGen (Extends fs) r q
      ∧ vertex fs r = a) :
  ∃ origin code arguments, Quotes fs p origin code arguments
    ∧ fault.diagnostic = .ofCode (some origin) code arguments
  := by
  induction h with
  | reentered seen =>
    obtain ⟨r, before, chain, again⟩ := way _ (Path.isAmong_iff.1 seen)
    exact ⟨_, _, _, .circular before chain again, rfl⟩
  | unreadable fresh unreadable => exact ⟨_, _, _, .unreadable reached unreadable, rfl⟩
  | unresolved fresh found named unresolved =>
    exact ⟨_, _, _, .unresolved reached found (List.mem_of_getElem? named) unresolved, rfl⟩
  | @inside chain q base config i specifier address fault fresh found named resolved inner ih =>
    have step : Extends fs q base :=
      ⟨config, specifier, found, List.mem_of_getElem? named, resolved⟩
    apply ih (reached.tail step)
    rw [List.map_cons, List.forall_mem_cons]
    constructor
    · exact ⟨q, reached, .single step, rfl⟩
    · intro a member
      obtain ⟨r, before, chain, same⟩ := way a member
      exact ⟨r, before, chain.tail step, same⟩

/-! ### Options -/

mutual

/-- The layers of a configuration are the files that are reached from it. -/
theorem Traverses.reached {p q : Path} {layers : List Layer} (start : Reaches fs p q) :
    Traverses fs q layers → ∀ layer ∈ layers,
      ∃ r config, Reaches fs p r ∧ config? fs r = some config ∧ layer = ⟨r.spelling, config.options⟩
  | .file found bases => by
    rw [List.forall_mem_append, List.forall_mem_singleton]
    exact ⟨bases.reached start found fun specifier => id, q, _, start, found, rfl⟩

theorem TraversesBases.reached {p q : Path} {config : ConfigFile} {specifiers : List String}
    {layers : List Layer} (start : Reaches fs p q) (found : config? fs q = some config)
    (part : specifiers ⊆ config.bases) :
    TraversesBases fs q specifiers layers → ∀ layer ∈ layers,
      ∃ r config, Reaches fs p r ∧ config? fs r = some config ∧ layer = ⟨r.spelling, config.options⟩
  | .nil => List.forall_mem_nil _
  | .cons resolved first others => by
    rw [List.cons_subset] at part
    rw [List.forall_mem_append]
    exact ⟨first.reached (start.tail ⟨config, _, found, part.1, resolved⟩),
      others.reached start found part.2⟩

end

/-- The value and the origin of an option of what is loaded are those of a file that is reached. -/
theorem gives_of_load {p : Path} {sources : Sources} (loaded : (load fs p []).result = .ok sources)
    {name : String} {v : Value} (set : sources.options.get? name = some v) :
  ∃ q, Gives fs p q name v ∧ sources.origins.get? name = some q.spelling
  := by
  obtain ⟨layers, traversed, merges⟩ := traverses_of_load sources loaded
  rw [merges.value, Option.map_eq_some_iff] at set
  obtain ⟨⟨v, origin⟩, last, rfl⟩ := set
  obtain ⟨before, layer, after, rfl, value, named, -⟩ :=
    (Layer.last?_eq_some_iff _ name v origin).1 last
  obtain ⟨q, config, reached, found, rfl⟩ :=
    traversed.reached .refl layer (List.mem_append_right _ List.mem_cons_self)
  use q, ⟨reached, config, found, value⟩
  rw [merges.origin, last, ← named]
  rfl

/-- A misfit names the kind of the option, or lists its choices. -/
theorem misfit_of_check {kind : OptionKind} {v : Value} {misfit : Misfit}
    (unfit : kind.check v = .error misfit) :
  misfit = .wrongKind kind.name
    ∨ ∃ choices, kind = .choice choices ∧ misfit = .notAChoice choices
  := by
  simp only [OptionKind.check] at unfit
  split at unfit
  case h_1 =>
    split at unfit
    case h_1 => cases unfit
    case h_2 => exact .inl (Except.error.inj unfit).symm
  case h_4 =>
    split at unfit
    case isTrue => cases unfit
    case isFalse => exact .inl (Except.error.inj unfit).symm
  case h_7 choices _ =>
    split at unfit
    case isTrue => cases unfit
    case isFalse => exact .inr ⟨choices, rfl, (Except.error.inj unfit).symm⟩
  case h_8 => exact .inl (Except.error.inj unfit).symm
  -- the other values are of the kind
  all_goals cases unfit

theorem Complains.quotes {p q : Path} {name : String} {v : Value} {d : Diagnostic}
    (gives : Gives fs p q name v) (complaint : Complains (some q.spelling) name v d) :
  ∃ code arguments, Quotes fs p q.spelling code arguments
    ∧ d = .ofCode (some q.spelling) code arguments
  := by
  cases complaint with
  | unknown unknown => exact ⟨_, _, .unknownOption gives unknown, rfl⟩
  | unfit known given unfit =>
    rcases misfit_of_check unfit with rfl | ⟨choices, rfl, rfl⟩
    · exact ⟨_, _, .wrongKind gives known unfit, rfl⟩
    · exact ⟨_, _, .notAChoice gives known unfit, rfl⟩

/-- Every diagnostic of a configuration is that of a code with what it quotes. -/
theorem exists_quotes {project : Option Path} {file : Path} {d : Diagnostic}
    (reported : d ∈ (resolve fs project file).diagnostics) :
  ∃ p origin code arguments, configPath? fs project file = some p
    ∧ Quotes fs p origin code arguments ∧ d = .ofCode (some origin) code arguments
  := by
  cases chosen : configPath? fs project file with
  | none =>
    simp only [resolve, chosen] at reported
    cases reported
  | some p =>
    use p
    have told : Tells (load fs p []).result (FaultAt fs [] p) := tells_load p []
    rcases told with ⟨sources, loaded, -⟩ | ⟨fault, failed, address, here, -⟩
    · have resolved : resolve fs project file = apply sources := by
        simp only [resolve, chosen, loaded]
      rw [resolved, mem_diagnostics_apply_iff] at reported
      obtain ⟨name, v, set, complaint⟩ := reported
      obtain ⟨q, gives, origin⟩ := gives_of_load loaded set
      rw [origin] at complaint
      obtain ⟨code, arguments, quotes, rfl⟩ := complaint.quotes gives
      exact ⟨_, _, _, rfl, quotes, rfl⟩
    · have resolved : resolve fs project file = ⟨.default, [fault.diagnostic]⟩ := by
        simp only [resolve, chosen, failed]
      rw [resolved] at reported
      obtain rfl := List.mem_singleton.1 reported
      obtain ⟨origin, code, arguments, quotes, same⟩ := here.quotes .refl (List.forall_mem_nil _)
      exact ⟨_, _, _, rfl, quotes, same⟩

/-! ### Messages -/

/-- The names of all options. -/
def optionNames : List String :=
  choiceOptions.map Prod.fst ++ ["paths", "plugins", "maxNodeModuleJsDepth"] ++ booleanOptions
    ++ stringOptions ++ listOptions

theorem mem_optionNames {name : String} {kind : OptionKind} (known : optionKind? name = some kind) :
  name ∈ optionNames
  := by
  simp only [optionNames, List.mem_append, List.mem_cons, List.not_mem_nil, or_false]
  rw [optionKind?] at known
  split at known
  case h_1 choices listed =>
    obtain ⟨before, after, split, -⟩ := List.lookup_eq_some_iff.1 listed
    rw [split]
    simp
  case h_2 =>
    repeat' split at known
    all_goals simp_all

theorem brace_not_mem_of_known {name : String} {kind : OptionKind}
    (known : optionKind? name = some kind) :
  '\x7b' ∉ name.toList
  := by
  have all : ∀ name ∈ optionNames, '\x7b' ∉ name.toList := by decide +kernel
  apply all name (mem_optionNames known)

/-- What is quoted before something else has no brace. -/
theorem Quotes.clean {p : Path} {origin : String} {code : UInt32} {arguments : List String}
    (h : Quotes fs p origin code arguments) :
  ∀ argument ∈ arguments.dropLast, '\x7b' ∉ argument.toList
  := by
  cases h with
  | circular | unreadable | unresolved | unknownOption => exact List.forall_mem_nil _
  | wrongKind gives known =>
    rw [List.dropLast_cons_cons, List.dropLast_singleton, List.forall_mem_singleton]
    apply brace_not_mem_of_known known
  | notAChoice gives known =>
    rw [List.dropLast_cons_cons, List.dropLast_singleton, List.forall_mem_singleton]
    apply brace_not_mem_of_known known

/-- There is a message for what is quoted. -/
theorem Quotes.takes {p : Path} {origin : String} {code : UInt32} {arguments : List String}
    (h : Quotes fs p origin code arguments) :
  ∃ t ps, Takes code arguments.length t ps
  := by
  cases h with
  | circular =>
    show ∃ t ps, Takes Code.circularity 1 t ps
    exact ⟨_, Piece.ofText "Circularity detected while resolving configuration: " ++ [.place 0],
      rfl, ⟨by decide, by decide⟩, by decide⟩
  | unreadable | unresolved =>
    show ∃ t ps, Takes Code.cannotRead 1 t ps
    exact ⟨_, Piece.ofText "Cannot read file '" ++ .place 0 :: Piece.ofText "'.",
      rfl, ⟨by decide, by decide⟩, by decide⟩
  | unknownOption =>
    show ∃ t ps, Takes Code.unknownOption 1 t ps
    exact ⟨_, Piece.ofText "Unknown compiler option '" ++ .place 0 :: Piece.ofText "'.",
      rfl, ⟨by decide, by decide⟩, by decide⟩
  | wrongKind =>
    show ∃ t ps, Takes Code.optionType 2 t ps
    exact ⟨_, Piece.ofText "Compiler option '" ++ .place 0
      :: Piece.ofText "' requires a value of type " ++ .place 1 :: Piece.ofText ".",
      rfl, ⟨by decide, by decide⟩, by decide⟩
  | notAChoice =>
    show ∃ t ps, Takes Code.optionChoice 2 t ps
    exact ⟨_, Piece.ofText "Argument for '" ++ .place 0
      :: Piece.ofText "' option must be: " ++ .place 1 :: Piece.ofText ".",
      rfl, ⟨by decide, by decide⟩, by decide⟩

/-- Every diagnostic of the configuration of a test file is about a file that is reached from it,
and quotes what stands there.  Its text is the message of its code with all that it quotes put in at
once: each argument has one place, no place is left, and no argument is searched for places. -/
theorem resolve_messages (fs : FileSystem) (project : Option Path) (file : Path) :
  ∀ d ∈ (resolve fs project file).diagnostics, ∃ p origin arguments t ps,
    configPath? fs project file = some p ∧ Quotes fs p origin d.code arguments
      ∧ Takes d.code arguments.length t ps
      ∧ (∀ others, Pieces t.text.toList others → others = ps)
      ∧ d.file = some origin ∧ d.category = t.category
      ∧ d.text.toList = ps.flatMap (Piece.filled fun i => arguments[i]?)
  := by
  intro d reported
  obtain ⟨p, origin, code, arguments, chosen, quotes, rfl⟩ := exists_quotes reported
  obtain ⟨t, ps, takes⟩ := quotes.takes
  have message : Diagnostic.ofCode (some origin) code arguments
      = ⟨some origin, 0, 0, fill t.text arguments, t.category, code⟩ := by
    rw [Diagnostic.ofCode, takes.found]
  rw [message]
  use p, origin, arguments, t, ps, chosen, quotes, takes, fun others => takes.pieces.unique, rfl,
    rfl
  apply takes.pieces.fill quotes.clean

/-! ### An option with places in its name -/

/-- A tree with a configuration that gives a value to an option whose name is made of places. -/
def placesOption : FileTree where
  entries :=
    [("\x7b0\x7d.json",
      textFile "\x7b\"compilerOptions\":\x7b\"\x7b1\x7d\x7b0\x7d\":true\x7d\x7d")]
  workingDirectory := []

/-- The diagnostic about the option quotes its name as it is. -/
def placesDiagnostic : Diagnostic where
  file := some "\x7b0\x7d.json"
  start := 0
  length := 0
  text := "Unknown compiler option '\x7b1\x7d\x7b0\x7d'."
  category := .error
  code := Code.unknownOption

theorem load_placesOption :
  (load placesOption ⟨"\x7b0\x7d.json"⟩ []).result
    = .ok (Sources.empty.extendFrom (.ofList [("\x7b1\x7d\x7b0\x7d", .bool true)]) "\x7b0\x7d.json")
  := by
  apply load_of_bases_nil Path.not_isAmong_nil
  decide +kernel

theorem resolve_messages_places :
  placesDiagnostic ∈ (resolve placesOption (some ⟨"\x7b0\x7d.json"⟩) ⟨"a.ts"⟩).diagnostics
    ∧ ∃ arguments t ps, Takes Code.unknownOption (List.length arguments) t ps
      ∧ placesDiagnostic.text.toList = ps.flatMap (Piece.filled fun i => arguments[i]?)
  := by
  have reported : placesDiagnostic
      ∈ (resolve placesOption (some ⟨"\x7b0\x7d.json"⟩) ⟨"a.ts"⟩).diagnostics := by
    simp only [resolve, configPath?, load_placesOption]
    decide +kernel
  obtain ⟨p, origin, arguments, t, ps, -, -, takes, -, -, -, text⟩ :=
    resolve_messages placesOption (some ⟨"\x7b0\x7d.json"⟩) ⟨"a.ts"⟩ placesDiagnostic reported
  exact ⟨reported, arguments, t, ps, takes, text⟩

end TypeAssertions.Config
