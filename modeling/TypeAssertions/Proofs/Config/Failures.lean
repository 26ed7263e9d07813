import TypeAssertions.Config.Resolution
import TypeAssertions.Proofs.Config.Graph
import TypeAssertions.Proofs.Config.Loading
import TypeAssertions.Proofs.Config.Traversal

/-!
# Configurations that cannot be loaded

A `Fault` is one of the things that are wrong with a configuration that is not loadable.  It has an
address, the positions of the specifiers that lead to it, and the first fault in depth-first order
is the one with the least address.  Loading gives sources exactly when the configuration is
loadable, and otherwise the diagnostic of the first fault (`resolve_faults`).  A graph with a cycle
can be loaded when packages are found elsewhere on another way (`resolve_faults_crossing`).
-/

namespace TypeAssertions.Config

open Json Relation

variable {fs : FileSystem}

/-! ### Faults -/

/-- What can be wrong: a file that is on its own chain, a file that cannot be read, or a specifier
in a file that denotes no path. -/
inductive Fault where
  | reentered (file : String)
  | unreadable (file : String)
  | unresolved (specifier file : String)
  deriving DecidableEq

/-- The diagnostic about a fault. -/
def Fault.diagnostic : Fault → Diagnostic
  | .reentered file => circular file
  | .unreadable file => cannotRead file file
  | .unresolved specifier file => cannotRead specifier file

/-- A fault at an address below a path that is reached along a chain. -/
inductive FaultAt (fs : FileSystem) : List Path → Path → List Nat → Fault → Prop
  | reentered {chain : List Path} {p : Path} (seen : (fs.identity p).isAmong chain) :
      FaultAt fs chain p [] (.reentered p.spelling)
  | unreadable {chain : List Path} {p : Path} (fresh : ¬ (fs.identity p).isAmong chain)
      (unreadable : config? fs p = none) :
      FaultAt fs chain p [] (.unreadable p.spelling)
  | unresolved {chain : List Path} {p : Path} {config : ConfigFile} {i : Nat} {specifier : String}
      (fresh : ¬ (fs.identity p).isAmong chain) (found : config? fs p = some config)
      (named : config.bases[i]? = some specifier)
      (unresolved : basePath? fs (directoryOf p) specifier = none) :
      FaultAt fs chain p [i] (.unresolved specifier p.spelling)
  | inside {chain : List Path} {p base : Path} {config : ConfigFile} {i : Nat} {specifier : String}
      {address : List Nat} {fault : Fault}
      (fresh : ¬ (fs.identity p).isAmong chain) (found : config? fs p = some config)
      (named : config.bases[i]? = some specifier)
      (resolved : basePath? fs (directoryOf p) specifier = some base)
      (inner : FaultAt fs (fs.identity p :: chain) base address fault) :
      FaultAt fs chain p (i :: address) fault

/-- There are no faults below a path that is reached along a chain. -/
def Faultless (fs : FileSystem) (chain : List Path) (p : Path) : Prop :=
  ∀ address fault, ¬ FaultAt fs chain p address fault

theorem Faultless.fresh {chain : List Path} {p : Path} (h : Faultless fs chain p) :
  ¬ (fs.identity p).isAmong chain
  := by
  intro seen
  apply h _ _ (.reentered seen)

theorem Faultless.of_extends {chain : List Path} {p q : Path} (h : Faultless fs chain p)
    (step : Extends fs p q) :
  Faultless fs (fs.identity p :: chain) q
  := by
  obtain ⟨config, specifier, found, member, resolved⟩ := step
  obtain ⟨i, named⟩ := List.getElem?_of_mem member
  intro address fault inner
  apply h _ _ (.inside h.fresh found named resolved inner)

theorem Faultless.of_reaches {chain : List Path} {p q : Path} (h : Faultless fs chain p)
    (reached : Reaches fs p q) :
  ∃ chain', Faultless fs chain' q
  := by
  induction reached with
  | refl => use chain
  | @tail q r reached step ih =>
    obtain ⟨chain', clear⟩ := ih
    use fs.identity q :: chain'
    apply clear.of_extends step

theorem Faultless.of_transGen {chain : List Path} {p q : Path} (h : Faultless fs chain p)
    (reached : TransGen (Extends fs) p q) :
  ∃ chain', fs.identity p ∈ chain' ∧ Faultless fs chain' q
  := by
  induction reached with
  | single step =>
    use fs.identity p :: chain, List.mem_cons_self
    apply h.of_extends step
  | @tail q r reached step ih =>
    obtain ⟨chain', marked, clear⟩ := ih
    use fs.identity q :: chain', List.mem_cons_of_mem _ marked
    apply clear.of_extends step

theorem Faultless.loadable {chain : List Path} {p : Path} (h : Faultless fs chain p) :
  Loadable fs p
  := by
  constructor
  · constructor
    · intro q reached
      obtain ⟨chain', clear⟩ := h.of_reaches reached
      rw [← Option.ne_none_iff_exists']
      intro unreadable
      apply clear _ _ (.unreadable clear.fresh unreadable)
    · intro q config specifier reached found member
      obtain ⟨chain', clear⟩ := h.of_reaches reached
      obtain ⟨i, named⟩ := List.getElem?_of_mem member
      rw [← Option.ne_none_iff_exists']
      intro unresolved
      apply clear _ _ (.unresolved clear.fresh found named unresolved)
  · intro q r reached cycle same
    obtain ⟨chain', clear⟩ := h.of_reaches reached
    obtain ⟨chain'', marked, clear'⟩ := clear.of_transGen cycle
    apply clear'.fresh
    rw [Path.isAmong_iff, ← vertex, same]
    apply List.mem_map_of_mem marked

/-- A fault below a path is about something that the path reaches, or about the chain to it. -/
theorem FaultAt.not_loadable {chain : List Path} {p : Path} {address : List Nat} {fault : Fault}
    (h : FaultAt fs chain p address fault) :
  Loadable fs p → ¬ ∀ q, Reaches fs p q → ¬ (fs.identity q).isAmong chain
  := by
  induction h with
  | reentered seen =>
    intro _ apart
    apply apart _ .refl seen
  | unreadable fresh unreadable =>
    intro loadable
    obtain ⟨config, found⟩ := loadable.readable _ .refl
    rw [unreadable] at found
    cases found
  | unresolved fresh found named unresolved =>
    intro loadable
    obtain ⟨base, resolved⟩ :=
      loadable.resolved _ _ _ .refl found (List.mem_of_getElem? named)
    rw [unresolved] at resolved
    cases resolved
  | @inside chain p base config i specifier address fault fresh found named resolved inner ih =>
    intro loadable apart
    have step : Extends fs p base :=
      ⟨config, specifier, found, List.mem_of_getElem? named, resolved⟩
    apply ih (loadable.of_extends step)
    intro q reached
    rw [Path.isAmong_cons, Bool.or_eq_true, not_or, Path.equivalent, decide_eq_true_eq]
    constructor
    · apply loadable.acyclic p q .refl (TransGen.head' step reached)
    · apply apart q (reached.head step)

/-- Nothing is wrong with what is reached from a path exactly when there are no faults below it. -/
theorem loadable_iff_faultless {p : Path} :
  Loadable fs p ↔ Faultless fs [] p
  := by
  constructor
  · intro loadable address fault h
    apply h.not_loadable loadable
    intro q _
    apply Path.not_isAmong_nil
  · apply Faultless.loadable

/-! ### The first fault -/

/-- The first of the faults at addresses is at the least one. -/
def IsFirst (faults : List Nat → Fault → Prop) (fault : Fault) : Prop :=
  ∃ address, faults address fault
    ∧ ∀ address' fault', faults address' fault' → address = address' ∨ address < address'

/-- A result tells whether there are faults and which is the first. -/
def Tells (result : Except Diagnostic Sources) (faults : List Nat → Fault → Prop) : Prop :=
  (∃ sources, result = .ok sources ∧ ∀ address fault, ¬ faults address fault)
    ∨ ∃ fault, result = .error fault.diagnostic ∧ IsFirst faults fault

theorem specifier_unique {p : Path} {config config' : ConfigFile} {i : Nat}
    {specifier specifier' : String} (found : config? fs p = some config)
    (named : config.bases[i]? = some specifier) (found' : config? fs p = some config')
    (named' : config'.bases[i]? = some specifier') :
  specifier' = specifier
  := by
  rw [found] at found'
  obtain rfl := Option.some.inj found'
  rw [named] at named'
  apply (Option.some.inj named').symm

/-- There is at most one fault at an address. -/
theorem FaultAt.unique {chain : List Path} {p : Path} {address : List Nat} {fault other : Fault}
    (h : FaultAt fs chain p address fault) (h' : FaultAt fs chain p address other) :
  other = fault
  := by
  induction h with
  | reentered seen =>
    cases h' with
    | reentered => rfl
    | unreadable fresh => cases fresh seen
  | unreadable fresh unreadable =>
    cases h' with
    | reentered seen => cases fresh seen
    | unreadable => rfl
  | unresolved fresh found named unresolved =>
    cases h' with
    | unresolved fresh found' named' =>
      obtain rfl := specifier_unique found named found' named'
      rfl
    | inside fresh found' named' resolved =>
      obtain rfl := specifier_unique found named found' named'
      rw [unresolved] at resolved
      cases resolved
  | inside fresh found named resolved inner ih =>
    cases h' with
    | unresolved fresh found' named' unresolved =>
      obtain rfl := specifier_unique found named found' named'
      rw [resolved] at unresolved
      cases unresolved
    | inside fresh found' named' resolved' inner' =>
      obtain rfl := specifier_unique found named found' named'
      rw [resolved] at resolved'
      obtain rfl := Option.some.inj resolved'
      apply ih inner'

theorem IsFirst.unique {faults : List Nat → Fault → Prop}
    (unique : ∀ address fault other, faults address fault → faults address other → other = fault)
    {fault other : Fault} (first : IsFirst faults fault) (first' : IsFirst faults other) :
  other = fault
  := by
  obtain ⟨address, here, least⟩ := first
  obtain ⟨address', there, least'⟩ := first'
  have same : address = address' := by
    rcases least address' other there with equal | less
    · apply equal
    · rcases least' address fault here with equal | less'
      · apply equal.symm
      · cases List.lt_asymm less less'
  rw [← same] at there
  apply unique address fault other here there

/-- A fault at an address below the specifier of a file. -/
inductive FaultOf (fs : FileSystem) (chain : List Path) (p : Path) (specifier : String) :
    List Nat → Fault → Prop
  | unresolved (unresolved : basePath? fs (directoryOf p) specifier = none) :
      FaultOf fs chain p specifier [] (.unresolved specifier p.spelling)
  | inside {base : Path} {address : List Nat} {fault : Fault}
      (resolved : basePath? fs (directoryOf p) specifier = some base)
      (inner : FaultAt fs chain base address fault) :
      FaultOf fs chain p specifier address fault

/-- A fault at an address below one of the specifiers of a file. -/
def FaultAmong (fs : FileSystem) (chain : List Path) (p : Path) (specifiers : List String) :
    List Nat → Fault → Prop
  | [], _ => False
  | i :: address, fault =>
    ∃ specifier, specifiers[i]? = some specifier ∧ FaultOf fs chain p specifier address fault

theorem faultAt_iff_faultAmong {chain : List Path} {p : Path} {config : ConfigFile}
    (fresh : ¬ (fs.identity p).isAmong chain) (found : config? fs p = some config) (address : List Nat)
    (fault : Fault) :
  FaultAt fs chain p address fault
    ↔ FaultAmong fs (fs.identity p :: chain) p config.bases address fault
  := by
  constructor
  · rintro (seen | ⟨-, unreadable⟩ | ⟨-, found', named, unresolved⟩
      | ⟨-, found', named, resolved, inner⟩)
    · cases fresh seen
    · rw [unreadable] at found
      cases found
    · rw [found] at found'
      obtain rfl := Option.some.inj found'
      exact ⟨_, named, .unresolved unresolved⟩
    · rw [found] at found'
      obtain rfl := Option.some.inj found'
      exact ⟨_, named, .inside resolved inner⟩
  · cases address with
    | nil => rintro ⟨⟩
    | cons i address =>
      rintro ⟨specifier, named, unresolved | ⟨resolved, inner⟩⟩
      · apply FaultAt.unresolved fresh found named unresolved
      · apply FaultAt.inside fresh found named resolved inner

theorem Tells.congr {result : Except Diagnostic Sources} {faults faults' : List Nat → Fault → Prop}
    (h : Tells result faults') (same : ∀ address fault, faults address fault ↔ faults' address fault) :
  Tells result faults
  := by
  have equal : faults = faults' := by
    funext address fault
    apply propext (same address fault)
  rw [equal]
  apply h

/-- The faults of a specifier come before those of the ones after it. -/
theorem isFirst_of_faultOf {chain : List Path} {p : Path} {specifier : String} {fault : Fault}
    (first : IsFirst (FaultOf fs chain p specifier) fault) (specifiers : List String) :
  IsFirst (FaultAmong fs chain p (specifier :: specifiers)) fault
  := by
  obtain ⟨address, here, least⟩ := first
  use 0 :: address
  constructor
  · exact ⟨specifier, rfl, here⟩
  · rintro (_ | ⟨_ | i, address'⟩) fault' other
    · cases other
    · obtain ⟨named, same, there⟩ := other
      obtain rfl := Option.some.inj same
      rw [List.cons_lt_cons_iff, List.cons_inj_right]
      rcases least address' fault' there with equal | less
      · left
        apply equal
      · right; right
        use rfl, less
    · right
      rw [List.cons_lt_cons_iff]
      left
      apply Nat.succ_pos

theorem faultAmong_cons_iff {chain : List Path} {p : Path} {specifier : String}
    (clear : ∀ address fault, ¬ FaultOf fs chain p specifier address fault)
    (specifiers : List String) (address : List Nat) (fault : Fault) :
  FaultAmong fs chain p (specifier :: specifiers) address fault
    ↔ ∃ i rest, address = (i + 1) :: rest ∧ FaultAmong fs chain p specifiers (i :: rest) fault
  := by
  constructor
  · rcases address with _ | ⟨_ | i, rest⟩
    · rintro ⟨⟩
    · rintro ⟨named, same, there⟩
      obtain rfl := Option.some.inj same
      cases clear rest fault there
    · intro there
      exact ⟨i, rest, rfl, there⟩
  · rintro ⟨i, rest, rfl, there⟩
    apply there

/-- When a specifier has no faults, the first fault is that of the ones after it. -/
theorem isFirst_of_faultAmong {chain : List Path} {p : Path} {specifier : String}
    {specifiers : List String} {fault : Fault}
    (clear : ∀ address fault, ¬ FaultOf fs chain p specifier address fault)
    (first : IsFirst (FaultAmong fs chain p specifiers) fault) :
  IsFirst (FaultAmong fs chain p (specifier :: specifiers)) fault
  := by
  obtain ⟨_ | ⟨i, address⟩, here, least⟩ := first
  · cases here
  use (i + 1) :: address
  constructor
  · rw [faultAmong_cons_iff clear]
    use i, address
  · intro address' fault' other
    rw [faultAmong_cons_iff clear] at other
    obtain ⟨j, rest, rfl, there⟩ := other
    have order := least (j :: rest) fault' there
    simpa [List.cons_lt_cons_iff] using order

/-- What the bases of a file give tells about their faults. -/
theorem tells_loadBases {chain : List Path} {p : Path}
    (tells : ∀ base, Tells (load fs base chain).result (FaultAt fs chain base))
    (specifiers : List String) (below : Sources) :
  Tells (loadBases fs p specifiers below chain).result (FaultAmong fs chain p specifiers)
  := by
  induction specifiers generalizing below with
  | nil =>
    left
    use below, (loadBases_nil p below chain).1
    rintro (_ | ⟨i, address⟩) fault
    · rintro ⟨⟩
    · rintro ⟨specifier, named, -⟩
      cases named
  | cons specifier specifiers ih =>
    cases resolved : basePath? fs (directoryOf p) specifier with
    | none =>
      right
      use .unresolved specifier p.spelling,
        (loadBases_of_unresolved specifiers below chain resolved).1
      apply isFirst_of_faultOf
      use [], .unresolved resolved
      rintro address fault (_ | ⟨resolved', -⟩)
      · left
        rfl
      · rw [resolved] at resolved'
        cases resolved'
    | some base =>
      have same (address : List Nat) (fault : Fault) :
          FaultOf fs chain p specifier address fault ↔ FaultAt fs chain base address fault := by
        constructor
        · rintro (unresolved | ⟨resolved', inner⟩)
          · rw [resolved] at unresolved
            cases unresolved
          · rw [resolved] at resolved'
            obtain rfl := Option.some.inj resolved'
            apply inner
        · apply FaultOf.inside resolved
      rcases (tells base).congr same with ⟨above, loaded, clear⟩ | ⟨fault, failed, first⟩
      · have rest := result_loadBases_cons specifiers below chain resolved
        rw [loaded] at rest
        rcases ih (below.merge above) with ⟨sources, others, clear'⟩ | ⟨fault, failed, first⟩
        · left
          use sources, rest.trans others
          intro address fault there
          rw [faultAmong_cons_iff clear] at there
          obtain ⟨i, address', -, there⟩ := there
          apply clear' _ _ there
        · right
          use fault, rest.trans failed
          apply isFirst_of_faultAmong clear first
      · right
        use fault, (loadBases_of_error specifiers below resolved failed).1
        apply isFirst_of_faultOf first

/-- What a path gives tells about its faults: there are none, or it fails with the first. -/
theorem tells_load (p : Path) (chain : List Path) :
  Tells (load fs p chain).result (FaultAt fs chain p)
  := by
  induction p, chain using chain_induction fs with
  | step p chain ih =>
    by_cases seen : (fs.identity p).isAmong chain
    · right
      use .reentered p.spelling, (load_of_seen seen).1
      use [], .reentered seen
      rintro address fault (_ | ⟨fresh, _⟩ | ⟨fresh, _, _, _⟩ | ⟨fresh, _, _, _, _⟩)
      · left
        rfl
      all_goals cases fresh seen
    · cases found : config? fs p with
      | none =>
        right
        use .unreadable p.spelling, (load_of_unreadable seen found).1
        use [], .unreadable seen found
        rintro address fault (seen' | _ | ⟨_, found', _, _⟩ | ⟨_, found', _, _, _⟩)
        · cases seen seen'
        · left
          rfl
        all_goals
          rw [found] at found'
          cases found'
      | some config =>
        apply Tells.congr _ (faultAt_iff_faultAmong seen found)
        rw [(load_of_config seen found).1]
        rcases tells_loadBases (ih config found seen) config.bases .empty with
          ⟨below, loaded, clear⟩ | ⟨fault, failed, first⟩
        · left
          use below.extendFrom config.options p.spelling
          rw [loaded]
          use rfl, clear
        · right
          use fault
          rw [failed]
          exact ⟨rfl, first⟩

/-! ### Resolution -/

/-- The fault of a chain that comes back to a place of its own has a code of its own. -/
theorem Fault.code_diagnostic (fault : Fault) :
  (fault.diagnostic.code = Code.circularity ↔ ∃ file, fault = .reentered file)
    ∧ (fault.diagnostic.code = Code.cannotRead ↔ ∀ file, fault ≠ .reentered file)
  := by
  cases fault with
  | reentered file => simp [diagnostic, circular, code_ofCode, Code.circularity, Code.cannotRead]
  | unreadable file => simp [diagnostic, cannotRead, code_ofCode, Code.circularity, Code.cannotRead]
  | unresolved specifier file =>
    simp [diagnostic, cannotRead, code_ofCode, Code.circularity, Code.cannotRead]

/-- The diagnostics about options are not about configurations that cannot be loaded. -/
theorem code_of_mem_apply {sources : Sources} {d : Diagnostic}
    (member : d ∈ (apply sources).diagnostics) :
  d.code ≠ Code.cannotRead ∧ d.code ≠ Code.circularity
  := by
  rw [mem_diagnostics_apply_iff] at member
  obtain ⟨name, v, -, complaint⟩ := member
  have listed := complaint.code
  simp only [List.mem_cons, List.not_mem_nil, or_false] at listed
  rcases listed with unknown | wrong | choice
  · rw [unknown]
    decide
  · rw [wrong]
    decide
  · rw [choice]
    decide

/-- The configuration of a test file is loaded exactly when nothing is wrong with what it reaches.
That is so when all of this is there and the graph of it has no cycle, and if it has one, some file
extends different ones on different ways.  When something is wrong, the options are the default
ones, and the only diagnostic is that of the first fault: about a circularity when the fault is a
chain that comes back, and about a file that cannot be read when it is anything else.  Loading
leaves the marked places as they were in any case. -/
theorem resolve_faults (fs : FileSystem) (project : Option Path) (file p : Path)
    (chosen : configPath? fs project file = some p) :
  (Loadable fs p ↔ ∀ d ∈ (resolve fs project file).diagnostics,
      d.code ≠ Code.cannotRead ∧ d.code ≠ Code.circularity)
    ∧ (Complete fs p → (∀ a, ¬ TransGen (Arc fs p) a a) → Loadable fs p)
    ∧ (Loadable fs p → Uniform fs p → ∀ a, ¬ TransGen (Arc fs p) a a)
    ∧ (Loadable fs p → ∃ sources, (load fs p []).result = .ok sources
      ∧ resolve fs project file = apply sources)
    ∧ (¬ Loadable fs p → ∃ fault, IsFirst (FaultAt fs [] p) fault
      ∧ (∀ other, IsFirst (FaultAt fs [] p) other → other = fault)
      ∧ resolve fs project file = ⟨.default, [fault.diagnostic]⟩
      ∧ (fault.diagnostic.code = Code.circularity ↔ ∃ name, fault = .reentered name)
      ∧ (fault.diagnostic.code = Code.cannotRead ↔ ∀ name, fault ≠ .reentered name))
    ∧ ∀ q visited, (load fs q visited).after = visited
  := by
  rcases tells_load p [] with ⟨sources, loaded, clear⟩ | ⟨fault, failed, first⟩
  · have loadable : Loadable fs p := loadable_iff_faultless.2 clear
    have resolved : resolve fs project file = apply sources := by
      simp only [resolve, chosen, loaded]
    refine ⟨?_, Complete.loadable, Loadable.not_transGen_arc, ?_, ?_, after_load⟩
    · rw [resolved]
      use fun _ d member => code_of_mem_apply member, fun _ => loadable
    · intro _
      use sources, loaded, resolved
    · intro broken
      cases broken loadable
  · have broken : ¬ Loadable fs p := by
      intro loadable
      obtain ⟨address, here, -⟩ := first
      apply loadable_iff_faultless.1 loadable address fault here
    have resolved : resolve fs project file = ⟨.default, [fault.diagnostic]⟩ := by
      simp only [resolve, chosen, failed]
    refine ⟨?_, Complete.loadable, Loadable.not_transGen_arc, ?_, ?_, after_load⟩
    · constructor
      · intro loadable
        cases broken loadable
      · intro apart
        rw [resolved] at apart
        obtain ⟨readable, straight⟩ := apart fault.diagnostic (List.mem_singleton_self _)
        rw [Ne, fault.code_diagnostic.2] at readable
        rw [Ne, fault.code_diagnostic.1] at straight
        cases readable (not_exists.1 straight)
    · intro loadable
      cases broken loadable
    · intro _
      refine ⟨fault, first, ?_, resolved, fault.code_diagnostic⟩
      intro other first'
      apply first.unique _ first'
      intro address fault other here there
      apply here.unique there

/-! ### A file that extends itself -/

/-- A tree with a configuration that extends itself. -/
def selfExtending : FileTree where
  entries := [("loop.json", textFile "\x7b\"extends\":\"./loop.json\"\x7d")]
  workingDirectory := []

theorem load_selfExtending :
  (load selfExtending ⟨"loop.json"⟩ []).result = .error (circular "./loop.json")
  := by
  have reached : selfExtending.fileSystem.identity ⟨"loop.json"⟩ = ⟨"/loop.json"⟩ := by
    decide +kernel
  have seen : (selfExtending.fileSystem.identity ⟨"./loop.json"⟩).isAmong [⟨"/loop.json"⟩] := by
    decide +kernel
  have found : config? selfExtending ⟨"loop.json"⟩ = some ⟨["./loop.json"], .empty⟩ := by
    decide +kernel
  have resolved : basePath? selfExtending (directoryOf ⟨"loop.json"⟩) "./loop.json"
      = some ⟨"./loop.json"⟩ := by
    decide +kernel
  rw [(load_of_config Path.not_isAmong_nil found).1, reached,
    (loadBases_of_error [] .empty resolved (load_of_seen seen).1).1]
  rfl

theorem uniform_twoBranches :
  Uniform twoBranches ⟨"main.json"⟩
  := by
  let paths : List Path := [⟨"main.json"⟩, ⟨"./left.json"⟩, ⟨"./right.json"⟩, ⟨"././base.json"⟩]
  have start : ⟨"main.json"⟩ ∈ paths := List.mem_cons_self
  obtain ⟨main, left, right, base⟩ := config?_twoBranches
  have apart : (paths.map (vertex twoBranches)).Nodup := by
    decide +kernel
  apply uniform_of_nodup _ start apart
  simp only [paths, List.forall_mem_cons, extended_of_config main, extended_of_config left,
    extended_of_config right, extended_of_config base]
  decide +kernel

/-- A base that is reached twice is no circularity, and a file that extends itself is one. -/
theorem resolve_faults_loops :
  configPath? twoBranches (some ⟨"main.json"⟩) ⟨"a.ts"⟩ = some ⟨"main.json"⟩
    ∧ Loadable twoBranches ⟨"main.json"⟩
    ∧ (∀ a, ¬ TransGen (Arc twoBranches ⟨"main.json"⟩) a a)
    ∧ configPath? selfExtending (some ⟨"loop.json"⟩) ⟨"a.ts"⟩ = some ⟨"loop.json"⟩
    ∧ ¬ Loadable selfExtending ⟨"loop.json"⟩
  := by
  have branches := resolve_faults twoBranches (some ⟨"main.json"⟩) ⟨"a.ts"⟩ ⟨"main.json"⟩ rfl
  have loadable : Loadable twoBranches ⟨"main.json"⟩ := by
    rw [branches.1]
    intro d member
    simp only [resolve, configPath?, load_twoBranches] at member
    apply code_of_mem_apply member
  refine ⟨rfl, loadable, branches.2.2.1 loadable uniform_twoBranches, rfl, ?_⟩
  have faults := resolve_faults selfExtending (some ⟨"loop.json"⟩) ⟨"a.ts"⟩ ⟨"loop.json"⟩ rfl
  rw [faults.1]
  intro apart
  have diagnostics : (resolve selfExtending (some ⟨"loop.json"⟩) ⟨"a.ts"⟩).diagnostics
      = [circular "./loop.json"] := by
    simp only [resolve, configPath?, load_selfExtending]
  rw [diagnostics] at apart
  obtain ⟨-, straight⟩ := apart _ (List.mem_singleton_self _)
  apply straight
  apply code_ofCode

/-! ### A cycle that is never run through -/

/-- A tree in which `s/a.json` extends the package `p` and `s/b.json` the package `q`.  Seen from
`s/t`, the package `p` extends `s/b.json`; seen from `s/u`, the package `q` extends `s/a.json`; seen
from anywhere else, both extend nothing. -/
def crossing : FileTree where
  entries :=
    [("main.json", textFile ("\x7b\"extends\":[\"./s/t/../a.json\",\"./s/u/../b.json\"],"
        ++ "\"compilerOptions\":\x7b\"strict\":false\x7d\x7d")),
      ("node_modules", .directory
        [("p.json", textFile "\x7b\x7d"), ("q.json", textFile "\x7b\x7d")]),
      ("s", .directory
        [("a.json", textFile "\x7b\"extends\":\"p\"\x7d"),
          ("b.json", textFile "\x7b\"extends\":\"q\"\x7d"),
          ("t", .directory [("node_modules", .directory
            [("p.json", textFile "\x7b\"extends\":\"../../b.json\"\x7d")])]),
          ("u", .directory [("node_modules", .directory
            [("q.json", textFile "\x7b\"extends\":\"../../a.json\"\x7d")])])])]
  workingDirectory := []

/-- A file sets nothing and extends one file. -/
def Links (fs : FileSystem) (p q : Path) : Prop :=
  ∃ specifier, config? fs p = some ⟨[specifier], .empty⟩
    ∧ basePath? fs (directoryOf p) specifier = some q

theorem Links.extends {p q : Path} (link : Links fs p q) :
  Extends fs p q
  := by
  obtain ⟨specifier, found, resolved⟩ := link
  exact ⟨_, specifier, found, List.mem_singleton_self _, resolved⟩

theorem Links.load {p q : Path} {chain : List Path} (link : Links fs p q)
    (fresh : ¬ (fs.identity p).isAmong chain)
    (loaded : (load fs q (fs.identity p :: chain)).result = .ok .empty) :
  (load fs p chain).result = .ok .empty
  := by
  obtain ⟨specifier, found, resolved⟩ := link
  apply load_of_bases_singleton fresh found resolved loaded

theorem links_crossing :
  Links crossing ⟨"./s/t/../a.json"⟩ ⟨"./s/t/node_modules/p.json"⟩
    ∧ Links crossing ⟨"./s/t/node_modules/p.json"⟩ ⟨"./s/t/node_modules/../../b.json"⟩
    ∧ Links crossing ⟨"./s/t/node_modules/../../b.json"⟩ ⟨"./node_modules/q.json"⟩
    ∧ Links crossing ⟨"./s/u/../b.json"⟩ ⟨"./s/u/node_modules/q.json"⟩
    ∧ Links crossing ⟨"./s/u/node_modules/q.json"⟩ ⟨"./s/u/node_modules/../../a.json"⟩
    ∧ Links crossing ⟨"./s/u/node_modules/../../a.json"⟩ ⟨"./node_modules/p.json"⟩
  := by
  refine ⟨?_, ?_, ?_, ?_, ?_, ?_⟩
  · use "p"
    decide +kernel
  · use "../../b.json"
    decide +kernel
  · use "q"
    decide +kernel
  · use "q"
    decide +kernel
  · use "../../a.json"
    decide +kernel
  · use "p"
    decide +kernel

theorem config?_crossing :
  config? crossing ⟨"main.json"⟩
      = some ⟨["./s/t/../a.json", "./s/u/../b.json"], .ofList [("strict", .bool false)]⟩
    ∧ config? crossing ⟨"./node_modules/p.json"⟩ = some ⟨[], .empty⟩
    ∧ config? crossing ⟨"./node_modules/q.json"⟩ = some ⟨[], .empty⟩
  := by decide +kernel

theorem load_crossing :
  (load crossing ⟨"main.json"⟩ []).result
    = .ok (Sources.empty.extendFrom (.ofList [("strict", .bool false)]) "main.json")
  := by
  obtain ⟨main, blankP, blankQ⟩ := config?_crossing
  obtain ⟨fromA, fromP, fromB', fromB, fromQ, fromA'⟩ := links_crossing
  rw [load_eq_ok_iff]
  refine ⟨Path.not_isAmong_nil, _, .empty, main, ?_, rfl⟩
  rw [loadBases_cons_eq_ok_iff]
  use ⟨"./s/t/../a.json"⟩, .empty, by decide +kernel
  constructor
  · apply fromA.load (by decide +kernel)
    apply fromP.load (by decide +kernel)
    apply fromB'.load (by decide +kernel)
    apply (load_of_bases_nil (by decide +kernel) blankQ).trans rfl
  · rw [loadBases_cons_eq_ok_iff]
    use ⟨"./s/u/../b.json"⟩, .empty, by decide +kernel
    constructor
    · apply fromB.load (by decide +kernel)
      apply fromQ.load (by decide +kernel)
      apply fromA'.load (by decide +kernel)
      apply (load_of_bases_nil (by decide +kernel) blankP).trans rfl
    · apply (loadBases_nil _ _ _).1

/-- The tree is loaded although its graph has a cycle, from `s/a.json` through the package `p`,
`s/b.json` and the package `q`: the cycle is made of parts of two chains, of which neither comes
back. -/
theorem resolve_faults_crossing :
  configPath? crossing (some ⟨"main.json"⟩) ⟨"a.test-d.ts"⟩ = some ⟨"main.json"⟩
    ∧ (resolve crossing (some ⟨"main.json"⟩) ⟨"a.test-d.ts"⟩).diagnostics = []
    ∧ ∃ a, TransGen (Arc crossing ⟨"main.json"⟩) a a
  := by
  refine ⟨rfl, ?_, vertex crossing ⟨"./s/t/../a.json"⟩, ?_⟩
  · simp only [resolve, configPath?, load_crossing]
    decide +kernel
  · obtain ⟨main, -, -⟩ := config?_crossing
    obtain ⟨fromA, fromP, -, fromB, fromQ, -⟩ := links_crossing
    have first : Reaches crossing ⟨"main.json"⟩ ⟨"./s/t/../a.json"⟩ :=
      .single ⟨_, "./s/t/../a.json", main, by simp, by decide +kernel⟩
    have second : Reaches crossing ⟨"main.json"⟩ ⟨"./s/u/../b.json"⟩ :=
      .single ⟨_, "./s/u/../b.json", main, by simp, by decide +kernel⟩
    have there := transGen_arc first (.tail (.single fromA.extends) fromP.extends)
    have back := transGen_arc second (.tail (.single fromB.extends) fromQ.extends)
    have same : vertex crossing ⟨"./s/u/../b.json"⟩
        = vertex crossing ⟨"./s/t/node_modules/../../b.json"⟩ := by
      decide +kernel
    have same' : vertex crossing ⟨"./s/u/node_modules/../../a.json"⟩
        = vertex crossing ⟨"./s/t/../a.json"⟩ := by
      decide +kernel
    rw [same, same'] at back
    apply there.trans back

end TypeAssertions.Config
