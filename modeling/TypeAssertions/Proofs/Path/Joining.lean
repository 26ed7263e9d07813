import TypeAssertions.Proofs.Path.Ancestors

/-!
# Paths below a directory

A directory followed by names has the components of the directory and then the names
(`components_join`).  Relative to the directory it is the path that spells the names
(`relativeTo?_join`), and in a tree it leads from the directory along the names
(`FileTree.locate_join_iff`).
-/

namespace TypeAssertions

namespace Path

/-! ### Names -/

/-- A name of an entry: a step of a path that goes down. -/
def IsName (name : String) : Prop :=
  name.toList ≠ [] ∧ '/' ∉ name.toList ∧ name.toList ≠ ['.'] ∧ name.toList ≠ ['.', '.']

instance (name : String) : Decidable (IsName name) :=
  inferInstanceAs (Decidable (name.toList ≠ [] ∧ '/' ∉ name.toList ∧ name.toList ≠ ['.']
    ∧ name.toList ≠ ['.', '.']))

/-- The path that goes down along names. -/
def ofNames (names : List String) : Path := ⟨String.intercalate "/" names⟩

/-- The names that a path goes through. -/
def names (p : Path) : List String :=
  p.components.filterMap fun
    | .name s => some s
    | _ => none

variable {p r : Path} {name : String} {names : List String}

theorem chars_ofNames (names : List String) :
  (ofNames names).chars = ['/'].intercalate (names.map String.toList)
  := String.toList_intercalate

/-- A step that is a name is neither empty nor a dot or two. -/
theorem of_partOfStep_eq_name {step : Nat × List Char} {part : Part}
    (read : partOfStep step = some part) (named : part.component = .name name) :
  step.2 ≠ [] ∧ step.2 ≠ ['.'] ∧ step.2 ≠ ['.', '.'] ∧ name.toList = step.2
  := by
  simp only [partOfStep] at read
  split at read
  · cases read
  case isFalse solid =>
    split at read
    · split at read
      · rw [← Option.some.inj read] at named
        cases named
      · cases read
    case isFalse proper =>
      split at read
      · rw [← Option.some.inj read] at named
        cases named
      case isFalse onward =>
        rw [← Option.some.inj read] at named
        use solid, proper, onward
        rw [← Component.name.inj named, String.toList_ofList]

theorem partOfStep_of_isName (h : IsName name) (start : Nat) :
  partOfStep (start, name.toList)
    = some ⟨.name name, start, start + name.toList.length⟩
  := by
  obtain ⟨solid, -, proper, onward⟩ := h
  simp only [partOfStep, solid, proper, onward, if_false, String.ofList_toList]

theorem mem_names_iff :
  name ∈ p.names ↔ .name name ∈ p.components
  := by
  rw [Path.names, List.mem_filterMap]
  constructor
  · rintro ⟨component, member, named⟩
    cases component with
    | name s =>
      rw [← Option.some.inj named]
      apply member
    | root => cases named
    | here => cases named
    | up => cases named
  · intro member
    use .name name, member

theorem isName_of_mem_names (member : name ∈ p.names) :
  IsName name
  := by
  rw [mem_names_iff, components, List.mem_map] at member
  obtain ⟨part, member, named⟩ := member
  rw [parts, List.mem_append] at member
  rcases member with root | member
  · split at root
    · rw [List.mem_singleton.1 root] at named
      cases named
    · cases root
  · obtain ⟨step, member, read⟩ := List.mem_filterMap.1 member
    obtain ⟨before, after, split⟩ := List.append_of_mem member
    obtain ⟨-, rest, -, -, from_there⟩ := exists_drop_of_stepsFrom split
    obtain ⟨-, plain, -⟩ := stepsFrom_eq_cons from_there
    obtain ⟨solid, proper, onward, spelled⟩ := of_partOfStep_eq_name read named
    rw [IsName, spelled]
    use solid, plain

/-- The parts of a path along names that stands further on in another one. -/
def partsOfNames (start : Nat) : List String → List Part
  | [] => []
  | name :: names =>
    let stop := start + name.toList.length
    ⟨.name name, start, stop⟩ :: partsOfNames (stop + 1) names

theorem components_partsOfNames (start : Nat) (names : List String) :
  (partsOfNames start names).map Part.component = names.map .name
  := by
  induction names generalizing start with
  | nil => rfl
  | cons name names ih => rw [partsOfNames, List.map_cons, ih, List.map_cons]

theorem head?_partsOfNames (start : Nat) (nonempty : names ≠ []) :
  (partsOfNames start names).head?.map Part.start = some start
  := by
  cases names with
  | nil => cases nonempty rfl
  | cons name names => rfl

theorem chars_ofNames_cons (nonempty : names ≠ []) :
  (ofNames (name :: names)).chars = name.toList ++ '/' :: (ofNames names).chars
  := by
  cases names with
  | nil => cases nonempty rfl
  | cons next names =>
    simp only [chars_ofNames, List.map_cons, List.intercalate_cons_cons, List.append_assoc]
    rfl

theorem chars_ofNames_singleton (name : String) :
  (ofNames [name]).chars = name.toList
  := by
  simp [chars_ofNames]

theorem getLast?_partsOfNames (start : Nat) (nonempty : names ≠ []) :
  (partsOfNames start names).getLast?.map Part.stop = some (start + (ofNames names).chars.length)
  := by
  induction names generalizing start with
  | nil => cases nonempty rfl
  | cons name names ih =>
    by_cases last : names = []
    · subst last
      rw [chars_ofNames_singleton]
      rfl
    · have later := ih (start + name.toList.length + 1) last
      rw [partsOfNames, List.getLast?_cons, chars_ofNames_cons last, List.length_append,
        List.length_cons]
      cases ends : (partsOfNames (start + name.toList.length + 1) names).getLast? with
      | none =>
        rw [ends] at later
        cases later
      | some part =>
        rw [ends, Option.map_some] at later
        rw [Option.getD_some, Option.map_some, Option.some.inj later]
        congr 1
        omega

/-- A path along names goes down one name with each step. -/
theorem stepsFrom_ofNames (proper : ∀ name ∈ names, IsName name) (nonempty : names ≠ [])
    (start : Nat) :
  (stepsFrom start [] (ofNames names).chars).filterMap partOfStep = partsOfNames start names
    ∧ (stepsFrom start [] (ofNames names).chars).map Prod.snd = names.map String.toList
  := by
  induction names generalizing start with
  | nil => cases nonempty rfl
  | cons name names ih =>
    obtain ⟨first, proper⟩ := List.forall_mem_cons.1 proper
    have part := partOfStep_of_isName first start
    have plain := first.2.1
    by_cases last : names = []
    · subst last
      have single := stepsFrom_of_not_mem plain start []
      rw [List.length_nil, Nat.add_zero, List.nil_append] at single
      rw [chars_ofNames_singleton, single]
      simp [part, partsOfNames]
    · have steps := stepsFrom_append_slash plain start [] (ofNames names).chars
      rw [List.length_nil, Nat.add_zero, List.nil_append] at steps
      obtain ⟨parts, later⟩ := ih proper last (start + name.toList.length + 1)
      rw [chars_ofNames_cons last, steps, List.filterMap_cons_some part, parts, List.map_cons,
        later]
      use rfl
      rfl

theorem isAbsolute_ofNames (proper : ∀ name ∈ names, IsName name) :
  (ofNames names).isAbsolute = false
  := by
  rw [isAbsolute, decide_eq_false_iff_not]
  cases names with
  | nil => simp [chars_ofNames]
  | cons name names =>
    obtain ⟨solid, plain, -, -⟩ := proper name List.mem_cons_self
    have first : (ofNames (name :: names)).chars.head? = name.toList.head? := by
      by_cases last : names = []
      · rw [last, chars_ofNames_singleton]
      · rw [chars_ofNames_cons last, List.head?_append_of_ne_nil _ solid]
    rw [first]
    intro slash
    apply plain (List.mem_of_mem_head? slash)

/-! ### Joining -/

/-- The characters of a path before the slash that stands between it and what is joined to it. -/
def stem (p : Path) : List Char :=
  if p.chars.getLast? = some '/' then p.chars.dropLast else p.chars

theorem chars_eq_stem (p : Path) :
  p.chars = p.stem ∨ p.chars = p.stem ++ ['/']
  := by
  rw [stem]
  split
  case isTrue slash =>
    right
    obtain ⟨cs, split⟩ := List.getLast?_eq_some_iff.1 slash
    rw [split, List.dropLast_concat]
  case isFalse =>
    left
    rfl

theorem chars_join (spelled : p.chars ≠ []) (relative : r.isAbsolute = false) :
  (p.join r).chars = p.stem ++ '/' :: r.chars
  := by
  have text (a b : String) : (Path.mk (a ++ b)).chars = a.toList ++ b.toList :=
    String.toList_append
  by_cases slash : p.chars.getLast? = some '/'
  · obtain ⟨cs, split⟩ := List.getLast?_eq_some_iff.1 slash
    simp only [join, relative, spelled, slash, Bool.false_eq_true, or_false, if_false, if_true,
      stem, text]
    rw [split, List.dropLast_concat, ← chars, split, List.append_assoc]
    rfl
  · simp only [join, relative, spelled, slash, Bool.false_eq_true, or_false, if_false, stem, text,
      String.toList_append, List.append_assoc]
    rfl

theorem isAbsolute_join (spelled : p.chars ≠ []) (relative : r.isAbsolute = false) :
  (p.join r).isAbsolute = p.isAbsolute
  := by
  rw [isAbsolute, isAbsolute, chars_join spelled relative]
  rcases p.chars_eq_stem with same | same
  · rw [same] at spelled
    rw [same, List.head?_append_of_ne_nil _ spelled]
  · rw [same]
    cases p.stem <;> rfl

/-- What is joined to a path stands after its parts. -/
theorem exists_parts_join (spelled : p.chars ≠ []) (relative : r.isAbsolute = false) :
  ∃ start, (p.join r).parts = p.parts ++ (stepsFrom start [] r.chars).filterMap partOfStep
    ∧ (p.join r).cut start (start + r.chars.length) = r
  := by
  have joined := chars_join spelled relative
  have before : (stepsFrom 0 [] p.stem).filterMap partOfStep
      = (stepsFrom 0 [] p.chars).filterMap partOfStep := by
    rcases p.chars_eq_stem with same | same
    · rw [← same]
    · rw [same, stepsFrom_append, List.filterMap_append]
      simp [stepsFrom, partOfStep]
  use p.stem.length + 1
  constructor
  · rw [parts, parts, isAbsolute_join spelled relative, joined, stepsFrom_append, Nat.zero_add,
      List.filterMap_append, before, List.append_assoc]
  · have rest : (p.stem ++ '/' :: r.chars).drop (p.stem.length + 1) = r.chars :=
      List.drop_length_add_append 1
    have whole : p.stem.length + 1 + r.chars.length = (p.stem ++ '/' :: r.chars).length := by
      rw [List.length_append, List.length_cons]
      omega
    rw [cut, joined, whole, List.take_length, rest, chars, String.ofList_toList]

theorem child_eq_join (p : Path) (name : String) :
  p.child name = p.join (ofNames [name])
  := by
  rw [child, ofNames, String.intercalate_singleton]

theorem eq_of_chars_eq (same : p.chars = r.chars) :
  p = r
  := congrArg Path.mk (String.toList_inj.1 same)

/-- Names may be joined to a path one after the other. -/
theorem join_child (spelled : p.chars ≠ []) (proper : ∀ n ∈ name :: names, IsName n)
    (nonempty : names ≠ []) :
  (p.child name).join (ofNames names) = p.join (ofNames (name :: names))
  := by
  obtain ⟨first, others⟩ := List.forall_mem_cons.1 proper
  have child := chars_join spelled (isAbsolute_ofNames (List.forall_mem_singleton.2 first))
  rw [← child_eq_join, chars_ofNames_singleton] at child
  have stem : (p.child name).stem = (p.child name).chars := by
    obtain ⟨solid, plain, -, -⟩ := first
    rw [Path.stem, if_neg]
    rw [child, List.append_cons, List.getLast?_append_of_ne_nil _ solid]
    intro slash
    apply plain (List.mem_of_getLast? slash)
  apply eq_of_chars_eq
  rw [chars_join (by simp [child]) (isAbsolute_ofNames others), stem, child,
    chars_join spelled (isAbsolute_ofNames proper), chars_ofNames_cons nonempty, List.append_assoc,
    List.cons_append]

theorem components_join (spelled : p.chars ≠ []) (proper : ∀ name ∈ names, IsName name)
    (nonempty : names ≠ []) :
  (p.join (ofNames names)).components = p.components ++ names.map .name
  := by
  obtain ⟨start, parts, -⟩ := exists_parts_join spelled (isAbsolute_ofNames proper)
  rw [components, parts, (stepsFrom_ofNames proper nonempty start).1, List.map_append,
    components_partsOfNames, components]

/-- The first step of a path that is not empty is a part of it. -/
theorem components_ne_nil (spelled : p.chars ≠ []) :
  p.components ≠ []
  := by
  rw [components, parts]
  by_cases absolute : p.isAbsolute = true
  · rw [if_pos absolute]
    apply List.cons_ne_nil
  · rw [if_neg absolute, List.nil_append, Ne, List.map_eq_nil_iff, List.filterMap_eq_nil_iff]
    intro none_is
    cases split : stepsFrom 0 [] p.chars with
    | nil => apply stepsFrom_ne_nil _ _ _ split
    | cons step steps =>
      obtain ⟨first, -, text⟩ := stepsFrom_eq_cons split
      have blank := blank_of_partOfStep (none_is step (by simp [split]))
      have silent := none_is step (by simp [split])
      rcases blank with nothing | dot
      · rw [nothing] at text
        rcases text with ⟨empty, -⟩ | ⟨ds, slash, -⟩
        · apply spelled empty
        · apply absolute
          simp [isAbsolute, slash]
      · simp [partOfStep, first, dot] at silent

/-- What is below a directory is relative to it the path along the names. -/
theorem relativeTo?_join (spelled : p.chars ≠ []) (proper : ∀ name ∈ names, IsName name)
    (nonempty : names ≠ []) :
  (p.join (ofNames names)).relativeTo? p = some (ofNames names)
  := by
  obtain ⟨start, parts, cut⟩ := exists_parts_join spelled (isAbsolute_ofNames proper)
  rw [(stepsFrom_ofNames proper nonempty start).1] at parts
  have leads : p.components.isPrefixOf (p.join (ofNames names)).components = true := by
    rw [List.isPrefixOf_iff_prefix, components_join spelled proper nonempty]
    apply List.prefix_append
  have some_above : p.components.isEmpty = false := by
    simpa using components_ne_nil spelled
  have below : (p.join (ofNames names)).parts.drop p.components.length
      = partsOfNames start names := by
    rw [parts, components, List.length_map, List.drop_left]
  simp only [relativeTo?, leads, if_true, some_above, Bool.false_eq_true, if_false, below,
    head?_partsOfNames start nonempty, getLast?_partsOfNames start nonempty, Option.getD_some, cut]

end Path

/-! ### Locating -/

namespace FileTree

open TypeAssertions.Path

variable {t : FileTree} {p : Path} {name : String} {d names : List String}

theorem names_eq (t : FileTree) (p : Path) :
  t.names p = t.start p ++ p.names
  := rfl

theorem entryAt?_append (t : FileTree) (d names : List String) :
  t.entryAt? (d ++ names) = (t.entryAt? d).bind fun e => follow? e names
  := follow?_append _ d names

/-- The step of a name goes to the entry of this name, if there is one. -/
theorem steps_name_iff (name_is : IsName name) {f : List String} :
  t.Steps d name.toList f ↔ f = d ++ [name] ∧ (t.entryAt? (d ++ [name])).isSome = true
  := by
  obtain ⟨solid, -, proper, onward⟩ := name_is
  rw [entryAt?_append]
  constructor
  · generalize spelled : name.toList = s
    rintro (⟨-, rfl | rfl⟩ | - | ⟨directory, -, -, found⟩)
    · cases solid spelled
    · cases proper spelled
    · cases onward spelled
    · rw [← spelled, String.ofList_toList] at found ⊢
      use rfl
      simp [directory, follow?, found]
  · rintro ⟨rfl, found⟩
    cases there : t.entryAt? d with
    | none => simp [there] at found
    | some e =>
      cases e with
      | file content => simp [there, follow?] at found
      | directory entries =>
        simp only [there, Option.bind_some, follow?] at found
        obtain ⟨x, held⟩ : ∃ x, entries.lookup name = some x := by
          cases held : entries.lookup name with
          | none => simp [held] at found
          | some x => use x
        have down : t.Steps d name.toList (d ++ [String.ofList name.toList]) :=
          .down there ⟨solid, proper⟩ onward (by rw [String.ofList_toList]; apply held)
        rw [String.ofList_toList] at down
        apply down

/-- Steps along names go down to what they lead to, if there is anything. -/
theorem foldlM_step_names (proper : ∀ name ∈ names, IsName name)
    (there : (t.entryAt? d).isSome = true) {f : List String} :
  (names.map String.toList).foldlM t.step d = .ok f
    ↔ f = d ++ names ∧ (t.entryAt? (d ++ names)).isSome = true
  := by
  induction names generalizing d with
  | nil =>
    rw [List.append_nil, there, List.map_nil, List.foldlM_nil, Except.pure_eq_ok_iff]
    simp [eq_comm]
  | cons name names ih =>
    obtain ⟨name_is, proper⟩ := List.forall_mem_cons.1 proper
    rw [List.map_cons, List.foldlM_cons, Except.bind_eq_ok_iff, List.append_cons d name names]
    simp only [step_eq_ok_iff, steps_name_iff name_is]
    constructor
    · rintro ⟨_, ⟨rfl, found⟩, later⟩
      apply (ih proper found).1 later
    · rintro ⟨rfl, found⟩
      have first : (t.entryAt? (d ++ [name])).isSome = true := by
        rw [entryAt?_append t (d ++ [name])] at found
        apply Option.isSome_of_isSome_bind found
      use d ++ [name], ⟨rfl, first⟩
      apply (ih proper first).2 ⟨rfl, found⟩

theorem spelled_of_locate (located : t.locate p = .ok d) :
  p.chars ≠ []
  := by
  intro nothing
  rw [locate, if_pos nothing] at located
  cases located

/-- Names joined to a directory lead down from it. -/
theorem locate_join_iff (located : t.locate p = .ok d) (there : (t.entryAt? d).isSome = true)
    (proper : ∀ name ∈ names, IsName name) (nonempty : names ≠ []) {f : List String} :
  t.locate (p.join (ofNames names)) = .ok f
    ↔ f = d ++ names ∧ (t.entryAt? (d ++ names)).isSome = true
  := by
  have spelled := spelled_of_locate located
  have relative := isAbsolute_ofNames proper
  have joined := chars_join spelled relative
  have before : ((stepsFrom 0 [] p.stem).map Prod.snd).foldlM t.step (t.start p) = .ok d := by
    replace located := follow_of_locate located
    rw [follow] at located
    rcases p.chars_eq_stem with same | same
    · rw [← same]
      apply located
    · -- the empty step after a slash at the end changes nothing
      rw [same, stepsFrom_append, List.map_append, List.foldlM_append, Except.bind_eq_ok_iff]
        at located
      obtain ⟨c, reached, stays⟩ := located
      simp only [stepsFrom, List.map_cons, List.map_nil, List.foldlM_cons, List.foldlM_nil,
        Except.bind_eq_ok_iff, Except.pure_eq_ok_iff, step_eq_ok_iff] at stays
      obtain ⟨_, stays, rfl⟩ := stays
      rw [reached, stays.eq (.inl rfl)]
  have start : t.start (p.join (ofNames names)) = t.start p := by
    rw [FileTree.start, FileTree.start, isAbsolute_join spelled relative]
  rw [locate_eq_follow (by simp [joined]), follow, start, joined, stepsFrom_append,
    List.map_append, List.foldlM_append, before, (stepsFrom_ofNames proper nonempty _).2]
  apply foldlM_step_names proper there

end FileTree

end TypeAssertions
