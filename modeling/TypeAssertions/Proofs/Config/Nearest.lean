import TypeAssertions.Config.Resolution
import TypeAssertions.Proofs.Config.Traversal
import TypeAssertions.Proofs.Path.Ancestors

/-!
# The nearest configuration

In a file tree the configuration of a file is looked for in the directories to which the ancestors
of its path lead.  What is found is the nearest configuration of the file whenever it lies in a
directory that holds the file at all, and it does so when the path has no `..`.  Where nothing is
found, what is left out are the directories above the one from which the path starts.
-/

namespace TypeAssertions.Config

open FileTree

variable {t : FileTree} {p : Path} {d e names : List String}

/-! ### Configurations of directories -/

/-- Whether there is a configuration in a directory. -/
def hasConfig (t : FileTree) (d : List String) : Bool :=
  match t.entryAt? (d ++ [ConfigFile.fileName]) with
  | some (.file _) => true
  | _ => false

/-- What names lead to lies in a directory, or further below it. -/
def Above (d names : List String) : Prop := ∃ name rest, names = d ++ name :: rest

/-- The nearest configuration: every other directory above that has one is above this one. -/
structure IsNearest (t : FileTree) (names d : List String) : Prop where
  above : Above d names
  has : hasConfig t d = true
  below : ∀ e, Above e names → hasConfig t e = true → e <+: d

theorem IsNearest.unique (h : IsNearest t names d) (h' : IsNearest t names e) :
  d = e
  := by
  apply List.IsPrefix.eq_of_length_le (h'.below d h.above h.has)
  apply (h.below e h'.above h'.has).length_le

theorem Above.isPrefix (h : Above e d) :
  e <+: d
  := by
  obtain ⟨name, rest, split⟩ := h
  use name :: rest, split.symm

theorem above_concat {name : String} :
  Above e (d ++ [name]) ↔ e <+: d
  := by
  constructor
  · rintro ⟨first, rest, split⟩
    have parted : d ++ [name]
        = e ++ (first :: rest).dropLast ++ [(first :: rest).getLast (by simp)] := by
      rw [List.append_assoc, List.dropLast_append_getLast, split]
    use (first :: rest).dropLast
    apply (List.append_inj' parted rfl).1.symm
  · rintro ⟨rest, rfl⟩
    cases rest with
    | nil => use name, [], by simp
    | cons first rest => use first, rest ++ [name], by simp

theorem above_of_isPrefix (h : e <+: d) (other : e ≠ d) :
  Above e d
  := by
  obtain ⟨rest, rfl⟩ := h
  cases rest with
  | nil => cases other (List.append_nil e).symm
  | cons name rest => use name, rest

/-- Where a path leads to a directory, a configuration is found in it if it has one. -/
theorem isFile_child (tidy : p.Tidy) (leads : t.follow p = .ok d) :
  t.isFile (p.child ConfigFile.fileName) = hasConfig t d
    ∧ (hasConfig t d = true →
      t.locate (p.child ConfigFile.fileName) = .ok (d ++ [ConfigFile.fileName]))
  := by
  have solid : ConfigFile.fileName.toList ≠ [] := by decide
  have plain : '/' ∉ ConfigFile.fileName.toList := by decide
  have located := locate_child (t := t) tidy solid plain
  rw [leads] at located
  change t.locate _ = t.step d _ at located
  have below : t.entryAt? (d ++ [ConfigFile.fileName])
      = (t.entryAt? d).bind fun x => follow? x [ConfigFile.fileName] := by
    apply follow?_append
  cases found : t.entryAt? d with
  | none => simp [isFile, entry?, hasConfig, located, step, below, found]
  | some x =>
    cases x with
    | file content => simp [isFile, entry?, hasConfig, located, step, below, found, follow?]
    | directory entries =>
      have name : ConfigFile.fileName.toList ≠ [] ∧ ConfigFile.fileName.toList ≠ ['.']
          ∧ ConfigFile.fileName.toList ≠ ['.', '.'] := by decide
      have step : t.locate (p.child ConfigFile.fileName)
          = if (entries.lookup ConfigFile.fileName).isSome then .ok (d ++ [ConfigFile.fileName])
            else .error .notFound := by
        rw [located, FileTree.step, found]
        simp only [name, or_self, if_false, String.ofList_toList]
      rw [isFile, entry?, hasConfig, step, below, found, Option.bind_some, follow?]
      cases held : entries.lookup ConfigFile.fileName with
      | none => simp
      | some y =>
        cases y with
        | file content => simp [below, found, held, follow?]
        | directory entries => simp [below, found, held, follow?]

/-! ### Searching along directories -/

theorem prefix_dropLast (h : e <+: d) (other : e ≠ d) :
  e <+: d.dropLast
  := by
  obtain ⟨rest, rfl⟩ := h
  cases rest using List.reverseRecOn with
  | nil => cases other (List.append_nil e).symm
  | append_singleton rest name =>
    rw [← List.append_assoc, List.dropLast_concat]
    apply List.prefix_append

/-- A way along directories leaves what lies below a directory only through that directory. -/
theorem prefix_of_isChain {before after : List (List String)}
    (chain : (before ++ d :: after).IsChain Beside) (apart : e ∉ before)
    (within : ∀ first ∈ (before ++ d :: after).head?, e <+: first) :
  e <+: d
  := by
  induction before with
  | nil => apply within _ rfl
  | cons first before ih =>
    obtain ⟨next, chain⟩ := List.isChain_cons.1 chain
    obtain ⟨other, apart⟩ := not_or.1 (mt List.mem_cons.2 apart)
    apply ih chain apart
    intro second member
    have inside : e <+: first := within _ rfl
    rcases next second member with rfl | above | below
    · apply inside
    · apply inside.trans
      rw [above]
      apply List.dropLast_prefix
    · rw [below]
      apply prefix_dropLast inside other

/-- Between the ends of a way that does not pass a directory, nothing goes in or out of it. -/
theorem prefix_iff_of_leads {paths : List Path} {ds : List (List String)} {last : List String}
    (leads : t.Leads p paths last ds) (apart : e ∉ ds) :
  e <+: last ↔ e <+: t.start p
  := by
  constructor
  · intro inside
    obtain ⟨before, rfl⟩ := List.getLast?_eq_some_iff.1 leads.final
    apply prefix_of_isChain leads.adjacent
    · intro member
      apply apart (List.mem_append_left _ member)
    · intro first head
      rw [leads.head] at head
      obtain rfl := Option.some.inj head
      apply inside
  · intro inside
    obtain ⟨after, rfl⟩ := List.head?_eq_some_iff.1 leads.head
    have back : (after.reverse ++ [last]).IsChain Beside := by
      rw [← List.reverse_cons, List.isChain_reverse]
      apply leads.adjacent.imp
      intro _ _ beside
      apply beside.symm
    apply prefix_of_isChain back
    · intro member
      apply apart (List.mem_cons_of_mem _ (List.mem_reverse.1 member))
    · intro first head
      rw [← List.reverse_cons, List.head?_reverse, leads.final] at head
      obtain rfl := Option.some.inj head
      apply inside

/-- The paths to the configurations along a way are the first of those that its directories
have. -/
theorem find?_isFile {paths : List Path} {ds : List (List String)}
    (along : List.Forall₂ (fun a d => a.Tidy ∧ t.follow a = .ok d) paths ds) :
  match (paths.map fun a => a.child ConfigFile.fileName).find? t.isFile with
  | some c => ∃ d, ds.find? (hasConfig t) = some d ∧ t.locate c = .ok (d ++ [ConfigFile.fileName])
  | none => ds.find? (hasConfig t) = none
  := by
  induction along with
  | nil => rfl
  | @cons a d paths ds leads along ih =>
    obtain ⟨tidy, leads⟩ := leads
    obtain ⟨same, located⟩ := isFile_child tidy leads
    rw [List.map_cons, List.find?_cons, List.find?_cons, same]
    cases has : hasConfig t d with
    | true =>
      use d, rfl
      apply located has
    | false => apply ih

/-! ### The configuration of a file -/

/-- The directories through which the path of a file leads, from the one that holds it back to the
one where the path starts. -/
theorem exists_way (located : t.locate p = .ok names) (file : t.isFile p = true) :
  ∃ q ds name d, p.parent? = some q ∧ names = d ++ [name] ∧ t.Leads p q.ancestors d ds
    ∧ (.up ∉ p.components → ∀ e ∈ ds, e <+: d)
  := by
  obtain ⟨content, held⟩ : ∃ content, t.entryAt? names = some (.file content) := by
    rw [isFile, entry?, located] at file
    simp only at file
    split at file
    case h_1 content held => use content, held
    case h_2 => cases file
  obtain ⟨steps, step, part, name, d, split, read, -, rfl, reached⟩ :=
    exists_steps_of_file located held
  obtain ⟨q, parent, ancestors⟩ := Path.parent?_of_part split read
  have directory := hasDirectory_of_follow (follow_of_locate located)
  obtain ⟨ds, leads, within⟩ := exists_leads directory split reached
  use q, ds, name, d, parent, rfl, ancestors ▸ leads
  intro onward
  apply within
  intro s member up
  apply onward (Path.up_mem_components _ up)
  rw [split]
  apply List.mem_append_left _ member

/-- The configuration of a file lies in the first directory that has one on the way back along its
path. -/
theorem configPath?_on_way {last : List String} {ds : List (List String)} {q : Path}
    (parent : p.parent? = some q) (leads : t.Leads p q.ancestors last ds) :
  match configPath? t none p with
  | some c => ∃ d, ds.find? (hasConfig t) = some d ∧ t.locate c = .ok (d ++ [ConfigFile.fileName])
  | none => ds.find? (hasConfig t) = none
  := by
  have chosen : configPath? t none p
      = (q.ancestors.map fun a => a.child ConfigFile.fileName).find? t.isFile := by
    rw [configPath?, parent]
    rfl
  rw [chosen]
  apply find?_isFile leads.along

/-- A configuration is found in some directory.  It is the nearest one of the file exactly when it
lies above the file, as it does when the path has no `..`. -/
theorem exists_config_of_isFile (located : t.locate p = .ok names) (file : t.isFile p = true)
    {c : Path} (chosen : configPath? t none p = some c) :
  ∃ d, t.locate c = .ok (d ++ [ConfigFile.fileName]) ∧ hasConfig t d = true
    ∧ (IsNearest t names d ↔ Above d names) ∧ (.up ∉ p.components → Above d names)
  := by
  obtain ⟨q, ds, name, last, parent, rfl, leads, within⟩ := exists_way located file
  have found := configPath?_on_way parent leads
  rw [chosen] at found
  obtain ⟨d, first, place⟩ := found
  obtain ⟨has, before, after, rfl, apart⟩ := List.find?_eq_some_iff_append.1 first
  use d, place, has
  constructor
  · constructor
    · intro nearest
      apply nearest.above
    · intro above
      use above, has
      intro e holds has_e
      apply prefix_of_isChain leads.adjacent
      · intro member
        have none_before := apart e member
        rw [has_e] at none_before
        cases none_before
      · intro first head
        rw [leads.head] at head
        obtain rfl := Option.some.inj head
        apply above_concat.1 holds
  · intro onward
    apply above_concat.2 (within onward d (by simp))

/-- When no configuration is found, none is missed except in directories above the one from which
the path starts. -/
theorem hasConfig_of_configPath?_eq_none (located : t.locate p = .ok names)
    (file : t.isFile p = true) (nothing : configPath? t none p = none) :
  (∀ d, Above d names → hasConfig t d = false) ↔ ∀ d, Above d (t.start p) → hasConfig t d = false
  := by
  obtain ⟨q, ds, name, last, parent, rfl, leads, -⟩ := exists_way located file
  have found := configPath?_on_way parent leads
  rw [nothing, List.find?_eq_none] at found
  apply forall_congr'
  intro e
  cases has : hasConfig t e with
  | false => simp
  | true =>
    have missed : e ∉ ds := by
      intro member
      apply found e member has
    rw [above_concat, prefix_iff_of_leads leads missed]
    constructor
    · intro none_above above
      apply none_above above.isPrefix
    · intro none_above inside
      apply none_above (above_of_isPrefix inside _)
      rintro rfl
      apply missed (List.mem_of_getLast? leads.final)

theorem not_above_start (absolute : p.isAbsolute = true) :
  ¬ Above d (t.start p)
  := by
  rintro ⟨name, rest, split⟩
  rw [start, if_pos absolute] at split
  cases List.append_ne_nil_of_right_ne_nil d (List.cons_ne_nil name rest) split.symm

/-- The configuration of a file lies in the nearest directory above the file that has one, if it
lies above the file at all, as it does when the path has no `..`.  When there is none, only
directories above the one from which the path starts can have one.  So a path from the root without
`..` finds the nearest configuration, and finds none only when there is none, however it is
spelled. -/
theorem configPath?_nearest (located : t.locate p = .ok names) (file : t.isFile p = true) :
  (∀ c, configPath? t none p = some c → ∃ d, t.locate c = .ok (d ++ [ConfigFile.fileName])
      ∧ hasConfig t d = true ∧ (IsNearest t names d ↔ Above d names)
      ∧ (.up ∉ p.components → Above d names))
    ∧ (configPath? t none p = none → ((∀ d, Above d names → hasConfig t d = false)
      ↔ ∀ d, Above d (t.start p) → hasConfig t d = false))
    ∧ (p.isAbsolute = true → .up ∉ p.components →
      (∀ d, (∃ c, configPath? t none p = some c ∧ t.locate c = .ok (d ++ [ConfigFile.fileName]))
        ↔ IsNearest t names d)
      ∧ (configPath? t none p = none ↔ ∀ d, Above d names → hasConfig t d = false))
  := by
  constructor
  · intro c chosen
    apply exists_config_of_isFile located file chosen
  constructor
  · intro nothing
    apply hasConfig_of_configPath?_eq_none located file nothing
  intro absolute onward
  have found (c : Path) (chosen : configPath? t none p = some c) :
      ∃ d, t.locate c = .ok (d ++ [ConfigFile.fileName]) ∧ IsNearest t names d := by
    obtain ⟨d, place, -, nearest, above⟩ := exists_config_of_isFile located file chosen
    use d, place
    apply nearest.2 (above onward)
  have missed (nothing : configPath? t none p = none) :
      ∀ d, Above d names → hasConfig t d = false := by
    rw [hasConfig_of_configPath?_eq_none located file nothing]
    intro d above
    cases not_above_start absolute above
  constructor
  · intro d
    constructor
    · rintro ⟨c, chosen, place⟩
      obtain ⟨d', place', nearest⟩ := found c chosen
      rw [place'] at place
      obtain rfl := List.append_cancel_right (Except.ok.inj place)
      apply nearest
    · intro nearest
      cases chosen : configPath? t none p with
      | none =>
        have none_above := missed chosen d nearest.above
        rw [nearest.has] at none_above
        cases none_above
      | some c =>
        obtain ⟨d', place, nearest'⟩ := found c chosen
        obtain rfl := nearest.unique nearest'
        use c, rfl, place
  · constructor
    · apply missed
    · intro none_above
      cases chosen : configPath? t none p with
      | none => rfl
      | some c =>
        obtain ⟨d, -, nearest⟩ := found c chosen
        have none_there := none_above d nearest.above
        rw [nearest.has] at none_there
        cases none_there

/-! ### A way through another directory -/

/-- A tree with a test file beside a directory that has a configuration. -/
def sideConfig : FileTree where
  entries :=
    [("a", .directory [("tsconfig.json",
        textFile "\x7b\"compilerOptions\":\x7b\"strict\":false\x7d\x7d"),
        ("b", .directory [("y.test-d.ts", .file [])])]),
      ("x.test-d.ts", .file [])]
  workingDirectory := []

/-- From the directory below it, a file has the configuration beside that directory. -/
theorem configPath?_nearest_below :
  sideConfig.locate ⟨"a/./b/../b/y.test-d.ts"⟩ = .ok ["a", "b", "y.test-d.ts"]
    ∧ configPath? sideConfig none ⟨"a/./b/../b/y.test-d.ts"⟩ = some ⟨"a/./b/../tsconfig.json"⟩
    ∧ IsNearest sideConfig ["a", "b", "y.test-d.ts"] ["a"]
  := by
  have located : sideConfig.locate ⟨"a/./b/../b/y.test-d.ts"⟩ = .ok ["a", "b", "y.test-d.ts"] := by
    decide +kernel
  have file : sideConfig.isFile ⟨"a/./b/../b/y.test-d.ts"⟩ = true := by
    decide +kernel
  have chosen : configPath? sideConfig none ⟨"a/./b/../b/y.test-d.ts"⟩
      = some ⟨"a/./b/../tsconfig.json"⟩ := by
    decide +kernel
  have place : sideConfig.locate ⟨"a/./b/../tsconfig.json"⟩ = .ok ["a", "tsconfig.json"] := by
    decide +kernel
  use located, chosen
  obtain ⟨d, there, -, nearest, -⟩ := (configPath?_nearest located file).1 _ chosen
  rw [place] at there
  have same : ["a"] = d := List.append_cancel_right (Except.ok.inj there)
  rw [← same] at nearest
  apply nearest.2
  exact ⟨"b", ["y.test-d.ts"], rfl⟩

theorem load_sideConfig :
  (load sideConfig ⟨"a/tsconfig.json"⟩ []).result
    = .ok (Sources.empty.extendFrom (.ofList [("strict", .bool false)]) "a/tsconfig.json")
  := by
  apply load_of_bases_nil Path.not_isAmong_nil
  decide +kernel

/-- A path of the file that goes through the directory beside it finds the configuration in there,
which is not above the file, and the path that does not finds none. -/
theorem configPath?_beside :
  sideConfig.locate ⟨"a/../x.test-d.ts"⟩ = sideConfig.locate ⟨"x.test-d.ts"⟩
    ∧ sideConfig.locate ⟨"x.test-d.ts"⟩ = .ok ["x.test-d.ts"]
    ∧ sideConfig.isFile ⟨"x.test-d.ts"⟩ = true
    ∧ configPath? sideConfig none ⟨"a/../x.test-d.ts"⟩ = some ⟨"a/tsconfig.json"⟩
    ∧ (∀ d, Above d ["x.test-d.ts"] → hasConfig sideConfig d = false)
    ∧ (resolve sideConfig none ⟨"a/../x.test-d.ts"⟩).options.strict = false
    ∧ (resolve sideConfig none ⟨"x.test-d.ts"⟩).options.strict = true
  := by
  have chosen : configPath? sideConfig none ⟨"a/../x.test-d.ts"⟩ = some ⟨"a/tsconfig.json"⟩ := by
    decide +kernel
  have nothing : configPath? sideConfig none ⟨"x.test-d.ts"⟩ = none := by
    decide +kernel
  refine ⟨by decide +kernel, by decide +kernel, by decide +kernel, chosen, ?_, ?_, ?_⟩
  · intro d above
    obtain rfl : d = [] := List.prefix_nil.1 ((above_concat (d := [])).1 above)
    decide +kernel
  · rw [resolve, chosen]
    simp only [load_sideConfig]
    decide +kernel
  · rw [resolve, nothing]
    rfl

end TypeAssertions.Config
