import Mathlib.Data.List.Basic
import Mathlib.Tactic.Use
import TypeAssertions.Path

/-!
# Relative paths

The path of a file relative to a directory above it is cut out of the spelling of the file.  Read
again as a path, the cut has the components that are left below the directory, so that a directory
and a relative path below it determine the components of the file.
-/

namespace TypeAssertions.Path

/-! ### Steps -/

theorem stepsFrom_of_not_mem {cs : List Char} (h : '/' ∉ cs) (start : Nat) (step : List Char) :
  stepsFrom (start + step.length) step cs = [(start, step ++ cs)]
  := by
  induction cs generalizing step with
  | nil => simp [stepsFrom]
  | cons c cs ih =>
    obtain ⟨other, rest⟩ := not_or.1 (mt List.mem_cons.2 h)
    have longer := ih rest (step ++ [c])
    rw [List.length_append, List.length_singleton, ← Nat.add_assoc] at longer
    rw [stepsFrom, if_neg (Ne.symm other), longer, List.append_assoc, List.singleton_append]

theorem stepsFrom_append_slash {cs : List Char} (h : '/' ∉ cs) (start : Nat) (step ds : List Char) :
  stepsFrom (start + step.length) step (cs ++ '/' :: ds)
    = (start, step ++ cs) :: stepsFrom (start + (step ++ cs).length + 1) [] ds
  := by
  induction cs generalizing step with
  | nil => simp [stepsFrom]
  | cons c cs ih =>
    obtain ⟨other, rest⟩ := not_or.1 (mt List.mem_cons.2 h)
    have longer := ih rest (step ++ [c])
    rw [List.length_append, List.length_singleton, ← Nat.add_assoc] at longer
    rw [List.cons_append, stepsFrom, if_neg (Ne.symm other), longer, List.append_assoc,
      List.singleton_append]

/-- The first step goes up to the first slash, and the others are those after it. -/
theorem stepsFrom_eq_cons {start : Nat} {cs : List Char} {step : Nat × List Char}
    {steps : List (Nat × List Char)} (h : stepsFrom start [] cs = step :: steps) :
  step.1 = start ∧ '/' ∉ step.2
    ∧ (cs = step.2 ∧ steps = []
      ∨ ∃ ds, cs = step.2 ++ '/' :: ds ∧ steps = stepsFrom (start + step.2.length + 1) [] ds)
  := by
  by_cases slash : '/' ∈ cs
  · obtain ⟨before, after, rfl, none_before⟩ := List.eq_append_cons_of_mem slash
    have split := stepsFrom_append_slash none_before start [] after
    obtain ⟨rfl, rfl⟩ := List.cons.inj (h.symm.trans split)
    use rfl, none_before
    right
    use after, rfl
  · have whole := stepsFrom_of_not_mem slash start []
    obtain ⟨rfl, rfl⟩ := List.cons.inj (h.symm.trans whole)
    use rfl, slash
    left
    use rfl

/-- The steps from one of them on are those of the text that starts with it. -/
theorem exists_drop_of_stepsFrom {start : Nat} {cs : List Char}
    {before after : List (Nat × List Char)} {step : Nat × List Char}
    (h : stepsFrom start [] cs = before ++ step :: after) :
  ∃ skipped rest, cs = skipped ++ rest ∧ step.1 = start + skipped.length
    ∧ stepsFrom step.1 [] rest = step :: after
  := by
  induction before generalizing start cs with
  | nil =>
    obtain ⟨first, -⟩ := stepsFrom_eq_cons h
    use [], cs, rfl, first
    rw [first]
    apply h
  | cons earlier before ih =>
    obtain ⟨-, -, ⟨-, nothing⟩ | ⟨ds, rfl, later⟩⟩ := stepsFrom_eq_cons h
    · cases List.append_ne_nil_of_right_ne_nil before (List.cons_ne_nil step after) nothing
    obtain ⟨skipped, rest, rfl, place, steps⟩ := ih later.symm
    use earlier.2 ++ '/' :: skipped, rest, by simp, ?_, steps
    rw [place, List.length_append, List.length_cons]
    omega

/-- The steps up to one of them are those of the text that ends with it. -/
theorem exists_take_of_stepsFrom {start : Nat} {cs : List Char}
    {before after : List (Nat × List Char)} {step : Nat × List Char}
    (h : stepsFrom start [] cs = before ++ step :: after) :
  ∃ kept rest, cs = kept ++ rest ∧ step.1 + step.2.length = start + kept.length
    ∧ stepsFrom start [] kept = before ++ [step]
  := by
  induction before generalizing start cs with
  | nil =>
    obtain ⟨rfl, none_in, text⟩ := stepsFrom_eq_cons h
    have alone := stepsFrom_of_not_mem none_in step.1 []
    rcases text with ⟨rfl, -⟩ | ⟨ds, rfl, -⟩
    · use step.2, [], (List.append_nil _).symm, rfl, alone
    · use step.2, '/' :: ds, rfl, rfl, alone
  | cons earlier before ih =>
    obtain ⟨first, none_in, ⟨-, nothing⟩ | ⟨ds, rfl, later⟩⟩ := stepsFrom_eq_cons h
    · cases List.append_ne_nil_of_right_ne_nil before (List.cons_ne_nil step after) nothing
    obtain ⟨kept, rest, rfl, place, steps⟩ := ih later.symm
    have longer := stepsFrom_append_slash none_in start [] kept
    use earlier.2 ++ '/' :: kept, rest, by simp
    constructor
    · rw [place, List.length_append, List.length_cons]
      omega
    · rw [List.cons_append, ← steps, ← first]
      rw [← first] at longer
      apply longer

/-- The steps from one of them up to a later one are those of the text between them. -/
theorem stepsFrom_slice {cs : List Char} {before run after : List (Nat × List Char)}
    {first last : Nat × List Char} (h : stepsFrom 0 [] cs = before ++ run ++ after)
    (head : run.head? = some first) (final : run.getLast? = some last) :
  stepsFrom first.1 [] ((cs.take (last.1 + last.2.length)).drop first.1) = run
  := by
  obtain ⟨rest, starts⟩ := List.head?_eq_some_iff.1 head
  obtain ⟨front, ends⟩ := List.getLast?_eq_some_iff.1 final
  have up_to : stepsFrom 0 [] cs = (before ++ front) ++ last :: after := by
    rw [h, ends]
    simp
  obtain ⟨kept, dropped, rfl, stop, steps⟩ := exists_take_of_stepsFrom up_to
  rw [List.append_assoc, ← ends, starts] at steps
  obtain ⟨passed, text, rfl, start, steps⟩ := exists_drop_of_stepsFrom steps
  rw [stop, Nat.zero_add, List.take_left, starts, ← steps]
  congr 1
  rw [start, Nat.zero_add, List.drop_left]

/-- A text whose first step is not empty does not start with a slash. -/
theorem head?_ne_slash_of_stepsFrom {start : Nat} {cs : List Char} {step : Nat × List Char}
    {steps : List (Nat × List Char)} (h : stepsFrom start [] cs = step :: steps)
    (solid : step.2 ≠ []) :
  cs.head? ≠ some '/'
  := by
  obtain ⟨-, none_in, spelled⟩ := stepsFrom_eq_cons h
  have head : cs.head? = step.2.head? := by
    rcases spelled with ⟨rfl, -⟩ | ⟨ds, rfl, -⟩
    · rfl
    · apply List.head?_append_of_ne_nil _ solid
  rw [head]
  intro slash
  apply none_in (List.mem_of_mem_head? slash)

theorem le_of_mem_stepsFrom {start : Nat} {cs : List Char} {step : Nat × List Char}
    (h : step ∈ stepsFrom start [] cs) :
  start ≤ step.1
  := by
  obtain ⟨before, after, split⟩ := List.append_of_mem h
  obtain ⟨skipped, -, -, place, -⟩ := exists_drop_of_stepsFrom split
  omega

/-- The steps of a text stand further on when the text does. -/
theorem stepsFrom_add (distance : Nat) {index : Nat} {step : List Char} (h : step.length ≤ index)
    (cs : List Char) :
  stepsFrom (index + distance) step cs
    = (stepsFrom index step cs).map fun s => (s.1 + distance, s.2)
  := by
  induction cs generalizing index step with
  | nil =>
    rw [stepsFrom, stepsFrom, List.map_singleton, Nat.sub_add_comm h]
  | cons c cs ih =>
    rw [stepsFrom, stepsFrom, Nat.add_right_comm]
    split
    · rw [ih (Nat.zero_le _), List.map_cons, Nat.sub_add_comm h]
    · apply ih
      rw [List.length_append]
      apply Nat.add_le_add_right h

/-! ### Parts -/

theorem partOfStep_eq_some {step : Nat × List Char} {part : Part}
    (h : partOfStep step = some part) :
  part.start = step.1 ∧ part.stop = step.1 + step.2.length ∧ step.2 ≠ []
    ∧ (step.2 = ['.'] → step.1 = 0)
  := by
  simp only [partOfStep] at h
  split at h
  · cases h
  case isFalse nonempty =>
    split at h
    case isTrue dot =>
      split at h
      case isTrue first =>
        obtain rfl := Option.some.inj h
        use rfl, rfl, nonempty
        intro _
        apply first
      · cases h
    case isFalse proper =>
      have cut : part.start = step.1 ∧ part.stop = step.1 + step.2.length := by
        split at h <;> obtain rfl := Option.some.inj h <;> use rfl
      use cut.1, cut.2, nonempty
      intro dot
      apply absurd dot proper

/-- A step further on is the same component, but for a dot at the start of a path. -/
theorem component_partOfStep_add {step : Nat × List Char} {distance : Nat}
    (h : step.2 = ['.'] → step.1 = 0 → distance = 0) :
  (partOfStep (step.1 + distance, step.2)).map Part.component
    = (partOfStep step).map Part.component
  := by
  by_cases dot : step.2 = ['.']
  · have same : step.1 + distance = 0 ↔ step.1 = 0 := by
      constructor
      · intro both
        omega
      · intro first
        rw [first, h dot first]
    simp only [partOfStep, dot, same, List.cons_ne_nil, if_false, if_true]
    split <;> rfl
  · simp only [partOfStep, dot, if_false]
    split
    · rfl
    · split <;> rfl

/-- The steps of a text further on are the same components when its first step is a part there. -/
theorem components_stepsFrom_add {distance : Nat} {text : List Char} {step : Nat × List Char}
    {steps : List (Nat × List Char)} (h : stepsFrom distance [] text = step :: steps)
    (proper : (partOfStep step).isSome = true) :
  ((stepsFrom distance [] text).filterMap partOfStep).map Part.component
    = ((stepsFrom 0 [] text).filterMap partOfStep).map Part.component
  := by
  obtain ⟨part, found⟩ := Option.isSome_iff_exists.1 proper
  obtain ⟨-, -, -, dot⟩ := partOfStep_eq_some found
  have moved : stepsFrom (0 + distance) [] text
      = (stepsFrom 0 [] text).map fun s => (s.1 + distance, s.2) :=
    stepsFrom_add distance (Nat.zero_le 0) text
  rw [Nat.zero_add] at moved
  rw [moved, List.map_filterMap, List.map_filterMap, List.filterMap_map]
  apply List.filterMap_congr
  intro other member
  apply component_partOfStep_add
  intro is_dot at_start
  cases split : stepsFrom 0 [] text with
  | nil =>
    rw [split] at member
    cases member
  | cons first rest =>
    rw [moved, split, List.map_cons] at h
    obtain ⟨rfl, -⟩ := List.cons.inj h
    obtain ⟨first_at, -, later⟩ := stepsFrom_eq_cons split
    rw [split] at member
    rcases List.mem_cons.1 member with rfl | member
    · have none_before := dot is_dot
      simp only [first_at] at none_before
      omega
    · rcases later with ⟨-, rfl⟩ | ⟨ds, -, rfl⟩
      · cases member
      · have := le_of_mem_stepsFrom member
        omega

/-- Parts that follow each other are read from steps that follow each other. -/
theorem exists_steps_of_parts {steps : List (Nat × List Char)} {before below middle : List Part}
    {first last : Part} (split : steps.filterMap partOfStep = before ++ first :: below)
    (ends : first :: below = middle ++ [last]) :
  ∃ front run back a b, steps = front ++ run ++ back
    ∧ run.head? = some a ∧ partOfStep a = some first
    ∧ run.getLast? = some b ∧ partOfStep b = some last
    ∧ run.filterMap partOfStep = first :: below
  := by
  obtain ⟨front, rest, rfl, -, parted⟩ := List.filterMap_eq_append_iff.1 split
  obtain ⟨skipped, a, others, rfl, -, first_a, read⟩ := List.filterMap_eq_cons_iff.1 parted
  have from_a : (a :: others).filterMap partOfStep = middle ++ [last] := by
    rw [List.filterMap_cons_some first_a, read, ends]
  obtain ⟨inner, tail, joined, inside, only⟩ := List.filterMap_eq_append_iff.1 from_a
  obtain ⟨silent, b, back, rfl, quiet, last_b, -⟩ := List.filterMap_eq_cons_iff.1 only
  have run : a :: others = inner ++ silent ++ [b] ++ back := by
    rw [joined]
    simp
  use front ++ skipped, inner ++ silent ++ [b], back, a, b
  refine ⟨?_, ?_, first_a, List.getLast?_concat, last_b, ?_⟩
  · rw [run]
    simp
  · rw [← List.head?_append_of_ne_nil _ (List.concat_ne_nil b (inner ++ silent)), ← run,
      List.head?_cons]
  · rw [List.filterMap_append, List.filterMap_append, inside, List.filterMap_eq_nil_iff.2 quiet,
      List.filterMap_cons_some last_b, ends]
    simp

/-- What is cut out of a path between the start of a part and the end of a later one is a path with
the components from the one to the other. -/
theorem components_cut {p : Path} {before below middle : List Part} {first last : Part}
    (split : (stepsFrom 0 [] p.chars).filterMap partOfStep = before ++ first :: below)
    (ends : first :: below = middle ++ [last]) :
  (p.cut first.start last.stop).isAbsolute = false
    ∧ (p.cut first.start last.stop).components = (first :: below).map Part.component
  := by
  obtain ⟨front, run, back, a, b, whole, head, first_a, final, last_b, read⟩ :=
    exists_steps_of_parts split ends
  obtain ⟨start, -, solid, -⟩ := partOfStep_eq_some first_a
  obtain ⟨-, stop, -, -⟩ := partOfStep_eq_some last_b
  have steps : stepsFrom a.1 [] (p.cut first.start last.stop).chars = run := by
    rw [chars, cut, String.toList_ofList, start, stop]
    apply stepsFrom_slice whole head final
  obtain ⟨rest, rfl⟩ := List.head?_eq_some_iff.1 head
  have relative : (p.cut first.start last.stop).isAbsolute = false := by
    rw [isAbsolute, decide_eq_false_iff_not]
    apply head?_ne_slash_of_stepsFrom steps solid
  have proper : (partOfStep a).isSome = true := by
    rw [first_a]
    rfl
  use relative
  rw [components, parts, relative, if_neg Bool.false_ne_true, List.nil_append,
    ← components_stepsFrom_add steps proper, steps, read]

/-! ### Paths below a directory -/

/-- No step is the root. -/
theorem component_ne_root {step : Nat × List Char} {part : Part}
    (h : partOfStep step = some part) :
  part.component ≠ .root
  := by
  simp only [partOfStep] at h
  split at h
  · cases h
  · split at h
    · split at h
      · obtain rfl := Option.some.inj h
        apply Component.noConfusion
      · cases h
    · split at h <;> obtain rfl := Option.some.inj h <;> apply Component.noConfusion

/-- Only the paths from the root start with the root. -/
theorem isAbsolute_of_components {p : Path} {rest : List Component}
    (h : p.components = .root :: rest) :
  p.isAbsolute = true
  := by
  by_contra relative
  have member : Component.root ∈ p.components := by simp [h]
  rw [components, parts, if_neg relative, List.nil_append, List.mem_map] at member
  obtain ⟨part, read, root⟩ := member
  obtain ⟨step, -, found⟩ := List.mem_filterMap.1 read
  apply component_ne_root found root

/-- The path relative to a directory is a relative path to the components below the directory. -/
theorem components_of_relativeTo? {p base r : Path} (absolute : base.isAbsolute = true)
    (h : p.relativeTo? base = some r) :
  p.isAbsolute = true ∧ r.isAbsolute = false ∧ p.components = base.components ++ r.components
  := by
  obtain ⟨above, from_root⟩ : ∃ above, base.components = .root :: above := by
    rw [components, parts, if_pos absolute]
    use ((stepsFrom 0 [] base.chars).filterMap partOfStep).map Part.component
    rfl
  simp only [relativeTo?, from_root, List.length_cons, List.isEmpty_cons] at h
  split at h
  case isFalse => cases h
  case isTrue leads =>
    obtain ⟨left, all⟩ := List.isPrefixOf_iff_prefix.1 leads
    have rooted := isAbsolute_of_components all.symm
    have read : p.parts = ⟨.root, 0, 1⟩ :: (stepsFrom 0 [] p.chars).filterMap partOfStep := by
      rw [parts, if_pos rooted]
      rfl
    rw [from_root, ← all, List.append_cancel_left_eq]
    use rooted
    have below : left = (((stepsFrom 0 [] p.chars).filterMap partOfStep).drop above.length).map
        Part.component := by
      have cut := congrArg (List.drop (above.length + 1)) all
      rw [components, read] at cut
      simpa using cut
    have split := (List.take_append_drop above.length
      ((stepsFrom 0 [] p.chars).filterMap partOfStep)).symm
    rw [read, List.drop_succ_cons] at h
    obtain rfl := Option.some.inj h
    generalize ((stepsFrom 0 [] p.chars).filterMap partOfStep).drop above.length = parts at *
    cases parts with
    | nil =>
      rw [below]
      constructor <;> rfl
    | cons first rest =>
      have ends := (List.dropLast_append_getLast (List.cons_ne_nil first rest)).symm
      rw [below, List.head?_cons, List.getLast?_eq_some_getLast (List.cons_ne_nil first rest)]
      obtain ⟨relative, same⟩ := components_cut split ends
      use relative, same.symm

/-! ### Display -/

theorem mem_chars_of_relativeTo? {p base r : Path} (h : p.relativeTo? base = some r) {c : Char}
    (member : c ∈ r.chars) :
  c ∈ p.chars
  := by
  simp only [relativeTo?] at h
  split at h
  case isFalse => cases h
  case isTrue =>
    obtain rfl := Option.some.inj h
    rw [cut, chars, String.toList_ofList] at member
    apply List.mem_of_mem_take (List.mem_of_mem_drop member)

/-- A path without backslashes is displayed as it is spelled from the directory on. -/
theorem display_of_not_mem {p : Path} (plain : '\\' ∉ p.chars) (base : Path) :
  p.display base = ((p.relativeTo? base).getD p).spelling
  := by
  have kept : '\\' ∉ ((p.relativeTo? base).getD p).chars := by
    cases found : p.relativeTo? base with
    | none => apply plain
    | some r =>
      intro member
      apply plain (mem_chars_of_relativeTo? found member)
  rw [display]
  generalize (p.relativeTo? base).getD p = shown at kept ⊢
  have same : shown.chars.map (fun c => if c = '\\' then '/' else c) = shown.chars := by
    have unchanged : ∀ c ∈ shown.chars, (if c = '\\' then '/' else c) = id c := by
      intro c member
      apply if_neg
      rintro rfl
      apply kept member
    rw [List.map_congr_left unchanged, List.map_id]
  rw [same, chars, String.ofList_toList]

/-- Paths without backslashes, all from the root or none, are displayed differently from a directory
unless they are equivalent. -/
theorem equivalent_of_display_eq {p q base : Path} (absolute : base.isAbsolute = true)
    (plain_p : '\\' ∉ p.chars) (plain_q : '\\' ∉ q.chars) (alike : p.isAbsolute = q.isAbsolute)
    (h : p.display base = q.display base) :
  p.equivalent q = true
  := by
  rw [display_of_not_mem plain_p, display_of_not_mem plain_q] at h
  have same : (p.relativeTo? base).getD p = (q.relativeTo? base).getD q := by
    generalize (p.relativeTo? base).getD p = r at h
    generalize (q.relativeTo? base).getD q = s at h
    apply congrArg Path.mk h
  rw [equivalent, decide_eq_true_eq]
  cases below_p : p.relativeTo? base with
  | none =>
    cases below_q : q.relativeTo? base with
    | none =>
      rw [below_p, below_q, Option.getD_none, Option.getD_none] at same
      rw [same]
    | some r =>
      obtain ⟨rooted, relative, -⟩ := components_of_relativeTo? absolute below_q
      rw [below_p, below_q, Option.getD_none, Option.getD_some] at same
      rw [same, relative, rooted] at alike
      cases alike
  | some r =>
    obtain ⟨rooted, relative, split_p⟩ := components_of_relativeTo? absolute below_p
    cases below_q : q.relativeTo? base with
    | none =>
      rw [below_p, below_q, Option.getD_some, Option.getD_none] at same
      rw [← same, relative, rooted] at alike
      cases alike
    | some r' =>
      obtain ⟨-, -, split_q⟩ := components_of_relativeTo? absolute below_q
      rw [below_p, below_q, Option.getD_some, Option.getD_some] at same
      rw [split_p, split_q, same]

end TypeAssertions.Path
