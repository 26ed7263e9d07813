import Mathlib.Data.List.Chain
import Mathlib.Data.List.Forall2
import TypeAssertions.FileTree
import TypeAssertions.Proofs.Except
import TypeAssertions.Proofs.Path.Relative

/-!
# Where the ancestors of a path lead

The ancestors of a path are cut out of its spelling, step by step from its end.  In a file tree
they lead along the directories that the path itself goes through, from the last to the first: each
lies beside the next one, directly above it or below it.  Where the path has a `..`, a directory on
the way need not be one that holds what the path denotes.
-/

namespace TypeAssertions

open TypeAssertions.Path

/-! ### Steps of a tree -/

namespace FileTree

variable {t : FileTree} {d e : List String} {s : List Char}

theorem follow?_append (x : Entry) (names more : List String) :
  follow? x (names ++ more) = (follow? x names).bind fun y => follow? y more
  := by
  induction names generalizing x with
  | nil => rw [List.nil_append, follow?, Option.bind_some]
  | cons name names ih =>
    cases x with
    | file content => rfl
    | directory entries =>
      rw [List.cons_append, follow?, follow?, Option.bind_assoc]
      congr 1
      funext y
      apply ih

/-- What names lead to is a directory. -/
def HasDirectory (t : FileTree) (d : List String) : Prop :=
  ∃ entries, t.entryAt? d = some (.directory entries)

/-- What lies above a directory is a directory; nothing lies above the root. -/
theorem HasDirectory.dropLast (h : t.HasDirectory d) :
  t.HasDirectory d.dropLast
  := by
  obtain ⟨entries, found⟩ := h
  cases d using List.reverseRecOn with
  | nil => use entries, found
  | append_singleton above name =>
    rw [entryAt?, follow?_append, Option.bind_eq_some_iff] at found
    obtain ⟨x, reached, inside⟩ := found
    rw [List.dropLast_concat]
    cases x with
    | file content => cases inside
    | directory outer => use outer, reached

/-- A step is taken from a directory: an empty step or a dot stays there, two dots go up, and any
other step goes to the entry of its name. -/
inductive Steps (t : FileTree) (d : List String) : List Char → List String → Prop
  | stay {s : List Char} (directory : t.HasDirectory d) (blank : s = [] ∨ s = ['.']) :
      Steps t d s d
  | up (directory : t.HasDirectory d) : Steps t d ['.', '.'] d.dropLast
  | down {s : List Char} {entries : List (String × Entry)} {x : Entry}
      (directory : t.entryAt? d = some (.directory entries)) (proper : s ≠ [] ∧ s ≠ ['.'])
      (onward : s ≠ ['.', '.']) (found : entries.lookup (String.ofList s) = some x) :
      Steps t d s (d ++ [String.ofList s])

theorem step_eq_ok_iff :
  t.step d s = .ok e ↔ t.Steps d s e
  := by
  rw [step]
  constructor
  · intro taken
    split at taken
    · cases taken
    · cases taken
    case h_3 entries directory =>
      split at taken
      case isTrue blank =>
        obtain rfl := Except.ok.inj taken
        exact .stay ⟨entries, directory⟩ blank
      case isFalse proper =>
        split at taken
        case isTrue up =>
          obtain rfl := Except.ok.inj taken
          rw [up]
          exact .up ⟨entries, directory⟩
        case isFalse onward =>
          simp only at taken
          split at taken
          case isTrue found =>
            obtain rfl := Except.ok.inj taken
            obtain ⟨x, found⟩ := Option.isSome_iff_exists.1 found
            exact .down directory (not_or.1 proper) onward found
          case isFalse => cases taken
  · rintro (⟨⟨entries, directory⟩, blank⟩ | ⟨entries, directory⟩
      | ⟨directory, proper, onward, found⟩)
    · simp [directory, blank]
    · simp [directory]
    · simp [directory, proper, onward, found]

theorem Steps.hasDirectory (h : t.Steps d s e) :
  t.HasDirectory d
  := by
  cases h with
  | stay directory => apply directory
  | up directory => apply directory
  | down directory => exact ⟨_, directory⟩

theorem Steps.eq (h : t.Steps d s e) (blank : s = [] ∨ s = ['.']) :
  e = d
  := by
  cases h with
  | stay => rfl
  | up => simp at blank
  | down directory proper => cases not_or.2 proper blank

/-- Only the two dots leave a directory. -/
theorem Steps.isPrefix (h : t.Steps d s e) (onward : s ≠ ['.', '.']) :
  d <+: e
  := by
  cases h with
  | stay => apply List.prefix_rfl
  | up => cases onward rfl
  | down => apply List.prefix_append

/-- Two directories are the same, or one lies directly above the other. -/
def Beside (d e : List String) : Prop := d = e ∨ d = e.dropLast ∨ e = d.dropLast

theorem Beside.symm (h : Beside d e) :
  Beside e d
  := by
  rcases h with rfl | above | below
  · exact .inl rfl
  · exact .inr (.inr above)
  · exact .inr (.inl below)

theorem Steps.beside (h : t.Steps d s e) :
  Beside e d
  := by
  cases h with
  | stay => exact .inl rfl
  | up => exact .inr (.inl rfl)
  | down => exact .inr (.inr List.dropLast_concat.symm)

/-! ### Directories on the way -/

/-- The directory in which a path starts. -/
def start (t : FileTree) (p : Path) : List String :=
  if p.isAbsolute then [] else t.workingDirectory

/-- Where the steps of a path lead, the empty path leading to where it starts. -/
def follow (t : FileTree) (p : Path) : Except FileError (List String) :=
  ((stepsFrom 0 [] p.chars).map Prod.snd).foldlM t.step (t.start p)

theorem locate_eq_follow {p : Path} (spelled : p.chars ≠ []) :
  t.locate p = t.follow p
  := by
  rw [locate, if_neg spelled, follow, start]

end FileTree

/-! ### Spellings -/

namespace Path

theorem stepsFrom_ne_nil (index : Nat) (step cs : List Char) :
  stepsFrom index step cs ≠ []
  := by
  induction cs generalizing index step with
  | nil => apply List.cons_ne_nil
  | cons c cs ih =>
    rw [stepsFrom]
    split
    · apply List.cons_ne_nil
    · apply ih

/-- A slash separates the steps before it from those after it. -/
theorem stepsFrom_append (index : Nat) (step cs ds : List Char) :
  stepsFrom index step (cs ++ '/' :: ds)
    = stepsFrom index step cs ++ stepsFrom (index + cs.length + 1) [] ds
  := by
  induction cs generalizing index step with
  | nil => rfl
  | cons c cs ih =>
    rw [List.cons_append, stepsFrom, stepsFrom, ih, ih, List.length_cons]
    have further : index + 1 + cs.length + 1 = index + (cs.length + 1) + 1 := by omega
    rw [further]
    split
    · rw [List.cons_append]
    · rfl

/-- A path that has nothing after its last component. -/
inductive Tidy (p : Path) : Prop
  | empty (spelled : p.chars = [])
  | root (spelled : p.chars = ['/'])
  | part {before : List (Nat × List Char)} {step : Nat × List Char} {part : Part}
      (split : stepsFrom 0 [] p.chars = before ++ [step]) (last : partOfStep step = some part)

/-- The last step ends the text. -/
theorem exists_eq_append_of_stepsFrom {cs : List Char} {before : List (Nat × List Char)}
    {step : Nat × List Char} (split : stepsFrom 0 [] cs = before ++ [step]) :
  ∃ skipped, cs = skipped ++ step.2 ∧ step.1 = skipped.length ∧ '/' ∉ step.2
  := by
  obtain ⟨skipped, rest, rfl, place, only⟩ := exists_drop_of_stepsFrom split
  obtain ⟨-, solid, ⟨rfl, -⟩ | ⟨ds, -, more⟩⟩ := stepsFrom_eq_cons only
  · use skipped, rfl
    rw [place, Nat.zero_add]
    use rfl
  · cases stepsFrom_ne_nil _ _ _ more.symm

variable {p : Path}

/-- A path that ends with a component is neither empty nor ends with a slash. -/
theorem getLast?_of_part {before : List (Nat × List Char)} {step : Nat × List Char} {part : Part}
    (split : stepsFrom 0 [] p.chars = before ++ [step]) (last : partOfStep step = some part) :
  p.chars ≠ [] ∧ p.chars.getLast? ≠ some '/'
  := by
  obtain ⟨-, -, solid, -⟩ := partOfStep_eq_some last
  obtain ⟨skipped, spelled, -, plain⟩ := exists_eq_append_of_stepsFrom split
  rw [spelled]
  use List.append_ne_nil_of_right_ne_nil skipped solid
  rw [List.getLast?_append_of_ne_nil skipped solid]
  intro slash
  apply plain (List.mem_of_getLast? slash)

end Path

namespace FileTree

variable {t : FileTree} {p : Path}

/-- An empty step changes nothing before another one. -/
theorem step_nil_bind (t : FileTree) (d : List String) (s : List Char) :
  (t.step d [] >>= fun e => t.step e s) = t.step d s
  := by
  cases found : t.entryAt? d with
  | none =>
    simp only [step, found]
    rfl
  | some x =>
    cases x with
    | file content =>
      simp only [step, found]
      rfl
    | directory entries =>
      have stays : t.step d [] = .ok d := step_eq_ok_iff.2 (.stay ⟨entries, found⟩ (.inl rfl))
      rw [stays]
      rfl

/-- A name is looked up where the path before it leads. -/
theorem locate_child (tidy : p.Tidy) {name : String} (spelled : name.toList ≠ [])
    (plain : '/' ∉ name.toList) :
  t.locate (p.child name) = t.follow p >>= fun d => t.step d name.toList
  := by
  have relative : (Path.mk name).isAbsolute = false := by
    rw [isAbsolute, decide_eq_false_iff_not]
    intro slash
    apply plain (List.mem_of_mem_head? slash)
  have single (index : Nat) : stepsFrom index [] name.toList = [(index, name.toList)] :=
    stepsFrom_of_not_mem plain index []
  cases tidy with
  | empty nothing =>
    have child : p.child name = ⟨name⟩ := by simp [child, join, nothing]
    have steps : stepsFrom 0 [] (Path.mk name).chars = [(0, name.toList)] := single 0
    have here : p.isAbsolute = false := by simp [isAbsolute, nothing]
    rw [child, locate_eq_follow spelled, follow, follow, start, start, relative, here, steps,
      nothing]
    simp [stepsFrom, step_nil_bind]
  | root slash =>
    have spelling : p.spelling.toList = ['/'] := slash
    have joined : (p.child name).chars = '/' :: name.toList := by
      simp [child, join, relative, slash]
      simp [chars, spelling]
    have steps : stepsFrom 0 [] (p.child name).chars = [(0, []), (1, name.toList)] := by
      rw [joined, stepsFrom, if_pos rfl, single]
      rfl
    have absolute : p.isAbsolute = true := by simp [isAbsolute, slash]
    have absolute' : (p.child name).isAbsolute = true := by simp [isAbsolute, joined]
    rw [locate_eq_follow (by simp [joined]), follow, follow, start, start, absolute, absolute',
      steps, slash]
    simp [stepsFrom, step_nil_bind]
  | part split last =>
    obtain ⟨nonempty, solid⟩ := getLast?_of_part split last
    have joined : (p.child name).chars = p.chars ++ '/' :: name.toList := by
      simp [child, join, relative, nonempty, solid]
      simp [chars]
    have head : (p.child name).isAbsolute = p.isAbsolute := by
      rw [isAbsolute, isAbsolute, joined, List.head?_append_of_ne_nil _ nonempty]
    rw [locate_eq_follow (by simp [joined]), follow, follow, start, start, head, joined,
      stepsFrom_append, single, List.map_append, List.foldlM_append]
    simp

end FileTree

/-! ### The ancestors of the parent -/

namespace Path

variable {p : Path} {steps more : List (Nat × List Char)} {step : Nat × List Char} {part : Part}

/-- The path that spells where another one starts: the root, or the empty path. -/
def base (p : Path) : Path := p.cut 0 (if p.isAbsolute then 1 else 0)

/-- A path cut after each of its first steps, from the last of them to the first. -/
def trail (p : Path) (steps : List (Nat × List Char)) : List Path :=
  ((steps.filterMap partOfStep).reverse.map fun part => p.cut 0 part.stop) ++ [p.base]

theorem trail_append_some (proper : partOfStep step = some part) :
  p.trail (steps ++ [step]) = p.cut 0 part.stop :: p.trail steps
  := by
  rw [trail, List.filterMap_append, List.filterMap_cons_some proper]
  simp [trail]

theorem trail_append_nil (silent : more.filterMap partOfStep = []) :
  p.trail (steps ++ more) = p.trail steps
  := by
  rw [trail, List.filterMap_append, silent, List.append_nil, trail]

theorem chars_cut (p : Path) (stop : Nat) :
  (p.cut 0 stop).chars = p.chars.take stop
  := by
  rw [chars, cut, String.toList_ofList, List.drop_zero]

theorem cut_cut (p : Path) {m n : Nat} (h : m ≤ n) :
  (p.cut 0 n).cut 0 m = p.cut 0 m
  := by
  rw [cut, chars_cut, List.take_take, Nat.min_eq_left h, ← cut]

/-- A path cut after a component keeps the steps up to it, and starts where it started. -/
theorem cut_stop {after : List (Nat × List Char)}
    (split : stepsFrom 0 [] p.chars = steps ++ step :: after)
    (proper : partOfStep step = some part) :
  stepsFrom 0 [] (p.cut 0 part.stop).chars = steps ++ [step]
    ∧ (p.cut 0 part.stop).isAbsolute = p.isAbsolute
  := by
  obtain ⟨-, stop, solid, -⟩ := partOfStep_eq_some proper
  obtain ⟨kept, rest, spelled, place, only⟩ := exists_take_of_stepsFrom split
  have cut : (p.cut 0 part.stop).chars = kept := by
    rw [chars_cut, stop, place, Nat.zero_add, spelled, List.take_left]
  have nonempty : kept ≠ [] := by
    rintro rfl
    rw [List.length_nil] at place
    apply solid (List.eq_nil_of_length_eq_zero (by omega))
  rw [isAbsolute, isAbsolute, cut, spelled, List.head?_append_of_ne_nil _ nonempty]
  use only

theorem blank_of_partOfStep (h : partOfStep step = none) :
  step.2 = [] ∨ step.2 = ['.']
  := by
  simp only [partOfStep] at h
  split at h
  case isTrue nothing => exact .inl nothing
  case isFalse =>
    split at h
    case isTrue dot => exact .inr dot
    case isFalse => split at h <;> cases h

/-- Two dots are the component that goes up. -/
theorem up_mem_components (member : step ∈ stepsFrom 0 [] p.chars) (up : step.2 = ['.', '.']) :
  Component.up ∈ p.components
  := by
  rw [components, parts, List.map_append, List.mem_append]
  right
  apply List.mem_map.2
  use ⟨.up, step.1, step.1 + 2⟩
  constructor
  · apply List.mem_filterMap.2
    use step, member
    simp [partOfStep, up]
  · rfl

theorem stop_le_of_mem {before : List Part} {cs : List Char}
    (read : (stepsFrom 0 [] cs).filterMap partOfStep = before) (member : part ∈ before) :
  part.stop ≤ cs.length
  := by
  rw [← read, List.mem_filterMap] at member
  obtain ⟨step, member, proper⟩ := member
  obtain ⟨front, after, split⟩ := List.append_of_mem member
  obtain ⟨kept, rest, rfl, place, -⟩ := exists_take_of_stepsFrom split
  obtain ⟨-, stop, -, -⟩ := partOfStep_eq_some proper
  rw [stop, place, List.length_append]
  omega

theorem base_of_relative (relative : p.isAbsolute = false) :
  p.base = ⟨""⟩
  := by
  simp [base, relative, cut]

theorem base_of_isAbsolute (absolute : p.isAbsolute = true) :
  p.base = ⟨"/"⟩
  := by
  rw [base, absolute]
  rw [isAbsolute, decide_eq_true_eq] at absolute
  obtain ⟨rest, spelled⟩ := List.head?_eq_some_iff.1 absolute
  simp [cut, spelled]

theorem ancestors_base (p : Path) :
  p.base.ancestors = [p.base]
  := by
  cases absolute : p.isAbsolute with
  | false =>
    rw [base_of_relative absolute]
    rfl
  | true =>
    rw [base_of_isAbsolute absolute]
    rfl

/-- The ancestors of a path that ends with a component are its cuts. -/
theorem ancestors_of_part (split : stepsFrom 0 [] p.chars = steps ++ [step])
    (proper : partOfStep step = some part) :
  p.ancestors = p.trail (steps ++ [step])
  := by
  obtain ⟨-, stop, -, -⟩ := partOfStep_eq_some proper
  obtain ⟨skipped, spelled, place, -⟩ := exists_eq_append_of_stepsFrom split
  have whole : p.cut 0 part.stop = p := by
    have all : p.chars.take part.stop = p.chars := by
      rw [stop, place, spelled, ← List.length_append, List.take_length]
    rw [cut, all, List.drop_zero, chars, String.ofList_toList]
  rw [trail_append_some proper, whole, trail, ancestors, parts, split, List.filterMap_append,
    List.filterMap_cons_some proper]
  cases absolute : p.isAbsolute with
  | false => simp [base, absolute]
  | true => simp [base, absolute]

/-- The cuts of a cut path are those of the path. -/
theorem trail_cut {after : List (Nat × List Char)}
    (split : stepsFrom 0 [] p.chars = steps ++ step :: after)
    (proper : partOfStep step = some part) :
  (p.cut 0 part.stop).trail (steps ++ [step]) = p.trail (steps ++ [step])
  := by
  obtain ⟨only, start⟩ := cut_stop split proper
  obtain ⟨-, stop, solid, -⟩ := partOfStep_eq_some proper
  have positive := List.length_pos_iff.2 solid
  have base : (p.cut 0 part.stop).base = p.base := by
    rw [Path.base, start, cut_cut, ← Path.base]
    split <;> omega
  rw [trail, trail, base, List.append_cancel_right_eq]
  apply List.map_congr_left
  intro other member
  rw [List.mem_reverse] at member
  apply cut_cut
  have short := stop_le_of_mem (congrArg _ only) member
  rw [chars_cut] at short
  apply Nat.le_trans short (List.length_take_le _ _)

/-- The parent of a path that ends with a component is the nearest one of the other cuts, and its
ancestors are these cuts. -/
theorem parent?_of_part (split : stepsFrom 0 [] p.chars = steps ++ [step])
    (proper : partOfStep step = some part) :
  ∃ q, p.parent? = some q ∧ q.ancestors = p.trail steps
  := by
  have below : part.component ≠ .root := component_ne_root proper
  have read : p.parts.reverse = part :: (steps.filterMap partOfStep).reverse
      ++ if p.isAbsolute then [⟨.root, 0, 1⟩] else [] := by
    rw [parts, split, List.filterMap_append, List.filterMap_cons_some proper]
    split <;> simp
  cases earlier : (steps.filterMap partOfStep).reverse with
  | nil =>
    use p.base
    constructor
    · rw [parent?, read, earlier, base]
      simp only [List.cons_append, List.nil_append, below, if_false]
      split <;> rfl
    · rw [ancestors_base, trail, earlier]
      rfl
  | cons last before =>
    use p.cut 0 last.stop
    constructor
    · rw [parent?, read, earlier]
      simp only [List.cons_append, below, if_false]
      rfl
    · have named : steps.filterMap partOfStep = before.reverse ++ [last] := by
        rw [← List.reverse_cons, ← earlier, List.reverse_reverse]
      obtain ⟨front, rest, rfl, -, final⟩ := List.filterMap_eq_append_iff.1 named
      obtain ⟨quiet, a, silent, rfl, -, last_a, none_left⟩ := List.filterMap_eq_cons_iff.1 final
      have regroup : front ++ (quiet ++ a :: silent) = (front ++ quiet ++ [a]) ++ silent := by simp
      rw [regroup, List.append_assoc, List.append_assoc, List.singleton_append] at split
      rw [regroup, trail_append_nil none_left, ← trail_cut split last_a]
      apply ancestors_of_part (cut_stop split last_a).1 last_a

end Path

/-! ### The directories of a path -/

namespace FileTree

variable {t : FileTree} {p : Path} {steps : List (Nat × List Char)} {d e : List String}

/-- Paths lead along directories, from one at the end of a path to the one where the path starts:
each of them lies beside the next one. -/
structure Leads (t : FileTree) (p : Path) (paths : List Path) (last : List String)
    (ds : List (List String)) : Prop where
  along : List.Forall₂ (fun a d => a.Tidy ∧ t.follow a = .ok d) paths ds
  adjacent : ds.IsChain Beside
  head : ds.head? = some last
  final : ds.getLast? = some (t.start p)

theorem Leads.cons {paths : List Path} {ds : List (List String)} {a : Path}
    (leads : t.Leads p paths d ds) (beside : Beside e d) (tidy : a.Tidy)
    (there : t.follow a = .ok e) :
  t.Leads p (a :: paths) e (e :: ds)
  := by
  constructor
  case along => exact .cons ⟨tidy, there⟩ leads.along
  case adjacent =>
    apply List.isChain_cons.2
    constructor
    · intro next member
      rw [leads.head] at member
      obtain rfl := Option.some.inj member
      apply beside
    · apply leads.adjacent
  case head => rfl
  case final =>
    rw [List.getLast?_cons, leads.final]
    rfl

theorem leads_base (directory : t.HasDirectory (t.start p)) :
  t.Leads p [p.base] (t.start p) [t.start p]
  := by
  have stays : t.step (t.start p) [] = .ok (t.start p) :=
    step_eq_ok_iff.2 (.stay directory (.inl rfl))
  constructor
  case along =>
    refine .cons ?_ .nil
    cases absolute : p.isAbsolute with
    | false =>
      have empty : p.base = ⟨""⟩ := base_of_relative absolute
      have here : t.start p = t.start ⟨""⟩ := by
        rw [start, start, absolute]
        rfl
      rw [empty]
      rw [here] at stays ⊢
      use .empty rfl
      simp [follow, chars, stepsFrom]
      apply stays
    | true =>
      have root : p.base = ⟨"/"⟩ := base_of_isAbsolute absolute
      have here : t.start p = t.start ⟨"/"⟩ := by
        rw [start, start, absolute]
        rfl
      rw [root]
      rw [here] at stays ⊢
      use .root rfl
      simp [follow, chars, stepsFrom, step_nil_bind]
      apply stays
  case adjacent => apply List.isChain_singleton
  case head => rfl
  case final => rfl

/-- Where the first steps of a path lead, its cuts after these steps lead back. -/
theorem exists_leads (directory : t.HasDirectory (t.start p)) {after : List (Nat × List Char)}
    (split : stepsFrom 0 [] p.chars = steps ++ after)
    (reached : (steps.map Prod.snd).foldlM t.step (t.start p) = .ok d) :
  ∃ ds, t.Leads p (p.trail steps) d ds
    ∧ ((∀ step ∈ steps, step.2 ≠ ['.', '.']) → ∀ e ∈ ds, e <+: d)
  := by
  induction steps using List.reverseRecOn generalizing d after with
  | nil =>
    obtain rfl := Except.ok.inj reached
    use [t.start p], leads_base directory
    intro _ e member
    obtain rfl := List.mem_singleton.1 member
    apply List.prefix_rfl
  | append_singleton steps step ih =>
    have all := reached
    rw [List.map_append, List.foldlM_append, Except.bind_eq_ok_iff] at reached
    obtain ⟨c, before, taken⟩ := reached
    rw [List.map_singleton, List.foldlM_cons, Except.bind_eq_ok_iff] at taken
    obtain ⟨d', taken, arrived⟩ := taken
    obtain rfl := Except.ok.inj arrived
    rw [step_eq_ok_iff] at taken
    rw [List.append_assoc] at split
    obtain ⟨ds, leads, within⟩ := ih split before
    have above : (∀ s ∈ steps ++ [step], s.2 ≠ ['.', '.']) → ∀ e ∈ ds, e <+: d' := by
      intro onward e member
      rw [List.forall_mem_append, List.forall_mem_singleton] at onward
      apply (within onward.1 e member).trans (taken.isPrefix onward.2)
    cases read : partOfStep step with
    | none =>
      obtain rfl := taken.eq (blank_of_partOfStep read)
      have silent : [step].filterMap partOfStep = [] := by
        rw [List.filterMap_cons_none read, List.filterMap_nil]
      rw [trail_append_nil silent]
      use ds, leads, above
    | some part =>
      obtain ⟨only, same⟩ := cut_stop split read
      have there : t.follow (p.cut 0 part.stop) = .ok d' := by
        rw [follow, only, start, same, ← start]
        apply all
      rw [trail_append_some read]
      use d' :: ds, leads.cons taken.beside (.part only read) there
      intro onward e member
      rcases List.mem_cons.1 member with rfl | member
      · apply List.prefix_rfl
      · apply above onward e member

theorem hasDirectory_of_follow (reached : t.follow p = .ok d) :
  t.HasDirectory (t.start p)
  := by
  cases split : stepsFrom 0 [] p.chars with
  | nil => cases stepsFrom_ne_nil _ _ _ split
  | cons step steps =>
    rw [follow, split, List.map_cons, List.foldlM_cons, Except.bind_eq_ok_iff] at reached
    obtain ⟨e, taken, -⟩ := reached
    apply (step_eq_ok_iff.1 taken).hasDirectory

theorem follow_of_locate {names : List String} (located : t.locate p = .ok names) :
  t.follow p = .ok names
  := by
  rw [← located]
  symm
  apply locate_eq_follow
  intro nothing
  rw [locate, if_pos nothing] at located
  cases located

/-- The path of a file ends with its name, in the directory to which the path before it leads. -/
theorem exists_steps_of_file {names : List String} {content : List UInt8}
    (located : t.locate p = .ok names) (file : t.entryAt? names = some (.file content)) :
  ∃ steps step part name d, stepsFrom 0 [] p.chars = steps ++ [step]
    ∧ partOfStep step = some part ∧ part.component = .name name ∧ names = d ++ [name]
    ∧ (steps.map Prod.snd).foldlM t.step (t.start p) = .ok d
  := by
  replace located := follow_of_locate located
  rw [follow] at located
  cases split : stepsFrom 0 [] p.chars using List.reverseRecOn with
  | nil => cases stepsFrom_ne_nil _ _ _ split
  | append_singleton steps step =>
    rw [split, List.map_append, List.foldlM_append, Except.bind_eq_ok_iff] at located
    obtain ⟨d, before, taken⟩ := located
    rw [List.map_singleton, List.foldlM_cons, Except.bind_eq_ok_iff] at taken
    obtain ⟨names', taken, arrived⟩ := taken
    obtain rfl := Except.ok.inj arrived
    have solid : ¬ t.HasDirectory names' := by
      rintro ⟨entries, directory⟩
      rw [file] at directory
      cases directory
    generalize read : step.2 = s at taken
    cases step_eq_ok_iff.1 taken with
    | stay directory => cases solid directory
    | up directory => cases solid directory.dropLast
    | down directory proper onward =>
      use steps, step, ⟨.name (String.ofList s), step.1, step.1 + s.length⟩, String.ofList s, d, rfl
      simp [partOfStep, read, proper, onward, before]

end FileTree

end TypeAssertions
