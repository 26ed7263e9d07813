import TypeAssertions.Proofs.Insertion
import TypeAssertions.Report.Reporter

/-!
# What a reporter keeps

The line maps that a reporter keeps belong to the sources that it keeps (`Reporter.Coherent`), and
what it writes for an item depends on nothing but the source of the file (`Reporter.fst_write`).  A
`Session` is a reporter with the files on disk, which may change between any two of its actions; a
history of events tells which source of a file is the current one.  `Session.step_run` says that a
reporter always keeps the current sources, and writes each item as a new reporter does that has been
given nothing but the current source of its file.
-/

namespace TypeAssertions.Report

open Text (LineMap)

namespace Reporter

variable {r : Reporter} {disk : String → Option String} {file : String} {item : Item}

/-- Each line map that is kept is that of the source which is kept for its file. -/
def Coherent (r : Reporter) : Prop :=
  ∀ file lines, r.lineMaps.get? file = some lines →
    ∃ text, r.sources.get? file = some (some text) ∧ lines = LineMap.ofText text.toList

/-- The source of a file that a reporter goes by: the one that it keeps, or else the one on disk. -/
def source? (r : Reporter) (disk : String → Option String) (file : String) : Option String :=
  (r.sources.get? file).getD (disk file)

theorem coherent_new (color : Bool) :
  (new color).Coherent
  := by
  intro file lines kept
  cases kept

theorem coherent_addSource (coherent : r.Coherent) (file text : String) :
  (r.addSource file text).Coherent
  := by
  intro g lines kept
  by_cases same : file = g
  · subst same
    rw [addSource, OrderedMap.get?_erase_self] at kept
    cases kept
  · rw [addSource, OrderedMap.get?_erase _ same] at kept
    obtain ⟨source, known, rfl⟩ := coherent g lines kept
    use source
    rw [addSource, OrderedMap.get?_insert, if_neg same]
    use known

/-! ### Looking a source up -/

theorem get?_ensureSource (r : Reporter) (disk : String → Option String) (file g : String) :
  (r.ensureSource disk file).sources.get? g
    = if file = g then some (r.source? disk file) else r.sources.get? g
  := by
  rw [ensureSource, OrderedMap.contains_eq_isSome]
  cases known : r.sources.get? file with
  | some source =>
    by_cases same : file = g
    · subst same
      simp [source?, known]
    · simp [same]
  | none => simp [source?, known, OrderedMap.get?_insert]

theorem lineMaps_ensureSource (r : Reporter) (disk : String → Option String) (file : String) :
  (r.ensureSource disk file).lineMaps = r.lineMaps
  := by
  rw [ensureSource]
  split <;> rfl

theorem color_ensureSource (r : Reporter) (disk : String → Option String) (file : String) :
  (r.ensureSource disk file).color = r.color
  := by
  rw [ensureSource]
  split <;> rfl

theorem coherent_ensureSource (coherent : r.Coherent) (disk : String → Option String)
    (file : String) :
  (r.ensureSource disk file).Coherent
  := by
  intro g lines kept
  rw [lineMaps_ensureSource] at kept
  obtain ⟨text, known, rfl⟩ := coherent g lines kept
  use text
  rw [get?_ensureSource]
  split
  case isTrue same =>
    subst same
    simp [source?, known]
  case isFalse => use known

/-- A source with its line map. -/
def mapped (text : String) : List Char × LineMap := (text.toList, LineMap.ofText text.toList)

/-- A look-up finds the source of a file with its line map. -/
theorem fst_lookUp (coherent : r.Coherent) (disk : String → Option String) (file : String) :
  (r.lookUp disk file).1 = (r.source? disk file).map mapped
  := by
  have known := get?_ensureSource r disk file file
  rw [if_pos rfl] at known
  simp only [lookUp, known]
  cases source : r.source? disk file with
  | none => rfl
  | some text =>
    simp only [Option.map_some]
    split
    case h_1 lines kept =>
      obtain ⟨text', known', rfl⟩ := coherent_ensureSource coherent disk file file lines kept
      rw [known, source] at known'
      obtain rfl := Option.some.inj (Option.some.inj known')
      rfl
    case h_2 => rfl

/-- A look-up may add the line map of the source that it finds, and nothing else but this source. -/
theorem snd_lookUp_cases (r : Reporter) (disk : String → Option String) (file : String) :
  (r.lookUp disk file).2 = r.ensureSource disk file
    ∨ ∃ text, (r.ensureSource disk file).sources.get? file = some (some text)
      ∧ (r.lookUp disk file).2 = { r.ensureSource disk file with
          lineMaps := (r.ensureSource disk file).lineMaps.insert file
            (LineMap.ofText text.toList) }
  := by
  simp only [lookUp]
  split
  case h_1 text known =>
    split
    case h_1 =>
      left
      rfl
    case h_2 =>
      right
      use text, known
  case h_2 =>
    left
    rfl

theorem sources_lookUp (r : Reporter) (disk : String → Option String) (file : String) :
  (r.lookUp disk file).2.sources = (r.ensureSource disk file).sources
  := by
  rcases snd_lookUp_cases r disk file with same | ⟨text, -, same⟩ <;> rw [same]

theorem color_lookUp (r : Reporter) (disk : String → Option String) (file : String) :
  (r.lookUp disk file).2.color = r.color
  := by
  rcases snd_lookUp_cases r disk file with same | ⟨text, -, same⟩ <;>
    simp only [same, color_ensureSource]

theorem coherent_lookUp (coherent : r.Coherent) (disk : String → Option String) (file : String) :
  (r.lookUp disk file).2.Coherent
  := by
  have ensured := coherent_ensureSource coherent disk file
  rcases snd_lookUp_cases r disk file with same | ⟨text, known, same⟩
  · rw [same]
    apply ensured
  · rw [same]
    intro g lines kept
    rw [OrderedMap.get?_insert] at kept
    split at kept
    case isTrue here =>
      subst here
      obtain rfl := Option.some.inj kept
      use text, known
    case isFalse => apply ensured g lines kept

/-! ### Writing an item -/

theorem write_of_unnamed (unnamed : item.named? = none) (r : Reporter)
    (disk : String → Option String) :
  r.write disk item = ("<global> - " ++ headline r.color item, r)
  := by
  rw [write, unnamed]

/-- What is written for an item depends on nothing but the source of its file. -/
theorem fst_write (coherent : r.Coherent) (named : item.named? = some file)
    (disk : String → Option String) :
  (r.write disk item).1 = written r.color item file ((r.source? disk file).map mapped)
  := by
  simp only [write, named, fst_lookUp coherent, color_lookUp]

theorem snd_write (named : item.named? = some file) (r : Reporter)
    (disk : String → Option String) :
  (r.write disk item).2 = (r.lookUp disk file).2
  := by
  simp only [write, named]

theorem color_write (r : Reporter) (disk : String → Option String) (item : Item) :
  (r.write disk item).2.color = r.color
  := by
  cases named : item.named? with
  | none => rw [write_of_unnamed named]
  | some file => rw [snd_write named, color_lookUp]

theorem coherent_write (coherent : r.Coherent) (disk : String → Option String) (item : Item) :
  (r.write disk item).2.Coherent
  := by
  cases named : item.named? with
  | none =>
    rw [write_of_unnamed named]
    apply coherent
  | some file =>
    rw [snd_write named]
    apply coherent_lookUp coherent

/-- Writing an item keeps the source of its file, and changes no other source. -/
theorem get?_sources_write (r : Reporter) (disk : String → Option String) (item : Item)
    (g : String) :
  (r.write disk item).2.sources.get? g
    = if item.named? = some g then some (r.source? disk g) else r.sources.get? g
  := by
  cases named : item.named? with
  | none =>
    rw [write_of_unnamed named, if_neg (by simp)]
  | some file =>
    rw [snd_write named, sources_lookUp, get?_ensureSource]
    simp only [Option.some.injEq]
    split
    case isTrue same => rw [same]
    case isFalse => rfl

theorem source?_write (r : Reporter) (disk : String → Option String) (item : Item) (g : String) :
  (r.write disk item).2.source? disk g = r.source? disk g
  := by
  rw [source?, get?_sources_write]
  split <;> rfl

/-- What is written for an item by a new reporter, when it has been given the current source of the
file and nothing else, and nothing is on disk. -/
def freshly (color : Bool) (current : String → Option String) (item : Item) : String :=
  let r := match item.named? with
    | none => new color
    | some file =>
      match current file with
      | none => new color
      | some text => (new color).addSource file text
  (r.write (fun _ => none) item).1

/-- A reporter writes as a new one does that goes by the same source. -/
theorem fst_write_eq_freshly (coherent : r.Coherent) (disk : String → Option String)
    (item : Item) :
  (r.write disk item).1 = freshly r.color (r.source? disk) item
  := by
  cases named : item.named? with
  | none => rw [freshly, write_of_unnamed named, write_of_unnamed named, named]; rfl
  | some file =>
    rw [fst_write coherent named]
    cases source : r.source? disk file with
    | none =>
      simp only [freshly, named, source]
      rw [fst_write (coherent_new r.color) named]
      rfl
    | some text =>
      have given : ((new r.color).addSource file text).source? (fun _ => none) file
          = some text := by
        rw [source?, addSource, OrderedMap.get?_insert, if_pos rfl]
        rfl
      simp only [freshly, named, source]
      rw [fst_write (coherent_addSource (coherent_new r.color) file text) named, given]
      rfl

/-- Items are each written as if the others were not. -/
theorem fst_writeAll (coherent : r.Coherent) (disk : String → Option String)
    (items : List Item) :
  (r.writeAll disk items).1 = items.map (freshly r.color (r.source? disk))
  := by
  induction items generalizing r with
  | nil => rfl
  | cons item items ih =>
    have later := ih (coherent_write coherent disk item)
    rw [color_write, funext (source?_write r disk item)] at later
    rw [writeAll, List.map_cons, ← later, ← fst_write_eq_freshly coherent]

end Reporter

/-! ### Current sources -/

/-- What happens to the source of a file: it is given, or it is needed and found on disk or not. -/
inductive Event where
  | given (file text : String)
  | needed (file : String) (found : Option String)

/-- The source of a file that was given last. -/
def lastGiven? (events : List Event) (file : String) : Option String :=
  events.reverse.findSome? fun
    | .given f text => if f = file then some text else none
    | .needed _ _ => none

/-- What was found when a file was first needed. -/
def firstFound? (events : List Event) (file : String) : Option (Option String) :=
  events.findSome? fun
    | .given _ _ => none
    | .needed f found => if f = file then some found else none

/-- The current source of a file, or none, when the file has been given or needed: the one that was
given last, or else what was found when it was first needed. -/
def current? (events : List Event) (file : String) : Option (Option String) :=
  ((lastGiven? events file).map some).or (firstFound? events file)

theorem current?_concat_given (events : List Event) (file text g : String) :
  current? (events ++ [.given file text]) g
    = if file = g then some (some text) else current? events g
  := by
  by_cases same : file = g <;>
    simp [current?, lastGiven?, firstFound?, List.findSome?_append, same]

theorem current?_concat_needed (events : List Event) (file : String) (found : Option String)
    (g : String) :
  current? (events ++ [.needed file found]) g
    = if file = g then some ((current? events g).getD found) else current? events g
  := by
  by_cases same : file = g
  · subst same
    cases given : lastGiven? events file <;> cases first : firstFound? events file <;>
      simp_all [current?, lastGiven?, firstFound?, List.findSome?_append]
  · simp [current?, lastGiven?, firstFound?, List.findSome?_append, same]

/-- A file that was not found when it was first needed has no source, also if it is there later. -/
example : current? [.needed "a.ts" none, .needed "a.ts" (some "x")] "a.ts" = some none
  := by
  decide

/-! ### Sessions -/

/-- What may happen to a reporter: the files on disk change, a source is given to it, or a
diagnostic, a finding or an outcome is written. -/
inductive Action where
  | change (disk : String → Option String)
  | give (file text : String)
  | diagnostic (d : Diagnostic)
  | finding (f : Finding)
  | outcome (o : Outcome)

/-- The files that items are about are needed one after the other. -/
def needs (disk : String → Option String) (items : List Item) : List Event :=
  items.filterMap fun item => item.named?.map fun file => .needed file (disk file)

namespace Action

/-- The items that are written. -/
def items : Action → List Item
  | .change _ | .give _ _ => []
  | .diagnostic d => [.ofDiagnostic d]
  | .finding f => [.ofFinding f]
  | .outcome o => Item.ofOutcome o

/-- The files on disk afterwards. -/
def diskAfter (disk : String → Option String) : Action → (String → Option String)
  | .change changed => changed
  | .give _ _ | .diagnostic _ | .finding _ | .outcome _ => disk

/-- What happens to the sources of files. -/
def events (disk : String → Option String) : Action → List Event
  | .give file text => [.given file text]
  | a => needs disk a.items

end Action

/-- What has happened to the sources of files after some actions. -/
def history (disk : String → Option String) : List Action → List Event
  | [] => []
  | a :: actions => a.events disk ++ history (a.diskAfter disk) actions

/-- A reporter and the files on disk. -/
structure Session where
  reporter : Reporter
  disk : String → Option String

namespace Session

/-- What is written by an action, and the session after it. -/
def step (s : Session) : Action → String × Session
  | .change disk => ("", { s with disk })
  | .give file text => ("", { s with reporter := s.reporter.addSource file text })
  | .diagnostic d =>
    let (text, reporter) := s.reporter.write s.disk (.ofDiagnostic d)
    (text, { s with reporter })
  | .finding f =>
    let (text, reporter) := s.reporter.write s.disk (.ofFinding f)
    (text, { s with reporter })
  | .outcome o =>
    let (text, reporter) := s.reporter.writeOutcome s.disk o
    (text, { s with reporter })

/-- The session after some actions. -/
def run (s : Session) (actions : List Action) : Session :=
  actions.foldl (fun s a => (s.step a).2) s

end Session

/-! ### Keeping up -/

/-- A reporter keeps up with what has happened: its line maps are those of its sources, and its
sources are the current ones. -/
structure Reporter.KeepsUp (r : Reporter) (color : Bool) (events : List Event) : Prop where
  coherent : r.Coherent
  color : r.color = color
  sources : ∀ file, r.sources.get? file = current? events file

namespace Reporter.KeepsUp

variable {r : Reporter} {color : Bool} {events : List Event}

theorem new (color : Bool) :
  (Reporter.new color).KeepsUp color []
  := ⟨coherent_new color, rfl, fun _ => rfl⟩

theorem addSource (h : r.KeepsUp color events) (file text : String) :
  (r.addSource file text).KeepsUp color (events ++ [.given file text])
  where
  coherent := coherent_addSource h.coherent file text
  color := h.color
  sources g := by
    rw [Reporter.addSource, OrderedMap.get?_insert, current?_concat_given, h.sources]

theorem write (h : r.KeepsUp color events) (disk : String → Option String) (item : Item) :
  (r.write disk item).2.KeepsUp color (events ++ needs disk [item])
  where
  coherent := coherent_write h.coherent disk item
  color := (color_write r disk item).trans h.color
  sources g := by
    rw [get?_sources_write]
    cases named : item.named? with
    | none => simp [needs, named, h.sources]
    | some file =>
      have need : needs disk [item] = [.needed file (disk file)] := by simp [needs, named]
      rw [need, current?_concat_needed, source?, h.sources]
      simp only [Option.some.injEq]
      split
      case isTrue same => rw [same]
      case isFalse => rfl

theorem writeAll (h : r.KeepsUp color events) (disk : String → Option String)
    (items : List Item) :
  (r.writeAll disk items).2.KeepsUp color (events ++ needs disk items)
  := by
  induction items generalizing r events with
  | nil =>
    rw [needs, List.filterMap_nil, List.append_nil]
    apply h
  | cons item items ih =>
    have split : needs disk (item :: items) = needs disk [item] ++ needs disk items := by
      rw [needs, needs, needs, ← List.filterMap_append, List.singleton_append]
    rw [split, ← List.append_assoc]
    apply ih (h.write disk item)

/-- A reporter keeps up with an action. -/
theorem step {s : Session} (h : s.reporter.KeepsUp color events) (a : Action) :
  (s.step a).2.reporter.KeepsUp color (events ++ a.events s.disk)
  := by
  cases a with
  | change disk =>
    have nothing : (Action.change disk).events s.disk = [] := rfl
    rw [nothing, List.append_nil]
    apply h
  | give file text => apply h.addSource file text
  | diagnostic d => apply h.write s.disk
  | finding f => apply h.write s.disk
  | outcome o => apply h.writeAll s.disk

/-- A reporter keeps up with every session. -/
theorem run {s : Session} (h : s.reporter.KeepsUp color events) (actions : List Action) :
  (s.run actions).reporter.KeepsUp color (events ++ history s.disk actions)
  := by
  induction actions generalizing s events with
  | nil =>
    rw [history, List.append_nil]
    apply h
  | cons a actions ih =>
    have disk : (s.step a).2.disk = a.diskAfter s.disk := by cases a <;> rfl
    have later := ih (h.step a)
    rw [disk, List.append_assoc] at later
    apply later

end Reporter.KeepsUp

theorem Session.keepsUp_run (color : Bool) (disk : String → Option String)
    (actions : List Action) :
  (Session.run ⟨.new color, disk⟩ actions).reporter.KeepsUp color (history disk actions)
  := (Reporter.KeepsUp.new color).run (s := ⟨.new color, disk⟩) actions

/-- An action writes its items one below the other, each as a new reporter does. -/
theorem Session.fst_step {s : Session} (coherent : s.reporter.Coherent) (a : Action) :
  (s.step a).1
    = String.intercalate "\n"
        (a.items.map (Reporter.freshly s.reporter.color (s.reporter.source? s.disk)))
  := by
  cases a with
  | change disk => rfl
  | give file text => rfl
  | diagnostic d =>
    rw [Action.items, List.map_singleton, ← Reporter.fst_write_eq_freshly coherent]
    rfl
  | finding f =>
    rw [Action.items, List.map_singleton, ← Reporter.fst_write_eq_freshly coherent]
    rfl
  | outcome o =>
    rw [Action.items, ← Reporter.fst_writeAll coherent]
    rfl

/-- After any actions, whatever has become of the files on disk in between, the line maps that a
reporter keeps are those of its sources, its sources are the current ones, and what it writes next
is written item by item as by a new reporter which has been given nothing but the current source. -/
theorem Session.step_run (color : Bool) (disk : String → Option String) (actions : List Action)
    (a : Action) :
  let s := Session.run ⟨.new color, disk⟩ actions
  let events := history disk actions
  s.reporter.Coherent
    ∧ (∀ file, s.reporter.sources.get? file = current? events file)
    ∧ (s.step a).1
      = String.intercalate "\n" (a.items.map
          (Reporter.freshly color fun file => (current? events file).getD (s.disk file)))
  := by
  intro s events
  have keeps : s.reporter.KeepsUp color events := keepsUp_run color disk actions
  have sources : s.reporter.source? s.disk
      = fun file => (current? events file).getD (s.disk file) := by
    funext file
    rw [Reporter.source?, keeps.sources]
  use keeps.coherent, keeps.sources
  rw [s.fst_step keeps.coherent, keeps.color, sources]

end TypeAssertions.Report
