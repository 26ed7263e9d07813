import TypeAssertions.Proofs.Report.Snippets

/-!
# Underlines

The last two rows of an item with a snippet are the line and the underline.  The line comes after
its number, which is padded to three characters, and the underline after as many blanks as there are
before a line with such a number.  So the underline starts below the range as long as the number has
at most three digits, and before it in all later lines (`Session.underline_run`).
-/

namespace TypeAssertions.Report

open Text

variable {text above lead marked rest : List Char} {start length : Nat}

/-! ### Rows without line feeds -/

theorem feed_notMem_expandTabs {content : List Char} (unbroken : Unbroken content) :
  '\n' ∉ expandTabs content
  := by
  rw [expandTabs, List.mem_flatMap]
  rintro ⟨c, member, expanded⟩
  split at expanded
  case isTrue =>
    cases List.eq_of_mem_replicate expanded
  case isFalse =>
    apply (unbroken c member).1 (List.mem_singleton.1 expanded).symm

namespace Snippet

theorem feed_notMem_gutter (s : Snippet) :
  '\n' ∉ s.gutter
  := by
  have digits : '\n' ∉ Nat.toDigits 10 s.number := by
    intro member
    cases Nat.isDigit_of_mem_toDigits (by decide) (by decide) member
  simp [gutter, padLeft, digits]

theorem feed_notMem_underline (s : Snippet) :
  '\n' ∉ s.indent ++ s.underline
  := by
  simp [indent, underline]

theorem width_ofMarks_pos (above lead marked rest : List Char) :
  0 < (ofMarks above lead marked rest).width
  := Nat.le_max_left _ _

/-- The first tilde stands after the blanks. -/
theorem idxOf_underline {s : Snippet} (wide : 0 < s.width) :
  (s.indent ++ s.underline).idxOf '~' = 8 + s.lead
  := by
  have blank : '~' ∉ s.indent := by simp [indent]
  obtain ⟨width, same⟩ := Nat.exists_eq_succ_of_ne_zero (Nat.ne_of_gt wide)
  rw [List.idxOf_append_of_notMem blank, length_indent, underline, same, List.replicate_succ,
    List.idxOf_cons_self, Nat.add_zero]

theorem tilde_mem_underline {s : Snippet} (wide : 0 < s.width) :
  '~' ∈ s.indent ++ s.underline
  := by
  rw [← List.idxOf_lt_length_iff, idxOf_underline wide, List.length_append, length_indent,
    length_underline]
  omega

/-- The line stands after eight columns as long as its number has at most three digits. -/
theorem length_gutter_eq_iff (s : Snippet) :
  s.gutter.length = 8 ↔ s.number < 1000
  := by
  have digits := Nat.length_toDigits_le_iff (b := 10) (n := s.number) (k := 3) (by decide)
    (by decide)
  rw [length_gutter]
  omega

theorem text_plain (s : Snippet) :
  s.text false
    = "\n" ++ String.ofList s.sourceRow ++ "\n" ++ String.ofList (s.indent ++ s.underline)
  := by
  rw [text, String.ofList_append, ← String.append_assoc]
  rfl

end Snippet

/-- In any session without colors, an item about a source of fewer than 2³² bytes, whose lines then
start at numbers of 32 bits, ends with two rows when it is written with a snippet: the line that its
range starts in, and the underline.  The underline starts below the range if the number of the line
is below 1000, and else as many columns before it as the number has digits beyond three. -/
theorem Session.underline_run (disk : String → Option String) (actions : List Action) (item : Item)
    (source : String)
    (known : (Session.run ⟨.new false, disk⟩ actions).source? item = some source)
    (short : byteLength source.toList < UInt32.size)
    (shown : (Session.run ⟨.new false, disk⟩ actions).written item
      ≠ item.heading false (some source)) :
  (∀ lineStart ∈ (LineMap.ofText source.toList).starts, lineStart < UInt32.size)
    ∧ ∃ above lead marked rest,
      Marks source.toList item.start.toNat item.length above lead marked rest
      ∧ let snippet := Snippet.ofMarks above lead marked rest
        let sourceRow := snippet.gutter ++ (expandTabs lead ++ expandTabs (marked ++ rest))
        let underlineRow := snippet.indent ++ snippet.underline
        let column := (snippet.gutter ++ expandTabs lead).length
        (Session.run ⟨.new false, disk⟩ actions).written item
            = item.heading false (some source) ++ "\n" ++ String.ofList sourceRow ++ "\n"
              ++ String.ofList underlineRow
          ∧ '\n' ∉ sourceRow ∧ '\n' ∉ underlineRow ∧ '~' ∈ underlineRow
          ∧ column = underlineRow.idxOf '~' + ((Nat.toDigits 10 (lineEnds above + 1)).length - 3)
          ∧ (underlineRow.idxOf '~' = column ↔ lineEnds above + 1 < 1000)
  := by
  have keeps := keepsUp_run false disk actions
  have written := written_of_source?_eq_some keeps.coherent known
  rw [keeps.color] at written
  cases made : Reporter.snippet? source.toList (LineMap.ofText source.toList) item.start.toNat
      item.length with
  | none =>
    rw [made] at written
    cases shown (by simpa using written)
  | some snippet =>
    obtain ⟨above, lead, marked, rest, marks, rfl⟩ := Reporter.snippet?_eq_some_iff.1 made
    use starts_lt_of_short short, above, lead, marked, rest, marks
    intro snippet sourceRow underlineRow column
    obtain ⟨ending, below, line⟩ := marks.line
    have rows : snippet.sourceRow = sourceRow := by rw [Snippet.sourceRow, Snippet.line_ofMarks]
    have wide := Snippet.width_ofMarks_pos above lead marked rest
    have unbroken : '\n' ∉ sourceRow := by
      rw [← rows, Snippet.sourceRow, List.mem_append, not_or]
      use snippet.feed_notMem_gutter, feed_notMem_expandTabs line.unbroken
    have tilde : underlineRow.idxOf '~' = 8 + (expandTabs lead).length :=
      Snippet.idxOf_underline wide
    have gutter : snippet.gutter.length
        = 5 + max 3 (Nat.toDigits 10 (lineEnds above + 1)).length := snippet.length_gutter
    have here : column = snippet.gutter.length + (expandTabs lead).length := List.length_append
    have digits : snippet.gutter.length = 8 ↔ lineEnds above + 1 < 1000 :=
      snippet.length_gutter_eq_iff
    refine ⟨?_, unbroken, snippet.feed_notMem_underline, Snippet.tilde_mem_underline wide, ?_, ?_⟩
    · rw [written, made, ← rows]
      simp only [Option.map_some, Option.getD_some, Snippet.text_plain, String.append_assoc]
      rfl
    · omega
    · omega

/-- In the second line of a text the underline starts below the range, after a tab. -/
theorem Session.underline_run_tabbed :
  (Session.run ⟨.new false, fun _ => none⟩ tabbedActions).source? tabbedItem = some tabbedText
    ∧ byteLength tabbedText.toList < UInt32.size
    ∧ (Session.run ⟨.new false, fun _ => none⟩ tabbedActions).written tabbedItem
      ≠ tabbedItem.heading false (some tabbedText)
    ∧ ∃ above lead marked rest, Marks tabbedText.toList 7 1000 above lead marked rest
      ∧ let snippet := Snippet.ofMarks above lead marked rest
        (snippet.indent ++ snippet.underline).idxOf '~'
          = (snippet.gutter ++ expandTabs lead).length
  := by
  have shown : (Session.run ⟨.new false, fun _ => none⟩ tabbedActions).written tabbedItem
      ≠ tabbedItem.heading false (some tabbedText) := by
    decide +kernel
  have short : byteLength tabbedText.toList < UInt32.size := by decide +kernel
  obtain ⟨-, above, lead, marked, rest, marks, -, -, -, -, -, aligned⟩ :=
    underline_run (fun _ => none) tabbedActions tabbedItem tabbedText source?_tabbed short shown
  obtain ⟨ending, below, line⟩ := marks.line
  have second : ((LineMap.ofText tabbedText.toList).position 7 tabbedText.toList).line = 1 := by
    decide +kernel
  have number : lineEnds above = 1 := by
    rw [← second]
    apply (line.line_position (marks.inLine ending)).symm
  use source?_tabbed, short, shown, above, lead, marked, rest, marks
  apply aligned.2
  omega

/-! ### Late lines -/

theorem lineStartsFrom_replicate_feed (offset n : Nat) :
  (lineStartsFrom offset (List.replicate n '\n')).length = n
  := by
  induction n generalizing offset with
  | zero => rfl
  | succ n ih => simp [List.replicate_succ, lineStartsFrom, ih]

theorem byteLength_replicate_feed (n : Nat) :
  byteLength (List.replicate n '\n') = n
  := by
  induction n with
  | zero => rfl
  | succ n ih =>
    rw [List.replicate_succ, byteLength, ih, Nat.add_comm]
    rfl

/-- A line below `n` empty lines. -/
theorem isLine_late (n : Nat) :
  IsLine (List.replicate n '\n' ++ ['x']) (List.replicate n '\n') ['x'] [] []
  where
  split := rfl
  start := by
    cases n with
    | zero => left; rfl
    | succ n =>
      right
      left
      rw [List.replicate_succ', List.getLast?_concat]
  unbroken := by simp [Unbroken]
  ends := .none

theorem marks_late (n : Nat) :
  Marks (List.replicate n '\n' ++ ['x']) n 1 (List.replicate n '\n') [] ['x'] []
  where
  line := ⟨[], [], isLine_late n⟩
  nonempty := Nat.one_pos
  begins := by rw [List.append_nil, byteLength_replicate_feed]
  ends := by
    have one : byteLength ['x'] = 1 := rfl
    simp only [List.nil_append, List.append_nil, byteLength_append, byteLength_replicate_feed, one,
      Nat.min_self]

/-- A text with a character in the line with the number 1000. -/
def lateText : String := String.ofList (List.replicate 999 '\n' ++ ['x'])

/-- The text is given for a file. -/
def lateActions : List Action := [.give "a.ts" lateText]

/-- The range of the character. -/
def lateItem : Item := ⟨some "a.ts", 999, 1, .error, 1, "m"⟩

/-- In the line with the number 1000 the underline starts one column before the range. -/
theorem Session.underline_left :
  (Session.run ⟨.new false, fun _ => none⟩ lateActions).source? lateItem = some lateText
    ∧ Marks lateText.toList 999 1 (List.replicate 999 '\n') [] ['x'] []
    ∧ (Session.run ⟨.new false, fun _ => none⟩ lateActions).written lateItem
      = "a.ts:1000:1 - error TS1: m" ++ "\n" ++ "  1000   x" ++ "\n" ++ "        ~"
    ∧ "        ~".toList.idxOf '~' = 8 ∧ "  1000   x".toList.idxOf 'x' = 9
  := by
  have known : (Session.run ⟨.new false, fun _ => none⟩ lateActions).source? lateItem
      = some lateText := by
    rfl
  have text : lateText.toList = List.replicate 999 '\n' ++ ['x'] := String.toList_ofList
  have marks : Marks lateText.toList 999 1 (List.replicate 999 '\n') [] ['x'] [] := by
    rw [text]
    apply marks_late
  have keeps := keepsUp_run false (fun _ => none) lateActions
  have number : lineEnds (List.replicate 999 '\n') = 999 := lineStartsFrom_replicate_feed 0 999
  have position : (LineMap.ofText lateText.toList).position 999 lateText.toList = ⟨999, 0⟩ := by
    have line : IsLine _ _ ([] ++ ['x']) [] [] := isLine_late 999
    have place := line.position
    rw [List.append_nil, byteLength_replicate_feed, number] at place
    rw [text, place]
    rfl
  have snippet : Snippet.ofMarks (List.replicate 999 '\n') [] ['x'] [] = ⟨1000, ['x'], 0, 1⟩ := by
    rw [Snippet.ofMarks, number]
    rfl
  refine ⟨known, marks, ?_, by decide, by decide⟩
  rw [written_of_source?_eq_some keeps.coherent known, keeps.color]
  have start : lateItem.start.toNat = 999 := rfl
  have length : lateItem.length = 1 := rfl
  rw [Item.heading, start, length, Reporter.snippet?_of_marks marks, snippet]
  simp only [Option.map_some, Option.getD_some, position]
  decide +kernel

end TypeAssertions.Report
