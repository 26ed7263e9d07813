import TypeAssertions.Proofs.Report.Caches
import TypeAssertions.Proofs.Text.Lines

/-!
# Snippets

A range of a text is shown in the line that it starts in: `lead` comes before it there, and `marked`
is what it covers of the line (`Marks`).  A snippet is made exactly of this
(`Reporter.snippet?_eq_some_iff`), and there is one exactly when the range is not empty, starts
between two characters of its line, and ends between two characters or is cut off there with the
line (`exists_marks_iff`).  `Session.written_run` says what is written for any item in any session.
-/

namespace TypeAssertions.Report

open Text

variable {text above content ending below lead marked rest : List Char} {start length : Nat}

/-! ### Ranges in lines -/

/-- A range that is not empty starts in a line after `lead` and covers `marked` of it. -/
structure Marks (text : List Char) (start length : Nat) (above lead marked rest : List Char) :
    Prop where
  line : ∃ ending below, IsLine text above (lead ++ (marked ++ rest)) ending below
  nonempty : 0 < length
  begins : byteLength (above ++ lead) = start
  ends : byteLength (above ++ (lead ++ marked))
    = min (start + length) (byteLength (above ++ (lead ++ (marked ++ rest))))

theorem Marks.inLine (marks : Marks text start length above lead marked rest)
    (ending : List Char) :
  InLine above (lead ++ (marked ++ rest)) ending start
  := by
  rw [← marks.begins]
  apply inLine_of_le <;> simp only [byteLength_append] <;> omega

/-- The line of a range shows it exactly when this starts in the content of the line, and starts
and ends, or is cut off with the line, between two characters. -/
theorem exists_marks_iff (line : IsLine text above content ending below)
    (inside : InLine above content ending start) :
  (∃ lead marked rest, content = lead ++ (marked ++ rest)
      ∧ Marks text start length above lead marked rest)
    ↔ 0 < length ∧ IsBoundary text start ∧ start ≤ byteLength (above ++ content)
      ∧ IsBoundary text (min (start + length) (byteLength (above ++ content)))
  := by
  have split := line.split
  rw [← List.append_assoc] at split
  constructor
  · rintro ⟨lead, marked, rest, rfl, marks⟩
    refine ⟨marks.nonempty, ?_, ?_, ?_⟩
    · use above ++ lead, marked ++ rest ++ (ending ++ below)
      refine ⟨?_, marks.begins⟩
      rw [split]
      simp only [List.append_assoc]
    · rw [← marks.begins, byteLength_append, byteLength_append, byteLength_append lead]
      omega
    · use above ++ (lead ++ marked), rest ++ (ending ++ below)
      refine ⟨?_, marks.ends⟩
      rw [split]
      simp only [List.append_assoc]
  · -- the cuts at the start of the line, at both ends of the range and at the end of the content
    -- follow each other
    rintro ⟨nonempty, ⟨before, after, cut, rfl⟩, within, ⟨upto, beyond, cut', stop⟩⟩
    have order : byteLength before ≤ byteLength upto := by omega
    have order' : byteLength upto ≤ byteLength (above ++ content) := by omega
    obtain ⟨lead, rfl, -⟩ := exists_append_of_byteLength_le (line.split.symm.trans cut) inside.1
    obtain ⟨marked, rfl, -⟩ := exists_append_of_byteLength_le (cut.symm.trans cut') order
    obtain ⟨rest, whole, -⟩ := exists_append_of_byteLength_le (cut'.symm.trans split) order'
    obtain rfl : content = lead ++ (marked ++ rest) := by
      simpa only [List.append_assoc, List.append_cancel_left_eq] using whole
    use lead, marked, rest, rfl
    refine ⟨⟨ending, below, line⟩, nonempty, rfl, ?_⟩
    rw [← stop, List.append_assoc]

/-! ### Snippets of ranges -/

/-- The snippet of a range in a line. -/
def Snippet.ofMarks (above lead marked rest : List Char) : Snippet where
  number := lineEnds above + 1
  line := expandTabs (lead ++ (marked ++ rest))
  lead := (expandTabs lead).length
  width := max 1 (expandTabs marked).length

namespace Reporter

/-- A snippet is made of two slices of the line that holds the start of the range. -/
theorem snippet?_of_isLine (line : IsLine text above content ending below)
    (inside : InLine above content ending start) (length : Nat) :
  snippet? text (LineMap.ofText text) start length
    = if length = 0 then none
      else (slice? (byteLength above) start text).bind fun lead =>
        (slice? start (min (start + length) (byteLength (above ++ content))) text).map fun marked =>
          ⟨lineEnds above + 1, expandTabs content, (expandTabs lead).length,
            max 1 (expandTabs marked).length⟩
  := by
  rw [snippet?]
  by_cases empty : length = 0
  · rw [if_pos empty, guard, if_neg (not_not_intro empty)]
    rfl
  · rw [if_neg empty, guard, if_pos empty]
    simp only [line.line_position inside, line.lineStart?, line.lineText?, byteLength_append,
      Option.map_eq_bind]
    rfl

theorem snippet?_of_marks (marks : Marks text start length above lead marked rest) :
  snippet? text (LineMap.ofText text) start length
    = some (Snippet.ofMarks above lead marked rest)
  := by
  obtain ⟨ending, below, line⟩ := marks.line
  have first : slice? (byteLength above) start text = some lead := by
    rw [slice?_eq_some_iff]
    use above, marked ++ rest ++ (ending ++ below)
    rw [line.split, ← marks.begins]
    simp only [List.append_assoc, and_self]
  have second : slice? start
      (min (start + length) (byteLength (above ++ (lead ++ (marked ++ rest))))) text
      = some marked := by
    rw [slice?_eq_some_iff]
    use above ++ lead, rest ++ (ending ++ below)
    rw [line.split, ← marks.ends, marks.begins]
    simp only [List.append_assoc, and_self]
  rw [snippet?_of_isLine line (marks.inLine ending), if_neg (Nat.ne_of_gt marks.nonempty), first,
    second]
  rfl

/-- There is a snippet only of a range that its line shows. -/
theorem of_snippet?_eq_some {snippet : Snippet} (line : IsLine text above content ending below)
    (inside : InLine above content ending start)
    (made : snippet? text (LineMap.ofText text) start length = some snippet) :
  0 < length ∧ IsBoundary text start ∧ start ≤ byteLength (above ++ content)
    ∧ IsBoundary text (min (start + length) (byteLength (above ++ content)))
  := by
  rw [snippet?_of_isLine line inside] at made
  split at made
  case isTrue => cases made
  case isFalse nonempty =>
    obtain ⟨lead, -, made⟩ := Option.bind_eq_some_iff.1 made
    obtain ⟨marked, slice, -⟩ := Option.map_eq_some_iff.1 made
    obtain ⟨order, begins, ends⟩ := isSome_slice?_iff.1 (Option.isSome_of_eq_some slice)
    refine ⟨Nat.pos_of_ne_zero nonempty, begins, ?_, ends⟩
    omega

/-- A snippet shows a range in the line that it starts in. -/
theorem snippet?_eq_some_iff {snippet : Snippet} :
  snippet? text (LineMap.ofText text) start length = some snippet
    ↔ ∃ above lead marked rest, Marks text start length above lead marked rest
      ∧ snippet = Snippet.ofMarks above lead marked rest
  := by
  constructor
  · intro made
    obtain ⟨above, content, ending, below, line, inside⟩ := exists_isLine text start
    obtain ⟨lead, marked, rest, -, marks⟩ :=
      (exists_marks_iff line inside).2 (of_snippet?_eq_some line inside made)
    rw [snippet?_of_marks marks] at made
    use above, lead, marked, rest, marks, (Option.some.inj made).symm
  · rintro ⟨above, lead, marked, rest, marks, rfl⟩
    apply snippet?_of_marks marks

end Reporter

/-! ### Rows -/

theorem expandTabs_append (cs ds : List Char) :
  expandTabs (cs ++ ds) = expandTabs cs ++ expandTabs ds
  := List.flatMap_append

namespace Snippet

theorem line_ofMarks (above lead marked rest : List Char) :
  (ofMarks above lead marked rest).line = expandTabs lead ++ expandTabs (marked ++ rest)
  := expandTabs_append lead (marked ++ rest)

@[simp]
theorem length_gutter (s : Snippet) :
  s.gutter.length = 5 + max 3 (Nat.toDigits 10 s.number).length
  := by
  simp only [gutter, padLeft, List.length_append, List.length_cons, List.length_nil,
    List.length_replicate]
  omega

@[simp]
theorem length_indent (s : Snippet) :
  s.indent.length = 8 + s.lead
  := List.length_replicate

@[simp]
theorem length_underline (s : Snippet) :
  s.underline.length = s.width
  := List.length_replicate

/-- The underline ends at most one column after the line. -/
theorem length_underline_le (above lead marked rest : List Char) :
  let s := ofMarks above lead marked rest
  s.indent.length + s.underline.length ≤ s.sourceRow.length + 1
  := by
  intro s
  have line : s.line = expandTabs lead ++ (expandTabs marked ++ expandTabs rest) := by
    rw [line_ofMarks, expandTabs_append marked]
  have blanks : s.lead = (expandTabs lead).length := rfl
  have width : s.width = max 1 (expandTabs marked).length := rfl
  rw [length_indent, length_underline, sourceRow, List.length_append, length_gutter, line, blanks,
    width, List.length_append, List.length_append]
  omega

end Snippet

/-! ### What is written -/

/-- What is written for an item before its snippet. -/
def Item.heading (item : Item) (color : Bool) (source : Option String) : String :=
  let place := source.map fun source =>
    ":" ++ ((LineMap.ofText source.toList).position item.start.toNat source.toList).text
  item.named?.getD "<global>" ++ place.getD "" ++ " - " ++ Reporter.headline color item

namespace Session

/-- The source of the file that an item is about, if the session has one. -/
def source? (s : Session) (item : Item) : Option String :=
  item.named?.bind (s.reporter.source? s.disk)

/-- An item as it is written. -/
def written (s : Session) (item : Item) : String := (s.reporter.write s.disk item).1

variable {s : Session} {item : Item} {source : String}

theorem written_of_source?_eq_none (coherent : s.reporter.Coherent)
    (missing : s.source? item = none) :
  s.written item = item.heading s.reporter.color none
  := by
  rw [source?] at missing
  rw [written]
  cases named : item.named? with
  | none =>
    rw [Reporter.write_of_unnamed named, Item.heading, named]
    rfl
  | some file =>
    rw [named, Option.bind_some] at missing
    rw [Reporter.fst_write coherent named, missing, Item.heading, named]
    simp [Reporter.written]

/-- An item about a source is written with the snippet that there is of its range. -/
theorem written_of_source?_eq_some (coherent : s.reporter.Coherent)
    (known : s.source? item = some source) :
  s.written item = item.heading s.reporter.color (some source)
    ++ ((Reporter.snippet? source.toList (LineMap.ofText source.toList) item.start.toNat
      item.length).map fun snippet => snippet.text s.reporter.color).getD ""
  := by
  obtain ⟨file, named, known⟩ := Option.bind_eq_some_iff.1 known
  rw [written, Reporter.fst_write coherent named, known, Item.heading, named]
  simp only [Reporter.written, Reporter.mapped, Option.map_some, Option.getD_some,
    String.append_assoc]
  rfl

end Session

/-- What is worked out for a range stays in bounds: the search for its line finds one of the lines,
and the numbers of lines, columns and bytes fit the words that they are kept in.  The line and the
column fit them as they are written, counted from one, too, unless the position is that of the
last offset of 32 bits. -/
structure Fits (text : List Char) (start length : Nat) : Prop where
  starts : ∀ lineStart ∈ (LineMap.ofText text).starts, lineStart < UInt32.size
  found : ∀ offset, 0 < ((LineMap.ofText text).starts.takeWhile (· ≤ offset)).length
  index : ∀ offset, (LineMap.ofText text).lineOf offset < (LineMap.ofText text).starts.length
  line : ((LineMap.ofText text).position start text).line < UInt32.size
  column : ((LineMap.ofText text).position start text).column < UInt32.size
  place : min start (byteLength text) + 1 < UInt32.size →
    ((LineMap.ofText text).position start text).line + 1 < UInt32.size
      ∧ ((LineMap.ofText text).position start text).column + 1 < UInt32.size
  stop : start + length < UInt64.size

theorem starts_lt_of_short (short : byteLength text < UInt32.size) :
  ∀ lineStart ∈ (LineMap.ofText text).starts, lineStart < UInt32.size
  := by
  intro lineStart member
  apply Nat.lt_of_le_of_lt (LineMap.isBoundary_of_mem_starts member).le short

theorem fits_of_short (short : byteLength text < UInt32.size) (low : start < UInt32.size)
    (range : length < UInt32.size) :
  Fits text start length
  where
  starts := starts_lt_of_short short
  found := (LineMap.ofText text).length_takeWhile_starts_pos
  index := (LineMap.ofText text).lineOf_lt
  line := by
    have := (LineMap.ofText text).line_add_column_le start text
    omega
  column := by
    have := (LineMap.ofText text).line_add_column_le start text
    omega
  place := by
    have := (LineMap.ofText text).line_add_column_le start text
    omega
  stop := by
    have : UInt32.size + UInt32.size ≤ UInt64.size := by decide
    omega

/-- In any session, an item about no source is written without a snippet.  An item about a source of
fewer than 2³² bytes is written within bounds.  It has a snippet exactly when its range is not
empty, starts in the content of its line, and starts and ends, or is cut off with the line, between
two characters; the row below the line then has a blank for each character before the range, and a
tilde for each character of it in the line, with tabs spelled out, and ends at most one column after
the line. -/
theorem Session.written_run (color : Bool) (disk : String → Option String) (actions : List Action)
    (item : Item) (range : item.length < UInt32.size)
    (short : ∀ source, (Session.run ⟨.new color, disk⟩ actions).source? item = some source →
      byteLength source.toList < UInt32.size) :
  let s := Session.run ⟨.new color, disk⟩ actions
  match s.source? item with
  | none => s.written item = item.heading color none
  | some source =>
    let text := source.toList
    let start := item.start.toNat
    Fits text start item.length
      ∧ ∃ above content ending below, IsLine text above content ending below
        ∧ InLine above content ending start
        ∧ let stop := min (start + item.length) (byteLength (above ++ content))
          if 0 < item.length ∧ IsBoundary text start ∧ start ≤ byteLength (above ++ content)
            ∧ IsBoundary text stop
          then ∃ lead marked rest, content = lead ++ (marked ++ rest)
            ∧ byteLength (above ++ lead) = start ∧ byteLength (above ++ (lead ++ marked)) = stop
            ∧ let snippet := Snippet.ofMarks above lead marked rest
              s.written item = item.heading color (some source) ++ snippet.text color
                ∧ snippet.indent.length = 8 + (expandTabs lead).length
                ∧ snippet.underline.length = max 1 (expandTabs marked).length
                ∧ snippet.indent.length + snippet.underline.length ≤ snippet.sourceRow.length + 1
          else s.written item = item.heading color (some source)
  := by
  intro s
  have keeps : s.reporter.KeepsUp color _ := keepsUp_run color disk actions
  split
  case h_1 missing =>
    rw [← keeps.color]
    apply written_of_source?_eq_none keeps.coherent missing
  case h_2 source known =>
    intro text start
    have written := written_of_source?_eq_some keeps.coherent known
    rw [keeps.color] at written
    use fits_of_short (short source known) item.start.toNat_lt_size range
    obtain ⟨above, content, ending, below, line, inside⟩ := exists_isLine text start
    use above, content, ending, below, line, inside
    intro stop
    split
    case isTrue shown =>
      obtain ⟨lead, marked, rest, rfl, marks⟩ := (exists_marks_iff line inside).2 shown
      rw [Reporter.snippet?_of_marks marks] at written
      use lead, marked, rest, rfl, marks.begins, marks.ends, written, Snippet.length_indent _,
        Snippet.length_underline _
      apply Snippet.length_underline_le
    case isFalse hidden =>
      have none : Reporter.snippet? text (LineMap.ofText text) start item.length = none := by
        rw [Option.eq_none_iff_forall_ne_some]
        intro snippet made
        apply hidden (Reporter.of_snippet?_eq_some line inside made)
      rw [none] at written
      simpa using written

/-- A text with a tab, with characters of two and of four bytes, and with two kinds of line ends. -/
def tabbedText : String := "é\n\tg('😀');\r\nz"

/-- The text is given for a file. -/
def tabbedActions : List Action := [.give "a.ts" tabbedText]

/-- A range that starts in the second line of the text and ends beyond the text. -/
def tabbedItem : Item := ⟨some "a.ts", 7, 1000, .error, 2, "m"⟩

theorem source?_tabbed :
  (Session.run ⟨.new false, fun _ => none⟩ tabbedActions).source? tabbedItem = some tabbedText
  := by
  decide +kernel

/-- The underline ends with the line, and starts after the four blanks for the tab. -/
theorem Session.written_run_tabbed :
  tabbedItem.length < UInt32.size
    ∧ (∀ source, (Session.run ⟨.new false, fun _ => none⟩ tabbedActions).source? tabbedItem
      = some source → byteLength source.toList < UInt32.size)
    ∧ Fits tabbedText.toList 7 1000
    ∧ (Session.run ⟨.new false, fun _ => none⟩ tabbedActions).written tabbedItem
      = "a.ts:2:5 - error TS2: m\n    2       g('😀');\n               ~~~~"
  := by
  have range : tabbedItem.length < UInt32.size := by decide
  have short : ∀ source, (Session.run ⟨.new false, fun _ => none⟩ tabbedActions).source? tabbedItem
      = some source → byteLength source.toList < UInt32.size := by
    intro source known
    obtain rfl := Option.some.inj (source?_tabbed.symm.trans known)
    decide +kernel
  have result := written_run false (fun _ => none) tabbedActions tabbedItem range short
  simp only [source?_tabbed] at result
  refine ⟨range, short, result.1, ?_⟩
  decide +kernel

end TypeAssertions.Report
