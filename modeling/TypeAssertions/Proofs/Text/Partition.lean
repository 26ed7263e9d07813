import TypeAssertions.Proofs.Text.Lines

/-!
# The lines of a text

A text is cut into lines, each with what ends it (`Lines`), in a way that loses nothing
(`Lines.flatMap_eq`).  The line map of the text has these lines (`Lines.lineText?`) and finds, for
an offset, the last of them that starts at or before it.
-/

namespace TypeAssertions.Text

/-- A text is a sequence of lines: each but the last is followed by one line end, and the last one
by nothing. -/
inductive Lines : List Char → List (List Char × List Char) → Prop
  | last {content : List Char} (unbroken : Unbroken content) : Lines content [(content, [])]
  | cons {content ending below : List Char} {lines : List (List Char × List Char)}
      (unbroken : Unbroken content) (ends : LineEnd ending below) (broken : ending ≠ [])
      (later : Lines below lines) :
      Lines (content ++ (ending ++ below)) ((content, ending) :: lines)

variable {text : List Char} {lines : List (List Char × List Char)}

theorem exists_lines (text : List Char) :
  ∃ lines, Lines text lines
  := by
  induction length : text.length using Nat.strong_induction_on generalizing text with
  | h n ih =>
    obtain ⟨content, ending, below, rfl, unbroken, ends⟩ := exists_lineEnd text
    by_cases broken : ending = []
    · subst broken
      cases ends
      use [(content, [])]
      rw [List.append_nil, List.append_nil]
      apply Lines.last unbroken
    · have shorter : below.length < n := by
        have := List.length_pos_of_ne_nil broken
        simp only [List.length_append] at length
        omega
      obtain ⟨lines, later⟩ := ih _ shorter below rfl
      use (content, ending) :: lines
      apply Lines.cons unbroken ends broken later

/-- Below a line that something ends there is one line end more. -/
theorem IsLine.lineEnds_append {above content ending below : List Char}
    (line : IsLine text above content ending below) (broken : ending ≠ []) :
  lineEnds (above ++ (content ++ ending)) = lineEnds above + 1
  := by
  have next := line.ends.lineStart broken (above ++ content)
  have starts := line.starts_eq
  rw [line.ends.lineStartsFrom broken, ← byteLength_append, List.append_assoc above] at starts
  have all : (LineMap.ofText text).starts
      = 0 :: lineStartsFrom 0 (above ++ content ++ ending ++ below) := by
    rw [line.split]
    simp only [List.append_assoc]
    rfl
  rw [all, lineStartsFrom_append 0 next.whole, List.append_assoc above, Nat.zero_add] at starts
  have count := congrArg List.length starts
  simp only [List.length_cons, List.length_append] at count
  rw [lineEnds, lineEnds]
  omega

namespace Lines

theorem flatMap_eq (h : Lines text lines) :
  (lines.flatMap fun line => line.1 ++ line.2) = text
  := by
  induction h with
  | last => simp
  | cons _ _ _ _ ih => rw [List.flatMap_cons, ih, List.append_assoc]

theorem unbroken_of_mem (h : Lines text lines) {line : List Char × List Char}
    (member : line ∈ lines) :
  Unbroken line.1
  := by
  induction h with
  | last unbroken =>
    obtain rfl := List.mem_singleton.1 member
    apply unbroken
  | cons unbroken _ _ _ ih =>
    rcases List.mem_cons.1 member with rfl | member
    · apply unbroken
    · apply ih member

theorem length_eq (h : Lines text lines) (offset : Nat) :
  lines.length = (lineStartsFrom offset text).length + 1
  := by
  induction h generalizing offset with
  | @last content unbroken =>
    have starts := lineStartsFrom_unbroken unbroken offset []
    rw [List.append_nil] at starts
    rw [starts]
    rfl
  | cons unbroken ends broken _ ih =>
    rw [lineStartsFrom_unbroken unbroken, ends.lineStartsFrom broken, List.length_cons,
      List.length_cons, ih]

/-- Below the start of a line, the lines are those of the rest of the text. -/
theorem exists_isLine (h : Lines text lines) {above : List Char} (start : LineStart above text)
    {n : Nat} {content ending : List Char} (found : lines[n]? = some (content, ending)) :
  ∃ before below, IsLine (above ++ text) before content ending below
    ∧ lineEnds before = lineEnds above + n
  := by
  induction h generalizing above n with
  | @last first unbroken =>
    obtain ⟨rfl, rfl, rfl⟩ : n = 0 ∧ first = content ∧ [] = ending := by
      simpa [List.getElem?_singleton] using found
    use above, []
    refine ⟨⟨?_, ?_, unbroken, .none⟩, rfl⟩
    · simp
    · simpa using start
  | @cons first ends_with below lines unbroken ends broken later ih =>
    have line : IsLine _ above first ends_with below := ⟨rfl, start, unbroken, ends⟩
    cases n with
    | zero =>
      obtain ⟨rfl, rfl⟩ := Prod.mk.inj (Option.some.inj found)
      use above, below, line
      rfl
    | succ n =>
      obtain ⟨before, rest, further, number⟩ := ih (ends.lineStart broken (above ++ first)) found
      use before, rest
      constructor
      · simpa only [List.append_assoc] using further
      · rw [number, List.append_assoc, line.lineEnds_append broken]
        omega

theorem lineText? (h : Lines text lines) (n : Nat) :
  (LineMap.ofText text).lineText? n text = lines[n]?.map Prod.fst
  := by
  cases found : lines[n]? with
  | some line =>
    obtain ⟨before, below, line, number⟩ := h.exists_isLine (.inl rfl) found
    have first : lineEnds [] + n = n := Nat.zero_add n
    rw [List.nil_append] at line
    rw [← first, ← number, line.lineText?]
    rfl
  | none =>
    have beyond : (LineMap.ofText text).lineStart? n = none := by
      rw [LineMap.lineStart?, List.getElem?_eq_none_iff]
      rw [List.getElem?_eq_none_iff, h.length_eq 0] at found
      apply found
    rw [LineMap.lineText?, beyond]
    rfl

end Lines

/-! ### Lines of offsets -/

theorem countP_eq_length_takeWhile {l : List Nat} (increasing : l.Pairwise (· < ·))
    (offset : Nat) :
  l.countP (· ≤ offset) = (l.takeWhile (· ≤ offset)).length
  := by
  induction l with
  | nil => rfl
  | cons start l ih =>
    obtain ⟨later, increasing⟩ := List.pairwise_cons.1 increasing
    by_cases reached : start ≤ offset
    · rw [List.countP_cons_of_pos (by simpa using reached),
        List.takeWhile_cons_of_pos (by simpa using reached), ih increasing, List.length_cons]
    · rw [List.takeWhile_cons_of_neg (by simpa using reached), List.length_nil, List.countP_eq_zero]
      intro other member
      rcases List.mem_cons.1 member with rfl | member
      · simpa using reached
      · have := later other member
        simp only [decide_eq_true_eq]
        omega

namespace LineMap

/-- The lines up to that of an offset are all lines that start at or before it. -/
theorem countP_starts (m : LineMap) (offset : Nat) :
  m.starts.countP (· ≤ offset) = m.lineOf offset + 1
  := by
  have first := m.length_takeWhile_starts_pos offset
  rw [countP_eq_length_takeWhile m.increasing, lineOf]
  omega

/-- The line map of a text of fewer than 2³² bytes cuts it into lines: they start one after the
other, from the start of the text on, at boundaries that fit 32 bits; each has its content as its
text, which no line feed and no carriage return is part of; and the contents, each but the last with
one line end after it, make up the text.  For every offset some line starts at or before it, and
the line of the offset is the last one that does. -/
theorem lines_partition (text : List Char) (short : byteLength text < UInt32.size) :
  let m := ofText text
  m.lineStart? 0 = some 0
    ∧ m.starts.Pairwise (· < ·)
    ∧ (∀ start ∈ m.starts, IsBoundary text start ∧ start ≤ byteLength text ∧ start < UInt32.size)
    ∧ (∀ line, (m.lineText? line text).isSome = true ↔ line < m.starts.length)
    ∧ (∀ line content, m.lineText? line text = some content → '\n' ∉ content ∧ '\r' ∉ content)
    ∧ (∃ lines, Lines text lines
      ∧ (∀ line, m.lineText? line text = lines[line]?.map Prod.fst)
      ∧ (lines.flatMap fun line => line.1 ++ line.2) = text)
    ∧ ∀ offset, m.starts.countP (· ≤ offset) = m.lineOf offset + 1
      ∧ m.lineOf offset < m.starts.length
      ∧ ∀ line start, m.lineStart? line = some start → (start ≤ offset ↔ line ≤ m.lineOf offset)
  := by
  intro m
  obtain ⟨lines, cut⟩ := exists_lines text
  have texts (line : Nat) := cut.lineText? line
  refine ⟨rfl, m.increasing, ?_, ?_, ?_, ⟨lines, cut, texts, cut.flatMap_eq⟩, ?_⟩
  · intro start member
    have boundary := isBoundary_of_mem_starts member
    use boundary, boundary.le
    apply Nat.lt_of_le_of_lt boundary.le short
  · intro line
    rw [texts, Option.isSome_map, isSome_getElem?, cut.length_eq 0]
    rfl
  · intro line content found
    rw [texts, Option.map_eq_some_iff] at found
    obtain ⟨cut_off, member, rfl⟩ := found
    have unbroken := cut.unbroken_of_mem (List.mem_of_getElem? member)
    constructor
    · intro feed
      apply (unbroken _ feed).1 rfl
    · intro carriage
      apply (unbroken _ carriage).2 rfl
  · intro offset
    use m.countP_starts offset, m.lineOf_lt offset
    intro line start found
    obtain ⟨known, rfl⟩ := List.getElem?_eq_some_iff.1 found
    apply m.getElem_le_iff offset known

/-- A text with all line ends next to each other, and with one at its end. -/
def brokenText : List Char := ['é', '\r', '\r', '\n', '\n', '\r', 'x', '\r', '\n']

/-- A carriage return before another line end ends a line of its own, the two together end one line,
and after the last line end there is one more line. -/
theorem lines_partition_blank :
  byteLength brokenText < UInt32.size
    ∧ (ofText brokenText).starts = [0, 3, 5, 6, 7, 10]
    ∧ (∃ lines, Lines brokenText lines ∧ lines[1]?.map Prod.fst = some []
      ∧ lines[4]?.map Prod.fst = some ['x'] ∧ lines[5]?.map Prod.fst = some [])
    ∧ (ofText brokenText).lineOf 4 = 1
    ∧ (ofText brokenText).starts.countP (· ≤ 4) = 2
  := by
  have short : byteLength brokenText < UInt32.size := by decide
  obtain ⟨-, -, -, -, -, ⟨lines, cut, texts, -⟩, found⟩ := lines_partition brokenText short
  have line : (ofText brokenText).lineOf 4 = 1 := by decide
  refine ⟨short, by decide, ⟨lines, cut, ?_, ?_, ?_⟩, line, ?_⟩
  · rw [← texts]
    decide
  · rw [← texts]
    decide
  · rw [← texts]
    decide
  · rw [(found 4).1, line]

end LineMap

end TypeAssertions.Text
