import Mathlib.Data.List.Infix
import TypeAssertions.Proofs.Text.Slices
import TypeAssertions.Text.LineMap

/-!
# Positions

The line of an offset is the last one that starts at or before it (`LineMap.getElem_le_iff`), and
the column of a boundary is the number of UTF-16 units between the two.  So positions increase with
the boundaries of a text, and a boundary is found again from its position: `LineMap.offset?` counts
the units of the column off from the start of the line (`LineMap.position_faithful`).
-/

namespace TypeAssertions.Text

/-! ### Lines of offsets -/

theorem lt_length_takeWhile_iff {l : List Nat} (increasing : l.Pairwise (· < ·)) (offset : Nat)
    {n : Nat} (h : n < l.length) :
  n < (l.takeWhile (· ≤ offset)).length ↔ l[n] ≤ offset
  := by
  induction l generalizing n with
  | nil => cases h
  | cons start l ih =>
    rw [List.pairwise_cons] at increasing
    by_cases reached : start ≤ offset
    · rw [List.takeWhile_cons_of_pos (by simpa using reached)]
      cases n with
      | zero => simpa using reached
      | succ n => simpa using ih increasing.2 (Nat.lt_of_succ_lt_succ h)
    · rw [List.takeWhile_cons_of_neg (by simpa using reached)]
      simp only [List.length_nil, Nat.not_lt_zero, false_iff]
      cases n with
      | zero => simpa using reached
      | succ n =>
        have later := increasing.1 _ (List.getElem_mem (Nat.lt_of_succ_lt_succ h))
        rw [List.getElem_cons_succ]
        omega

namespace LineMap

theorem length_starts_pos (m : LineMap) :
  0 < m.starts.length
  := Nat.zero_lt_of_lt (m.lineOf_lt 0)

theorem getElem_zero_starts (m : LineMap) (h : 0 < m.starts.length) :
  m.starts[0] = 0
  := by
  have first := m.first
  rw [List.head?_eq_getElem?, List.getElem?_eq_getElem h] at first
  apply Option.some.inj first

/-- Some line starts at or before an offset. -/
theorem length_takeWhile_starts_pos (m : LineMap) (offset : Nat) :
  0 < (m.starts.takeWhile (· ≤ offset)).length
  := by
  rw [lt_length_takeWhile_iff m.increasing offset m.length_starts_pos, m.getElem_zero_starts]
  apply Nat.zero_le

/-- The lines up to that of an offset are those that start at or before it. -/
theorem getElem_le_iff (m : LineMap) (offset : Nat) {line : Nat} (h : line < m.starts.length) :
  m.starts[line] ≤ offset ↔ line ≤ m.lineOf offset
  := by
  have first := m.length_takeWhile_starts_pos offset
  rw [← lt_length_takeWhile_iff m.increasing offset h, lineOf]
  omega

theorem lineStart?_lineOf (m : LineMap) (offset : Nat) :
  m.lineStart? (m.lineOf offset) = some (m.startOf offset)
  := List.getElem?_eq_getElem (m.lineOf_lt offset)

theorem startOf_le (m : LineMap) (offset : Nat) :
  m.startOf offset ≤ offset
  := (m.getElem_le_iff offset (m.lineOf_lt offset)).2 (Nat.le_refl _)

theorem startOf_mem (m : LineMap) (offset : Nat) :
  m.startOf offset ∈ m.starts
  := List.get_mem _ _

theorem startOf_congr {m : LineMap} {a b : Nat} (same : m.lineOf a = m.lineOf b) :
  m.startOf a = m.startOf b
  := by
  simp only [startOf, same]

theorem lineOf_mono (m : LineMap) {a b : Nat} (h : a ≤ b) :
  m.lineOf a ≤ m.lineOf b
  := by
  rw [← m.getElem_le_iff b (m.lineOf_lt a)]
  apply Nat.le_trans (m.startOf_le a) h

/-- Each line starts at least one byte after the one before it. -/
theorem lineOf_le_startOf (m : LineMap) (offset : Nat) :
  m.lineOf offset ≤ m.startOf offset
  := by
  have each : ∀ line, ∀ h : line < m.starts.length, line ≤ m.starts[line] := by
    intro line
    induction line with
    | zero =>
      intro
      apply Nat.zero_le
    | succ line ih =>
      intro h
      have before := ih (Nat.lt_of_succ_lt h)
      have := List.pairwise_iff_getElem.1 m.increasing line (line + 1) (Nat.lt_of_succ_lt h) h
        (Nat.lt_succ_self line)
      omega
  apply each

/-! ### Positions of boundaries -/

theorem exists_of_mem_lineStartsFrom {offset start : Nat} {cs : List Char}
    (h : start ∈ lineStartsFrom offset cs) :
  ∃ before after, cs = before ++ after ∧ offset + byteLength before = start
  := by
  induction cs generalizing offset with
  | nil => cases h
  | cons c cs ih =>
    have later : start ∈ lineStartsFrom (offset + c.utf8Size) cs →
        ∃ before after, c :: cs = before ++ after ∧ offset + byteLength before = start := by
      intro member
      obtain ⟨before, after, rfl, bytes⟩ := ih member
      use c :: before, after, rfl
      simp only [byteLength]
      omega
    simp only [lineStartsFrom] at h
    split at h
    · rcases List.mem_cons.1 h with rfl | member
      · use [c], cs, rfl
        simp [byteLength]
      · apply later member
    · apply later h

theorem isBoundary_of_mem_starts {text : List Char} {start : Nat}
    (h : start ∈ (ofText text).starts) :
  IsBoundary text start
  := by
  rcases List.mem_cons.1 h with rfl | member
  · use [], text, rfl
    rfl
  · obtain ⟨before, after, split, bytes⟩ := exists_of_mem_lineStartsFrom member
    use before, after, split
    omega

/-- The column of a boundary counts the units from the start of its line. -/
theorem position_append (before after : List Char) :
  ∃ above lead, before = above ++ lead
    ∧ byteLength above = (ofText (before ++ after)).startOf (byteLength before)
    ∧ (ofText (before ++ after)).position (byteLength before) (before ++ after)
      = ⟨(ofText (before ++ after)).lineOf (byteLength before), units16 lead⟩
  := by
  have order := (ofText (before ++ after)).startOf_le (byteLength before)
  obtain ⟨above, rest, split, bytes⟩ :=
    isBoundary_of_mem_starts ((ofText (before ++ after)).startOf_mem (byteLength before))
  rw [← bytes] at order
  obtain ⟨lead, rfl, rfl⟩ := exists_append_of_byteLength_le split.symm order
  have inside : min (byteLength (above ++ lead)) (byteLength (above ++ lead ++ after))
      = byteLength (above ++ lead) := by
    rw [byteLength_append (above ++ lead)]
    omega
  have slice : slice? (byteLength above) (byteLength (above ++ lead)) (above ++ lead ++ after)
      = some lead := by
    rw [slice?_eq_some_iff]
    use above, after, List.append_assoc _ _ _
  use above, lead, rfl, bytes
  simp only [position, inside, ← bytes, slice, Option.map_some, Option.getD_some]

theorem position_lt_position {text : List Char} {a b : Nat} (ha : IsBoundary text a)
    (hb : IsBoundary text b) (less : a < b) :
  (ofText text).position a text < (ofText text).position b text
  := by
  obtain ⟨before, after, rfl, rfl⟩ := ha
  obtain ⟨before', after', same, rfl⟩ := hb
  obtain ⟨m, rfl, rfl⟩ := exists_append_of_byteLength_le same (Nat.le_of_lt less)
  obtain ⟨above, lead, rfl, start, position⟩ := position_append before (m ++ after')
  obtain ⟨above', lead', split, start', position'⟩ := position_append (above ++ lead ++ m) after'
  rw [← same] at start' position'
  rw [position, position']
  rcases Nat.lt_or_eq_of_le (lineOf_mono _ (Nat.le_of_lt less)) with above_it | in_line
  · left
    apply above_it
  · -- in one line the later boundary has more units before it
    right
    use in_line
    rw [← startOf_congr in_line, ← start] at start'
    rw [List.append_assoc] at split
    obtain ⟨-, rfl⟩ := append_inj_of_byteLength split start'.symm
    have more : units16 m ≠ 0 := by
      rw [Ne, units16_eq_zero_iff]
      rintro rfl
      simp at less
    rw [units16_append]
    apply Nat.lt_add_of_pos_right (Nat.pos_of_ne_zero more)

/-! ### Offsets of positions -/

/-- The offset of a position: the start of its line, and the bytes of the part of the text from
there on that has as many UTF-16 units as its column. -/
def offset? (m : LineMap) (p : Position) (text : List Char) : Option Nat := do
  let start ← m.lineStart? p.line
  let rest ← dropBytes? start text
  let lead ← rest.inits.find? fun lead => units16 lead = p.column
  return start + byteLength lead

theorem eq_of_units16_eq {text lead lead' : List Char} (h : lead <+: text) (h' : lead' <+: text)
    (same : units16 lead = units16 lead') :
  lead = lead'
  := by
  rcases List.prefix_or_prefix_of_prefix h h' with ⟨m, rfl⟩ | ⟨m, rfl⟩
  · rw [units16_append, Nat.left_eq_add, units16_eq_zero_iff] at same
    rw [same, List.append_nil]
  · rw [units16_append, Nat.add_eq_left, units16_eq_zero_iff] at same
    rw [same, List.append_nil]

theorem find?_inits {text lead : List Char} (h : lead <+: text) :
  (text.inits.find? fun part => units16 part = units16 lead) = some lead
  := by
  cases found : text.inits.find? fun part => units16 part = units16 lead with
  | none =>
    rw [List.find?_eq_none] at found
    have := found lead ((List.mem_inits _ _).2 h)
    simp at this
  | some part =>
    have units : units16 part = units16 lead := by simpa using List.find?_some found
    have inside : part <+: text := (List.mem_inits _ _).1 (List.mem_of_find?_eq_some found)
    rw [eq_of_units16_eq inside h units]

theorem offset?_position {text : List Char} {offset : Nat} (h : IsBoundary text offset) :
  (ofText text).offset? ((ofText text).position offset text) text = some offset
  := by
  obtain ⟨before, after, rfl, rfl⟩ := h
  obtain ⟨above, lead, rfl, start, position⟩ := position_append before after
  have rest : dropBytes? (byteLength above) (above ++ lead ++ after) = some (lead ++ after) := by
    rw [dropBytes?_eq_some_iff]
    use above, List.append_assoc _ _ _
  rw [position, offset?]
  simp only [lineStart?_lineOf, ← start, rest, Option.bind_eq_bind, Option.bind_some,
    find?_inits (List.prefix_append lead after)]
  rw [byteLength_append]
  rfl

/-! ### Numbers of 32 bits -/

/-- The line and the column of an offset count different bytes of the text before it. -/
theorem line_add_column_le (m : LineMap) (offset : Nat) (text : List Char) :
  (m.position offset text).line + (m.position offset text).column
    ≤ min offset (byteLength text)
  := by
  have line := m.lineOf_le_startOf (min offset (byteLength text))
  have start := m.startOf_le (min offset (byteLength text))
  simp only [position]
  cases slice : slice? (m.startOf (min offset (byteLength text))) (min offset (byteLength text))
      text with
  | none =>
    simp only [Option.map_none, Option.getD_none]
    omega
  | some lead =>
    obtain ⟨above, after, rfl, bytes, stop⟩ := slice?_eq_some_iff.1 slice
    have units := units16_le_byteLength lead
    rw [byteLength_append] at stop
    simp only [Option.map_some, Option.getD_some]
    omega

/-- In a text of fewer than 2³² bytes, positions increase with the boundaries, line first and then
column, so that no two boundaries have the same position, and a boundary is found again from its
position; what is beyond the text has the position of its end.  The starts of the lines, and the
line and the column of every offset, fit 32 bits. -/
theorem position_faithful (text : List Char) (short : byteLength text < UInt32.size) :
  let m := ofText text
  (∀ a b, IsBoundary text a → IsBoundary text b → a < b →
      m.position a text < m.position b text)
    ∧ (∀ a b, IsBoundary text a → IsBoundary text b →
      m.position a text = m.position b text → a = b)
    ∧ (∀ offset, IsBoundary text offset → m.offset? (m.position offset text) text = some offset)
    ∧ (∀ offset, byteLength text ≤ offset →
      m.position offset text = m.position (byteLength text) text)
    ∧ (∀ start ∈ m.starts, start < UInt32.size)
    ∧ ∀ offset, (m.position offset text).line < UInt32.size
      ∧ (m.position offset text).column < UInt32.size
  := by
  intro m
  refine ⟨?_, ?_, ?_, ?_, ?_, ?_⟩
  · intro a b
    apply position_lt_position
  · intro a b ha hb same
    have found := offset?_position ha
    rw [same, offset?_position hb] at found
    apply (Option.some.inj found).symm
  · intro offset
    apply offset?_position
  · intro offset beyond
    simp only [position, Nat.min_eq_right beyond, Nat.min_self]
  · intro start member
    apply Nat.lt_of_le_of_lt (isBoundary_of_mem_starts member).le short
  · intro offset
    have := m.line_add_column_le offset text
    omega

/-- A text in which bytes, characters and UTF-16 units all differ, and with a line end of two
characters. -/
def surrogateText : List Char := ['é', '😀', '\r', '\n', 'x']

/-- The boundary inside the line end is in the line that it ends, before the one after it. -/
theorem position_faithful_surrogates :
  byteLength surrogateText < UInt32.size
    ∧ (ofText surrogateText).position 7 surrogateText = ⟨0, 4⟩
    ∧ (ofText surrogateText).position 7 surrogateText
      < (ofText surrogateText).position 8 surrogateText
    ∧ (ofText surrogateText).offset? ⟨0, 4⟩ surrogateText = some 7
  := by
  have short : byteLength surrogateText < UInt32.size := by decide
  have inside : (ofText surrogateText).position 7 surrogateText = ⟨0, 4⟩ := by decide
  obtain ⟨increasing, -, found, -⟩ := position_faithful surrogateText short
  refine ⟨short, inside, increasing 7 8 (by decide) (by decide) (by decide), ?_⟩
  rw [← inside]
  apply found 7 (by decide)

end LineMap

end TypeAssertions.Text
