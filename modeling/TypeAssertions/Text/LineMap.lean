import TypeAssertions.Text.Offset

/-!
# Lines and columns

A `LineMap` lists the byte offsets at which the lines of a text start; a line feed, a carriage
return and the two together each end a line.  `LineMap.position` is the line and the column of an
offset, both counted from zero, the column in UTF-16 units, and `LineMap.lineText?` is a line
without its end.  The first line starts at the start of the text, so that every offset is in one of
the lines.
-/

namespace TypeAssertions.Text

/-- A line and a column, both counted from zero. -/
structure Position where
  line : Nat
  column : Nat
  deriving DecidableEq, Repr

/-- The line and the column, both counted from one. -/
def Position.text (p : Position) : String := s!"{p.line + 1}:{p.column + 1}"

/-- Positions are ordered by their lines, and those in one line by their columns. -/
instance : LT Position := ⟨fun p q => p.line < q.line ∨ p.line = q.line ∧ p.column < q.column⟩

instance (p q : Position) : Decidable (p < q) :=
  inferInstanceAs (Decidable (p.line < q.line ∨ p.line = q.line ∧ p.column < q.column))

/-- The starts of the lines that begin inside a text at byte `offset`. -/
def lineStartsFrom (offset : Nat) : List Char → List Nat
  | [] => []
  | c :: cs =>
    let next := offset + c.utf8Size
    if c = '\n' ∨ (c = '\r' ∧ cs.head? ≠ some '\n') then next :: lineStartsFrom next cs
    else lineStartsFrom next cs

theorem lt_of_mem_lineStartsFrom {offset start : Nat} {cs : List Char}
    (h : start ∈ lineStartsFrom offset cs) :
  offset < start
  := by
  induction cs generalizing offset with
  | nil => cases h
  | cons c cs ih =>
    have positive := c.utf8Size_pos
    have later : start ∈ lineStartsFrom (offset + c.utf8Size) cs → offset < start := by
      intro member
      have := ih member
      omega
    simp only [lineStartsFrom] at h
    split at h
    · rcases List.mem_cons.1 h with rfl | member
      · omega
      · apply later member
    · apply later h

theorem pairwise_lineStartsFrom (offset : Nat) (cs : List Char) :
  (lineStartsFrom offset cs).Pairwise (· < ·)
  := by
  induction cs generalizing offset with
  | nil => apply List.Pairwise.nil
  | cons c cs ih =>
    simp only [lineStartsFrom]
    split
    · apply List.Pairwise.cons _ (ih _)
      intro start member
      apply lt_of_mem_lineStartsFrom member
    · apply ih

/-- The byte offsets at which lines start, from the start of the text on. -/
structure LineMap where
  starts : List Nat
  first : starts.head? = some 0
  increasing : starts.Pairwise (· < ·)
  deriving DecidableEq, Repr

namespace LineMap

/-- The line map of a text. -/
def ofText (text : List Char) : LineMap where
  starts := 0 :: lineStartsFrom 0 text
  first := rfl
  increasing := .cons (fun _ => lt_of_mem_lineStartsFrom) (pairwise_lineStartsFrom 0 text)

/-- The last line that starts at or before an offset. -/
def lineOf (m : LineMap) (offset : Nat) : Nat :=
  (m.starts.takeWhile (· ≤ offset)).length - 1

theorem lineOf_lt (m : LineMap) (offset : Nat) :
  m.lineOf offset < m.starts.length
  := by
  have shorter := (List.takeWhile_sublist (l := m.starts) (· ≤ offset)).length_le
  have positive : 0 < m.starts.length := by
    rw [List.length_pos_iff, ← List.isSome_head?, m.first]
    rfl
  rw [lineOf]
  omega

/-- The offset at which the line of an offset starts. -/
def startOf (m : LineMap) (offset : Nat) : Nat :=
  m.starts.get ⟨m.lineOf offset, m.lineOf_lt offset⟩

/-- The offset at which a line starts. -/
def lineStart? (m : LineMap) (line : Nat) : Option Nat := m.starts[line]?

/-- The position of an offset; one beyond the text has the position of its end, and one inside a
character stands in the first column. -/
def position (m : LineMap) (offset : Nat) (text : List Char) : Position :=
  let offset := min offset (byteLength text)
  ⟨m.lineOf offset, ((slice? (m.startOf offset) offset text).map units16).getD 0⟩

/-- A text without the line feeds and carriage returns at its end. -/
def trimLineEnd (cs : List Char) : List Char :=
  (cs.reverse.dropWhile fun c => c = '\r' || c = '\n').reverse

/-- The text of a line without its end. -/
def lineText? (m : LineMap) (line : Nat) (text : List Char) : Option (List Char) := do
  let start ← m.lineStart? line
  let stop := (m.lineStart? (line + 1)).getD (byteLength text)
  return trimLineEnd (← slice? start stop text)

end LineMap

end TypeAssertions.Text
