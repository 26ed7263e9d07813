import TypeAssertions.Proofs.Text.Positions

/-!
# Lines

A line of a text starts at the start of the text or after the end of another line, and goes on up to
a line feed, a carriage return or the two together, or up to the end of the text (`IsLine`).  Every
offset is in a line (`exists_isLine`), which the line map of the text finds: `IsLine.lineOf` is its
number, `IsLine.lineStart?` its start and `IsLine.lineText?` its content.
-/

namespace TypeAssertions.Text

/-- What may end a line before a part of a text: a line feed, a carriage return that no line feed
follows, or the two together; and before the end of the text nothing. -/
inductive LineEnd : List Char → List Char → Prop
  | none : LineEnd [] []
  | feed (below : List Char) : LineEnd ['\n'] below
  | carriage {below : List Char} (alone : below.head? ≠ some '\n') : LineEnd ['\r'] below
  | both (below : List Char) : LineEnd ['\r', '\n'] below

/-- A line starts between two parts of a text. -/
def LineStart (above rest : List Char) : Prop :=
  above = [] ∨ above.getLast? = some '\n' ∨ (above.getLast? = some '\r' ∧ rest.head? ≠ some '\n')

/-- Characters without line feeds and carriage returns. -/
def Unbroken (content : List Char) : Prop := ∀ c ∈ content, c ≠ '\n' ∧ c ≠ '\r'

/-- A line of a text, with what stands above it, what ends it and what stands below it. -/
structure IsLine (text above content ending below : List Char) : Prop where
  split : text = above ++ (content ++ (ending ++ below))
  start : LineStart above (content ++ (ending ++ below))
  unbroken : Unbroken content
  ends : LineEnd ending below

/-- An offset is in a line: it comes before the next line, if there is one. -/
def InLine (above content ending : List Char) (offset : Nat) : Prop :=
  byteLength above ≤ offset
    ∧ (ending = [] ∨ offset < byteLength (above ++ (content ++ ending)))

variable {text above content ending below rest : List Char} {offset : Nat}

/-- An offset that is not beyond the content of a line is in this line. -/
theorem inLine_of_le (reached : byteLength above ≤ offset)
    (within : offset ≤ byteLength (above ++ content)) (ending : List Char) :
  InLine above content ending offset
  := by
  use reached
  by_cases last : ending = []
  · left
    apply last
  · right
    have more := Nat.pos_of_ne_zero fun none => last (byteLength_eq_zero_iff.1 none)
    rw [← List.append_assoc, byteLength_append (above ++ content)]
    omega

/-! ### Every offset is in a line -/

theorem exists_lineEnd (rest : List Char) :
  ∃ content ending below, rest = content ++ (ending ++ below) ∧ Unbroken content
    ∧ LineEnd ending below
  := by
  induction rest with
  | nil => exact ⟨[], [], [], rfl, List.forall_mem_nil _, .none⟩
  | cons c cs ih =>
    by_cases feed : c = '\n'
    · subst feed
      exact ⟨[], ['\n'], cs, rfl, List.forall_mem_nil _, .feed cs⟩
    · by_cases carriage : c = '\r'
      · subst carriage
        by_cases alone : cs.head? = some '\n'
        · obtain ⟨below, rfl⟩ := List.head?_eq_some_iff.1 alone
          exact ⟨[], ['\r', '\n'], below, rfl, List.forall_mem_nil _, .both below⟩
        · exact ⟨[], ['\r'], cs, rfl, List.forall_mem_nil _, .carriage alone⟩
      · obtain ⟨content, ending, below, rfl, unbroken, ends⟩ := ih
        exact ⟨c :: content, ending, below, rfl,
          List.forall_mem_cons.2 ⟨⟨feed, carriage⟩, unbroken⟩, ends⟩

theorem LineEnd.lineStart (ends : LineEnd ending below) (broken : ending ≠ [])
    (above : List Char) :
  LineStart (above ++ ending) below
  := by
  cases ends with
  | none => cases broken rfl
  | feed => simp [LineStart]
  | carriage alone => simp [LineStart, alone]
  | both => simp [LineStart]

/-- Below the start of a line, each offset is in this line or in a later one. -/
theorem exists_isLine_append (above rest : List Char) (start : LineStart above rest)
    (reached : byteLength above ≤ offset) :
  ∃ above' content ending below, IsLine (above ++ rest) above' content ending below
    ∧ InLine above' content ending offset
  := by
  induction length : rest.length using Nat.strong_induction_on generalizing above rest with
  | h n ih =>
    obtain ⟨content, ending, below, rfl, unbroken, ends⟩ := exists_lineEnd rest
    by_cases inside : ending = [] ∨ offset < byteLength (above ++ (content ++ ending))
    · exact ⟨above, content, ending, below, ⟨rfl, start, unbroken, ends⟩, reached, inside⟩
    · rw [not_or, Nat.not_lt] at inside
      have next := ends.lineStart inside.1 (above ++ content)
      rw [List.append_assoc] at next
      have shorter : below.length < n := by
        have := List.length_pos_of_ne_nil inside.1
        simp only [List.length_append] at length
        omega
      have later := ih _ shorter _ below next inside.2 rfl
      simpa only [List.append_assoc] using later

/-- Every offset is in a line of a text; offsets beyond the text are in the last one. -/
theorem exists_isLine (text : List Char) (offset : Nat) :
  ∃ above content ending below, IsLine text above content ending below
    ∧ InLine above content ending offset
  := exists_isLine_append [] text (.inl rfl) (Nat.zero_le offset)

/-! ### Starts of lines -/

/-- The line starts in a text are those in two parts of it, unless these share a line end. -/
theorem lineStartsFrom_append (offset : Nat)
    (whole : ¬ (above.getLast? = some '\r' ∧ rest.head? = some '\n')) :
  lineStartsFrom offset (above ++ rest)
    = lineStartsFrom offset above ++ lineStartsFrom (offset + byteLength above) rest
  := by
  induction above generalizing offset with
  | nil => simp [lineStartsFrom, byteLength]
  | cons c cs ih =>
    have apart : c = '\r' → (cs ++ rest).head? = some '\n' → cs.head? = some '\n' := by
      rintro rfl next
      cases cs with
      | nil => cases whole ⟨rfl, next⟩
      | cons d ds => apply next
    have joined : cs.head? = some '\n' → (cs ++ rest).head? = some '\n' := by
      intro next
      rw [List.head?_append, next]
      rfl
    have same : (c = '\n' ∨ (c = '\r' ∧ (cs ++ rest).head? ≠ some '\n'))
        ↔ (c = '\n' ∨ (c = '\r' ∧ cs.head? ≠ some '\n')) := by
      apply or_congr_right
      apply and_congr_right
      intro carriage
      apply not_congr ⟨apart carriage, joined⟩
    have later : ¬ (cs.getLast? = some '\r' ∧ rest.head? = some '\n') := by
      rintro ⟨last, next⟩
      apply whole
      rw [List.getLast?_cons, last]
      exact ⟨rfl, next⟩
    rw [List.cons_append, lineStartsFrom, lineStartsFrom, ih _ later, byteLength, Nat.add_assoc]
    simp only [same]
    split <;> rfl

theorem lineStartsFrom_unbroken (unbroken : Unbroken content) (offset : Nat) (rest : List Char) :
  lineStartsFrom offset (content ++ rest) = lineStartsFrom (offset + byteLength content) rest
  := by
  induction content generalizing offset with
  | nil => rfl
  | cons c cs ih =>
    obtain ⟨⟨feed, carriage⟩, later⟩ := List.forall_mem_cons.1 unbroken
    have goes_on : ¬ (c = '\n' ∨ (c = '\r' ∧ (cs ++ rest).head? ≠ some '\n')) := by
      simp [feed, carriage]
    rw [List.cons_append, lineStartsFrom, if_neg goes_on, ih later, byteLength, Nat.add_assoc]

theorem LineEnd.lineStartsFrom (ends : LineEnd ending below) (broken : ending ≠ [])
    (offset : Nat) :
  lineStartsFrom offset (ending ++ below)
    = (offset + byteLength ending)
      :: Text.lineStartsFrom (offset + byteLength ending) below
  := by
  cases ends with
  | none => cases broken rfl
  | feed => simp [Text.lineStartsFrom, byteLength]
  | carriage alone => simp [Text.lineStartsFrom, byteLength, alone]
  | both => simp [Text.lineStartsFrom, byteLength, Nat.add_assoc]

/-- The last line that starts after some characters starts after the last of them, when a line may
end with that. -/
theorem getLast?_lineStartsFrom (offset : Nat) (cs : List Char) {c : Char}
    (last : c = '\n' ∨ c = '\r') :
  (lineStartsFrom offset (cs ++ [c])).getLast? = some (offset + byteLength (cs ++ [c]))
  := by
  induction cs generalizing offset with
  | nil => simp [lineStartsFrom, byteLength, last]
  | cons d ds ih =>
    have later := ih (offset + d.utf8Size)
    rw [List.cons_append, lineStartsFrom, byteLength, ← Nat.add_assoc]
    split
    · rw [List.getLast?_cons, later]
      rfl
    · apply later

theorem LineStart.getLast? (start : LineStart above rest) :
  (0 :: lineStartsFrom 0 above).getLast? = some (byteLength above)
  := by
  rcases start with rfl | broken
  · rfl
  · obtain ⟨cs, c, rfl, last⟩ : ∃ cs c, above = cs ++ [c] ∧ (c = '\n' ∨ c = '\r') := by
      rcases broken with feed | ⟨carriage, -⟩
      · obtain ⟨cs, rfl⟩ := List.getLast?_eq_some_iff.1 feed
        use cs, '\n', rfl, .inl rfl
      · obtain ⟨cs, rfl⟩ := List.getLast?_eq_some_iff.1 carriage
        use cs, '\r', rfl, .inr rfl
    rw [List.getLast?_cons, getLast?_lineStartsFrom 0 cs last, Nat.zero_add]
    rfl

theorem LineStart.whole (start : LineStart above rest) :
  ¬ (above.getLast? = some '\r' ∧ rest.head? = some '\n')
  := by
  rintro ⟨last, next⟩
  rcases start with rfl | feed | ⟨-, alone⟩
  · cases last
  · rw [feed] at last
    cases last
  · apply alone next

/-! ### Lines in the line map -/

/-- The number of line ends in a text. -/
def lineEnds (text : List Char) : Nat := (lineStartsFrom 0 text).length

/-- Line feeds and carriage returns at the end of a line are cut off. -/
theorem LineEnd.trimLineEnd (ends : LineEnd ending below) (unbroken : Unbroken content) :
  LineMap.trimLineEnd (content ++ ending) = content
  := by
  have cut : ∀ c ∈ ending.reverse, (decide (c = '\r') || decide (c = '\n')) = true := by
    cases ends <;> simp
  rw [LineMap.trimLineEnd, List.reverse_append, List.dropWhile_append_of_pos cut]
  cases content using List.reverseRecOn with
  | nil => rfl
  | append_singleton cs c =>
    have kept := unbroken c (by simp)
    rw [List.reverse_concat, List.dropWhile_cons_of_neg (by simp [kept]), ← List.reverse_concat,
      List.reverse_reverse]

namespace IsLine

variable (line : IsLine text above content ending below)

include line

theorem starts_eq :
  (LineMap.ofText text).starts
    = (0 :: lineStartsFrom 0 above)
      ++ lineStartsFrom (byteLength (above ++ content)) (ending ++ below)
  := by
  have starts : (LineMap.ofText text).starts = 0 :: lineStartsFrom 0 text := rfl
  rw [starts, line.split, lineStartsFrom_append 0 line.start.whole, Nat.zero_add,
    lineStartsFrom_unbroken line.unbroken, byteLength_append, List.cons_append]

theorem lineStart? :
  (LineMap.ofText text).lineStart? (lineEnds above) = some (byteLength above)
  := by
  rw [LineMap.lineStart?, line.starts_eq, List.getElem?_append_left (by simp [lineEnds]),
    ← line.start.getLast?, List.getLast?_eq_getElem?, List.length_cons, Nat.add_sub_cancel,
    lineEnds]

theorem next_lineStart? :
  (LineMap.ofText text).lineStart? (lineEnds above + 1)
    = if ending = [] then none else some (byteLength (above ++ (content ++ ending)))
  := by
  have beyond : (0 :: lineStartsFrom 0 above).length ≤ lineEnds above + 1 := by simp [lineEnds]
  have index : lineEnds above + 1 - (0 :: lineStartsFrom 0 above).length = 0 := by simp [lineEnds]
  rw [LineMap.lineStart?, line.starts_eq, List.getElem?_append_right beyond, index]
  split
  case isTrue nothing =>
    subst nothing
    cases line.ends
    rfl
  case isFalse broken =>
    rw [line.ends.lineStartsFrom broken, List.getElem?_cons_zero, ← byteLength_append,
      List.append_assoc]

/-- The line map finds the line of an offset. -/
theorem lineOf (inside : InLine above content ending offset) :
  (LineMap.ofText text).lineOf offset = lineEnds above
  := by
  obtain ⟨reached, before⟩ := inside
  have here := line.lineStart?
  obtain ⟨known, start⟩ := List.getElem?_eq_some_iff.1 here
  have low : lineEnds above ≤ (LineMap.ofText text).lineOf offset := by
    rw [← LineMap.getElem_le_iff _ _ known, start]
    apply reached
  apply Nat.le_antisymm _ low
  by_contra high
  have next := line.next_lineStart?
  have within : lineEnds above + 1 < (LineMap.ofText text).starts.length := by
    have := (LineMap.ofText text).lineOf_lt offset
    omega
  rw [LineMap.lineStart?, List.getElem?_eq_getElem within] at next
  have below_it : (LineMap.ofText text).starts[lineEnds above + 1] ≤ offset := by
    rw [LineMap.getElem_le_iff]
    omega
  split at next
  · cases next
  case isFalse broken =>
    rcases before with nothing | before
    · cases broken nothing
    · have := Option.some.inj next
      omega

/-- An offset has the line number of its line, also one beyond the text. -/
theorem line_position (inside : InLine above content ending offset) :
  ((LineMap.ofText text).position offset text).line = lineEnds above
  := by
  apply line.lineOf
  obtain ⟨reached, before⟩ := inside
  have whole : byteLength above ≤ byteLength text := by
    rw [line.split, byteLength_append]
    omega
  constructor
  · omega
  · rcases before with nothing | before
    · left
      apply nothing
    · right
      omega

theorem lineText? :
  (LineMap.ofText text).lineText? (lineEnds above) text = some content
  := by
  have stop : ((LineMap.ofText text).lineStart? (lineEnds above + 1)).getD (byteLength text)
      = byteLength (above ++ (content ++ ending)) := by
    rw [line.next_lineStart?]
    split
    case isTrue nothing =>
      subst nothing
      cases line.ends
      rw [line.split]
      rfl
    case isFalse => rfl
  have slice : slice? (byteLength above) (byteLength (above ++ (content ++ ending))) text
      = some (content ++ ending) := by
    rw [slice?_eq_some_iff]
    use above, below
    rw [line.split, List.append_assoc content]
    exact ⟨rfl, rfl, rfl⟩
  simp only [LineMap.lineText?, line.lineStart?, Option.bind_eq_bind, Option.bind_some, stop, slice,
    line.ends.trimLineEnd line.unbroken]
  rfl

end IsLine

/-- A boundary in the content of a line has the number of the line and the UTF-16 units before it
there. -/
theorem IsLine.position {lead : List Char}
    (line : IsLine text above (lead ++ rest) ending below) :
  (LineMap.ofText text).position (byteLength (above ++ lead)) text
    = ⟨lineEnds above, units16 lead⟩
  := by
  have inside : InLine above (lead ++ rest) ending (byteLength (above ++ lead)) := by
    apply inLine_of_le <;> simp only [byteLength_append] <;> omega
  have within : byteLength (above ++ lead) ≤ byteLength text := by
    rw [line.split]
    simp only [byteLength_append]
    omega
  have start : (LineMap.ofText text).startOf (byteLength (above ++ lead)) = byteLength above := by
    apply Option.some.inj
    rw [← LineMap.lineStart?_lineOf, line.lineOf inside, line.lineStart?]
  have slice : slice? (byteLength above) (byteLength (above ++ lead)) text = some lead := by
    rw [slice?_eq_some_iff]
    use above, rest ++ (ending ++ below)
    rw [line.split, List.append_assoc lead]
    exact ⟨rfl, rfl, rfl⟩
  simp only [LineMap.position, Nat.min_eq_left within, line.lineOf inside, start, slice,
    Option.map_some, Option.getD_some]

end TypeAssertions.Text
