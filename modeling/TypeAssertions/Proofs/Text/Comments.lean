import TypeAssertions.Proofs.Text.Positions

/-!
# Comments and lines

A line comment goes on up to a line feed, and a block comment up to its first closing mark; the end
of the text ends either (`IsComment`).  A line feed is not all that ends a line: what stands before
it, as a line comment does, is in one line exactly when it has no carriage return that no line feed
follows (`stopsInLine_iff`).
-/

namespace TypeAssertions.Text

/-! ### Comments -/

/-- A comment, and what comes after it. -/
inductive IsComment : List Char → List Char → Prop
  | line {body rest : List Char} (inline : '\n' ∉ body) (ends : ∀ c ∈ rest.head?, c = '\n') :
      IsComment ('/' :: '/' :: body) rest
  | block {body : List Char} (inside : ¬ ['*', '/'] <:+: body) (rest : List Char) :
      IsComment ('/' :: '*' :: (body ++ ['*', '/'])) rest
  | unclosed {body : List Char} (inside : ¬ ['*', '/'] <:+: body) :
      IsComment ('/' :: '*' :: body) []

/-- A text starts with one of the two marks that open comments. -/
def OpensComment (text : List Char) : Prop := ['/', '/'] <+: text ∨ ['/', '*'] <+: text

instance (text : List Char) : Decidable (OpensComment text) :=
  inferInstanceAs (Decidable (_ ∨ _))

/-- A slash opens a comment with a slash or a star after it. -/
theorem opensComment_cons {c : Char} {text : List Char} :
  OpensComment (c :: text) ↔ c = '/' ∧ (text.head? = some '/' ∨ text.head? = some '*')
  := by
  cases text with
  | nil => simp [OpensComment]
  | cons d text => simp [OpensComment, List.cons_prefix_cons, eq_comm, and_or_left]

theorem IsComment.opensComment {comment rest : List Char} (h : IsComment comment rest) :
  OpensComment comment
  := by
  cases h with
  | line => exact .inl ⟨_, rfl⟩
  | block => exact .inr ⟨_, rfl⟩
  | unclosed => exact .inr ⟨_, rfl⟩

theorem IsComment.ne_nil {comment rest : List Char} (h : IsComment comment rest) :
  comment ≠ []
  := by
  cases h <;> exact List.cons_ne_nil _ _

theorem IsComment.head? {comment rest : List Char} (h : IsComment comment rest) :
  comment.head? = some '/'
  := by
  cases h <;> rfl

/-- Where a comment is opened, no character stands for itself. -/
theorem IsComment.ne_other {comment rest rest' : List Char} {c : Char} (h : IsComment comment rest)
    (uncommented : ¬ OpensComment (c :: rest')) :
  comment ++ rest ≠ c :: rest'
  := by
  intro same
  rw [← same] at uncommented
  apply uncommented
  apply h.opensComment.imp
  all_goals exact fun opens => opens.trans (List.prefix_append comment rest)

/-- A line comment goes on up to a line feed or the end of the text. -/
theorem IsComment.inline {comment rest : List Char} (h : IsComment comment rest)
    (slashes : ['/', '/'] <+: comment) :
  '\n' ∉ comment ∧ ∀ c ∈ rest.head?, c = '\n'
  := by
  cases h with
  | line inline ends =>
    use by simpa using inline, ends
  | block | unclosed =>
    obtain ⟨_, same⟩ := slashes
    cases (List.cons.inj (List.cons.inj same).2).1

theorem exists_line (cs : List Char) :
  ∃ body rest, cs = body ++ rest ∧ '\n' ∉ body ∧ ∀ c ∈ rest.head?, c = '\n'
  := by
  induction cs with
  | nil => exact ⟨[], [], rfl, List.not_mem_nil, by simp⟩
  | cons c cs ih =>
    by_cases feed : c = '\n'
    · subst feed
      exact ⟨[], '\n' :: cs, rfl, List.not_mem_nil, by simp⟩
    · obtain ⟨body, rest, rfl, inline, ends⟩ := ih
      refine ⟨c :: body, rest, rfl, ?_, ends⟩
      rw [List.mem_cons, not_or]
      exact ⟨Ne.symm feed, inline⟩

theorem exists_block (cs : List Char) :
  (∃ body rest, cs = body ++ '*' :: '/' :: rest ∧ ¬ ['*', '/'] <:+: body) ∨ ¬ ['*', '/'] <:+: cs
  := by
  induction cs with
  | nil =>
    right
    simp
  | cons c cs ih =>
    by_cases closed : ['*', '/'] <+: c :: cs
    · obtain ⟨rest, same⟩ := closed
      left
      exact ⟨[], rest, same.symm, by simp⟩
    · rcases ih with ⟨body, rest, rfl, inside⟩ | inside
      · left
        refine ⟨c :: body, rest, rfl, ?_⟩
        rw [List.infix_cons_iff, not_or]
        use fun early => closed (early.trans (List.prefix_append (c :: body) _))
      · right
        rw [List.infix_cons_iff, not_or]
        use closed

/-- The mark that closes a block comment does not start inside of it. -/
theorem cons_append_ne {c : Char} {body : List Char} (inside : ¬ ['*', '/'] <:+: c :: body)
    (rest cs : List Char) :
  c :: (body ++ '*' :: '/' :: rest) ≠ '*' :: '/' :: cs
  := by
  intro same
  obtain ⟨rfl, early⟩ := List.cons.inj same
  clear same
  cases body with
  | nil => cases (List.cons.inj early).1
  | cons d body =>
    obtain ⟨rfl, -⟩ := List.cons.inj early
    apply inside ⟨[], body, rfl⟩

/-- What opens a comment starts with one. -/
theorem exists_isComment {cs : List Char} (opens : OpensComment cs) :
  ∃ comment rest, cs = comment ++ rest ∧ IsComment comment rest
  := by
  rcases opens with ⟨cs, rfl⟩ | ⟨cs, rfl⟩
  · obtain ⟨body, rest, rfl, inline, ends⟩ := exists_line cs
    exact ⟨_, rest, rfl, .line inline ends⟩
  · rcases exists_block cs with ⟨body, rest, rfl, inside⟩ | inside
    · refine ⟨'/' :: '*' :: (body ++ ['*', '/']), rest, ?_, .block inside rest⟩
      simp
    · exact ⟨'/' :: '*' :: cs, [], by simp, .unclosed inside⟩

/-- Where a body without line feeds goes on up to a line feed, nothing more belongs to it. -/
theorem eq_nil_of_inline {body more rest : List Char} (inline : '\n' ∉ body ++ more)
    (ends : ∀ c ∈ (more ++ rest).head?, c = '\n') :
  more = []
  := by
  cases more with
  | nil => rfl
  | cons c more =>
    obtain rfl := ends c rfl
    cases inline (by simp)

/-- Where a body without closing marks goes on up to one, nothing more belongs to it. -/
theorem eq_nil_of_closed {body more rest rest' : List Char}
    (inside : ¬ ['*', '/'] <:+: body ++ more)
    (same : '*' :: '/' :: rest = more ++ '*' :: '/' :: rest') :
  more = []
  := by
  rcases more with _ | ⟨c, _ | ⟨d, more⟩⟩
  · rfl
  · cases (List.cons.inj (List.cons.inj same).2).1
  · obtain ⟨rfl, later⟩ := List.cons.inj same
    obtain ⟨rfl, -⟩ := List.cons.inj later
    cases inside ⟨body, more, by simp⟩

/-- Only one comment starts a text. -/
theorem IsComment.unique {comment comment' rest rest' : List Char} (h : IsComment comment rest)
    (h' : IsComment comment' rest') (same : comment ++ rest = comment' ++ rest') :
  comment = comment'
  := by
  cases h with
  | @line body _ inline ends =>
    cases h' with
    | @line body' _ inline' ends' =>
      simp only [List.cons_append, List.cons.injEq, true_and] at same
      rcases List.append_eq_append_iff.1 same with ⟨more, rfl, rfl⟩ | ⟨more, rfl, rfl⟩
      · rw [eq_nil_of_inline inline' ends, List.append_nil]
      · rw [eq_nil_of_inline inline ends', List.append_nil]
    | block | unclosed => cases (List.cons.inj (List.cons.inj same).2).1
  | @block body inside =>
    cases h' with
    | line => cases (List.cons.inj (List.cons.inj same).2).1
    | @block body' inside' =>
      simp only [List.cons_append, List.append_assoc, List.nil_append, List.cons.injEq,
        true_and] at same
      rcases List.append_eq_append_iff.1 same with ⟨more, rfl, split⟩ | ⟨more, rfl, split⟩
      · rw [eq_nil_of_closed inside' split, List.append_nil]
      · rw [eq_nil_of_closed inside split, List.append_nil]
    | @unclosed body' inside' =>
      simp only [List.cons_append, List.append_assoc, List.nil_append, List.append_nil,
        List.cons.injEq, true_and] at same
      cases inside' ⟨body, rest, by simpa using same⟩
  | @unclosed body inside =>
    cases h' with
    | line => cases (List.cons.inj (List.cons.inj same).2).1
    | @block body' inside' =>
      simp only [List.cons_append, List.append_assoc, List.nil_append, List.append_nil,
        List.cons.injEq, true_and] at same
      cases inside ⟨body', rest', by simpa using same.symm⟩
    | unclosed => simpa using same

/-! ### Parts of texts -/

/-- A text is cut into parts, each of which may stand before what comes after it, and the last of
it. -/
inductive Cut (IsPart : List Char → List Char → Prop) :
    List Char → List (List Char) → List Char → Prop
  | last (last : List Char) : Cut IsPart last [] last
  | part {first rest last : List Char} {parts : List (List Char)} (h : IsPart first rest)
      (later : Cut IsPart rest parts last) :
      Cut IsPart (first ++ rest) (first :: parts) last

variable {IsPart : List Char → List Char → Prop}

theorem Cut.split {text last : List Char} {parts : List (List Char)}
    (h : Cut IsPart text parts last) :
  text = parts.flatten ++ last
  := by
  induction h with
  | last => rfl
  | part _ _ ih => rw [List.flatten_cons, List.append_assoc, ← ih]

theorem Cut.isPart {text part last : List Char} {parts before after : List (List Char)}
    (h : Cut IsPart text parts last) (among : parts = before ++ part :: after) :
  IsPart part (after.flatten ++ last)
  := by
  induction h generalizing before with
  | last => cases before <;> cases among
  | part first later ih =>
    cases before with
    | nil =>
      obtain ⟨rfl, rfl⟩ := List.cons.inj among
      rw [← later.split]
      apply first
    | cons other before => apply ih (List.cons.inj among).2

/-- Nothing is cut into parts that are something. -/
theorem Cut.nil (nonempty : ∀ part rest, IsPart part rest → part ≠ []) {last : List Char}
    {parts : List (List Char)} (h : Cut IsPart [] parts last) :
  parts = []
  := by
  generalize empty : ([] : List Char) = text at h
  cases h with
  | last => rfl
  | part first => cases nonempty _ _ first (List.append_eq_nil_iff.1 empty.symm).1

/-- A text is cut in one way when only one part can start it. -/
theorem Cut.unique (nonempty : ∀ part rest, IsPart part rest → part ≠ [])
    (one : ∀ part part' rest rest', IsPart part rest → IsPart part' rest' →
      part ++ rest = part' ++ rest' → part = part')
    {text : List Char} {parts parts' : List (List Char)} (h : Cut IsPart text parts [])
    (h' : Cut IsPart text parts' []) :
  parts = parts'
  := by
  generalize ends : ([] : List Char) = last at h
  induction h generalizing parts' with
  | last =>
    subst ends
    rw [h'.nil nonempty]
  | @part first rest last parts isPart _ ih =>
    generalize whole : first ++ rest = text at h'
    cases h' with
    | last => cases nonempty _ _ isPart (List.append_eq_nil_iff.1 whole).1
    | part isPart' later =>
      obtain rfl := one _ _ _ _ isPart isPart' whole
      rw [List.append_cancel_left whole] at ih
      rw [ih later ends]

/-- A text is cut up to where it is done, when it starts with a part wherever it is not. -/
theorem exists_cut {Done : List Char → Prop}
    (step : ∀ text, Done text ∨ ∃ first rest, text = first ++ rest ∧ first ≠ [] ∧ IsPart first rest)
    (text : List Char) :
  ∃ parts last, Cut IsPart text parts last ∧ Done last
  := by
  induction length : text.length using Nat.strong_induction_on generalizing text with
  | h n ih =>
    rcases step text with done | ⟨first, rest, rfl, nonempty, isPart⟩
    · exact ⟨[], text, .last text, done⟩
    · have shorter : rest.length < n := by
        have := List.length_pos_of_ne_nil nonempty
        rw [List.length_append] at length
        omega
      obtain ⟨parts, last, later, done⟩ := ih _ shorter rest rfl
      exact ⟨first :: parts, last, .part isPart later, done⟩

/-! ### Parts of lines -/

/-- A character before the rest of a text ends a line. -/
def EndsLine (c : Char) (rest : List Char) : Prop :=
  c = '\n' ∨ (c = '\r' ∧ rest.head? ≠ some '\n')

/-- A line starts after each character that ends one. -/
theorem mem_lineStartsFrom_iff {offset start : Nat} {cs : List Char} :
  start ∈ lineStartsFrom offset cs ↔ ∃ before c after, cs = before ++ c :: after
    ∧ EndsLine c after ∧ start = offset + byteLength (before ++ [c])
  := by
  induction cs generalizing offset with
  | nil => simp [lineStartsFrom]
  | cons c cs ih =>
    have later : start ∈ lineStartsFrom (offset + c.utf8Size) cs ↔ ∃ before d after,
        cs = before ++ d :: after ∧ EndsLine d after
          ∧ start = offset + byteLength (c :: before ++ [d]) := by
      rw [ih]
      simp only [List.cons_append, byteLength, Nat.add_assoc]
    have first : start ∈ lineStartsFrom offset (c :: cs)
        ↔ (EndsLine c cs ∧ start = offset + c.utf8Size)
          ∨ start ∈ lineStartsFrom (offset + c.utf8Size) cs := by
      simp only [lineStartsFrom, EndsLine]
      split
      case isTrue ends => simp [ends]
      case isFalse ends => simp [ends]
    rw [first, later]
    constructor
    · rintro (⟨ends, rfl⟩ | ⟨before, d, after, rfl, ends, rfl⟩)
      · exact ⟨[], c, cs, rfl, ends, rfl⟩
      · exact ⟨c :: before, d, after, rfl, ends, rfl⟩
    · rintro ⟨before, d, after, same, ends, rfl⟩
      cases before with
      | nil =>
        obtain ⟨rfl, rfl⟩ := List.cons.inj same
        exact .inl ⟨ends, rfl⟩
      | cons b before =>
        obtain ⟨rfl, rfl⟩ := List.cons.inj same
        exact .inr ⟨before, d, after, rfl, ends, rfl⟩

/-- Two offsets are in one line when no line starts after the first up to the second. -/
theorem LineMap.lineOf_eq_iff (m : LineMap) {a b : Nat} (h : a ≤ b) :
  m.lineOf b = m.lineOf a ↔ ∀ start ∈ m.starts, start ≤ b → start ≤ a
  := by
  constructor
  · intro same start member reached
    obtain ⟨n, known, rfl⟩ := List.mem_iff_getElem.1 member
    rw [m.getElem_le_iff b known, same] at reached
    apply (m.getElem_le_iff a known).2 reached
  · intro none
    apply Nat.le_antisymm _ (m.lineOf_mono h)
    rw [← m.getElem_le_iff a (m.lineOf_lt b)]
    apply none _ (m.startOf_mem b) (m.startOf_le b)

/-- A part of a text has a carriage return that no line feed follows. -/
def HasLoneReturn (part rest : List Char) : Prop :=
  ∃ before after, part = before ++ '\r' :: after ∧ (after ++ rest).head? ≠ some '\n'

theorem hasLoneReturn_cons (c : Char) (part rest : List Char) :
  HasLoneReturn (c :: part) rest
    ↔ (c = '\r' ∧ (part ++ rest).head? ≠ some '\n') ∨ HasLoneReturn part rest
  := by
  constructor
  · rintro ⟨before, after, same, alone⟩
    cases before with
    | nil =>
      obtain ⟨rfl, rfl⟩ := List.cons.inj same
      exact .inl ⟨rfl, alone⟩
    | cons b before =>
      obtain ⟨rfl, rfl⟩ := List.cons.inj same
      exact .inr ⟨before, after, rfl, alone⟩
  · rintro (⟨rfl, alone⟩ | ⟨before, after, rfl, alone⟩)
    · exact ⟨[], part, rfl, alone⟩
    · exact ⟨c :: before, after, rfl, alone⟩

theorem not_hasLoneReturn_nil (rest : List Char) :
  ¬ HasLoneReturn [] rest
  := by
  rintro ⟨before, after, same, -⟩
  cases before <;> cases same

instance HasLoneReturn.decidable : (part rest : List Char) → Decidable (HasLoneReturn part rest)
  | [], rest => isFalse (not_hasLoneReturn_nil rest)
  | c :: part, rest =>
    have := HasLoneReturn.decidable part rest
    decidable_of_iff _ (hasLoneReturn_cons c part rest).symm

/-- A lone carriage return in a part of a text is one in the text. -/
theorem HasLoneReturn.text {part rest : List Char} (h : HasLoneReturn part rest)
    (above : List Char) :
  HasLoneReturn (above ++ (part ++ rest)) []
  := by
  obtain ⟨before, after, rfl, alone⟩ := h
  use above ++ before, after ++ rest
  constructor
  · simp
  · rwa [List.append_nil]

/-- A part of a text ends in the line in which it starts. -/
def StopsInLine (above part rest : List Char) : Prop :=
  (LineMap.ofText (above ++ (part ++ rest))).lineOf (byteLength (above ++ part))
    = (LineMap.ofText (above ++ (part ++ rest))).lineOf (byteLength above)

instance (above part rest : List Char) : Decidable (StopsInLine above part rest) :=
  inferInstanceAs (Decidable (_ = _))

/-- A part of a text without line feeds ends in the line in which it starts exactly when it has no
carriage return that no line feed follows. -/
theorem stopsInLine_iff {above part rest : List Char} (inline : '\n' ∉ part) :
  StopsInLine above part rest ↔ ¬ HasLoneReturn part rest
  := by
  have further : byteLength above ≤ byteLength (above ++ part) := by
    rw [byteLength_append]
    apply Nat.le_add_right
  rw [StopsInLine, LineMap.lineOf_eq_iff _ further]
  constructor
  · rintro none ⟨before, after, rfl, alone⟩
    have start : byteLength (above ++ before ++ ['\r'])
        ∈ (LineMap.ofText (above ++ (before ++ '\r' :: after ++ rest))).starts := by
      apply List.mem_cons_of_mem
      rw [mem_lineStartsFrom_iff]
      use above ++ before, '\r', after ++ rest
      refine ⟨by simp, .inr ⟨rfl, alone⟩, by rw [Nat.zero_add]⟩
    have reached := none _ start
    simp only [byteLength_append, byteLength] at reached
    have := ('\r' : Char).utf8Size_pos
    omega
  · intro whole start member reached
    rcases List.mem_cons.1 member with rfl | member
    · apply Nat.zero_le
    · obtain ⟨before, c, after, split, ends, rfl⟩ := mem_lineStartsFrom_iff.1 member
      rw [Nat.zero_add] at reached ⊢
      by_contra later
      -- the line starts inside the part, after a character of it
      have cut : above ++ (part ++ rest) = (before ++ [c]) ++ after := by
        rw [split, List.append_assoc, List.singleton_append]
      obtain ⟨inner, last, tail⟩ := exists_append_of_byteLength_le cut (Nat.le_of_not_le later)
      have shorter : byteLength inner ≤ byteLength part := by
        rw [last, byteLength_append, byteLength_append] at reached
        omega
      obtain ⟨more, rfl, rfl⟩ := exists_append_of_byteLength_le tail.symm shorter
      cases inner using List.reverseRecOn with
      | nil =>
        rw [last, List.append_nil] at later
        apply later (Nat.le_refl _)
      | append_singleton inner d =>
        rw [← List.append_assoc] at last
        obtain ⟨-, rfl⟩ := List.append_singleton_inj.1 last
        rcases ends with rfl | ⟨rfl, alone⟩
        · simp at inline
        · apply whole
          use inner, more, by rw [List.append_assoc, List.singleton_append]

/-- A line comment of a text: it goes on up to a line feed or the end of the text, and ends in the
line in which it starts exactly when it has no carriage return that no line feed follows. -/
structure LineComment (text above comment rest : List Char) : Prop where
  split : text = above ++ (comment ++ rest)
  slashes : ['/', '/'] <+: comment
  inline : '\n' ∉ comment
  feed : ∀ c ∈ rest.head?, c = '\n'
  stops_iff : StopsInLine above comment rest ↔ ¬ HasLoneReturn comment rest

/-- In a text without lone carriage returns every line comment stops in its line. -/
theorem LineComment.stops {text above comment rest : List Char}
    (h : LineComment text above comment rest) (whole : ¬ HasLoneReturn text []) :
  StopsInLine above comment rest
  := by
  rw [h.stops_iff]
  intro lone
  apply whole
  rw [h.split]
  apply lone.text

/-- A line comment is one of the parts into which a text is cut. -/
theorem Cut.lineComment {above text comment last : List Char} {parts parts' : List (List Char)}
    (h : Cut IsPart text (parts ++ comment :: parts') last) (slashes : ['/', '/'] <+: comment)
    (inline : ∀ rest, IsPart comment rest → '\n' ∉ comment ∧ ∀ c ∈ rest.head?, c = '\n') :
  LineComment (above ++ text) (above ++ parts.flatten) comment (parts'.flatten ++ last)
  := by
  have part := inline _ (h.isPart rfl)
  constructor
  case split => simp [h.split]
  case slashes => apply slashes
  case inline => apply part.1
  case feed => apply part.2
  case stops_iff => apply stopsInLine_iff part.1

end TypeAssertions.Text
