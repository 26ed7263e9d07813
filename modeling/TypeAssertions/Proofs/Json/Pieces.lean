import TypeAssertions.Proofs.Json.Numerals
import TypeAssertions.Proofs.Json.Quotes

/-!
# Pieces of JSON texts

Between marks and gaps a JSON text has pieces: texts in quotes, and runs of the characters of
numbers and words.  A text laid out with lexemes (`Laid`) has a piece for each scalar, in which the
scalar is read, and gaps anywhere between the pieces and marks.  Its tokens are the lexemes, as long
as a mark comes after each scalar (`tokensFrom_of_laid`).
-/

namespace TypeAssertions.Json

/-! ### Pieces -/

/-- A text in quotes, or a run of characters of numbers and words. -/
inductive IsPiece : List Char → Prop
  | quoted {body : List Char} (inside : Inside body) : IsPiece ('"' :: (body ++ ['"']))
  | bare {run : List Char} (some : run ≠ []) (all : ∀ c ∈ run, isBare c = true) : IsPiece run

/-- No number or word goes on. -/
def Separate (cs : List Char) : Prop := ∀ c ∈ cs.head?, isBare c = false

theorem Separate.stops {cs : List Char} (h : Separate cs) :
  Stops cs
  := by
  intro c head
  have other := h c head
  simp only [isBare, Char.isAlphanum, Bool.or_eq_false_iff, decide_eq_false_iff_not] at other
  obtain ⟨⟨⟨⟨alpha, digit⟩, -⟩, -⟩, point⟩ := other
  use digit, point
  constructor
  · rintro rfl
    cases alpha
  · rintro rfl
    cases alpha

/-- What holds of each space holds of all. -/
theorem of_isSpace {P : Char → Prop} (each : P ' ' ∧ P '\n' ∧ P '\t' ∧ P '\r') {c : Char}
    (space : isSpace c = true) :
  P c
  := by
  simp only [isSpace, Bool.or_eq_true, decide_eq_true_eq] at space
  rcases space with ((rfl | rfl) | rfl) | rfl
  · apply each.1
  · apply each.2.1
  · apply each.2.2.1
  · apply each.2.2.2

theorem isBare_of_isSpace {c : Char} (space : isSpace c = true) :
  isBare c = false
  := of_isSpace (P := fun c => isBare c = false) (by decide) space

/-- What holds of each mark holds of all. -/
theorem forall_mem_marks {P : Char → Prop}
    (each : P '[' ∧ P ']' ∧ P '\x7b' ∧ P '\x7d' ∧ P ':' ∧ P ',') :
  ∀ c ∈ marks, P c
  := by
  simpa [marks] using each

theorem isBare_of_mem_marks :
  ∀ c ∈ marks, isBare c = false
  := forall_mem_marks (by decide)

theorem separate_mark {c : Char} (member : c ∈ marks) (cs : List Char) :
  Separate (c :: cs)
  := by
  rintro _ ⟨⟩
  apply isBare_of_mem_marks c member

theorem IsPiece.ne_nil {p : List Char} (h : IsPiece p) :
  p ≠ []
  := by
  cases h with
  | quoted => apply List.cons_ne_nil
  | bare some => apply some

/-- The characters of a string go on up to its end: a quote, a backslash that nothing comes after, or
the end of the text. -/
def EndsString (rest : List Char) : Prop :=
  rest = [] ∨ rest = ['\\'] ∨ ∃ more, rest = '"' :: more

theorem EndsString.ne_plain {c : Char} {rest : List Char} (h : EndsString (c :: rest)) :
  ¬ (c ≠ '"' ∧ c ≠ '\\')
  := by
  rintro ⟨quote, backslash⟩
  rcases h with h | h | ⟨more, h⟩
  · cases h
  · apply backslash (List.cons.inj h).1
  · apply quote (List.cons.inj h).1

theorem not_endsString_escape (c : Char) (rest : List Char) :
  ¬ EndsString ('\\' :: c :: rest)
  := by
  rintro (h | h | ⟨more, h⟩)
  · cases h
  · cases (List.cons.inj h).2
  · cases (List.cons.inj h).1

/-- Only one end of a string follows its characters. -/
theorem Inside.unique_of_ends {body body' rest rest' : List Char} (h : Inside body)
    (h' : Inside body') (ends : EndsString rest) (ends' : EndsString rest')
    (same : body ++ rest = body' ++ rest') :
  body = body'
  := by
  induction h generalizing body' with
  | nil =>
    rw [List.nil_append] at same
    cases h' with
    | nil => rfl
    | plain proper =>
      rw [same] at ends
      cases ends.ne_plain proper
    | escape =>
      rw [same] at ends
      cases not_endsString_escape _ _ ends
  | @plain c cs proper _ ih =>
    cases h' with
    | nil =>
      rw [List.nil_append] at same
      rw [← same] at ends'
      cases ends'.ne_plain proper
    | plain _ inside =>
      rw [List.cons_append, List.cons_append, List.cons.injEq] at same
      obtain ⟨rfl, same⟩ := same
      rw [ih inside same]
    | escape => cases proper.2 (List.cons.inj same).1
  | @escape c cs _ ih =>
    cases h' with
    | nil =>
      rw [List.nil_append] at same
      rw [← same] at ends'
      cases not_endsString_escape _ _ ends'
    | plain proper => cases proper.2 (List.cons.inj same).1.symm
    | escape inside =>
      simp only [List.cons_append, List.cons.injEq, true_and] at same
      obtain ⟨rfl, same⟩ := same
      rw [ih inside same]

/-- Only one quote ends a text in quotes. -/
theorem Inside.unique {body body' rest rest' : List Char} (h : Inside body) (h' : Inside body')
    (same : body ++ '"' :: rest = body' ++ '"' :: rest') :
  body = body' ∧ rest = rest'
  := by
  obtain rfl := h.unique_of_ends h' (.inr (.inr ⟨rest, rfl⟩)) (.inr (.inr ⟨rest', rfl⟩)) same
  use rfl
  apply (List.cons.inj (List.append_cancel_left same)).2

theorem IsPiece.head_of_quote {p rest : List Char} (h : IsPiece p) {cs : List Char}
    (same : p ++ rest = '"' :: cs) :
  ∃ body, p = '"' :: (body ++ ['"']) ∧ Inside body
  := by
  cases h with
  | @quoted body inside => use body
  | bare some all =>
    obtain ⟨c, run, rfl⟩ := List.exists_cons_of_ne_nil some
    obtain ⟨rfl, -⟩ := List.cons.inj same
    cases all '"' List.mem_cons_self

/-- Only one piece of a text is followed by no number or word. -/
theorem IsPiece.unique {p p' rest rest' : List Char} (h : IsPiece p) (h' : IsPiece p')
    (separate : Separate rest) (separate' : Separate rest') (same : p ++ rest = p' ++ rest') :
  p = p' ∧ rest = rest'
  := by
  cases h with
  | quoted inside =>
    obtain ⟨body', rfl, inside'⟩ := h'.head_of_quote same.symm
    simp only [List.cons_append, List.append_assoc, List.cons.injEq, true_and,
      List.nil_append] at same
    obtain ⟨rfl, rfl⟩ := inside.unique inside' same
    use rfl
  | bare some all =>
    cases h' with
    | quoted =>
      obtain ⟨c, run, rfl⟩ := List.exists_cons_of_ne_nil some
      obtain ⟨rfl, -⟩ := List.cons.inj same
      cases all '"' List.mem_cons_self
    | bare _ all' =>
      obtain rfl : p = p' := by
        rw [← takeWhile_append_of_head all separate, same,
          takeWhile_append_of_head all' separate']
      use rfl
      apply List.append_cancel_left same

/-! ### Spellings of scalars -/

/-- Before a text in which no number or word goes on, a piece is one token, in which a scalar is
read. -/
def Spells (p : List Char) (s : Scalar) : Prop :=
  ∀ offset rest, Separate rest → ∃ stop, tokensFrom offset .between (p ++ rest)
    = .literal ⟨offset, stop, s.quoted, .ok s, .ok ()⟩ :: tokensFrom stop .between rest

theorem Quoted.tokensFrom {body chars : List Char} (h : Quoted body chars) (offset : Nat)
    (rest : List Char) :
  ∃ stop, tokensFrom offset .between ('"' :: (body ++ ['"']) ++ rest)
    = .literal ⟨offset, stop, true, .ok (.string (String.ofList chars)), .ok ()⟩
      :: tokensFrom stop .between rest
  := by
  have scan : Scan.between.step offset '"' (body ++ '"' :: rest)
      = ([], .string offset (readString (offset + 1) (body ++ '"' :: rest)) .plain) := rfl
  obtain ⟨stop, passed⟩ := h.passed (offset + '"'.utf8Size) offset (.ok chars) rest
  use stop
  rw [List.cons_append, List.append_assoc, List.singleton_append, tokensFrom_cons scan, h.read,
    passed]
  rfl

theorem Quoted.spells {body chars : List Char} (h : Quoted body chars) :
  Spells ('"' :: (body ++ ['"'])) (.string (String.ofList chars))
  := fun offset rest _ => h.tokensFrom offset rest

theorem Numeral.tokensFrom {run : List Char} {q : NumberPhase} {n : Number} (h : Numeral run q n)
    {offset : Nat} {rest : List Char} (read : readNumber offset (run ++ rest) = .ok n)
    (ends : q.Ends rest) :
  ∃ stop, tokensFrom offset .between (run ++ rest)
    = .literal ⟨offset, stop, false, .ok (.number n), .ok ()⟩ :: tokensFrom stop .between rest
  := by
  obtain ⟨stop, passed⟩ := h.passed offset rest ends
  use stop
  rw [passed, read]
  rfl

theorem Numeral.spells {run : List Char} {q : NumberPhase} {n : Number} (h : Numeral run q n) :
  Spells run (.number n)
  := by
  intro offset rest separate
  have ends := NumberPhase.ends_of_stops h.complete separate.stops
  apply h.tokensFrom (h.read offset rest ends) ends

/-! ### Literals that are not read -/

/-- The first token is a literal whose value cannot be read. -/
def Fails (ts : List Token) : Prop :=
  ∃ l f rest, ts = .literal l :: rest ∧ l.read = .error f

theorem step_string (offset start : Nat) (c : Char) (cs : List Char)
    (read : Except Failure (List Char)) (phase : StringPhase) :
  (∃ phase', (Scan.string start read phase).step offset c cs = ([], .string start read phase'))
    ∨ ∃ stop skip next, (Scan.string start read phase).step offset c cs
      = ([stringToken start stop read skip], next)
  := by
  cases phase with
  | hex n => exact .inl ⟨_, rfl⟩
  | escape =>
    simp only [Scan.step]
    split
    · split
      · split
        · exact .inl ⟨_, rfl⟩
        · exact .inr ⟨_, _, _, rfl⟩
      · exact .inr ⟨_, _, _, rfl⟩
    · split
      · exact .inl ⟨_, rfl⟩
      · exact .inr ⟨_, _, _, rfl⟩
  | plain =>
    simp only [Scan.step]
    split
    · exact .inr ⟨_, _, _, rfl⟩
    · split
      · exact .inl ⟨_, rfl⟩
      · split
        · exact .inr ⟨_, _, _, rfl⟩
        · exact .inl ⟨_, rfl⟩

theorem fails_string (offset start : Nat) (f : Failure) (phase : StringPhase) (cs : List Char) :
  Fails (tokensFrom offset (.string start (.error f) phase) cs)
  := by
  induction cs generalizing offset phase with
  | nil => exact ⟨_, f, [], rfl, rfl⟩
  | cons c cs ih =>
    rcases step_string offset start c cs (.error f) phase with ⟨phase, step⟩
      | ⟨stop, skip, next, step⟩
    · rw [tokensFrom_cons step]
      apply ih
    · rw [tokensFrom_cons step]
      exact ⟨_, f, _, rfl, rfl⟩

theorem fails_number (offset start : Nat) (f : Failure) (phase : NumberPhase) (cs : List Char) :
  Fails (tokensFrom offset (.number start (.error f) phase) cs)
  := by
  induction cs generalizing offset phase with
  | nil => exact ⟨_, f, [], rfl, rfl⟩
  | cons c cs ih =>
    cases goes_on : phase.step c with
    | next after =>
      have step : (Scan.number start (.error f) phase).step offset c cs
          = ([], .number start (.error f) after) := by
        simp [Scan.step, goes_on]
      rw [tokensFrom_cons step]
      apply ih
    | ended =>
      have step : (Scan.number start (.error f) phase).step offset c cs
          = (numberToken start offset (.error f) (.ok ()) :: (Scan.begin offset c cs).1,
            (Scan.begin offset c cs).2) := by
        simp [Scan.step, goes_on]
      rw [tokensFrom_cons step]
      exact ⟨_, f, _, rfl, rfl⟩
    | broken =>
      have step : (Scan.number start (.error f) phase).step offset c cs
          = ([numberToken start offset (.error f) (.error ⟨.invalidNumber, offset + 1⟩)],
            .halted) := by
        simp [Scan.step, goes_on]
      rw [tokensFrom_cons step]
      exact ⟨_, f, _, rfl, rfl⟩

/-- A word begun goes on with its letters, or cannot be read. -/
theorem fails_word {letters : List Char} (some : letters ≠ []) (offset start : Nat)
    (value : Scalar) (cs : List Char) :
  letters <+: cs ∨ Fails (tokensFrom offset (.word start value letters) cs)
  := by
  induction letters generalizing offset cs with
  | nil => cases some rfl
  | cons l letters ih =>
    cases cs with
    | nil => exact .inr ⟨_, ⟨.endInValue, offset⟩, [], rfl, rfl⟩
    | cons c cs =>
      by_cases same : c = l
      · subst same
        rw [List.cons_prefix_cons]
        cases letters with
        | nil => exact .inl ⟨rfl, List.nil_prefix⟩
        | cons l letters =>
          rcases ih (List.cons_ne_nil _ _) (offset + c.utf8Size) cs with leads | fails
          · exact .inl ⟨rfl, leads⟩
          · right
            have step : (Scan.word start value (c :: l :: letters)).step offset c cs
                = ([], .word start value (l :: letters)) := by
              simp [Scan.step]
            rw [tokensFrom_cons step]
            apply fails
      · right
        have step : (Scan.word start value (l :: letters)).step offset c cs
            = ([wordToken start offset (.error ⟨.expectedIdent, offset + 1⟩)], .halted) := by
          simp [Scan.step, same]
        rw [tokensFrom_cons step]
        exact ⟨_, _, _, rfl, rfl⟩

/-! ### Cutting a text -/

/-- The first token of a text is a piece in which a scalar is read. -/
def Starts (offset : Nat) (text : List Char) : Prop :=
  ∃ p rest s stop, text = p ++ rest ∧ IsPiece p ∧ Spells p s
    ∧ tokensFrom offset .between text
      = .literal ⟨offset, stop, s.quoted, .ok s, .ok ()⟩ :: tokensFrom stop .between rest

theorem starts_string (offset : Nat) (cs : List Char) :
  Starts offset ('"' :: cs) ∨ Fails (tokensFrom offset .between ('"' :: cs))
  := by
  have step : Scan.between.step offset '"' cs
      = ([], .string offset (readString (offset + 1) cs) .plain) := rfl
  cases read : readString (offset + 1) cs with
  | error f =>
    right
    rw [tokensFrom_cons step, read]
    apply fails_string
  | ok chars =>
    left
    obtain ⟨body, rest, rfl, quoted⟩ := exists_quoted read
    obtain ⟨stop, tokens⟩ := quoted.tokensFrom offset rest
    rw [List.cons_append, List.append_assoc, List.singleton_append] at tokens
    exact ⟨_, rest, _, stop, by simp, .quoted quoted.inside, quoted.spells, tokens⟩

theorem starts_number (offset : Nat) {c : Char} {cs : List Char} {phase : NumberPhase}
    (begins : Scan.begin offset c cs = ([], .number offset (readNumber offset (c :: cs)) phase)) :
  Starts offset (c :: cs) ∨ Fails (tokensFrom offset .between (c :: cs))
  := by
  have step : Scan.between.step offset c cs = _ := begins
  cases read : readNumber offset (c :: cs) with
  | error f =>
    right
    rw [tokensFrom_cons step, read]
    apply fails_number
  | ok n =>
    left
    obtain ⟨run, rest, q, split, numeral, ends⟩ := exists_numeral read
    rw [split] at read ⊢
    obtain ⟨stop, tokens⟩ := numeral.tokensFrom read ends
    obtain ⟨d, ds, rfl, -⟩ := numeral.start
    exact ⟨_, rest, _, stop, rfl, .bare (List.cons_ne_nil d ds) numeral.bare, numeral.spells,
      tokens⟩

theorem starts_word (offset : Nat) {c : Char} {cs letters : List Char} {s : Scalar}
    (word : s = .null ∨ ∃ b, s = .bool b) (text : s.text = c :: letters) (some : letters ≠ [])
    (begins : Scan.begin offset c cs = ([], .word offset s letters)) :
  Starts offset (c :: cs) ∨ Fails (tokensFrom offset .between (c :: cs))
  := by
  have step : Scan.between.step offset c cs = _ := begins
  have spelled (offset : Nat) (rest : List Char) :
      ∃ stop, tokensFrom offset .between (s.text ++ rest)
        = .literal ⟨offset, stop, s.quoted, .ok s, .ok ()⟩ :: tokensFrom stop .between rest := by
    have unquoted : s.quoted = false := by
      rcases word with rfl | ⟨b, rfl⟩ <;> rfl
    rw [unquoted]
    apply tokensFrom_word word
  rcases fails_word some (offset + c.utf8Size) offset s cs with ⟨rest, rfl⟩ | fails
  · left
    have split : c :: (letters ++ rest) = s.text ++ rest := by
      rw [text]
      rfl
    have bare : IsPiece s.text := by
      apply IsPiece.bare
      · rw [text]
        apply List.cons_ne_nil
      · rw [← List.all_eq_true]
        rcases word with rfl | ⟨_ | _, rfl⟩ <;> decide
    obtain ⟨stop, tokens⟩ := spelled offset rest
    rw [split]
    exact ⟨s.text, rest, s, stop, rfl, bare, fun offset rest _ => spelled offset rest, tokens⟩
  · right
    rw [tokensFrom_cons step]
    apply fails

/-- The scanner begins a number, or a mark that is no part of a literal. -/
theorem begin_cases (offset : Nat) (c : Char) (cs : List Char) (space : isSpace c = false)
    (other : c ∉ ['"', 'n', 't', 'f']) :
  (∃ phase, Scan.begin offset c cs = ([], .number offset (readNumber offset (c :: cs)) phase))
    ∨ Scan.begin offset c cs = ([.mark c offset], .between)
  := by
  simp only [List.mem_cons, List.not_mem_nil, or_false, not_or] at other
  obtain ⟨quote, null, true_word, false_word⟩ := other
  simp only [Scan.begin, space, quote, null, true_word, false_word, if_false, Bool.false_eq_true]
  split
  · exact .inl ⟨_, rfl⟩
  · split
    · exact .inl ⟨_, rfl⟩
    · split
      · exact .inl ⟨_, rfl⟩
      · exact .inr rfl

/-- At the start of a text stands a space, a mark, a piece in which a scalar is read, or a literal
that cannot be read. -/
theorem tokensFrom_cases (offset : Nat) (c : Char) (cs : List Char) :
  (isSpace c = true ∧ tokensFrom offset .between (c :: cs)
      = tokensFrom (offset + c.utf8Size) .between cs)
    ∨ tokensFrom offset .between (c :: cs)
      = .mark c offset :: tokensFrom (offset + c.utf8Size) .between cs
    ∨ Starts offset (c :: cs) ∨ Fails (tokensFrom offset .between (c :: cs))
  := by
  cases space : isSpace c with
  | true =>
    left
    have step : Scan.between.step offset c cs = ([], .between) := by
      rw [Scan.step, Scan.begin, if_pos space]
    rw [tokensFrom_cons step]
    use rfl
    rfl
  | false =>
    right
    by_cases special : c ∈ ['"', 'n', 't', 'f']
    · right
      simp only [List.mem_cons, List.not_mem_nil, or_false] at special
      rcases special with rfl | rfl | rfl | rfl
      · apply starts_string
      · apply starts_word offset (.inl rfl) (s := .null) rfl (by decide) rfl
      · apply starts_word offset (.inr ⟨true, rfl⟩) rfl (by decide) rfl
      · apply starts_word offset (.inr ⟨false, rfl⟩) rfl (by decide) rfl
    · rcases begin_cases offset c cs space special with ⟨phase, begins⟩ | begins
      · right
        apply starts_number offset begins
      · left
        have step : Scan.between.step offset c cs = _ := begins
        rw [tokensFrom_cons step]
        rfl

/-! ### Cutting a whole text -/

/-- Tokens are cut out of a text, up to a literal that cannot be read. -/
inductive Cuts : List Token → List Char → Prop
  | done : Cuts [] []
  | space {ts : List Token} {c : Char} {text : List Char} (blank : isSpace c = true)
      (rest : Cuts ts text) : Cuts ts (c :: text)
  | mark {ts : List Token} {text : List Char} (c : Char) (start : Nat) (rest : Cuts ts text) :
      Cuts (.mark c start :: ts) (c :: text)
  | literal {ts : List Token} {p text : List Char} {s : Scalar} (start stop : Nat)
      (piece : IsPiece p) (spells : Spells p s) (rest : Cuts ts text) :
      Cuts (.literal ⟨start, stop, s.quoted, .ok s, .ok ()⟩ :: ts) (p ++ text)
  | failed {ts : List Token} {text : List Char} (fails : Fails ts) : Cuts ts text

theorem cuts_tokensFrom (offset : Nat) (text : List Char) :
  Cuts (tokensFrom offset .between text) text
  := by
  induction size : text.length using Nat.strongRecOn generalizing offset text with
  | ind n ih =>
    cases text with
    | nil => apply Cuts.done
    | cons c cs =>
      subst size
      rcases tokensFrom_cases offset c cs with ⟨space, tokens⟩ | tokens | starts | fails
      · rw [tokens]
        apply Cuts.space space
        apply ih _ (Nat.lt_succ_self _) _ _ rfl
      · rw [tokens]
        apply Cuts.mark
        apply ih _ (Nat.lt_succ_self _) _ _ rfl
      · obtain ⟨p, rest, s, stop, split, piece, spells, tokens⟩ := starts
        rw [tokens, split]
        apply Cuts.literal _ _ piece spells
        apply ih _ _ _ _ rfl
        rw [split, List.length_append]
        have := List.length_pos_iff.2 piece.ne_nil
        omega
      · apply Cuts.failed fails

/-! ### Texts laid out -/

/-- A text is laid out with lexemes: gaps stand anywhere before, between and after the marks and
the pieces in which the scalars are read, and an end of its own stands last. -/
inductive Laid (Gap Last : List Char → Prop) : List Lexeme → List Char → Prop
  | done {text : List Char} (ends : Last text) : Laid Gap Last [] text
  | gap {ls : List Lexeme} {between text : List Char} (gap : Gap between)
      (rest : Laid Gap Last ls text) : Laid Gap Last ls (between ++ text)
  | mark {ls : List Lexeme} {c : Char} {text : List Char} (member : c ∈ marks)
      (rest : Laid Gap Last ls text) : Laid Gap Last (.mark c :: ls) (c :: text)
  | literal {ls : List Lexeme} {p text : List Char} {s : Scalar} (piece : IsPiece p)
      (spells : Spells p s) (rest : Laid Gap Last ls text) :
      Laid Gap Last (.scalar s :: ls) (p ++ text)

/-- One space. -/
def IsSpace (cs : List Char) : Prop := ∃ c, cs = [c] ∧ isSpace c = true

/-- In a text laid out as JSON the gaps are spaces. -/
def LaidPlain : List Lexeme → List Char → Prop := Laid IsSpace (· = [])

variable {ls : List Lexeme} {text : List Char}

theorem LaidPlain.nil :
  LaidPlain [] []
  := by
  constructor
  rfl

theorem LaidPlain.space (laid : LaidPlain ls text) {c : Char} (blank : isSpace c = true) :
  LaidPlain ls (c :: text)
  := by
  have longer : LaidPlain ls ([c] ++ text) := Laid.gap ⟨c, rfl, blank⟩ laid
  apply longer

theorem LaidPlain.spaces (laid : LaidPlain ls text) {spaces : List Char}
    (blank : ∀ c ∈ spaces, isSpace c = true) :
  LaidPlain ls (spaces ++ text)
  := by
  induction spaces with
  | nil => apply laid
  | cons c spaces ih =>
    rw [List.forall_mem_cons] at blank
    apply (ih blank.2).space blank.1

/-- No number or word goes on at a gap, at a mark or at the end. -/
theorem Laid.separate {Gap Last : List Char → Prop} (laid : Laid Gap Last ls text)
    (gaps : ∀ cs, Gap cs → cs ≠ [] ∧ Separate cs) (ends : ∀ cs, Last cs → Separate cs)
    (marked : ∀ l ∈ ls.head?, ∃ c, l = .mark c) :
  Separate text
  := by
  cases laid with
  | done last => apply ends _ last
  | gap gap =>
    obtain ⟨some, separate⟩ := gaps _ gap
    intro c head
    rw [List.head?_append_of_ne_nil _ some] at head
    apply separate c head
  | mark member => apply separate_mark member
  | literal =>
    obtain ⟨c, mark⟩ := marked _ rfl
    cases mark

theorem LaidPlain.separate (laid : LaidPlain ls text)
    (marked : ∀ l ∈ ls.head?, ∃ c, l = .mark c) :
  Separate text
  := by
  apply Laid.separate laid _ _ marked
  · rintro _ ⟨c, rfl, space⟩
    use List.cons_ne_nil c []
    rintro _ ⟨⟩
    apply isBare_of_isSpace space
  · rintro _ rfl c ⟨⟩

theorem LaidPlain.of_nil (laid : LaidPlain ls []) :
  ls = []
  := by
  generalize none_left : ([] : List Char) = text at laid
  cases laid with
  | done => rfl
  | gap gap =>
    obtain ⟨c, rfl, -⟩ := gap
    cases none_left
  | mark => cases none_left
  | literal piece => cases piece.ne_nil (List.append_eq_nil_iff.1 none_left.symm).1

/-- A text laid out as JSON goes on after a space, after a mark that is its first lexeme, or after a
piece in which its first lexeme is read. -/
theorem LaidPlain.cases_cons {c : Char} (laid : LaidPlain ls (c :: text)) :
  (isSpace c = true ∧ LaidPlain ls text)
    ∨ (c ∈ marks ∧ ∃ others, ls = .mark c :: others ∧ LaidPlain others text)
    ∨ ∃ p s others rest, c :: text = p ++ rest ∧ IsPiece p ∧ Spells p s
      ∧ ls = .scalar s :: others ∧ LaidPlain others rest
  := by
  generalize whole : c :: text = cs at laid
  cases laid with
  | done ends =>
    rw [ends] at whole
    cases whole
  | gap gap rest =>
    obtain ⟨d, rfl, space⟩ := gap
    obtain ⟨rfl, rfl⟩ := List.cons.inj whole
    exact .inl ⟨space, rest⟩
  | mark member rest =>
    obtain ⟨rfl, rfl⟩ := List.cons.inj whole
    exact .inr (.inl ⟨member, _, rfl, rest⟩)
  | literal piece spells rest => exact .inr (.inr ⟨_, _, _, _, rfl, piece, spells, rfl, rest⟩)

theorem isSpace_of_mem_marks :
  ∀ c ∈ marks, isSpace c = false
  := forall_mem_marks (by decide)

/-- No piece begins with a space or a mark. -/
theorem IsPiece.begins {p rest : List Char} (h : IsPiece p) {c : Char}
    (begins : c :: text = p ++ rest) :
  isSpace c = false ∧ c ∉ marks
  := by
  cases h with
  | quoted =>
    obtain ⟨rfl, -⟩ := List.cons.inj begins
    decide
  | bare some all =>
    obtain ⟨d, run, rfl⟩ := List.exists_cons_of_ne_nil some
    obtain ⟨rfl, -⟩ := List.cons.inj begins
    have bare : isBare c = true := all c List.mem_cons_self
    constructor
    · by_contra space
      rw [isBare_of_isSpace (by simpa using space)] at bare
      cases bare
    · intro member
      rw [isBare_of_mem_marks c member] at bare
      cases bare

theorem LaidPlain.of_space {c : Char} (laid : LaidPlain ls (c :: text)) (space : isSpace c = true) :
  LaidPlain ls text
  := by
  rcases laid.cases_cons with ⟨-, rest⟩ | ⟨member, -⟩ | ⟨p, s, others, rest, begins, piece, -⟩
  · apply rest
  · rw [isSpace_of_mem_marks c member] at space
    cases space
  · rw [(piece.begins begins).1] at space
    cases space

theorem LaidPlain.of_mark {c : Char} (laid : LaidPlain ls (c :: text)) (member : c ∈ marks) :
  ∃ others, ls = .mark c :: others ∧ LaidPlain others text
  := by
  rcases laid.cases_cons with ⟨space, -⟩ | ⟨-, rest⟩ | ⟨p, s, others, rest, begins, piece, -⟩
  · rw [isSpace_of_mem_marks c member] at space
    cases space
  · apply rest
  · cases (piece.begins begins).2 member

theorem LaidPlain.of_piece {p : List Char} (laid : LaidPlain ls (p ++ text)) (piece : IsPiece p)
    (separate : Separate text) (apart : Lexeme.Apart ls) :
  ∃ s others, ls = .scalar s :: others ∧ Spells p s ∧ LaidPlain others text
  := by
  obtain ⟨c, cs, split⟩ := List.exists_cons_of_ne_nil piece.ne_nil
  have whole : p ++ text = c :: (cs ++ text) := by
    rw [split, List.cons_append]
  have other := piece.begins whole.symm
  rw [whole] at laid
  rcases laid.cases_cons with ⟨space, -⟩ | ⟨member, -⟩
    | ⟨p', s, others, rest, begins, piece', spells, rfl, goes_on⟩
  · rw [other.1] at space
    cases space
  · cases other.2 member
  · rw [Lexeme.Apart, List.isChain_cons] at apart
    have separate' : Separate rest := by
      apply goes_on.separate
      intro l head
      apply apart.1 l head ⟨s, rfl⟩
    obtain ⟨rfl, rfl⟩ := piece.unique piece' separate separate' (whole.trans begins)
    use s, others

/-- The tokens of a text laid out as JSON are its lexemes. -/
theorem tokensFrom_of_laid (laid : LaidPlain ls text) (apart : Lexeme.Apart ls) (offset : Nat) :
  List.Forall₂ Lexeme.IsToken ls (tokensFrom offset .between text)
  := by
  rw [LaidPlain] at laid
  induction laid generalizing offset with
  | done ends =>
    rw [ends]
    apply List.Forall₂.nil
  | @gap ls between text gap rest ih =>
    obtain ⟨c, rfl, space⟩ := gap
    have blank : ∀ d ∈ [c], isSpace d = true := by
      simpa using space
    rw [tokensFrom_spaces blank]
    apply ih apart
  | @mark ls c text member rest ih =>
    rw [tokensFrom_mark member]
    apply List.Forall₂.cons (.mark c offset)
    rw [Lexeme.Apart, List.isChain_cons] at apart
    apply ih apart.2
  | @literal ls p text s piece spells rest ih =>
    rw [Lexeme.Apart, List.isChain_cons] at apart
    have separate : Separate text := by
      apply LaidPlain.separate rest
      intro l head
      apply apart.1 l head ⟨s, rfl⟩
    obtain ⟨stop, tokens⟩ := spells offset text separate
    rw [tokens]
    apply List.Forall₂.cons (.scalar s offset stop)
    apply ih apart.2

end TypeAssertions.Json
