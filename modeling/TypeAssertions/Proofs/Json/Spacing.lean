import TypeAssertions.Proofs.Json.Likeness
import TypeAssertions.Proofs.Json.Wholeness

/-!
# Inserted spaces

Spaces between tokens leave no trace: where spaces are inserted in a text outside of its strings, and
none of them parts two characters of a number or word, the tokens are alike (`Widens.tokensFrom`).
Where one does part two such characters, no record is read from the text with it
(`Torn.tokensFrom`).

A string is passed over, or not, whatever comes after its closing quote (`passes_or_breaks`), and a
number is read whatever comes after its last character (`readNumber_run`).
-/

namespace TypeAssertions.Json

/-! ### Steps of the scanner -/

theorem tokensFrom_halted (offset : Nat) (cs : List Char) :
  tokensFrom offset .halted cs = []
  := by
  induction cs generalizing offset with
  | nil => rfl
  | cons c cs ih =>
    have step : Scan.halted.step offset c cs = ([], .halted) := rfl
    rw [tokensFrom_cons step, List.nil_append, ih]

/-- Outside of literals stands a space, a character that begins a number or a word, or a mark. -/
inductive Begins (c : Char) : Prop
  | space (blank : isSpace c = true)
  | number (bare : isBare c = true) (phase : NumberPhase)
      (begins : ∀ offset cs,
        Scan.begin offset c cs = ([], .number offset (readNumber offset (c :: cs)) phase))
  | word (bare : isBare c = true) (value : Scalar) (letters : List Char) (some : letters ≠ [])
      (all : ∀ l ∈ letters, isBare l = true)
      (begins : ∀ offset cs, Scan.begin offset c cs = ([], .word offset value letters))
  | mark (begins : ∀ offset cs, Scan.begin offset c cs = ([.mark c offset], .between))

theorem begins_of_ne_quote {c : Char} (quote : c ≠ '"') :
  Begins c
  := by
  by_cases space : isSpace c = true
  · apply Begins.space space
  by_cases minus : c = '-'
  · subst minus
    apply Begins.number rfl .sign fun _ _ => rfl
  by_cases zero : c = '0'
  · subst zero
    apply Begins.number rfl .zero fun _ _ => rfl
  by_cases digit : c.isDigit = true
  · apply Begins.number (by simp [isBare, Char.isAlphanum, digit]) .whole
    intro offset cs
    apply begin_of_isDigit digit zero
  by_cases null : c = 'n'
  · subst null
    apply Begins.word rfl .null ['u', 'l', 'l'] (by simp) (List.all_eq_true.1 rfl) fun _ _ => rfl
  by_cases yes : c = 't'
  · subst yes
    apply Begins.word rfl (.bool true) ['r', 'u', 'e'] (by simp) (List.all_eq_true.1 rfl) fun _ _ => rfl
  by_cases no : c = 'f'
  · subst no
    apply Begins.word rfl (.bool false) ['a', 'l', 's', 'e'] (by simp) (List.all_eq_true.1 rfl) fun _ _ => rfl
  apply Begins.mark
  intro offset cs
  simp [Scan.begin, space, quote, minus, zero, digit, null, yes, no]

theorem tokensFrom_begin {scan : Scan} {c : Char} {offset : Nat} {cs : List Char}
    {ended : List Token} (begins : Scan.begin offset c cs = (ended, scan)) :
  tokensFrom offset .between (c :: cs) = ended ++ tokensFrom (offset + c.utf8Size) scan cs
  := by
  have step : Scan.between.step offset c cs = (ended, scan) := begins
  rw [tokensFrom_cons step]

theorem tokensFrom_space {c : Char} (blank : isSpace c = true) (offset : Nat) (cs : List Char) :
  tokensFrom offset .between (c :: cs) = tokensFrom (offset + c.utf8Size) .between cs
  := by
  have begins : Scan.begin offset c cs = ([], .between) := by
    rw [Scan.begin, if_pos blank]
  rw [tokensFrom_begin begins, List.nil_append]

section

variable {phase : NumberPhase} {c : Char}

theorem tokensFrom_number_next {p : NumberPhase} (goes_on : phase.step c = .next p)
    (offset start : Nat) (read : Except Failure Number) (cs : List Char) :
  tokensFrom offset (.number start read phase) (c :: cs)
    = tokensFrom (offset + c.utf8Size) (.number start read p) cs
  := by
  have step : (Scan.number start read phase).step offset c cs = ([], .number start read p) := by
    simp [Scan.step, goes_on]
  rw [tokensFrom_cons step, List.nil_append]

theorem tokensFrom_number_broken (broken : phase.step c = .broken) (offset start : Nat)
    (read : Except Failure Number) (cs : List Char) :
  tokensFrom offset (.number start read phase) (c :: cs)
    = [numberToken start offset read (.error ⟨.invalidNumber, offset + 1⟩)]
  := by
  have step : (Scan.number start read phase).step offset c cs
      = ([numberToken start offset read (.error ⟨.invalidNumber, offset + 1⟩)], .halted) := by
    simp [Scan.step, broken]
  rw [tokensFrom_cons step, tokensFrom_halted, List.append_nil]

theorem tokensFrom_number_ended (ended : phase.step c = .ended) (offset start : Nat)
    (read : Except Failure Number) (cs : List Char) :
  tokensFrom offset (.number start read phase) (c :: cs)
    = numberToken start offset read (.ok ()) :: tokensFrom offset .between (c :: cs)
  := by
  have step : (Scan.number start read phase).step offset c cs
      = (numberToken start offset read (.ok ()) :: (Scan.begin offset c cs).1,
        (Scan.begin offset c cs).2) := by
    simp [Scan.step, ended]
  have begun : tokensFrom offset .between (c :: cs)
      = (Scan.begin offset c cs).1
        ++ tokensFrom (offset + c.utf8Size) (Scan.begin offset c cs).2 cs :=
    tokensFrom_begin (Prod.eta _).symm
  rw [tokensFrom_cons step, begun, List.cons_append]

end

/-- A word goes on with its next letter, and is over after the last one. -/
theorem tokensFrom_letter (offset start : Nat) (value : Scalar) (l : Char) (letters cs : List Char) :
  tokensFrom offset (.word start value (l :: letters)) (l :: cs)
    = if letters = [] then
        wordToken start (offset + 1) (.ok value) :: tokensFrom (offset + l.utf8Size) .between cs
      else tokensFrom (offset + l.utf8Size) (.word start value letters) cs
  := by
  cases letters with
  | nil =>
    have step : (Scan.word start value [l]).step offset l cs
        = ([wordToken start (offset + 1) (.ok value)], .between) := by
      simp [Scan.step]
    rw [tokensFrom_cons step]
    rfl
  | cons m letters =>
    have step : (Scan.word start value (l :: m :: letters)).step offset l cs
        = ([], .word start value (m :: letters)) := by
      simp [Scan.step]
    rw [tokensFrom_cons step]
    rfl

theorem tokensFrom_other_letter (offset start : Nat) (value : Scalar) {l c : Char}
    (other : c ≠ l) (letters cs : List Char) :
  tokensFrom offset (.word start value (l :: letters)) (c :: cs)
    = [wordToken start offset (.error ⟨.expectedIdent, offset + 1⟩)]
  := by
  have step : (Scan.word start value (l :: letters)).step offset c cs
      = ([wordToken start offset (.error ⟨.expectedIdent, offset + 1⟩)], .halted) := by
    simp [Scan.step, other]
  rw [tokensFrom_cons step, tokensFrom_halted, List.append_nil]

/-! ### Numbers and words that do not go on -/

theorem separate_of_not_isBare {c : Char} (other : isBare c = false) (cs : List Char) :
  Separate (c :: cs)
  := by
  rintro _ ⟨⟩
  apply other

theorem NumberPhase.step_of_incomplete {p : NumberPhase} {c : Char}
    (incomplete : p.complete = false) (other : isBare c = false) :
  p.step c = .broken
  := by
  have stops := (separate_of_not_isBare other []).stops c rfl
  have signs : c ≠ '+' ∧ c ≠ '-' := by
    constructor
    · rintro rfl
      cases other
    · rintro rfl
      cases other
  have nonzero : c ≠ '0' := by
    rintro rfl
    cases other
  cases p with
  | zero | whole | fraction | power => cases incomplete
  | sign | point | exponent | exponentSign => simp [NumberPhase.step, stops, signs, nonzero]

/-- A number that lacks something is broken where it does not go on. -/
theorem tokensFrom_incomplete {p : NumberPhase} (incomplete : p.complete = false)
    {text : List Char} (separate : Separate text) (offset start : Nat)
    (read : Except Failure Number) :
  ∃ f, tokensFrom offset (.number start read p) text = [numberToken start offset read (.error f)]
  := by
  cases text with
  | nil =>
    use ⟨.invalidNumber, offset⟩
    simp [tokensFrom, Scan.finish, incomplete]
  | cons c cs =>
    have broken := NumberPhase.step_of_incomplete incomplete (separate c rfl)
    exact ⟨_, tokensFrom_number_broken broken offset start read cs⟩

/-- A word that lacks letters cannot be read where it does not go on. -/
theorem tokensFrom_word_of_separate {letters : List Char} (some : letters ≠ [])
    (bare : ∀ l ∈ letters, isBare l = true) {text : List Char} (separate : Separate text)
    (offset start : Nat) (value : Scalar) :
  ∃ f, tokensFrom offset (.word start value letters) text = [wordToken start offset (.error f)]
  := by
  cases letters with
  | nil => cases some rfl
  | cons l letters =>
    cases text with
    | nil => exact ⟨_, rfl⟩
    | cons c cs =>
      have other : c ≠ l := by
        rintro rfl
        have solid := separate c rfl
        rw [bare c List.mem_cons_self] at solid
        cases solid
      exact ⟨_, tokensFrom_other_letter offset start value other letters cs⟩

/-! ### Strings -/

theorem Inside.of_proper {c : Char} {cs : List Char} (h : Inside (c :: cs))
    (proper : c ≠ '"' ∧ c ≠ '\\') :
  Inside cs
  := by
  cases h with
  | plain _ rest => apply rest
  | escape => cases proper.2 rfl

/-- Characters that end no string stand before its end. -/
theorem exists_append_of_proper {body rest leading more : List Char} (ends : EndsString rest)
    (proper : ∀ c ∈ leading, c ≠ '"' ∧ c ≠ '\\') (same : body ++ rest = leading ++ more) :
  ∃ body', body = leading ++ body'
  := by
  rcases List.append_eq_append_iff.1 same with ⟨others, rfl, rfl⟩ | ⟨others, rfl, -⟩
  · cases others with
    | nil => exact ⟨[], by simp⟩
    | cons c others => cases ends.ne_plain (proper c (by simp))
  · use others

/-- Four digits stand before the end of a string, or nowhere. -/
theorem exists_digits {body rest more : List Char} {a b c d : Char} {n : Nat}
    (digits : hex4? a b c d = some n) (ends : EndsString rest)
    (same : body ++ rest = a :: b :: c :: d :: more) :
  ∃ body', body = a :: b :: c :: d :: body'
  := by
  obtain ⟨⟨_, first⟩, ⟨_, second⟩, ⟨_, third⟩, _, fourth⟩ := hex4?_eq_some digits
  apply @exists_append_of_proper body rest [a, b, c, d] more ends _ same
  simp only [List.forall_mem_cons]
  exact ⟨proper_of_hexDigit? first, proper_of_hexDigit? second, proper_of_hexDigit? third,
    proper_of_hexDigit? fourth, by simp⟩

theorem tokensFrom_string_broken {offset start : Nat} {read : Except Failure (List Char)}
    {phase : StringPhase} {c : Char} {cs : List Char} {f : Failure}
    (step : (Scan.string start read phase).step offset c cs
      = ([stringToken start offset read (.error f)], .halted)) :
  tokensFrom offset (.string start read phase) (c :: cs)
    = [stringToken start offset read (.error f)]
  := by
  rw [tokensFrom_cons step, tokensFrom_halted, List.append_nil]

/-- Before every end of a string, characters of it are passed over. -/
def Passes (body : List Char) : Prop :=
  ∀ offset start read rest, EndsString rest → ∃ offset',
    tokensFrom offset (.string start read .plain) (body ++ rest)
      = tokensFrom offset' (.string start read .plain) rest

/-- Before every end of a string, characters of it cannot be passed over. -/
def Breaks (body : List Char) : Prop :=
  ∀ offset start read rest, EndsString rest → ∃ stop f,
    tokensFrom offset (.string start read .plain) (body ++ rest)
      = [stringToken start stop read (.error f)]

/-- Characters after some that are passed over. -/
theorem passes_or_breaks_append {leading body : List Char}
    (passed : ∀ offset start read rest, ∃ offset',
      tokensFrom offset (.string start read .plain) (leading ++ rest)
        = tokensFrom offset' (.string start read .plain) rest)
    (h : Passes body ∨ Breaks body) :
  Passes (leading ++ body) ∨ Breaks (leading ++ body)
  := by
  apply h.imp
  all_goals
    intro later offset start read rest ends
    obtain ⟨offset', leads⟩ := passed offset start read (body ++ rest)
    rw [List.append_assoc, leads]
    apply later _ _ _ _ ends

theorem tokensFrom_backslash (offset start : Nat) (read : Except Failure (List Char))
    (cs : List Char) :
  tokensFrom offset (.string start read .plain) ('\\' :: cs)
    = tokensFrom (offset + '\\'.utf8Size) (.string start read .escape) cs
  := by
  have step : (Scan.string start read .plain).step offset '\\' cs
      = ([], .string start read .escape) := rfl
  rw [tokensFrom_cons step, List.nil_append]

/-- Four digits come after the letter of an escape, or the string breaks there. -/
theorem digits_or_breaks (body : List Char) :
  (∃ a b c d n body', body = a :: b :: c :: d :: body' ∧ hex4? a b c d = some n)
    ∨ Breaks ('\\' :: 'u' :: body)
  := by
  rw [or_iff_not_imp_left]
  intro digits offset start read rest ends
  have step (offset : Nat) : (Scan.string start read .escape).step offset 'u' (body ++ rest)
      = ([stringToken start offset read (.error (hexFailure (offset + 1) (body ++ rest)))],
        .halted) := by
    simp only [Scan.step, if_true]
    split
    case h_2 => rfl
    case h_1 a b c d more same =>
      rw [if_neg]
      intro hex
      obtain ⟨n, hex⟩ := Option.isSome_iff_exists.1 hex
      obtain ⟨body', split⟩ := exists_digits hex ends same
      apply digits ⟨a, b, c, d, n, body', split, hex⟩
  rw [List.cons_append, List.cons_append, tokensFrom_backslash]
  exact ⟨_, _, tokensFrom_string_broken (step _)⟩

/-- The characters of a string are passed over up to its end, or not, whatever comes after it. -/
theorem passes_or_breaks {body : List Char} (inside : Inside body) :
  Passes body ∨ Breaks body
  := by
  induction size : body.length using Nat.strong_induction_on generalizing body with
  | h n ih =>
    subst size
    cases inside with
    | nil => exact .inl fun offset start read rest _ => ⟨offset, rfl⟩
    | @plain c cs proper inside =>
      by_cases control : c.toNat < 0x20
      · right
        intro offset start read rest _
        have step : (Scan.string start read .plain).step offset c (cs ++ rest)
            = ([stringToken start offset read (.error ⟨.controlCharacter, offset⟩)], .halted) := by
          simp [Scan.step, proper, control]
        exact ⟨_, _, tokensFrom_string_broken step⟩
      · apply @passes_or_breaks_append [c] cs _ (ih _ (Nat.lt_succ_self _) inside rfl)
        intro offset start read rest
        have step : (Scan.string start read .plain).step offset c rest
            = ([], .string start read .plain) := by
          simp [Scan.step, proper, control]
        exact ⟨_, tokensFrom_cons step⟩
    | @escape c cs inside =>
      by_cases unicode : c = 'u'
      · subst unicode
        rcases digits_or_breaks cs with ⟨a, b, d, e, n, cs, rfl, digits⟩ | breaks
        · obtain ⟨⟨_, first⟩, ⟨_, second⟩, ⟨_, third⟩, _, fourth⟩ := hex4?_eq_some digits
          have inner := (((inside.of_proper (proper_of_hexDigit? first)).of_proper
            (proper_of_hexDigit? second)).of_proper (proper_of_hexDigit? third)).of_proper
            (proper_of_hexDigit? fourth)
          have shorter : cs.length < ('\\' :: 'u' :: a :: b :: d :: e :: cs).length := by
            simp only [List.length_cons]
            omega
          apply @passes_or_breaks_append ['\\', 'u', a, b, d, e] cs _ (ih _ shorter inner rfl)
          apply tokensFrom_hex digits
        · exact .inr breaks
      · cases meant : escaped? c with
        | none =>
          right
          intro offset start read rest _
          have step (offset : Nat) : (Scan.string start read .escape).step offset c (cs ++ rest)
              = ([stringToken start offset read (.error ⟨.invalidEscape, offset + 1⟩)],
                .halted) := by
            simp [Scan.step, unicode, meant]
          rw [List.cons_append, List.cons_append, tokensFrom_backslash]
          exact ⟨_, _, tokensFrom_string_broken (step _)⟩
        | some meaning =>
          have shorter : cs.length < ('\\' :: c :: cs).length := by
            simp only [List.length_cons]
            omega
          apply @passes_or_breaks_append ['\\', c] cs _ (ih _ shorter inside rfl)
          intro offset start read rest
          have step (offset : Nat) : (Scan.string start read .escape).step offset c rest
              = ([], .string start read .plain) := by
            simp [Scan.step, unicode, meant]
          use offset + '\\'.utf8Size + c.utf8Size
          rw [List.cons_append, List.singleton_append, tokensFrom_backslash,
            tokensFrom_cons (step _), List.nil_append]

/-- What is read as a string does not depend on what comes after it. -/
theorem readString_inside {body : List Char} (inside : Inside body) (offset offset' : Nat)
    (rest rest' : List Char) :
  (readString offset (body ++ '"' :: rest)).toOption
    = (readString offset' (body ++ '"' :: rest')).toOption
  := by
  have again (offset offset' : Nat) (rest rest' chars : List Char)
      (read : readString offset (body ++ '"' :: rest) = .ok chars) :
      readString offset' (body ++ '"' :: rest') = .ok chars := by
    obtain ⟨body', more, same, quoted⟩ := exists_quoted read
    obtain ⟨rfl, -⟩ := inside.unique quoted.inside same
    apply quoted.read
  apply Except.toOption_eq_of_ok
  · intro chars
    apply again
  · intro chars
    apply again

/-- Nothing is read where no quote ends a string. -/
theorem exists_readString_error {body stop : List Char} (inside : Inside body)
    (unclosed : stop = [] ∨ stop = ['\\']) (offset : Nat) :
  ∃ f, readString offset (body ++ stop) = .error f
  := by
  cases read : readString offset (body ++ stop) with
  | error f => use f
  | ok chars =>
    obtain ⟨body', more, same, quoted⟩ := exists_quoted read
    have ends : EndsString stop := unclosed.imp_right .inl
    obtain rfl := inside.unique_of_ends quoted.inside ends (.inr (.inr ⟨more, rfl⟩)) same
    obtain rfl := List.append_cancel_left same
    rcases unclosed with unclosed | unclosed
    · cases unclosed
    · cases (List.cons.inj unclosed).1

theorem tokensFrom_quote (offset : Nat) (cs : List Char) :
  tokensFrom offset .between ('"' :: cs)
    = tokensFrom (offset + '"'.utf8Size) (.string offset (readString (offset + 1) cs) .plain) cs
  := by
  have begins : Scan.begin offset '"' cs
      = ([], .string offset (readString (offset + 1) cs) .plain) := rfl
  rw [tokensFrom_begin begins, List.nil_append]

/-- A string that is closed is one token, after which the text goes on, or it breaks. -/
theorem tokensFrom_closed {body : List Char} (inside : Inside body) :
  (∀ offset rest, ∃ stop, tokensFrom offset .between ('"' :: (body ++ '"' :: rest))
      = stringToken offset stop (readString (offset + 1) (body ++ '"' :: rest)) (.ok ())
        :: tokensFrom stop .between rest)
    ∨ ∀ offset rest, ∃ stop f, tokensFrom offset .between ('"' :: (body ++ '"' :: rest))
      = [stringToken offset stop (readString (offset + 1) (body ++ '"' :: rest)) (.error f)]
  := by
  have ends (rest : List Char) : EndsString ('"' :: rest) := .inr (.inr ⟨rest, rfl⟩)
  apply (passes_or_breaks inside).imp
  · intro passes offset rest
    obtain ⟨offset', passed⟩ := passes (offset + '"'.utf8Size) offset
      (readString (offset + 1) (body ++ '"' :: rest)) _ (ends rest)
    use offset' + 1
    rw [tokensFrom_quote, passed]
    rfl
  · intro breaks offset rest
    rw [tokensFrom_quote]
    apply breaks _ _ _ _ (ends rest)

theorem tokensFrom_unclosed {body stop : List Char} (inside : Inside body)
    (unclosed : stop = [] ∨ stop = ['\\']) (offset : Nat) :
  ∃ last f, tokensFrom offset .between ('"' :: (body ++ stop))
    = [stringToken offset last (readString (offset + 1) (body ++ stop)) (.error f)]
  := by
  have ends : EndsString stop := unclosed.imp_right .inl
  rw [tokensFrom_quote]
  rcases passes_or_breaks inside with passes | breaks
  · obtain ⟨offset', passed⟩ := passes (offset + '"'.utf8Size) offset
      (readString (offset + 1) (body ++ stop)) _ ends
    rw [passed]
    rcases unclosed with rfl | rfl
    · exact ⟨_, _, rfl⟩
    · exact ⟨_, _, rfl⟩
  · apply breaks _ _ _ _ ends

/-! ### Numbers -/

/-- What is read as a number depends on the characters of numbers and words at its start. -/
theorem readNumber_run {run rest rest' : List Char} (bare : ∀ c ∈ run, isBare c = true)
    (separate : Separate rest) (separate' : Separate rest') (offset offset' : Nat) :
  (readNumber offset (run ++ rest)).toOption = (readNumber offset' (run ++ rest')).toOption
  := by
  have again {rest rest' : List Char} (separate : Separate rest) (separate' : Separate rest')
      (offset offset' : Nat) (n : Number) (read : readNumber offset (run ++ rest) = .ok n) :
      readNumber offset' (run ++ rest') = .ok n := by
    obtain ⟨numeral, more, q, same, h, ends⟩ := exists_numeral read
    rcases List.append_eq_append_iff.1 same with ⟨others, rfl, rfl⟩ | ⟨others, rfl, rfl⟩
    · -- the numeral does not go on beyond the run
      cases others with
      | nil =>
        rw [List.append_nil] at h
        apply h.read
        apply NumberPhase.ends_of_stops h.complete separate'.stops
      | cons c others =>
        have solid := separate c rfl
        rw [h.bare c (by simp)] at solid
        cases solid
    · rw [List.append_assoc]
      apply h.read
      cases others with
      | nil => apply NumberPhase.ends_of_stops h.complete separate'.stops
      | cons c others => exact ⟨h.complete, ends.2⟩
  apply Except.toOption_eq_of_ok
  · apply again separate separate'
  · apply again separate' separate

/-! ### Texts with spaces -/

/-- Spaces are inserted in a text outside of its strings, and none of them parts two characters of a
number or word. -/
inductive Widens : List Char → List Char → Prop
  | nil : Widens [] []
  | space {text text' : List Char} (rest : Widens text text') : Widens text (' ' :: text')
  | other {c : Char} {text text' : List Char} (quote : c ≠ '"')
      (joined : isBare c = true → (Separate text ↔ Separate text')) (rest : Widens text text') :
      Widens (c :: text) (c :: text')
  | closed {body text text' : List Char} (inside : Inside body) (rest : Widens text text') :
      Widens ('"' :: (body ++ '"' :: text)) ('"' :: (body ++ '"' :: text'))
  | unclosed {body stop : List Char} (inside : Inside body)
      (unclosed : stop = [] ∨ stop = ['\\']) :
      Widens ('"' :: (body ++ stop)) ('"' :: (body ++ stop))

theorem separate_quote (cs : List Char) :
  Separate ('"' :: cs)
  := separate_of_not_isBare rfl cs

theorem separate_space (cs : List Char) :
  Separate (' ' :: cs)
  := separate_of_not_isBare rfl cs

theorem separate_nil :
  Separate []
  := nofun

/-- The characters of numbers and words at the start of a text are the same ones. -/
theorem Widens.run {text text' : List Char} (h : Widens text text')
    (same : Separate text ↔ Separate text') :
  ∃ run rest rest', text = run ++ rest ∧ text' = run ++ rest' ∧ (∀ c ∈ run, isBare c = true)
    ∧ Separate rest ∧ Separate rest'
  := by
  have apart {text text' : List Char} (separate : Separate text) (separate' : Separate text') :
      ∃ run rest rest', text = run ++ rest ∧ text' = run ++ rest' ∧ (∀ c ∈ run, isBare c = true)
        ∧ Separate rest ∧ Separate rest' :=
    ⟨[], text, text', rfl, rfl, by simp, separate, separate'⟩
  induction h with
  | nil => apply apart separate_nil separate_nil
  | space => apply apart (same.2 (separate_space _)) (separate_space _)
  | closed | unclosed => apply apart (separate_quote _) (separate_quote _)
  | @other c text text' quote joined rest ih =>
    cases bare : isBare c with
    | false => apply apart (separate_of_not_isBare bare _) (separate_of_not_isBare bare _)
    | true =>
      obtain ⟨run, more, more', rfl, rfl, all, separate, separate'⟩ := ih (joined bare)
      refine ⟨c :: run, more, more', rfl, rfl, ?_, separate, separate'⟩
      rw [List.forall_mem_cons]
      exact ⟨bare, all⟩

/-! ### Alike tokens -/

theorem wordToken_like (start start' stop stop' : Nat) {outcome outcome' : Except Failure Scalar}
    (same : outcome.toOption = outcome'.toOption) :
  (wordToken start stop outcome).Like (wordToken start' stop' outcome')
  := .literal ⟨rfl, same, Except.toOption_map_congr _ same⟩

theorem numberToken_like (start start' stop stop' : Nat) {read read' : Except Failure Number}
    {skip skip' : Except Failure Unit} (same : read.toOption = read'.toOption)
    (passed : skip.toOption = skip'.toOption) :
  (numberToken start stop read skip).Like (numberToken start' stop' read' skip')
  := .literal ⟨rfl, Except.toOption_map_congr _ same, passed⟩

theorem stringToken_like (start start' stop stop' : Nat) {read read' : Except Failure (List Char)}
    {skip skip' : Except Failure Unit} (same : read.toOption = read'.toOption)
    (passed : skip.toOption = skip'.toOption) :
  (stringToken start stop read skip).Like (stringToken start' stop' read' skip')
  := .literal ⟨rfl, Except.toOption_map_congr _ same, passed⟩

/-- The scanner is in the middle of alike numbers or words. -/
inductive Scan.Open : Scan → Scan → Prop
  | word (start start' : Nat) (value : Scalar) {letters : List Char} (some : letters ≠ [])
      (bare : ∀ l ∈ letters, isBare l = true) :
      Open (.word start value letters) (.word start' value letters)
  | number (start start' : Nat) {read read' : Except Failure Number}
      (same : read.toOption = read'.toOption) (phase : NumberPhase) :
      Open (.number start read phase) (.number start' read' phase)

/-- Alike numbers and words end alike where neither goes on. -/
theorem Scan.Open.separate {scan scan' : Scan} (h : scan.Open scan') {text text' : List Char}
    (separate : Separate text) (separate' : Separate text')
    (between : ∀ offset offset', List.Forall₂ Token.Like (tokensFrom offset .between text)
      (tokensFrom offset' .between text')) (offset offset' : Nat) :
  List.Forall₂ Token.Like (tokensFrom offset scan text) (tokensFrom offset' scan' text')
  := by
  cases h with
  | word start start' value some bare =>
    obtain ⟨f, tokens⟩ := tokensFrom_word_of_separate some bare separate offset start value
    obtain ⟨f', tokens'⟩ := tokensFrom_word_of_separate some bare separate' offset' start' value
    rw [tokens, tokens']
    apply List.Forall₂.cons (wordToken_like _ _ _ _ (Except.toOption_error f f')) .nil
  | number start start' same phase =>
    cases complete : phase.complete with
    | true =>
      rw [(NumberPhase.ends_of_stops complete separate.stops).tokensFrom,
        (NumberPhase.ends_of_stops complete separate'.stops).tokensFrom]
      apply List.Forall₂.cons (numberToken_like _ _ _ _ same rfl) (between _ _)
    | false =>
      obtain ⟨f, tokens⟩ := tokensFrom_incomplete complete separate offset start _
      obtain ⟨f', tokens'⟩ := tokensFrom_incomplete complete separate' offset' start' _
      rw [tokens, tokens']
      apply List.Forall₂.cons (numberToken_like _ _ _ _ same (Except.toOption_error f f')) .nil

/-- Alike numbers and words go on alike over a character of numbers and words. -/
theorem Scan.Open.bare {scan scan' : Scan} (h : scan.Open scan') {c : Char} {text text' : List Char}
    (between : ∀ offset offset', List.Forall₂ Token.Like (tokensFrom offset .between (c :: text))
      (tokensFrom offset' .between (c :: text')))
    (after : ∀ offset offset', List.Forall₂ Token.Like (tokensFrom offset .between text)
      (tokensFrom offset' .between text'))
    (inside : ∀ scan scan', scan.Open scan' → ∀ offset offset',
      List.Forall₂ Token.Like (tokensFrom offset scan text) (tokensFrom offset' scan' text'))
    (offset offset' : Nat) :
  List.Forall₂ Token.Like (tokensFrom offset scan (c :: text))
    (tokensFrom offset' scan' (c :: text'))
  := by
  cases h with
  | @word start start' value letters some bare =>
    cases letters with
    | nil => cases some rfl
    | cons l letters =>
      by_cases same : c = l
      · subst same
        rw [tokensFrom_letter, tokensFrom_letter]
        split
        case isTrue => apply List.Forall₂.cons (wordToken_like _ _ _ _ rfl) (after _ _)
        case isFalse more =>
          apply inside
          apply Scan.Open.word start start' value more
          intro l member
          apply bare l (List.mem_cons_of_mem c member)
      · rw [tokensFrom_other_letter _ _ _ same, tokensFrom_other_letter _ _ _ same]
        apply List.Forall₂.cons (wordToken_like _ _ _ _ (Except.toOption_error _ _)) .nil
  | @number start start' read read' same phase =>
    cases step : phase.step c with
    | next p =>
      rw [tokensFrom_number_next step, tokensFrom_number_next step]
      apply inside
      apply Scan.Open.number start start' same
    | broken =>
      rw [tokensFrom_number_broken step, tokensFrom_number_broken step]
      apply List.Forall₂.cons (numberToken_like _ _ _ _ same (Except.toOption_error _ _)) .nil
    | ended =>
      rw [tokensFrom_number_ended step, tokensFrom_number_ended step]
      apply List.Forall₂.cons (numberToken_like _ _ _ _ same rfl) (between _ _)

/-- Alike strings are alike tokens, and go on alike. -/
theorem tokensFrom_closed_like {body text text' : List Char} (inside : Inside body)
    (after : ∀ offset offset', List.Forall₂ Token.Like (tokensFrom offset .between text)
      (tokensFrom offset' .between text')) (offset offset' : Nat) :
  List.Forall₂ Token.Like (tokensFrom offset .between ('"' :: (body ++ '"' :: text)))
    (tokensFrom offset' .between ('"' :: (body ++ '"' :: text')))
  := by
  have same := readString_inside inside (offset + 1) (offset' + 1) text text'
  rcases tokensFrom_closed inside with passes | breaks
  · obtain ⟨stop, tokens⟩ := passes offset text
    obtain ⟨stop', tokens'⟩ := passes offset' text'
    rw [tokens, tokens']
    apply List.Forall₂.cons (stringToken_like _ _ _ _ same rfl) (after _ _)
  · obtain ⟨stop, f, tokens⟩ := breaks offset text
    obtain ⟨stop', f', tokens'⟩ := breaks offset' text'
    rw [tokens, tokens']
    apply List.Forall₂.cons (stringToken_like _ _ _ _ same (Except.toOption_error f f')) .nil

theorem tokensFrom_unclosed_like {body stop : List Char} (inside : Inside body)
    (unclosed : stop = [] ∨ stop = ['\\']) (offset offset' : Nat) :
  List.Forall₂ Token.Like (tokensFrom offset .between ('"' :: (body ++ stop)))
    (tokensFrom offset' .between ('"' :: (body ++ stop)))
  := by
  obtain ⟨last, f, tokens⟩ := tokensFrom_unclosed inside unclosed offset
  obtain ⟨last', f', tokens'⟩ := tokensFrom_unclosed inside unclosed offset'
  obtain ⟨g, failed⟩ := exists_readString_error inside unclosed (offset + 1)
  obtain ⟨g', failed'⟩ := exists_readString_error inside unclosed (offset' + 1)
  rw [tokens, tokens', failed, failed']
  apply List.Forall₂.cons _ .nil
  apply stringToken_like _ _ _ _ (Except.toOption_error g g') (Except.toOption_error f f')

/-- With inserted spaces a text has alike tokens, also where it goes on with a number or word. -/
theorem Widens.tokensFrom {text text' : List Char} (h : Widens text text') :
  (∀ offset offset', List.Forall₂ Token.Like (tokensFrom offset .between text)
      (tokensFrom offset' .between text'))
    ∧ ((Separate text ↔ Separate text') → ∀ scan scan', scan.Open scan' → ∀ offset offset',
      List.Forall₂ Token.Like (tokensFrom offset scan text) (tokensFrom offset' scan' text'))
  := by
  induction h with
  | nil =>
    have between (offset offset' : Nat) : List.Forall₂ Token.Like
        (Json.tokensFrom offset .between []) (Json.tokensFrom offset' .between []) := .nil
    exact ⟨between, fun _ scan scan' h => h.separate separate_nil separate_nil between⟩
  | @space text text' _ ih =>
    have between (offset offset' : Nat) : List.Forall₂ Token.Like
        (Json.tokensFrom offset .between text) (Json.tokensFrom offset' .between (' ' :: text')) := by
      rw [tokensFrom_space rfl]
      apply ih.1
    use between
    intro same scan scan' h
    apply h.separate (same.2 (separate_space _)) (separate_space _) between
  | @other c text text' quote joined rest ih =>
    have between (offset offset' : Nat) : List.Forall₂ Token.Like
        (Json.tokensFrom offset .between (c :: text))
        (Json.tokensFrom offset' .between (c :: text')) := by
      rcases begins_of_ne_quote quote with blank | ⟨bare, phase, begins⟩
        | ⟨bare, value, letters, some, all, begins⟩ | begins
      · rw [tokensFrom_space blank, tokensFrom_space blank]
        apply ih.1
      · obtain ⟨run, more, more', rfl, rfl, all, separate, separate'⟩ := rest.run (joined bare)
        have read : (readNumber offset (c :: (run ++ more))).toOption
            = (readNumber offset' (c :: (run ++ more'))).toOption := by
          apply @readNumber_run (c :: run) more more' _ separate separate'
          rw [List.forall_mem_cons]
          exact ⟨bare, all⟩
        rw [tokensFrom_begin (begins _ _), tokensFrom_begin (begins _ _)]
        apply ih.2 (joined bare) _ _ (.number offset offset' read phase)
      · rw [tokensFrom_begin (begins _ _), tokensFrom_begin (begins _ _)]
        apply ih.2 (joined bare) _ _ (.word offset offset' value some all)
      · rw [tokensFrom_begin (begins _ _), tokensFrom_begin (begins _ _)]
        apply List.Forall₂.cons (.mark c offset offset') (ih.1 _ _)
    use between
    intro same scan scan' h
    cases bare : isBare c with
    | false =>
      apply h.separate (separate_of_not_isBare bare _) (separate_of_not_isBare bare _) between
    | true => apply h.bare between ih.1 (ih.2 (joined bare))
  | closed inside _ ih =>
    have between := tokensFrom_closed_like inside ih.1
    exact ⟨between, fun _ scan scan' h => h.separate (separate_quote _) (separate_quote _) between⟩
  | unclosed inside unclosed =>
    have between := tokensFrom_unclosed_like inside unclosed
    exact ⟨between, fun _ scan scan' h => h.separate (separate_quote _) (separate_quote _) between⟩

/-! ### Torn texts -/

/-- Outside of the strings of a text, spaces part two characters of numbers or words. -/
inductive Torn : List Char → Prop
  | gap {c d : Char} {spaces rest : List Char} (bare : isBare c = true) (some : spaces ≠ [])
      (blank : ∀ e ∈ spaces, isSpace e = true) (bare' : isBare d = true) :
      Torn (c :: (spaces ++ d :: rest))
  | other {c : Char} {text : List Char} (quote : c ≠ '"') (rest : Torn text) : Torn (c :: text)
  | closed {body text : List Char} (inside : Inside body) (rest : Torn text) :
      Torn ('"' :: (body ++ '"' :: text))

theorem Torn.spaces {spaces text : List Char} (all : ∀ c ∈ spaces, isSpace c = true)
    (h : Torn text) :
  Torn (spaces ++ text)
  := by
  induction spaces with
  | nil => apply h
  | cons c spaces ih =>
    rw [List.forall_mem_cons] at all
    apply Torn.other _ (ih all.2)
    rintro rfl
    cases all.1

theorem Fluent.tail {token : Token} {ts : List Token} (h : Fluent (token :: ts)) :
  Fluent ts
  := by
  cases h with
  | mark _ _ rest => apply rest
  | literal _ _ rest => apply rest

theorem not_fluent_wordToken (start stop : Nat) (f : Failure) :
  ¬ Fluent [wordToken start stop (.error f)]
  := by
  rintro (_ | _ | ⟨passed, -, -⟩)
  cases passed

theorem not_fluent_numberToken (start stop : Nat) (read : Except Failure Number) (f : Failure) :
  ¬ Fluent [numberToken start stop read (.error f)]
  := by
  rintro (_ | _ | ⟨passed, -, -⟩)
  cases passed

/-- A number that has begun is the next token. -/
theorem exists_number (offset start : Nat) (read : Except Failure Number) (phase : NumberPhase)
    (cs : List Char) :
  ∃ l ts, tokensFrom offset (.number start read phase) cs = .literal l :: ts
  := by
  induction cs generalizing offset phase with
  | nil => exact ⟨_, _, rfl⟩
  | cons c cs ih =>
    cases step : phase.step c with
    | next p =>
      rw [tokensFrom_number_next step]
      apply ih
    | broken =>
      rw [tokensFrom_number_broken step]
      exact ⟨_, _, rfl⟩
    | ended =>
      rw [tokensFrom_number_ended step]
      exact ⟨_, _, rfl⟩

/-- A word that has begun is the next token. -/
theorem exists_word {letters : List Char} (some : letters ≠ []) (offset start : Nat)
    (value : Scalar) (cs : List Char) :
  ∃ l ts, tokensFrom offset (.word start value letters) cs = .literal l :: ts
  := by
  induction cs generalizing offset letters with
  | nil => exact ⟨_, _, rfl⟩
  | cons c cs ih =>
    cases letters with
    | nil => cases some rfl
    | cons l letters =>
      by_cases same : c = l
      · subst same
        rw [tokensFrom_letter]
        split
        case isTrue => exact ⟨_, _, rfl⟩
        case isFalse more => apply ih more
      · rw [tokensFrom_other_letter _ _ _ same]
        exact ⟨_, _, rfl⟩

/-- No character of a number or word comes right after a literal. -/
theorem not_fluent_bare {d : Char} (bare : isBare d = true) (l : Literal) (offset : Nat)
    (rest : List Char) :
  ¬ Fluent (.literal l :: tokensFrom offset .between (d :: rest))
  := by
  have quote : d ≠ '"' := by
    rintro rfl
    cases bare
  have next {l' : Literal} {ts : List Token} : ¬ Fluent (.literal l :: .literal l' :: ts) := by
    rintro (_ | _ | ⟨-, apart, -⟩)
    apply apart l' rfl
  rcases begins_of_ne_quote quote with blank | ⟨-, phase, begins⟩
    | ⟨-, value, letters, some, -, begins⟩ | begins
  · rw [isBare_of_isSpace blank] at bare
    cases bare
  · rw [tokensFrom_begin (begins _ _), List.nil_append]
    obtain ⟨l', ts, tokens⟩ := exists_number (offset + d.utf8Size) offset
      (readNumber offset (d :: rest)) phase rest
    rw [tokens]
    apply next
  · rw [tokensFrom_begin (begins _ _), List.nil_append]
    obtain ⟨l', ts, tokens⟩ := exists_word some (offset + d.utf8Size) offset value rest
    rw [tokens]
    apply next
  · rw [tokensFrom_begin (begins _ _)]
    intro fluent
    cases fluent.tail with
    | mark member =>
      rw [isBare_of_mem_marks d member] at bare
      cases bare

/-- A number or word that does not go on is not fluent where the text after it is not. -/
theorem Scan.Open.not_fluent_separate {scan : Scan} (h : scan.Open scan) {text : List Char}
    (separate : Separate text)
    (next : ∀ l offset, ¬ Fluent (.literal l :: tokensFrom offset .between text)) (offset : Nat) :
  ¬ Fluent (tokensFrom offset scan text)
  := by
  cases h with
  | word start _ value some bare =>
    obtain ⟨f, tokens⟩ := tokensFrom_word_of_separate some bare separate offset start value
    rw [tokens]
    apply not_fluent_wordToken
  | @number start _ read _ same phase =>
    cases complete : phase.complete with
    | true =>
      rw [(NumberPhase.ends_of_stops complete separate.stops).tokensFrom]
      apply next
    | false =>
      obtain ⟨f, tokens⟩ := tokensFrom_incomplete complete separate offset start read
      rw [tokens]
      apply not_fluent_numberToken

/-- A number or word is not fluent over a character where nothing is that may come of it. -/
theorem Scan.Open.not_fluent_cons {scan : Scan} (h : scan.Open scan) {c : Char} {text : List Char}
    (between : ∀ offset, ¬ Fluent (tokensFrom offset .between (c :: text)))
    (after : ∀ l offset, ¬ Fluent (.literal l :: tokensFrom offset .between text))
    (inside : ∀ scan : Scan, scan.Open scan → ∀ offset, ¬ Fluent (tokensFrom offset scan text))
    (offset : Nat) :
  ¬ Fluent (tokensFrom offset scan (c :: text))
  := by
  cases h with
  | @word start _ value letters some bare =>
    cases letters with
    | nil => cases some rfl
    | cons l letters =>
      by_cases same : c = l
      · subst same
        rw [tokensFrom_letter]
        split
        case isTrue => apply after
        case isFalse more =>
          apply inside
          apply Scan.Open.word start start value more
          intro l member
          apply bare l (List.mem_cons_of_mem c member)
      · rw [tokensFrom_other_letter _ _ _ same]
        apply not_fluent_wordToken
  | @number start _ read _ same phase =>
    cases step : phase.step c with
    | next p =>
      rw [tokensFrom_number_next step]
      apply inside
      apply Scan.Open.number start start same
    | broken =>
      rw [tokensFrom_number_broken step]
      apply not_fluent_numberToken
    | ended =>
      rw [tokensFrom_number_ended step]
      intro fluent
      apply between _ fluent.tail

/-- The tokens of a torn text are not fluent, also where it goes on with a number or word. -/
theorem Torn.tokensFrom {text : List Char} (h : Torn text) :
  (∀ offset, ¬ Fluent (tokensFrom offset .between text))
    ∧ ∀ scan : Scan, scan.Open scan → ∀ offset, ¬ Fluent (tokensFrom offset scan text)
  := by
  induction h with
  | @gap c d spaces rest bare some blank bare' =>
    have after (l : Literal) (offset : Nat) :
        ¬ Fluent (.literal l :: Json.tokensFrom offset .between (spaces ++ d :: rest)) := by
      rw [tokensFrom_spaces blank]
      apply not_fluent_bare bare'
    have inside (scan : Scan) (h : scan.Open scan) (offset : Nat) :
        ¬ Fluent (Json.tokensFrom offset scan (spaces ++ d :: rest)) := by
      apply h.not_fluent_separate _ after
      intro e head
      rw [List.head?_append_of_ne_nil _ some] at head
      apply isBare_of_isSpace (blank e (List.mem_of_mem_head? head))
    have between (offset : Nat) :
        ¬ Fluent (Json.tokensFrom offset .between (c :: (spaces ++ d :: rest))) := by
      have quote : c ≠ '"' := by
        rintro rfl
        cases bare
      rcases begins_of_ne_quote quote with space | ⟨-, phase, begins⟩
        | ⟨-, value, letters, some, all, begins⟩ | begins
      · rw [isBare_of_isSpace space] at bare
        cases bare
      · rw [tokensFrom_begin (begins _ _)]
        apply inside _ (.number offset offset rfl phase)
      · rw [tokensFrom_begin (begins _ _)]
        apply inside _ (.word offset offset value some all)
      · rw [tokensFrom_begin (begins _ _)]
        rintro (_ | ⟨member, -, -⟩ | _)
        rw [isBare_of_mem_marks c member] at bare
        cases bare
    exact ⟨between, fun scan h => h.not_fluent_cons between after inside⟩
  | @other c text quote _ ih =>
    have between (offset : Nat) : ¬ Fluent (Json.tokensFrom offset .between (c :: text)) := by
      rcases begins_of_ne_quote quote with blank | ⟨-, phase, begins⟩
        | ⟨-, value, letters, some, all, begins⟩ | begins
      · rw [tokensFrom_space blank]
        apply ih.1
      · rw [tokensFrom_begin (begins _ _)]
        apply ih.2 _ (.number offset offset rfl phase)
      · rw [tokensFrom_begin (begins _ _)]
        apply ih.2 _ (.word offset offset value some all)
      · rw [tokensFrom_begin (begins _ _)]
        intro fluent
        apply ih.1 _ fluent.tail
    use between
    intro scan h
    apply h.not_fluent_cons between _ ih.2
    intro l offset fluent
    apply ih.1 _ fluent.tail
  | @closed body text inside _ ih =>
    have between (offset : Nat) :
        ¬ Fluent (Json.tokensFrom offset .between ('"' :: (body ++ '"' :: text))) := by
      rcases tokensFrom_closed inside with passes | breaks
      · obtain ⟨stop, tokens⟩ := passes offset text
        rw [tokens]
        intro fluent
        apply ih.1 _ fluent.tail
      · obtain ⟨stop, f, tokens⟩ := breaks offset text
        rw [tokens]
        rintro (_ | _ | ⟨passed, -, -⟩)
        cases passed
    use between
    intro scan h
    apply h.not_fluent_separate (separate_quote _)
    intro l offset fluent
    apply between _ fluent.tail

end TypeAssertions.Json
