import TypeAssertions.Proofs.Except
import TypeAssertions.Proofs.Json.Lexing

/-!
# Numerals

Where a number is read, a numeral stands that ends there: the automaton of numerals goes on over it
up to a phase in which it may end (`exists_numeral`).  The same number is read, and the same
characters are passed over, in every text in which the numeral stands and none goes on after it.
-/

namespace TypeAssertions.Json

/-! ### The automaton -/

/-- A character of a number or a word. -/
def isBare (c : Char) : Bool := c.isAlphanum || c = '+' || c = '-' || c = '.'

/-- The automaton goes on over characters. -/
inductive NumberPhase.Runs : NumberPhase → List Char → NumberPhase → Prop
  | nil (p : NumberPhase) : Runs p [] p
  | cons {p q r : NumberPhase} {c : Char} {cs : List Char} (step : p.step c = .next q)
      (rest : Runs q cs r) : Runs p (c :: cs) r

namespace NumberPhase

variable {p q r : NumberPhase} {c : Char} {cs ds rest : List Char}

theorem Runs.append (h : p.Runs cs q) (h' : q.Runs ds r) :
  p.Runs (cs ++ ds) r
  := by
  induction h with
  | nil => apply h'
  | cons step _ ih => apply Runs.cons step (ih h')

/-- Digits go on where one of them does. -/
theorem runs_digits (loop : ∀ d : Char, d.isDigit = true → p.step d = .next p)
    (digits : ∀ d ∈ ds, d.isDigit = true) :
  p.Runs ds p
  := by
  induction ds with
  | nil => apply Runs.nil
  | cons d ds ih =>
    rw [List.forall_mem_cons] at digits
    apply Runs.cons (loop d digits.1) (ih digits.2)

theorem runs_digits_of_ne_nil (first : ∀ d : Char, d.isDigit = true → p.step d = .next q)
    (loop : ∀ d : Char, d.isDigit = true → q.step d = .next q)
    (digits : ∀ d ∈ ds, d.isDigit = true) (some : ds ≠ []) :
  p.Runs ds q
  := by
  cases ds with
  | nil => cases some rfl
  | cons d ds =>
    rw [List.forall_mem_cons] at digits
    apply Runs.cons (first d digits.1) (runs_digits loop digits.2)

/-- A numeral goes on with digits, a point, the letter of an exponent and its sign. -/
theorem mem_of_step (step : p.step c = .next q) :
  c.isDigit = true ∨ c ∈ ['.', 'e', 'E', '+', '-']
  := by
  have zero (same : c = '0') : c.isDigit = true := by
    rw [same]
    rfl
  cases p
  all_goals
    simp only [NumberPhase.step] at step
    grind

theorem isBare_of_step (step : p.step c = .next q) :
  isBare c = true
  := by
  rcases mem_of_step step with digit | member
  · simp [isBare, Char.isAlphanum, digit]
  · simp only [List.mem_cons, List.not_mem_nil, or_false] at member
    rcases member with rfl | rfl | rfl | rfl | rfl <;> rfl

theorem Runs.isBare (h : p.Runs cs q) :
  ∀ c ∈ cs, isBare c = true
  := by
  induction h with
  | nil => simp
  | cons step _ ih =>
    rw [List.forall_mem_cons]
    use isBare_of_step step

/-- The scanner goes on over a numeral as the automaton does. -/
theorem Runs.tokensFrom (h : p.Runs cs q) (offset start : Nat) (read : Except Failure Number)
    (rest : List Char) :
  ∃ offset', tokensFrom offset (.number start read p) (cs ++ rest)
    = tokensFrom offset' (.number start read q) rest
  := by
  induction h generalizing offset with
  | nil => exact ⟨offset, rfl⟩
  | @cons p q r c cs step _ ih =>
    have scan : (Scan.number start read p).step offset c (cs ++ rest)
        = ([], .number start read q) := by
      simp [Scan.step, step]
    rw [List.cons_append, tokensFrom_cons scan]
    apply ih

/-- The numeral may end before a text. -/
def Ends (q : NumberPhase) (rest : List Char) : Prop :=
  q.complete = true ∧ ∀ c ∈ rest.head?, q.step c = .ended

theorem Ends.tokensFrom (h : q.Ends rest) (offset start : Nat) (read : Except Failure Number) :
  tokensFrom offset (.number start read q) rest
    = numberToken start offset read (.ok ()) :: tokensFrom offset .between rest
  := by
  obtain ⟨complete, ended⟩ := h
  cases rest with
  | nil => simp [Json.tokensFrom, Scan.finish, complete]
  | cons c rest => simp [Json.tokensFrom, Scan.step, ended c rfl]

theorem ends_of_stops (complete : q.complete = true) (stops : Stops rest) :
  q.Ends rest
  := by
  use complete
  intro c head
  obtain ⟨digit, point, lower, upper⟩ := stops c head
  cases q with
  | zero | whole | fraction | power => simp [NumberPhase.step, digit, point, lower, upper]
  | sign | point | exponent | exponentSign => cases complete

end NumberPhase

/-! ### Numbers -/

/-- No digit comes next. -/
def Solid (cs : List Char) : Prop := ∀ c ∈ cs.head?, c.isDigit = false

theorem solid_dropWhile (cs : List Char) :
  Solid (cs.dropWhile Char.isDigit)
  := by
  induction cs with
  | nil =>
    intro c head
    cases head
  | cons c cs ih =>
    rw [List.dropWhile_cons]
    split
    · apply ih
    case isFalse other =>
      rintro d ⟨⟩
      simpa using other

theorem Stops.solid {cs : List Char} (stops : Stops cs) :
  Solid cs
  := by
  intro c head
  apply (stops c head).1

/-- A run of characters is read off a text in which it does not go on. -/
theorem takeWhile_append_of_head {f : Char → Bool} {run cs : List Char}
    (all : ∀ c ∈ run, f c = true) (other : ∀ c ∈ cs.head?, f c = false) :
  (run ++ cs).takeWhile f = run
  := by
  rw [List.takeWhile_append_of_pos all]
  cases cs with
  | nil => simp
  | cons c cs => simp [other c rfl]

theorem dropWhile_append_of_head {f : Char → Bool} {run cs : List Char}
    (all : ∀ c ∈ run, f c = true) (other : ∀ c ∈ cs.head?, f c = false) :
  (run ++ cs).dropWhile f = cs
  := by
  rw [List.dropWhile_append_of_pos all]
  cases cs with
  | nil => simp
  | cons c cs => simp [other c rfl]

theorem isDigit_of_mem_takeWhile {cs : List Char} :
  ∀ d ∈ cs.takeWhile Char.isDigit, d.isDigit = true
  := List.all_eq_true.1 List.all_takeWhile

namespace NumberPhase

/-- A numeral does not end before a digit. -/
theorem Ends.solid {q : NumberPhase} {rest : List Char} (h : q.Ends rest) :
  Solid rest
  := by
  intro c head
  have ended := h.2 c head
  by_contra digit
  rw [Bool.not_eq_false] at digit
  cases q <;> simp [step, digit] at ended
  split_ifs at ended

/-- A numeral without a point or an exponent ends where no numeral goes on. -/
theorem Ends.stops {q : NumberPhase} {rest : List Char} (h : q.Ends rest)
    (whole : q = .zero ∨ q = .whole) :
  Stops rest
  := by
  intro c head
  have ended := h.2 c head
  use h.solid c head
  rcases whole with rfl | rfl
  all_goals
    refine ⟨?_, ?_, ?_⟩
    all_goals
      rintro rfl
      cases ended

end NumberPhase

/-- Over characters on which the automaton runs, a reader reads the same number wherever the numeral
may end after them. -/
structure Reads (f : Nat → List Char → Except Failure Number) (p : NumberPhase) (run : List Char)
    (q : NumberPhase) (n : Number) : Prop where
  runs : p.Runs run q
  read : ∀ offset rest, q.Ends rest → f offset (run ++ rest) = .ok n

variable {negative : Bool} {s : Significand} {n : Number} {offset : Nat} {cs : List Char}

theorem toDouble_offset {power : Int} (read : toDouble negative s power offset = .ok n)
    (offset' : Nat) :
  toDouble negative s power offset' = .ok n
  := by
  rw [toDouble] at read ⊢
  split at read
  · apply read
  · cases read

theorem wholeNumber_offset (read : wholeNumber negative s offset = .ok n) (offset' : Nat) :
  wholeNumber negative s offset' = .ok n
  := by
  rw [wholeNumber] at read ⊢
  split_ifs at read ⊢
  · apply toDouble_offset read
  · apply read
  · apply read
  · apply toDouble_offset read

/-- The number whose exponent has its digits at the start of a text. -/
def readPowerDigits (negative down : Bool) (s : Significand) (offset : Nat) (cs : List Char) :
    Except Failure Number :=
  let digits := cs.takeWhile Char.isDigit
  if digits.isEmpty then .error (brokenNumeral offset cs)
  else
    match readPower 0 0 digits with
    | .ok power =>
      toDouble negative s (if down then -power else power) (offset + digits.length)
    | .error seen =>
      if s.digits ≠ 0 ∧ !down then .error ⟨.numberOutOfRange, offset + seen⟩
      else .ok (.double (.zero negative))

theorem exists_powerDigits {down : Bool}
    (read : readPowerDigits negative down s offset cs = .ok n) :
  ∃ ds rest, cs = ds ++ rest ∧ ds ≠ [] ∧ (∀ d ∈ ds, d.isDigit = true) ∧ Solid rest
    ∧ ∀ offset rest, Solid rest → readPowerDigits negative down s offset (ds ++ rest) = .ok n
  := by
  rw [readPowerDigits] at read
  split at read
  case isTrue => cases read
  case isFalse some =>
    use cs.takeWhile Char.isDigit, cs.dropWhile Char.isDigit
    refine ⟨List.takeWhile_append_dropWhile.symm, by simpa using some, isDigit_of_mem_takeWhile,
      solid_dropWhile cs, ?_⟩
    intro offset rest solid
    rw [readPowerDigits]
    simp only [takeWhile_append_of_head isDigit_of_mem_takeWhile solid]
    rw [if_neg some]
    split at read
    · apply toDouble_offset read
    · split at read
      · cases read
      case isFalse small =>
        rw [if_neg small]
        apply read

/-- The letter of an exponent. -/
def IsExponent (c : Char) : Prop := c = 'e' ∨ c = 'E'

theorem readExponent_sign {letter sign : Char} (exponent : IsExponent letter)
    (signed : sign = '+' ∨ sign = '-') (negative : Bool) (s : Significand) (offset : Nat)
    (cs : List Char) :
  readExponent negative s offset (letter :: sign :: cs)
    = readPowerDigits negative (sign = '-') s (offset + 2) cs
  := by
  rcases exponent with rfl | rfl
  all_goals rcases signed with rfl | rfl <;> rfl

theorem readExponent_unsigned {letter : Char} (exponent : IsExponent letter)
    (unsigned : ∀ c ∈ cs.head?, ¬ (c = '+' ∨ c = '-')) (negative : Bool) (s : Significand)
    (offset : Nat) :
  readExponent negative s offset (letter :: cs) = readPowerDigits negative false s (offset + 1) cs
  := by
  cases cs with
  | nil => rcases exponent with rfl | rfl <;> rfl
  | cons c cs =>
    obtain ⟨plus, minus⟩ := not_or.1 (unsigned c rfl)
    rcases exponent with rfl | rfl
    all_goals
      simp only [readExponent]
      split
      case h_1 same => cases plus (List.cons.inj same).1
      case h_2 same => cases minus (List.cons.inj same).1
      case h_3 => rfl

theorem readExponent_of_not_isExponent (other : ∀ c ∈ cs.head?, ¬ IsExponent c)
    (negative : Bool) (s : Significand) (offset : Nat) :
  readExponent negative s offset cs = toDouble negative s 0 offset
  := by
  cases cs with
  | nil => rfl
  | cons c cs =>
    obtain ⟨lower, upper⟩ := not_or.1 (other c rfl)
    rw [readExponent]
    · rintro rest ⟨⟩
      apply lower rfl
    · rintro rest ⟨⟩
      apply upper rfl

namespace NumberPhase

theorem step_power {d : Char} (digit : d.isDigit = true) :
  exponent.step d = .next .power ∧ exponentSign.step d = .next .power
    ∧ power.step d = .next .power
  := by
  simp [step, digit]

theorem runs_power {p : NumberPhase} {ds : List Char} (digits : ∀ d ∈ ds, d.isDigit = true)
    (some : ds ≠ []) (first : ∀ d : Char, d.isDigit = true → p.step d = .next .power) :
  p.Runs ds .power
  := by
  apply runs_digits_of_ne_nil first _ digits some
  intro d digit
  apply (step_power digit).2.2

theorem ends_power {rest : List Char} (solid : Solid rest) :
  power.Ends rest
  := by
  use rfl
  intro c head
  simp [step, solid c head]

end NumberPhase

/-- An exponent is a letter, a sign or none, and digits. -/
theorem exists_reads_letter {p : NumberPhase} {letter : Char} (exponent : IsExponent letter)
    (goes_on : p.step letter = .next .exponent)
    (read : readExponent negative s offset (letter :: cs) = .ok n) :
  ∃ run rest q, cs = run ++ rest ∧ Reads (readExponent negative s) p (letter :: run) q n
    ∧ q.Ends rest
  := by
  have digits_or_sign : (∀ c ∈ cs.head?, ¬ (c = '+' ∨ c = '-'))
      ∨ ∃ sign cs', cs = sign :: cs' ∧ (sign = '+' ∨ sign = '-') := by
    cases cs with
    | nil => simp
    | cons c cs =>
      by_cases signed : c = '+' ∨ c = '-'
      · exact .inr ⟨c, cs, rfl, signed⟩
      · left
        rintro _ ⟨⟩
        apply signed
  rcases digits_or_sign with unsigned | ⟨sign, cs, rfl, signed⟩
  · rw [readExponent_unsigned exponent unsigned] at read
    obtain ⟨ds, rest, rfl, some, digits, solid, again⟩ := exists_powerDigits read
    use ds, rest, .power, rfl
    constructor
    · constructor
      case runs =>
        apply NumberPhase.Runs.cons goes_on
        apply NumberPhase.runs_power digits some
        intro d digit
        apply (NumberPhase.step_power digit).1
      case read =>
        intro offset rest ends
        rw [List.cons_append, readExponent_unsigned exponent]
        · apply again _ _ ends.solid
        · intro c head
          rw [List.head?_append_of_ne_nil _ some] at head
          have digit := digits c (List.mem_of_mem_head? head)
          rintro (rfl | rfl) <;> cases digit
    · apply NumberPhase.ends_power solid
  · rw [readExponent_sign exponent signed] at read
    obtain ⟨ds, rest, rfl, some, digits, solid, again⟩ := exists_powerDigits read
    use sign :: ds, rest, .power, rfl
    constructor
    · constructor
      case runs =>
        have sign_step : NumberPhase.exponent.step sign = .next .exponentSign := by
          rcases signed with rfl | rfl <;> rfl
        apply NumberPhase.Runs.cons goes_on
        apply NumberPhase.Runs.cons sign_step
        apply NumberPhase.runs_power digits some
        intro d digit
        apply (NumberPhase.step_power digit).2.1
      case read =>
        intro offset rest ends
        rw [List.cons_append, List.cons_append, readExponent_sign exponent signed]
        apply again _ _ ends.solid
    · apply NumberPhase.ends_power solid

/-- A numeral goes on with an exponent, or ends before another character. -/
theorem exists_reads_exponent {p : NumberPhase} (complete : p.complete = true)
    (letters : ∀ c, IsExponent c → p.step c = .next .exponent)
    (ended : ∀ c ∈ cs.head?, ¬ IsExponent c → p.step c = .ended)
    (read : readExponent negative s offset cs = .ok n) :
  ∃ run rest q, cs = run ++ rest ∧ Reads (readExponent negative s) p run q n ∧ q.Ends rest
    ∧ Solid run
  := by
  by_cases other : ∀ c ∈ cs.head?, ¬ IsExponent c
  · rw [readExponent_of_not_isExponent other] at read
    use [], cs, p, rfl
    refine ⟨⟨.nil p, ?_⟩, ⟨complete, ?_⟩, ?_⟩
    · intro offset rest ends
      have other' : ∀ c ∈ rest.head?, ¬ IsExponent c := by
        intro c head exponent
        have ended := ends.2 c head
        rw [letters c exponent] at ended
        cases ended
      rw [List.nil_append, readExponent_of_not_isExponent other']
      apply toDouble_offset read
    · intro c head
      apply ended c head (other c head)
    · rintro c ⟨⟩
  · cases cs with
    | nil => simp at other
    | cons letter cs =>
      have exponent : IsExponent letter := by simpa using other
      obtain ⟨run, rest, q, rfl, reads, ends⟩ :=
        exists_reads_letter exponent (letters letter exponent) read
      refine ⟨letter :: run, rest, q, rfl, reads, ends, ?_⟩
      rintro _ ⟨⟩
      rcases exponent with rfl | rfl <;> rfl

/-! ### Fractions and whole numbers -/

theorem readFraction_of_isExponent {letter : Char} (exponent : IsExponent letter) (negative : Bool)
    (s : Significand) (offset : Nat) (cs : List Char) :
  readFraction negative s offset (letter :: cs) = readExponent negative s offset (letter :: cs)
  := by
  rcases exponent with rfl | rfl <;> rfl

theorem Solid.append {ds : List Char} (solid : Solid cs) (solid' : Solid ds) :
  Solid (cs ++ ds)
  := by
  cases cs with
  | nil => apply solid'
  | cons c cs => apply solid

/-- A point is followed by digits, and then by an exponent or by the end. -/
theorem exists_reads_point {p : NumberPhase} (goes_on : p.step '.' = .next .point)
    (read : readFraction negative s offset ('.' :: cs) = .ok n) :
  ∃ run rest q, cs = run ++ rest ∧ Reads (readFraction negative s) p ('.' :: run) q n
    ∧ q.Ends rest
  := by
  rw [readFraction] at read
  split at read
  case isTrue => cases read
  case isFalse some =>
    obtain ⟨run, rest, q, split, reads, ends, solid⟩ := exists_reads_exponent (p := .fraction) rfl
      (by rintro c (rfl | rfl) <;> rfl)
      (by
        intro c head other
        have digit := solid_dropWhile cs c head
        simp only [IsExponent] at other
        simp [NumberPhase.step, digit, other])
      read
    have parted : cs = (cs.takeWhile Char.isDigit ++ run) ++ rest := by
      rw [List.append_assoc, ← split, List.takeWhile_append_dropWhile]
    use cs.takeWhile Char.isDigit ++ run, rest, q, parted
    refine ⟨⟨?_, ?_⟩, ends⟩
    · apply NumberPhase.Runs.cons goes_on
      apply NumberPhase.Runs.append _ reads.runs
      apply NumberPhase.runs_digits_of_ne_nil _ _ isDigit_of_mem_takeWhile
      · simpa using some
      · intro d digit
        simp [NumberPhase.step, digit]
      · intro d digit
        simp [NumberPhase.step, digit]
    · intro offset rest ends
      have solid' := solid.append ends.solid
      rw [List.cons_append, List.append_assoc, readFraction,
        takeWhile_append_of_head isDigit_of_mem_takeWhile solid',
        dropWhile_append_of_head isDigit_of_mem_takeWhile solid']
      simp only [some]
      apply reads.read _ _ ends

/-- A numeral goes on with a point and digits, with an exponent, or ends before another
character. -/
theorem exists_reads_fraction {p : NumberPhase} (whole : p = .zero ∨ p = .whole) (solid : Solid cs)
    (read : readFraction negative s offset cs = .ok n) :
  ∃ run rest q, cs = run ++ rest ∧ Reads (readFraction negative s) p run q n ∧ q.Ends rest
    ∧ Solid run
  := by
  have complete : p.complete = true := by
    rcases whole with rfl | rfl <;> rfl
  by_cases stops : Stops cs
  · rw [stops.readFraction] at read
    use [], cs, p, rfl
    refine ⟨⟨.nil p, ?_⟩, NumberPhase.ends_of_stops complete stops, ?_⟩
    · intro offset rest ends
      rw [List.nil_append, (ends.stops whole).readFraction]
      apply wholeNumber_offset read
    · rintro c ⟨⟩
  cases cs with
  | nil => cases stops (by rintro _ ⟨⟩)
  | cons c cs =>
    have goes_on : c = '.' ∨ IsExponent c := by
      by_contra other
      simp only [IsExponent, not_or] at other
      apply stops
      rintro _ ⟨⟩
      use solid c rfl
    have step : p.step '.' = .next .point ∧ ∀ c, IsExponent c → p.step c = .next .exponent := by
      rcases whole with rfl | rfl
      all_goals
        use rfl
        rintro c (rfl | rfl) <;> rfl
    have solid_cons (run : List Char) : Solid (c :: run) := solid
    rcases goes_on with rfl | exponent
    · obtain ⟨run, rest, q, rfl, reads, ends⟩ := exists_reads_point step.1 read
      exact ⟨'.' :: run, rest, q, rfl, reads, ends, solid_cons run⟩
    · rw [readFraction_of_isExponent exponent] at read
      obtain ⟨run, rest, q, rfl, reads, ends⟩ :=
        exists_reads_letter exponent (step.2 c exponent) read
      refine ⟨c :: run, rest, q, rfl, ⟨reads.runs, ?_⟩, ends, solid_cons run⟩
      intro offset rest ends
      rw [List.cons_append, readFraction_of_isExponent exponent]
      apply reads.read _ _ ends

theorem readUnsigned_zero (solid : Solid cs) (negative : Bool) (offset : Nat) :
  readUnsigned negative offset ('0' :: cs) = readFraction negative ⟨0, 0, false⟩ (offset + 1) cs
  := by
  cases cs with
  | nil => rfl
  | cons c cs =>
    simp only [readUnsigned, solid c rfl]
    rfl

theorem solid_of_readUnsigned_zero
    (read : readUnsigned negative offset ('0' :: cs) = .ok n) :
  Solid cs
  := by
  rintro c head
  cases cs with
  | nil => cases head
  | cons c' cs =>
    cases head
    simp only [readUnsigned] at read
    split at read
    · cases read
    case isFalse other => simpa using other

theorem readUnsigned_of_ne (other : cs.head? ≠ some '0') (negative : Bool) (offset : Nat) :
  readUnsigned negative offset cs
    = if (cs.takeWhile Char.isDigit).isEmpty then .error (brokenNumeral offset cs)
      else readFraction negative
        ((cs.takeWhile Char.isDigit).foldl Significand.addWhole ⟨0, 0, false⟩)
        (offset + (cs.takeWhile Char.isDigit).length) (cs.dropWhile Char.isDigit)
  := by
  rw [readUnsigned]
  rintro rest rfl
  apply other rfl

/-- A numeral without a sign starts with a zero or with digits. -/
theorem exists_reads_unsigned (read : readUnsigned negative offset cs = .ok n) :
  ∃ run rest q, cs = run ++ rest ∧ Reads (readUnsigned negative) .sign run q n ∧ q.Ends rest
    ∧ ∃ d ds, run = d :: ds ∧ d.isDigit = true
  := by
  by_cases zero : cs.head? = some '0'
  · obtain ⟨cs, rfl⟩ := List.head?_eq_some_iff.1 zero
    have solid := solid_of_readUnsigned_zero read
    rw [readUnsigned_zero solid] at read
    obtain ⟨run, rest, q, rfl, reads, ends, solid⟩ :=
      exists_reads_fraction (.inl rfl) solid read
    refine ⟨'0' :: run, rest, q, rfl, ⟨?_, ?_⟩, ends, '0', run, rfl, rfl⟩
    · apply NumberPhase.Runs.cons rfl reads.runs
    · intro offset rest ends
      rw [List.cons_append, readUnsigned_zero (solid.append ends.solid)]
      apply reads.read _ _ ends
  · rw [readUnsigned_of_ne zero] at read
    split at read
    case isTrue => cases read
    case isFalse some =>
      obtain ⟨run, rest, q, split, reads, ends, solid⟩ :=
        exists_reads_fraction (.inr rfl) (solid_dropWhile cs) read
      obtain ⟨d, ds, leading⟩ := List.exists_cons_of_ne_nil (mt List.isEmpty_iff.2 some)
      have digits : ∀ c ∈ d :: ds, c.isDigit = true := leading ▸ isDigit_of_mem_takeWhile
      have parted : cs = (d :: ds ++ run) ++ rest := by
        rw [List.append_assoc, ← split, ← leading, List.takeWhile_append_dropWhile]
      rw [List.forall_mem_cons] at digits
      have nonzero : d ≠ '0' := by
        rintro rfl
        apply zero
        rw [parted]
        rfl
      refine ⟨d :: ds ++ run, rest, q, parted, ⟨?_, ?_⟩, ends, d, ds ++ run, rfl, digits.1⟩
      · apply NumberPhase.Runs.cons (q := .whole)
        · simp [NumberPhase.step, nonzero, digits.1]
        · apply NumberPhase.Runs.append _ reads.runs
          apply NumberPhase.runs_digits _ digits.2
          intro d digit
          simp [NumberPhase.step, digit]
      · intro offset rest ends
        have solid' := solid.append ends.solid
        have all : ∀ c ∈ d :: ds, c.isDigit = true := List.forall_mem_cons.2 digits
        rw [List.append_assoc, readUnsigned_of_ne (by simpa using nonzero),
          takeWhile_append_of_head all solid', dropWhile_append_of_head all solid', ← leading,
          if_neg some]
        apply reads.read _ _ ends

/-- A numeral is read, and passed over, where it may end. -/
structure Numeral (run : List Char) (q : NumberPhase) (n : Number) : Prop where
  bare : ∀ c ∈ run, isBare c = true
  start : ∃ d ds, run = d :: ds ∧ (d = '-' ∨ d.isDigit = true)
  complete : q.complete = true
  read : ∀ offset rest, q.Ends rest → readNumber offset (run ++ rest) = .ok n
  passed : ∀ offset rest, q.Ends rest → ∃ stop, tokensFrom offset .between (run ++ rest)
    = numberToken offset stop (readNumber offset (run ++ rest)) (.ok ())
      :: tokensFrom stop .between rest

theorem begin_of_step {d : Char} {p : NumberPhase} (digit : d.isDigit = true)
    (step : NumberPhase.sign.step d = .next p) (cs : List Char) (offset : Nat) :
  Scan.begin offset d cs = ([], .number offset (readNumber offset (d :: cs)) p)
  := by
  by_cases zero : d = '0'
  · subst zero
    cases step
    rfl
  · rw [begin_of_isDigit digit zero]
    simp only [NumberPhase.step, zero, digit] at step
    cases step
    rfl

theorem numeral_of_reads {run : List Char} {q : NumberPhase}
    (reads : Reads (readUnsigned false) .sign run q n) (complete : q.complete = true)
    (start : ∃ d ds, run = d :: ds ∧ d.isDigit = true) :
  Numeral run q n
  := by
  obtain ⟨d, ds, rfl, digit⟩ := start
  constructor
  case bare => apply reads.runs.isBare
  case start => exact ⟨d, ds, rfl, .inr digit⟩
  case complete => apply complete
  case read =>
    intro offset rest ends
    rw [List.cons_append, readNumber]
    · apply reads.read offset rest ends
    · rintro rest ⟨⟩
      cases digit
  case passed =>
    intro offset rest ends
    cases reads.runs with
    | cons step runs =>
      have scan : Scan.between.step offset d (ds ++ rest) = _ :=
        begin_of_step digit step (ds ++ rest) offset
      obtain ⟨stop, passed⟩ := runs.tokensFrom (offset + d.utf8Size) offset
        (readNumber offset (d :: (ds ++ rest))) rest
      use stop
      rw [List.cons_append, tokensFrom_cons scan, List.nil_append, passed, ends.tokensFrom]

theorem numeral_of_reads_negative {run : List Char} {q : NumberPhase}
    (reads : Reads (readUnsigned true) .sign run q n) (complete : q.complete = true) :
  Numeral ('-' :: run) q n
  := by
  constructor
  case bare =>
    rw [List.forall_mem_cons]
    use rfl
    apply reads.runs.isBare
  case start => exact ⟨'-', run, rfl, .inl rfl⟩
  case complete => apply complete
  case read =>
    intro offset rest ends
    apply reads.read (offset + 1) rest ends
  case passed =>
    intro offset rest ends
    have scan : Scan.between.step offset '-' (run ++ rest)
        = ([], .number offset (readNumber offset ('-' :: (run ++ rest))) .sign) := rfl
    obtain ⟨stop, passed⟩ := reads.runs.tokensFrom (offset + '-'.utf8Size) offset
      (readNumber offset ('-' :: (run ++ rest))) rest
    use stop
    rw [List.cons_append, tokensFrom_cons scan, List.nil_append, passed, ends.tokensFrom]

/-- What is read as a number is a numeral. -/
theorem exists_numeral (read : readNumber offset cs = .ok n) :
  ∃ run rest q, cs = run ++ rest ∧ Numeral run q n ∧ q.Ends rest
  := by
  by_cases negative : cs.head? = some '-'
  · obtain ⟨cs, rfl⟩ := List.head?_eq_some_iff.1 negative
    rw [readNumber] at read
    obtain ⟨run, rest, q, rfl, reads, ends, -⟩ := exists_reads_unsigned read
    exact ⟨'-' :: run, rest, q, rfl, numeral_of_reads_negative reads ends.1, ends⟩
  · rw [readNumber] at read
    · obtain ⟨run, rest, q, rfl, reads, ends, start⟩ := exists_reads_unsigned read
      exact ⟨run, rest, q, rfl, numeral_of_reads reads ends.1 start, ends⟩
    · rintro rest rfl
      apply negative rfl

end TypeAssertions.Json
