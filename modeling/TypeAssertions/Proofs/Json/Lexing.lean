import Mathlib.Data.List.Chain
import Mathlib.Data.List.Forall2
import TypeAssertions.Proofs.Json.Literals
import TypeAssertions.Proofs.Json.Spelling

/-!
# Tokens of written values

The tokens of a text that writes a value are the lexemes of the value, and spaces leave no trace
(`tokens_of_spaced`).  A literal ends where it should because after it come spaces, a mark or the
end of the text.
-/

namespace TypeAssertions.Json

/-! ### Tokens -/

/-- Whether a scalar is written between quotes. -/
def Scalar.quoted : Scalar → Bool
  | .string _ => true
  | .null | .bool _ | .number _ => false

/-- A token is a lexeme. -/
inductive Lexeme.IsToken : Lexeme → Token → Prop
  | mark (c : Char) (start : Nat) : IsToken (.mark c) (.mark c start)
  | scalar (s : Scalar) (start stop : Nat) :
      IsToken (.scalar s) (.literal ⟨start, stop, s.quoted, .ok s, .ok ()⟩)

/-- The marks of values. -/
def marks : List Char := ['[', ']', '\x7b', '\x7d', ':', ',']

/-- A scalar that is read back: its number, if it is one, is a natural number of 64 bits. -/
inductive Scalar.Plain : Scalar → Prop
  | null : Plain .null
  | bool (b : Bool) : Plain (.bool b)
  | natural {n : Nat} (fits : n ≤ maxSignificand) : Plain (.number (.integer n))
  | string (s : String) : Plain (.string s)

/-- A mark of values, or a scalar that is read back. -/
inductive Lexeme.Plain : Lexeme → Prop
  | mark {c : Char} (member : c ∈ marks) : Plain (.mark c)
  | scalar {s : Scalar} (plain : s.Plain) : Plain (.scalar s)

theorem tokensFrom_cons {offset : Nat} {c : Char} {cs : List Char} {scan next : Scan}
    {ended : List Token} (step : scan.step offset c cs = (ended, next)) :
  tokensFrom offset scan (c :: cs) = ended ++ tokensFrom (offset + c.utf8Size) next cs
  := by
  rw [tokensFrom, step]

theorem tokensFrom_mark {c : Char} (member : c ∈ marks) (cs : List Char) (offset : Nat) :
  tokensFrom offset .between (c :: cs)
    = .mark c offset :: tokensFrom (offset + c.utf8Size) .between cs
  := by
  simp only [marks, List.mem_cons, List.not_mem_nil, or_false] at member
  rcases member with rfl | rfl | rfl | rfl | rfl | rfl
  all_goals simp [tokensFrom, Scan.step, Scan.begin, isSpace]

theorem tokensFrom_spaces {spaces : List Char} (blank : ∀ c ∈ spaces, isSpace c = true)
    (cs : List Char) (offset : Nat) :
  tokensFrom offset .between (spaces ++ cs)
    = tokensFrom (offset + Text.byteLength spaces) .between cs
  := by
  induction spaces generalizing offset with
  | nil => rfl
  | cons c spaces ih =>
    have space : isSpace c = true := blank c List.mem_cons_self
    have step : Scan.between.step offset c (spaces ++ cs) = ([], .between) := by
      rw [Scan.step, Scan.begin, if_pos space]
    rw [List.cons_append, tokensFrom_cons step, List.nil_append,
      ih fun d member => blank d (List.mem_cons_of_mem c member), Text.byteLength, Nat.add_assoc]

/-- A numeral ends before a text that does not go on with one. -/
theorem tokensFrom_number_of_stops {cs : List Char} (stops : Stops cs) {phase : NumberPhase}
    (whole : phase = .zero ∨ phase = .whole) (offset start : Nat) (read : Except Failure Number) :
  tokensFrom offset (.number start read phase) cs
    = numberToken start offset read (.ok ()) :: tokensFrom offset .between cs
  := by
  cases cs with
  | nil => rcases whole with rfl | rfl <;> rfl
  | cons c cs =>
    obtain ⟨digit, point, lower, upper⟩ := stops c rfl
    have ended : phase.step c = .ended := by
      rcases whole with rfl | rfl <;> simp [NumberPhase.step, digit, point, lower, upper]
    simp [tokensFrom, Scan.step, ended]

theorem tokensFrom_digits {ds : List Char} (digits : ∀ c ∈ ds, c.isDigit = true)
    (cs : List Char) (offset start : Nat) (read : Except Failure Number) :
  tokensFrom offset (.number start read .whole) (ds ++ cs)
    = tokensFrom (offset + Text.byteLength ds) (.number start read .whole) cs
  := by
  induction ds generalizing offset with
  | nil => rfl
  | cons d ds ih =>
    have digit : d.isDigit = true := digits d List.mem_cons_self
    have step : (Scan.number start read .whole).step offset d (ds ++ cs)
        = ([], .number start read .whole) := by
      simp [Scan.step, NumberPhase.step, digit]
    rw [List.cons_append, tokensFrom_cons step, List.nil_append,
      ih fun c member => digits c (List.mem_cons_of_mem d member), Text.byteLength, Nat.add_assoc]

theorem begin_of_isDigit {d : Char} (digit : d.isDigit = true) (nonzero : d ≠ '0')
    (cs : List Char) (offset : Nat) :
  Scan.begin offset d cs = ([], .number offset (readNumber offset (d :: cs)) .whole)
  := by
  have other (c : Char) (letter : c.isDigit = false) : d ≠ c := by
    rintro rfl
    rw [digit] at letter
    cases letter
  have space : isSpace d = false := by
    simp [isSpace, other ' ' rfl, other '\n' rfl, other '\t' rfl, other '\r' rfl]
  simp [Scan.begin, space, other '"' rfl, other '-' rfl, nonzero, digit]

/-- An integer is one token. -/
theorem tokensFrom_toDigits {n : Nat} (fits : n ≤ maxSignificand) {cs : List Char}
    (stops : Stops cs) (offset : Nat) :
  ∃ offset', tokensFrom offset .between (Nat.toDigits 10 n ++ cs)
    = .literal ⟨offset, offset', false, .ok (.number (.integer n)), .ok ()⟩
      :: tokensFrom offset' .between cs
  := by
  have read := readNumber_toDigits fits stops offset
  rcases Nat.eq_zero_or_pos n with rfl | positive
  · rw [Nat.toDigits_zero, List.singleton_append] at read ⊢
    have step : Scan.between.step offset '0' cs
        = ([], .number offset (readNumber offset ('0' :: cs)) .zero) := rfl
    rw [tokensFrom_cons step, read, List.nil_append,
      tokensFrom_number_of_stops stops (.inl rfl)]
    exact ⟨_, rfl⟩
  · obtain ⟨d, ds, digits, digit⟩ := exists_toDigits_eq_cons n
    have nonzero : d ≠ '0' := by
      rintro rfl
      apply head_toDigits_ne_zero positive
      rw [digits]
      rfl
    have others : ∀ c ∈ ds, c.isDigit = true := by
      intro c member
      apply isDigit_of_mem_toDigits (n := n)
      rw [digits]
      apply List.mem_cons_of_mem d member
    rw [digits, List.cons_append] at read ⊢
    have step : Scan.between.step offset d (ds ++ cs) = _ :=
      begin_of_isDigit digit nonzero (ds ++ cs) offset
    rw [tokensFrom_cons step, read, List.nil_append,
      tokensFrom_digits others, tokensFrom_number_of_stops stops (.inr rfl)]
    exact ⟨_, rfl⟩

/-- The scanner goes over the written form of a character of a string. -/
theorem tokensFrom_escapeChar (c : Char) (cs : List Char) (offset start : Nat)
    (read : Except Failure (List Char)) :
  tokensFrom offset (.string start read .plain) (escapeChar c ++ cs)
    = tokensFrom (offset + Text.byteLength (escapeChar c)) (.string start read .plain) cs
  := by
  rcases escapeChar_cases c with ⟨e, written, letter, meant⟩ | ⟨x, y, written, digits, control⟩
    | ⟨written, quote, backslash, visible⟩
  · rw [written]
    simp [tokensFrom, Scan.step, letter, meant, Text.byteLength, Nat.add_assoc]
  · rw [written]
    simp [tokensFrom, Scan.step, digits, Text.byteLength, Nat.add_assoc]
  · rw [written]
    simp [tokensFrom, Scan.step, quote, backslash, visible, Text.byteLength]

theorem tokensFrom_flatMap (cs rest : List Char) (offset start : Nat)
    (read : Except Failure (List Char)) :
  tokensFrom offset (.string start read .plain) (cs.flatMap escapeChar ++ rest)
    = tokensFrom (offset + Text.byteLength (cs.flatMap escapeChar)) (.string start read .plain)
        rest
  := by
  induction cs generalizing offset with
  | nil => rfl
  | cons c cs ih =>
    rw [List.flatMap_cons, List.append_assoc, tokensFrom_escapeChar, ih,
      Text.byteLength_append, Nat.add_assoc]

/-- A string is one token. -/
theorem tokensFrom_stringText (s : String) (cs : List Char) (offset : Nat) :
  ∃ offset', tokensFrom offset .between (stringText s ++ cs)
    = .literal ⟨offset, offset', true, .ok (.string s), .ok ()⟩ :: tokensFrom offset' .between cs
  := by
  have written : stringText s ++ cs
      = '"' :: (s.toList.flatMap escapeChar ++ '"' :: cs) := by
    simp [stringText]
  have step (rest : List Char) : Scan.between.step offset '"' rest
      = ([], .string offset (readString (offset + 1) rest) .plain) := rfl
  have stop (offset' : Nat) (read : Except Failure (List Char)) :
      (Scan.string offset read .plain).step offset' '"' cs
        = ([stringToken offset (offset' + 1) read (.ok ())], .between) := rfl
  rw [written, tokensFrom_cons (step _), readString_flatMap, List.nil_append, tokensFrom_flatMap,
    tokensFrom_cons (stop _ _)]
  simp only [stringToken, Except.map, String.ofList_toList]
  exact ⟨_, rfl⟩

theorem tokensFrom_word {s : Scalar} (word : s = .null ∨ ∃ b, s = .bool b) (cs : List Char)
    (offset : Nat) :
  ∃ offset', tokensFrom offset .between (s.text ++ cs)
    = .literal ⟨offset, offset', false, .ok s, .ok ()⟩ :: tokensFrom offset' .between cs
  := by
  rcases word with rfl | ⟨_ | _, rfl⟩
  all_goals exact ⟨_, rfl⟩

/-- A plain lexeme is one token; an integer is, when no numeral goes on after it. -/
theorem tokensFrom_lexeme {l : Lexeme} (plain : l.Plain) {cs : List Char}
    (stops : ∀ s, l = .scalar s → Stops cs) (offset : Nat) :
  ∃ token offset', l.IsToken token
    ∧ tokensFrom offset .between (l.text ++ cs) = token :: tokensFrom offset' .between cs
  := by
  cases plain with
  | @mark c member => exact ⟨_, _, .mark c offset, tokensFrom_mark member cs offset⟩
  | @scalar s plain =>
    obtain ⟨offset', tokens⟩ : ∃ offset', tokensFrom offset .between (s.text ++ cs)
        = .literal ⟨offset, offset', s.quoted, .ok s, .ok ()⟩
          :: tokensFrom offset' .between cs := by
      cases plain with
      | null => apply tokensFrom_word (.inl rfl)
      | bool b => apply tokensFrom_word (.inr ⟨b, rfl⟩)
      | @natural n fits =>
        have digits : (Scalar.number (.integer n)).text = Nat.toDigits 10 n := Nat.toList_repr
        rw [digits]
        apply tokensFrom_toDigits fits (stops _ rfl)
      | string s => apply tokensFrom_stringText
    exact ⟨_, _, .scalar s offset offset', tokens⟩

/-- A scalar stands at the end or before a mark. -/
def Lexeme.Apart : List Lexeme → Prop := List.IsChain fun l next =>
  (∃ s, l = .scalar s) → ∃ c, next = .mark c

theorem stops_of_isSpace {c : Char} (space : isSpace c = true) (cs : List Char) :
  Stops (c :: cs)
  := by
  rintro d ⟨⟩
  simp only [isSpace, Bool.or_eq_true, decide_eq_true_eq] at space
  rcases space with ((rfl | rfl) | rfl) | rfl <;> decide

theorem stops_of_mem_marks {c : Char} (member : c ∈ marks) (cs : List Char) :
  Stops (c :: cs)
  := by
  rintro d ⟨⟩
  simp only [marks, List.mem_cons, List.not_mem_nil, or_false] at member
  rcases member with rfl | rfl | rfl | rfl | rfl | rfl <;> decide

/-- No numeral goes on after spaces, or at a mark or the end of a text. -/
theorem Spaced.stops {ls : List Lexeme} {text : List Char} (spaced : Spaced ls text)
    (plain : ∀ l ∈ ls, l.Plain) (marked : ∀ l ∈ ls.head?, ∃ c, l = .mark c) :
  Stops text
  := by
  cases spaced with
  | done blank =>
    cases text with
    | nil =>
      intro c member
      cases member
    | cons c spaces => apply stops_of_isSpace (blank c List.mem_cons_self)
  | @next spaces l ls text blank rest =>
    cases spaces with
    | nil =>
      obtain ⟨c, rfl⟩ := marked l rfl
      cases plain _ List.mem_cons_self with
      | mark member => apply stops_of_mem_marks member
    | cons c spaces => apply stops_of_isSpace (blank c List.mem_cons_self)

/-- The tokens of a text are the lexemes that it writes, whatever the spaces. -/
theorem tokensFrom_of_spaced {ls : List Lexeme} {text : List Char} (spaced : Spaced ls text)
    (plain : ∀ l ∈ ls, l.Plain) (apart : Lexeme.Apart ls) (offset : Nat) :
  List.Forall₂ Lexeme.IsToken ls (tokensFrom offset .between text)
  := by
  induction spaced generalizing offset with
  | @done spaces blank =>
    have tokens := tokensFrom_spaces blank [] offset
    rw [List.append_nil] at tokens
    rw [tokens]
    apply List.Forall₂.nil
  | @next spaces l ls text blank rest ih =>
    have others : ∀ l ∈ ls, l.Plain := fun l member => plain l (List.mem_cons_of_mem _ member)
    rw [Lexeme.Apart, List.isChain_cons] at apart
    -- without spaces a mark has to come after a scalar
    have stops (s : Scalar) (scalar : l = .scalar s) : Stops text := by
      apply rest.stops others
      intro next member
      apply apart.1 next member ⟨s, scalar⟩
    obtain ⟨token, offset', same, tokens⟩ :=
      tokensFrom_lexeme (plain l List.mem_cons_self) stops (offset + Text.byteLength spaces)
    rw [tokensFrom_spaces blank, tokens]
    apply List.Forall₂.cons same
    apply ih others apart.2

/-! ### Lexemes of values -/

/-- A value that is read back: its numbers are natural numbers of 64 bits. -/
inductive Value.Plain : Value → Prop
  | null : Plain .null
  | bool (b : Bool) : Plain (.bool b)
  | natural {n : Nat} (fits : n ≤ maxSignificand) : Plain (.number (.integer n))
  | string (s : String) : Plain (.string s)
  | array {vs : List Value} (items : ∀ v ∈ vs, Plain v) : Plain (.array vs)
  | object {ms : List (String × Value)} (members : ∀ m ∈ ms, Plain m.2) : Plain (.object ms)

/-- Lexemes before which a scalar may stand. -/
def Lexeme.Next (ls : List Lexeme) : Prop :=
  Lexeme.Apart ls ∧ ∀ l ∈ ls.head?, ∃ c, l = .mark c

theorem Lexeme.Apart.mark {ls : List Lexeme} (apart : Lexeme.Apart ls) (c : Char) :
  Lexeme.Next (.mark c :: ls)
  := by
  constructor
  · rw [Lexeme.Apart, List.isChain_cons]
    constructor
    · rintro next - ⟨s, scalar⟩
      cases scalar
    · apply apart
  · rintro l ⟨⟩
    use c

theorem Lexeme.Next.scalar {ls : List Lexeme} (next : Lexeme.Next ls) (s : Scalar) :
  Lexeme.Apart (.scalar s :: ls)
  := by
  rw [Lexeme.Apart, List.isChain_cons]
  constructor
  · intro l member _
    apply next.2 l member
  · apply next.1

namespace Value

mutual

theorem plain_lexemes (v : Value) (plain : v.Plain) :
  ∀ l ∈ v.lexemes, l.Plain
  := by
  match v with
  | .null =>
    simp only [lexemes, List.forall_mem_singleton]
    apply Lexeme.Plain.scalar .null
  | .bool b =>
    simp only [lexemes, List.forall_mem_singleton]
    apply Lexeme.Plain.scalar (.bool b)
  | .number n =>
    simp only [lexemes, List.forall_mem_singleton]
    cases plain with
    | natural fits => apply Lexeme.Plain.scalar (.natural fits)
  | .string s =>
    simp only [lexemes, List.forall_mem_singleton]
    apply Lexeme.Plain.scalar (.string s)
  | .array [] =>
    simp only [lexemes, List.forall_mem_cons]
    exact ⟨.mark (by decide), .mark (by decide), by simp⟩
  | .array (v :: vs) =>
    cases plain with
    | array items =>
      simp only [lexemes, List.forall_mem_append, List.forall_mem_cons]
      rw [List.forall_mem_cons] at items
      exact ⟨⟨⟨.mark (by decide), plain_lexemes v items.1⟩, plain_itemLexemes vs items.2⟩,
        .mark (by decide), by simp⟩
  | .object [] =>
    simp only [lexemes, List.forall_mem_cons]
    exact ⟨.mark (by decide), .mark (by decide), by simp⟩
  | .object ((k, v) :: ms) =>
    cases plain with
    | object members =>
      simp only [lexemes, List.forall_mem_append, List.forall_mem_cons]
      rw [List.forall_mem_cons] at members
      exact ⟨⟨⟨.mark (by decide), .scalar (.string k), .mark (by decide),
        plain_lexemes v members.1⟩, plain_memberLexemes ms members.2⟩, .mark (by decide), by simp⟩

theorem plain_itemLexemes (vs : List Value) (plain : ∀ v ∈ vs, v.Plain) :
  ∀ l ∈ itemLexemes vs, l.Plain
  := by
  match vs with
  | [] => simp [itemLexemes]
  | v :: vs =>
    simp only [itemLexemes, List.forall_mem_append, List.forall_mem_cons]
    rw [List.forall_mem_cons] at plain
    exact ⟨⟨.mark (by decide), plain_lexemes v plain.1⟩, plain_itemLexemes vs plain.2⟩

theorem plain_memberLexemes (ms : List (String × Value)) (plain : ∀ m ∈ ms, m.2.Plain) :
  ∀ l ∈ memberLexemes ms, l.Plain
  := by
  match ms with
  | [] => simp [memberLexemes]
  | (k, v) :: ms =>
    simp only [memberLexemes, List.forall_mem_append, List.forall_mem_cons]
    rw [List.forall_mem_cons] at plain
    exact ⟨⟨.mark (by decide), .scalar (.string k), .mark (by decide), plain_lexemes v plain.1⟩,
      plain_memberLexemes ms plain.2⟩

end

mutual

theorem apart_lexemes (v : Value) {ls : List Lexeme} (next : Lexeme.Next ls) :
  Lexeme.Apart (v.lexemes ++ ls)
  := by
  match v with
  | .null => apply next.scalar
  | .bool b => apply next.scalar
  | .number n => apply next.scalar
  | .string s => apply next.scalar
  | .array [] => exact ((next.1.mark _).1.mark _).1
  | .array (v :: vs) =>
    simp only [lexemes, List.cons_append, List.append_assoc]
    exact ((apart_lexemes v (next_itemLexemes vs (next.1.mark _))).mark _).1
  | .object [] => exact ((next.1.mark _).1.mark _).1
  | .object ((k, v) :: ms) =>
    simp only [lexemes, List.cons_append, List.append_assoc]
    exact ((((apart_lexemes v (next_memberLexemes ms (next.1.mark _))).mark _).scalar _).mark _).1

theorem next_itemLexemes (vs : List Value) {ls : List Lexeme} (next : Lexeme.Next ls) :
  Lexeme.Next (itemLexemes vs ++ ls)
  := by
  match vs with
  | [] => apply next
  | v :: vs =>
    simp only [itemLexemes, List.cons_append, List.append_assoc]
    exact (apart_lexemes v (next_itemLexemes vs next)).mark _

theorem next_memberLexemes (ms : List (String × Value)) {ls : List Lexeme}
    (next : Lexeme.Next ls) :
  Lexeme.Next (memberLexemes ms ++ ls)
  := by
  match ms with
  | [] => apply next
  | (k, v) :: ms =>
    simp only [memberLexemes, List.cons_append, List.append_assoc]
    exact (((apart_lexemes v (next_memberLexemes ms next)).mark _).scalar _).mark _

end

end Value

/-- The tokens of a text that writes a value are the lexemes of the value. -/
theorem tokens_of_spaced {v : Value} (plain : v.Plain) {text : List Char}
    (spaced : Spaced v.lexemes text) :
  List.Forall₂ Lexeme.IsToken v.lexemes (tokens text)
  := by
  have next : Lexeme.Next [] := ⟨List.isChain_nil, by simp⟩
  have apart := v.apart_lexemes next
  rw [List.append_nil] at apart
  apply tokensFrom_of_spaced spaced (v.plain_lexemes plain) apart

end TypeAssertions.Json
