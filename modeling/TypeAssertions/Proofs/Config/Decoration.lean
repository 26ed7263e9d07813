import Mathlib
import TypeAssertions.Config.File
import TypeAssertions.Proofs.Json.Positions
import TypeAssertions.Proofs.Text.Comments

/-!
# Decorated texts

A JSON text is decorated with spaces and comments around its tokens, and with a comma before a
bracket or brace that closes an array or object that is not empty (`Decorated`).  Without comments
and trailing commas, the decorated text writes the same value as the text, and from the text itself
nothing is taken away (`readValue_plainJson`).

Both passes keep the layout of a text: stripped of its comments, it is laid out with the same
lexemes (`laidPlain_stripComments`), and without its trailing commas it is laid out with the lexemes
without theirs (`laidPlain_removeTrailingCommas`).
-/

namespace TypeAssertions.Config

open Json

/-! ### Decorations -/

/-- One space, or a comment. -/
inductive Trivium : List Char → Prop
  | space {c : Char} (blank : isSpace c = true) : Trivium [c]
  | line {body : List Char} (inline : '\n' ∉ body) : Trivium ('/' :: '/' :: (body ++ ['\n']))
  | block {body : List Char} (inside : ¬ ['*', '/'] <:+: body) :
      Trivium ('/' :: '*' :: (body ++ ['*', '/']))

/-- Nothing, or a comment that the end of the text ends. -/
inductive Remark : List Char → Prop
  | nothing : Remark []
  | line {body : List Char} (inline : '\n' ∉ body) : Remark ('/' :: '/' :: body)

/-- Whether a character is a bracket or brace that closes an array or object. -/
def isCloser (c : Char) : Bool := c = ']' || c = '\x7d'

/-- An array or object is closed next. -/
def Closing (text : List Char) : Prop :=
  ∃ spaces c rest, text = spaces ++ c :: rest ∧ (∀ d ∈ spaces, isSpace d = true) ∧ isCloser c = true

/-- The marks that come before a value. -/
def openers : List Char := ['[', '\x7b', ',', ':']

/-- A text is decorated: trivia are inserted anywhere between its tokens and at its ends, and one
comma, among such trivia, before a bracket or brace that closes.  A place is `fresh` where no value
has come since the text or its array, object, element or member began.  No comma is inserted there,
so nothing but the last value of an array or object gets one. -/
inductive Decorated : Bool → List Char → List Char → Prop
  | done (fresh : Bool) {last : List Char} (remark : Remark last) : Decorated fresh [] last
  | space {fresh : Bool} {c : Char} {text text' : List Char} (blank : isSpace c = true)
      (rest : Decorated fresh text text') : Decorated fresh (c :: text) (c :: text')
  | mark (fresh : Bool) {c : Char} {text text' : List Char} (member : c ∈ marks)
      (rest : Decorated (decide (c ∈ openers)) text text') :
      Decorated fresh (c :: text) (c :: text')
  | literal (fresh : Bool) {p text text' : List Char} (piece : IsPiece p)
      (separate : Separate text) (rest : Decorated false text text') :
      Decorated fresh (p ++ text) (p ++ text')
  | trivium {fresh : Bool} {inserted text text' : List Char} (trivium : Trivium inserted)
      (rest : Decorated fresh text text') : Decorated fresh text (inserted ++ text')
  | comma {text text' : List Char} (closing : Closing text) (rest : Decorated true text text') :
      Decorated false text (',' :: text')

/-! ### Characters outside of strings -/

/-- A character that no scanner takes for the start of a string or a comment, nor for a comma. -/
def Inert (c : Char) : Prop := c ≠ '"' ∧ c ≠ '/' ∧ c ≠ ','

theorem inert_of_isSpace {c : Char} (blank : isSpace c = true) :
  Inert c
  := by
  apply of_isSpace (P := Inert) _ blank
  simp [Inert]

theorem inert_of_isBare {c : Char} (bare : isBare c = true) :
  Inert c
  := by
  refine ⟨?_, ?_, ?_⟩
  all_goals
    rintro rfl
    cases bare

theorem stripFrom_code {c : Char} (quote : c ≠ '"') (slash : c ≠ '/') (cs : List Char) :
  stripFrom .code (c :: cs) = c :: stripFrom .code cs
  := by
  rw [stripFrom]
  all_goals
    intros
    simp_all

theorem next_of_ne_quote {c : Char} (quote : c ≠ '"') :
  CommaState.next .code c = .code
  := by
  rw [CommaState.next, if_neg quote]

/-- Outside of strings, nothing but a comma before a bracket or brace is removed. -/
theorem removeCommasFrom_other {c : Char} (quote : c ≠ '"') (cs : List Char) :
  removeCommasFrom .code (c :: cs)
    = if c = ',' ∧ closes cs then removeCommasFrom .code cs else c :: removeCommasFrom .code cs
  := by
  simp [removeCommasFrom, next_of_ne_quote quote]

theorem removeCommasFrom_code {c : Char} (quote : c ≠ '"') (comma : c ≠ ',') (cs : List Char) :
  removeCommasFrom .code (c :: cs) = c :: removeCommasFrom .code cs
  := by
  rw [removeCommasFrom_other quote, if_neg]
  apply mt And.left comma

/-! ### Strings -/

theorem stripFrom_inside {body : List Char} (inside : Inside body) (rest : List Char) :
  stripFrom .string (body ++ rest) = body ++ stripFrom .string rest
  := by
  induction inside with
  | nil => rfl
  | plain proper _ ih =>
    rw [List.cons_append, stripFrom, ih, List.cons_append]
    all_goals
      intros
      simp_all
  | escape _ ih => simp [stripFrom, ih]

theorem stripFrom_string {body : List Char} (inside : Inside body) (rest : List Char) :
  stripFrom .string (body ++ '"' :: rest) = body ++ '"' :: stripFrom .code rest
  := by
  rw [stripFrom_inside inside, stripFrom]

theorem removeCommasFrom_inside {body : List Char} (inside : Inside body) (rest : List Char) :
  removeCommasFrom .string (body ++ rest) = body ++ removeCommasFrom .string rest
  := by
  induction inside with
  | nil => rfl
  | plain proper _ ih => simp [removeCommasFrom, CommaState.next, proper, ih]
  | escape _ ih => simp [removeCommasFrom, CommaState.next, ih]

theorem removeCommasFrom_string {body : List Char} (inside : Inside body) (rest : List Char) :
  removeCommasFrom .string (body ++ '"' :: rest) = body ++ '"' :: removeCommasFrom .code rest
  := by
  rw [removeCommasFrom_inside inside]
  simp [removeCommasFrom, CommaState.next]

/-! ### Passes over pieces -/

/-- A pass leaves characters that are inert, and texts in quotes, as they are. -/
structure Leaves (pass : List Char → List Char) : Prop where
  inert : ∀ c cs, Inert c → pass (c :: cs) = c :: pass cs
  quoted : ∀ body rest, Inside body →
    pass ('"' :: (body ++ ['"']) ++ rest) = '"' :: (body ++ ['"']) ++ pass rest

theorem leaves_stripFrom :
  Leaves (stripFrom .code)
  := by
  constructor
  case inert =>
    rintro c cs ⟨quote, slash, -⟩
    apply stripFrom_code quote slash
  case quoted =>
    intro body rest inside
    simp [stripFrom, stripFrom_string inside]

theorem leaves_removeCommasFrom :
  Leaves (removeCommasFrom .code)
  := by
  constructor
  case inert =>
    rintro c cs ⟨quote, -, comma⟩
    apply removeCommasFrom_code quote comma
  case quoted =>
    intro body rest inside
    simp [removeCommasFrom, CommaState.next, removeCommasFrom_string inside]

namespace Leaves

variable {pass : List Char → List Char}

theorem space (h : Leaves pass) {c : Char} (blank : isSpace c = true) (cs : List Char) :
  pass (c :: cs) = c :: pass cs
  := h.inert c cs (inert_of_isSpace blank)

theorem bare (h : Leaves pass) {run : List Char} (all : ∀ c ∈ run, isBare c = true)
    (rest : List Char) :
  pass (run ++ rest) = run ++ pass rest
  := by
  induction run with
  | nil => rfl
  | cons c run ih =>
    rw [List.forall_mem_cons] at all
    rw [List.cons_append, h.inert _ _ (inert_of_isBare all.1), ih all.2, List.cons_append]

theorem piece (h : Leaves pass) {p : List Char} (piece : IsPiece p) (rest : List Char) :
  pass (p ++ rest) = p ++ pass rest
  := by
  cases piece with
  | quoted inside => apply h.quoted _ rest inside
  | bare _ all => apply h.bare all

end Leaves

/-! ### Texts without comments -/

theorem stripFrom_line {body : List Char} (inline : '\n' ∉ body) (rest : List Char) :
  stripFrom .line (body ++ rest) = stripFrom .line rest
  := by
  induction body with
  | nil => rfl
  | cons c body ih =>
    obtain ⟨other, inline⟩ := not_or.1 (mt List.mem_cons.2 inline)
    rw [List.cons_append, stripFrom, ih inline]
    rintro rfl
    cases other rfl

/-- Of a block comment its line ends are left. -/
theorem stripFrom_block {body : List Char} (inside : ¬ ['*', '/'] <:+: body) (rest : List Char) :
  stripFrom .block (body ++ '*' :: '/' :: rest)
    = body.filter (· = '\n') ++ stripFrom .code rest
  := by
  induction body with
  | nil => rw [List.nil_append, stripFrom, List.filter_nil, List.nil_append]
  | cons c body ih =>
    have goes_on := ih (mt List.infix_cons inside)
    by_cases newline : c = '\n'
    · subst newline
      simp [stripFrom, goes_on]
    · rw [List.cons_append, stripFrom, goes_on, List.filter_cons_of_neg (by simpa using newline)]
      · intro cs star slash
        apply Text.cons_append_ne inside rest cs
        rw [star, slash]
      · apply newline

variable {ls : List Lexeme} {text : List Char}

/-- Of comments and spaces, spaces are left. -/
theorem Trivium.strip {inserted : List Char} (trivium : Trivium inserted) (rest : List Char) :
  ∃ spaces, (∀ c ∈ spaces, isSpace c = true)
    ∧ stripFrom .code (inserted ++ rest) = spaces ++ stripFrom .code rest
  := by
  cases trivium with
  | @space c blank =>
    use [c]
    simp [blank, leaves_stripFrom.space blank]
  | @line body inline =>
    use ['\n']
    simp [stripFrom, stripFrom_line inline, isSpace]
  | @block body inside =>
    use body.filter (· = '\n')
    constructor
    · intro c member
      have newline : c = '\n' := by simpa using (List.mem_filter.1 member).2
      rw [newline]
      rfl
    · simp [stripFrom, stripFrom_block inside]

theorem Remark.strip {last : List Char} (remark : Remark last) :
  stripFrom .code last = []
  := by
  cases remark with
  | nothing => rfl
  | @line body inline =>
    have empty := stripFrom_line inline []
    rw [List.append_nil] at empty
    rw [stripFrom, empty]
    rfl

theorem ne_of_mem_marks :
  ∀ c ∈ marks, c ≠ '"' ∧ c ≠ '/'
  := forall_mem_marks (by decide)

/-- Without its comments, a text is laid out as JSON with the same lexemes. -/
theorem laidPlain_stripComments (laid : Laid Trivium Remark ls text) :
  LaidPlain ls (stripComments text)
  := by
  unfold stripComments
  induction laid with
  | done remark =>
    rw [remark.strip]
    apply LaidPlain.nil
  | @gap ls between text trivium _ ih =>
    obtain ⟨spaces, blank, left⟩ := trivium.strip text
    rw [left]
    apply LaidPlain.spaces ih blank
  | mark member _ ih =>
    obtain ⟨quote, slash⟩ := ne_of_mem_marks _ member
    rw [stripFrom_code quote slash]
    apply Laid.mark member ih
  | literal piece spells _ ih =>
    rw [leaves_stripFrom.piece piece]
    apply Laid.literal piece spells ih

/-- Nothing is a comment in a text laid out as JSON. -/
theorem stripComments_eq_self (laid : LaidPlain ls text) :
  stripComments text = text
  := by
  unfold stripComments
  rw [LaidPlain] at laid
  induction laid with
  | done ends =>
    rw [ends]
    rfl
  | gap gap _ ih =>
    obtain ⟨c, rfl, space⟩ := gap
    rw [List.singleton_append, leaves_stripFrom.space space, ih]
  | mark member _ ih =>
    obtain ⟨quote, slash⟩ := ne_of_mem_marks _ member
    rw [stripFrom_code quote slash, ih]
  | literal piece _ _ ih => rw [leaves_stripFrom.piece piece, ih]

/-! ### Lexemes without trailing commas -/

/-- A bracket or brace that closes an array or object comes first. -/
def closing (ls : List Lexeme) : Bool :=
  ls.head?.any fun
    | .mark c => isCloser c
    | .scalar _ => false

/-- The lexemes without the commas before brackets and braces that close. -/
def untrailed : List Lexeme → List Lexeme
  | [] => []
  | .mark c :: ls => if c = ',' ∧ closing ls then untrailed ls else .mark c :: untrailed ls
  | .scalar s :: ls => .scalar s :: untrailed ls

/-- No bracket or brace closes after a comma of an accepted text. -/
theorem closing_eq_false (follows : (.mark ',' :: ls).IsChain Lexeme.Follows) :
  closing ls = false
  := by
  rw [List.isChain_cons] at follows
  cases ls with
  | nil => rfl
  | cons l ls =>
    have other := (follows.1 l rfl).2 rfl
    cases l with
    | mark c => simpa [closing, isCloser] using other
    | scalar s => rfl

/-! ### Texts without trailing commas -/

theorem isBlank_of_isSpace {c : Char} (space : isSpace c = true) :
  Text.isBlank c = true
  := of_isSpace (P := fun c => Text.isBlank c = true) (by decide) space

/-- Blanks are passed over. -/
theorem closes_cons (c : Char) (text : List Char) :
  closes (c :: text) = if Text.isBlank c then closes text else isCloser c
  := by
  split
  case isTrue blank => rw [closes, List.dropWhile_cons_of_pos blank, closes]
  case isFalse visible =>
    rw [closes, List.dropWhile_cons_of_neg visible]
    split
    case h_1 same =>
      obtain ⟨rfl, -⟩ := List.cons.inj same
      rfl
    case h_2 same =>
      obtain ⟨rfl, -⟩ := List.cons.inj same
      rfl
    case h_3 bracket brace =>
      have other : c ≠ ']' ∧ c ≠ '\x7d' := by
        constructor
        · rintro rfl
          apply bracket _ rfl
        · rintro rfl
          apply brace _ rfl
      simp [isCloser, other]

theorem closes_space {c : Char} (space : isSpace c = true) (cs : List Char) :
  closes (c :: cs) = closes cs
  := by
  rw [closes_cons, if_pos (isBlank_of_isSpace space)]

theorem closes_mark {c : Char} (member : c ∈ marks) (cs : List Char) :
  closes (c :: cs) = isCloser c
  := by
  have visible : ∀ c ∈ marks, ¬ Text.isBlank c = true := forall_mem_marks (by decide)
  rw [closes_cons, if_neg (visible c member)]

theorem not_isBlank_of_isBare {c : Char} (bare : isBare c = true) :
  ¬ Text.isBlank c = true
  := by
  have visible : 0x20 < c.toNat ∧ c.toNat < 0x7F := by
    simp only [isBare, Char.isAlphanum, Char.isAlpha, Char.isUpper, Char.isLower, Char.isDigit,
      Bool.or_eq_true, Bool.and_eq_true, decide_eq_true_eq, UInt32.le_iff_toNat_le] at bare
    rcases bare with ((((⟨low, high⟩ | ⟨low, high⟩) | ⟨low, high⟩) | rfl) | rfl) | rfl
    case inr => decide
    case inl.inr => decide
    case inl.inl.inr => decide
    all_goals exact ⟨Nat.lt_of_lt_of_le (by decide) low, Nat.lt_of_le_of_lt high (by decide)⟩
  simp only [Text.isBlank, Text.blankRanges, List.any_cons, List.any_nil, Bool.or_eq_true,
    Bool.and_eq_true, decide_eq_true_eq, Bool.false_eq_true, or_false]
  omega

theorem isCloser_of_isBare {c : Char} (bare : isBare c = true) :
  isCloser c = false
  := by
  rw [isCloser, Bool.or_eq_false_iff, decide_eq_false_iff_not, decide_eq_false_iff_not]
  constructor
  · rintro rfl
    cases bare
  · rintro rfl
    cases bare

theorem closes_piece {p : List Char} (piece : IsPiece p) (cs : List Char) :
  closes (p ++ cs) = false
  := by
  cases piece with
  | quoted => rfl
  | bare some all =>
    obtain ⟨c, run, rfl⟩ := List.exists_cons_of_ne_nil some
    have bare : isBare c = true := all c List.mem_cons_self
    rw [List.cons_append, closes_cons, if_neg (not_isBlank_of_isBare bare)]
    apply isCloser_of_isBare bare

/-- A comma stands before a closing bracket or brace just where its lexeme does. -/
theorem closes_eq_closing (laid : LaidPlain ls text) :
  closes text = closing ls
  := by
  rw [LaidPlain] at laid
  induction laid with
  | done ends =>
    rw [ends]
    rfl
  | gap gap _ ih =>
    obtain ⟨c, rfl, space⟩ := gap
    rw [List.singleton_append, closes_space space, ih]
  | mark member _ _ =>
    rw [closes_mark member]
    rfl
  | literal piece _ _ _ =>
    rw [closes_piece piece]
    rfl

theorem removeCommasFrom_comma (closed : closes text = true) :
  removeCommasFrom .code (',' :: text) = removeCommasFrom .code text
  := by
  simp [removeCommasFrom, closed]

theorem removeCommasFrom_mark {c : Char} (member : c ∈ marks)
    (kept : c = ',' → closes text = false) :
  removeCommasFrom .code (c :: text) = c :: removeCommasFrom .code text
  := by
  rw [removeCommasFrom_other (ne_of_mem_marks c member).1, if_neg]
  rintro ⟨comma, closed⟩
  rw [kept comma] at closed
  cases closed

/-- Without its trailing commas, a text is laid out with the lexemes without theirs. -/
theorem laidPlain_removeTrailingCommas (laid : LaidPlain ls text) :
  LaidPlain (untrailed ls) (removeTrailingCommas text)
  := by
  unfold removeTrailingCommas
  rw [LaidPlain] at laid
  induction laid with
  | done ends =>
    rw [ends]
    apply LaidPlain.nil
  | gap gap _ ih =>
    obtain ⟨c, rfl, space⟩ := gap
    rw [List.singleton_append, leaves_removeCommasFrom.space space]
    apply LaidPlain.space ih space
  | @mark ls c text member rest ih =>
    have same : closes text = closing ls := closes_eq_closing rest
    rw [untrailed]
    split
    case isTrue trailing =>
      obtain ⟨rfl, closed⟩ := trailing
      rw [removeCommasFrom_comma (same.trans closed)]
      apply ih
    case isFalse kept =>
      rw [removeCommasFrom_mark member]
      · apply Laid.mark member ih
      · rintro rfl
        simpa [same] using kept
  | literal piece spells _ ih =>
    rw [leaves_removeCommasFrom.piece piece]
    apply Laid.literal piece spells ih

/-- Nothing is a trailing comma in an accepted text. -/
theorem removeTrailingCommas_eq_self (laid : LaidPlain ls text)
    (follows : ls.IsChain Lexeme.Follows) :
  removeTrailingCommas text = text
  := by
  unfold removeTrailingCommas
  rw [LaidPlain] at laid
  induction laid with
  | done ends =>
    rw [ends]
    rfl
  | gap gap _ ih =>
    obtain ⟨c, rfl, space⟩ := gap
    rw [List.singleton_append, leaves_removeCommasFrom.space space, ih follows]
  | mark member rest ih =>
    rw [removeCommasFrom_mark member, ih follows.of_cons]
    rintro rfl
    rw [closes_eq_closing rest]
    apply closing_eq_false follows
  | literal piece _ _ ih => rw [leaves_removeCommasFrom.piece piece, ih follows.of_cons]

/-! ### Decorated texts -/

theorem apart_of_follows (follows : ls.IsChain Lexeme.Follows) :
  Lexeme.Apart ls
  := follows.imp fun _ _ next => next.1

/-- The next lexeme of a text closes an array or object where the text does. -/
theorem closing_of_closing {text : List Char} (laid : LaidPlain ls text) (h : Closing text) :
  closing ls = true
  := by
  obtain ⟨spaces, c, rest, rfl, blank, closer⟩ := h
  induction spaces with
  | nil =>
    have member : c ∈ marks := by
      simp only [isCloser, Bool.or_eq_true, decide_eq_true_eq] at closer
      rcases closer with rfl | rfl <;> decide
    obtain ⟨others, rfl, -⟩ := laid.of_mark member
    apply closer
  | cons d spaces ih =>
    rw [List.forall_mem_cons] at blank
    apply ih (laid.of_space blank.1) blank.2

/-- A decorated text is laid out with the lexemes of the text and with trailing commas. -/
theorem Decorated.laid {fresh : Bool} {text' : List Char} (h : Decorated fresh text text')
    (laid : LaidPlain ls text) (follows : ls.IsChain Lexeme.Follows) :
  ∃ ls', Laid Trivium Remark ls' text' ∧ untrailed ls' = ls
    ∧ (fresh = true → ls'.head? = ls.head?)
  := by
  induction h generalizing ls with
  | done fresh remark =>
    obtain rfl := laid.of_nil
    exact ⟨[], .done remark, rfl, fun _ => rfl⟩
  | space blank _ ih =>
    obtain ⟨ls', laid', trimmed, head⟩ := ih (laid.of_space blank) follows
    exact ⟨ls', .gap (.space blank) laid', trimmed, head⟩
  | @mark fresh c text text' member _ ih =>
    obtain ⟨others, rfl, rest⟩ := laid.of_mark member
    obtain ⟨ls', laid', trimmed, head⟩ := ih rest follows.of_cons
    refine ⟨.mark c :: ls', .mark member laid', ?_, fun _ => rfl⟩
    rw [untrailed, if_neg, trimmed]
    rintro ⟨rfl, closed⟩
    rw [closing, head rfl] at closed
    have open' := closing_eq_false follows
    rw [closing, closed] at open'
    cases open'
  | literal fresh piece separate _ ih =>
    obtain ⟨s, others, rfl, spells, rest⟩ :=
      laid.of_piece piece separate (apart_of_follows follows)
    obtain ⟨ls', laid', trimmed, -⟩ := ih rest follows.of_cons
    refine ⟨.scalar s :: ls', .literal piece spells laid', ?_, fun _ => rfl⟩
    rw [untrailed, trimmed]
  | trivium trivium _ ih =>
    obtain ⟨ls', laid', trimmed, head⟩ := ih laid follows
    exact ⟨ls', .gap trivium laid', trimmed, head⟩
  | comma closed _ ih =>
    obtain ⟨ls', laid', trimmed, head⟩ := ih laid follows
    refine ⟨.mark ',' :: ls', .mark (by decide) laid', ?_, nofun⟩
    have trailing : closing ls' = true := by
      rw [closing, head rfl]
      apply closing_of_closing laid closed
    rw [untrailed, if_pos ⟨rfl, trailing⟩, trimmed]

/-- An accepted text decorates itself. -/
theorem decorated_self (laid : LaidPlain ls text) (follows : ls.IsChain Lexeme.Follows)
    (fresh : Bool) :
  Decorated fresh text text
  := by
  rw [LaidPlain] at laid
  induction laid generalizing fresh with
  | done ends =>
    rw [ends]
    apply Decorated.done fresh .nothing
  | gap gap _ ih =>
    obtain ⟨c, rfl, space⟩ := gap
    apply Decorated.space space (ih follows fresh)
  | mark member _ ih => apply Decorated.mark fresh member (ih follows.of_cons _)
  | @literal ls p text s piece _ rest ih =>
    rw [List.isChain_cons] at follows
    have separate : Separate text := by
      apply LaidPlain.separate rest
      intro l head
      apply (follows.1 l head).1 ⟨s, rfl⟩
    apply Decorated.literal fresh piece separate (ih follows.2 false)

/-- Nothing is taken away from a text that writes a value, and what is left of the text, however it is
decorated, writes the same value. -/
theorem readValue_plainJson {text : List Char} {v : Value} (read : readValue text = .ok v) :
  stripComments text = text ∧ removeTrailingCommas text = text ∧ Decorated true text text
    ∧ ∀ text', Decorated true text text' → readValue (ConfigFile.plainJson text') = .ok v
  := by
  obtain ⟨ls, ⟨laid, -, follows⟩, alike⟩ := exists_accepted_of_readValue read
  refine ⟨stripComments_eq_self laid, removeTrailingCommas_eq_self laid follows,
    decorated_self laid follows true, ?_⟩
  intro text' decorated
  obtain ⟨ls', laid', rfl, -⟩ := decorated.laid laid follows
  have plain := laidPlain_removeTrailingCommas (laidPlain_stripComments laid')
  apply alike
  apply tokensFrom_of_laid plain (apart_of_follows follows)

/-- A string with a comment and a trailing comma in it keeps them, and a trailing comma is one also
where comments come before and after it. -/
theorem readValue_plainJson_commented :
  readValue "[\"\\\",]/*\",1]".toList = .ok (.array [.string "\",]/*", .number (.integer 1)])
    ∧ Decorated true "[\"\\\",]/*\",1]".toList
      "/*/ \" */[\"\\\",]/*\",1// ]\n,/***/]//".toList
    ∧ readValue (ConfigFile.plainJson "/*/ \" */[\"\\\",]/*\",1// ]\n,/***/]//".toList)
      = .ok (.array [.string "\",]/*", .number (.integer 1)])
  := by
  have read : readValue "[\"\\\",]/*\",1]".toList
      = .ok (.array [.string "\",]/*", .number (.integer 1)]) := by
    cbv
  have inside : Inside ['\\', '"', ',', ']', '/', '*'] := by
    apply Inside.escape
    iterate 4 apply Inside.plain (by decide)
    apply Inside.nil
  have closed : Decorated true [']'] [']', '/', '/'] :=
    .mark true (by decide) (.done false (.line (by decide)))
  have comma : Decorated false [']'] (',' :: (['/', '*', '*', '*', '/'] ++ [']', '/', '/'])) :=
    .comma ⟨[], ']', [], rfl, by simp, rfl⟩ (.trivium (@Trivium.block ['*'] (by decide)) closed)
  have item : Decorated true (['1'] ++ [']']) _ :=
    .literal true (.bare (by decide) (List.all_eq_true.1 rfl)) (separate_mark (by decide) _)
      (.trivium (@Trivium.line [' ', ']'] (by decide)) comma)
  have items :
      Decorated true ('"' :: (['\\', '"', ',', ']', '/', '*'] ++ ['"']) ++ [',', '1', ']']) _ :=
    .literal true (.quoted inside) (separate_mark (by decide) _) (.mark false (by decide) item)
  have decorated : Decorated true "[\"\\\",]/*\",1]".toList
      "/*/ \" */[\"\\\",]/*\",1// ]\n,/***/]//".toList :=
    .trivium (@Trivium.block ['/', ' ', '"', ' '] (by decide)) (.mark true (by decide) items)
  exact ⟨read, decorated, (readValue_plainJson read).2.2.2 _ decorated⟩
end TypeAssertions.Config
