import Mathlib.Data.List.Basic
import Mathlib.Tactic.Use
import TypeAssertions.Diagnostic.Message

/-!
# Filled messages

A message is cut into pieces, its characters and the places of its arguments; there is one way to
cut it, as long as no character outside a place is an opening brace (`Pieces.unique`).  Filling
replaces the places in turn, in the text as it is then, and not all at once.  Both give the same
text when no argument but the last one has an opening brace (`Pieces.fill`), because then nothing
that is brought in is part of a later place.
-/

namespace TypeAssertions.Template

/-! ### Places -/

theorem isDigit_of_mem_digits {i : Nat} {c : Char} (member : c ∈ Nat.toDigits 10 i) :
  c.isDigit = true
  := Nat.isDigit_of_mem_toDigits (by decide) (by decide) member

theorem takeWhile_isDigit_place (i : Nat) (rest : List Char) :
  (Nat.toDigits 10 i ++ '\x7d' :: rest).takeWhile Char.isDigit = Nat.toDigits 10 i
  := by
  rw [List.takeWhile_append_of_pos fun c => isDigit_of_mem_digits, List.takeWhile_cons_of_neg,
    List.append_nil]
  decide

/-- No place is the beginning of another one. -/
theorem place_append_inj {i j : Nat} {rest rest' : List Char}
    (same : place i ++ rest = place j ++ rest') :
  i = j ∧ rest = rest'
  := by
  have tails : Nat.toDigits 10 i ++ '\x7d' :: rest = Nat.toDigits 10 j ++ '\x7d' :: rest' := by
    simpa [place] using same
  have digits : Nat.toDigits 10 i = Nat.toDigits 10 j := by
    rw [← takeWhile_isDigit_place i rest, tails, takeWhile_isDigit_place]
  have number : i = j := by
    rw [← Nat.ofDigitChars_ten_toDigits (n := i), digits, Nat.ofDigitChars_ten_toDigits]
  subst number
  use rfl, List.append_cancel_left same

/-- The only brace of a place that opens is its first character. -/
theorem tail_place (i : Nat) :
  ∃ tail, place i = '\x7b' :: tail ∧ '\x7b' ∉ tail
  := by
  use Nat.toDigits 10 i ++ ['\x7d'], rfl
  rw [List.mem_append, not_or]
  constructor
  · intro member
    have digit := isDigit_of_mem_digits member
    revert digit
    decide
  · decide

/-! ### Replacing one place -/

theorem replaceFrom_skipped (pattern replacement part rest : List Char) :
  replaceFrom pattern replacement part.length (part ++ rest)
    = replaceFrom pattern replacement 0 rest
  := by
  induction part with
  | nil => rfl
  | cons c part ih => apply ih

theorem replaceFrom_self (i : Nat) (replacement rest : List Char) :
  replaceFrom (place i) replacement 0 (place i ++ rest)
    = replacement ++ replaceFrom (place i) replacement 0 rest
  := by
  obtain ⟨tail, shape, -⟩ := tail_place i
  have starts : (place i).isPrefixOf ('\x7b' :: (tail ++ rest)) = true := by
    rw [List.isPrefixOf_iff_prefix, shape]
    apply List.prefix_append ('\x7b' :: tail) rest
  have length : (place i).length - 1 = tail.length := by
    rw [shape, List.length_cons, Nat.add_sub_cancel]
  have spelled : place i ++ rest = '\x7b' :: (tail ++ rest) := by rw [shape, List.cons_append]
  rw [spelled, replaceFrom, if_pos starts, length, replaceFrom_skipped]

/-- Where no place starts, characters are copied. -/
theorem replaceFrom_cons {i : Nat} {c : Char} {cs : List Char} (other : ¬ place i <+: c :: cs)
    (replacement : List Char) :
  replaceFrom (place i) replacement 0 (c :: cs) = c :: replaceFrom (place i) replacement 0 cs
  := by
  rw [← List.isPrefixOf_iff_prefix] at other
  rw [replaceFrom, if_neg other]

theorem place_not_first {c : Char} (other : c ≠ '\x7b') (i : Nat) (cs : List Char) :
  ¬ place i <+: c :: cs
  := by
  rintro ⟨rest, same⟩
  apply other
  apply (List.cons.inj same).1.symm

theorem replaceFrom_append {part : List Char} (plain : '\x7b' ∉ part) (i : Nat)
    (replacement rest : List Char) :
  replaceFrom (place i) replacement 0 (part ++ rest)
    = part ++ replaceFrom (place i) replacement 0 rest
  := by
  induction part with
  | nil => rfl
  | cons c part ih =>
    rw [List.mem_cons, not_or] at plain
    rw [List.cons_append, replaceFrom_cons (place_not_first (Ne.symm plain.1) i _), ih plain.2,
      List.cons_append]

theorem replaceFrom_other {i j : Nat} (other : i ≠ j) (replacement rest : List Char) :
  replaceFrom (place i) replacement 0 (place j ++ rest)
    = place j ++ replaceFrom (place i) replacement 0 rest
  := by
  obtain ⟨tail, shape, plain⟩ := tail_place j
  have apart : ¬ place i <+: '\x7b' :: (tail ++ rest) := by
    rintro ⟨rest', same⟩
    rw [← List.cons_append, ← shape] at same
    apply other (place_append_inj same).1
  rw [shape, List.cons_append, replaceFrom_cons apart, replaceFrom_append plain, List.cons_append]

/-! ### Pieces -/

/-- A piece of a message: a character, or the place of an argument. -/
inductive Piece where
  | char (c : Char)
  | place (i : Nat)
  deriving DecidableEq

namespace Piece

/-- The text of a piece. -/
def chars : Piece → List Char
  | .char c => [c]
  | .place i => Template.place i

/-- The number of the argument of a place. -/
def number? : Piece → Option Nat
  | .char _ => none
  | .place i => some i

/-- The pieces of a text without places. -/
def ofText (text : String) : List Piece := text.toList.map .char

/-- The text of a piece with some arguments in their places; other places stay. -/
def filled (argument? : Nat → Option String) : Piece → List Char
  | .char c => [c]
  | .place i => (argument? i).elim (Template.place i) String.toList

/-- The pieces for a piece when argument `i` is put into its place. -/
def put (i : Nat) (argument : String) : Piece → List Piece
  | .char c => [.char c]
  | .place j => if i = j then ofText argument else [.place j]

theorem flatMap_chars_ofText (text : String) :
  (ofText text).flatMap chars = text.toList
  := by
  rw [ofText, List.flatMap_map]
  apply List.flatMap_singleton'

theorem char_mem_ofText {text : String} {c : Char} :
  .char c ∈ ofText text ↔ c ∈ text.toList
  := by
  simp [ofText]

end Piece

/-- Pieces are those of a text: they spell it, and an opening brace in it is that of a place. -/
structure Pieces (text : List Char) (ps : List Piece) : Prop where
  spelled : ps.flatMap Piece.chars = text
  plain : .char '\x7b' ∉ ps

namespace Pieces

variable {text : List Char} {ps qs : List Piece}

theorem unique_of_plain (plain : .char '\x7b' ∉ ps) (plain' : .char '\x7b' ∉ qs)
    (same : ps.flatMap Piece.chars = qs.flatMap Piece.chars) :
  ps = qs
  := by
  induction ps generalizing qs with
  | nil =>
    cases qs with
    | nil => rfl
    | cons q qs => cases q <;> cases same
  | cons p ps ih =>
    cases qs with
    | nil => cases p <;> cases same
    | cons q qs =>
      rw [List.mem_cons, not_or] at plain plain'
      rw [List.flatMap_cons, List.flatMap_cons] at same
      cases p with
      | char c =>
        cases q with
        | char d =>
          obtain ⟨rfl, rest⟩ := List.cons.inj same
          rw [ih plain.2 plain'.2 rest]
        | place j =>
          obtain ⟨rfl, -⟩ := List.cons.inj same
          cases plain.1 rfl
      | place i =>
        cases q with
        | char d =>
          obtain ⟨rfl, -⟩ := List.cons.inj same
          cases plain'.1 rfl
        | place j =>
          obtain ⟨rfl, rest⟩ := place_append_inj same
          rw [ih plain.2 plain'.2 rest]

/-- There is one way only to cut a text. -/
theorem unique (h : Pieces text ps) (h' : Pieces text qs) :
  qs = ps
  := unique_of_plain h'.plain h.plain (h'.spelled.trans h.spelled.symm)

/-! ### Replacing the places -/

/-- Replacing a place puts the argument into it, and changes nothing else. -/
theorem replaceFrom_eq (h : Pieces text ps) (i : Nat) (argument : String) :
  replaceFrom (place i) argument.toList 0 text
    = (ps.flatMap (Piece.put i argument)).flatMap Piece.chars
  := by
  obtain ⟨rfl, plain⟩ := h
  induction ps with
  | nil => rfl
  | cons p ps ih =>
    rw [List.mem_cons, not_or] at plain
    rw [List.flatMap_cons, List.flatMap_cons, List.flatMap_append, ← ih plain.2]
    cases p with
    | char c =>
      have other : '\x7b' ∉ [c] := by
        rintro (_ | ⟨_, ⟨⟩⟩)
        cases plain.1 rfl
      apply replaceFrom_append other
    | place j =>
      by_cases same : i = j
      · subst same
        rw [Piece.put, if_pos rfl, Piece.flatMap_chars_ofText]
        apply replaceFrom_self
      · rw [Piece.put, if_neg same, List.flatMap_singleton]
        apply replaceFrom_other same

theorem plain_flatMap_put (plain : .char '\x7b' ∉ ps) {argument : String}
    (clean : '\x7b' ∉ argument.toList) (i : Nat) :
  .char '\x7b' ∉ ps.flatMap (Piece.put i argument)
  := by
  rw [List.mem_flatMap]
  rintro ⟨p, member, brace⟩
  cases p with
  | char c =>
    rw [List.mem_singleton.1 brace] at plain
    apply plain member
  | place j =>
    rw [Piece.put] at brace
    split at brace
    · apply clean (Piece.char_mem_ofText.1 brace)
    · cases List.mem_singleton.1 brace

/-- The arguments of which the first has number `i`. -/
def argumentsFrom (i : Nat) (arguments : List String) (j : Nat) : Option String :=
  if j < i then none else arguments[j - i]?

theorem argumentsFrom_cons (i j : Nat) (argument : String) (rest : List String) :
  argumentsFrom i (argument :: rest) j
    = if i = j then some argument else argumentsFrom (i + 1) rest j
  := by
  rw [argumentsFrom, argumentsFrom]
  rcases Nat.lt_trichotomy j i with less | rfl | greater
  · rw [if_pos less, if_neg (by omega), if_pos (by omega)]
  · rw [if_neg (by omega), if_pos rfl, Nat.sub_self, List.getElem?_cons_zero]
  · obtain ⟨k, rfl⟩ := Nat.exists_eq_add_of_lt greater
    rw [if_neg (by omega), if_neg (by omega), if_neg (by omega)]
    have first : i + k + 1 - i = k + 1 := by omega
    have second : i + k + 1 - (i + 1) = k := by omega
    rw [first, second, List.getElem?_cons_succ]

/-- Pieces with an argument put into its place are filled by the other arguments. -/
theorem flatMap_filled_put (i : Nat) (argument : String) (rest : List String) (ps : List Piece) :
  (ps.flatMap (Piece.put i argument)).flatMap (Piece.filled (argumentsFrom (i + 1) rest))
    = ps.flatMap (Piece.filled (argumentsFrom i (argument :: rest)))
  := by
  rw [List.flatMap_assoc]
  apply List.flatMap_congr
  intro p _
  cases p with
  | char c => rfl
  | place j =>
    rw [Piece.put, Piece.filled, argumentsFrom_cons]
    split
    · have copied : (Piece.ofText argument).flatMap (Piece.filled (argumentsFrom (i + 1) rest))
          = (Piece.ofText argument).flatMap Piece.chars := by
        rw [Piece.ofText, List.flatMap_map, List.flatMap_map]
        rfl
      rw [copied, Piece.flatMap_chars_ofText]
      rfl
    · rw [List.flatMap_singleton, Piece.filled]

theorem flatMap_filled_nil (i : Nat) (ps : List Piece) :
  ps.flatMap (Piece.filled (argumentsFrom i [])) = ps.flatMap Piece.chars
  := by
  apply List.flatMap_congr
  intro p _
  cases p with
  | char c => rfl
  | place j => simp [Piece.filled, Piece.chars, argumentsFrom]

/-- Replacing places in turn is replacing them all at once when no argument but the last one has an
opening brace. -/
theorem fillFrom_eq (h : Pieces text ps) {arguments : List String}
    (clean : ∀ argument ∈ arguments.dropLast, '\x7b' ∉ argument.toList) (i : Nat) :
  fillFrom i text arguments = ps.flatMap (Piece.filled (argumentsFrom i arguments))
  := by
  induction arguments generalizing i text ps with
  | nil => rw [flatMap_filled_nil, h.spelled, fillFrom]
  | cons argument rest ih =>
    rw [fillFrom, h.replaceFrom_eq, ← flatMap_filled_put]
    cases rest with
    | nil => rw [flatMap_filled_nil, fillFrom]
    | cons next rest =>
      rw [List.dropLast_cons_cons, List.forall_mem_cons] at clean
      apply ih ⟨rfl, plain_flatMap_put h.plain clean.1 i⟩ clean.2

/-- A message is filled by all its arguments at once when none but the last one has an opening
brace. -/
theorem fill {message : String} (h : Pieces message.toList ps) {arguments : List String}
    (clean : ∀ argument ∈ arguments.dropLast, '\x7b' ∉ argument.toList) :
  (Template.fill message arguments).toList
    = ps.flatMap (Piece.filled fun i => arguments[i]?)
  := by
  have all : argumentsFrom 0 arguments = fun i => arguments[i]? := by
    funext i
    rw [argumentsFrom, if_neg (Nat.not_lt_zero i), Nat.sub_zero]
  rw [Template.fill, String.toList_ofList, h.fillFrom_eq clean, all]

/-- An argument with a brace may bring in the place of the next one. -/
example : Template.fill "\x7b0\x7d \x7b1\x7d" ["\x7b1\x7d", "x"] = "x x" := by decide

end Pieces

/-- A code has a message with some number of arguments, each of which has one place, in their
order. -/
structure Takes (code : UInt32) (number : Nat) (t : Template) (ps : List Piece) : Prop where
  found : find? code = some t
  pieces : Pieces t.text.toList ps
  places : ps.filterMap Piece.number? = List.range number

end TypeAssertions.Template
