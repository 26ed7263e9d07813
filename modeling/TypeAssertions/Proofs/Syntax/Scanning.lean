import Mathlib
import TypeAssertions.Proofs.Syntax.Trivia
import TypeAssertions.Syntax.SourceFile
import TypeAssertions.Text.Utf8

/-!
# Scanning for tokens by bytes

A scanner that looks at the UTF-8 form of a text byte by byte, and cuts the text where it searches for
the end of a comment, skips the same trivia: from every offset it comes to the first token after
finitely many turns, and no cut is inside a character (`Skips.runs`, `runs_inside`).  The reason is
that the byte of an ASCII character stands only where the character does (`isAt_iff`).
-/

namespace TypeAssertions.Syntax

open Text

/-! ### Bytes of ASCII characters -/

/-- The byte of an ASCII character. -/
def byteOf (c : Char) : UInt8 := UInt8.ofNat c.toNat

/-- The byte of a character stands at an offset of a text. -/
def IsAt (text : List Char) (offset : Nat) (c : Char) : Prop :=
  (Utf8.encode text)[offset]? = some (byteOf c)

instance (text : List Char) (offset : Nat) (c : Char) : Decidable (IsAt text offset c) :=
  inferInstanceAs (Decidable (_ = _))

/-- An ASCII character is written as its byte, and any other character without bytes of ASCII
characters. -/
theorem utf8EncodeChar_cases (c : Char) :
  (c.toNat < 0x80 ∧ String.utf8EncodeChar c = [byteOf c])
    ∨ (0x80 ≤ c.toNat ∧ ∀ b ∈ String.utf8EncodeChar c, 0x80 ≤ b.toNat)
  := by
  have value : c.val.toNat = c.toNat := rfl
  have most : c.toNat < 0x110000 := by
    have valid : c.toNat.isValidChar := c.valid
    rw [Nat.isValidChar] at valid
    omega
  have byte (n : Nat) (small : n < 256) : (UInt8.ofNat n).toNat = n := by
    rw [UInt8.toNat_ofNat', Nat.mod_eq_of_lt small]
  simp only [String.utf8EncodeChar, value, byteOf]
  generalize c.toNat = n at most
  split
  case isTrue ascii => exact .inl ⟨by omega, rfl⟩
  case isFalse other =>
    right
    use by omega
    split
    · simp only [List.forall_mem_cons, List.not_mem_nil, false_implies, implies_true, and_true]
      rw [byte _ (by omega), byte _ (by omega)]
      omega
    · split
      · simp only [List.forall_mem_cons, List.not_mem_nil, false_implies, implies_true, and_true]
        rw [byte _ (by omega), byte _ (by omega), byte _ (by omega)]
        omega
      · simp only [List.forall_mem_cons, List.not_mem_nil, false_implies, implies_true, and_true]
        rw [byte _ (by omega), byte _ (by omega), byte _ (by omega), byte _ (by omega)]
        omega

theorem byteOf_inj {a c : Char} (ascii : a.toNat < 0x80) (ascii' : c.toNat < 0x80)
    (same : byteOf a = byteOf c) :
  a = c
  := by
  have bytes := congrArg UInt8.toNat same
  rw [byteOf, byteOf, UInt8.toNat_ofNat', UInt8.toNat_ofNat', Nat.mod_eq_of_lt (by omega),
    Nat.mod_eq_of_lt (by omega)] at bytes
  apply Char.toNat_inj.1 bytes

/-- The byte of an ASCII character stands where the character does. -/
theorem isAt_iff {a : Char} (ascii : a.toNat < 0x80) {text : List Char} {offset : Nat} :
  IsAt text offset a ↔ ∃ before after, text = before ++ a :: after ∧ byteLength before = offset
  := by
  induction text generalizing offset with
  | nil => simp [IsAt, Utf8.encode]
  | cons c cs ih =>
    have length := String.length_utf8EncodeChar c
    have encoded : Utf8.encode (c :: cs) = String.utf8EncodeChar c ++ Utf8.encode cs :=
      List.flatMap_cons
    rcases Nat.lt_or_ge offset c.utf8Size with first | later
    · -- only the first character can stand there
      have here : IsAt (c :: cs) offset a ↔ (String.utf8EncodeChar c)[offset]? = some (byteOf a) := by
        rw [IsAt, encoded, List.getElem?_append_left (by omega)]
      have there : (∃ before after, c :: cs = before ++ a :: after ∧ byteLength before = offset)
          ↔ c = a ∧ offset = 0 := by
        constructor
        · rintro ⟨before, after, same, rfl⟩
          cases before with
          | nil => exact ⟨(List.cons.inj same).1, rfl⟩
          | cons d before =>
            obtain ⟨rfl, -⟩ := List.cons.inj same
            simp only [byteLength] at first
            omega
        · rintro ⟨rfl, rfl⟩
          exact ⟨[], cs, rfl, rfl⟩
      rw [here, there]
      rcases utf8EncodeChar_cases c with ⟨ascii', single⟩ | ⟨above, bytes⟩
      · have start : offset = 0 := by
          rw [single, List.length_singleton] at length
          omega
        subst start
        rw [single, List.getElem?_cons_zero, Option.some.injEq]
        constructor
        · intro same
          use byteOf_inj ascii' ascii same
        · rintro ⟨rfl, -⟩
          rfl
      · constructor
        · intro found
          have high := bytes _ (List.mem_of_getElem? found)
          rw [byteOf, UInt8.toNat_ofNat'] at high
          omega
        · rintro ⟨rfl, -⟩
          omega
    · have here : IsAt (c :: cs) offset a ↔ IsAt cs (offset - c.utf8Size) a := by
        rw [IsAt, IsAt, encoded, List.getElem?_append_right (by omega), length]
      rw [here, ih]
      constructor
      · rintro ⟨before, after, rfl, bytes⟩
        refine ⟨c :: before, after, rfl, ?_⟩
        simp only [byteLength]
        omega
      · rintro ⟨before, after, same, rfl⟩
        cases before with
        | nil =>
          have := c.utf8Size_pos
          simp only [byteLength] at later
          omega
        | cons d before =>
          obtain ⟨rfl, rfl⟩ := List.cons.inj same
          refine ⟨before, after, rfl, ?_⟩
          simp [byteLength]

theorem isAt_append_iff {a : Char} (ascii : a.toNat < 0x80) {above rest : List Char} :
  IsAt (above ++ rest) (byteLength above) a ↔ rest.head? = some a
  := by
  rw [isAt_iff ascii]
  constructor
  · rintro ⟨before, after, same, bytes⟩
    obtain ⟨-, rfl⟩ := append_inj_of_byteLength same bytes.symm
    rfl
  · intro head
    obtain ⟨after, rfl⟩ := List.head?_eq_some_iff.1 head
    exact ⟨above, after, rfl, rfl⟩

theorem IsAt.isBoundary {a : Char} {text : List Char} {offset : Nat} (h : IsAt text offset a)
    (ascii : a.toNat < 0x80) :
  IsBoundary text offset
  := by
  obtain ⟨before, after, split, bytes⟩ := (isAt_iff ascii).1 h
  exact ⟨before, a :: after, split, bytes⟩

/-! ### Turns -/

/-- The bytes before the first occurrence of a mark. -/
def find? (mark : List Char) : List Char → Option Nat
  | [] => none
  | c :: cs => if mark <+: c :: cs then some 0 else (find? mark cs).map (c.utf8Size + ·)

theorem find?_eq_none {mark cs : List Char} (absent : ¬ mark <:+: cs) :
  find? mark cs = none
  := by
  induction cs with
  | nil => rfl
  | cons c cs ih =>
    rw [List.infix_cons_iff, not_or] at absent
    rw [find?, if_neg absent.1, ih absent.2, Option.map_none]

theorem find?_append {mark body rest : List Char} (nonempty : mark ≠ []) (leads : mark <+: rest)
    (absent : ∀ before after, body = before ++ after → after ≠ [] → ¬ mark <+: after ++ rest) :
  find? mark (body ++ rest) = some (byteLength body)
  := by
  induction body with
  | nil =>
    cases rest with
    | nil => cases nonempty (List.prefix_nil.1 leads)
    | cons c rest => rw [List.nil_append, find?, if_pos leads, byteLength]
  | cons c body ih =>
    have early : ¬ mark <+: c :: (body ++ rest) := absent [] (c :: body) rfl (List.cons_ne_nil _ _)
    rw [List.cons_append, find?, if_neg early, ih, Option.map_some, byteLength]
    rintro before after rfl
    apply absent (c :: before) after rfl

/-- The characters that may stand between tokens. -/
def blanks : List Char := [' ', '\t', '\n', '\r', '\x0b', '\x0c']

theorem mem_blanks_iff {c : Char} :
  c ∈ blanks ↔ isBlank c = true
  := by
  simp only [blanks, isBlank, List.mem_cons, List.not_mem_nil, or_false, Bool.or_eq_true,
    decide_eq_true_eq, or_assoc]

theorem ascii_of_mem_blanks :
  ∀ c ∈ blanks, c.toNat < 0x80
  := by
  simp [blanks]

theorem byteLength_of_mem_blanks :
  ∀ c ∈ blanks, byteLength [c] = 1
  := by
  simp [blanks, byteLength, Char.utf8Size]

/-- What the scanner does at an offset: it is done, it goes on at another offset, or it cuts a
character. -/
inductive Turn where
  | stop
  | jump (offset : Nat)
  | cut
  deriving DecidableEq, Repr

/-- The turn of the scanner at an offset.  It looks at bytes, and cuts the text where it searches for
the end of a comment. -/
def turn (text : List Char) (offset : Nat) : Turn :=
  if ∃ c ∈ blanks, IsAt text offset c then .jump (offset + 1)
  else if IsAt text offset '/' ∧ IsAt text (offset + 1) '/' then
    match dropBytes? offset text with
    | none => .cut
    | some rest => .jump ((find? ['\n'] rest).elim (byteLength text) (offset + ·))
  else if IsAt text offset '/' ∧ IsAt text (offset + 1) '*' then
    match dropBytes? (offset + 2) text with
    | none => .cut
    | some rest => .jump ((find? ['*', '/'] rest).elim (byteLength text) (offset + 2 + · + 2))
  else .stop

/-- The byte of a blank or the bytes of a mark that opens a comment stand at an offset. -/
def StartsTrivium (text : List Char) (offset : Nat) : Prop :=
  (∃ c ∈ blanks, IsAt text offset c)
    ∨ IsAt text offset '/' ∧ (IsAt text (offset + 1) '/' ∨ IsAt text (offset + 1) '*')

theorem StartsTrivium.isBoundary {text : List Char} {offset : Nat}
    (h : StartsTrivium text offset) :
  IsBoundary text offset
  := by
  rcases h with ⟨c, blank, here⟩ | ⟨here, -⟩
  · apply here.isBoundary (ascii_of_mem_blanks c blank)
  · apply here.isBoundary (by decide)

theorem turn_of_not_startsTrivium {text : List Char} {offset : Nat}
    (h : ¬ StartsTrivium text offset) :
  turn text offset = .stop
  := by
  rw [StartsTrivium, not_or, not_and_or, not_or] at h
  obtain ⟨solid, uncommented⟩ := h
  rw [turn, if_neg solid, if_neg, if_neg]
  · rintro ⟨slash, star⟩
    rcases uncommented with other | ⟨-, other⟩
    · apply other slash
    · apply other star
  · rintro ⟨slash, slash'⟩
    rcases uncommented with other | ⟨other, -⟩
    · apply other slash
    · apply other slash'

variable {above text token : List Char}

theorem isAt_blank_iff :
  (∃ c ∈ blanks, IsAt (above ++ text) (byteLength above) c)
    ↔ ∃ c ∈ text.head?, isBlank c = true
  := by
  constructor
  · rintro ⟨c, blank, here⟩
    use c, (isAt_append_iff (ascii_of_mem_blanks c blank)).1 here, mem_blanks_iff.1 blank
  · rintro ⟨c, head, blank⟩
    have member := mem_blanks_iff.2 blank
    use c, member, (isAt_append_iff (ascii_of_mem_blanks c member)).2 head

/-- The bytes of a mark that opens a comment stand where the mark does. -/
theorem isAt_mark_iff {c : Char} (ascii : c.toNat < 0x80) :
  (IsAt (above ++ text) (byteLength above) '/' ∧ IsAt (above ++ text) (byteLength above + 1) c)
    ↔ ['/', c] <+: text
  := by
  have second (rest : List Char) :
      IsAt (above ++ '/' :: rest) (byteLength above + 1) c ↔ rest.head? = some c := by
    have split : above ++ '/' :: rest = (above ++ ['/']) ++ rest := by simp
    have bytes : byteLength above + 1 = byteLength (above ++ ['/']) := by
      rw [byteLength_append]
      rfl
    rw [split, bytes, isAt_append_iff ascii]
  rw [isAt_append_iff (by decide)]
  constructor
  · rintro ⟨slash, next⟩
    obtain ⟨rest, rfl⟩ := List.head?_eq_some_iff.1 slash
    obtain ⟨rest, rfl⟩ := List.head?_eq_some_iff.1 ((second rest).1 next)
    exact ⟨rest, rfl⟩
  · rintro ⟨rest, rfl⟩
    use rfl
    apply (second _).2 rfl

theorem startsTrivium_iff :
  StartsTrivium (above ++ text) (byteLength above)
    ↔ (∃ c ∈ text.head?, isBlank c = true) ∨ OpensComment text
  := by
  rw [StartsTrivium, isAt_blank_iff, and_or_left, isAt_mark_iff (by decide),
    isAt_mark_iff (by decide), OpensComment]

theorem Solid.not_startsTrivium (solid : Solid token) :
  ¬ StartsTrivium (above ++ token) (byteLength above)
  := by
  rw [startsTrivium_iff]
  rintro (⟨c, head, blank⟩ | opens)
  · rw [solid.unblank c head] at blank
    cases blank
  · apply solid.uncommented opens

theorem dropBytes?_append (above rest : List Char) :
  dropBytes? (byteLength above) (above ++ rest) = some rest
  := (dropBytes?_eq_some_iff _ _ _).2 ⟨above, rfl, rfl⟩

theorem turn_blank {c : Char} (blank : isBlank c = true) (rest : List Char) :
  turn (above ++ c :: rest) (byteLength above) = .jump (byteLength above + 1)
  := by
  rw [turn, if_pos (isAt_blank_iff.2 ⟨c, rfl, blank⟩)]

theorem not_isAt_blank {cs : List Char} :
  ¬ ∃ c ∈ blanks, IsAt (above ++ '/' :: cs) (byteLength above) c
  := by
  rw [isAt_blank_iff]
  rintro ⟨_, ⟨⟩, blank⟩
  cases blank

/-- At a line comment the text is searched for a line feed. -/
theorem turn_line (cs : List Char) :
  turn (above ++ '/' :: '/' :: cs) (byteLength above)
    = .jump ((find? ['\n'] ('/' :: '/' :: cs)).elim (byteLength (above ++ '/' :: '/' :: cs))
      (byteLength above + ·))
  := by
  have marked : IsAt (above ++ '/' :: '/' :: cs) (byteLength above) '/'
      ∧ IsAt (above ++ '/' :: '/' :: cs) (byteLength above + 1) '/' :=
    (isAt_mark_iff (by decide)).2 ⟨cs, rfl⟩
  rw [turn, if_neg not_isAt_blank, if_pos marked, dropBytes?_append]

/-- At a block comment the text is searched for the closing mark, from after the opening one. -/
theorem turn_block (cs : List Char) :
  turn (above ++ '/' :: '*' :: cs) (byteLength above)
    = .jump ((find? ['*', '/'] cs).elim (byteLength (above ++ '/' :: '*' :: cs))
      (byteLength above + 2 + · + 2))
  := by
  have other : ¬ ['/', '/'] <+: '/' :: '*' :: cs := by simp
  have marked : IsAt (above ++ '/' :: '*' :: cs) (byteLength above) '/'
      ∧ IsAt (above ++ '/' :: '*' :: cs) (byteLength above + 1) '*' :=
    (isAt_mark_iff (by decide)).2 ⟨cs, rfl⟩
  have cut : dropBytes? (byteLength above + 2) (above ++ '/' :: '*' :: cs) = some cs := by
    have opened := dropBytes?_append (above ++ ['/', '*']) cs
    rwa [byteLength_append, List.append_assoc] at opened
  rw [turn, if_neg not_isAt_blank, if_neg (mt (isAt_mark_iff (by decide)).1 other),
    if_pos marked, cut]

theorem find?_line {body rest : List Char} (inline : '\n' ∉ body)
    (ends : ∀ c ∈ rest.head?, c = '\n') :
  (find? ['\n'] (body ++ rest)).elim (byteLength (above ++ (body ++ rest))) (byteLength above + ·)
    = byteLength (above ++ body)
  := by
  cases rest with
  | nil =>
    rw [List.append_nil, find?_eq_none, Option.elim_none]
    intro inside
    apply inline (inside.subset List.mem_cons_self)
  | cons c rest =>
    obtain rfl := ends c rfl
    have leads : ['\n'] <+: '\n' :: rest := ⟨rest, rfl⟩
    rw [find?_append (List.cons_ne_nil _ _) leads, Option.elim_some, byteLength_append]
    rintro before after rfl nonempty early
    obtain ⟨d, after, rfl⟩ := List.exists_cons_of_ne_nil nonempty
    rw [List.cons_append, List.cons_prefix_cons] at early
    apply inline
    rw [early.1]
    simp

theorem find?_block {body : List Char} (inside : ¬ ['*', '/'] <:+: body) (rest : List Char) :
  find? ['*', '/'] (body ++ '*' :: '/' :: rest) = some (byteLength body)
  := by
  apply find?_append (List.cons_ne_nil _ _) ⟨rest, rfl⟩
  rintro before after rfl nonempty ⟨more, early⟩
  obtain ⟨d, after, rfl⟩ := List.exists_cons_of_ne_nil nonempty
  have later : ¬ ['*', '/'] <:+: d :: after :=
    fun early => inside (early.trans (List.suffix_append before _).isInfix)
  apply cons_append_ne later rest more early.symm

/-- At a comment the scanner goes on after it, without cutting a character. -/
theorem turn_comment {comment rest : List Char} (h : IsComment comment rest) :
  turn (above ++ (comment ++ rest)) (byteLength above) = .jump (byteLength (above ++ comment))
  := by
  cases h with
  | @line body rest inline ends =>
    have inline' : '\n' ∉ '/' :: '/' :: body := by simpa using inline
    have found := @find?_line above _ _ inline' ends
    rw [List.cons_append, List.cons_append] at found ⊢
    rw [turn_line, found]
  | @block body inside rest =>
    have split : '/' :: '*' :: (body ++ ['*', '/']) ++ rest
        = '/' :: '*' :: (body ++ '*' :: '/' :: rest) := by simp
    rw [split, turn_block, find?_block inside, Option.elim_some]
    have mark : byteLength ['*', '/'] = 2 ∧ byteLength ['/', '*'] = 2 := ⟨rfl, rfl⟩
    have comment : '/' :: '*' :: (body ++ ['*', '/']) = ['/', '*'] ++ (body ++ ['*', '/']) := rfl
    simp only [comment, byteLength_append, mark, Nat.add_assoc]
  | @unclosed body inside =>
    rw [List.append_nil, turn_block, find?_eq_none inside, Option.elim_none]

/-- At a blank or a comment the scanner goes on after it, without cutting a character. -/
theorem turn_trivium {first rest : List Char} (h : IsTrivium first rest) :
  turn (above ++ (first ++ rest)) (byteLength above) = .jump (byteLength (above ++ first))
  := by
  cases h with
  | @blank c blank rest =>
    have single : byteLength [c] = 1 := byteLength_of_mem_blanks c (mem_blanks_iff.2 blank)
    rw [List.singleton_append, turn_blank blank, byteLength_append, single]
  | comment h => apply turn_comment h

/-! ### Runs -/

/-- From an offset the scanner comes to another one, where it is done.  A run has finitely many turns,
and it does not go on where a character would be cut. -/
inductive Runs (text : List Char) : Nat → Nat → Prop
  | stop {offset : Nat} (h : turn text offset = .stop) : Runs text offset offset
  | jump {offset next stop : Nat} (h : turn text offset = .jump next)
      (later : Runs text next stop) : Runs text offset stop

/-- The scanner passes over the blanks and comments before a token, and is done at the token. -/
theorem Skips.runs {parts : List (List Char)} (h : Skips text parts token) (above : List Char) :
  Runs (above ++ text) (byteLength above) (byteLength (above ++ parts.flatten))
  := by
  obtain ⟨cut, solid⟩ := h
  induction cut generalizing above with
  | last =>
    rw [List.flatten_nil, List.append_nil]
    apply Runs.stop (turn_of_not_startsTrivium solid.not_startsTrivium)
  | @part first rest _ parts trivium _ ih =>
    have later := ih (above ++ first) solid
    rw [List.append_assoc, List.append_assoc] at later
    apply Runs.jump (turn_trivium trivium) later

/-- An offset inside a character is left alone. -/
theorem runs_inside {offset : Nat} (inside : ¬ IsBoundary text offset) :
  Runs text offset offset
  := .stop (turn_of_not_startsTrivium (mt StartsTrivium.isBoundary inside))

/-- The bytes from an offset up to another one are blanks and comments, after which neither comes
next, and the scanner comes from the one to the other. -/
structure SkipsTo (text : List Char) (offset stop : Nat) : Prop where
  runs : Runs text offset stop
  le : offset ≤ stop
  le_size : stop ≤ byteLength text
  parts : (∃ above parts token, text = above ++ (parts.flatten ++ token)
      ∧ Skips (parts.flatten ++ token) parts token
      ∧ byteLength above = offset ∧ byteLength (above ++ parts.flatten) = stop)
    ∨ ¬ IsBoundary text offset ∧ stop = offset
  solid : ¬ StartsTrivium text stop
  settled : skipTrivia text stop = stop

theorem skipTrivia_of_not_startsTrivium {offset : Nat} (h : ¬ StartsTrivium text offset) :
  skipTrivia text offset = offset
  := by
  cases cut : dropBytes? offset text with
  | none => rw [skipTrivia, cut]
  | some rest =>
    obtain ⟨above, rfl, rfl⟩ := (dropBytes?_eq_some_iff _ _ _).1 cut
    rw [startsTrivium_iff, not_or] at h
    have unblank : ∀ c ∈ rest.head?, isBlank c = false := by
      intro c head
      by_contra blank
      apply h.1 ⟨c, head, by simpa using blank⟩
    have skips : Skips rest [] rest := ⟨.last rest, unblank, h.2⟩
    rw [skips.skipTrivia, List.flatten_nil, List.append_nil]

theorem skipsTo_skipTrivia {offset : Nat} (within : offset ≤ byteLength text) :
  SkipsTo text offset (skipTrivia text offset)
  := by
  by_cases boundary : IsBoundary text offset
  · obtain ⟨above, rest, rfl, rfl⟩ := boundary
    obtain ⟨parts, token, skips⟩ := exists_skips rest
    have split := skips.cut.split
    have solid : ¬ StartsTrivium (above ++ rest) (byteLength (above ++ parts.flatten)) := by
      rw [split, ← List.append_assoc]
      apply skips.solid.not_startsTrivium
    rw [skips.skipTrivia]
    refine ⟨skips.runs above, ?_, ?_, .inl ⟨above, parts, token, ?_, ?_, rfl, rfl⟩, solid,
      skipTrivia_of_not_startsTrivium solid⟩
    · rw [byteLength_append]
      apply Nat.le_add_right
    · rw [split, ← List.append_assoc, byteLength_append (above ++ parts.flatten)]
      apply Nat.le_add_right
    · rw [← split]
    · rwa [← split]
  · have solid : ¬ StartsTrivium text offset := mt StartsTrivium.isBoundary boundary
    have same := skipTrivia_of_not_startsTrivium solid
    rw [same]
    exact ⟨runs_inside boundary, Nat.le_refl _, within, .inr ⟨boundary, rfl⟩, solid, same⟩

end TypeAssertions.Syntax

namespace TypeAssertions.SourceFile

open Syntax Text

variable {f : SourceFile} {i : NodeIndex}

/-- A node has a span when its bytes are in the text. -/
theorem span?_eq_some_iff {span : Span} :
  f.span? i = some span ↔ ∃ node, f.arena.get? i = some node
    ∧ (node.start ≤ node.stop ∧ node.stop.toNat ≤ f.size)
    ∧ span = ⟨f.id, .ofNat (min (skipTrivia f.text.toList node.start.toNat) node.stop.toNat),
      node.stop⟩
  := by
  have good_iff (node : Node) : ¬ (node.stop < node.start ∨ f.size < node.stop.toNat)
      ↔ node.start ≤ node.stop ∧ node.stop.toNat ≤ f.size := by
    rw [not_or, UInt32.not_lt, Nat.not_lt]
  rw [span?]
  cases found : f.arena.get? i with
  | none => simp
  | some node =>
    simp only [Option.some.injEq, exists_eq_left', ← good_iff]
    split
    case isTrue bad => simp [bad]
    case isFalse good => simp [good, eq_comm]

/-- The span of a node starts at its first token, or where the node ends. -/
theorem toNat_start_of_span? {span : Span} {node : Node} (h : f.span? i = some span)
    (found : f.arena.get? i = some node) :
  span.stop = node.stop
    ∧ span.start.toNat = min (skipTrivia f.text.toList node.start.toNat) node.stop.toNat
  := by
  obtain ⟨_, found', -, rfl⟩ := span?_eq_some_iff.1 h
  obtain rfl := Option.some.inj (found.symm.trans found')
  use rfl
  apply UInt32.toNat_ofNat_of_lt'
  apply Nat.lt_of_le_of_lt (Nat.min_le_right _ _) node.stop.toNat_lt

/-- From every offset of a text, between characters or inside one, the scanner skips blanks and
comments, each up to where it ends, and no more; skipped once, they are not skipped again.  Spans are
those of the nodes whose bytes are in the text, and start between the start and the end of the
node. -/
theorem trivia_skipped (f : SourceFile) :
  (∀ offset ≤ f.size, SkipsTo f.text.toList offset (skipTrivia f.text.toList offset))
    ∧ ∀ i, ((f.span? i).isSome = true ↔ ∃ node, f.arena.get? i = some node
        ∧ node.start ≤ node.stop ∧ node.stop.toNat ≤ f.size)
      ∧ ∀ span node, f.span? i = some span → f.arena.get? i = some node →
        node.start ≤ span.start ∧ span.start ≤ span.stop ∧ span.stop = node.stop
          ∧ span.start.toNat = min (skipTrivia f.text.toList node.start.toNat) node.stop.toNat
  := by
  refine ⟨fun _ => skipsTo_skipTrivia, fun i => ⟨?_, ?_⟩⟩
  · simp only [Option.isSome_iff_exists, span?_eq_some_iff]
    constructor
    · rintro ⟨_, node, found, good, -⟩
      use node, found
    · rintro ⟨node, found, good⟩
      exact ⟨_, node, found, good, rfl⟩
  · intro span node spanned found
    obtain ⟨same, start⟩ := toNat_start_of_span? spanned found
    obtain ⟨_, found', ⟨order, within⟩, -⟩ := span?_eq_some_iff.1 spanned
    obtain rfl := Option.some.inj (found.symm.trans found')
    rw [UInt32.le_iff_toNat_le] at order
    have further := (skipsTo_skipTrivia (Nat.le_trans order within)).le
    refine ⟨?_, ?_, same, start⟩
    · rw [UInt32.le_iff_toNat_le, start]
      apply Nat.le_min.2 ⟨further, order⟩
    · rw [same, UInt32.le_iff_toNat_le, start]
      apply Nat.min_le_right

/-- A file with marks that overlap, after a character of two bytes. -/
def overlappingMarks : SourceFile where
  id := ⟨0⟩
  name := "a.ts"
  text := "é //*\n/*/ */\tf"
  arena := ⟨[⟨.sourceFile, 2, 14, []⟩, ⟨.callExpression, 2, 8, []⟩]⟩
  root := ⟨0⟩

/-- Nothing is skipped from inside a character.  From after it a line comment is skipped that has the
mark of a block comment in it, and a block comment whose opening mark has a slash after it; and the
node that ends in this comment has an empty span. -/
theorem trivia_skipped_overlapping :
  (1 ≤ overlappingMarks.size ∧ SkipsTo overlappingMarks.text.toList 1 1)
    ∧ (2 ≤ overlappingMarks.size ∧ SkipsTo overlappingMarks.text.toList 2 14)
    ∧ overlappingMarks.span? ⟨1⟩ = some ⟨⟨0⟩, 8, 8⟩
    ∧ overlappingMarks.arena.get? ⟨1⟩ = some ⟨.callExpression, 2, 8, []⟩
    ∧ (2 : UInt32) ≤ 8 ∧ (8 : UInt32) ≤ 8
  := by
  obtain ⟨skipped, spans⟩ := trivia_skipped overlappingMarks
  have within : 1 ≤ overlappingMarks.size := by decide +kernel
  have within' : 2 ≤ overlappingMarks.size := by decide +kernel
  have inside : skipTrivia overlappingMarks.text.toList 1 = 1 := by cbv
  have after : skipTrivia overlappingMarks.text.toList 2 = 14 := by cbv
  have spanned : overlappingMarks.span? ⟨1⟩ = some ⟨⟨0⟩, 8, 8⟩ := by cbv
  have found : overlappingMarks.arena.get? ⟨1⟩ = some ⟨.callExpression, 2, 8, []⟩ := by cbv
  have first := skipped 1 within
  have second := skipped 2 within'
  rw [inside] at first
  rw [after] at second
  obtain ⟨start, order, -⟩ := (spans ⟨1⟩).2 _ _ spanned found
  exact ⟨⟨within, first⟩, ⟨within', second⟩, spanned, found, start, order⟩

end TypeAssertions.SourceFile
