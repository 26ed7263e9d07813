/-!
# Byte offsets in a text

Spans and diagnostics address a text by bytes of its UTF-8 form, while the text itself is a
list of characters.  `byteLength` measures a text, `dropBytes?` and `takeBytes?` cut it at a
byte offset, and fail when the offset does not stand between two characters, and `slice?`
is the part between two offsets.  `units16` counts the UTF-16 units in which columns are
reported.
-/

namespace TypeAssertions.Text

/-- The number of bytes of the UTF-8 form of a text. -/
def byteLength : List Char → Nat
  | [] => 0
  | c :: cs => c.utf8Size + byteLength cs

@[simp]
theorem byteLength_append (cs ds : List Char) :
  byteLength (cs ++ ds) = byteLength cs + byteLength ds
  := by
  induction cs with
  | nil => simp [byteLength]
  | cons c cs ih => simp [byteLength, ih, Nat.add_assoc]

/-- The text after its first `n` bytes, when they end where a character does. -/
def dropBytes? : Nat → List Char → Option (List Char)
  | 0, cs => some cs
  | _ + 1, [] => none
  | n + 1, c :: cs => if c.utf8Size ≤ n + 1 then dropBytes? (n + 1 - c.utf8Size) cs else none

/-- The first `n` bytes of the text, when they end where a character does. -/
def takeBytes? : Nat → List Char → Option (List Char)
  | 0, _ => some []
  | _ + 1, [] => none
  | n + 1, c :: cs =>
    if c.utf8Size ≤ n + 1 then (takeBytes? (n + 1 - c.utf8Size) cs).map (c :: ·) else none

@[simp]
theorem dropBytes?_zero (cs : List Char) :
  dropBytes? 0 cs = some cs
  := by
  cases cs <;> rfl

/-- The part of the text from byte `start` up to byte `stop`, when both stand between
characters and in this order. -/
def slice? (start stop : Nat) (cs : List Char) : Option (List Char) :=
  if start ≤ stop then (dropBytes? start cs).bind (takeBytes? (stop - start)) else none

/-- A cut after `n` bytes leaves exactly the rest of the text. -/
theorem dropBytes?_eq_some_iff (n : Nat) (cs ds : List Char) :
  dropBytes? n cs = some ds ↔ ∃ before, cs = before ++ ds ∧ byteLength before = n
  := by
  induction cs generalizing n with
  | nil =>
    cases n with
    | zero =>
      simp only [dropBytes?_zero, Option.some.injEq]
      constructor
      · rintro rfl
        exact ⟨[], rfl, rfl⟩
      · rintro ⟨before, h, -⟩
        exact (List.append_eq_nil_iff.1 h.symm).2.symm
    | succ n =>
      simp only [dropBytes?, reduceCtorEq, false_iff, not_exists, not_and]
      rintro before h
      rw [(List.append_eq_nil_iff.1 h.symm).1]
      simp [byteLength]
  | cons c cs ih =>
    have positive := c.utf8Size_pos
    cases n with
    | zero =>
      simp only [dropBytes?_zero, Option.some.injEq]
      constructor
      · rintro rfl
        exact ⟨[], rfl, rfl⟩
      · rintro ⟨before, h, length⟩
        cases before with
        | nil => exact h
        | cons d before =>
          have := d.utf8Size_pos
          simp only [byteLength] at length
          omega
    | succ n =>
      simp only [dropBytes?]
      split
      case isTrue fits =>
        rw [ih]
        constructor
        · rintro ⟨before, rfl, length⟩
          refine ⟨c :: before, rfl, ?_⟩
          simp only [byteLength]
          omega
        · rintro ⟨before, h, length⟩
          cases before with
          | nil => simp [byteLength] at length
          | cons d before =>
            obtain ⟨rfl, rfl⟩ := List.cons.inj h
            refine ⟨before, rfl, ?_⟩
            simp only [byteLength] at length
            omega
      case isFalse long =>
        simp only [reduceCtorEq, false_iff, not_exists, not_and]
        rintro before h length
        cases before with
        | nil => simp [byteLength] at length
        | cons d before =>
          obtain ⟨rfl, rfl⟩ := List.cons.inj h
          simp only [byteLength] at length
          omega

/-- The number of UTF-16 units of a text: two for a character beyond the basic plane. -/
def units16 : List Char → Nat
  | [] => 0
  | c :: cs => (if c.val < 0x10000 then 1 else 2) + units16 cs

end TypeAssertions.Text
