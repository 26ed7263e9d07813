import Mathlib.Tactic.Use
import TypeAssertions.Text.Offset

/-!
# Boundaries and slices

A boundary of a text is an offset that does not cut a character.  A slice between two boundaries is
the part of the text between them (`slice?_eq_some_iff`), and nothing else is a slice
(`isSome_slice?_iff`).  Two ways to cut a text in two are told apart by the number of bytes before
the cut.
-/

namespace TypeAssertions.Text

/-! ### Cuts -/

theorem byteLength_eq_zero_iff {cs : List Char} :
  byteLength cs = 0 ↔ cs = []
  := by
  cases cs with
  | nil => simp [byteLength]
  | cons c cs =>
    have := c.utf8Size_pos
    simp only [byteLength, reduceCtorEq, iff_false]
    omega

/-- Of two cuts of a text, the one after fewer bytes comes first. -/
theorem exists_append_of_byteLength_le {a b c d : List Char} (same : a ++ b = c ++ d)
    (fewer : byteLength a ≤ byteLength c) :
  ∃ m, c = a ++ m ∧ b = m ++ d
  := by
  rcases List.append_eq_append_iff.1 same with ⟨m, rfl, rfl⟩ | ⟨m, rfl, rfl⟩
  · use m
  · have none : m = [] := by
      rw [← byteLength_eq_zero_iff]
      rw [byteLength_append] at fewer
      omega
    subst none
    use []
    simp

theorem append_inj_of_byteLength {a b c d : List Char} (same : a ++ b = c ++ d)
    (bytes : byteLength a = byteLength c) :
  a = c ∧ b = d
  := by
  obtain ⟨m, rfl, rfl⟩ := exists_append_of_byteLength_le same (Nat.le_of_eq bytes)
  have none : m = [] := by
    rw [← byteLength_eq_zero_iff]
    rw [byteLength_append] at bytes
    omega
  subst none
  simp

/-! ### Boundaries -/

/-- An offset does not cut a character of a text. -/
def IsBoundary (text : List Char) (offset : Nat) : Prop :=
  ∃ before after, text = before ++ after ∧ byteLength before = offset

theorem isBoundary_iff_isSome {text : List Char} {offset : Nat} :
  IsBoundary text offset ↔ (dropBytes? offset text).isSome = true
  := by
  simp only [Option.isSome_iff_exists, dropBytes?_eq_some_iff]
  rw [exists_comm]
  rfl

instance (text : List Char) (offset : Nat) : Decidable (IsBoundary text offset) :=
  decidable_of_iff _ isBoundary_iff_isSome.symm

theorem IsBoundary.le {text : List Char} {offset : Nat} (h : IsBoundary text offset) :
  offset ≤ byteLength text
  := by
  obtain ⟨before, after, rfl, rfl⟩ := h
  simp

/-! ### Slices -/

/-- The first bytes of a text are the start of it that has as many. -/
theorem takeBytes?_eq_some_iff (n : Nat) (cs ds : List Char) :
  takeBytes? n cs = some ds ↔ ∃ after, cs = ds ++ after ∧ byteLength ds = n
  := by
  fun_induction takeBytes? n cs generalizing ds with
  | case1 cs =>
    rw [Option.some.injEq, eq_comm]
    simp only [byteLength_eq_zero_iff]
    constructor
    · rintro rfl
      use cs
      simp
    · rintro ⟨after, -, none⟩
      apply none
  | case2 n =>
    simp only [reduceCtorEq, false_iff, not_exists, not_and]
    rintro after none
    obtain ⟨rfl, -⟩ := List.append_eq_nil_iff.1 none.symm
    simp [byteLength]
  | case3 n c cs fits ih =>
    simp only [Option.map_eq_some_iff, ih]
    constructor
    · rintro ⟨ds, ⟨after, rfl, bytes⟩, rfl⟩
      use after, rfl
      simp only [byteLength]
      omega
    · rintro ⟨after, same, bytes⟩
      cases ds with
      | nil => simp [byteLength] at bytes
      | cons d ds =>
        obtain ⟨rfl, rfl⟩ := List.cons.inj same
        simp only [byteLength] at bytes
        use ds
        refine ⟨⟨after, rfl, ?_⟩, rfl⟩
        omega
  | case4 n c cs long =>
    simp only [reduceCtorEq, false_iff, not_exists, not_and]
    rintro after same bytes
    cases ds with
    | nil => simp [byteLength] at bytes
    | cons d ds =>
      obtain ⟨rfl, -⟩ := List.cons.inj same
      simp only [byteLength] at bytes
      omega

/-- A slice is what stands between two cuts. -/
theorem slice?_eq_some_iff {start stop : Nat} {cs ds : List Char} :
  slice? start stop cs = some ds
    ↔ ∃ before after, cs = before ++ (ds ++ after) ∧ byteLength before = start
      ∧ byteLength (before ++ ds) = stop
  := by
  rw [slice?]
  split
  case isTrue order =>
    simp only [Option.bind_eq_some_iff, dropBytes?_eq_some_iff, takeBytes?_eq_some_iff]
    constructor
    · rintro ⟨_, ⟨before, rfl, rfl⟩, after, rfl, bytes⟩
      use before, after, rfl, rfl
      rw [byteLength_append]
      omega
    · rintro ⟨before, after, rfl, rfl, bytes⟩
      use ds ++ after, ⟨before, rfl, rfl⟩, after, rfl
      rw [byteLength_append] at bytes
      omega
  case isFalse order =>
    simp only [reduceCtorEq, false_iff]
    rintro ⟨before, after, rfl, rfl, rfl⟩
    rw [byteLength_append] at order
    omega

theorem isSome_slice?_iff {start stop : Nat} {cs : List Char} :
  (slice? start stop cs).isSome = true
    ↔ start ≤ stop ∧ IsBoundary cs start ∧ IsBoundary cs stop
  := by
  simp only [Option.isSome_iff_exists, slice?_eq_some_iff]
  constructor
  · rintro ⟨ds, before, after, rfl, rfl, rfl⟩
    refine ⟨?_, ⟨before, ds ++ after, rfl, rfl⟩, ⟨before ++ ds, after, ?_, rfl⟩⟩
    · rw [byteLength_append]
      omega
    · rw [List.append_assoc]
  · rintro ⟨order, ⟨before, rest, rfl, rfl⟩, ⟨upto, after, same, rfl⟩⟩
    obtain ⟨ds, rfl, rfl⟩ := exists_append_of_byteLength_le same order
    use ds, before, after

/-! ### UTF-16 units -/

@[simp]
theorem units16_append (cs ds : List Char) :
  units16 (cs ++ ds) = units16 cs + units16 ds
  := by
  induction cs with
  | nil => simp [units16]
  | cons c cs ih => simp [units16, ih, Nat.add_assoc]

theorem units16_eq_zero_iff {cs : List Char} :
  units16 cs = 0 ↔ cs = []
  := by
  cases cs with
  | nil => simp [units16]
  | cons c cs =>
    simp only [units16, reduceCtorEq, iff_false]
    split <;> omega

/-- A character has at most as many UTF-16 units as bytes. -/
theorem units16_le_byteLength (cs : List Char) :
  units16 cs ≤ byteLength cs
  := by
  induction cs with
  | nil => apply Nat.le_refl
  | cons c cs ih =>
    simp only [units16, byteLength]
    split
    case isTrue =>
      have := c.utf8Size_pos
      omega
    case isFalse high =>
      have four : c.utf8Size = 4 := by
        rw [Char.utf8Size_eq_four_iff]
        grind
      omega

end TypeAssertions.Text
