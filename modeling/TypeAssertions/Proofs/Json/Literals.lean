import Mathlib.Tactic.SplitIfs
import Mathlib.Tactic.Use
import TypeAssertions.Json.Printer
import TypeAssertions.Json.Token

/-!
# Literals read back

An integer is read back from its digits, when it fits and no numeral goes on after it
(`readNumber_toDigits`), and a string from its characters with their escapes (`readString_flatMap`).
-/

namespace TypeAssertions.Json

/-! ### Integers -/

/-- The digits of an integer add up to it as long as they fit. -/
theorem foldl_addWhole_toDigits (n : Nat) (fits : n ≤ maxSignificand) :
  (Nat.toDigits 10 n).foldl Significand.addWhole ⟨0, 0, false⟩ = ⟨n, 0, false⟩
  := by
  induction n using Nat.strongRecOn with
  | ind n ih =>
    rw [Nat.toDigits_eq_if (by decide)]
    split
    case isTrue small =>
      have value : digitValue n.digitChar = n := Nat.toNat_digitChar_sub_48_of_lt_ten small
      simp only [List.foldl_cons, List.foldl_nil, Significand.addWhole, value]
      simp [fits]
    case isFalse large =>
      have value : digitValue (n % 10).digitChar = n % 10 :=
        Nat.toNat_digitChar_sub_48_of_lt_ten (Nat.mod_lt n (by decide))
      have whole : n / 10 * 10 + n % 10 = n := by omega
      rw [List.foldl_append, ih (n / 10) (by omega) (by omega), List.foldl_cons, List.foldl_nil,
        Significand.addWhole, value, whole]
      simp [fits]

theorem isDigit_of_mem_toDigits {n : Nat} {c : Char} (member : c ∈ Nat.toDigits 10 n) :
  c.isDigit = true
  := Nat.isDigit_of_mem_toDigits (by decide) (by decide) member

theorem exists_toDigits_eq_cons (n : Nat) :
  ∃ d ds, Nat.toDigits 10 n = d :: ds ∧ d.isDigit = true
  := by
  obtain ⟨d, ds, digits⟩ := List.exists_cons_of_ne_nil (Nat.toDigits_ne_nil (n := n) (b := 10))
  use d, ds, digits
  apply isDigit_of_mem_toDigits (n := n)
  rw [digits]
  apply List.mem_cons_self

theorem head_toDigits_ne_zero {n : Nat} (positive : 0 < n) :
  (Nat.toDigits 10 n).head? ≠ some '0'
  := by
  induction n using Nat.strongRecOn with
  | ind n ih =>
    rw [Nat.toDigits_eq_if (by decide)]
    split
    case isTrue small =>
      intro zero
      have value : n = 0 := by simpa using zero
      omega
    case isFalse large =>
      have above := ih (n / 10) (by omega) (by omega)
      obtain ⟨d, ds, digits, -⟩ := exists_toDigits_eq_cons (n / 10)
      rw [digits] at above ⊢
      apply above

/-- A text does not go on with a numeral. -/
def Stops (cs : List Char) : Prop :=
  ∀ c ∈ cs.head?, c.isDigit = false ∧ c ≠ '.' ∧ c ≠ 'e' ∧ c ≠ 'E'

theorem Stops.takeWhile {cs : List Char} (stops : Stops cs) :
  cs.takeWhile Char.isDigit = []
  := by
  cases cs with
  | nil => rfl
  | cons c cs => simp [(stops c rfl).1]

theorem Stops.dropWhile {cs : List Char} (stops : Stops cs) :
  cs.dropWhile Char.isDigit = cs
  := by
  cases cs with
  | nil => rfl
  | cons c cs => simp [(stops c rfl).1]

theorem Stops.readFraction {cs : List Char} (stops : Stops cs) (negative : Bool) (s : Significand)
    (offset : Nat) :
  readFraction negative s offset cs = wholeNumber negative s offset
  := by
  cases cs with
  | nil => rfl
  | cons c cs =>
    obtain ⟨-, point, lower, upper⟩ := stops c rfl
    rw [Json.readFraction]
    · rintro rest ⟨⟩
      apply point rfl
    · rintro rest ⟨⟩
      apply lower rfl
    · rintro rest ⟨⟩
      apply upper rfl

theorem readUnsigned_toDigits {n : Nat} (fits : n ≤ maxSignificand) {cs : List Char}
    (stops : Stops cs) (offset : Nat) :
  readUnsigned false offset (Nat.toDigits 10 n ++ cs) = .ok (.integer n)
  := by
  have whole : (Nat.toDigits 10 n ++ cs).takeWhile Char.isDigit = Nat.toDigits 10 n := by
    rw [List.takeWhile_append_of_pos (fun c => isDigit_of_mem_toDigits), stops.takeWhile,
      List.append_nil]
  have rest : (Nat.toDigits 10 n ++ cs).dropWhile Char.isDigit = cs := by
    rw [List.dropWhile_append_of_pos (fun c => isDigit_of_mem_toDigits), stops.dropWhile]
  rcases Nat.eq_zero_or_pos n with rfl | positive
  · rw [Nat.toDigits_zero]
    cases cs with
    | nil => rfl
    | cons c cs =>
      simp only [List.cons_append, List.nil_append, readUnsigned, (stops c rfl).1]
      rw [if_neg (by decide), stops.readFraction]
      rfl
  · rw [readUnsigned]
    · simp only [whole, rest, foldl_addWhole_toDigits n fits]
      rw [if_neg (by simp), stops.readFraction]
      rfl
    · rintro tail zero
      apply head_toDigits_ne_zero positive
      obtain ⟨d, ds, digits, -⟩ := exists_toDigits_eq_cons n
      rw [digits, List.cons_append, List.cons.injEq] at zero
      rw [digits, zero.1]
      rfl

/-- An integer is read back from its digits. -/
theorem readNumber_toDigits {n : Nat} (fits : n ≤ maxSignificand) {cs : List Char}
    (stops : Stops cs) (offset : Nat) :
  readNumber offset (Nat.toDigits 10 n ++ cs) = .ok (.integer n)
  := by
  rw [readNumber]
  · apply readUnsigned_toDigits fits stops
  · rintro tail sign
    obtain ⟨d, ds, digits, digit⟩ := exists_toDigits_eq_cons n
    rw [digits, List.cons_append, List.cons.injEq] at sign
    rw [sign.1] at digit
    cases digit

/-! ### Strings -/

/-- A control character has two digits after two zeros. -/
theorem unicodeEscape_ofNat :
  ∀ n < 32, unicodeEscape (Char.ofNat n)
        = ['\\', 'u', '0', '0', (n / 16).digitChar, (n % 16).digitChar]
      ∧ hex4? '0' '0' (n / 16).digitChar (n % 16).digitChar = some n
  := by
  decide

/-- A character is written with a letter after a backslash, with four digits, or as it is. -/
theorem escapeChar_cases (c : Char) :
  (∃ e, escapeChar c = ['\\', e] ∧ e ≠ 'u' ∧ escaped? e = some c)
    ∨ (∃ x y, escapeChar c = ['\\', 'u', '0', '0', x, y] ∧ hex4? '0' '0' x y = some c.toNat
      ∧ c.toNat < 32)
    ∨ (escapeChar c = [c] ∧ c ≠ '"' ∧ c ≠ '\\' ∧ ¬ c.toNat < 32)
  := by
  rw [escapeChar]
  split_ifs with quote backslash backspace feed line carriage tab control
  · exact .inl ⟨'"', rfl, by decide, by rw [quote]; rfl⟩
  · exact .inl ⟨'\\', rfl, by decide, by rw [backslash]; rfl⟩
  · exact .inl ⟨'b', rfl, by decide, by rw [backspace]; rfl⟩
  · exact .inl ⟨'f', rfl, by decide, by rw [feed]; rfl⟩
  · exact .inl ⟨'n', rfl, by decide, by rw [line]; rfl⟩
  · exact .inl ⟨'r', rfl, by decide, by rw [carriage]; rfl⟩
  · exact .inl ⟨'t', rfl, by decide, by rw [tab]; rfl⟩
  · have escape := unicodeEscape_ofNat c.toNat control
    rw [Char.ofNat_toNat] at escape
    exact .inr (.inl ⟨_, _, escape.1, escape.2, control⟩)
  · exact .inr (.inr ⟨rfl, quote, backslash, control⟩)

/-- A character of a string is read back from its written form. -/
theorem readString_escapeChar (c : Char) (cs : List Char) (offset : Nat) :
  ∃ offset', readString offset (escapeChar c ++ cs) = (readString offset' cs).map (c :: ·)
  := by
  rcases escapeChar_cases c with ⟨e, written, letter, meant⟩ | ⟨x, y, written, digits, control⟩
    | ⟨written, quote, backslash, visible⟩
  · use offset + 2
    rw [written]
    simp only [List.cons_append, List.nil_append]
    rw [readString, meant]
    · intro _ _ _ _ _ same
      cases letter same
    · intro same
      cases letter same
  · use offset + 6
    rw [written]
    simp only [List.cons_append, List.nil_append]
    rw [readString, digits]
    -- control characters are no halves of a surrogate pair
    have trail : isTrail c.toNat = false := by
      simp only [isTrail, Bool.and_eq_false_imp, decide_eq_true_eq]
      omega
    have lead : isLead c.toNat = false := by
      simp only [isLead, Bool.and_eq_false_imp, decide_eq_true_eq]
      omega
    simp [trail, lead]
  · use offset + c.utf8Size
    rw [written]
    simp only [List.cons_append, List.nil_append]
    rw [readString]
    · simp [visible]
    · apply quote
    -- the other forms begin with a backslash
    all_goals
      intros
      simp_all

theorem readString_flatMap (cs rest : List Char) (offset : Nat) :
  readString offset (cs.flatMap escapeChar ++ '"' :: rest) = .ok cs
  := by
  induction cs generalizing offset with
  | nil =>
    rw [List.flatMap_nil, List.nil_append, readString]
  | cons c cs ih =>
    rw [List.flatMap_cons, List.append_assoc]
    obtain ⟨offset', read⟩ := readString_escapeChar c (cs.flatMap escapeChar ++ '"' :: rest) offset
    rw [read, ih]
    rfl

end TypeAssertions.Json
