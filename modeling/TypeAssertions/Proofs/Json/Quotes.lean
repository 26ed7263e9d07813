import TypeAssertions.Proofs.Except
import TypeAssertions.Proofs.Json.Lexing

/-!
# Quoted strings

Where a string is read, characters stand with a quote after them that ends the string
(`exists_quoted`).  The same string is read, and the same characters are passed over, in every text
in which they stand before a quote.
-/

namespace TypeAssertions.Json

/-- The characters between the quotes of a string: a quote or a backslash stands after a
backslash. -/
inductive Inside : List Char → Prop
  | nil : Inside []
  | plain {c : Char} {cs : List Char} (proper : c ≠ '"' ∧ c ≠ '\\') (rest : Inside cs) :
      Inside (c :: cs)
  | escape {c : Char} {cs : List Char} (rest : Inside cs) : Inside ('\\' :: c :: cs)

theorem inside_of_forall {body : List Char} (all : ∀ c ∈ body, c ≠ '"' ∧ c ≠ '\\') :
  Inside body
  := by
  induction body with
  | nil => apply Inside.nil
  | cons c body ih =>
    rw [List.forall_mem_cons] at all
    apply Inside.plain all.1 (ih all.2)

/-- What stands before a closing quote is read, and passed over, whatever comes after it. -/
structure Quoted (body chars : List Char) : Prop where
  inside : Inside body
  read : ∀ offset rest, readString offset (body ++ '"' :: rest) = .ok chars
  passed : ∀ offset start read rest, ∃ stop,
    tokensFrom offset (.string start read .plain) (body ++ '"' :: rest)
      = stringToken start stop read (.ok ()) :: tokensFrom stop .between rest

namespace Quoted

variable {body chars : List Char}

theorem nil :
  Quoted [] []
  := by
  constructor
  case inside => apply Inside.nil
  case read =>
    intro offset rest
    rw [List.nil_append, readString]
  case passed =>
    intro offset start read rest
    use offset + 1
    rfl

theorem plain (h : Quoted body chars) {c : Char} (proper : c ≠ '"' ∧ c ≠ '\\')
    (visible : ¬ c.toNat < 0x20) :
  Quoted (c :: body) (c :: chars)
  := by
  constructor
  case inside => apply h.inside.plain proper
  case read =>
    intro offset rest
    rw [List.cons_append, readString, if_neg visible, h.read]
    · rfl
    · apply proper.1
    all_goals
      intros
      apply proper.2
      assumption
  case passed =>
    intro offset start read rest
    have step : (Scan.string start read .plain).step offset c (body ++ '"' :: rest)
        = ([], .string start read .plain) := by
      simp [Scan.step, proper, visible]
    rw [List.cons_append, tokensFrom_cons step]
    apply h.passed

theorem escape (h : Quoted body chars) {e c : Char} (letter : e ≠ 'u')
    (meant : escaped? e = some c) :
  Quoted ('\\' :: e :: body) (c :: chars)
  := by
  constructor
  case inside => apply h.inside.escape
  case read =>
    intro offset rest
    rw [List.cons_append, List.cons_append, readString, meant]
    · simp only [h.read]
      rfl
    · intro _ _ _ _ _ same
      cases letter same
    · intro same
      cases letter same
  case passed =>
    intro offset start read rest
    have step : (Scan.string start read .escape).step (offset + '\\'.utf8Size) e
        (body ++ '"' :: rest) = ([], .string start read .plain) := by
      simp [Scan.step, letter, meant]
    have backslash : (Scan.string start read .plain).step offset '\\' (e :: (body ++ '"' :: rest))
        = ([], .string start read .escape) := rfl
    rw [List.cons_append, List.cons_append, tokensFrom_cons backslash, tokensFrom_cons step]
    apply h.passed

end Quoted

theorem proper_of_hexDigit? {c : Char} {n : Nat} (h : hexDigit? c = some n) :
  c ≠ '"' ∧ c ≠ '\\'
  := by
  constructor
  · rintro rfl
    cases h
  · rintro rfl
    cases h

theorem hex4?_eq_some {a b c d : Char} {n : Nat} (h : hex4? a b c d = some n) :
  (∃ n, hexDigit? a = some n) ∧ (∃ n, hexDigit? b = some n) ∧ (∃ n, hexDigit? c = some n)
    ∧ ∃ n, hexDigit? d = some n
  := by
  simp only [hex4?, bind, Option.bind_eq_some_iff] at h
  obtain ⟨_, first, _, second, _, third, _, fourth, -⟩ := h
  exact ⟨⟨_, first⟩, ⟨_, second⟩, ⟨_, third⟩, _, fourth⟩

theorem Inside.hex {a b c d : Char} {cs : List Char} {n : Nat} (h : hex4? a b c d = some n)
    (rest : Inside cs) :
  Inside ('\\' :: 'u' :: a :: b :: c :: d :: cs)
  := by
  obtain ⟨⟨_, first⟩, ⟨_, second⟩, ⟨_, third⟩, _, fourth⟩ := hex4?_eq_some h
  apply Inside.escape
  apply Inside.plain (proper_of_hexDigit? first)
  apply Inside.plain (proper_of_hexDigit? second)
  apply Inside.plain (proper_of_hexDigit? third)
  apply rest.plain (proper_of_hexDigit? fourth)

/-- The scanner passes over four digits. -/
theorem tokensFrom_hex {a b c d : Char} {n : Nat} (h : hex4? a b c d = some n) (offset start : Nat)
    (read : Except Failure (List Char)) (cs : List Char) :
  ∃ offset', tokensFrom offset (.string start read .plain) ('\\' :: 'u' :: a :: b :: c :: d :: cs)
    = tokensFrom offset' (.string start read .plain) cs
  := by
  simp [tokensFrom, Scan.step, h]
  exact ⟨_, rfl⟩

namespace Quoted

variable {body chars : List Char}

theorem unicode (h : Quoted body chars) {a b c d : Char} {n : Nat} (digits : hex4? a b c d = some n)
    (trail : ¬ isTrail n = true) (lead : ¬ isLead n = true) :
  Quoted ('\\' :: 'u' :: a :: b :: c :: d :: body) (Char.ofNat n :: chars)
  := by
  constructor
  case inside => apply h.inside.hex digits
  case read =>
    intro offset rest
    simp only [List.cons_append]
    rw [readString, digits]
    simp only [trail, lead, h.read]
    rfl
  case passed =>
    intro offset start read rest
    simp only [List.cons_append]
    obtain ⟨offset', passed⟩ := tokensFrom_hex digits offset start read (body ++ '"' :: rest)
    rw [passed]
    apply h.passed

theorem pair (h : Quoted body chars) {a b c d e f g i : Char} {n m : Nat}
    (digits : hex4? a b c d = some n) (first : ¬ isTrail n = true) (lead : isLead n = true)
    (digits' : hex4? e f g i = some m) (trail : isTrail m = true) :
  Quoted ('\\' :: 'u' :: a :: b :: c :: d :: '\\' :: 'u' :: e :: f :: g :: i :: body)
    (pairChar n m :: chars)
  := by
  constructor
  case inside => apply (h.inside.hex digits').hex digits
  case read =>
    intro offset rest
    simp only [List.cons_append]
    rw [readString, digits]
    simp only [first, lead, digits', trail, h.read]
    rfl
  case passed =>
    intro offset start read rest
    simp only [List.cons_append]
    obtain ⟨offset', passed⟩ := tokensFrom_hex digits offset start read
      ('\\' :: 'u' :: e :: f :: g :: i :: (body ++ '"' :: rest))
    obtain ⟨offset'', passed'⟩ := tokensFrom_hex digits' offset' start read (body ++ '"' :: rest)
    rw [passed, passed']
    apply h.passed

end Quoted

/-- What is read as a string stands before its closing quote. -/
theorem exists_quoted {offset : Nat} {cs chars : List Char}
    (read : readString offset cs = .ok chars) :
  ∃ body rest, cs = body ++ '"' :: rest ∧ Quoted body chars
  := by
  fun_induction readString offset cs generalizing chars
  -- the other cases are failures
  case case2 =>
    obtain rfl := Except.ok.inj read
    exact ⟨[], _, rfl, .nil⟩
  case case8 digits first lead _ _ _ _ _ _ digits' trail ih =>
    obtain ⟨chars, inner, rfl⟩ := Except.map_eq_ok_iff.1 read
    obtain ⟨body, rest, rfl, quoted⟩ := ih inner
    exact ⟨_, rest, rfl, quoted.pair digits first lead digits' trail⟩
  case case13 digits trail lead ih =>
    obtain ⟨chars, inner, rfl⟩ := Except.map_eq_ok_iff.1 read
    obtain ⟨body, rest, rfl, quoted⟩ := ih inner
    exact ⟨_, rest, rfl, quoted.unicode digits trail lead⟩
  case case16 letter _ meant ih =>
    obtain ⟨chars, inner, rfl⟩ := Except.map_eq_ok_iff.1 read
    obtain ⟨body, rest, rfl, quoted⟩ := ih inner
    exact ⟨_, rest, rfl, quoted.escape letter meant⟩
  case case19 quote _ _ alone backslash visible ih =>
    obtain ⟨chars, inner, rfl⟩ := Except.map_eq_ok_iff.1 read
    obtain ⟨body, rest, rfl, quoted⟩ := ih inner
    refine ⟨_, rest, rfl, quoted.plain ⟨quote, ?_⟩ visible⟩
    intro same
    obtain ⟨e, cs, split⟩ : ∃ e cs, body ++ '"' :: rest = e :: cs :=
      List.exists_cons_of_ne_nil (List.append_ne_nil_of_right_ne_nil body (List.cons_ne_nil _ _))
    apply backslash e cs same split
  all_goals cases read

end TypeAssertions.Json
