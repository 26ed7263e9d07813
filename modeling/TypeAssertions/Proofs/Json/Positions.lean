import TypeAssertions.Proofs.Json.Acceptance
import TypeAssertions.Proofs.Json.Likeness

/-!
# Documents in other places

The value that a text writes depends on the lexemes of the text, and not on where they stand: every
text with the same lexemes writes it (`exists_accepted_of_readValue`).
-/

namespace TypeAssertions.Json

/-! ### Values -/

/-- The value that a text writes. -/
def readValue (text : List Char) : Except ReadError Value :=
  Decoder.readText Decoder.value text

theorem readValue_eq_ok_iff {text : List Char} {v : Value} :
  readValue text = .ok v ↔ ∃ T, Tree.ofText text = (T, []) ∧ Decoder.value maxDepth T = .ok v
  := by
  unfold readValue Decoder.readText
  obtain ⟨T, rest⟩ := Tree.ofText text
  simp only [Prod.mk.injEq]
  constructor
  · intro read
    split at read
    case h_1 => cases read
    case h_2 a value =>
      obtain rfl := Except.ok.inj read
      exact ⟨T, ⟨rfl, rfl⟩, value⟩
    case h_3 => cases read
  · rintro ⟨_, ⟨rfl, rfl⟩, value⟩
    rw [value]

/-- Tokens of one lexeme are alike. -/
theorem Lexeme.IsToken.like {l : Lexeme} {token token' : Token} (h : l.IsToken token)
    (h' : l.IsToken token') :
  token.Like token'
  := by
  cases h with
  | mark c start =>
    obtain ⟨start', rfl⟩ := isToken_mark_iff.1 h'
    apply Token.Like.mark
  | scalar s start stop =>
    obtain ⟨start', stop', rfl⟩ := isToken_scalar_iff.1 h'
    constructor
    exact ⟨rfl, rfl, rfl⟩

theorem forall₂_like {ls : List Lexeme} {ts ts' : List Token}
    (h : List.Forall₂ Lexeme.IsToken ls ts) (h' : List.Forall₂ Lexeme.IsToken ls ts') :
  List.Forall₂ Token.Like ts ts'
  := by
  induction h generalizing ts' with
  | nil =>
    cases h'
    apply List.Forall₂.nil
  | cons first _ ih =>
    cases h' with
    | cons first' others => apply List.Forall₂.cons (first.like first') (ih others)

/-- A text that writes a value is laid out with its lexemes, and every other text with these
lexemes writes the same value. -/
theorem exists_accepted_of_readValue {text : List Char} {v : Value}
    (read : readValue text = .ok v) :
  ∃ ls, Accepted (tokens text) text ls
    ∧ ∀ text', List.Forall₂ Lexeme.IsToken ls (tokens text') → readValue text' = .ok v
  := by
  obtain ⟨T, whole, value⟩ := readValue_eq_ok_iff.1 read
  have sound := sound_of_value maxDepth T value
  obtain ⟨ls, accepted, -⟩ :=
    exists_accepted (cuts_tokensFrom 0 text) .document whole sound
  use ls, accepted
  intro text' same
  have like := readText_like (d := Decoder.value) value_steady (forall₂_like accepted.tokens same)
  rw [readValue, ← Except.toOption_eq_some_iff, ← like, Except.toOption_eq_some_iff]
  apply read

end TypeAssertions.Json
