import Mathlib.Tactic.Use
import TypeAssertions.Json.Printer
import TypeAssertions.Json.Token

/-!
# Spellings of values

A value is written as a list of lexemes, marks and scalars, with spaces between them or not.  Both
forms in which values are written, without spaces and spread over lines, are such spellings
(`compactChars_eq`, `spaced_prettyChars`).
-/

namespace TypeAssertions.Json

/-! ### Lexemes -/

/-- A mark or a scalar. -/
inductive Lexeme where
  | mark (c : Char)
  | scalar (s : Scalar)

/-- A scalar as it is written. -/
def Scalar.text : Scalar → List Char
  | .null => "null".toList
  | .bool true => "true".toList
  | .bool false => "false".toList
  | .number n => n.text
  | .string s => stringText s

/-- A lexeme as it is written. -/
def Lexeme.text : Lexeme → List Char
  | .mark c => [c]
  | .scalar s => s.text

namespace Value

mutual

/-- The lexemes of a value. -/
def lexemes : Value → List Lexeme
  | .null => [.scalar .null]
  | .bool b => [.scalar (.bool b)]
  | .number n => [.scalar (.number n)]
  | .string s => [.scalar (.string s)]
  | .array [] => [.mark '[', .mark ']']
  | .array (v :: vs) => .mark '[' :: lexemes v ++ itemLexemes vs ++ [.mark ']']
  | .object [] => [.mark '\x7b', .mark '\x7d']
  | .object ((k, v) :: ms) =>
    .mark '\x7b' :: .scalar (.string k) :: .mark ':' :: lexemes v ++ memberLexemes ms
      ++ [.mark '\x7d']

/-- The lexemes of elements that follow another one. -/
def itemLexemes : List Value → List Lexeme
  | [] => []
  | v :: vs => .mark ',' :: lexemes v ++ itemLexemes vs

/-- The lexemes of members that follow another one. -/
def memberLexemes : List (String × Value) → List Lexeme
  | [] => []
  | (k, v) :: ms =>
    .mark ',' :: .scalar (.string k) :: .mark ':' :: lexemes v ++ memberLexemes ms

end

mutual

/-- Without spaces, a value is written as its lexemes. -/
theorem compactChars_eq (v : Value) :
  v.compactChars = v.lexemes.flatMap Lexeme.text
  := by
  match v with
  | .null => rfl
  | .bool true => rfl
  | .bool false => rfl
  | .number n => simp [compactChars, lexemes, Lexeme.text, Scalar.text]
  | .string s => simp [compactChars, lexemes, Lexeme.text, Scalar.text]
  | .array [] => rfl
  | .array (v :: vs) =>
    simp [compactChars, lexemes, Lexeme.text, compactChars_eq v, compactItems_eq vs]
  | .object [] => rfl
  | .object ((k, v) :: ms) =>
    simp [compactChars, lexemes, Lexeme.text, Scalar.text, compactChars_eq v,
      compactMembers_eq ms]

theorem compactItems_eq (vs : List Value) :
  compactItems vs = (itemLexemes vs).flatMap Lexeme.text
  := by
  match vs with
  | [] => rfl
  | v :: vs =>
    simp [compactItems, itemLexemes, Lexeme.text, compactChars_eq v, compactItems_eq vs]

theorem compactMembers_eq (ms : List (String × Value)) :
  compactMembers ms = (memberLexemes ms).flatMap Lexeme.text
  := by
  match ms with
  | [] => rfl
  | (k, v) :: ms =>
    simp [compactMembers, memberLexemes, Lexeme.text, Scalar.text, compactChars_eq v,
      compactMembers_eq ms]

end

end Value

/-- A text writes lexemes, with spaces anywhere between them, before them and after them. -/
inductive Spaced : List Lexeme → List Char → Prop
  | done {spaces : List Char} (blank : ∀ c ∈ spaces, isSpace c = true) :
      Spaced [] spaces
  | next {spaces : List Char} {l : Lexeme} {ls : List Lexeme} {text : List Char}
      (blank : ∀ c ∈ spaces, isSpace c = true) (rest : Spaced ls text) :
      Spaced (l :: ls) (spaces ++ (l.text ++ text))

theorem spaced_flatMap (ls : List Lexeme) :
  Spaced ls (ls.flatMap Lexeme.text)
  := by
  induction ls with
  | nil =>
    apply Spaced.done
    intro c member
    cases member
  | cons l ls ih =>
    have spaced : Spaced (l :: ls) ([] ++ (l.text ++ ls.flatMap Lexeme.text)) :=
      .next (by simp) ih
    simpa using spaced

theorem Spaced.after {ls : List Lexeme} {text : List Char} (spaced : Spaced ls text)
    {spaces : List Char} (blank : ∀ c ∈ spaces, isSpace c = true) :
  Spaced ls (spaces ++ text)
  := by
  cases spaced with
  | done blank' =>
    apply Spaced.done
    rw [List.forall_mem_append]
    exact ⟨blank, blank'⟩
  | next blank' rest =>
    rw [← List.append_assoc]
    apply Spaced.next _ rest
    rw [List.forall_mem_append]
    exact ⟨blank, blank'⟩

theorem Spaced.append {ls ls' : List Lexeme} {text text' : List Char} (spaced : Spaced ls text)
    (spaced' : Spaced ls' text') :
  Spaced (ls ++ ls') (text ++ text')
  := by
  induction spaced with
  | done blank => apply spaced'.after blank
  | next blank rest ih =>
    rw [List.append_assoc, List.append_assoc]
    apply Spaced.next blank ih

/-! ### Values spread over lines -/

theorem Spaced.onNewLine {ls : List Lexeme} {text : List Char} (spaced : Spaced ls text)
    (level : Nat) :
  Spaced ls (Value.newLine level ++ text)
  := by
  apply spaced.after
  intro c member
  simp only [Value.newLine, List.mem_cons, List.mem_replicate] at member
  rcases member with rfl | ⟨-, rfl⟩ <;> rfl

/-- A name, and the value of the member after a space. -/
theorem Spaced.named {ls : List Lexeme} {text : List Char} (spaced : Spaced ls text)
    (k : String) :
  Spaced (.scalar (.string k) :: .mark ':' :: ls) (stringText k ++ ':' :: ' ' :: text)
  := by
  have space : Spaced ls ([' '] ++ text) := spaced.after (by simp [isSpace])
  simpa [Lexeme.text, Scalar.text]
    using (spaced_flatMap [.scalar (.string k), .mark ':']).append space

namespace Value

mutual

/-- Spread over lines, a value is written with spaces. -/
theorem spaced_prettyChars (level : Nat) (v : Value) :
  Spaced v.lexemes (v.prettyChars level)
  := by
  match v with
  | .null => apply spaced_flatMap [.scalar .null]
  | .bool true => apply spaced_flatMap [.scalar (.bool true)]
  | .bool false => apply spaced_flatMap [.scalar (.bool false)]
  | .number n =>
    have spaced := spaced_flatMap [.scalar (.number n)]
    simpa [lexemes, prettyChars, Lexeme.text, Scalar.text] using spaced
  | .string s =>
    have spaced := spaced_flatMap [.scalar (.string s)]
    simpa [lexemes, prettyChars, Lexeme.text, Scalar.text] using spaced
  | .array [] => apply spaced_flatMap [.mark '[', .mark ']']
  | .array (v :: vs) =>
    have first := (spaced_prettyChars (level + 1) v).onNewLine (level + 1)
    have items := first.append (spaced_prettyItems (level + 1) vs)
    have stop := (spaced_flatMap [.mark ']']).onNewLine level
    simpa [lexemes, prettyChars, Lexeme.text]
      using (spaced_flatMap [.mark '[']).append (items.append stop)
  | .object [] => apply spaced_flatMap [.mark '\x7b', .mark '\x7d']
  | .object ((k, v) :: ms) =>
    have first := ((spaced_prettyChars (level + 1) v).named k).onNewLine (level + 1)
    have members := first.append (spaced_prettyMembers (level + 1) ms)
    have stop := (spaced_flatMap [.mark '\x7d']).onNewLine level
    simpa [lexemes, prettyChars, Lexeme.text]
      using (spaced_flatMap [.mark '\x7b']).append (members.append stop)

theorem spaced_prettyItems (level : Nat) (vs : List Value) :
  Spaced (itemLexemes vs) (prettyItems level vs)
  := by
  match vs with
  | [] => apply spaced_flatMap []
  | v :: vs =>
    have first := (spaced_prettyChars level v).onNewLine level
    have items := first.append (spaced_prettyItems level vs)
    simpa [itemLexemes, prettyItems, Lexeme.text] using (spaced_flatMap [.mark ',']).append items

theorem spaced_prettyMembers (level : Nat) (ms : List (String × Value)) :
  Spaced (memberLexemes ms) (prettyMembers level ms)
  := by
  match ms with
  | [] => apply spaced_flatMap []
  | (k, v) :: ms =>
    have first := ((spaced_prettyChars level v).named k).onNewLine level
    have members := first.append (spaced_prettyMembers level ms)
    simpa [memberLexemes, prettyMembers, Lexeme.text]
      using (spaced_flatMap [.mark ',']).append members

end

end Value

end TypeAssertions.Json
