import TypeAssertions.Proofs.Text.Comments
import TypeAssertions.Syntax.Trivia

/-!
# Skipped trivia

What stands before a token is a sequence of blanks and comments, up to where neither comes next
(`Skips`).  A scanner drops all of it, and finds the token, when no comment is ended too early: the
scanner that ends line comments at line feeds only does, and one that ends them at carriage returns
as well does where every line comment stops in the line in which it starts (`Skips.dropUntil`).
-/

namespace TypeAssertions.Syntax

open Text

/-! ### Blanks and comments -/

/-- Neither a blank nor a comment comes first. -/
structure Solid (text : List Char) : Prop where
  unblank : ∀ c ∈ text.head?, isBlank c = false
  uncommented : ¬ OpensComment text

/-- A blank or a comment, and what comes after it. -/
inductive IsTrivium : List Char → List Char → Prop
  | blank {c : Char} (blank : isBlank c = true) (rest : List Char) : IsTrivium [c] rest
  | comment {comment rest : List Char} (h : IsComment comment rest) : IsTrivium comment rest

/-- A line comment goes on up to a line feed or the end of the text. -/
theorem IsTrivium.inline {part rest : List Char} (h : IsTrivium part rest)
    (slashes : ['/', '/'] <+: part) :
  '\n' ∉ part ∧ ∀ c ∈ rest.head?, c = '\n'
  := by
  cases h with
  | blank =>
    obtain ⟨_, same⟩ := slashes
    cases (List.cons.inj same).2
  | comment h => apply h.inline slashes

/-- A text is a sequence of blanks and comments, and then a token. -/
structure Skips (text : List Char) (parts : List (List Char)) (token : List Char) : Prop where
  cut : Cut IsTrivium text parts token
  solid : Solid token

theorem exists_skips (text : List Char) :
  ∃ parts token, Skips text parts token
  := by
  have step (text : List Char) :
      Solid text ∨ ∃ first rest, text = first ++ rest ∧ first ≠ [] ∧ IsTrivium first rest := by
    by_cases opens : OpensComment text
    · obtain ⟨comment, rest, rfl, h⟩ := exists_isComment opens
      exact .inr ⟨comment, rest, rfl, h.ne_nil, .comment h⟩
    · cases text with
      | nil => exact .inl ⟨by simp, opens⟩
      | cons c rest =>
        by_cases blank : isBlank c = true
        · exact .inr ⟨[c], rest, rfl, List.cons_ne_nil _ _, .blank blank rest⟩
        · exact .inl ⟨by simpa using blank, opens⟩
  obtain ⟨parts, token, cut, solid⟩ := exists_cut step text
  exact ⟨parts, token, cut, solid⟩

/-! ### Scanners -/

/-- The text without the trivia that it starts with or starts inside, when the characters `ends` end
a line comment. -/
def dropUntil (ends : Char → Bool) : Trivia → List Char → List Char
  | _, [] => []
  | .code, '/' :: '/' :: cs => dropUntil ends .line cs
  | .code, '/' :: '*' :: cs => dropUntil ends .block cs
  | .code, c :: cs => if isBlank c then dropUntil ends .code cs else c :: cs
  | .line, c :: cs => if ends c then dropUntil ends .code cs else dropUntil ends .line cs
  | .block, '*' :: '/' :: cs => dropUntil ends .code cs
  | .block, _ :: cs => dropUntil ends .block cs

/-- Whether a character is a line feed. -/
def isFeed (c : Char) : Bool := c = '\n'

/-- Whether a character may end a line. -/
def isLineEnd (c : Char) : Bool := c = '\n' || c = '\r'

theorem dropUntil_isFeed (state : Trivia) (cs : List Char) :
  dropUntil isFeed state cs = dropTrivia state cs
  := by
  fun_induction dropTrivia state cs <;> simp_all [dropUntil, isFeed]

/-- No character in a part of a text ends a comment, but for a carriage return whose line feed comes
after the part. -/
def Unended (ends : Char → Bool) (part rest : List Char) : Prop :=
  ∀ before c after, part = before ++ c :: after → ends c = true →
    c = '\r' ∧ (after ++ rest).head? = some '\n'

variable {ends : Char → Bool}

theorem dropUntil_line (feed : ends '\n' = true) {body rest : List Char} (inline : '\n' ∉ body)
    (stop : ∀ c ∈ rest.head?, c = '\n') (whole : Unended ends body rest) :
  dropUntil ends .line (body ++ rest) = dropUntil ends .code rest
  := by
  induction body with
  | nil =>
    cases rest with
    | nil => rfl
    | cons c rest =>
      obtain rfl := stop c rfl
      simp [dropUntil, feed, isBlank]
  | cons c body ih =>
    rw [List.mem_cons, not_or] at inline
    by_cases early : ends c = true
    · obtain ⟨rfl, next⟩ := whole [] c body rfl early
      cases body with
      | nil => simp [dropUntil, early]
      | cons d body =>
        obtain rfl := Option.some.inj next
        cases inline.2 List.mem_cons_self
    · rw [List.cons_append, dropUntil, if_neg early]
      apply ih inline.2
      intro before d after same
      apply whole (c :: before) d after
      rw [same, List.cons_append]

theorem dropUntil_block {body : List Char} (inside : ¬ ['*', '/'] <:+: body) (rest : List Char) :
  dropUntil ends .block (body ++ '*' :: '/' :: rest) = dropUntil ends .code rest
  := by
  induction body with
  | nil => rw [List.nil_append, dropUntil]
  | cons c body ih =>
    rw [List.cons_append, dropUntil, ih (mt List.infix_cons inside)]
    intro cs star slash
    apply cons_append_ne inside rest cs
    rw [star, slash]

theorem dropUntil_unclosed {body : List Char} (inside : ¬ ['*', '/'] <:+: body) :
  dropUntil ends .block body = []
  := by
  induction body with
  | nil => rfl
  | cons c body ih =>
    rw [dropUntil, ih (mt List.infix_cons inside)]
    rintro cs rfl rfl
    apply inside ⟨[], cs, rfl⟩

theorem dropUntil_comment (feed : ends '\n' = true) {comment rest : List Char}
    (h : IsComment comment rest) (whole : ['/', '/'] <+: comment → Unended ends comment rest) :
  dropUntil ends .code (comment ++ rest) = dropUntil ends .code rest
  := by
  cases h with
  | @line body rest inline stop =>
    have inner : Unended ends body rest := by
      intro before c after same
      apply whole ⟨body, rfl⟩ ('/' :: '/' :: before) c after
      rw [same]
      rfl
    rw [List.cons_append, List.cons_append, dropUntil, dropUntil_line feed inline stop inner]
  | @block body inside rest =>
    rw [List.cons_append, List.cons_append, dropUntil, List.append_assoc]
    apply dropUntil_block inside
  | @unclosed body inside =>
    have opened : dropUntil ends .code ('/' :: '*' :: body) = dropUntil ends .block body := by
      rw [dropUntil]
    rw [List.append_nil, opened, dropUntil_unclosed inside]
    rfl

theorem dropUntil_blank {c : Char} (blank : isBlank c = true) (rest : List Char) :
  dropUntil ends .code (c :: rest) = dropUntil ends .code rest
  := by
  rw [dropUntil, if_pos blank]
  all_goals
    rintro cs rfl
    cases blank

theorem dropUntil_token {token : List Char} (solid : Solid token) :
  dropUntil ends .code token = token
  := by
  cases token with
  | nil => rfl
  | cons c rest =>
    have unblank : ¬ isBlank c = true := by simpa using solid.unblank c rfl
    rw [dropUntil, if_neg unblank]
    · rintro cs rfl rfl
      apply solid.uncommented (.inl ⟨cs, rfl⟩)
    · rintro cs rfl rfl
      apply solid.uncommented (.inr ⟨cs, rfl⟩)

/-- A scanner finds the token when it ends no line comment before a line feed or the end of the text
does. -/
theorem Skips.dropUntil {text token : List Char} {parts : List (List Char)}
    (h : Skips text parts token) (feed : ends '\n' = true)
    (whole : ∀ before comment after, parts = before ++ comment :: after → ['/', '/'] <+: comment →
      Unended ends comment (after.flatten ++ token)) :
  dropUntil ends .code text = token
  := by
  obtain ⟨cut, solid⟩ := h
  induction cut with
  | last => apply dropUntil_token solid
  | @part first rest token parts trivium later ih =>
    have further : Syntax.dropUntil ends .code rest = token := by
      refine ih ?_ solid
      intro before comment after among
      apply whole (first :: before) comment after
      rw [among, List.cons_append]
    rw [← further]
    cases trivium with
    | blank blank => apply dropUntil_blank blank
    | comment h =>
      apply dropUntil_comment feed h
      have here := whole [] first parts rfl
      rwa [← later.split] at here

/-- The token is what is left of the text when its trivia are dropped. -/
theorem Skips.dropTrivia {text token : List Char} {parts : List (List Char)}
    (h : Skips text parts token) :
  dropTrivia .code text = token
  := by
  rw [← dropUntil_isFeed]
  apply h.dropUntil rfl
  rintro before comment after among slashes inner c rest rfl feed
  -- a line comment has no line feed
  exfalso
  apply ((h.cut.isPart among).inline slashes).1
  rw [of_decide_eq_true feed]
  exact List.mem_append_right _ List.mem_cons_self

/-- A line comment that stops in its line is not ended before its line is. -/
theorem unended_isLineEnd {part rest : List Char} (inline : '\n' ∉ part)
    (whole : ¬ HasLoneReturn part rest) :
  Unended isLineEnd part rest
  := by
  rintro before c after rfl ending
  have other : c ≠ '\n' := by
    rintro rfl
    simp at inline
  have back : c = '\r' := by simpa [isLineEnd, other] using ending
  subst back
  use rfl
  by_contra alone
  apply whole ⟨before, after, rfl, alone⟩

/-! ### Offsets -/

/-- The offset of the first token at or after byte `offset`, when the characters `ends` end a line
comment. -/
def skipUntil (ends : Char → Bool) (text : List Char) (offset : Nat) : Nat :=
  match dropBytes? offset text with
  | some rest => offset + (byteLength rest - byteLength (dropUntil ends .code rest))
  | none => offset

theorem skipUntil_isFeed :
  skipUntil isFeed = skipTrivia
  := by
  funext text offset
  simp only [skipUntil, dropUntil_isFeed]
  rfl

/-- The first token comes after the blanks and comments. -/
theorem Skips.skipTrivia {text token : List Char} {parts : List (List Char)}
    (h : Skips text parts token) (above : List Char) :
  skipTrivia (above ++ text) (byteLength above) = byteLength (above ++ parts.flatten)
  := by
  have cut : dropBytes? (byteLength above) (above ++ text) = some text :=
    (dropBytes?_eq_some_iff _ _ _).2 ⟨above, rfl, rfl⟩
  have length : byteLength text = byteLength parts.flatten + byteLength token := by
    rw [h.cut.split, byteLength_append]
  simp only [Syntax.skipTrivia, cut, h.dropTrivia, byteLength_append, length]
  omega

/-- A line comment is skipped on the way from an offset to the first token. -/
def Meets (text : List Char) (offset : Nat) (before comment after : List Char) : Prop :=
  ∃ above rest parts parts' token, text = above ++ rest ∧ byteLength above = offset
    ∧ Skips rest (parts ++ comment :: parts') token ∧ ['/', '/'] <+: comment
    ∧ before = above ++ parts.flatten ∧ after = parts'.flatten ++ token

theorem Meets.lineComment {text before comment after : List Char} {offset : Nat}
    (h : Meets text offset before comment after) :
  LineComment text before comment after
  := by
  obtain ⟨above, rest, parts, parts', token, rfl, -, skips, slashes, rfl, rfl⟩ := h
  apply skips.cut.lineComment slashes
  intro rest trivium
  apply trivium.inline slashes

/-- The first token is found in the same place when no line comment on the way is ended early. -/
theorem skipUntil_eq {text : List Char} {offset : Nat} (feed : ends '\n' = true)
    (whole : ∀ before comment after, Meets text offset before comment after →
      Unended ends comment after) :
  skipUntil ends text offset = skipTrivia text offset
  := by
  rw [skipUntil, skipTrivia]
  cases cut : dropBytes? offset text with
  | none => rfl
  | some rest =>
    obtain ⟨above, split, length⟩ := (dropBytes?_eq_some_iff _ _ _).1 cut
    obtain ⟨parts, token, skips⟩ := exists_skips rest
    have found : Syntax.dropUntil ends .code rest = token := by
      apply skips.dropUntil feed
      rintro before comment after rfl slashes
      apply whole (above ++ before.flatten) comment
      exact ⟨above, rest, before, after, token, split, length, skips, slashes, rfl, rfl⟩
    simp only [found, skips.dropTrivia]

/-- The first token is found in the same place as when line comments end where lines do, when the
line comments on the way stop in the lines in which they start. -/
theorem skipUntil_isLineEnd {text : List Char} {offset : Nat}
    (stops : ∀ before comment after, Meets text offset before comment after →
      StopsInLine before comment after) :
  skipUntil isLineEnd text offset = skipTrivia text offset
  := by
  apply skipUntil_eq rfl
  intro before comment after meets
  have line := meets.lineComment
  apply unended_isLineEnd line.inline (line.stops_iff.1 (stops _ _ _ meets))

end TypeAssertions.Syntax
