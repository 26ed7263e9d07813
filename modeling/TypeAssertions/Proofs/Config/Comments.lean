import TypeAssertions.Proofs.Config.Decoration

/-!
# Stripped comments

A text of a configuration file is a sequence of strings, comments and other characters (`Scans`).
Stripped of its comments it is the same sequence, but that of a comment only its line feeds are left
(`Scans.strip`).
-/

namespace TypeAssertions.Config

open Json Text

/-! ### Strings, comments and other characters -/

/-- A string, and what comes after it: a string goes on up to a quote without a backslash before it,
or to the end of the text. -/
inductive IsLiteral : List Char → List Char → Prop
  | closed {body : List Char} (inside : Inside body) (rest : List Char) :
      IsLiteral ('"' :: (body ++ ['"'])) rest
  | unclosed {body : List Char} (inside : Inside body) : IsLiteral ('"' :: body) []
  | dangling {body : List Char} (inside : Inside body) : IsLiteral ('"' :: (body ++ ['\\'])) []

/-- A string, a comment or another character, and what comes after it. -/
inductive IsChunk : List Char → List Char → Prop
  | literal {chunk rest : List Char} (h : IsLiteral chunk rest) : IsChunk chunk rest
  | comment {chunk rest : List Char} (h : IsComment chunk rest) : IsChunk chunk rest
  | other {c : Char} {rest : List Char} (quote : c ≠ '"')
      (uncommented : ¬ OpensComment (c :: rest)) : IsChunk [c] rest

/-- A text is a sequence of strings, comments and other characters. -/
def Scans (text : List Char) (chunks : List (List Char)) : Prop := Cut IsChunk text chunks []

theorem Scans.nil :
  Scans [] []
  := .last []

theorem Scans.cons {chunk rest : List Char} {chunks : List (List Char)} (h : IsChunk chunk rest)
    (later : Scans rest chunks) :
  Scans (chunk ++ rest) (chunk :: chunks)
  := .part h later

/-- A line comment goes on up to a line feed or the end of the text. -/
theorem IsChunk.inline {chunk rest : List Char} (h : IsChunk chunk rest)
    (slashes : ['/', '/'] <+: chunk) :
  '\n' ∉ chunk ∧ ∀ c ∈ rest.head?, c = '\n'
  := by
  cases h with
  | literal h =>
    obtain ⟨_, same⟩ := slashes
    cases h <;> cases (List.cons.inj same).1
  | comment h => apply h.inline slashes
  | other =>
    obtain ⟨_, same⟩ := slashes
    cases (List.cons.inj same).2

/-- Characters stand between quotes up to a quote, to a backslash that nothing comes after, or to
the end. -/
theorem exists_inside (cs : List Char) :
  ∃ body rest, cs = body ++ rest ∧ Inside body ∧ EndsString rest
  := by
  induction cs using List.twoStepInduction with
  | nil => exact ⟨[], [], rfl, .nil, .inl rfl⟩
  | singleton c =>
    by_cases quote : c = '"'
    · subst quote
      exact ⟨[], ['"'], rfl, .nil, .inr (.inr ⟨[], rfl⟩)⟩
    · by_cases escape : c = '\\'
      · subst escape
        exact ⟨[], ['\\'], rfl, .nil, .inr (.inl rfl)⟩
      · exact ⟨[c], [], rfl, .plain ⟨quote, escape⟩ .nil, .inl rfl⟩
  | cons_cons c d cs later next =>
    by_cases quote : c = '"'
    · subst quote
      exact ⟨[], '"' :: d :: cs, rfl, .nil, .inr (.inr ⟨d :: cs, rfl⟩)⟩
    · by_cases escape : c = '\\'
      · -- the character after a backslash is passed over with it
        subst escape
        obtain ⟨body, rest, rfl, inside, ends⟩ := later
        exact ⟨'\\' :: d :: body, rest, rfl, .escape inside, ends⟩
      · obtain ⟨body, rest, split, inside, ends⟩ := next d
        rw [split]
        exact ⟨c :: body, rest, rfl, .plain ⟨quote, escape⟩ inside, ends⟩

theorem exists_isLiteral (cs : List Char) :
  ∃ literal rest, '"' :: cs = literal ++ rest ∧ IsLiteral literal rest
  := by
  obtain ⟨body, rest, rfl, inside, rfl | rfl | ⟨more, rfl⟩⟩ := exists_inside cs
  · exact ⟨'"' :: body, [], rfl, .unclosed inside⟩
  · exact ⟨'"' :: (body ++ ['\\']), [], by simp, .dangling inside⟩
  · exact ⟨'"' :: (body ++ ['"']), more, by simp, .closed inside more⟩

theorem exists_scans (text : List Char) :
  ∃ chunks, Scans text chunks
  := by
  have step (text : List Char) :
      text = [] ∨ ∃ first rest, text = first ++ rest ∧ first ≠ [] ∧ IsChunk first rest := by
    cases text with
    | nil => exact .inl rfl
    | cons c rest =>
      right
      by_cases opens : OpensComment (c :: rest)
      · obtain ⟨comment, after, split, h⟩ := exists_isComment opens
        exact ⟨comment, after, split, h.ne_nil, .comment h⟩
      · by_cases quote : c = '"'
        · subst quote
          obtain ⟨literal, after, split, h⟩ := exists_isLiteral rest
          refine ⟨literal, after, split, ?_, .literal h⟩
          cases h <;> exact List.cons_ne_nil _ _
        · exact ⟨[c], rest, rfl, List.cons_ne_nil _ _, .other quote opens⟩
  obtain ⟨chunks, last, cut, rfl⟩ := exists_cut step text
  exact ⟨chunks, cut⟩

/-- A string is a quote, its characters, and a quote or backslash at its end, if the text goes on so
far. -/
theorem IsLiteral.split {literal rest : List Char} (h : IsLiteral literal rest) :
  ∃ body stop, literal = '"' :: (body ++ stop) ∧ Inside body ∧ EndsString (stop ++ rest)
    ∧ stop = (stop ++ rest).take 1
  := by
  cases h with
  | @closed body inside => exact ⟨body, ['"'], rfl, inside, .inr (.inr ⟨rest, rfl⟩), rfl⟩
  | @unclosed body inside => exact ⟨body, [], by simp, inside, .inl rfl, rfl⟩
  | @dangling body inside => exact ⟨body, ['\\'], rfl, inside, .inr (.inl rfl), rfl⟩

/-- Only one string starts a text. -/
theorem IsLiteral.unique {literal literal' rest rest' : List Char} (h : IsLiteral literal rest)
    (h' : IsLiteral literal' rest') (same : literal ++ rest = literal' ++ rest') :
  literal = literal'
  := by
  obtain ⟨body, stop, rfl, inside, ends, short⟩ := h.split
  obtain ⟨body', stop', rfl, inside', ends', short'⟩ := h'.split
  simp only [List.cons_append, List.append_assoc, List.cons.injEq, true_and] at same
  obtain rfl := inside.unique_of_ends inside' ends ends' same
  rw [short, short', List.append_cancel_left same]

theorem IsLiteral.head? {literal rest : List Char} (h : IsLiteral literal rest) :
  literal.head? = some '"'
  := by
  cases h <;> rfl

theorem IsLiteral.not_opensComment {literal rest : List Char} (h : IsLiteral literal rest) :
  ¬ OpensComment literal
  := by
  cases h <;> simp [opensComment_cons]

theorem IsChunk.ne_nil {chunk rest : List Char} (h : IsChunk chunk rest) :
  chunk ≠ []
  := by
  cases h with
  | literal h => cases h <;> exact List.cons_ne_nil _ _
  | comment h => apply h.ne_nil
  | other => exact List.cons_ne_nil _ _

/-- Only one string, comment or other character starts a text. -/
theorem IsChunk.unique {chunk chunk' rest rest' : List Char} (h : IsChunk chunk rest)
    (h' : IsChunk chunk' rest') (same : chunk ++ rest = chunk' ++ rest') :
  chunk = chunk'
  := by
  have first := congrArg List.head? same
  rw [List.head?_append_of_ne_nil _ h.ne_nil, List.head?_append_of_ne_nil _ h'.ne_nil] at first
  cases h with
  | literal h =>
    rw [h.head?] at first
    cases h' with
    | literal h' => apply h.unique h' same
    | comment h' =>
      rw [h'.head?] at first
      cases first
    | other quote =>
      cases first
      cases quote rfl
  | comment h =>
    cases h' with
    | literal h' =>
      rw [h.head?, h'.head?] at first
      cases first
    | comment h' => apply h.unique h' same
    | other quote uncommented => cases h.ne_other uncommented same
  | other quote uncommented =>
    cases h' with
    | literal h' =>
      rw [h'.head?] at first
      cases first
      cases quote rfl
    | comment h' => cases h'.ne_other uncommented same.symm
    | other =>
      cases first
      rfl

/-- A text is a sequence of strings, comments and other characters in one way. -/
theorem Scans.unique {text : List Char} {chunks chunks' : List (List Char)}
    (h : Scans text chunks) (h' : Scans text chunks') :
  chunks = chunks'
  := by
  rw [Scans] at h h'
  apply Cut.unique _ _ h h'
  · intro chunk rest chunked
    apply chunked.ne_nil
  · intro chunk chunk' rest rest' chunked chunked' same
    apply chunked.unique chunked' same

/-! ### What is left -/

/-- What is left of a string, a comment or another character: of a comment its line feeds, and of
anything else all. -/
def left (chunk : List Char) : List Char :=
  if OpensComment chunk then chunk.filter (· = '\n') else chunk

theorem stripFrom_unclosed {body : List Char} (inside : ¬ ['*', '/'] <:+: body) :
  stripFrom .block body = body.filter (· = '\n')
  := by
  induction body with
  | nil => rfl
  | cons c body ih =>
    have goes_on := ih (mt List.infix_cons inside)
    by_cases feed : c = '\n'
    · subst feed
      simp [stripFrom, goes_on]
    · rw [stripFrom, goes_on, List.filter_cons_of_neg (by simpa using feed)]
      · rintro cs rfl rfl
        apply inside ⟨[], cs, rfl⟩
      · apply feed

theorem stripFrom_comment {comment rest : List Char} (h : IsComment comment rest) :
  stripFrom .code (comment ++ rest) = comment.filter (· = '\n') ++ stripFrom .code rest
  := by
  cases h with
  | @line body rest inline ends =>
    have none : body.filter (· = '\n') = [] := by
      rw [List.filter_eq_nil_iff]
      rintro c member feed
      rw [of_decide_eq_true feed] at member
      apply inline member
    have left : stripFrom .line rest = stripFrom .code rest := by
      cases rest with
      | nil => rfl
      | cons c rest =>
        obtain rfl := ends c rfl
        rw [@stripFrom_code '\n' (by decide) (by decide), stripFrom]
    simp [stripFrom, stripFrom_line inline, none, left]
  | @block body inside rest => simp [stripFrom, stripFrom_block inside]
  | @unclosed body inside => simp [stripFrom, stripFrom_unclosed inside]

theorem stripFrom_literal {literal rest : List Char} (h : IsLiteral literal rest) :
  stripFrom .code (literal ++ rest) = literal ++ stripFrom .code rest
  := by
  cases h with
  | closed inside => apply leaves_stripFrom.quoted _ _ inside
  | unclosed inside =>
    have whole := stripFrom_inside inside []
    rw [List.append_nil] at whole
    simp [stripFrom, whole]
  | dangling inside => simp [stripFrom, stripFrom_inside inside]

theorem stripFrom_other {c : Char} {rest : List Char} (quote : c ≠ '"')
    (uncommented : ¬ OpensComment (c :: rest)) :
  stripFrom .code (c :: rest) = c :: stripFrom .code rest
  := by
  rw [stripFrom]
  · apply quote
  · rintro cs rfl rfl
    apply uncommented (.inl ⟨cs, rfl⟩)
  · rintro cs rfl rfl
    apply uncommented (.inr ⟨cs, rfl⟩)

theorem IsChunk.strip {chunk rest : List Char} (h : IsChunk chunk rest) :
  stripFrom .code (chunk ++ rest) = left chunk ++ stripFrom .code rest
  := by
  cases h with
  | literal h => rw [left, if_neg h.not_opensComment, stripFrom_literal h]
  | comment h => rw [left, if_pos h.opensComment, stripFrom_comment h]
  | @other c rest quote uncommented =>
    have other : ¬ OpensComment [c] := by simp [OpensComment]
    rw [left, if_neg other, List.singleton_append, stripFrom_other quote uncommented,
      List.singleton_append]

/-- Of the comments of a text their line feeds are left, and of all else nothing is taken away. -/
theorem Scans.strip {text : List Char} {chunks : List (List Char)} (h : Scans text chunks) :
  stripComments text = chunks.flatMap left
  := by
  rw [Scans] at h
  generalize ends : [] = last at h
  unfold stripComments
  induction h with
  | last =>
    rw [← ends]
    rfl
  | part chunk _ ih => rw [chunk.strip, ih ends, List.flatMap_cons]

/-- A line comment is stripped from a text. -/
def Meets (text before comment after : List Char) : Prop :=
  ∃ chunks chunks', Scans text (chunks ++ comment :: chunks') ∧ ['/', '/'] <+: comment
    ∧ before = chunks.flatten ∧ after = chunks'.flatten

theorem Meets.lineComment {text before comment after : List Char}
    (h : Meets text before comment after) :
  LineComment text before comment after
  := by
  obtain ⟨chunks, chunks', scans, slashes, rfl, rfl⟩ := h
  have line : LineComment ([] ++ text) ([] ++ chunks.flatten) comment (chunks'.flatten ++ []) := by
    apply scans.lineComment slashes
    intro rest chunk
    apply chunk.inline slashes
  rwa [List.nil_append, List.nil_append, List.append_nil] at line

end TypeAssertions.Config
