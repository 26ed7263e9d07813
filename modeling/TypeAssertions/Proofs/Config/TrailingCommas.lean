import TypeAssertions.Proofs.Config.Stability

/-!
# Removed commas

A comma is removed where it stands outside of strings and what comes next, but for blanks, closes an
array or object; everything else is kept (`removeTrailingCommas_exact`).

Strings are passed over by two scanners, one of which takes the character after a backslash together
with it, and one of which remembers the backslash.  Where no comments are left, they are in the middle
of a string at the same characters, and the strings of a text are those of its plain text.
-/

namespace TypeAssertions.Config

open Json Text

/-! ### Outside of strings -/

/-- After a text that goes on outside of strings, every string in it has been closed. -/
inductive Outside : List Char → Prop
  | nil : Outside []
  | other {c : Char} {text : List Char} (quote : c ≠ '"') (rest : Outside text) :
      Outside (c :: text)
  | string {body text : List Char} (inside : Inside body) (rest : Outside text) :
      Outside ('"' :: (body ++ '"' :: text))

theorem foldl_inside {body : List Char} (inside : Inside body) :
  body.foldl CommaState.next .string = .string
  := by
  induction inside with
  | nil => rfl
  | plain proper _ ih => simpa [CommaState.next, proper] using ih
  | escape _ ih => simpa [CommaState.next] using ih

/-- The scanner of commas is in the middle of nothing where all strings have been closed. -/
theorem foldl_eq_code_iff (text : List Char) :
  text.foldl CommaState.next .code = .code ↔ Outside text
  := by
  constructor
  · intro state
    induction size : text.length using Nat.strong_induction_on generalizing text with
    | h n ih =>
      subst size
      cases text with
      | nil => apply Outside.nil
      | cons c text =>
        rw [List.foldl_cons] at state
        by_cases quote : c = '"'
        · subst quote
          obtain ⟨body, rest, rfl, inside, ends⟩ := exists_inside text
          have opened : CommaState.next .code '"' = .string := rfl
          rw [opened, List.foldl_append, foldl_inside inside] at state
          rcases ends with rfl | rfl | ⟨more, rfl⟩
          · cases state
          · cases state
          · apply Outside.string inside
            apply ih _ _ more state rfl
            simp only [List.length_cons, List.length_append]
            omega
        · apply Outside.other quote
          rw [CommaState.next, if_neg quote] at state
          apply ih _ (Nat.lt_succ_self _) text state rfl
  · intro outside
    induction outside with
    | nil => rfl
    | other quote _ ih => simpa [CommaState.next, quote] using ih
    | string inside _ ih =>
      have opened : CommaState.next .code '"' = .string := rfl
      have closed : CommaState.next .string '"' = .code := rfl
      rw [List.foldl_cons, opened, List.foldl_append, foldl_inside inside, List.foldl_cons, closed,
        ih]

/-! ### Commas -/

/-- What comes next, but for blanks, closes an array or object. -/
def ClosesNext (text : List Char) : Prop :=
  ∃ blanks closer rest, text = blanks ++ closer :: rest ∧ (∀ c ∈ blanks, isBlank c = true)
    ∧ isCloser closer = true

theorem isBlank_of_isCloser {c : Char} (closer : isCloser c = true) :
  isBlank c = false
  := by
  simp only [isCloser, Bool.or_eq_true, decide_eq_true_eq] at closer
  rcases closer with rfl | rfl <;> rfl

theorem closes_iff (text : List Char) :
  closes text = true ↔ ClosesNext text
  := by
  constructor
  · intro closed
    induction text with
    | nil => cases closed
    | cons c text ih =>
      rw [closes_cons] at closed
      split at closed
      case isTrue blank =>
        obtain ⟨blanks, closer, rest, rfl, all, h⟩ := ih closed
        refine ⟨c :: blanks, closer, rest, rfl, ?_, h⟩
        rw [List.forall_mem_cons]
        exact ⟨blank, all⟩
      case isFalse => exact ⟨[], c, text, rfl, by simp, closed⟩
  · rintro ⟨blanks, closer, rest, rfl, all, h⟩
    induction blanks with
    | nil => simp [closes_cons, isBlank_of_isCloser h, h]
    | cons c blanks ih =>
      rw [List.forall_mem_cons] at all
      rw [List.cons_append, closes_cons, if_pos all.1, ih all.2]

/-- The characters of a text that starts in the middle of something, marked where they are kept. -/
def commaMarks : CommaState → List Char → List (Char × Bool)
  | _, [] => []
  | state, c :: text =>
    (c, decide ¬ (state = .code ∧ c = ',' ∧ closes text)) :: commaMarks (state.next c) text

theorem thins_commaMarks (state : CommaState) (text : List Char) :
  Thins (commaMarks state text) text (removeCommasFrom state text)
  := by
  induction text generalizing state with
  | nil => apply Thins.nil
  | cons c text ih =>
    rw [commaMarks, removeCommasFrom]
    split
    case isTrue removed =>
      obtain ⟨rfl, rfl, closed⟩ := removed
      have one : Thins [(',', false)] [','] [] := ⟨rfl, rfl⟩
      have goes_on : CommaState.next .code ',' = .code := rfl
      simpa [closed, goes_on] using one.append (ih .code)
    case isFalse stays =>
      have one : Thins [(c, true)] [c] [c] := ⟨rfl, rfl⟩
      simpa [stays] using one.append (ih (state.next c))

/-- A character is marked by what comes before and after it. -/
theorem commaMarks_split {state : CommaState} {text : List Char} {before after : List (Char × Bool)}
    {c : Char} {stays : Bool} (among : commaMarks state text = before ++ (c, stays) :: after) :
  stays = decide ¬ ((before.map Prod.fst).foldl CommaState.next state = .code ∧ c = ','
    ∧ closes (after.map Prod.fst))
  := by
  induction text generalizing state before with
  | nil => cases before <;> cases among
  | cons d text ih =>
    rw [commaMarks] at among
    cases before with
    | nil =>
      obtain ⟨same, rfl⟩ := List.cons.inj among
      obtain ⟨rfl, rfl⟩ := Prod.mk.inj same
      rw [(thins_commaMarks _ text).whole]
      rfl
    | cons m before =>
      rw [List.cons_append] at among
      obtain ⟨rfl, later⟩ := List.cons.inj among
      apply ih later

/-! ### In the middle of strings -/

/-- What the scanner of comments is in the middle of before each character. -/
def commentStates : CommentState → List Char → List CommentState
  | _, [] => []
  | .code, '"' :: cs => .code :: commentStates .string cs
  | .code, '/' :: '/' :: cs => .code :: .line :: commentStates .line cs
  | .code, '/' :: '*' :: cs => .code :: .block :: commentStates .block cs
  | .code, _ :: cs => .code :: commentStates .code cs
  | .string, '"' :: cs => .string :: commentStates .code cs
  | .string, '\\' :: _ :: cs => .string :: .string :: commentStates .string cs
  | .string, _ :: cs => .string :: commentStates .string cs
  | .line, '\n' :: cs => .line :: commentStates .code cs
  | .line, _ :: cs => .line :: commentStates .line cs
  | .block, '*' :: '/' :: cs => .block :: .block :: commentStates .code cs
  | .block, _ :: cs => .block :: commentStates .block cs

/-- What the scanner of commas is in the middle of before each character. -/
def commaStates : CommaState → List Char → List CommaState
  | _, [] => []
  | state, c :: cs => state :: commaStates (state.next c) cs

/-- Whether each character is inside of a string for the scanner of comments. -/
def commentStrings (state : CommentState) (text : List Char) : List Bool :=
  (commentStates state text).map fun state => decide (state = .string)

/-- Whether each character is inside of a string for the scanner of commas. -/
def commaStrings (state : CommaState) (text : List Char) : List Bool :=
  (commaStates state text).map fun state => decide (state ≠ .code)

/-- Whether each character of a chunk is inside of a string: those of a string but the first. -/
def within : List Char → List Bool
  | '"' :: cs => false :: cs.map fun _ => true
  | cs => cs.map fun _ => false

theorem within_of_head {c : Char} (quote : c ≠ '"') (cs : List Char) :
  within (c :: cs) = (c :: cs).map fun _ => false
  := by
  rw [within]
  rintro cs same
  apply quote (List.cons.inj same).1

/-- A scanner that starts in the middle of nothing, or of a string, is in the middle of a string from
after its opening quote up to its closing one, and no backslash goes on beyond the end. -/
structure FollowsStrings (code string : List Char → List Bool) : Prop where
  opened : ∀ cs, code ('"' :: cs) = false :: string cs
  inside : ∀ body rest, Inside body →
    string (body ++ rest) = body.map (fun _ => true) ++ string rest
  closed : ∀ cs, string ('"' :: cs) = true :: code cs
  dangling : string ['\\'] = [true]
  ended : string [] = [] ∧ code [] = []

theorem FollowsStrings.literal {code string : List Char → List Bool}
    (follows : FollowsStrings code string) {literal rest : List Char} (h : IsLiteral literal rest) :
  code (literal ++ rest) = within literal ++ code rest
  := by
  cases h with
  | closed inside =>
    rw [List.cons_append, follows.opened, List.append_assoc, follows.inside _ _ inside,
      List.singleton_append, follows.closed]
    simp [within]
  | @unclosed body inside =>
    rw [List.cons_append, follows.opened, follows.inside _ _ inside, follows.ended.1,
      follows.ended.2]
    simp [within]
  | dangling inside =>
    rw [List.cons_append, follows.opened, List.append_assoc, follows.inside _ _ inside,
      List.append_nil, follows.dangling, follows.ended.2]
    simp [within]

theorem followsStrings_comments :
  FollowsStrings (commentStrings .code) (commentStrings .string)
  := by
  constructor
  case inside =>
    intro body rest inside
    unfold commentStrings
    induction inside with
    | nil => rfl
    | plain proper _ ih =>
      rw [List.cons_append, commentStates, List.map_cons, ih]
      · rfl
      all_goals
        intros
        simp_all
    | escape _ ih =>
      rw [List.cons_append, List.cons_append, commentStates, List.map_cons, List.map_cons, ih]
      rfl
  case ended => exact ⟨rfl, rfl⟩
  all_goals (intros; rfl)

theorem commaStrings_cons (state : CommaState) (c : Char) (cs : List Char) :
  commaStrings state (c :: cs) = decide (state ≠ .code) :: commaStrings (state.next c) cs
  := rfl

theorem followsStrings_commas :
  FollowsStrings (commaStrings .code) (commaStrings .string)
  := by
  constructor
  case inside =>
    intro body rest inside
    induction inside with
    | nil => rfl
    | @plain c _ proper _ ih =>
      have state : CommaState.next .string c = .string := by
        simp [CommaState.next, proper]
      rw [List.cons_append, commaStrings_cons, state, ih]
      rfl
    | escape _ ih =>
      have escaped : CommaState.next .string '\\' = .escaped := rfl
      have state (c : Char) : CommaState.next .escaped c = .string := rfl
      rw [List.cons_append, List.cons_append, commaStrings_cons, escaped, commaStrings_cons, state,
        ih]
      rfl
  case ended => exact ⟨rfl, rfl⟩
  all_goals (intros; rfl)

theorem commentStrings_line {body rest : List Char} (inline : '\n' ∉ body)
    (ends : ∀ c ∈ rest.head?, c = '\n') :
  commentStrings .line (body ++ rest) = body.map (fun _ => false) ++ commentStrings .code rest
  := by
  induction body with
  | nil =>
    cases rest with
    | nil => rfl
    | cons c rest =>
      obtain rfl := ends c rfl
      rfl
  | cons c body ih =>
    rw [List.mem_cons, not_or] at inline
    have states : commentStates .line (c :: (body ++ rest))
        = .line :: commentStates .line (body ++ rest) := by
      rw [commentStates]
      rintro rfl
      apply inline.1 rfl
    unfold commentStrings at ih ⊢
    rw [List.cons_append, states, List.map_cons, ih inline.2]
    rfl

theorem commentStates_block {c : Char} {cs : List Char}
    (inside : ¬ ∃ rest, c = '*' ∧ cs = '/' :: rest) :
  commentStates .block (c :: cs) = .block :: commentStates .block cs
  := by
  rw [commentStates]
  rintro rest rfl rfl
  apply inside ⟨rest, rfl, rfl⟩

theorem commentStrings_block {body : List Char} (inside : ¬ ['*', '/'] <:+: body)
    (rest : List Char) :
  commentStrings .block (body ++ '*' :: '/' :: rest)
    = (body ++ ['*', '/']).map (fun _ => false) ++ commentStrings .code rest
  := by
  unfold commentStrings
  induction body with
  | nil => rfl
  | cons c body ih =>
    rw [List.cons_append, commentStates_block, List.map_cons, ih (mt List.infix_cons inside)]
    · rfl
    · rintro ⟨cs, star, slash⟩
      apply cons_append_ne inside rest cs
      rw [star, slash]

theorem commentStrings_unclosed {body : List Char} (inside : ¬ ['*', '/'] <:+: body) :
  commentStrings .block body = body.map fun _ => false
  := by
  unfold commentStrings
  induction body with
  | nil => rfl
  | cons c body ih =>
    rw [commentStates_block, List.map_cons, ih (mt List.infix_cons inside)]
    · rfl
    · rintro ⟨rest, rfl, rfl⟩
      apply inside ⟨[], rest, rfl⟩

theorem commentStrings_comment {comment rest : List Char} (h : IsComment comment rest) :
  commentStrings .code (comment ++ rest) = within comment ++ commentStrings .code rest
  := by
  have slashes (cs : List Char) :
      commentStrings .code ('/' :: '/' :: cs) = false :: false :: commentStrings .line cs := rfl
  have star (cs : List Char) :
      commentStrings .code ('/' :: '*' :: cs) = false :: false :: commentStrings .block cs := rfl
  cases h with
  | line inline ends =>
    rw [within_of_head (by decide), List.cons_append, List.cons_append, slashes,
      commentStrings_line inline ends]
    rfl
  | @block body inside =>
    have split : '/' :: '*' :: (body ++ ['*', '/']) ++ rest
        = '/' :: '*' :: (body ++ '*' :: '/' :: rest) := by
      simp
    rw [split, star, commentStrings_block inside, within_of_head (by decide)]
    rfl
  | unclosed inside =>
    rw [within_of_head (by decide), List.append_nil, star, commentStrings_unclosed inside]
    simp [commentStrings, commentStates]

theorem commentStrings_other {c : Char} {rest : List Char} (quote : c ≠ '"')
    (uncommented : ¬ OpensComment (c :: rest)) :
  commentStrings .code (c :: rest) = within [c] ++ commentStrings .code rest
  := by
  have states : commentStates .code (c :: rest) = .code :: commentStates .code rest := by
    rw [commentStates]
    · apply quote
    · rintro cs rfl rfl
      apply uncommented (.inl ⟨cs, rfl⟩)
    · rintro cs rfl rfl
      apply uncommented (.inr ⟨cs, rfl⟩)
  unfold commentStrings
  rw [states, List.map_cons, within_of_head quote]
  rfl

/-- The scanner of comments is in the middle of the strings of a text. -/
theorem Scans.commentStrings {text : List Char} {chunks : List (List Char)}
    (h : Scans text chunks) :
  commentStrings .code text = chunks.flatMap within
  := by
  rw [Scans] at h
  generalize ends : [] = last at h
  induction h with
  | last =>
    subst ends
    rfl
  | part chunked _ ih =>
    rw [List.flatMap_cons, ← ih ends]
    cases chunked with
    | literal h => apply followsStrings_comments.literal h
    | comment h => apply commentStrings_comment h
    | other quote uncommented => apply commentStrings_other quote uncommented

/-- Where there are no comments, the scanner of commas is in the middle of the strings of a text. -/
theorem Scans.commaStrings {text : List Char} {chunks : List (List Char)} (h : Scans text chunks)
    (plain : ∀ chunk ∈ chunks, ¬ OpensComment chunk) :
  commaStrings .code text = chunks.flatMap within
  := by
  rw [Scans] at h
  generalize ends : [] = last at h
  induction h with
  | last =>
    subst ends
    rfl
  | part chunked _ ih =>
    rw [List.forall_mem_cons] at plain
    rw [List.flatMap_cons, ← ih plain.2 ends]
    cases chunked with
    | literal h => apply followsStrings_commas.literal h
    | comment h => cases plain.1 h.opensComment
    | @other c _ quote uncommented =>
      rw [List.singleton_append, commaStrings_cons, next_of_ne_quote quote, within_of_head quote]
      rfl

/-! ### Strings of plain texts -/

/-- A chunk is a string. -/
def IsQuoted (chunk : List Char) : Prop := chunk.head? = some '"'

instance : DecidablePred IsQuoted :=
  fun _ => inferInstanceAs (Decidable (_ = _))

/-- A comma that is removed has a blank, a bracket or a brace after it. -/
theorem head?_removeCommas {text : List Char} {d : Char}
    (first : d ∈ (removeCommasFrom .code text).head?) :
  d ∈ text.head? ∨ isBlank d = true ∨ isCloser d = true
  := by
  cases text with
  | nil => cases first
  | cons c text =>
    rw [removeCommasFrom] at first
    split at first
    case isFalse => exact .inl first
    case isTrue removed =>
      right
      obtain ⟨-, rfl, closed⟩ := removed
      cases text with
      | nil => cases closed
      | cons e text =>
        have next : isBlank e = true ∨ isCloser e = true := by
          rw [closes_cons] at closed
          split at closed
          case isTrue blank => exact .inl blank
          case isFalse => exact .inr closed
        have stays : e ≠ ',' := by
          rintro rfl
          simp [isCloser, show isBlank ',' = false from rfl] at next
        rw [removeCommasFrom, if_neg (by simp [stays])] at first
        cases first
        apply next

/-- A character that opens no comment opens none before a text without its commas. -/
theorem not_opensComment_removeCommas {c : Char} {text : List Char}
    (uncommented : ¬ OpensComment (c :: text)) :
  ¬ OpensComment (c :: removeCommasFrom .code text)
  := by
  rw [opensComment_cons] at uncommented ⊢
  rintro ⟨slash, next⟩
  apply uncommented
  use slash
  apply next.imp
  all_goals
    intro first
    rcases head?_removeCommas first with same | blank | closer
    · apply same
    · cases blank
    · cases closer

theorem removeCommasFrom_literal {literal rest : List Char} (h : IsLiteral literal rest) :
  removeCommasFrom .code (literal ++ rest) = literal ++ removeCommasFrom .code rest
  := by
  have opened (cs : List Char) :
      removeCommasFrom .code ('"' :: cs) = '"' :: removeCommasFrom .string cs := by
    simp [removeCommasFrom, CommaState.next]
  cases h with
  | closed inside =>
    rw [List.cons_append, opened, List.append_assoc, removeCommasFrom_inside inside,
      List.singleton_append]
    simp [removeCommasFrom, CommaState.next]
  | unclosed inside =>
    rw [List.cons_append, opened, removeCommasFrom_inside inside]
    simp [removeCommasFrom]
  | dangling inside =>
    rw [List.cons_append, opened, List.append_assoc, removeCommasFrom_inside inside]
    simp [removeCommasFrom]

/-- At the end of a text, a string is not followed by anything. -/
theorem IsLiteral.removeCommas {literal rest : List Char} (h : IsLiteral literal rest) :
  IsLiteral literal (removeCommasFrom .code rest)
  := by
  cases h with
  | closed inside => apply IsLiteral.closed inside
  | unclosed inside => apply IsLiteral.unclosed inside
  | dangling inside => apply IsLiteral.dangling inside

/-- Without trailing commas, a text that has no comments is a sequence of the same strings. -/
theorem Scans.removeCommas {text : List Char} {chunks : List (List Char)} (h : Scans text chunks)
    (plain : ∀ chunk ∈ chunks, ¬ OpensComment chunk) :
  ∃ chunks', Scans (removeTrailingCommas text) chunks'
    ∧ chunks'.filter IsQuoted = chunks.filter IsQuoted
  := by
  unfold removeTrailingCommas
  rw [Scans] at h
  generalize ends : [] = last at h
  induction h with
  | last =>
    subst ends
    exact ⟨[], .nil, rfl⟩
  | @part chunk rest last chunks chunked later ih =>
    rw [List.forall_mem_cons] at plain
    obtain ⟨chunks', scans, same⟩ := ih plain.2 ends
    cases chunked with
    | comment h => cases plain.1 h.opensComment
    | literal h =>
      have quoted : IsQuoted chunk := h.head?
      use chunk :: chunks'
      rw [removeCommasFrom_literal h, List.filter_cons_of_pos (by simpa using quoted),
        List.filter_cons_of_pos (by simpa using quoted), same]
      use .cons (.literal h.removeCommas) scans
    | @other c _ quote uncommented =>
      have unquoted : ¬ IsQuoted [c] := by simpa [IsQuoted] using quote
      have others : ([c] :: chunks).filter IsQuoted = chunks.filter IsQuoted := by
        rw [List.filter_cons_of_neg (by simpa using unquoted)]
      rw [List.singleton_append, removeCommasFrom_other quote, others]
      split
      case isTrue => exact ⟨chunks', scans, same⟩
      case isFalse =>
        use [c] :: chunks'
        rw [List.filter_cons_of_neg (by simpa using unquoted)]
        use .cons (.other quote (not_opensComment_removeCommas uncommented)) scans

/-- What remains of a chunk is a string where the chunk is. -/
theorem filter_remains (chunk : List Char) :
  (remains chunk).filter IsQuoted = [chunk].filter IsQuoted
  := by
  rw [remains]
  split
  case isTrue opens =>
    have unquoted : ¬ IsQuoted chunk := by
      rcases opens with ⟨_, rfl⟩ | ⟨_, rfl⟩ <;> simp [IsQuoted]
    rw [List.filter_cons_of_neg (by simpa using unquoted), List.filter_nil, List.filter_eq_nil_iff]
    intro piece member
    obtain ⟨c, feed, rfl⟩ := List.mem_map.1 member
    have other : c = '\n' := by simpa using (List.mem_filter.1 feed).2
    simp [IsQuoted, other]
  case isFalse => rfl

/-- The strings of a text are those of its plain text. -/
theorem Scans.plainJson {text : List Char} {chunks : List (List Char)} (h : Scans text chunks) :
  ∃ chunks', Scans (ConfigFile.plainJson text) chunks'
    ∧ chunks'.filter IsQuoted = chunks.filter IsQuoted
  := by
  have plain : ∀ chunk ∈ chunks.flatMap remains, ¬ OpensComment chunk := by
    intro piece member
    obtain ⟨chunk, -, member⟩ := List.mem_flatMap.1 member
    apply not_opensComment_of_mem_remains member
  obtain ⟨chunks', scans, same⟩ := h.stripped.removeCommas plain
  rw [← h.strip] at scans
  use chunks', scans
  rw [same, List.filter_flatMap, List.flatMap_congr fun chunk _ => filter_remains chunk,
    ← List.filter_flatMap, List.flatMap_singleton']

/-- Exactly the commas are removed that stand outside of strings and have nothing but blanks between
them and a bracket or brace that closes; all else is kept in order.  In a text in which nothing is a
comment both scanners are in the middle of a string at the same characters; these are the
characters of its strings.  So the strings of a text without its comments and trailing commas are the
strings of the text. -/
theorem removeTrailingCommas_exact (text : List Char) :
  (∃ marks, Thins marks text (removeTrailingCommas text)
      ∧ ∀ before c stays after, marks = before ++ (c, stays) :: after →
        (stays = false
          ↔ c = ',' ∧ Outside (before.map Prod.fst) ∧ ClosesNext (after.map Prod.fst)))
    ∧ (stripComments text = text → commaStrings .code text = commentStrings .code text)
    ∧ (∀ chunks, Scans text chunks → commentStrings .code text = chunks.flatMap within)
    ∧ ∀ chunks chunks', Scans text chunks → Scans (ConfigFile.plainJson text) chunks' →
      chunks'.filter IsQuoted = chunks.filter IsQuoted
  := by
  refine ⟨⟨commaMarks .code text, thins_commaMarks .code text, ?_⟩, ?_,
    fun chunks scans => scans.commentStrings, ?_⟩
  · intro before c stays after among
    rw [commaMarks_split among, decide_eq_false_iff_not, not_not, foldl_eq_code_iff, closes_iff]
    exact and_left_comm
  · intro plain
    obtain ⟨chunks, scans⟩ := exists_scans text
    have same : chunks.flatMap remains = chunks := by
      apply scans.stripped.unique
      rwa [← scans.strip, plain]
    rw [scans.commentStrings]
    apply scans.commaStrings
    rw [← same]
    intro piece member
    obtain ⟨chunk, -, member⟩ := List.mem_flatMap.1 member
    apply not_opensComment_of_mem_remains member
  · intro chunks chunks' scans scans'
    obtain ⟨others, scans'', same⟩ := scans.plainJson
    rw [scans'.unique scans'', same]

/-- A comma with a line feed between it and a bracket is removed, and one before a bracket in a string
with an escaped quote is not. -/
theorem removeTrailingCommas_exact_escaped :
  (∃ before after, before.map Prod.fst = "[\"\\\",]\"".toList ∧ after.map Prod.fst = "\n]".toList
      ∧ Thins (before ++ (',', false) :: after) "[\"\\\",]\",\n]".toList
        (removeTrailingCommas "[\"\\\",]\",\n]".toList))
    ∧ stripComments "[\"\\\",]\",\n]".toList = "[\"\\\",]\",\n]".toList
    ∧ commaStrings .code "[\"\\\",]\",\n]".toList = commentStrings .code "[\"\\\",]\",\n]".toList
    ∧ Scans "[\"\\\",]\",\n]".toList [['['], "\"\\\",]\"".toList, [','], ['\n'], [']']]
    ∧ Scans (ConfigFile.plainJson "[\"\\\",]\",\n]".toList)
      [['['], "\"\\\",]\"".toList, ['\n'], [']']]
    ∧ ([['['], "\"\\\",]\"".toList, ['\n'], [']']] : List (List Char)).filter IsQuoted
      = [['['], "\"\\\",]\"".toList, [','], ['\n'], [']']].filter IsQuoted
  := by
  have inside : Inside ['\\', '"', ',', ']'] :=
    .escape (.plain (by decide) (.plain (by decide) .nil))
  have closing : Scans ['\n', ']'] [['\n'], [']']] :=
    .cons (.other (by decide) (by decide)) (.cons (.other (by decide) (by decide)) .nil)
  have scans : Scans "[\"\\\",]\",\n]".toList
      [['['], "\"\\\",]\"".toList, [','], ['\n'], [']']] :=
    .cons (.other (by decide) (by decide)) (.cons (.literal (@IsLiteral.closed _ inside _))
      (.cons (.other (by decide) (by decide)) closing))
  have plain : ConfigFile.plainJson "[\"\\\",]\",\n]".toList = "[\"\\\",]\"\n]".toList := by cbv
  have scans' : Scans (ConfigFile.plainJson "[\"\\\",]\",\n]".toList)
      [['['], "\"\\\",]\"".toList, ['\n'], [']']] := by
    rw [plain]
    exact .cons (.other (by decide) (by decide))
      (.cons (.literal (@IsLiteral.closed _ inside _)) closing)
  have uncommented : stripComments "[\"\\\",]\",\n]".toList = "[\"\\\",]\",\n]".toList := by cbv
  obtain ⟨⟨marks, thins, exact'⟩, agree, -, same⟩ :=
    removeTrailingCommas_exact "[\"\\\",]\",\n]".toList
  have whole : marks.map Prod.fst = "[\"\\\",]\"".toList ++ ',' :: "\n]".toList := thins.whole
  obtain ⟨before, others, rfl, first, rest⟩ := List.map_eq_append_iff.1 whole
  obtain ⟨⟨c, stays⟩, after, rfl, comma, last⟩ := List.map_eq_cons_iff.1 rest
  obtain rfl : c = ',' := comma
  have removed : stays = false := by
    rw [exact' before ',' stays after rfl, first, last]
    refine ⟨rfl, .other (by decide) (.string inside .nil), ['\n'], ']', [], rfl, ?_, rfl⟩
    simp [isBlank, blankRanges]
  subst removed
  exact ⟨⟨before, after, first, last, thins⟩, uncommented, agree uncommented, scans, scans',
    same _ _ scans scans'⟩

end TypeAssertions.Config
