import TypeAssertions.Proofs.Config.Comments

/-!
# Stability of stripping

A pass that only takes characters away marks those that it keeps (`Thins`).  Of a text stripped of
its comments every line feed is kept, so that what is kept stays on its line, and every string
(`stripComments_stable`).

Nothing is a comment in a stripped text: where a slash is kept, what came after it opened no comment
with it, and whatever stands there once the comments are gone is either the same character or the
line feed that ended a comment (`head?_left`).
-/

namespace TypeAssertions.Config

open Json Text

/-! ### Marked texts -/

/-- What is kept of a text whose characters are marked. -/
def kept (marks : List (Char × Bool)) : List Char :=
  (marks.filter Prod.snd).map Prod.fst

theorem kept_append (marks marks' : List (Char × Bool)) :
  kept (marks ++ marks') = kept marks ++ kept marks'
  := by
  rw [kept, List.filter_append, List.map_append, ← kept, ← kept]

/-- The characters of a text are marked, and those that are kept give another text. -/
structure Thins (marks : List (Char × Bool)) (text thinned : List Char) : Prop where
  whole : marks.map Prod.fst = text
  kept : kept marks = thinned

namespace Thins

variable {marks marks' : List (Char × Bool)} {text text' thinned thinned' : List Char}

theorem nil :
  Thins [] [] []
  := ⟨rfl, rfl⟩

theorem append (h : Thins marks text thinned) (h' : Thins marks' text' thinned') :
  Thins (marks ++ marks') (text ++ text') (thinned ++ thinned')
  := by
  constructor
  · rw [List.map_append, h.whole, h'.whole]
  · rw [kept_append, h.kept, h'.kept]

theorem sublist (h : Thins marks text thinned) :
  thinned.Sublist text
  := by
  rw [← h.whole, ← h.kept]
  apply List.filter_sublist.map

/-- Where a character is kept, both texts have it. -/
theorem split (h : Thins marks text thinned) {before after : List (Char × Bool)} {c : Char}
    (among : marks = before ++ (c, true) :: after) :
  text = before.map Prod.fst ++ c :: after.map Prod.fst
    ∧ thinned = Config.kept before ++ c :: Config.kept after
  := by
  constructor
  · rw [← h.whole, among, List.map_append, List.map_cons]
  · rw [← h.kept, among, kept_append]
    rfl

end Thins

/-- Where every line feed is kept, as many are left. -/
theorem count_kept {marks : List (Char × Bool)} (feeds : ('\n', false) ∉ marks) :
  (kept marks).count '\n' = (marks.map Prod.fst).count '\n'
  := by
  induction marks with
  | nil => rfl
  | cons mark marks ih =>
    rw [List.mem_cons, not_or] at feeds
    obtain ⟨c, stays⟩ := mark
    cases stays with
    | true =>
      have first : kept ((c, true) :: marks) = c :: kept marks := rfl
      rw [first, List.map_cons, List.count_cons, List.count_cons, ih feeds.2]
    | false =>
      have none : kept ((c, false) :: marks) = kept marks := rfl
      have other : c ≠ '\n' := by
        rintro rfl
        apply feeds.1 rfl
      rw [none, List.map_cons, List.count_cons_of_ne other, ih feeds.2]

/-! ### What is kept of a chunk -/

/-- The characters of a chunk, marked where they are left of it. -/
def mark (chunk : List Char) : List (Char × Bool) :=
  chunk.map fun c => (c, decide (OpensComment chunk → c = '\n'))

theorem thins_mark (chunk : List Char) :
  Thins (mark chunk) chunk (left chunk)
  := by
  constructor
  case whole => simp [mark, Function.comp_def]
  case kept =>
    rw [kept, mark, left, List.filter_map, List.map_map]
    split
    case isTrue opens => simp [Function.comp_def, opens]
    case isFalse other => simp [Function.comp_def, other]

theorem thins_marks (chunks : List (List Char)) :
  Thins (chunks.flatMap mark) chunks.flatten (chunks.flatMap left)
  := by
  induction chunks with
  | nil => apply Thins.nil
  | cons chunk chunks ih => apply (thins_mark chunk).append ih

/-- Every line feed is kept. -/
theorem feed_kept (chunks : List (List Char)) :
  ('\n', false) ∉ chunks.flatMap mark
  := by
  simp [mark]

theorem left_of_not_opens {chunk : List Char} (other : ¬ OpensComment chunk) :
  left chunk = chunk
  := by
  rw [left, if_neg other]

theorem IsLiteral.left {literal rest : List Char} (h : IsLiteral literal rest) :
  left literal = literal
  := left_of_not_opens h.not_opensComment

theorem left_singleton (c : Char) :
  left [c] = [c]
  := by
  apply left_of_not_opens
  simp [OpensComment]

/-! ### Stripping again -/

/-- A text stripped of its comments starts as it did, unless a comment may have stood there. -/
theorem head?_left {text : List Char} {chunks : List (List Char)} (h : Scans text chunks)
    (other : text.head? ≠ some '/') :
  (chunks.flatMap left).head? = text.head?
  := by
  rw [Scans] at h
  cases h with
  | last => rfl
  | @part chunk rest _ chunks chunked =>
    have same : left chunk = chunk := by
      cases chunked with
      | literal h => apply h.left
      | other => apply left_singleton
      | comment h =>
        rw [List.head?_append_of_ne_nil _ h.ne_nil, h.head?] at other
        cases other rfl
    rw [List.flatMap_cons, same, List.head?_append_of_ne_nil _ chunked.ne_nil,
      List.head?_append_of_ne_nil _ chunked.ne_nil]

/-- A character that opens no comment opens none before the stripped text. -/
theorem not_opensComment_left {c : Char} {text : List Char} {chunks : List (List Char)}
    (h : Scans text chunks) (uncommented : ¬ OpensComment (c :: text)) :
  ¬ OpensComment (c :: chunks.flatMap left)
  := by
  rw [opensComment_cons] at uncommented ⊢
  by_cases slash : text.head? = some '/'
  · rintro ⟨rfl, -⟩
    apply uncommented ⟨rfl, .inl slash⟩
  · rw [head?_left h slash]
    apply uncommented

/-- The chunks of which what is left of a chunk consists. -/
def remains (chunk : List Char) : List (List Char) :=
  if OpensComment chunk then (chunk.filter (· = '\n')).map ([·]) else [chunk]

theorem remains_comment {comment : List Char} (opens : OpensComment comment) :
  remains comment = (comment.filter (· = '\n')).map ([·])
  := by
  rw [remains, if_pos opens]

theorem remains_of_not_opens {chunk : List Char} (other : ¬ OpensComment chunk) :
  remains chunk = [chunk]
  := by
  rw [remains, if_neg other]

theorem not_opensComment_of_mem_remains {chunk piece : List Char} (member : piece ∈ remains chunk) :
  ¬ OpensComment piece
  := by
  rw [remains] at member
  split at member
  case isTrue =>
    obtain ⟨c, -, rfl⟩ := List.mem_map.1 member
    simp [OpensComment]
  case isFalse other =>
    obtain rfl := List.mem_singleton.1 member
    apply other

/-- Characters that start no string and no comment stand for themselves. -/
theorem Scans.others {text : List Char} {chunks : List (List Char)} (h : Scans text chunks)
    {run : List Char} (all : ∀ c ∈ run, c ≠ '"' ∧ c ≠ '/') :
  Scans (run ++ text) (run.map ([·]) ++ chunks)
  := by
  induction run with
  | nil => apply h
  | cons c run ih =>
    rw [List.forall_mem_cons] at all
    obtain ⟨⟨quote, slash⟩, all⟩ := all
    apply Scans.cons (.other quote _) (ih all)
    simp [opensComment_cons, slash]

/-- A stripped text is the sequence of what remains of the chunks. -/
theorem Scans.stripped {text : List Char} {chunks : List (List Char)} (h : Scans text chunks) :
  Scans (chunks.flatMap left) (chunks.flatMap remains)
  := by
  rw [Scans] at h
  generalize ends : [] = last at h
  induction h with
  | last => apply Scans.nil
  | @part chunk rest last chunks chunked later ih =>
    subst ends
    rw [List.flatMap_cons, List.flatMap_cons]
    cases chunked with
    | comment h =>
      rw [remains_comment h.opensComment, left, if_pos h.opensComment]
      apply (ih rfl).others
      intro c member
      obtain rfl : c = '\n' := by simpa using (List.mem_filter.1 member).2
      decide
    | other quote uncommented =>
      rw [left_singleton, remains_of_not_opens (by simp [OpensComment])]
      apply Scans.cons (.other quote (not_opensComment_left later uncommented)) (ih rfl)
    | literal h =>
      rw [h.left, remains_of_not_opens h.not_opensComment]
      cases h with
      | closed inside => apply Scans.cons (.literal (.closed inside _)) (ih rfl)
      | unclosed inside =>
        obtain rfl := later.nil fun _ _ h => h.ne_nil
        apply Scans.cons (.literal (.unclosed inside)) .nil
      | dangling inside =>
        obtain rfl := later.nil fun _ _ h => h.ne_nil
        apply Scans.cons (.literal (.dangling inside)) .nil

theorem flatMap_left_remains (chunk : List Char) :
  (remains chunk).flatMap left = left chunk
  := by
  rw [remains, left]
  split
  case isTrue =>
    rw [List.flatMap_map]
    simp [left_singleton]
  case isFalse other => simp [left, other]

/-- Nothing is taken away from what is left of the chunks of a text. -/
theorem Scans.strip_left {text : List Char} {chunks : List (List Char)} (h : Scans text chunks) :
  stripComments (chunks.flatMap left) = chunks.flatMap left
  := by
  rw [h.stripped.strip, List.flatMap_assoc]
  simp only [flatMap_left_remains]

/-- Stripping a text again takes nothing more away.  The stripped text is the text without some of its
characters: every text is a sequence of strings, comments and other characters in one way, every
string is kept as it is, every line feed is kept, and as many line feeds stand before a character
that is kept as before. -/
theorem stripComments_stable (text : List Char) :
  stripComments (stripComments text) = stripComments text
    ∧ (stripComments text).Sublist text
    ∧ ∃ chunks, Scans text chunks ∧ (∀ others, Scans text others → others = chunks)
      ∧ Thins (chunks.flatMap mark) text (stripComments text)
      ∧ ('\n', false) ∉ chunks.flatMap mark
      ∧ (∀ before literal after, chunks = before ++ literal :: after →
          IsLiteral literal after.flatten →
          stripComments text = before.flatMap left ++ literal ++ after.flatMap left)
      ∧ ∀ before c after, chunks.flatMap mark = before ++ (c, true) :: after →
          text = before.map Prod.fst ++ c :: after.map Prod.fst
            ∧ stripComments text = kept before ++ c :: kept after
            ∧ (kept before).count '\n' = (before.map Prod.fst).count '\n'
  := by
  obtain ⟨chunks, scans⟩ := exists_scans text
  have whole : text = chunks.flatten := by
    have split := Cut.split scans
    rwa [List.append_nil] at split
  have thins : Thins (chunks.flatMap mark) text (stripComments text) := by
    rw [scans.strip, whole]
    apply thins_marks
  refine ⟨?_, thins.sublist, chunks, scans, ?_, thins, feed_kept chunks, ?_, ?_⟩
  · rw [scans.strip, scans.strip_left]
  · intro others scans'
    apply scans'.unique scans
  · rintro before literal after rfl h
    rw [scans.strip, List.flatMap_append, List.flatMap_cons, h.left, List.append_assoc]
  · intro before c after among
    obtain ⟨split, split'⟩ := thins.split among
    refine ⟨split, split', count_kept ?_⟩
    intro member
    apply feed_kept chunks
    rw [among]
    apply List.mem_append_left _ member

/-- A string with the mark of a comment in it is copied, and a comment with a quote in it is not; the
line feed after it stands before what follows. -/
theorem stripComments_stable_quoted :
  Scans "\"/*\"//\"\n1".toList ["\"/*\"".toList, "//\"".toList, ['\n'], ['1']]
    ∧ stripComments (stripComments "\"/*\"//\"\n1".toList) = stripComments "\"/*\"//\"\n1".toList
    ∧ IsLiteral "\"/*\"".toList "//\"\n1".toList
    ∧ stripComments "\"/*\"//\"\n1".toList = [] ++ "\"/*\"".toList ++ "\n1".toList
    ∧ "\"/*\"\n".toList.count '\n' = "\"/*\"//\"\n".toList.count '\n'
  := by
  have literal : IsLiteral "\"/*\"".toList "//\"\n1".toList :=
    @IsLiteral.closed ['/', '*'] (.plain (by decide) (.plain (by decide) .nil)) _
  have comment : IsComment "//\"".toList "\n1".toList :=
    @IsComment.line ['"'] _ (by decide) (by simp)
  have scans :
      Scans "\"/*\"//\"\n1".toList ["\"/*\"".toList, "//\"".toList, ['\n'], ['1']] :=
    .cons (.literal literal) (.cons (.comment comment)
      (.cons (.other (by decide) (by decide)) (.cons (.other (by decide) (by decide)) .nil)))
  obtain ⟨again, -, chunks, -, one, -, -, copied, lines⟩ :=
    stripComments_stable "\"/*\"//\"\n1".toList
  obtain rfl := one _ scans
  have copy := copied [] _ _ rfl literal
  obtain ⟨-, -, count⟩ := lines (["\"/*\"".toList, "//\"".toList, ['\n']].flatMap mark) '1' []
    (by decide)
  exact ⟨scans, again, literal, copy, count⟩

end TypeAssertions.Config
