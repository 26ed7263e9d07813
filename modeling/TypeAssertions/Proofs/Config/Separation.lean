import TypeAssertions.Proofs.Config.TrailingCommas
import TypeAssertions.Proofs.Json.Spacing

/-!
# Comments between tokens

Without its comments a text writes the configuration that it writes with a space in place of each of
them, unless a comment joins two characters of numbers or words (`Joins`).  Then the text with spaces
is rejected, and without the comment the two characters stand side by side (`comments_separate`).

Where no comment joins two characters, the spaces are inserted between tokens (`Scans.widens`);
where one does, the text with spaces is torn there (`Scans.torn`).  The same trailing commas are
removed from both texts, since spaces are passed over where the end of an array or object is looked
for (`closes_spaced`).
-/

namespace TypeAssertions.Config

open Json Text

/-! ### Spaces for comments -/

/-- A chunk with a space and the line feeds in place of a comment. -/
def spaced (chunk : List Char) : List Char :=
  if OpensComment chunk then ' ' :: chunk.filter (· = '\n') else chunk

/-- A comment comes right after a character of a number or word, and what is left of the comment and
of what comes after it starts with another one. -/
def Joins (chunks : List (List Char)) : Prop :=
  ∃ before c comment after, chunks = before ++ [c] :: comment :: after ∧ isBare c = true
    ∧ OpensComment comment ∧ ∃ d ∈ ((comment :: after).flatMap left).head?, isBare d = true

theorem Joins.cons {chunks : List (List Char)} (h : Joins chunks) (chunk : List Char) :
  Joins (chunk :: chunks)
  := by
  obtain ⟨before, c, comment, after, rfl, joins⟩ := h
  exact ⟨chunk :: before, c, comment, after, rfl, joins⟩

theorem spaced_comment {comment : List Char} (opens : OpensComment comment) :
  spaced comment = ' ' :: left comment
  := by
  rw [spaced, left, if_pos opens, if_pos opens]

theorem spaced_of_not_opens {chunk : List Char} (other : ¬ OpensComment chunk) :
  spaced chunk = chunk
  := by
  rw [spaced, if_neg other]

theorem IsLiteral.spaced {literal rest : List Char} (h : IsLiteral literal rest) :
  spaced literal = literal
  := spaced_of_not_opens h.not_opensComment

theorem spaced_singleton (c : Char) :
  spaced [c] = [c]
  := by
  apply spaced_of_not_opens
  simp [OpensComment]

/-- Nothing but line feeds is left of a comment. -/
theorem eq_feed_of_mem_left {comment : List Char} (opens : OpensComment comment) {c : Char}
    (member : c ∈ left comment) :
  c = '\n'
  := by
  rw [left, if_pos opens] at member
  simpa using (List.mem_filter.1 member).2

/-! ### Trailing commas -/

theorem closes_append_congr {text text' : List Char} (same : closes text = closes text')
    (cs : List Char) :
  closes (cs ++ text) = closes (cs ++ text')
  := by
  induction cs with
  | nil => apply same
  | cons c cs ih => rw [List.cons_append, List.cons_append, closes_cons, closes_cons, ih]

/-- An array or object is closed next with spaces where it is without comments. -/
theorem closes_spaced (chunks : List (List Char)) :
  closes (chunks.flatMap spaced) = closes (chunks.flatMap left)
  := by
  induction chunks with
  | nil => rfl
  | cons chunk chunks ih =>
    rw [List.flatMap_cons, List.flatMap_cons]
    by_cases opens : OpensComment chunk
    · rw [spaced_comment opens, List.cons_append, closes_space rfl]
      apply closes_append_congr ih
    · rw [spaced_of_not_opens opens, left_of_not_opens opens]
      apply closes_append_congr ih

/-- Without its trailing commas a text goes on with a number or word where it does with them. -/
theorem separate_removeCommas (text : List Char) :
  Separate (removeCommasFrom .code text) ↔ Separate text
  := by
  constructor
  · intro separate
    cases text with
    | nil => apply separate_nil
    | cons c text =>
      by_cases comma : c = ','
      · subst comma
        apply separate_of_not_isBare rfl
      · rw [removeCommasFrom, if_neg (by simp [comma])] at separate
        rintro d ⟨⟩
        apply separate c rfl
  · intro separate d first
    rw [← Bool.not_eq_true]
    intro bare
    rcases head?_removeCommas first with same | blank | closer
    · rw [separate d same] at bare
      cases bare
    · apply not_isBlank_of_isBare bare blank
    · rw [isCloser_of_isBare bare] at closer
      cases closer

/-! ### Texts with spaces -/

/-- Where no comment joins a character to what comes after it, spaces part it from nothing. -/
theorem separate_spaced {c : Char} {text : List Char} {chunks : List (List Char)}
    (bare : isBare c = true) (scans : Scans text chunks) (apart : ¬ Joins ([c] :: chunks)) :
  Separate (chunks.flatMap left) ↔ Separate (chunks.flatMap spaced)
  := by
  rw [Scans] at scans
  cases scans with
  | last => rfl
  | @part chunk rest _ chunks chunked =>
    by_cases opens : OpensComment chunk
    · have before : Separate ((chunk :: chunks).flatMap left) := by
        intro d first
        rw [← Bool.not_eq_true]
        intro bare'
        apply apart ⟨[], c, chunk, chunks, rfl, bare, opens, d, first, bare'⟩
      have after : Separate ((chunk :: chunks).flatMap spaced) := by
        rw [List.flatMap_cons, spaced_comment opens]
        apply separate_space
      exact iff_of_true before after
    · rw [List.flatMap_cons, List.flatMap_cons, left_of_not_opens opens, spaced_of_not_opens opens,
        Separate, Separate, List.head?_append_of_ne_nil _ chunked.ne_nil,
        List.head?_append_of_ne_nil _ chunked.ne_nil]

theorem widens_feeds {feeds text text' : List Char} (all : ∀ c ∈ feeds, c = '\n')
    (h : Widens (removeCommasFrom .code text) (removeCommasFrom .code text')) :
  Widens (removeCommasFrom .code (feeds ++ text)) (removeCommasFrom .code (feeds ++ text'))
  := by
  induction feeds with
  | nil => apply h
  | cons c feeds ih =>
    rw [List.forall_mem_cons] at all
    obtain ⟨rfl, all⟩ := all
    rw [List.cons_append, List.cons_append, removeCommasFrom_code (by decide) (by decide),
      removeCommasFrom_code (by decide) (by decide)]
    apply Widens.other (by decide) _ (ih all)
    rintro ⟨⟩

/-- Where comments join nothing, spaces in place of them are spaces between tokens. -/
theorem Scans.widens {text : List Char} {chunks : List (List Char)} (h : Scans text chunks)
    (apart : ¬ Joins chunks) :
  Widens (removeTrailingCommas (chunks.flatMap left)) (removeTrailingCommas (chunks.flatMap spaced))
  := by
  unfold removeTrailingCommas
  rw [Scans] at h
  generalize ends : [] = last at h
  induction h with
  | last => apply Widens.nil
  | @part chunk rest last chunks chunked later ih =>
    subst ends
    have rest := ih (mt (fun joins => joins.cons chunk) apart) rfl
    rw [List.flatMap_cons, List.flatMap_cons]
    cases chunked with
    | comment h =>
      have opens := h.opensComment
      rw [spaced_comment opens, List.cons_append, removeCommasFrom_code (by decide) (by decide)]
      apply Widens.space (widens_feeds (fun c => eq_feed_of_mem_left opens) rest)
    | @other c _ quote uncommented =>
      rw [left_singleton, spaced_singleton, List.singleton_append, List.singleton_append,
        removeCommasFrom_other quote, removeCommasFrom_other quote, closes_spaced]
      split
      case isTrue => apply rest
      case isFalse =>
        apply Widens.other quote _ rest
        intro bare
        rw [separate_removeCommas, separate_removeCommas]
        apply separate_spaced bare later apart
    | literal h =>
      rw [h.left, h.spaced]
      cases h with
      | @closed body inside =>
        rw [removeCommasFrom_literal (.closed inside _),
          removeCommasFrom_literal (.closed inside _)]
        simpa using Widens.closed inside rest
      | unclosed inside =>
        obtain rfl := later.nil fun _ _ h => h.ne_nil
        rw [List.flatMap_nil, List.flatMap_nil, removeCommasFrom_literal (.unclosed inside)]
        simpa [removeCommasFrom] using Widens.unclosed inside (.inl rfl)
      | dangling inside =>
        obtain rfl := later.nil fun _ _ h => h.ne_nil
        rw [List.flatMap_nil, List.flatMap_nil, removeCommasFrom_literal (.dangling inside)]
        simpa [removeCommasFrom] using Widens.unclosed inside (.inr rfl)

/-- What comes first without the comments comes after spaces with them. -/
theorem exists_spaces {chunks : List (List Char)} {d : Char}
    (first : d ∈ (chunks.flatMap left).head?) (feed : d ≠ '\n') :
  ∃ spaces rest, chunks.flatMap spaced = spaces ++ d :: rest ∧ ∀ e ∈ spaces, isSpace e = true
  := by
  induction chunks with
  | nil => cases first
  | cons chunk chunks ih =>
    rw [List.flatMap_cons] at first ⊢
    by_cases opens : OpensComment chunk
    · rw [spaced_comment opens]
      cases none : left chunk with
      | nil =>
        rw [none, List.nil_append] at first
        obtain ⟨spaces, rest, split, all⟩ := ih first
        refine ⟨' ' :: spaces, rest, ?_, ?_⟩
        · rw [split]
          rfl
        · rw [List.forall_mem_cons]
          exact ⟨rfl, all⟩
      | cons e feeds =>
        rw [none] at first
        cases first
        cases feed (eq_feed_of_mem_left opens (by rw [none]; exact List.mem_cons_self))
    · rw [left_of_not_opens opens] at first
      rw [spaced_of_not_opens opens]
      cases chunk with
      | nil => apply ih first
      | cons e chunk =>
        cases first
        exact ⟨[], chunk ++ chunks.flatMap spaced, rfl, by simp⟩

theorem removeCommasFrom_blanks {blanks : List Char} (all : ∀ c ∈ blanks, isSpace c = true)
    (text : List Char) :
  removeCommasFrom .code (blanks ++ text) = blanks ++ removeCommasFrom .code text
  := by
  induction blanks with
  | nil => rfl
  | cons c blanks ih =>
    rw [List.forall_mem_cons] at all
    rw [List.cons_append, leaves_removeCommasFrom.space all.1, ih all.2, List.cons_append]

theorem removeCommasFrom_bare {c : Char} (bare : isBare c = true) (text : List Char) :
  removeCommasFrom .code (c :: text) = c :: removeCommasFrom .code text
  := by
  obtain ⟨quote, -, comma⟩ := inert_of_isBare bare
  apply removeCommasFrom_code quote comma

/-- Where a comment joins two characters, a space in place of it tears them apart. -/
theorem torn_of_joined {c d : Char} {comment : List Char} {after : List (List Char)}
    (bare : isBare c = true) (opens : OpensComment comment)
    (first : d ∈ ((comment :: after).flatMap left).head?) (bare' : isBare d = true) :
  Torn (removeCommasFrom .code (([c] :: comment :: after).flatMap spaced))
  := by
  have feed : d ≠ '\n' := by
    rintro rfl
    cases bare'
  obtain ⟨spaces, rest, split, blank⟩ := exists_spaces first feed
  have some : spaces ≠ [] := by
    rintro rfl
    rw [List.flatMap_cons, spaced_comment opens] at split
    cases split
    cases bare'
  rw [List.flatMap_cons, split, spaced_singleton, List.singleton_append, removeCommasFrom_bare bare,
    removeCommasFrom_blanks blank, removeCommasFrom_bare bare']
  apply Torn.gap bare some blank bare'

/-- Where a comment joins two characters, the text with spaces is torn. -/
theorem Scans.torn {text : List Char} {chunks : List (List Char)} (h : Scans text chunks)
    (joins : Joins chunks) :
  Torn (removeTrailingCommas (chunks.flatMap spaced))
  := by
  unfold removeTrailingCommas
  obtain ⟨before, c, comment, after, rfl, bare, opens, d, first, bare'⟩ := joins
  induction before generalizing text with
  | nil => apply torn_of_joined bare opens first bare'
  | cons chunk before ih =>
    rw [Scans, List.cons_append] at h
    cases h with
    | part chunked later =>
      have torn := ih later
      rw [List.cons_append, List.flatMap_cons]
      cases chunked with
      | comment h =>
        have opens := h.opensComment
        have blank : ∀ c ∈ spaced chunk, isSpace c = true := by
          rw [spaced_comment opens, List.forall_mem_cons]
          use rfl
          intro c member
          rw [eq_feed_of_mem_left opens member]
          rfl
        rw [removeCommasFrom_blanks blank]
        apply torn.spaces blank
      | @other c _ quote uncommented =>
        rw [spaced_singleton, List.singleton_append, removeCommasFrom_other quote]
        split
        case isTrue => apply torn
        case isFalse => apply Torn.other quote torn
      | literal h =>
        rw [h.spaced]
        cases h with
        | closed inside =>
          rw [removeCommasFrom_literal (.closed inside _)]
          simpa using Torn.closed inside torn
        | unclosed | dangling =>
          have none := later.nil fun _ _ h => h.ne_nil
          simp at none

/-! ### Configuration files -/

theorem basesDecoder_steady :
  ConfigFile.basesDecoder.Steady
  := by
  intro depth t t' like
  unfold ConfigFile.basesDecoder
  rcases Except.cases_of_toOption_eq (value_steady depth t t' like)
    with ⟨v, read, read'⟩ | ⟨f, f', failed, failed'⟩
  · rw [read, read']
    cases v with
    | array vs =>
      simp only
      cases ConfigFile.strings? vs <;> rfl
    | null | bool | number | string | object => rfl
  · rw [failed, failed']
    rfl

theorem basesDecoder_finishes :
  ConfigFile.basesDecoder.Finishes
  := by
  intro depth t bases read
  unfold ConfigFile.basesDecoder at read
  split at read
  case h_1 => cases read
  all_goals apply value_finishes depth t _ ‹_›

theorem shape_steady :
  ConfigFile.shape.Steady
  := by
  constructor
  case fields =>
    intro field member
    simp only [ConfigFile.shape, List.mem_cons, List.not_mem_nil, or_false] at member
    rcases member with rfl | rfl
    · apply steady_field basesDecoder_steady.optional
    · apply steady_field members_steady.optional
  case other =>
    intro depth name draft t t' like
    apply Except.toOption_bind_congr (skip_steady t t' like)
    intro _
    rfl

theorem shape_finishes :
  ConfigFile.shape.Finishes
  := by
  constructor
  case fields =>
    intro field member depth draft t draft' read
    simp only [ConfigFile.shape, List.mem_cons, List.not_mem_nil, or_false] at member
    rcases member with rfl | rfl
    · apply whole_of_field basesDecoder_finishes.optional read
    · apply whole_of_field members_finishes.optional read
  case other =>
    intro depth name draft t draft' read
    obtain ⟨_, passed, -⟩ := Except.bind_eq_ok_iff.1 read
    apply whole_of_skip t passed

/-- A text is a sequence of strings, comments and other characters in one way.  Where no comment
joins two characters of numbers or words, the text with a space and the line feeds in place of each
comment writes the same configuration, or both write none.  Where one does, the text with spaces is
rejected. -/
theorem comments_separate (text : List Char) :
  ∃ chunks, Scans text chunks ∧ (∀ others, Scans text others → others = chunks)
    ∧ stripComments text = chunks.flatMap left
    ∧ ∀ config,
      ConfigFile.shape.decoder.readText (removeTrailingCommas (chunks.flatMap spaced)) = .ok config
        ↔ ConfigFile.ofText text = .ok config ∧ ¬ Joins chunks
  := by
  obtain ⟨chunks, scans⟩ := exists_scans text
  refine ⟨chunks, scans, fun others scans' => scans'.unique scans, scans.strip, ?_⟩
  intro config
  by_cases joins : Joins chunks
  · have torn := scans.torn joins
    simp only [joins, not_true_eq_false, and_false, iff_false]
    intro read
    apply torn.tokensFrom.1 0 (fluent_of_readText shape_finishes read)
  · have widens := scans.widens joins
    have same := readText_like shape_steady.decoder (widens.tokensFrom.1 0 0)
    rw [ConfigFile.ofText, ConfigFile.plainJson, scans.strip, ← Except.toOption_eq_some_iff,
      ← Except.toOption_eq_some_iff, same]
    simp only [joins, not_false_eq_true, and_true]

/-- A comment in the middle of a word is removed as if it had not been there, and the text with a
space in place of it is rejected. -/
theorem comment_joins :
  ∃ chunks, Scans "\x7b\"compilerOptions\":\x7b\"strict\":fal/**/se\x7d\x7d".toList chunks
    ∧ chunks.flatMap spaced = "\x7b\"compilerOptions\":\x7b\"strict\":fal se\x7d\x7d".toList
    ∧ ConfigFile.ofText "\x7b\"compilerOptions\":\x7b\"strict\":fal/**/se\x7d\x7d".toList
      = .ok ⟨[], .ofList [("strict", .bool false)]⟩
    ∧ (ConfigFile.shape.decoder.readText
      (removeTrailingCommas (chunks.flatMap spaced))).toOption = none
  := by
  have tail : Scans "/**/se\x7d\x7d".toList _ :=
    .cons (.comment (@IsComment.block [] (by decide) _))
      (@Scans.others [] [] .nil "se\x7d\x7d".toList (by simp))
  have option : Scans "\"strict\":fal/**/se\x7d\x7d".toList _ :=
    .cons (.literal (@IsLiteral.closed "strict".toList (inside_of_forall (by simp)) _))
      (@Scans.others _ _ tail ":fal".toList (by simp))
  have scans : Scans "\x7b\"compilerOptions\":\x7b\"strict\":fal/**/se\x7d\x7d".toList _ :=
    @Scans.others _ _ (.cons
      (.literal (@IsLiteral.closed "compilerOptions".toList (inside_of_forall (by simp)) _))
      (@Scans.others _ _ option ":\x7b".toList (by simp))) "\x7b".toList (by simp)
  refine ⟨_, scans, by cbv, by cbv, by cbv⟩

end TypeAssertions.Config
