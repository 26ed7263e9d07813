import TypeAssertions.Json.Decoder
import TypeAssertions.Proofs.Except
import TypeAssertions.Proofs.Json.Parsing
import TypeAssertions.Proofs.Json.Pieces

/-!
# Accepted documents

A document from which a value is read is sound: nothing in it breaks off, and all its literals are
read.  So each token of its text is a lexeme that may come where it stands (`Advance`), and the text
is laid out with these lexemes (`exists_accepted`).
-/

namespace TypeAssertions.Json

/-! ### Sound trees -/

/-- A literal that is read as a string. -/
def Literal.IsName (l : Literal) : Prop := ∃ k, l.read = .ok (.string k)

/-- Nothing in a tree breaks off, and its literals and names are read. -/
inductive Tree.Sound : Tree → Prop
  | literal {l : Literal} {s : Scalar} (read : l.read = .ok s) : Sound (.literal l)
  | array {items : List Tree} (start stop : Nat) (sound : ∀ t ∈ items, Sound t) :
      Sound (.array start items (.closed stop))
  | object {members : List (Key × Tree)} (start stop : Nat)
      (named : ∀ m ∈ members, m.1.name.IsName) (sound : ∀ m ∈ members, Sound m.2) :
      Sound (.object start members (.closed stop))

/-- Nothing in a tree breaks off. -/
inductive Tree.Whole : Tree → Prop
  | literal (l : Literal) : Whole (.literal l)
  | array {items : List Tree} (start stop : Nat) (whole : ∀ t ∈ items, Whole t) :
      Whole (.array start items (.closed stop))
  | object {members : List (Key × Tree)} (start stop : Nat) (whole : ∀ m ∈ members, Whole m.2) :
      Whole (.object start members (.closed stop))

theorem Tree.Sound.whole {t : Tree} (h : t.Sound) :
  t.Whole
  := by
  induction h with
  | literal => apply Tree.Whole.literal
  | array start stop _ ih => apply Tree.Whole.array start stop ih
  | object start stop _ _ ih => apply Tree.Whole.object start stop ih

theorem isName_of_name {l : Literal} {k : String} (read : Decoder.name l = .ok k) :
  l.read = .ok (.string k)
  := by
  rw [Decoder.name] at read
  split at read
  case h_1 s found =>
    obtain rfl := Except.ok.inj read
    apply found
  case h_2 => cases read
  case h_3 => cases read

mutual

theorem sound_of_value (depth : Nat) (t : Tree) {v : Value}
    (read : Decoder.value depth t = .ok v) :
  t.Sound
  := by
  match t with
  | .literal l =>
    rw [Decoder.value] at read
    cases found : l.read with
    | error f =>
      rw [found] at read
      cases read
    | ok s => apply Tree.Sound.literal found
  | .absent f => cases read
  | .array start ts ending =>
    rw [Decoder.value, Except.bind_eq_ok_iff] at read
    obtain ⟨inner, -, read⟩ := read
    rw [Except.bind_eq_ok_iff] at read
    obtain ⟨vs, items, closed⟩ := read
    cases ending with
    | closed stop => apply Tree.Sound.array start stop (sound_of_values inner ts items)
    | broken b => cases closed
  | .object start ms ending =>
    rw [Decoder.value, Except.bind_eq_ok_iff] at read
    obtain ⟨inner, -, read⟩ := read
    rw [Except.bind_eq_ok_iff] at read
    obtain ⟨entries, members, closed⟩ := read
    obtain ⟨named, sound⟩ := sound_of_memberValues inner .empty ms members
    cases ending with
    | closed stop => apply Tree.Sound.object start stop named sound
    | broken b => cases closed

theorem sound_of_values (depth : Nat) (ts : List Tree) {vs : List Value}
    (read : Decoder.values depth ts = .ok vs) :
  ∀ t ∈ ts, t.Sound
  := by
  match ts with
  | [] => simp
  | t :: ts =>
    rw [Decoder.values, Except.bind_eq_ok_iff] at read
    obtain ⟨v, first, read⟩ := read
    rw [Except.bind_eq_ok_iff] at read
    obtain ⟨vs, others, -⟩ := read
    rw [List.forall_mem_cons]
    use sound_of_value depth t first
    apply sound_of_values depth ts others

theorem sound_of_memberValues (depth : Nat) (m : OrderedMap String Value) (ms : List (Key × Tree))
    {entries : OrderedMap String Value} (read : Decoder.memberValues depth m ms = .ok entries) :
  (∀ x ∈ ms, x.1.name.IsName) ∧ ∀ x ∈ ms, x.2.Sound
  := by
  match ms with
  | [] => simp
  | (key, t) :: ms =>
    rw [Decoder.memberValues, Except.bind_eq_ok_iff] at read
    obtain ⟨k, name, read⟩ := read
    rw [Except.bind_eq_ok_iff] at read
    obtain ⟨v, first, read⟩ := read
    obtain ⟨named, sound⟩ := sound_of_memberValues depth (m.insert k v) ms read
    rw [List.forall_mem_cons, List.forall_mem_cons]
    exact ⟨⟨⟨k, isName_of_name name⟩, named⟩, sound_of_value depth t first, sound⟩

end

/-! ### Documents that break off -/

/-- Around a part at which the text breaks off, no document is whole. -/
theorem not_whole_abandon {frames : List Frame} (inside : frames ≠ []) (f : Failure) (t : Tree) :
  ¬ (abandon f t frames).Whole
  := by
  induction frames generalizing t with
  | nil => cases inside rfl
  | cons frame rest ih =>
    cases rest with
    | nil => cases frame <;> (rintro ⟨⟩)
    | cons next rest =>
      cases frame
      all_goals apply ih (List.cons_ne_nil next rest)

theorem not_whole_breakOff (b : Break) (frames : List Frame) :
  ¬ (breakOff b frames).Whole
  := by
  cases frames with
  | nil => rintro ⟨⟩
  | cons frame rest =>
    cases rest with
    | nil => cases frame <;> (rintro ⟨⟩)
    | cons next rest =>
      cases frame
      all_goals apply not_whole_abandon (List.cons_ne_nil next rest)

theorem not_whole_absent (f g : Failure) (frames : List Frame) :
  ¬ (abandon f (.absent g) frames).Whole
  := by
  cases frames with
  | nil => rintro ⟨⟩
  | cons frame rest => apply not_whole_abandon (List.cons_ne_nil frame rest)

theorem not_whole_atEnd (size : Nat) (frames : List Frame) (want : Want) :
  ¬ (want.atEnd size frames).Whole
  := by
  cases want
  case value | item | colon => apply not_whole_absent
  all_goals apply not_whole_breakOff

/-! ### Moves that go on -/

/-- Each open container waits for a value. -/
inductive Awaiting : List Frame → Prop
  | document : Awaiting []
  | array {rest : List Frame} (start : Nat) (items : List Tree) (outer : Awaiting rest) :
      Awaiting (.array start items :: rest)
  | member {rest : List Frame} (start : Nat) (members : List (Key × Tree)) (l : Literal)
      (repeated : Nat) (outer : Awaiting rest) : Awaiting (.member start members l repeated :: rest)

/-- The innermost container is one in which a token is wanted, and those around it wait for it. -/
inductive Want.Fits : Want → List Frame → Prop
  | document : Fits .value []
  | member {want : Want} (may : want = .value ∨ want = .colon) (start : Nat)
      (members : List (Key × Tree)) (l : Literal) (repeated : Nat) {rest : List Frame}
      (outer : Awaiting rest) : Fits want (.member start members l repeated :: rest)
  | array {want : Want} (may : want = .firstItem ∨ want = .item ∨ want = .afterItem) (start : Nat)
      (items : List Tree) {rest : List Frame} (outer : Awaiting rest) :
      Fits want (.array start items :: rest)
  | object {want : Want} (may : want = .firstName ∨ want = .name ∨ want = .afterMember)
      (start : Nat) (members : List (Key × Tree)) {rest : List Frame} (outer : Awaiting rest) :
      Fits want (.object start members :: rest)

/-- The moves of tokens that may come. -/
inductive Advance (size : Nat) (next : List Token) : Want → List Frame → Token → Move → Prop
  | literal {want : Want} (takes : want.Takes) (frames : List Frame) {l : Literal}
      (skipped : l.skip = .ok ()) :
      Advance size next want frames (.literal l) (.complete (.literal l) frames)
  | openArray {want : Want} (takes : want.Takes) (frames : List Frame) (start : Nat) :
      Advance size next want frames (.mark '[' start) (.push (.array start [] :: frames) .firstItem)
  | openObject {want : Want} (takes : want.Takes) (frames : List Frame) (start : Nat) :
      Advance size next want frames (.mark '\x7b' start)
        (.push (.object start [] :: frames) .firstName)
  | closeArray {want : Want} (may : want = .firstItem ∨ want = .afterItem) (start stop : Nat)
      (items : List Tree) (rest : List Frame) :
      Advance size next want (.array start items :: rest) (.mark ']' stop)
        (.complete (.array start items.reverse (.closed (stop + 1))) rest)
  | closeObject {want : Want} (may : want = .firstName ∨ want = .afterMember) (start stop : Nat)
      (members : List (Key × Tree)) (rest : List Frame) :
      Advance size next want (.object start members :: rest) (.mark '\x7d' stop)
        (.complete (.object start members.reverse (.closed (stop + 1))) rest)
  | nextItem (frames : List Frame) (start : Nat) :
      Advance size next .afterItem frames (.mark ',' start) (.push frames .item)
  | nextMember (frames : List Frame) (start : Nat) :
      Advance size next .afterMember frames (.mark ',' start) (.push frames .name)
  | colon (frames : List Frame) (start : Nat) :
      Advance size next .colon frames (.mark ':' start) (.push frames .value)
  | name {want : Want} (may : want = .firstName ∨ want = .name) (start : Nat)
      (members : List (Key × Tree)) (rest : List Frame) {l : Literal} (quoted : l.quoted = true)
      (skipped : l.skip = .ok ()) :
      Advance size next want (.object start members :: rest) (.literal l)
        (.push (.member start members l (repeatedAt size next) :: rest) .colon)

variable {size : Nat} {next : List Token} {want : Want} {frames : List Frame} {token : Token}

/-- A move stops the document in a way that no whole document has, unless the token is the whole
document. -/
def Halts (frames : List Frame) (token : Token) (move : Move) : Prop :=
  ∃ t, move = .stop t
    ∧ (t.Whole → frames = [] ∧ ∃ l, token = .literal l ∧ t = .literal l ∧ l.skip ≠ .ok ())

theorem halts_of_not_whole {t : Tree} (broken : ¬ t.Whole) :
  Halts frames token (.stop t)
  := by
  use t, rfl
  intro whole
  cases broken whole

/-- Where a value may come, a token is a literal or opens a container, or it stops the document. -/
theorem advance_of_valueMove (takes : want.Takes) (frames : List Frame) (token : Token) :
  Advance size next want frames token (valueMove frames token)
    ∨ Halts frames token (valueMove frames token)
  := by
  cases token with
  | literal l =>
    simp only [valueMove]
    cases skipped : l.skip with
    | ok =>
      left
      apply Advance.literal takes frames skipped
    | error f =>
      right
      use abandon f (.literal l) frames, rfl
      intro whole
      cases frames with
      | nil => exact ⟨rfl, l, rfl, rfl, by simp [skipped]⟩
      | cons frame rest => cases not_whole_abandon (List.cons_ne_nil frame rest) _ _ whole
  | mark c start =>
    by_cases bracket : c = '['
    · subst bracket
      left
      apply Advance.openArray takes
    · by_cases brace : c = '\x7b'
      · subst brace
        left
        apply Advance.openObject takes
      · right
        rw [valueMove]
        · apply halts_of_not_whole
          apply not_whole_absent
        · rintro ⟨⟩
          apply bracket rfl
        · rintro ⟨⟩
          apply brace rfl

theorem advance_of_nameMove (may : want = .firstName ∨ want = .name) (frames : List Frame)
    (token : Token) (otherwise : Break) :
  Advance size next want frames token (nameMove size frames token next otherwise)
    ∨ Halts frames token (nameMove size frames token next otherwise)
  := by
  unfold nameMove
  split
  case h_1 l start members rest =>
    split
    case isTrue quoted =>
      simp only
      split
      case h_1 skipped =>
        left
        apply Advance.name may start members rest quoted skipped
      case h_2 f skipped =>
        right
        apply halts_of_not_whole
        apply not_whole_absent
    case isFalse =>
      right
      apply halts_of_not_whole
      apply not_whole_breakOff
  case h_2 =>
    right
    apply halts_of_not_whole
    apply not_whole_breakOff

/-- A token that may not come stops the document. -/
theorem advance_of_move (fits : want.Fits frames) (size : Nat) (next : List Token) (token : Token) :
  Advance size next want frames token (want.move size frames token next)
    ∨ Halts frames token (want.move size frames token next)
  := by
  cases fits with
  | document => apply advance_of_valueMove (.inl rfl)
  | member may =>
    rcases may with rfl | rfl
    · apply advance_of_valueMove (.inl rfl)
    · simp only [Want.move]
      split
      · left
        apply Advance.colon
      · right
        apply halts_of_not_whole
        apply not_whole_absent
  | array may =>
    rcases may with rfl | rfl | rfl
    all_goals
      simp only [Want.move]
      split
    · left
      apply Advance.closeArray (.inl rfl)
    · apply advance_of_valueMove (.inr (.inl rfl))
    · right
      apply halts_of_not_whole
      apply not_whole_breakOff
    · apply advance_of_valueMove (.inr (.inr rfl))
    · left
      apply Advance.nextItem
    · left
      apply Advance.closeArray (.inr rfl)
    · right
      apply halts_of_not_whole
      apply not_whole_breakOff
  | object may =>
    rcases may with rfl | rfl | rfl
    all_goals
      simp only [Want.move]
      split
    · left
      apply Advance.closeObject (.inl rfl)
    · apply advance_of_nameMove (.inl rfl)
    · right
      apply halts_of_not_whole
      apply not_whole_breakOff
    · apply advance_of_nameMove (.inr rfl)
    · left
      apply Advance.nextMember
    · left
      apply Advance.closeObject (.inr rfl)
    · right
      apply halts_of_not_whole
      apply not_whole_breakOff

/-- The move of a token that may come is determined. -/
theorem Advance.move {m : Move} (h : Advance size next want frames token m) :
  want.move size frames token next = m
  := by
  cases h with
  | literal takes _ skipped =>
    rw [takes.move (by rintro _ ⟨⟩), valueMove, skipped]
  | openArray takes =>
    rw [takes.move (by rintro _ ⟨⟩)]
    rfl
  | openObject takes =>
    rw [takes.move (by rintro _ ⟨⟩)]
    rfl
  | closeArray may => rcases may with rfl | rfl <;> rfl
  | closeObject may => rcases may with rfl | rfl <;> rfl
  | nextItem => rfl
  | nextMember => rfl
  | colon => rfl
  | name may start members rest quoted skipped =>
    rcases may with rfl | rfl
    all_goals simp [Want.move, nameMove, quoted, skipped]

theorem Want.Fits.awaiting (fits : want.Fits frames) (takes : want.Takes) :
  Awaiting frames
  := by
  cases fits with
  | document => apply Awaiting.document
  | member _ _ _ _ _ outer => apply Awaiting.member _ _ _ _ outer
  | array _ _ _ outer => apply Awaiting.array _ _ outer
  | object may =>
    rcases may with rfl | rfl | rfl
    all_goals simp [Want.Takes] at takes

/-- After a token that may come, the document goes on as it fits. -/
theorem Advance.fits {want' : Want} {frames' : List Frame}
    (h : Advance size next want frames token (.push frames' want')) (fits : want.Fits frames) :
  want'.Fits frames'
  := by
  cases h with
  | openArray takes => apply Want.Fits.array (.inl rfl) _ _ (fits.awaiting takes)
  | openObject takes => apply Want.Fits.object (.inl rfl) _ _ (fits.awaiting takes)
  | nextItem =>
    cases fits with
    | array _ _ _ outer => apply Want.Fits.array (.inr (.inl rfl)) _ _ outer
    | member may => simp at may
    | object may => simp at may
  | nextMember =>
    cases fits with
    | object _ _ _ outer => apply Want.Fits.object (.inr (.inl rfl)) _ _ outer
    | member may => simp at may
    | array may => simp at may
  | colon =>
    cases fits with
    | member _ _ _ _ _ outer => apply Want.Fits.member (.inl rfl) _ _ _ _ outer
    | array may => simp at may
    | object may => simp at may
  | name =>
    cases fits with
    | object _ _ _ outer => apply Want.Fits.member (.inr rfl) _ _ _ _ outer

theorem Advance.awaiting {t : Tree} {frames' : List Frame}
    (h : Advance size next want frames token (.complete t frames')) (fits : want.Fits frames) :
  Awaiting frames'
  := by
  cases h with
  | literal takes => apply fits.awaiting takes
  | closeArray =>
    cases fits with
    | array _ _ _ outer => apply outer
  | closeObject =>
    cases fits with
    | object _ _ _ outer => apply outer

/-! ### Sound documents -/

/-- The members of an object are sound, and their names are read. -/
def SoundMembers (members : List (Key × Tree)) : Prop :=
  (∀ m ∈ members, m.1.name.IsName) ∧ ∀ m ∈ members, m.2.Sound

/-- What an open container holds is sound. -/
def Frame.Sound : Frame → Prop
  | .array _ items => ∀ t ∈ items, t.Sound
  | .object _ members => SoundMembers members
  | .member _ members l _ => SoundMembers members ∧ l.IsName

variable {ts rest : List Token} {T t : Tree}

theorem assemble_push {want' : Want} {frames' : List Frame}
    (h : Advance size ts want frames token (.push frames' want')) :
  assemble size frames want (token :: ts) = assemble size frames' want' ts
  := by
  rw [assemble, h.move]

theorem assemble_complete {frames' : List Frame}
    (h : Advance size ts want frames token (.complete t frames')) :
  assemble size frames want (token :: ts) = settle size ts t frames'
  := by
  rw [assemble, h.move]
  rfl

/-- A value in containers that wait for it is the whole document or goes into the innermost one. -/
theorem settle_cases (awaiting : Awaiting frames) (size : Nat) (ts : List Token) (t : Tree) :
  frames = [] ∧ settle size ts t frames = (t, ts)
    ∨ (∃ start items outer, frames = .array start items :: outer ∧ Awaiting outer
      ∧ settle size ts t frames
        = assemble size (.array start (t :: items) :: outer) .afterItem ts)
    ∨ ∃ start members l repeated single outer, frames = .member start members l repeated :: outer
      ∧ Awaiting outer
      ∧ settle size ts t frames
        = assemble size (.object start ((⟨l, repeated, single⟩, t) :: members) :: outer)
          .afterMember ts
  := by
  cases awaiting with
  | document => exact .inl ⟨rfl, rfl⟩
  | array start items outer => exact .inr (.inl ⟨start, items, _, rfl, outer, rfl⟩)
  | member start members l repeated outer =>
    exact .inr (.inr ⟨start, members, l, repeated, _, _, rfl, outer, rfl⟩)

/-- Around a value of a sound document everything is sound. -/
theorem sound_of_settle
    (ih : ∀ {frames want}, want.Fits frames → assemble size frames want ts = (T, rest) →
      ∀ frame ∈ frames, frame.Sound)
    (awaiting : Awaiting frames) (settled : settle size ts t frames = (T, rest)) (sound : T.Sound) :
  t.Sound ∧ ∀ frame ∈ frames, frame.Sound
  := by
  rcases settle_cases awaiting size ts t with ⟨rfl, whole⟩
    | ⟨start, items, outer, rfl, open', goes_on⟩
    | ⟨start, members, l, repeated, single, outer, rfl, open', goes_on⟩
  · rw [whole] at settled
    obtain ⟨rfl, -⟩ := Prod.mk.inj settled
    simp [sound]
  · rw [goes_on] at settled
    have inner := ih (.array (.inr (.inr rfl)) _ _ open') settled
    simp only [List.forall_mem_cons, Frame.Sound] at inner ⊢
    exact ⟨inner.1.1, inner.1.2, inner.2⟩
  · rw [goes_on] at settled
    have inner := ih (.object (.inr (.inr rfl)) _ _ open') settled
    simp only [List.forall_mem_cons, Frame.Sound, SoundMembers] at inner ⊢
    obtain ⟨⟨⟨name, named⟩, value, values⟩, around⟩ := inner
    exact ⟨value, ⟨⟨named, values⟩, name⟩, around⟩

theorem sound_of_push {want' : Want} {frames' : List Frame}
    (h : Advance size ts want frames token (.push frames' want'))
    (inner : ∀ frame ∈ frames', frame.Sound) :
  ∀ frame ∈ frames, frame.Sound
  := by
  cases h with
  | openArray => apply (List.forall_mem_cons.1 inner).2
  | openObject => apply (List.forall_mem_cons.1 inner).2
  | nextItem => apply inner
  | nextMember => apply inner
  | colon => apply inner
  | name =>
    obtain ⟨⟨members, -⟩, around⟩ := List.forall_mem_cons.1 inner
    rw [List.forall_mem_cons]
    exact ⟨members, around⟩

theorem sound_of_complete {frames' : List Frame}
    (h : Advance size ts want frames token (.complete t frames')) (value : t.Sound)
    (around : ∀ frame ∈ frames', frame.Sound) :
  ∀ frame ∈ frames, frame.Sound
  := by
  cases h with
  | literal => apply around
  | closeArray =>
    cases value with
    | array _ _ items =>
      rw [List.forall_mem_cons]
      refine ⟨?_, around⟩
      intro t member
      apply items t (List.mem_reverse.2 member)
  | closeObject =>
    cases value with
    | object _ _ named values =>
      rw [List.forall_mem_cons]
      refine ⟨⟨?_, ?_⟩, around⟩
      · intro m member
        apply named m (List.mem_reverse.2 member)
      · intro m member
        apply values m (List.mem_reverse.2 member)

/-- What is open in a sound document is sound. -/
theorem sound_of_assemble (fits : want.Fits frames)
    (assembled : assemble size frames want ts = (T, rest)) (sound : T.Sound) :
  ∀ frame ∈ frames, frame.Sound
  := by
  induction ts generalizing frames want with
  | nil =>
    obtain ⟨rfl, -⟩ := Prod.mk.inj assembled
    cases not_whole_atEnd size frames want sound.whole
  | cons token ts ih =>
    rcases advance_of_move fits size ts token with advance | ⟨t, move, stopped⟩
    · generalize want.move size frames token ts = m at advance
      cases m with
      | push frames' want' =>
        rw [assemble_push advance] at assembled
        apply sound_of_push advance (ih (advance.fits fits) assembled)
      | complete t frames' =>
        rw [assemble_complete advance] at assembled
        obtain ⟨value, around⟩ := sound_of_settle ih (advance.awaiting fits) assembled sound
        apply sound_of_complete advance value around
      | stop t => cases advance
    · rw [assemble, move] at assembled
      obtain ⟨rfl, -⟩ := Prod.mk.inj assembled
      obtain ⟨rfl, -⟩ := stopped sound.whole
      simp

/-! ### Lexemes of accepted documents -/

/-- Only a mark comes after a scalar, and no bracket or brace closes after a comma. -/
def Lexeme.Follows (l next : Lexeme) : Prop :=
  ((∃ s, l = .scalar s) → ∃ c, next = .mark c)
    ∧ (l = .mark ',' → next ≠ .mark ']' ∧ next ≠ .mark '\x7d')

/-- A lexeme comes where it may in a document. -/
def Want.Expects (want : Want) (l : Lexeme) : Prop :=
  (want = .afterItem ∨ want = .colon ∨ want = .afterMember → ∃ c, l = .mark c)
    ∧ (want = .item ∨ want = .name → l ≠ .mark ']' ∧ l ≠ .mark '\x7d')

/-- A text is laid out with the lexemes of its tokens, and each lexeme may follow the one before
it. -/
structure Accepted (ts : List Token) (text : List Char) (ls : List Lexeme) : Prop where
  laid : LaidPlain ls text
  tokens : List.Forall₂ Lexeme.IsToken ls ts
  follows : ls.IsChain Lexeme.Follows

variable {text : List Char} {ls : List Lexeme}

theorem laid_of_cuts_nil (cuts : Cuts [] text) :
  LaidPlain [] text
  := by
  generalize none_left : ([] : List Token) = ts at cuts
  induction cuts with
  | done => apply LaidPlain.nil
  | space blank _ ih => apply (ih none_left).space blank
  | mark => cases none_left
  | literal => cases none_left
  | failed fails =>
    obtain ⟨l, f, rest, split, -⟩ := fails
    rw [← none_left] at split
    cases split

/-- After a value, either the document is over or a mark comes. -/
theorem accepted_of_settle (cuts : Cuts ts text)
    (ih : ∀ {frames want}, want.Fits frames → assemble size frames want ts = (T, []) →
      ∃ ls, Accepted ts text ls ∧ ∀ l ∈ ls.head?, want.Expects l)
    (awaiting : Awaiting frames) (settled : settle size ts t frames = (T, [])) :
  ∃ ls, Accepted ts text ls ∧ ∀ l ∈ ls.head?, ∃ c, l = .mark c
  := by
  rcases settle_cases awaiting size ts t with ⟨rfl, whole⟩
    | ⟨start, items, outer, rfl, around, goes_on⟩
    | ⟨start, members, l, repeated, single, outer, rfl, around, goes_on⟩
  · rw [whole] at settled
    obtain ⟨-, rfl⟩ := Prod.mk.inj settled
    refine ⟨[], ⟨laid_of_cuts_nil cuts, .nil, .nil⟩, ?_⟩
    rintro l ⟨⟩
  · rw [goes_on] at settled
    obtain ⟨ls, accepted, expects⟩ := ih (.array (.inr (.inr rfl)) _ _ around) settled
    use ls, accepted
    intro l head
    apply (expects l head).1 (.inl rfl)
  · rw [goes_on] at settled
    obtain ⟨ls, accepted, expects⟩ := ih (.object (.inr (.inr rfl)) _ _ around) settled
    use ls, accepted
    intro l head
    apply (expects l head).1 (.inr (.inr rfl))

theorem Accepted.mark {c : Char} (member : c ∈ marks) (accepted : Accepted ts text ls)
    (opens : c = ',' → ∀ l ∈ ls.head?, l ≠ .mark ']' ∧ l ≠ .mark '\x7d') (start : Nat) :
  Accepted (.mark c start :: ts) (c :: text) (.mark c :: ls)
  := by
  constructor
  case laid => apply Laid.mark member accepted.laid
  case tokens => apply List.Forall₂.cons (.mark c start) accepted.tokens
  case follows =>
    rw [List.isChain_cons]
    refine ⟨?_, accepted.follows⟩
    intro l head
    constructor
    · rintro ⟨s, ⟨⟩⟩
    · rintro ⟨⟩
      apply opens rfl l head

theorem Accepted.literal {p : List Char} {s : Scalar} (piece : IsPiece p) (spells : Spells p s)
    (accepted : Accepted ts text ls) (marked : ∀ l ∈ ls.head?, ∃ c, l = .mark c)
    (start stop : Nat) :
  Accepted (.literal ⟨start, stop, s.quoted, .ok s, .ok ()⟩ :: ts) (p ++ text) (.scalar s :: ls)
  := by
  constructor
  case laid => apply Laid.literal piece spells accepted.laid
  case tokens => apply List.Forall₂.cons (.scalar s start stop) accepted.tokens
  case follows =>
    rw [List.isChain_cons]
    refine ⟨?_, accepted.follows⟩
    intro l head
    constructor
    · intro _
      apply marked l head
    · rintro ⟨⟩

theorem Want.expects_mark {c : Char} (h : want = .item ∨ want = .name → c ≠ ']' ∧ c ≠ '\x7d') :
  want.Expects (.mark c)
  := by
  constructor
  · intro _
    use c
  · intro after
    simpa using h after

theorem Want.expects_scalar (s : Scalar) (h : want.Takes ∨ want = .firstName ∨ want = .name) :
  want.Expects (.scalar s)
  := by
  constructor
  · rintro (rfl | rfl | rfl)
    all_goals simp [Want.Takes] at h
  · simp

/-- The tokens of a sound document are lexemes that may follow each other, and its text is laid out
with them. -/
theorem exists_accepted (cuts : Cuts ts text) (fits : want.Fits frames)
    (assembled : assemble size frames want ts = (T, [])) (sound : T.Sound) :
  ∃ ls, Accepted ts text ls ∧ ∀ l ∈ ls.head?, want.Expects l
  := by
  induction cuts generalizing frames want with
  | done =>
    obtain ⟨rfl, -⟩ := Prod.mk.inj assembled
    cases not_whole_atEnd size frames want sound.whole
  | space blank _ ih =>
    obtain ⟨ls, accepted, expects⟩ := ih fits assembled
    exact ⟨ls, ⟨accepted.laid.space blank, accepted.tokens, accepted.follows⟩, expects⟩
  | @mark ts text c start rest ih =>
    rcases advance_of_move fits size ts (.mark c start) with advance | ⟨t, move, stopped⟩
    · generalize want.move size frames (.mark c start) ts = m at advance
      cases m with
      | push frames' want' =>
        rw [assemble_push advance] at assembled
        obtain ⟨ls, accepted, expects⟩ := ih (advance.fits fits) assembled
        use .mark c :: ls
        have opens : c = ',' → ∀ l ∈ ls.head?, l ≠ .mark ']' ∧ l ≠ .mark '\x7d' := by
          rintro rfl l head
          cases advance with
          | nextItem => apply (expects l head).2 (.inl rfl)
          | nextMember => apply (expects l head).2 (.inr rfl)
        have member : c ∈ marks := by
          cases advance <;> decide
        refine ⟨accepted.mark member opens start, ?_⟩
        rintro l ⟨⟩
        apply Want.expects_mark
        intro _
        cases advance <;> decide
      | complete t frames' =>
        rw [assemble_complete advance] at assembled
        obtain ⟨ls, accepted, -⟩ := accepted_of_settle rest ih (advance.awaiting fits) assembled
        use .mark c :: ls
        have closer : c ∈ marks ∧ c ≠ ',' := by
          cases advance <;> decide
        refine ⟨accepted.mark closer.1 (fun comma => absurd comma closer.2) start, ?_⟩
        rintro l ⟨⟩
        apply Want.expects_mark
        rintro (rfl | rfl)
        all_goals
          cases advance with
          | closeArray may => simp at may
          | closeObject may => simp at may
      | stop t => cases advance
    · rw [assemble, move] at assembled
      obtain ⟨rfl, -⟩ := Prod.mk.inj assembled
      obtain ⟨-, l, mark, -⟩ := stopped sound.whole
      cases mark
  | @literal ts p text s start stop piece spells rest ih =>
    rcases advance_of_move fits size ts (.literal ⟨start, stop, s.quoted, .ok s, .ok ()⟩) with
      advance | ⟨t, move, stopped⟩
    · generalize want.move size frames (.literal ⟨start, stop, s.quoted, .ok s, .ok ()⟩) ts = m
        at advance
      cases m with
      | push frames' want' =>
        rw [assemble_push advance] at assembled
        obtain ⟨ls, accepted, expects⟩ := ih (advance.fits fits) assembled
        cases advance with
        | name may =>
          have marked : ∀ l ∈ ls.head?, ∃ c, l = .mark c := by
            intro l head
            apply (expects l head).1 (.inr (.inl rfl))
          refine ⟨.scalar s :: ls, accepted.literal piece spells marked start stop, ?_⟩
          rintro l ⟨⟩
          apply Want.expects_scalar s (.inr may)
      | complete t frames' =>
        rw [assemble_complete advance] at assembled
        obtain ⟨ls, accepted, marked⟩ :=
          accepted_of_settle rest ih (advance.awaiting fits) assembled
        refine ⟨.scalar s :: ls, accepted.literal piece spells marked start stop, ?_⟩
        rintro l ⟨⟩
        cases advance with
        | literal takes => apply Want.expects_scalar s (.inl takes)
      | stop t => cases advance
    · rw [assemble, move] at assembled
      obtain ⟨rfl, -⟩ := Prod.mk.inj assembled
      obtain ⟨-, l, same, -, unskipped⟩ := stopped sound.whole
      cases same
      cases unskipped rfl
  | @failed ts text fails =>
    -- the literal is part of the document, so it cannot be sound
    obtain ⟨l, f, rest, rfl, unread⟩ := fails
    have unsound : ∀ s, l.read ≠ .ok s := by
      rw [unread]
      rintro s ⟨⟩
    rcases advance_of_move fits size rest (.literal l) with advance | ⟨t, move, stopped⟩
    · generalize want.move size frames (.literal l) rest = m at advance
      cases m with
      | push frames' want' =>
        rw [assemble_push advance] at assembled
        have inner := sound_of_assemble (advance.fits fits) assembled sound
        cases advance with
        | name =>
          obtain ⟨⟨-, k, read⟩, -⟩ := List.forall_mem_cons.1 inner
          cases unsound _ read
      | complete t frames' =>
        rw [assemble_complete advance] at assembled
        obtain ⟨value, -⟩ := sound_of_settle
          (fun fits assembled => sound_of_assemble fits assembled sound)
          (advance.awaiting fits) assembled sound
        cases advance with
        | literal =>
          cases value with
          | literal read => cases unsound _ read
      | stop t => cases advance
    · rw [assemble, move] at assembled
      obtain ⟨rfl, -⟩ := Prod.mk.inj assembled
      obtain ⟨-, l, ⟨⟩, rfl, -⟩ := stopped sound.whole
      cases sound with
      | literal read => cases unsound _ read

end TypeAssertions.Json
