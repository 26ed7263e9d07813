import Mathlib.Data.List.Forall2
import TypeAssertions.Json.Decoder
import TypeAssertions.Proofs.Except

/-!
# Alike readings

What is read from a text depends on its tokens, and not on where they stand nor on what a failure
says.  Tokens are alike when they are the same mark, or literals with the same readings, or both
without one (`Token.Like`).  Alike tokens make alike trees, also where the text breaks off
(`assemble_like`), and from alike trees the same data are read, or none from both
(`readText_like`).
-/

namespace TypeAssertions.Json

/-! ### Alike trees -/

/-- Literals have the same value, or none, and both can be passed over, or none of them. -/
structure Literal.Like (l l' : Literal) : Prop where
  quoted : l.quoted = l'.quoted
  read : l.read.toOption = l'.read.toOption
  skip : l.skip.toOption = l'.skip.toOption

/-- Tokens are the same mark or alike literals. -/
inductive Token.Like : Token → Token → Prop
  | literal {l l' : Literal} (h : l.Like l') : Like (.literal l) (.literal l')
  | mark (c : Char) (start start' : Nat) : Like (.mark c start) (.mark c start')

/-- Containers are both closed or both broken off. -/
inductive Ending.Like : Ending → Ending → Prop
  | closed (stop stop' : Nat) : Like (.closed stop) (.closed stop')
  | broken (b b' : Break) : Like (.broken b) (.broken b')

/-- Documents have alike literals and names in the same containers, and break off at the same
places. -/
inductive Tree.Like : Tree → Tree → Prop
  | literal {l l' : Literal} (h : l.Like l') : Like (.literal l) (.literal l')
  | array (start start' : Nat) {ts ts' : List Tree} {ending ending' : Ending}
      (items : List.Forall₂ Like ts ts') (ends : ending.Like ending') :
      Like (.array start ts ending) (.array start' ts' ending')
  | object (start start' : Nat) {ms ms' : List (Key × Tree)} {ending ending' : Ending}
      (names : List.Forall₂ (fun m m' => m.1.name.Like m'.1.name) ms ms')
      (values : List.Forall₂ (fun m m' => Like m.2 m'.2) ms ms') (ends : ending.Like ending') :
      Like (.object start ms ending) (.object start' ms' ending')
  | absent (f f' : Failure) : Like (.absent f) (.absent f')

/-- Open containers have alike literals and names. -/
inductive Frame.Like : Frame → Frame → Prop
  | array (start start' : Nat) {ts ts' : List Tree} (items : List.Forall₂ Tree.Like ts ts') :
      Like (.array start ts) (.array start' ts')
  | object (start start' : Nat) {ms ms' : List (Key × Tree)}
      (names : List.Forall₂ (fun m m' => m.1.name.Like m'.1.name) ms ms')
      (values : List.Forall₂ (fun m m' => m.2.Like m'.2) ms ms') :
      Like (.object start ms) (.object start' ms')
  | member (start start' repeated repeated' : Nat) {ms ms' : List (Key × Tree)} {l l' : Literal}
      (names : List.Forall₂ (fun m m' => m.1.name.Like m'.1.name) ms ms')
      (values : List.Forall₂ (fun m m' => m.2.Like m'.2) ms ms') (name : l.Like l') :
      Like (.member start ms l repeated) (.member start' ms' l' repeated')

/-- Moves go on, or stop, alike. -/
inductive Move.Like : Move → Move → Prop
  | push {frames frames' : List Frame} (around : List.Forall₂ Frame.Like frames frames')
      (want : Want) : Like (.push frames want) (.push frames' want)
  | complete {t t' : Tree} {frames frames' : List Frame} (value : t.Like t')
      (around : List.Forall₂ Frame.Like frames frames') :
      Like (.complete t frames) (.complete t' frames')
  | stop {t t' : Tree} (tree : t.Like t') : Like (.stop t) (.stop t')

variable {frames frames' : List Frame} {t t' : Tree} {token token' : Token}
  {next next' : List Token} {size size' : Nat}

/-! ### Alike documents that break off -/

theorem abandon_like (around : List.Forall₂ Frame.Like frames frames') (tree : t.Like t')
    (f f' : Failure) :
  (abandon f t frames).Like (abandon f' t' frames')
  := by
  induction around generalizing t t' with
  | nil => apply tree
  | cons frame _ ih =>
    cases frame with
    | array start start' items =>
      apply ih
      apply Tree.Like.array start start' _ (.broken _ _)
      apply List.rel_append (List.forall₂_reverse_iff.2 items) (.cons tree .nil)
    | object start start' names values =>
      apply ih
      apply Tree.Like.object start start' (List.forall₂_reverse_iff.2 names)
        (List.forall₂_reverse_iff.2 values) (.broken _ _)
    | member start start' repeated repeated' names values name =>
      apply ih
      apply Tree.Like.object start start' _ _ (.broken _ _)
      · apply List.rel_append (List.forall₂_reverse_iff.2 names) (.cons name .nil)
      · apply List.rel_append (List.forall₂_reverse_iff.2 values) (.cons tree .nil)

theorem breakOff_like (around : List.Forall₂ Frame.Like frames frames') (b b' : Break) :
  (breakOff b frames).Like (breakOff b' frames')
  := by
  cases around with
  | nil => apply Tree.Like.absent
  | cons frame rest =>
    cases frame with
    | array start start' items =>
      apply abandon_like rest
      apply Tree.Like.array start start' (List.forall₂_reverse_iff.2 items) (.broken _ _)
    | object start start' names values | member start start' _ _ names values =>
      apply abandon_like rest
      apply Tree.Like.object start start' (List.forall₂_reverse_iff.2 names)
        (List.forall₂_reverse_iff.2 values) (.broken _ _)

theorem atEnd_like (around : List.Forall₂ Frame.Like frames frames') (want : Want)
    (size size' : Nat) :
  (want.atEnd size frames).Like (want.atEnd size' frames')
  := by
  cases want
  case value | item | colon => apply abandon_like around (.absent _ _)
  all_goals apply breakOff_like around

/-! ### Alike moves -/

theorem valueMove_like (around : List.Forall₂ Frame.Like frames frames')
    (same : token.Like token') :
  (valueMove frames token).Like (valueMove frames' token')
  := by
  cases same with
  | literal h =>
    rcases Except.cases_of_toOption_eq h.skip with ⟨⟨⟩, passed, passed'⟩ | ⟨f, f', failed, failed'⟩
    · simp only [valueMove, passed, passed']
      apply Move.Like.complete (.literal h) around
    · simp only [valueMove, failed, failed']
      apply Move.Like.stop (abandon_like around (.literal h) _ _)
  | mark c start start' =>
    by_cases bracket : c = '['
    · subst bracket
      apply Move.Like.push (.cons (.array start start' .nil) around)
    · by_cases brace : c = '\x7b'
      · subst brace
        apply Move.Like.push (.cons (.object start start' .nil .nil) around)
      · rw [valueMove, valueMove]
        · apply Move.Like.stop (abandon_like around (.absent _ _) _ _)
        all_goals
          rintro ⟨⟩
          first
            | apply bracket rfl
            | apply brace rfl

theorem closeMove_like (around : List.Forall₂ Frame.Like frames frames') (stop stop' : Nat) :
  (closeMove stop frames).Like (closeMove stop' frames')
  := by
  cases around with
  | nil => apply Move.Like.stop (.absent _ _)
  | cons frame rest =>
    cases frame with
    | array start start' items =>
      apply Move.Like.complete _ rest
      apply Tree.Like.array start start' (List.forall₂_reverse_iff.2 items) (.closed _ _)
    | object start start' names values | member start start' _ _ names values =>
      apply Move.Like.complete _ rest
      apply Tree.Like.object start start' (List.forall₂_reverse_iff.2 names)
        (List.forall₂_reverse_iff.2 values) (.closed _ _)

theorem nameMove_like (around : List.Forall₂ Frame.Like frames frames') (same : token.Like token')
    (b b' : Break) :
  (nameMove size frames token next b).Like (nameMove size' frames' token' next' b')
  := by
  have otherwise : (Move.stop (breakOff b frames)).Like (.stop (breakOff b' frames')) :=
    .stop (breakOff_like around b b')
  cases same with
  | mark => simpa [nameMove] using otherwise
  | @literal l l' h =>
    cases around with
    | nil => apply otherwise
    | cons frame rest =>
      cases frame with
      | array | member => apply otherwise
      | object start start' names values =>
        simp only [nameMove, h.quoted]
        split
        case isFalse => apply otherwise
        case isTrue =>
          have member (repeated repeated' : Nat) :=
            Frame.Like.member start start' repeated repeated' names values h
          rcases Except.cases_of_toOption_eq h.skip
            with ⟨⟨⟩, passed, passed'⟩ | ⟨f, f', failed, failed'⟩
          · simp only [passed, passed']
            apply Move.Like.push (.cons (member _ _) rest)
          · simp only [failed, failed']
            apply Move.Like.stop (abandon_like (.cons (member _ _) rest) (.absent _ _) _ _)

/-- The move for one mark, and the move for any other token. -/
def onMark (c : Char) (token : Token) (marked : Nat → Move) (other : Move) : Move :=
  match token with
  | .mark d start => if d = c then marked start else other
  | .literal _ => other

theorem onMark_of_ne {c : Char} (none : ∀ start, token ≠ .mark c start) (marked : Nat → Move)
    (other : Move) :
  onMark c token marked other = other
  := by
  cases token with
  | literal => rfl
  | mark d start =>
    rw [onMark, if_neg]
    rintro rfl
    apply none start rfl

theorem onMark_like (same : token.Like token') (c : Char) {marked marked' : Nat → Move}
    {other other' : Move} (there : ∀ start start', (marked start).Like (marked' start'))
    (otherwise : other.Like other') :
  (onMark c token marked other).Like (onMark c token' marked' other')
  := by
  cases same with
  | literal => apply otherwise
  | mark d start start' =>
    simp only [onMark]
    split
    case isTrue => apply there
    case isFalse => apply otherwise

/-- A token is looked at for the marks that may come. -/
theorem Want.move_eq (want : Want) (size : Nat) (frames : List Frame) (token : Token)
    (next : List Token) :
  want.move size frames token next
    = match want with
      | .value => valueMove frames token
      | .firstItem =>
        onMark ']' token (fun start => closeMove (start + 1) frames) (valueMove frames token)
      | .item =>
        onMark ']' token
          (fun _ => .stop (breakOff (breakAt token .trailingComma .expectedValue .trailingComma)
            frames))
          (valueMove frames token)
      | .afterItem =>
        onMark ',' token (fun _ => .push frames .item)
          (onMark ']' token (fun start => closeMove (start + 1) frames)
            (.stop (breakOff
              (breakAt token .expectedListEnd .expectedListEnd .trailingCharacters) frames)))
      | .firstName =>
        onMark '\x7d' token (fun start => closeMove (start + 1) frames)
          (nameMove size frames token next
            (breakAt token .keyNotString .keyNotString .trailingCharacters))
      | .name =>
        onMark '\x7d' token
          (fun _ => .stop (breakOff (breakAt token .trailingComma .keyNotString .trailingComma)
            frames))
          (nameMove size frames token next
            (breakAt token .keyNotString .keyNotString .trailingCharacters))
      | .colon =>
        onMark ':' token (fun _ => .push frames .value)
          (.stop (abandon ⟨.expectedColon, token.start + 1⟩
            (.absent ⟨.expectedColon, token.start + 1⟩) frames))
      | .afterMember =>
        onMark ',' token (fun _ => .push frames .name)
          (onMark '\x7d' token (fun start => closeMove (start + 1) frames)
            (.stop (breakOff
              (breakAt token .expectedObjectEnd .expectedObjectEnd .trailingCharacters) frames)))
  := by
  cases want with
  | value => rfl
  | firstItem | item | firstName | name | colon =>
    simp only [Want.move]
    split
    case h_1 => rfl
    case h_2 other => rw [onMark_of_ne other]
  | afterItem | afterMember =>
    simp only [Want.move]
    split
    case h_1 => rfl
    case h_2 => rfl
    case h_3 comma closer => rw [onMark_of_ne comma, onMark_of_ne closer]

theorem move_like (around : List.Forall₂ Frame.Like frames frames') (same : token.Like token')
    (want : Want) :
  (want.move size frames token next).Like (want.move size' frames' token' next')
  := by
  have breaks (b b' : Break) : (Move.stop (breakOff b frames)).Like (.stop (breakOff b' frames')) :=
    .stop (breakOff_like around b b')
  have closes (start start' : Nat) :
      (closeMove (start + 1) frames).Like (closeMove (start' + 1) frames') :=
    closeMove_like around _ _
  have goes_on (want : Want) (_ _ : Nat) : (Move.push frames want).Like (.push frames' want) :=
    .push around want
  rw [Want.move_eq, Want.move_eq]
  cases want with
  | value => apply valueMove_like around same
  | firstItem => apply onMark_like same _ closes (valueMove_like around same)
  | item => apply onMark_like same _ (fun _ _ => breaks _ _) (valueMove_like around same)
  | firstName => apply onMark_like same _ closes (nameMove_like around same _ _)
  | name => apply onMark_like same _ (fun _ _ => breaks _ _) (nameMove_like around same _ _)
  | colon =>
    apply onMark_like same _ (goes_on .value)
    apply Move.Like.stop (abandon_like around (.absent _ _) _ _)
  | afterItem =>
    apply onMark_like same _ (goes_on .item)
    apply onMark_like same _ closes (breaks _ _)
  | afterMember =>
    apply onMark_like same _ (goes_on .name)
    apply onMark_like same _ closes (breaks _ _)

/-- After alike values, the same may follow in alike containers, or nothing. -/
theorem resume_like (around : List.Forall₂ Frame.Like frames frames') (value : t.Like t')
    (size size' : Nat) (next next' : List Token) :
  (resume size next t frames = none ∧ resume size' next' t' frames' = none)
    ∨ ∃ inner inner' want, resume size next t frames = some (inner, want)
      ∧ resume size' next' t' frames' = some (inner', want)
      ∧ List.Forall₂ Frame.Like inner inner'
  := by
  cases around with
  | nil => exact .inl ⟨rfl, rfl⟩
  | cons frame rest =>
    right
    cases frame with
    | array start start' items =>
      exact ⟨_, _, _, rfl, rfl, .cons (.array start start' (.cons value items)) rest⟩
    | object start start' names values =>
      exact ⟨_, _, _, rfl, rfl, .cons (.object start start' names values) rest⟩
    | member start start' _ _ names values name =>
      exact ⟨_, _, _, rfl, rfl,
        .cons (.object start start' (.cons name names) (.cons value values)) rest⟩

/-- Alike tokens make alike documents, and leave alike tokens. -/
theorem assemble_like {ts ts' : List Token} (same : List.Forall₂ Token.Like ts ts')
    (around : List.Forall₂ Frame.Like frames frames') (want : Want) (size size' : Nat) :
  (assemble size frames want ts).1.Like (assemble size' frames' want ts').1
    ∧ List.Forall₂ Token.Like (assemble size frames want ts).2 (assemble size' frames' want ts').2
  := by
  induction same generalizing frames frames' want with
  | nil => exact ⟨atEnd_like around want size size', .nil⟩
  | @cons token token' next next' first later ih =>
    have moves : (want.move size frames token next).Like (want.move size' frames' token' next') :=
      move_like around first want
    rw [assemble, assemble]
    generalize want.move size frames token next = m at moves
    generalize want.move size' frames' token' next' = m' at moves
    cases moves with
    | push inner want => apply ih inner
    | stop tree => exact ⟨tree, .nil⟩
    | complete value inner =>
      rcases resume_like inner value size size' next next'
        with ⟨whole, whole'⟩ | ⟨_, _, want, goes_on, goes_on', outer⟩
      · simp only [whole, whole']
        exact ⟨value, later⟩
      · simp only [goes_on, goes_on']
        apply ih outer

/-! ### Alike data -/

/-- The same datum is read from alike documents, or none from both. -/
def Decoder.Steady {α : Type} (d : Decoder α) : Prop :=
  ∀ depth t t', t.Like t' → (d depth t).toOption = (d depth t').toOption

theorem descend_toOption (depth start start' : Nat) :
  (descend depth start).toOption = (descend depth start').toOption
  := by
  unfold descend
  split <;> rfl

theorem Literal.Like.name {l l' : Literal} (h : l.Like l') :
  (Decoder.name l).toOption = (Decoder.name l').toOption
  := by
  unfold Decoder.name
  rcases Except.cases_of_toOption_eq h.read with ⟨s, read, read'⟩ | ⟨f, f', failed, failed'⟩
  · rw [read, read']
    cases s <;> rfl
  · rw [failed, failed']
    rfl

mutual

theorem value_steady (depth : Nat) (t t' : Tree) (like : t.Like t') :
  (Decoder.value depth t).toOption = (Decoder.value depth t').toOption
  := by
  match t with
  | .literal l =>
    cases like with
    | literal h =>
      rw [Decoder.value, Decoder.value]
      rcases Except.cases_of_toOption_eq h.read with ⟨s, read, read'⟩ | ⟨f, f', failed, failed'⟩
      · rw [read, read']
      · rw [failed, failed']
        rfl
  | .absent f =>
    cases like
    rfl
  | .array start ts ending =>
    cases like with
    | array _ start' items ends =>
      rw [Decoder.value, Decoder.value]
      apply Except.toOption_bind_congr (descend_toOption depth _ _)
      intro inner
      apply Except.toOption_bind_congr (values_steady inner ts items)
      intro vs
      cases ends <;> rfl
  | .object start ms ending =>
    cases like with
    | object _ start' names values ends =>
      rw [Decoder.value, Decoder.value]
      apply Except.toOption_bind_congr (descend_toOption depth _ _)
      intro inner
      apply Except.toOption_bind_congr (memberValues_steady inner .empty ms names values)
      intro entries
      cases ends <;> rfl

theorem values_steady (depth : Nat) (ts : List Tree) {ts' : List Tree}
    (like : List.Forall₂ Tree.Like ts ts') :
  (Decoder.values depth ts).toOption = (Decoder.values depth ts').toOption
  := by
  match ts with
  | [] =>
    cases like
    rfl
  | t :: ts =>
    cases like with
    | cons first others =>
      rw [Decoder.values, Decoder.values]
      apply Except.toOption_bind_congr (value_steady depth t _ first)
      intro v
      apply Except.toOption_bind_congr (values_steady depth ts others)
      intro vs
      rfl

theorem memberValues_steady (depth : Nat) (m : OrderedMap String Value) (ms : List (Key × Tree))
    {ms' : List (Key × Tree)} (names : List.Forall₂ (fun m m' => m.1.name.Like m'.1.name) ms ms')
    (values : List.Forall₂ (fun m m' => m.2.Like m'.2) ms ms') :
  (Decoder.memberValues depth m ms).toOption = (Decoder.memberValues depth m ms').toOption
  := by
  match ms with
  | [] =>
    cases names
    rfl
  | (key, t) :: ms =>
    cases names with
    | @cons _ m' _ ms' same names =>
      obtain ⟨key', t'⟩ := m'
      cases values with
      | cons first others =>
        rw [Decoder.memberValues, Decoder.memberValues]
        apply Except.toOption_bind_congr same.name
        intro k
        apply Except.toOption_bind_congr (value_steady depth t _ first)
        intro v
        apply memberValues_steady depth _ ms names others

end

mutual

theorem skip_steady (t t' : Tree) (like : t.Like t') :
  (Decoder.skip t).toOption = (Decoder.skip t').toOption
  := by
  match t with
  | .literal l =>
    cases like with
    | literal h =>
      rw [Decoder.skip, Decoder.skip]
      apply h.skip
  | .absent f =>
    cases like
    rfl
  | .array start ts ending =>
    cases like with
    | array _ start' items ends =>
      rw [Decoder.skip, Decoder.skip]
      apply Except.toOption_bind_congr (skipItems_steady ts items)
      intro _
      cases ends <;> rfl
  | .object start ms ending =>
    cases like with
    | object _ start' names values ends =>
      rw [Decoder.skip, Decoder.skip]
      apply Except.toOption_bind_congr (skipMembers_steady ms names values)
      intro _
      cases ends <;> rfl

theorem skipItems_steady (ts : List Tree) {ts' : List Tree}
    (like : List.Forall₂ Tree.Like ts ts') :
  (Decoder.skipItems ts).toOption = (Decoder.skipItems ts').toOption
  := by
  match ts with
  | [] =>
    cases like
    rfl
  | t :: ts =>
    cases like with
    | cons first others =>
      rw [Decoder.skipItems, Decoder.skipItems]
      apply Except.toOption_bind_congr (skip_steady t _ first)
      intro _
      apply skipItems_steady ts others

theorem skipMembers_steady (ms : List (Key × Tree)) {ms' : List (Key × Tree)}
    (names : List.Forall₂ (fun m m' => m.1.name.Like m'.1.name) ms ms')
    (values : List.Forall₂ (fun m m' => m.2.Like m'.2) ms ms') :
  (Decoder.skipMembers ms).toOption = (Decoder.skipMembers ms').toOption
  := by
  match ms with
  | [] =>
    cases names
    rfl
  | (key, t) :: ms =>
    cases names with
    | @cons _ m' _ ms' same names =>
      obtain ⟨key', t'⟩ := m'
      cases values with
      | cons first others =>
        rw [Decoder.skipMembers, Decoder.skipMembers]
        apply Except.toOption_bind_congr same.skip
        intro _
        apply Except.toOption_bind_congr (skip_steady t _ first)
        intro _
        apply skipMembers_steady ms names others

end

theorem members_steady :
  Decoder.members.Steady
  := by
  intro depth t t' like
  cases like with
  | object start start' names values ends =>
    apply Except.toOption_bind_congr (descend_toOption depth _ _)
    intro inner
    apply Except.toOption_bind_congr (memberValues_steady inner .empty _ names values)
    intro entries
    cases ends <;> rfl
  | literal | array | absent => rfl

theorem Decoder.Steady.optional {α : Type} {d : Decoder α} (steady : d.Steady) :
  (Decoder.optional d).Steady
  := by
  intro depth t t' like
  have inner := Except.toOption_map_congr some (steady depth t t' like)
  cases like with
  | array | object | absent => apply inner
  | @literal l l' h =>
    obtain ⟨start, stop, quoted, read, skip⟩ := l
    obtain ⟨start', stop', quoted', read', skip'⟩ := l'
    rcases Except.cases_of_toOption_eq h.read with ⟨s, found, found'⟩ | ⟨f, f', failed, failed'⟩
    · simp only at found found'
      subst found found'
      cases s with
      | null => rfl
      | bool | number | string => apply inner
    · simp only at failed failed'
      subst failed failed'
      apply inner

/-! ### Alike records -/

/-- The fields and the other members of a record are read alike from alike documents. -/
structure RecordShape.Steady {δ α : Type} (r : RecordShape δ α) : Prop where
  fields : ∀ field ∈ r.fields, ∀ depth draft t t', t.Like t' →
    (field.read depth draft t).toOption = (field.read depth draft t').toOption
  other : ∀ depth name draft t t', t.Like t' →
    (r.other depth name draft t).toOption = (r.other depth name draft t').toOption

theorem steady_field {δ α : Type} {d : Decoder α} (steady : d.Steady) (name : String)
    (required : Bool) (get : δ → Option α) (put : δ → Option α → δ) (depth : Nat) (draft : δ)
    (t t' : Tree) (like : t.Like t') :
  ((Field.of name required get put d).read depth draft t).toOption
    = ((Field.of name required get put d).read depth draft t').toOption
  := Except.toOption_map_congr _ (steady depth t t' like)

namespace RecordShape.Steady

variable {δ α : Type} {r : RecordShape δ α}

theorem readMembers (steady : r.Steady) (depth : Nat) (draft : δ) {ms ms' : List (Key × Tree)}
    (names : List.Forall₂ (fun m m' => m.1.name.Like m'.1.name) ms ms')
    (values : List.Forall₂ (fun m m' => m.2.Like m'.2) ms ms') :
  (r.readMembers depth draft ms).toOption = (r.readMembers depth draft ms').toOption
  := by
  induction names generalizing draft with
  | nil => rfl
  | @cons m m' ms ms' same names ih =>
    obtain ⟨key, t⟩ := m
    obtain ⟨key', t'⟩ := m'
    cases values with
    | cons first others =>
      rw [RecordShape.readMembers, RecordShape.readMembers]
      apply Except.toOption_bind_congr same.name
      intro name
      cases found : r.fields.find? fun field => field.name = name with
      | none =>
        apply Except.toOption_bind_congr (steady.other depth name draft t t' first)
        intro draft
        apply ih draft others
      | some field =>
        have member := List.mem_of_find?_eq_some found
        simp only
        split
        case isTrue => rfl
        case isFalse =>
          apply Except.toOption_bind_congr (steady.fields field member depth draft t t' first)
          intro draft
          apply ih draft others

theorem readElements (steady : r.Steady) (depth index index' : Nat) (draft : δ)
    {fields : List (Field δ)} (known : ∀ field ∈ fields, field ∈ r.fields) {ts ts' : List Tree}
    {ending ending' : Ending} (items : List.Forall₂ Tree.Like ts ts') (ends : ending.Like ending') :
  (r.readElements depth index draft fields ts ending).toOption
    = (r.readElements depth index' draft fields ts' ending').toOption
  := by
  induction fields generalizing index index' draft ts ts' with
  | nil =>
    cases items with
    | nil => cases ends <;> rfl
    | cons => rfl
  | cons field fields ih =>
    rw [List.forall_mem_cons] at known
    cases items with
    | cons first others =>
      rw [RecordShape.readElements, RecordShape.readElements]
      apply Except.toOption_bind_congr (steady.fields field known.1 depth draft _ _ first)
      intro draft
      apply ih _ _ draft known.2 others
    | nil =>
      cases ends with
      | broken => rfl
      | closed stop stop' =>
        rw [RecordShape.readElements, RecordShape.readElements]
        split
        case isTrue => rfl
        case isFalse => apply ih _ _ draft known.2 .nil

theorem decoder (steady : r.Steady) :
  r.decoder.Steady
  := by
  intro depth t t' like
  cases like with
  | literal | absent => rfl
  | object start start' names values ends =>
    apply Except.toOption_bind_congr (descend_toOption depth _ _)
    intro inner
    apply Except.toOption_bind_congr (steady.readMembers inner r.start names values)
    intro draft
    cases ends with
    | broken => rfl
    | closed stop stop' =>
      simp only
      cases r.complete draft <;> rfl
  | array start start' items ends =>
    apply Except.toOption_bind_congr (descend_toOption depth _ _)
    intro inner
    apply Except.toOption_bind_congr
      (steady.readElements inner 0 0 r.start (fun _ => id) items ends)
    intro draft
    cases r.complete draft <;> rfl

end RecordShape.Steady

/-- From texts with alike tokens the same datum is read, or none from both. -/
theorem readText_like {α : Type} {d : Decoder α} (steady : d.Steady) {text text' : List Char}
    (same : List.Forall₂ Token.Like (tokens text) (tokens text')) :
  (d.readText text).toOption = (d.readText text').toOption
  := by
  obtain ⟨tree, rest⟩ := assemble_like same .nil .value (Text.byteLength text)
    (Text.byteLength text')
  have found := steady maxDepth _ _ tree
  unfold Decoder.readText Tree.ofText
  generalize assemble (Text.byteLength text) [] .value (tokens text) = whole at found rest
  generalize assemble (Text.byteLength text') [] .value (tokens text') = whole' at found rest
  obtain ⟨t, others⟩ := whole
  obtain ⟨t', others'⟩ := whole'
  simp only at found rest ⊢
  rcases Except.cases_of_toOption_eq found with ⟨a, read, read'⟩ | ⟨f, f', failed, failed'⟩
  · rw [read, read']
    cases rest <;> rfl
  · rw [failed, failed']
    rfl

end TypeAssertions.Json
