import TypeAssertions.Json.Document
import TypeAssertions.Proofs.Json.Lexing

/-!
# Trees of written values

A tree displays a value when it has its scalars, its elements in order and its members in any
order.  The tree that is assembled from the tokens of a value displays the value, whatever
containers are open around it (`assemble_lexemes`), so a text that writes a value with spaces
anywhere has a tree that displays the value, and nothing after it (`ofText_of_spaced`).
-/

namespace List

variable {α β : Type} {R : α → β → Prop}

theorem forall₂_append_left_iff {l l' : List α} {r : List β} :
  Forall₂ R (l ++ l') r ↔ ∃ s s', Forall₂ R l s ∧ Forall₂ R l' s' ∧ r = s ++ s'
  := by
  induction l generalizing r with
  | nil => simp
  | cons a l ih =>
    constructor
    · rintro (_ | ⟨first, rest⟩)
      obtain ⟨s, s', before, after, rfl⟩ := ih.1 rest
      exact ⟨_, s', .cons first before, after, rfl⟩
    · rintro ⟨_, s', (_ | ⟨first, rest⟩), after, rfl⟩
      apply Forall₂.cons first
      apply ih.2 ⟨_, s', rest, after, rfl⟩

end List

namespace TypeAssertions.Json

/-! ### Display -/

mutual

/-- A tree has the scalars of a value, its elements in order, and its members in any order. -/
inductive Displays : Value → Tree → Prop
  | null (start stop : Nat) : Displays .null (.literal ⟨start, stop, false, .ok .null, .ok ()⟩)
  | bool (b : Bool) (start stop : Nat) :
      Displays (.bool b) (.literal ⟨start, stop, false, .ok (.bool b), .ok ()⟩)
  | number (n : Number) (start stop : Nat) :
      Displays (.number n) (.literal ⟨start, stop, false, .ok (.number n), .ok ()⟩)
  | string (s : String) (start stop : Nat) :
      Displays (.string s) (.literal ⟨start, stop, true, .ok (.string s), .ok ()⟩)
  | array {vs : List Value} {ts : List Tree} (start stop : Nat) (items : DisplaysItems vs ts) :
      Displays (.array vs) (.array start ts (.closed stop))
  | object {ms ms' : List (String × Value)} {ts : List (Key × Tree)} (start stop : Nat)
      (order : ms.Perm ms') (members : DisplaysMembers ms' ts) :
      Displays (.object ms) (.object start ts (.closed stop))

/-- Trees display the elements of an array. -/
inductive DisplaysItems : List Value → List Tree → Prop
  | nil : DisplaysItems [] []
  | cons {v : Value} {vs : List Value} {t : Tree} {ts : List Tree} (first : Displays v t)
      (rest : DisplaysItems vs ts) :
      DisplaysItems (v :: vs) (t :: ts)

/-- Names and trees display the members of an object. -/
inductive DisplaysMembers : List (String × Value) → List (Key × Tree) → Prop
  | nil : DisplaysMembers [] []
  | cons {k : String} {v : Value} {ms : List (String × Value)} {key : Key} {t : Tree}
      {ts : List (Key × Tree)} (named : key.name.read = .ok (.string k)) (first : Displays v t)
      (rest : DisplaysMembers ms ts) :
      DisplaysMembers ((k, v) :: ms) ((key, t) :: ts)

end

/-! ### Moves -/

theorem isToken_mark_iff {c : Char} {token : Token} :
  Lexeme.IsToken (.mark c) token ↔ ∃ start, token = .mark c start
  := by
  constructor
  · rintro ⟨-, start⟩
    use start
  · rintro ⟨start, rfl⟩
    apply Lexeme.IsToken.mark

theorem isToken_scalar_iff {s : Scalar} {token : Token} :
  Lexeme.IsToken (.scalar s) token
    ↔ ∃ start stop, token = .literal ⟨start, stop, s.quoted, .ok s, .ok ()⟩
  := by
  constructor
  · rintro (_ | ⟨-, start, stop⟩)
    use start, stop
  · rintro ⟨start, stop, rfl⟩
    apply Lexeme.IsToken.scalar

/-- What becomes of a document after a value in the open containers, before the tokens `next`. -/
def settle (size : Nat) (next : List Token) (t : Tree) (frames : List Frame) :
    Tree × List Token :=
  match resume size next t frames with
  | some (frames, want) => assemble size frames want next
  | none => (t, next)

/-- A value may come, as the first element or another one. -/
def Want.Takes (want : Want) : Prop := want = .value ∨ want = .firstItem ∨ want = .item

theorem Want.Takes.move {want : Want} (takes : want.Takes) {token : Token}
    (opens : ∀ start, token ≠ .mark ']' start) (size : Nat) (frames : List Frame)
    (next : List Token) :
  want.move size frames token next = valueMove frames token
  := by
  rcases takes with rfl | rfl | rfl
  · rfl
  · rw [Want.move]
    apply opens
  · rw [Want.move]
    apply opens

theorem assemble_scalar {want : Want} (takes : want.Takes) (s : Scalar) (quoted : Bool)
    (start stop size : Nat) (frames : List Frame) (next : List Token) :
  assemble size frames want (.literal ⟨start, stop, quoted, .ok s, .ok ()⟩ :: next)
    = settle size next (.literal ⟨start, stop, quoted, .ok s, .ok ()⟩) frames
  := by
  rw [assemble, takes.move (by rintro _ ⟨⟩)]
  rfl

/-- A bracket opens an array. -/
theorem assemble_openArray {want : Want} (takes : want.Takes) (start size : Nat)
    (frames : List Frame) (next : List Token) :
  assemble size frames want (.mark '[' start :: next)
    = assemble size (.array start [] :: frames) .firstItem next
  := by
  rw [assemble, takes.move (by rintro _ ⟨⟩)]
  rfl

/-- A brace opens an object. -/
theorem assemble_openObject {want : Want} (takes : want.Takes) (start size : Nat)
    (frames : List Frame) (next : List Token) :
  assemble size frames want (.mark '\x7b' start :: next)
    = assemble size (.object start [] :: frames) .firstName next
  := by
  rw [assemble, takes.move (by rintro _ ⟨⟩)]
  rfl

/-- A name and a colon wait for the value of a member. -/
theorem assemble_name {want : Want} (names : want = .firstName ∨ want = .name)
    (l : Literal) (quoted : l.quoted = true) (skipped : l.skip = .ok ()) (start colon size : Nat)
    (members : List (Key × Tree)) (frames : List Frame) (next : List Token) :
  assemble size (.object start members :: frames) want (.literal l :: .mark ':' colon :: next)
    = assemble size (.member start members l (repeatedAt size (.mark ':' colon :: next)) :: frames)
        .value next
  := by
  have move : want.move size (.object start members :: frames) (.literal l)
        (.mark ':' colon :: next)
      = .push
          (.member start members l (repeatedAt size (.mark ':' colon :: next)) :: frames)
          .colon := by
    rcases names with rfl | rfl
    all_goals simp [Want.move, nameMove, quoted, skipped]
  rw [assemble, move]
  rfl

/-! ### Values -/

/-- Tokens give a tree that displays a value, in any open containers where a value may come. -/
def Gives (size : Nat) (ts : List Token) (v : Value) : Prop :=
  ∀ frames want next, want.Takes →
    ∃ t, Displays v t ∧ assemble size frames want (ts ++ next) = settle size next t frames

theorem gives_scalar {size : Nat} {s : Scalar} {v : Value}
    (displays : ∀ start stop, Displays v (.literal ⟨start, stop, s.quoted, .ok s, .ok ()⟩))
    {ts : List Token} (tokens : List.Forall₂ Lexeme.IsToken [.scalar s] ts) :
  Gives size ts v
  := by
  simp only [List.forall₂_cons_left_iff, List.forall₂_nil_left_iff, isToken_scalar_iff] at tokens
  obtain ⟨_, _, ⟨start, stop, rfl⟩, rfl, rfl⟩ := tokens
  intro frames want next takes
  exact ⟨_, displays start stop, assemble_scalar takes s _ start stop size frames next⟩

/-- The tokens of a member, after a brace or a comma, add the member to its object. -/
theorem assemble_member {size : Nat} {ts : List Token} {v : Value} (value : Gives size ts v)
    {want : Want} (names : want = .firstName ∨ want = .name) (k : String)
    (start stop colon brace : Nat) (members : List (Key × Tree)) (frames : List Frame)
    (next : List Token) :
  ∃ key t, key.name.read = .ok (.string k) ∧ Displays v t
    ∧ assemble size (.object brace members :: frames) want
        (.literal ⟨start, stop, true, .ok (.string k), .ok ()⟩ :: .mark ':' colon :: (ts ++ next))
      = assemble size (.object brace ((key, t) :: members) :: frames) .afterMember next
  := by
  rw [assemble_name names _ rfl rfl]
  obtain ⟨t, displays, assembled⟩ := value _ .value next (.inl rfl)
  rw [assembled]
  exact ⟨_, t, rfl, displays, rfl⟩

mutual

/-- The tokens of a value give a tree that displays it. -/
theorem gives_lexemes (size : Nat) (v : Value) {ts : List Token}
    (tokens : List.Forall₂ Lexeme.IsToken v.lexemes ts) :
  Gives size ts v
  := by
  match v with
  | .null => exact gives_scalar .null tokens
  | .bool b => exact gives_scalar (.bool b) tokens
  | .number n => exact gives_scalar (.number n) tokens
  | .string s => exact gives_scalar (.string s) tokens
  | .array [] =>
    simp only [Value.lexemes, List.forall₂_cons_left_iff, List.forall₂_nil_left_iff,
      isToken_mark_iff] at tokens
    obtain ⟨_, _, ⟨start, rfl⟩, ⟨_, _, ⟨stop, rfl⟩, rfl, rfl⟩, rfl⟩ := tokens
    intro frames want next takes
    refine ⟨_, .array start (stop + 1) .nil, ?_⟩
    rw [List.cons_append, assemble_openArray takes]
    rfl
  | .array (v :: vs) =>
    simp only [Value.lexemes, List.cons_append, List.append_assoc, List.forall₂_cons_left_iff,
      List.forall₂_append_left_iff, List.forall₂_nil_left_iff, isToken_mark_iff] at tokens
    obtain ⟨_, _, ⟨start, rfl⟩, ⟨first, _, head, ⟨rest, _, tail, ⟨_, _, ⟨stop, rfl⟩, rfl, rfl⟩,
      rfl⟩, rfl⟩, rfl⟩ := tokens
    intro frames want next takes
    rw [List.cons_append, assemble_openArray takes, List.append_assoc, List.append_assoc]
    obtain ⟨t, displays, assembled⟩ := gives_lexemes size v head _ _ _ (.inr (.inl rfl))
    obtain ⟨others, all, closed⟩ := assemble_itemLexemes size vs tail start stop [t] frames next
    exact ⟨_, .array start (stop + 1) (.cons displays all), assembled.trans closed⟩
  | .object [] =>
    simp only [Value.lexemes, List.forall₂_cons_left_iff, List.forall₂_nil_left_iff,
      isToken_mark_iff] at tokens
    obtain ⟨_, _, ⟨start, rfl⟩, ⟨_, _, ⟨stop, rfl⟩, rfl, rfl⟩, rfl⟩ := tokens
    intro frames want next takes
    refine ⟨_, .object start (stop + 1) .rfl .nil, ?_⟩
    rw [List.cons_append, assemble_openObject takes]
    rfl
  | .object ((k, v) :: ms) =>
    simp only [Value.lexemes, List.cons_append, List.append_assoc, List.forall₂_cons_left_iff,
      List.forall₂_append_left_iff, List.forall₂_nil_left_iff, isToken_mark_iff,
      isToken_scalar_iff] at tokens
    obtain ⟨_, _, ⟨start, rfl⟩, ⟨_, _, ⟨before, after, rfl⟩, ⟨_, _, ⟨colon, rfl⟩, ⟨first, _, head,
      ⟨rest, _, tail, ⟨_, _, ⟨stop, rfl⟩, rfl, rfl⟩, rfl⟩, rfl⟩, rfl⟩, rfl⟩, rfl⟩ := tokens
    intro frames want next takes
    simp only [List.cons_append, List.append_assoc]
    rw [assemble_openObject takes]
    obtain ⟨key, t, named, displays, assembled⟩ := assemble_member (gives_lexemes size v head)
      (.inl rfl) k before after colon start [] frames (rest ++ .mark '\x7d' stop :: next)
    obtain ⟨others, all, closed⟩ :=
      assemble_memberLexemes size ms tail start stop [(key, t)] frames next
    exact ⟨_, .object start (stop + 1) .rfl (.cons named displays all), assembled.trans closed⟩

/-- The tokens of elements after another one, and a bracket, close their array. -/
theorem assemble_itemLexemes (size : Nat) (vs : List Value) {ts : List Token}
    (tokens : List.Forall₂ Lexeme.IsToken (Value.itemLexemes vs) ts) (start stop : Nat)
    (items : List Tree) (frames : List Frame) (next : List Token) :
  ∃ others, DisplaysItems vs others
    ∧ assemble size (.array start items :: frames) .afterItem (ts ++ .mark ']' stop :: next)
      = settle size next (.array start (items.reverse ++ others) (.closed (stop + 1))) frames
  := by
  match vs with
  | [] =>
    obtain rfl := List.forall₂_nil_left_iff.1 tokens
    use [], .nil
    rw [List.append_nil]
    rfl
  | v :: vs =>
    simp only [Value.itemLexemes, List.cons_append, List.forall₂_cons_left_iff,
      List.forall₂_append_left_iff, isToken_mark_iff] at tokens
    obtain ⟨_, _, ⟨comma, rfl⟩, ⟨first, rest, head, tail, rfl⟩, rfl⟩ := tokens
    obtain ⟨t, displays, assembled⟩ := gives_lexemes size v head (.array start items :: frames)
      .item (rest ++ .mark ']' stop :: next) (.inr (.inr rfl))
    obtain ⟨others, all, closed⟩ :=
      assemble_itemLexemes size vs tail start stop (t :: items) frames next
    rw [List.reverse_cons, List.append_assoc] at closed
    use t :: others, .cons displays all
    rw [List.cons_append, List.append_assoc]
    exact assembled.trans closed

/-- The tokens of members after another one, and a brace, close their object. -/
theorem assemble_memberLexemes (size : Nat) (ms : List (String × Value)) {ts : List Token}
    (tokens : List.Forall₂ Lexeme.IsToken (Value.memberLexemes ms) ts) (start stop : Nat)
    (members : List (Key × Tree)) (frames : List Frame) (next : List Token) :
  ∃ others, DisplaysMembers ms others
    ∧ assemble size (.object start members :: frames) .afterMember
        (ts ++ .mark '\x7d' stop :: next)
      = settle size next (.object start (members.reverse ++ others) (.closed (stop + 1))) frames
  := by
  match ms with
  | [] =>
    obtain rfl := List.forall₂_nil_left_iff.1 tokens
    use [], .nil
    rw [List.append_nil]
    rfl
  | (k, v) :: ms =>
    simp only [Value.memberLexemes, List.cons_append, List.forall₂_cons_left_iff,
      List.forall₂_append_left_iff, isToken_mark_iff, isToken_scalar_iff] at tokens
    obtain ⟨_, _, ⟨comma, rfl⟩, ⟨_, _, ⟨before, after, rfl⟩, ⟨_, _, ⟨colon, rfl⟩,
      ⟨first, rest, head, tail, rfl⟩, rfl⟩, rfl⟩, rfl⟩ := tokens
    obtain ⟨key, t, named, displays, assembled⟩ := assemble_member (gives_lexemes size v head)
      (.inr rfl) k before after colon start members frames (rest ++ .mark '\x7d' stop :: next)
    obtain ⟨others, all, closed⟩ :=
      assemble_memberLexemes size ms tail start stop ((key, t) :: members) frames next
    rw [List.reverse_cons, List.append_assoc] at closed
    use (key, t) :: others, .cons named displays all
    simp only [List.cons_append, List.append_assoc]
    exact assembled.trans closed

end

/-- The tree of a text that writes a value displays the value, and nothing comes after it. -/
theorem ofText_of_spaced {v : Value} (plain : v.Plain) {text : List Char}
    (spaced : Spaced v.lexemes text) :
  ∃ t, Displays v t ∧ Tree.ofText text = (t, [])
  := by
  obtain ⟨t, displays, assembled⟩ :=
    gives_lexemes (Text.byteLength text) v (tokens_of_spaced plain spaced) [] .value [] (.inl rfl)
  use t, displays
  rw [Tree.ofText, ← List.append_nil (tokens text), assembled]
  rfl

end TypeAssertions.Json
