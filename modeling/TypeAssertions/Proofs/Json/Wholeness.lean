import TypeAssertions.Proofs.Json.Acceptance

/-!
# Whole documents

Nothing is read from a document that breaks off, also where parts of it are passed over and need not
be read (`RecordShape.Finishes.decoder`).  So the tokens of a text from which a record is read go on
fluently: a mark comes after each literal, and all literals can be passed over (`assemble_fluent`).
-/

namespace TypeAssertions.Json

/-! ### Readers -/

/-- Data are read from whole documents only. -/
def Decoder.Finishes {α : Type} (d : Decoder α) : Prop :=
  ∀ depth t a, d depth t = .ok a → t.Whole

theorem value_finishes :
  Decoder.Finishes Decoder.value
  := fun depth t _ read => (sound_of_value depth t read).whole

theorem members_finishes :
  Decoder.members.Finishes
  := by
  intro depth t entries read
  cases t with
  | literal | array | absent => cases read
  | object start ms ending =>
    simp only [Decoder.members, Except.bind_eq_ok_iff] at read
    obtain ⟨inner, -, entries, members, closed⟩ := read
    obtain ⟨-, sound⟩ := sound_of_memberValues inner .empty ms members
    cases ending with
    | broken => cases closed
    | closed stop => apply Tree.Whole.object start stop fun m member => (sound m member).whole

theorem Decoder.Finishes.optional {α : Type} {d : Decoder α} (finishes : d.Finishes) :
  (Decoder.optional d).Finishes
  := by
  intro depth t a read
  cases t with
  | literal l => apply Tree.Whole.literal
  | array | object | absent =>
    obtain ⟨a, inner, -⟩ := Except.map_eq_ok_iff.1 read
    apply finishes depth _ a inner

mutual

/-- Only a whole document is passed over. -/
theorem whole_of_skip (t : Tree) (passed : Decoder.skip t = .ok ()) :
  t.Whole
  := by
  match t with
  | .literal l => apply Tree.Whole.literal
  | .absent f => cases passed
  | .array start ts ending =>
    rw [Decoder.skip, Except.bind_eq_ok_iff] at passed
    obtain ⟨_, items, closed⟩ := passed
    cases ending with
    | broken => cases closed
    | closed stop => apply Tree.Whole.array start stop (whole_of_skipItems ts items)
  | .object start ms ending =>
    rw [Decoder.skip, Except.bind_eq_ok_iff] at passed
    obtain ⟨_, members, closed⟩ := passed
    cases ending with
    | broken => cases closed
    | closed stop => apply Tree.Whole.object start stop (whole_of_skipMembers ms members)

theorem whole_of_skipItems (ts : List Tree) (passed : Decoder.skipItems ts = .ok ()) :
  ∀ t ∈ ts, t.Whole
  := by
  match ts with
  | [] => simp
  | t :: ts =>
    rw [Decoder.skipItems, Except.bind_eq_ok_iff] at passed
    obtain ⟨_, first, others⟩ := passed
    rw [List.forall_mem_cons]
    exact ⟨whole_of_skip t first, whole_of_skipItems ts others⟩

theorem whole_of_skipMembers (ms : List (Key × Tree)) (passed : Decoder.skipMembers ms = .ok ()) :
  ∀ m ∈ ms, m.2.Whole
  := by
  match ms with
  | [] => simp
  | (key, t) :: ms =>
    rw [Decoder.skipMembers, Except.bind_eq_ok_iff] at passed
    obtain ⟨_, -, passed⟩ := passed
    rw [Except.bind_eq_ok_iff] at passed
    obtain ⟨_, first, others⟩ := passed
    rw [List.forall_mem_cons]
    exact ⟨whole_of_skip t first, whole_of_skipMembers ms others⟩

end

/-! ### Records -/

/-- The fields and the other members of a record are read from whole documents only. -/
structure RecordShape.Finishes {δ α : Type} (r : RecordShape δ α) : Prop where
  fields : ∀ field ∈ r.fields, ∀ depth draft t draft',
    field.read depth draft t = .ok draft' → t.Whole
  other : ∀ depth name draft t draft', r.other depth name draft t = .ok draft' → t.Whole

theorem whole_of_field {δ α : Type} {d : Decoder α} (finishes : d.Finishes) {name : String}
    {required : Bool} {get : δ → Option α} {put : δ → Option α → δ} {depth : Nat} {draft : δ}
    {t : Tree} {draft' : δ}
    (read : (Field.of name required get put d).read depth draft t = .ok draft') :
  t.Whole
  := by
  obtain ⟨a, inner, -⟩ := Except.map_eq_ok_iff.1 read
  apply finishes depth t a inner

namespace RecordShape.Finishes

variable {δ α : Type} {r : RecordShape δ α}

theorem readMembers (finishes : r.Finishes) {depth : Nat} {draft draft' : δ}
    {ms : List (Key × Tree)} (read : r.readMembers depth draft ms = .ok draft') :
  ∀ m ∈ ms, m.2.Whole
  := by
  induction ms generalizing draft with
  | nil => simp
  | cons m ms ih =>
    obtain ⟨key, t⟩ := m
    rw [RecordShape.readMembers, Except.bind_eq_ok_iff] at read
    obtain ⟨name, -, read⟩ := read
    rw [List.forall_mem_cons]
    cases found : r.fields.find? fun field => field.name = name with
    | none =>
      simp only [found, Except.bind_eq_ok_iff] at read
      obtain ⟨draft, first, others⟩ := read
      exact ⟨finishes.other depth name _ t _ first, ih others⟩
    | some field =>
      have member := List.mem_of_find?_eq_some found
      simp only [found] at read
      split at read
      case isTrue => cases read
      case isFalse =>
        rw [Except.bind_eq_ok_iff] at read
        obtain ⟨draft, first, others⟩ := read
        exact ⟨finishes.fields field member depth _ t _ first, ih others⟩

theorem readElements (finishes : r.Finishes) {depth index : Nat} {draft draft' : δ}
    {fields : List (Field δ)} (known : ∀ field ∈ fields, field ∈ r.fields) {ts : List Tree}
    {ending : Ending}
    (read : r.readElements depth index draft fields ts ending = .ok draft') :
  (∀ t ∈ ts, t.Whole) ∧ ∃ stop, ending = .closed stop
  := by
  induction fields generalizing index draft ts with
  | nil =>
    cases ts with
    | cons => cases read
    | nil =>
      cases ending with
      | broken => cases read
      | closed stop => simp
  | cons field fields ih =>
    rw [List.forall_mem_cons] at known
    cases ts with
    | cons t ts =>
      rw [RecordShape.readElements, Except.bind_eq_ok_iff] at read
      obtain ⟨draft, first, others⟩ := read
      obtain ⟨whole, closed⟩ := ih known.2 others
      rw [List.forall_mem_cons]
      exact ⟨⟨finishes.fields field known.1 depth _ t _ first, whole⟩, closed⟩
    | nil =>
      cases ending with
      | broken => cases read
      | closed stop => simp

/-- A record is read from a whole document that is no literal. -/
theorem decoder (finishes : r.Finishes) {depth : Nat} {t : Tree} {a : α}
    (read : r.decoder depth t = .ok a) :
  t.Whole ∧ ∀ l, t ≠ .literal l
  := by
  cases t with
  | literal | absent => cases read
  | object start ms ending =>
    simp only [RecordShape.decoder, RecordShape.readObject, Except.bind_eq_ok_iff] at read
    obtain ⟨inner, -, draft, members, closed⟩ := read
    cases ending with
    | broken => cases closed
    | closed stop =>
      use .object start stop (finishes.readMembers members)
      rintro l ⟨⟩
  | array start ts ending =>
    simp only [RecordShape.decoder, RecordShape.readArray, Except.bind_eq_ok_iff] at read
    obtain ⟨inner, -, draft, elements, -⟩ := read
    obtain ⟨whole, stop, rfl⟩ := finishes.readElements (fun _ => id) elements
    use .array start stop whole
    rintro l ⟨⟩

end RecordShape.Finishes

/-! ### Fluent tokens -/

/-- All literals can be passed over, all marks are marks of values, and no literal comes right after
another one. -/
inductive Fluent : List Token → Prop
  | nil : Fluent []
  | mark {c : Char} {ts : List Token} (member : c ∈ marks) (start : Nat) (rest : Fluent ts) :
      Fluent (.mark c start :: ts)
  | literal {l : Literal} {ts : List Token} (passed : l.skip = .ok ())
      (apart : ∀ l', ts.head? ≠ some (.literal l')) (rest : Fluent ts) : Fluent (.literal l :: ts)

variable {size : Nat} {frames : List Frame} {want : Want} {ts : List Token} {T t : Tree}

/-- After a value, either the document is over or a mark comes. -/
theorem fluent_of_settle
    (ih : ∀ {frames want}, want.Fits frames → assemble size frames want ts = (T, []) →
      Fluent ts ∧ (want = .afterItem ∨ want = .colon ∨ want = .afterMember →
        ∀ l, ts.head? ≠ some (.literal l)))
    (awaiting : Awaiting frames) (settled : settle size ts t frames = (T, [])) :
  Fluent ts ∧ ∀ l, ts.head? ≠ some (.literal l)
  := by
  rcases settle_cases awaiting size ts t with ⟨rfl, whole⟩
    | ⟨start, items, outer, rfl, around, goes_on⟩
    | ⟨start, members, l, repeated, single, outer, rfl, around, goes_on⟩
  · rw [whole] at settled
    obtain ⟨-, rfl⟩ := Prod.mk.inj settled
    use .nil
    rintro l ⟨⟩
  · rw [goes_on] at settled
    obtain ⟨fluent, apart⟩ := ih (.array (.inr (.inr rfl)) _ _ around) settled
    exact ⟨fluent, apart (.inl rfl)⟩
  · rw [goes_on] at settled
    obtain ⟨fluent, apart⟩ := ih (.object (.inr (.inr rfl)) _ _ around) settled
    exact ⟨fluent, apart (.inr (.inr rfl))⟩

/-- The tokens of a whole document that is no literal are fluent. -/
theorem assemble_fluent (fits : want.Fits frames)
    (assembled : assemble size frames want ts = (T, [])) (whole : T.Whole)
    (container : ∀ l, T ≠ .literal l) :
  Fluent ts ∧ (want = .afterItem ∨ want = .colon ∨ want = .afterMember →
    ∀ l, ts.head? ≠ some (.literal l))
  := by
  induction ts generalizing frames want with
  | nil =>
    obtain ⟨rfl, -⟩ := Prod.mk.inj assembled
    cases not_whole_atEnd size frames want whole
  | cons token ts ih =>
    rcases advance_of_move fits size ts token with advance | ⟨t, move, stopped⟩
    · generalize want.move size frames token ts = m at advance
      cases m with
      | push frames' want' =>
        rw [assemble_push advance] at assembled
        obtain ⟨fluent, apart⟩ := ih (advance.fits fits) assembled
        cases token with
        | mark c start =>
          have member : c ∈ marks := by
            cases advance <;> decide
          refine ⟨.mark member start fluent, ?_⟩
          rintro - l ⟨⟩
        | literal l =>
          cases advance with
          | name may _ _ _ _ passed =>
            refine ⟨.literal passed (apart (.inr (.inl rfl))) fluent, ?_⟩
            intro after
            rcases may with rfl | rfl
            all_goals simp at after
      | complete t frames' =>
        rw [assemble_complete advance] at assembled
        obtain ⟨fluent, apart⟩ := fluent_of_settle ih (advance.awaiting fits) assembled
        cases token with
        | mark c start =>
          have member : c ∈ marks := by
            cases advance <;> decide
          refine ⟨.mark member start fluent, ?_⟩
          rintro - l ⟨⟩
        | literal l =>
          cases advance with
          | literal takes _ passed =>
            refine ⟨.literal passed apart fluent, ?_⟩
            intro after
            rcases takes with rfl | rfl | rfl
            all_goals simp at after
      | stop t => cases advance
    · rw [assemble, move] at assembled
      obtain ⟨rfl, -⟩ := Prod.mk.inj assembled
      obtain ⟨-, l, -, literal, -⟩ := stopped whole
      cases container l literal

/-- The tokens of a text from which a record is read are fluent. -/
theorem fluent_of_readText {δ α : Type} {r : RecordShape δ α} (finishes : r.Finishes)
    {text : List Char} {a : α} (read : r.decoder.readText text = .ok a) :
  Fluent (tokens text)
  := by
  unfold Decoder.readText Tree.ofText at read
  generalize assembled : assemble (Text.byteLength text) [] .value (tokens text) = whole at read
  obtain ⟨t, rest⟩ := whole
  simp only at read
  split at read
  case h_1 => cases read
  case h_3 => cases read
  case h_2 a found =>
    obtain ⟨whole, container⟩ := finishes.decoder found
    apply (assemble_fluent .document assembled whole container).1

end TypeAssertions.Json
