import TypeAssertions.Proofs.Config.Idempotence
import TypeAssertions.Proofs.Json.Values

/-!
# Options read back

Options are read back from the object that they are written as.  The members of the fields are put
into the draft one by one, and the other members are added to it in their order, which the reader
does not take for fields.  A field that is left out has its default when it is read back; `jsx` is
the field of which that is not what was left out (`CompilerOptions.ofValue_toJson`).
-/

namespace TypeAssertions

open Json

namespace Json.RecordShape

variable {δ α : Type}

theorem readMembers_append (r : RecordShape δ α) (depth : Nat) (draft : δ)
    (ms ns : List (Key × Tree)) :
  r.readMembers depth draft (ms ++ ns)
    = r.readMembers depth draft ms >>= fun draft => r.readMembers depth draft ns
  := by
  induction ms generalizing draft with
  | nil => rfl
  | cons m ms ih =>
    simp only [List.cons_append, readMembers, ih, bind_assoc]
    apply bind_congr
    intro name
    cases r.fields.find? fun field => field.name = name with
    | none => rw [bind_assoc]
    | some field =>
      by_cases given : field.given draft
      · simp only [given, if_true, bind_assoc]
      · simp only [given, Bool.false_eq_true, if_false, bind_assoc]

end Json.RecordShape

namespace CompilerOptions

/-! ### Fields -/

/-- The data of the fields. -/
def data (o : CompilerOptions) : List (Datum Draft) :=
  List.flatten
    [[.of "strict" Draft.strict (fun d strict => { d with strict }) (.bool o.strict) o.strict,
      .of "target" Draft.target (fun d target => { d with target }) (.string o.target) o.target,
      .of "module" Draft.module (fun d module => { d with module }) (.string o.module) o.module],
    (o.moduleResolution.map fun s =>
      .of "moduleResolution" Draft.moduleResolution
        (fun d moduleResolution => { d with moduleResolution }) (.string s) (some s)).toList,
    (o.jsx.map fun s =>
      .of "jsx" Draft.jsx (fun d jsx => { d with jsx }) (.string s) (some s)).toList,
    [.of "lib" Draft.lib (fun d lib => { d with lib }) (stringList o.lib) o.lib,
      .of "esModuleInterop" Draft.esModuleInterop
        (fun d esModuleInterop => { d with esModuleInterop }) (.bool o.esModuleInterop)
        o.esModuleInterop,
      .of "skipLibCheck" Draft.skipLibCheck (fun d skipLibCheck => { d with skipLibCheck })
        (.bool o.skipLibCheck) o.skipLibCheck],
    (o.types.map fun l =>
      .of "types" Draft.types (fun d types => { d with types }) (stringList l) (some l)).toList]

theorem map_member_data (o : CompilerOptions) :
  o.data.map Datum.member = o.fieldMembers
  := by
  obtain ⟨strict, target, module, _ | resolution, _ | jsx, lib, interop, skip, _ | types, rest⟩ := o
  all_goals rfl

theorem apart_data (o : CompilerOptions) :
  o.data.Pairwise Datum.Apart
  := by
  obtain ⟨strict, target, module, _ | resolution, _ | jsx, lib, interop, skip, _ | types, rest⟩ := o
  all_goals simp [data, Datum.Apart, Datum.of]

theorem accepts_stringList (height : Nat) (l : List String) :
  (Decoder.list .string).Accepts (height + 1) (stringList l) l
  := Decoder.accepts_list fun s _ => Decoder.accepts_string height s

theorem read_data (height : Nat) (o : CompilerOptions) :
  ∀ x ∈ o.data, x.Read shape (height + 1)
  := by
  have string (s : String) : (Decoder.optional .string).Accepts (height + 1) (.string s) (some s) :=
    (Decoder.accepts_string _ s).optional Value.noConfusion
  have list (l : List String) :
      (Decoder.optional (.list .string)).Accepts (height + 1) (stringList l) (some l) :=
    (accepts_stringList height l).optional Value.noConfusion
  simp only [data, List.flatten_cons, List.flatten_nil, List.append_nil, List.forall_mem_append,
    List.forall_mem_cons, Option.mem_toList, Option.map_eq_some_iff]
  refine ⟨?first, ?moduleResolution, ?jsx, ?middle, ?types⟩
  case first =>
    exact ⟨Datum.read_of rfl (Decoder.accepts_bool _ o.strict),
      Datum.read_of rfl (Decoder.accepts_string _ o.target),
      Datum.read_of rfl (Decoder.accepts_string _ o.module), by simp⟩
  case moduleResolution =>
    rintro _ ⟨s, -, rfl⟩
    apply Datum.read_of rfl (string s)
  case jsx =>
    rintro _ ⟨s, -, rfl⟩
    apply Datum.read_of rfl (string s)
  case middle =>
    exact ⟨Datum.read_of rfl (accepts_stringList _ o.lib),
      Datum.read_of rfl (Decoder.accepts_bool _ o.esModuleInterop),
      Datum.read_of rfl (Decoder.accepts_bool _ o.skipLibCheck), by simp⟩
  case types =>
    rintro _ ⟨l, -, rfl⟩
    apply Datum.read_of rfl (list l)

/-- The draft with the data of all fields is completed by `jsx` alone. -/
theorem complete_putAll_data (o : CompilerOptions) :
  (Datum.putAll {} o.data).complete = { o with jsx := o.jsx.or default.jsx, extra := .empty }
  := by
  obtain ⟨strict, target, module, _ | resolution, _ | jsx, lib, interop, skip, _ | types, rest⟩ := o
  all_goals rfl

theorem extra_putAll_data (o : CompilerOptions) :
  (Datum.putAll {} o.data).extra = .empty
  := congrArg extra o.complete_putAll_data

/-! ### Other options -/

theorem find?_fields_of_not_mem {name : String} (other : name ∉ fieldNames) :
  shape.fields.find? (fun field => field.name = name) = none
  := by
  rw [List.find?_eq_none]
  intro field member
  rw [decide_eq_true_eq]
  rintro rfl
  apply other
  apply List.mem_map_of_mem member

/-- Members that are no fields are added to the other options in their order. -/
theorem readMembers_extra {entries : List (String × Value)} {depth : Nat}
    (other : ∀ entry ∈ entries, entry.1 ∉ fieldNames) (proper : ∀ entry ∈ entries, entry.2.Proper)
    (room : Value.membersHeight entries < depth) (draft : Draft) :
  shape.readMembers depth draft (Tree.ofMembers entries)
    = .ok
        { draft with extra := entries.foldl (fun m entry => m.insert entry.1 entry.2) draft.extra }
  := by
  induction entries generalizing draft with
  | nil => rfl
  | cons entry entries ih =>
    obtain ⟨name, v⟩ := entry
    rw [List.forall_mem_cons] at other proper
    rw [Value.membersHeight, Nat.max_lt] at room
    have named : Decoder.name (Key.ofName name).name = .ok name := rfl
    have read : shape.other depth name draft (.ofValue v)
        = .ok { draft with extra := draft.extra.insert name v } := by
      show (Decoder.value depth (.ofValue v)).bind _ = _
      rw [Decoder.value_ofValue proper.1 room.1]
      rfl
    simp only [Tree.ofMembers, RecordShape.readMembers, named, find?_fields_of_not_mem other.1,
      read, bind, Except.bind]
    apply ih other.2 proper.2 room.2

/-! ### Options -/

/-- Other options that stand beside the fields: none has the name of a field, and no object in them
has two members with the same name. -/
structure Beside (extra : OrderedMap String Value) : Prop where
  other : ∀ entry ∈ extra.entries, entry.1 ∉ fieldNames
  proper : ∀ entry ∈ extra.entries, entry.2.Proper

/-- The list of libraries is a container in the container of the fields. -/
theorem membersHeight_fieldMembers_pos (o : CompilerOptions) :
  0 < Value.membersHeight o.fieldMembers
  := by
  obtain ⟨strict, target, module, _ | resolution, _ | jsx, lib, interop, skip, _ | types, rest⟩ := o
  all_goals simp [fieldMembers, Value.membersHeight, stringList, Value.height]

/-- The members of written options are put into a draft, those of the fields and then the others. -/
theorem readMembers_members {o : CompilerOptions} (beside : Beside o.extra) :
  shape.readMembers o.toJson.height {} (Tree.ofMembers (o.fieldMembers ++ o.extra.entries))
    = .ok { Datum.putAll {} o.data with extra := o.extra }
  := by
  have room : max (Value.membersHeight o.fieldMembers) (Value.membersHeight o.extra.entries)
      < o.toJson.height := by
    rw [toJson_eq, Value.height, Value.membersHeight_append]
    apply Nat.lt_succ_self
  rw [Nat.max_lt] at room
  have deep : 0 + 1 < o.toJson.height := by
    have list := o.membersHeight_fieldMembers_pos
    omega
  have fresh : ∀ x ∈ o.data, x.given {} = false := by
    obtain ⟨strict, target, module, _ | resolution, _ | jsx, lib, interop, skip, _ | types, rest⟩
      := o
    all_goals simp [data, Datum.of]
  have fields : shape.readMembers o.toJson.height {} (Tree.ofMembers o.fieldMembers)
      = .ok (Datum.putAll {} o.data) := by
    apply Datum.readMembers_eq_putAll deep (o.read_data 0) o.apart_data fresh
    rw [map_member_data]
    apply Tree.displaysMembers_ofMembers
  have extra : o.extra.entries.foldl (fun m entry => m.insert entry.1 entry.2) .empty = o.extra :=
    OrderedMap.ofList_entries o.extra
  rw [Tree.ofMembers_append, RecordShape.readMembers_append, fields]
  show shape.readMembers _ _ _ = _
  rw [readMembers_extra beside.other beside.proper room.2, extra_putAll_data, extra]

/-- The options that a value is read as. -/
def ofValue (v : Value) : Except Failure CompilerOptions := decoder.readValue v

theorem ofValue_toJson_eq {o : CompilerOptions} (beside : Beside o.extra) :
  ofValue o.toJson = .ok { o with jsx := o.jsx.or default.jsx }
  := by
  have room : Value.membersHeight (o.fieldMembers ++ o.extra.entries) + 1 < o.toJson.height + 1 :=
    Nat.lt_succ_self _
  have depth : descend (o.toJson.height + 1) 0 = .ok o.toJson.height := descend_of_lt room 0
  have complete : Draft.complete { Datum.putAll {} o.data with extra := o.extra }
      = { o with jsx := o.jsx.or default.jsx } :=
    congrArg (fun c => { c with extra := o.extra }) o.complete_putAll_data
  have object : ofValue o.toJson = shape.readObject (o.toJson.height + 1) 0
      (Tree.ofMembers (o.fieldMembers ++ o.extra.entries)) (.closed 0) := rfl
  rw [object, RecordShape.readObject, depth]
  show (shape.readMembers o.toJson.height {} _).bind _ = _
  rw [readMembers_members beside, ← complete]
  rfl

theorem ofValue_toJson_of_jsx {o : CompilerOptions} (beside : Beside o.extra)
    (given : o.jsx ≠ none) :
  ofValue o.toJson = .ok o
  := by
  obtain ⟨mode, present⟩ := Option.ne_none_iff_exists'.1 given
  have same : o.jsx.or default.jsx = o.jsx := by rw [present, Option.some_or]
  rw [ofValue_toJson_eq beside, same]

/-- Options are read back from the object that they are written as, with every field, present or
absent, and every other option in its place, but for `jsx`: when it is absent, the default is read
in its place.  So options are read back as they are exactly when `jsx` is present, and options that
have been read back once are. -/
theorem ofValue_toJson (o : CompilerOptions) (beside : Beside o.extra) :
  ofValue o.toJson = .ok { o with jsx := o.jsx.or default.jsx }
    ∧ (ofValue o.toJson = .ok o ↔ o.jsx ≠ none)
    ∧ ∀ read, ofValue o.toJson = .ok read → ofValue read.toJson = .ok read
  := by
  use ofValue_toJson_eq beside
  constructor
  · constructor
    · rintro same absent
      rw [ofValue_toJson_eq beside, Except.ok.injEq] at same
      have kept := congrArg jsx same
      rw [absent] at kept
      cases kept
    · apply ofValue_toJson_of_jsx beside
  · intro read same
    rw [ofValue_toJson_eq beside, Except.ok.injEq] at same
    have others : Beside read.extra := by
      rw [← same]
      exact beside
    have given : read.jsx ≠ none := by
      rw [← same]
      show o.jsx.or default.jsx ≠ none
      cases o.jsx with
      | none => exact Option.some_ne_none _
      | some mode => exact Option.some_ne_none mode
    apply ofValue_toJson_of_jsx others given

/-- Options with absent fields, and with an object and a list among the other options. -/
def nested : CompilerOptions where
  strict := false
  jsx := some "preserve"
  types := some []
  extra := .ofList
    [("paths", .object [("*", .array [.string "./*"]), ("", .null)]), ("noEmit", .bool true)]

theorem beside_nested :
  Beside nested.extra
  := by
  constructor
  · decide
  · have paths : Value.Proper (.object [("*", .array [.string "./*"]), ("", .null)]) := by
      apply Value.Proper.object
      · decide
      · simp only [List.forall_mem_cons]
        refine ⟨.array ?_, .null, by simp⟩
        simp only [List.forall_mem_cons]
        exact ⟨.string _, by simp⟩
    show ∀ entry ∈ [_, _], _
    simp only [List.forall_mem_cons]
    exact ⟨paths, .bool true, by simp⟩

theorem ofValue_toJson_nested :
  ofValue nested.toJson = .ok nested
  := by
  apply (ofValue_toJson nested beside_nested).2.1.2
  decide

/-- Options without `jsx` are not read back. -/
theorem ofValue_toJson_absent :
  ofValue (CompilerOptions.toJson { jsx := none }) = .ok default
    ∧ ({ jsx := none } : CompilerOptions) ≠ default
  := by
  constructor
  · rfl
  · decide

end CompilerOptions

end TypeAssertions
