import Mathlib
import TypeAssertions.Config.Resolution
import TypeAssertions.Proofs.Config.Merging
import TypeAssertions.Proofs.Insertion

/-!
# Options applied again

Resolved options are options of a configuration themselves: each has the form in which an option of
its kind is kept (`Settled`), so that setting them over the defaults leaves them as they are.  An
option that has a field of its own is never among the others, and no name comes twice.
-/

namespace TypeAssertions

open Json

/-! ### Kept values -/

namespace Config

/-- A value is one that an option keeps as it is. -/
def IsKept (name : String) (v : Value) : Prop :=
  v ≠ .null ∧ ∃ kind, optionKind? name = some kind ∧ kind.check v = .ok v

theorem lowerAscii_lowerAscii (cs : List Char) :
  lowerAscii (lowerAscii cs) = lowerAscii cs
  := by
  rw [lowerAscii, lowerAscii, List.map_map]
  apply List.map_congr_left
  intro c _
  apply Char.toLower_toLower_eq_toLower

/-- A value in the form in which it is kept is kept in that form. -/
theorem OptionKind.check_of_check {kind : OptionKind} {v w : Value} (h : kind.check v = .ok w) :
  kind.check w = .ok w
  := by
  cases kind with
  | boolean =>
    simp only [check] at h
    split at h
    case h_1 b meant =>
      obtain rfl := Except.ok.inj h
      rfl
    case h_2 => cases h
  | choice choices =>
    cases v with
    | string s =>
      simp only [check] at h
      split at h
      case isTrue member =>
        obtain rfl := Except.ok.inj h
        simp [check, lowerAscii_lowerAscii, member]
      case isFalse => cases h
    | _ => cases h
  | list =>
    cases v with
    | array items =>
      simp only [check] at h
      split at h
      case isTrue strings =>
        obtain rfl := Except.ok.inj h
        simp [check, strings]
      case isFalse => cases h
    | _ => cases h
  | string | number | object =>
    cases v
    all_goals
      cases h
    rfl
  | any =>
    cases v
    all_goals
      cases h
      rfl

theorem OptionKind.ne_null_of_check {kind : OptionKind} {v w : Value} (given : v ≠ .null)
    (h : kind.check v = .ok w) :
  w ≠ .null
  := by
  rintro rfl
  -- `null` is kept by options of any kind only, and there it is what was given
  have same := check_of_check h
  cases kind with
  | any =>
    apply given
    cases v
    all_goals cases h
    rfl
  | _ => cases same

theorem isKept_of_check {name : String} {kind : OptionKind} (known : optionKind? name = some kind)
    {v w : Value} (given : v ≠ .null) (h : kind.check v = .ok w) :
  IsKept name w
  := by
  use OptionKind.ne_null_of_check given h, kind, known
  apply OptionKind.check_of_check h

end Config

/-! ### Settled options -/

namespace CompilerOptions

open Config

/-- The names of the options with a field of their own. -/
def fieldNames : List String := shape.fields.map Field.name

theorem mem_fieldNames_iff {name : String} :
  name ∈ fieldNames ↔ name = "strict" ∨ name = "target" ∨ name = "module"
    ∨ name = "moduleResolution" ∨ name = "jsx" ∨ name = "lib" ∨ name = "esModuleInterop"
    ∨ name = "skipLibCheck" ∨ name = "types"
  := by
  simp [fieldNames, shape, Field.of]

/-- The members of the JSON form of options for the fields. -/
def fieldMembers (o : CompilerOptions) : List (String × Value) :=
  [("strict", .bool o.strict), ("target", .string o.target), ("module", .string o.module)]
    ++ (o.moduleResolution.map fun s => ("moduleResolution", Value.string s)).toList
    ++ (o.jsx.map fun s => ("jsx", Value.string s)).toList
    ++ [("lib", stringList o.lib), ("esModuleInterop", .bool o.esModuleInterop),
      ("skipLibCheck", .bool o.skipLibCheck)]
    ++ (o.types.map fun l => ("types", stringList l)).toList

theorem toJson_eq (o : CompilerOptions) :
  o.toJson = .object (o.fieldMembers ++ o.extra.entries)
  := rfl

theorem fieldNames_sublist (o : CompilerOptions) :
  (o.fieldMembers.map Prod.fst).Sublist fieldNames
  := by
  obtain ⟨strict, target, module, resolution, jsx, lib, interop, skip, types, extra⟩ := o
  cases resolution
  all_goals cases jsx
  all_goals cases types
  all_goals simp [fieldMembers, fieldNames, shape, Field.of]

/-- Options in the form in which they are kept: the strings are among the choices, and the other
options have no field and are kept as they are. -/
structure Settled (o : CompilerOptions) : Prop where
  target : IsKept "target" (.string o.target)
  module : IsKept "module" (.string o.module)
  moduleResolution : ∀ s, o.moduleResolution = some s → IsKept "moduleResolution" (.string s)
  jsx : ∃ s, o.jsx = some s ∧ IsKept "jsx" (.string s)
  extra : ∀ name v, (name, v) ∈ o.extra.entries → name ∉ fieldNames ∧ IsKept name v

theorem Settled.nodup {o : CompilerOptions} (settled : o.Settled) :
  ((o.fieldMembers ++ o.extra.entries).map Prod.fst).Nodup
  := by
  rw [List.map_append, List.nodup_append]
  have distinct : fieldNames.Nodup := by decide
  refine ⟨distinct.sublist o.fieldNames_sublist, o.extra.distinct, ?_⟩
  rintro name field other extra rfl
  obtain ⟨⟨name, v⟩, member, rfl⟩ := List.mem_map.1 extra
  apply (settled.extra name v member).1 (o.fieldNames_sublist.subset field)

end CompilerOptions

namespace Config

open CompilerOptions

/-- The kinds of the options with a field of their own. -/
theorem optionKind?_fields :
  optionKind? "strict" = some .boolean ∧ optionKind? "target" = some (.choice targets)
    ∧ optionKind? "module" = some (.choice modules)
    ∧ optionKind? "moduleResolution" = some (.choice moduleResolutions)
    ∧ optionKind? "jsx" = some (.choice jsxModes) ∧ optionKind? "lib" = some .list
    ∧ optionKind? "esModuleInterop" = some .boolean ∧ optionKind? "skipLibCheck" = some .boolean
    ∧ optionKind? "types" = some .list
  := by
  cbv

section Forms

variable {name : String} {v : Value}

theorem isKept_bool (known : optionKind? name = some .boolean) (b : Bool) :
  IsKept name (.bool b)
  := by
  use Value.noConfusion, .boolean, known
  rfl

theorem isKept_stringList (known : optionKind? name = some .list) (l : List String) :
  IsKept name (stringList l)
  := by
  use Value.noConfusion, .list, known
  simp [OptionKind.check, stringList, isString]

/-- A kept choice is a string. -/
theorem IsKept.eq_string {choices : List String} (kept : IsKept name v)
    (known : optionKind? name = some (.choice choices)) :
  v = .string (stringOf v)
  := by
  obtain ⟨-, kind, known', checked⟩ := kept
  rw [known] at known'
  obtain rfl := Option.some.inj known'
  cases v with
  | string s => rfl
  | _ => cases checked

/-- A kept truth value is one. -/
theorem IsKept.eq_bool (kept : IsKept name v) (known : optionKind? name = some .boolean)
    (otherwise : Bool) :
  v = .bool (truthOf otherwise v)
  := by
  obtain ⟨-, kind, known', checked⟩ := kept
  rw [known] at known'
  obtain rfl := Option.some.inj known'
  simp only [OptionKind.check] at checked
  split at checked
  case h_1 b meant =>
    obtain rfl := Except.ok.inj checked
    rfl
  case h_2 => cases checked

theorem map_stringsOf {items : List Value} (strings : items.all isString = true) :
  (stringsOf (.array items)).map .string = items
  := by
  induction items with
  | nil => rfl
  | cons item rest ih =>
    rw [List.all_cons, Bool.and_eq_true] at strings
    cases item with
    | string s => exact congrArg (List.cons (.string s)) (ih strings.2)
    | _ => cases strings.1

/-- A kept list is one of strings. -/
theorem IsKept.eq_stringList (kept : IsKept name v) (known : optionKind? name = some .list) :
  v = stringList (stringsOf v)
  := by
  obtain ⟨-, kind, known', checked⟩ := kept
  rw [known] at known'
  obtain rfl := Option.some.inj known'
  cases v with
  | array items =>
    simp only [OptionKind.check] at checked
    split at checked
    case isTrue strings => rw [stringList, map_stringsOf strings]
    case isFalse => cases checked
  | _ => cases checked

end Forms

/-- An option whose name is that of no field is put among the others. -/
theorem setOption_of_not_mem {name : String} (other : name ∉ fieldNames) (o : CompilerOptions)
    (v : Value) :
  setOption o name v = { o with extra := o.extra.insert name v }
  := by
  simp only [mem_fieldNames_iff, not_or] at other
  simp [setOption, other]

/-- Options stay settled when one of them is set to a kept value. -/
theorem settled_setOption {o : CompilerOptions} (settled : o.Settled) {name : String} {v : Value}
    (kept : IsKept name v) :
  (setOption o name v).Settled
  := by
  obtain ⟨strict, target, module, resolution, jsx, lib, interop, skip, types⟩ := optionKind?_fields
  by_cases field : name ∈ fieldNames
  · rw [mem_fieldNames_iff] at field
    rcases field with rfl | rfl | rfl | rfl | rfl | rfl | rfl | rfl | rfl
    case inl => exact { settled with }
    case inr.inl =>
      rw [kept.eq_string target] at kept
      exact { settled with target := kept }
    case inr.inr.inl =>
      rw [kept.eq_string module] at kept
      exact { settled with module := kept }
    case inr.inr.inr.inl =>
      rw [kept.eq_string resolution] at kept
      refine { settled with moduleResolution := ?_ }
      rintro s ⟨⟩
      apply kept
    case inr.inr.inr.inr.inl =>
      rw [kept.eq_string jsx] at kept
      refine { settled with jsx := ?_ }
      exact ⟨stringOf v, rfl, kept⟩
    -- the other fields hold values of their kinds only
    all_goals exact { settled with }
  · rw [setOption_of_not_mem field]
    refine { settled with extra := ?_ }
    intro other w member
    rw [OrderedMap.mem_entries_iff, OrderedMap.get?_insert] at member
    split at member
    case isTrue same =>
      obtain rfl := Option.some.inj member
      rw [← same]
      exact ⟨field, kept⟩
    case isFalse =>
      apply settled.extra other w
      rw [OrderedMap.mem_entries_iff]
      apply member

theorem settled_default :
  CompilerOptions.default.Settled
  := by
  obtain ⟨-, target, module, -, jsx, -⟩ := optionKind?_fields
  constructor
  · exact ⟨Value.noConfusion, _, target, by decide⟩
  · exact ⟨Value.noConfusion, _, module, by decide⟩
  · rintro s ⟨⟩
  · exact ⟨"react", rfl, Value.noConfusion, _, jsx, by decide⟩
  · intro name v member
    cases member

/-- An option that is applied is set to a kept value, if it is set at all. -/
theorem settled_applyOption {r : Resolved} (settled : r.options.Settled) (origin : Option String)
    (name : String) (v : Value) :
  (applyOption r origin name v).options.Settled
  := by
  rw [applyOption]
  split
  · apply settled
  case h_2 kind known =>
    split
    · apply settled
    case isFalse given =>
      split
      case h_1 w checked => apply settled_setOption settled (isKept_of_check known given checked)
      case h_2 => apply settled

/-- Whatever sources say, the options that they give are settled. -/
theorem settled_apply (s : Sources) :
  (apply s).options.Settled
  := by
  rw [apply]
  generalize start : (⟨.default, []⟩ : Resolved) = r
  have settled : r.options.Settled := by
    rw [← start]
    apply settled_default
  clear start
  induction s.options.entries generalizing r with
  | nil => apply settled
  | cons option rest ih => apply ih _ (settled_applyOption settled _ option.1 option.2)

/-! ### Settled options applied -/

theorem applyOption_of_isKept {name : String} {v : Value} (kept : IsKept name v) (r : Resolved)
    (origin : Option String) :
  applyOption r origin name v = { r with options := setOption r.options name v }
  := by
  obtain ⟨given, kind, known, checked⟩ := kept
  simp only [applyOption, known, if_neg given, checked]

theorem isKept_of_mem_fieldMembers {o : CompilerOptions} (settled : o.Settled) :
  ∀ option ∈ o.fieldMembers, IsKept option.1 option.2
  := by
  obtain ⟨strict, -, -, -, -, lib, interop, skip, types⟩ := optionKind?_fields
  obtain ⟨mode, given, jsx⟩ := settled.jsx
  have resolution : ∀ option ∈ (o.moduleResolution.map fun s =>
      ("moduleResolution", Value.string s)).toList, IsKept option.1 option.2 := by
    intro option member
    obtain ⟨s, found, rfl⟩ := Option.map_eq_some_iff.1 (Option.mem_toList.1 member)
    apply settled.moduleResolution s found
  have typeNames : ∀ option ∈ (o.types.map fun l => ("types", stringList l)).toList,
      IsKept option.1 option.2 := by
    intro option member
    obtain ⟨l, -, rfl⟩ := Option.map_eq_some_iff.1 (Option.mem_toList.1 member)
    apply isKept_stringList types
  simp only [fieldMembers, given, Option.map_some, Option.toList_some, List.forall_mem_append,
    List.forall_mem_cons, List.not_mem_nil, false_implies, implies_true, and_true]
  refine ⟨⟨⟨⟨⟨isKept_bool strict _, settled.target, settled.module⟩, resolution⟩, jsx⟩, ?_⟩,
    typeNames⟩
  use isKept_stringList lib _, isKept_bool interop _
  apply isKept_bool skip

/-- Every member of the JSON form of settled options is kept as it is. -/
theorem isKept_of_settled {o : CompilerOptions} (settled : o.Settled) :
  ∀ option ∈ o.fieldMembers ++ o.extra.entries, IsKept option.1 option.2
  := by
  rw [List.forall_mem_append]
  use isKept_of_mem_fieldMembers settled
  intro option member
  apply (settled.extra option.1 option.2 member).2

/-- Kept options are set one by one. -/
theorem foldl_applyOption_of_isKept {options : List (String × Value)}
    (kept : ∀ option ∈ options, IsKept option.1 option.2) (origins : OrderedMap String String)
    (r : Resolved) :
  options.foldl (fun r option => applyOption r (origins.get? option.1) option.1 option.2) r
    = { r with options := options.foldl (fun o option => setOption o option.1 option.2) r.options }
  := by
  induction options generalizing r with
  | nil => rfl
  | cons option rest ih =>
    rw [List.forall_mem_cons] at kept
    rw [List.foldl_cons, applyOption_of_isKept kept.1, ih kept.2, List.foldl_cons]

theorem foldl_setOption_of_not_mem {options : List (String × Value)}
    (other : ∀ option ∈ options, option.1 ∉ fieldNames) (o : CompilerOptions) :
  options.foldl (fun o option => setOption o option.1 option.2) o
    = { o with extra := options.foldl (fun m option => m.insert option.1 option.2) o.extra }
  := by
  induction options generalizing o with
  | nil => rfl
  | cons option rest ih =>
    rw [List.forall_mem_cons] at other
    rw [List.foldl_cons, setOption_of_not_mem other.1, ih other.2, List.foldl_cons]

theorem stringsOf_stringList (l : List String) :
  stringsOf (stringList l) = l
  := by
  simp only [stringList, stringsOf, List.filterMap_map]
  apply List.filterMap_some

theorem foldl_setOption_fieldMembers {o : CompilerOptions} (settled : o.Settled) :
  o.fieldMembers.foldl (fun o option => setOption o option.1 option.2) .default
    = { o with extra := .empty }
  := by
  obtain ⟨mode, given, -⟩ := settled.jsx
  obtain ⟨strict, target, module, resolution, jsx, lib, interop, skip, types, extra⟩ := o
  obtain rfl := given
  cases resolution
  all_goals cases types
  all_goals simp [fieldMembers, setOption, stringOf, truthOf, stringsOf_stringList,
    CompilerOptions.default]

/-- Setting the members of settled options over the defaults gives the options. -/
theorem foldl_setOption_members {o : CompilerOptions} (settled : o.Settled) :
  (o.fieldMembers ++ o.extra.entries).foldl (fun o option => setOption o option.1 option.2) .default
    = o
  := by
  have other : ∀ option ∈ o.extra.entries, option.1 ∉ fieldNames := by
    intro option member
    apply (settled.extra option.1 option.2 member).1
  have extra : o.extra.entries.foldl (fun m option => m.insert option.1 option.2) .empty = o.extra :=
    OrderedMap.ofList_entries o.extra
  rw [List.foldl_append, foldl_setOption_fieldMembers settled, foldl_setOption_of_not_mem other,
    extra]

theorem options_extendFrom_empty (options : OrderedMap String Value) (file : String) :
  (Sources.empty.extendFrom options file).options = options
  := by
  rw [Sources.extendFrom, Sources.foldl_set]
  apply OrderedMap.ofList_entries

/-- The options that sources give are written as one object without repeated names, and the options
with a field of their own are not among the others.  When the members of that object are the only
options that a file sets, they give the same options again, and nothing is wrong with them. -/
theorem apply_toJson (s : Sources) :
  ∃ options : List (String × Value), (apply s).options.toJson = .object options
    ∧ (options.map Prod.fst).Nodup
    ∧ (∀ name ∈ fieldNames, name ∉ (apply s).options.extra.keys)
    ∧ ∀ file, apply (Sources.empty.extendFrom (.ofList options) file) = ⟨(apply s).options, []⟩
  := by
  have settled := settled_apply s
  use (apply s).options.fieldMembers ++ (apply s).options.extra.entries, toJson_eq _, settled.nodup
  constructor
  · intro name field extra
    obtain ⟨⟨name, v⟩, member, rfl⟩ := List.mem_map.1 extra
    apply (settled.extra name v member).1 field
  · intro file
    have listed : (OrderedMap.ofList ((apply s).options.fieldMembers
        ++ (apply s).options.extra.entries)).entries
          = (apply s).options.fieldMembers ++ (apply s).options.extra.entries :=
      OrderedMap.entries_foldl_insert (m := .empty) settled.nodup
    rw [apply, options_extendFrom_empty, listed,
      foldl_applyOption_of_isKept (isKept_of_settled settled), foldl_setOption_members settled]

end Config

end TypeAssertions
