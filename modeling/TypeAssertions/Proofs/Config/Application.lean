import Mathlib
import TypeAssertions.Config.Resolution
import TypeAssertions.Proofs.Config.Idempotence
import TypeAssertions.Proofs.Config.Traversal
import TypeAssertions.Proofs.Lookup

/-!
# Application of options

Each option of a configuration is rejected with a diagnostic, or is `null`, or is set to the form in
which its value is accepted (`Config.apply_partition`).  Setting an option to such a form changes
nothing but this option, and so the order of the options decides the order of the diagnostics and of
the options without a field of their own, and nothing else.
-/

namespace TypeAssertions

open Json Config

/-! ### Options by name -/

namespace CompilerOptions

/-- The value of the option of a name: that of its field, or that among the other options. -/
def getOption? (o : CompilerOptions) (name : String) : Option Value :=
  if name = "strict" then some (.bool o.strict)
  else if name = "target" then some (.string o.target)
  else if name = "module" then some (.string o.module)
  else if name = "moduleResolution" then o.moduleResolution.map .string
  else if name = "jsx" then o.jsx.map .string
  else if name = "lib" then some (stringList o.lib)
  else if name = "esModuleInterop" then some (.bool o.esModuleInterop)
  else if name = "skipLibCheck" then some (.bool o.skipLibCheck)
  else if name = "types" then o.types.map stringList
  else o.extra.get? name

theorem getOption?_of_not_mem {name : String} (other : name ∉ fieldNames) (o : CompilerOptions) :
  o.getOption? name = o.extra.get? name
  := by
  simp only [mem_fieldNames_iff, not_or] at other
  simp [getOption?, other]

/-- Options that differ at most in the order of those that have no field. -/
structure Alike (o o' : CompilerOptions) : Prop where
  fields : { o with extra := .empty } = { o' with extra := .empty }
  extra : o.extra.entries.Perm o'.extra.entries

theorem stringList_injective :
  Function.Injective stringList
  := Function.LeftInverse.injective stringsOf_stringList

/-- The values of the options with a field of their own are those of the fields. -/
theorem fields_eq_of_getOption? {o o' : CompilerOptions}
    (same : ∀ name ∈ fieldNames, o.getOption? name = o'.getOption? name) :
  { o with extra := .empty } = { o' with extra := .empty }
  := by
  have strings : Function.Injective (Option.map Value.string) :=
    Option.map_injective fun s t => Value.string.inj
  have lists := Option.map_injective stringList_injective
  simp only [mem_fieldNames_iff, forall_eq_or_imp, forall_eq] at same
  obtain ⟨strict, target, module, resolution, jsx, lib, interop, skip, types⟩ := same
  rw [mk.injEq]
  refine ⟨?_, ?_, ?_, ?_, ?_, ?_, ?_, ?_, ?_, rfl⟩
  · simpa [getOption?] using strict
  · simpa [getOption?] using target
  · simpa [getOption?] using module
  · apply strings
    simpa [getOption?] using resolution
  · apply strings
    simpa [getOption?] using jsx
  · apply stringList_injective
    simpa [getOption?] using lib
  · simpa [getOption?] using interop
  · simpa [getOption?] using skip
  · apply lists
    simpa [getOption?] using types

end CompilerOptions

open CompilerOptions

namespace Config

variable {name : String} {v w : Value}

/-- An option that is set to a kept value has this very value. -/
theorem getOption?_setOption_self (kept : IsKept name w) (o : CompilerOptions) :
  (setOption o name w).getOption? name = some w
  := by
  obtain ⟨strict, target, module, resolution, jsx, lib, interop, skip, types⟩ := optionKind?_fields
  by_cases field : name ∈ fieldNames
  · rw [mem_fieldNames_iff] at field
    rcases field with rfl | rfl | rfl | rfl | rfl | rfl | rfl | rfl | rfl
    · exact congrArg some (kept.eq_bool strict _).symm
    · exact congrArg some (kept.eq_string target).symm
    · exact congrArg some (kept.eq_string module).symm
    · exact congrArg some (kept.eq_string resolution).symm
    · exact congrArg some (kept.eq_string jsx).symm
    · exact congrArg some (kept.eq_stringList lib).symm
    · exact congrArg some (kept.eq_bool interop _).symm
    · exact congrArg some (kept.eq_bool skip _).symm
    · exact congrArg some (kept.eq_stringList types).symm
  · rw [setOption_of_not_mem field, getOption?_of_not_mem field, OrderedMap.get?_insert, if_pos rfl]

/-- Setting an option leaves every other one. -/
theorem getOption?_setOption_of_ne {other : String} (apart : name ≠ other) (o : CompilerOptions)
    (v : Value) :
  (setOption o name v).getOption? other = o.getOption? other
  := by
  by_cases field : name ∈ fieldNames
  · rw [mem_fieldNames_iff] at field
    rcases field with rfl | rfl | rfl | rfl | rfl | rfl | rfl | rfl | rfl
    all_goals simp [setOption, getOption?, Ne.symm apart]
  · rw [setOption_of_not_mem field]
    by_cases field' : other ∈ fieldNames
    · rw [mem_fieldNames_iff] at field'
      rcases field' with rfl | rfl | rfl | rfl | rfl | rfl | rfl | rfl | rfl
      all_goals rfl
    · rw [getOption?_of_not_mem field', getOption?_of_not_mem field', OrderedMap.get?_insert,
        if_neg apart]

/-- Where no option of a name is set, its value stays. -/
theorem getOption?_foldl_of_not_mem {options : List (String × Value)}
    (unset : name ∉ options.map Prod.fst) (o : CompilerOptions) :
  (options.foldl (fun o option => setOption o option.1 option.2) o).getOption? name
    = o.getOption? name
  := by
  induction options generalizing o with
  | nil => rfl
  | cons option rest ih =>
    rw [List.map_cons, List.mem_cons, not_or] at unset
    rw [List.foldl_cons, ih unset.2, getOption?_setOption_of_ne (Ne.symm unset.1)]

/-- Of options with distinct names that are set to kept values, each has its value in the end. -/
theorem getOption?_foldl_of_mem {options : List (String × Value)}
    (kept : ∀ option ∈ options, IsKept option.1 option.2)
    (distinct : (options.map Prod.fst).Nodup) (member : (name, w) ∈ options)
    (o : CompilerOptions) :
  (options.foldl (fun o option => setOption o option.1 option.2) o).getOption? name = some w
  := by
  induction options generalizing o with
  | nil => cases member
  | cons option rest ih =>
    rw [List.forall_mem_cons] at kept
    rw [List.map_cons, List.nodup_cons] at distinct
    rw [List.foldl_cons]
    rcases List.mem_cons.1 member with rfl | later
    · rw [getOption?_foldl_of_not_mem distinct.1]
      apply getOption?_setOption_self kept.1
    · apply ih kept.2 distinct.2 later

theorem extra_setOption_of_mem (field : name ∈ fieldNames) (o : CompilerOptions) (v : Value) :
  (setOption o name v).extra = o.extra
  := by
  rw [mem_fieldNames_iff] at field
  rcases field with rfl | rfl | rfl | rfl | rfl | rfl | rfl | rfl | rfl
  all_goals rfl

/-- New options that have no field are put behind the others, in their order. -/
theorem extra_foldl_setOption {options : List (String × Value)} {o : CompilerOptions}
    (distinct : (o.extra.keys ++ options.map Prod.fst).Nodup) :
  (options.foldl (fun o option => setOption o option.1 option.2) o).extra.entries
    = o.extra.entries ++ options.filter fun option => option.1 ∉ fieldNames
  := by
  induction options generalizing o with
  | nil => simp
  | cons option rest ih =>
    rw [List.foldl_cons]
    by_cases field : option.1 ∈ fieldNames
    · have same := extra_setOption_of_mem field o option.2
      have skipped : ¬ decide (option.1 ∉ fieldNames) = true := by simpa using field
      rw [ih, same, List.filter_cons, if_neg skipped]
      rw [same]
      apply distinct.sublist ((List.sublist_cons_self _ _).append_left _)
    · have new : option.1 ∉ o.extra.keys := by
        intro old
        apply (List.nodup_append.1 distinct).2.2 _ old _ List.mem_cons_self rfl
      have added : (o.extra.insert option.1 option.2).entries = o.extra.entries ++ [option] :=
        OrderedMap.put_of_not_mem new option.2
      rw [setOption_of_not_mem field, ih, added, List.filter_cons, if_pos (decide_eq_true field),
        List.append_assoc, List.singleton_append]
      rw [OrderedMap.keys_insert, if_neg new, List.append_assoc]
      apply distinct

/-! ### Accepted and rejected options -/

/-- An option accepts a value in a form: there is such an option, and the value is not `null`, is of
its kind, and is kept in this form. -/
def IsAccepted (name : String) (v w : Value) : Prop :=
  v ≠ .null ∧ ∃ kind, optionKind? name = some kind ∧ kind.check v = .ok w

/-- An option rejects a value: there is no such option, or the value is not `null` and unfit. -/
def IsRejected (name : String) (v : Value) : Prop :=
  optionKind? name = none
    ∨ v ≠ .null ∧ ∃ kind misfit, optionKind? name = some kind ∧ kind.check v = .error misfit

/-- The form in which an option accepts a value. -/
def accepted? (name : String) (v : Value) : Option Value :=
  if v = .null then none else (optionKind? name).bind fun kind => (kind.check v).toOption

theorem accepted?_eq_some_iff :
  accepted? name v = some w ↔ IsAccepted name v w
  := by
  rw [accepted?, IsAccepted]
  split
  case isTrue null => simp [null]
  case isFalse given =>
    rw [Option.bind_eq_some_iff, and_iff_right given]
    apply exists_congr
    intro kind
    apply and_congr_right
    intro _
    cases kind.check v <;> simp [Except.toOption]

theorem IsAccepted.isKept (accepted : IsAccepted name v w) :
  IsKept name w
  := by
  obtain ⟨given, kind, known, checked⟩ := accepted
  apply isKept_of_check known given checked

theorem isSome_complaint?_iff {origin : Option String} :
  (complaint? origin name v).isSome = true ↔ IsRejected name v
  := by
  rw [complaint?, IsRejected]
  cases optionKind? name with
  | none => simp
  | some kind =>
    by_cases null : v = .null
    · simp [null]
    · cases checked : kind.check v <;> simp [null, checked]

instance (name : String) (v : Value) : Decidable (IsRejected name v) :=
  decidable_of_iff ((complaint? none name v).isSome = true) isSome_complaint?_iff

/-- A value that is not `null` is accepted in some form unless it is rejected. -/
theorem exists_isAccepted (given : v ≠ .null) (fit : ¬ IsRejected name v) :
  ∃ w, IsAccepted name v w
  := by
  rw [IsRejected, not_or] at fit
  obtain ⟨known, fit⟩ := fit
  obtain ⟨kind, known⟩ := Option.ne_none_iff_exists'.1 known
  cases checked : kind.check v with
  | error misfit => exact absurd ⟨given, kind, misfit, known, checked⟩ fit
  | ok w => exact ⟨w, given, kind, known, checked⟩

theorem IsAccepted.not_isRejected (accepted : IsAccepted name v w) :
  v ≠ .null ∧ ¬ IsRejected name v
  := by
  obtain ⟨given, kind, known, checked⟩ := accepted
  use given
  rintro (unknown | ⟨-, kind', misfit, known', unfit⟩)
  · rw [unknown] at known
    cases known
  · rw [known] at known'
    obtain rfl := Option.some.inj known'
    rw [checked] at unfit
    cases unfit

theorem options_applyOption (r : Resolved) (origin : Option String) (name : String) (v : Value) :
  (applyOption r origin name v).options
    = (accepted? name v).elim r.options (setOption r.options name)
  := by
  rw [applyOption, accepted?]
  cases optionKind? name with
  | none => simp
  | some kind =>
    by_cases null : v = .null
    · simp [null]
    · cases checked : kind.check v <;> simp [null, checked, Except.toOption]

/-- The options of a list that are accepted, each in the form in which it is. -/
def acceptedOptions (options : List (String × Value)) : List (String × Value) :=
  options.filterMap fun option => (accepted? option.1 option.2).map fun w => (option.1, w)

theorem mem_acceptedOptions_iff {options : List (String × Value)} :
  (name, w) ∈ acceptedOptions options ↔ ∃ v, (name, v) ∈ options ∧ IsAccepted name v w
  := by
  simp only [acceptedOptions, List.mem_filterMap, Option.map_eq_some_iff, accepted?_eq_some_iff,
    Prod.mk.injEq]
  constructor
  · rintro ⟨⟨name, v⟩, member, w, accepted, rfl, rfl⟩
    use v
  · rintro ⟨v, member, accepted⟩
    use (name, v), member, w

theorem isKept_of_mem_acceptedOptions (options : List (String × Value)) :
  ∀ option ∈ acceptedOptions options, IsKept option.1 option.2
  := by
  intro option member
  obtain ⟨v, -, accepted⟩ := mem_acceptedOptions_iff.1 member
  apply accepted.isKept

theorem names_acceptedOptions_sublist (options : List (String × Value)) :
  ((acceptedOptions options).map Prod.fst).Sublist (options.map Prod.fst)
  := by
  induction options with
  | nil => apply List.Sublist.refl
  | cons option rest ih =>
    cases found : accepted? option.1 option.2 with
    | none => simpa [acceptedOptions, found] using ih.cons option.1
    | some w => simpa [acceptedOptions, found] using ih

theorem options_foldl_applyOption (origins : OrderedMap String String)
    (options : List (String × Value)) (r : Resolved) :
  (options.foldl
      (fun r option => applyOption r (origins.get? option.1) option.1 option.2) r).options
    = (acceptedOptions options).foldl (fun o option => setOption o option.1 option.2) r.options
  := by
  induction options generalizing r with
  | nil => rfl
  | cons option rest ih =>
    rw [List.foldl_cons, ih, options_applyOption]
    cases accepted : accepted? option.1 option.2 <;> simp [acceptedOptions, accepted]

/-- Applying options sets those that are accepted, in their order. -/
theorem options_apply (s : Sources) :
  (apply s).options
    = (acceptedOptions s.options.entries).foldl (fun o option => setOption o option.1 option.2)
        .default
  := options_foldl_applyOption s.origins s.options.entries ⟨.default, []⟩

/-! ### Sources applied -/

theorem nodup_acceptedOptions (s : Sources) :
  ((acceptedOptions s.options.entries).map Prod.fst).Nodup
  := s.options.distinct.sublist (names_acceptedOptions_sublist s.options.entries)

theorem getOption?_apply_of_isAccepted {s : Sources} (set : s.options.get? name = some v)
    (accepted : IsAccepted name v w) :
  (apply s).options.getOption? name = some w
  := by
  rw [options_apply]
  apply getOption?_foldl_of_mem (isKept_of_mem_acceptedOptions _) (nodup_acceptedOptions s)
  rw [mem_acceptedOptions_iff]
  use v, (s.options.mem_entries_iff name v).2 set

theorem getOption?_apply_of_not_isAccepted {s : Sources}
    (unset : ∀ v, s.options.get? name = some v → v = .null ∨ IsRejected name v) :
  (apply s).options.getOption? name = CompilerOptions.default.getOption? name
  := by
  rw [options_apply]
  apply getOption?_foldl_of_not_mem
  rw [List.mem_map]
  rintro ⟨⟨name, w⟩, member, rfl⟩
  obtain ⟨v, listed, accepted⟩ := mem_acceptedOptions_iff.1 member
  rcases unset v ((s.options.mem_entries_iff _ v).1 listed) with null | rejected
  · apply accepted.not_isRejected.1 null
  · apply accepted.not_isRejected.2 rejected

theorem extra_apply (s : Sources) :
  (apply s).options.extra.entries
    = (acceptedOptions s.options.entries).filter fun option => option.1 ∉ fieldNames
  := by
  rw [options_apply]
  apply extra_foldl_setOption (o := .default)
  apply nodup_acceptedOptions s

/-- The order of options decides nothing but that of the options without a field. -/
theorem alike_apply {s s' : Sources} (permuted : s'.options.entries.Perm s.options.entries) :
  (apply s').options.Alike (apply s).options
  := by
  have same (name : String) : s'.options.get? name = s.options.get? name := by
    apply Option.ext
    intro v
    rw [← OrderedMap.mem_entries_iff, ← OrderedMap.mem_entries_iff, permuted.mem_iff]
  constructor
  · apply fields_eq_of_getOption?
    intro name _
    by_cases unset : ∀ v, s.options.get? name = some v → v = .null ∨ IsRejected name v
    · rw [getOption?_apply_of_not_isAccepted unset, getOption?_apply_of_not_isAccepted]
      rw [same]
      apply unset
    · simp only [not_forall, not_or] at unset
      obtain ⟨v, set, given, fit⟩ := unset
      obtain ⟨w, accepted⟩ := exists_isAccepted given fit
      rw [getOption?_apply_of_isAccepted set accepted,
        getOption?_apply_of_isAccepted ((same name).trans set) accepted]
  · rw [extra_apply, extra_apply]
    apply (permuted.filterMap _).filter

/-- Applying options gives one diagnostic for each of them that is rejected, in their order and from
the file that sets it, and no others.  An option that is not rejected and not `null` has the form in
which it is accepted, in its field or among the options that have none, and all others have their
defaults.  Setting an option to such a form gives it this very value and leaves every other option.
The order of the options decides nothing but that of the options without a field. -/
theorem apply_partition (s : Sources)
    (covered : ∀ name ∈ s.options.keys, name ∈ s.origins.keys) :
  let r := apply s
  List.Forall₂ (fun (option : String × Value) d => ∃ origin, s.origins.get? option.1 = some origin
        ∧ Complains (some origin) option.1 option.2 d ∧ d.file = some origin)
      (s.options.entries.filter fun option => IsRejected option.1 option.2) r.diagnostics
    ∧ (∀ name v, s.options.get? name = some v → v ≠ .null → ¬ IsRejected name v →
      ∃ w, IsAccepted name v w ∧ r.options.getOption? name = some w)
    ∧ (∀ name, (∀ v, s.options.get? name = some v → v = .null ∨ IsRejected name v) →
      r.options.getOption? name = CompilerOptions.default.getOption? name)
    ∧ (∀ name w, (name, w) ∈ r.options.extra.entries
      ↔ name ∉ fieldNames ∧ ∃ v, s.options.get? name = some v ∧ IsAccepted name v w)
    ∧ (∀ name v w, IsAccepted name v w → ∀ o : CompilerOptions,
      (setOption o name w).getOption? name = some w
        ∧ ∀ other, name ≠ other → (setOption o name w).getOption? other = o.getOption? other)
    ∧ ∀ s' : Sources, s'.options.entries.Perm s.options.entries →
      (apply s').options.Alike r.options
  := by
  refine ⟨?_, ?_, ?_, ?_, ?_, ?_⟩
  · rw [diagnostics_apply]
    apply forall₂_filterMap
    · intro option _
      rw [← Bool.coe_iff_coe, decide_eq_true_eq, isSome_complaint?_iff]
    · intro option member d found
      have present := covered option.1 (List.mem_map_of_mem member)
      obtain ⟨origin, named⟩ :=
        Option.isSome_iff_exists.1 ((s.origins.mem_keys_iff option.1).1 present)
      rw [named] at found
      have complains := complaint?_eq_some_iff.1 found
      use origin, named, complains, complains.file
  · intro name v set given fit
    obtain ⟨w, accepted⟩ := exists_isAccepted given fit
    use w, accepted, getOption?_apply_of_isAccepted set accepted
  · intro name unset
    apply getOption?_apply_of_not_isAccepted unset
  · intro name w
    rw [extra_apply, List.mem_filter, mem_acceptedOptions_iff, decide_eq_true_eq, and_comm]
    simp only [OrderedMap.mem_entries_iff]
  · intro name v w accepted o
    use getOption?_setOption_self accepted.isKept o
    intro other apart
    apply getOption?_setOption_of_ne apart
  · intro s' permuted
    apply alike_apply permuted

/-- Options of two files: one that there is not, and others that are words, lists, choices and
`null`. -/
def mixedSources : Sources where
  options := .ofList
    [("colour", .null), ("strict", .string " OFF "), ("target", .string "es1"), ("jsx", .null),
      ("lib", .array [.string "dom"]), ("noEmit", .string "yes"), ("types", .array [.null])]
  origins := .ofList
    [("colour", "base.json"), ("strict", "main.json"), ("target", "main.json"),
      ("jsx", "main.json"), ("lib", "base.json"), ("noEmit", "base.json"), ("types", "main.json")]

/-- There are three diagnostics, and the word is a truth value in the end. -/
theorem apply_partition_mixed :
  (∀ name ∈ mixedSources.options.keys, name ∈ mixedSources.origins.keys)
    ∧ (apply mixedSources).diagnostics.length = 3
    ∧ (apply mixedSources).options.getOption? "strict" = some (.bool false)
    ∧ (apply mixedSources).options.getOption? "jsx" = some (.string "react")
  := by
  have covered : ∀ name ∈ mixedSources.options.keys, name ∈ mixedSources.origins.keys := by
    decide
  use covered
  obtain ⟨diagnosed, set, unset, -⟩ := apply_partition mixedSources covered
  refine ⟨?_, ?_, ?_⟩
  · rw [← diagnosed.length_eq]
    decide +kernel
  · obtain ⟨w, accepted, value⟩ := set "strict" (.string " OFF ") (by decide +kernel)
      Value.noConfusion (by decide +kernel)
    have form : accepted? "strict" (.string " OFF ") = some (.bool false) := by decide +kernel
    rw [value, ← form, accepted?_eq_some_iff.2 accepted]
  · rw [unset "jsx"]
    · rfl
    · have null : mixedSources.options.get? "jsx" = some .null := by decide +kernel
      intro v given
      left
      apply Option.some.inj (given.symm.trans null)

end Config

end TypeAssertions
