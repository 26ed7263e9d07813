import Mathlib.Tactic.Use
import TypeAssertions.Config.Extends
import TypeAssertions.Proofs.Insertion

/-!
# Merged sources

Files that are merged one over the other are `layers`, the lowest first.  The sources that they
give have the options that some layer sets, in the order in which they are first set, and the
value and the origin of an option are those of the last layer that sets it (`Sources.Merges`).
Putting sources over others, or one more file over sources, puts their layers after the others.
-/

namespace TypeAssertions.Config

open Json

/-! ### Layers -/

/-- A file as it is reached, and the options that it sets. -/
structure Layer where
  name : String
  options : OrderedMap String Value

namespace Layer

/-- The options that layers set, each as often as it is set. -/
def set (layers : List Layer) : List String := layers.flatMap fun layer => layer.options.keys

/-- The last layer that sets an option has the name `origin` and gives the option the value `v`. -/
def LastSets (layers : List Layer) (option : String) (v : Value) (origin : String) : Prop :=
  ∃ before layer after, layers = before ++ layer :: after
    ∧ layer.options.get? option = some v ∧ layer.name = origin
    ∧ ∀ other ∈ after, option ∉ other.options.keys

/-- The value of an option in the last layer that sets it, and the name of that layer. -/
def last? (layers : List Layer) (option : String) : Option (Value × String) :=
  layers.reverse.findSome? fun layer => (layer.options.get? option).map fun v => (v, layer.name)

theorem last?_append (below above : List Layer) (option : String) :
  last? (below ++ above) option = (last? above option).or (last? below option)
  := by
  rw [last?, List.reverse_append, List.findSome?_append, last?, last?]

theorem last?_eq_some_iff (layers : List Layer) (option : String) (v : Value) (origin : String) :
  last? layers option = some (v, origin) ↔ LastSets layers option v origin
  := by
  rw [last?, List.findSome?_eq_some_iff]
  constructor
  · rintro ⟨after, layer, before, split, found, unset⟩
    rw [List.reverse_eq_iff] at split
    obtain ⟨w, value, same⟩ := Option.map_eq_some_iff.1 found
    obtain ⟨rfl, rfl⟩ := Prod.mk.inj same
    use before.reverse, layer, after.reverse
    refine ⟨by simpa using split, value, rfl, ?_⟩
    intro other member
    rw [← OrderedMap.get?_eq_none_iff]
    apply Option.map_eq_none_iff.1 (unset other (List.mem_reverse.1 member))
  · rintro ⟨before, layer, after, rfl, value, rfl, unset⟩
    use after.reverse, layer, before.reverse
    refine ⟨by simp, by simp [value], ?_⟩
    intro other member
    rw [Option.map_eq_none_iff, OrderedMap.get?_eq_none_iff]
    apply unset other (List.mem_reverse.1 member)

end Layer

namespace Sources

/-- Every option has an origin, and nothing else has one. -/
def Matched (s : Sources) : Prop := ∀ option, option ∈ s.origins.keys ↔ option ∈ s.options.keys

/-- The sources are those that layers give. -/
structure Merges (layers : List Layer) (s : Sources) : Prop where
  keys : s.options.keys = (Layer.set layers).eraseDups
  value : ∀ option, s.options.get? option = (Layer.last? layers option).map Prod.fst
  origin : ∀ option, s.origins.get? option = (Layer.last? layers option).map Prod.snd

theorem Merges.matched {layers : List Layer} {s : Sources} (h : s.Merges layers) :
  s.Matched
  := by
  intro option
  rw [OrderedMap.mem_keys_iff, OrderedMap.mem_keys_iff, h.value, h.origin, Option.isSome_map,
    Option.isSome_map]

/-! ### A file over sources -/

theorem foldl_set (s : Sources) (options : List (String × Value)) (origin : String) :
  options.foldl (fun s option => s.set option.1 option.2 origin) s
    = ⟨options.foldl (fun m option => m.insert option.1 option.2) s.options,
        (options.map fun option => (option.1, origin)).foldl
          (fun m option => m.insert option.1 option.2) s.origins⟩
  := by
  induction options generalizing s with
  | nil => rfl
  | cons option rest ih => apply ih

/-- Sources stay matched while a file sets options. -/
theorem Matched.foldl_set {s : Sources} (matched : s.Matched) (options : List (String × Value))
    (origin : String) :
  (options.foldl (fun s option => s.set option.1 option.2 origin) s).Matched
  := by
  intro name
  have same : (options.map fun option => (option.1, origin)).map Prod.fst
      = options.map Prod.fst := by
    rw [List.map_map]
    rfl
  rw [Sources.foldl_set, OrderedMap.keys_foldl_insert, OrderedMap.keys_foldl_insert, same,
    List.mem_eraseDups, List.mem_eraseDups, List.mem_append, List.mem_append, matched]

theorem Merges.empty :
  Sources.empty.Merges []
  := by
  constructor
  · rfl
  · intro option
    rfl
  · intro option
    rfl

/-- A file over sources is one more layer. -/
theorem Merges.extendFrom {layers : List Layer} {s : Sources} (h : s.Merges layers)
    (options : OrderedMap String Value) (origin : String) :
  (s.extendFrom options origin).Merges (layers ++ [⟨origin, options⟩])
  := by
  have top (option : String) : Layer.last? [⟨origin, options⟩] option
      = (options.get? option).map fun v => (v, origin) := by
    simp [Layer.last?]
  have distinct : ((options.entries.map fun option => (option.1, origin)).map Prod.fst).Nodup := by
    rw [List.map_map]
    apply options.distinct
  rw [Sources.extendFrom, foldl_set]
  constructor
  · show (options.entries.foldl _ s.options).keys = _
    rw [OrderedMap.keys_foldl_insert, h.keys, List.eraseDups_eraseDups_append, Layer.set,
      Layer.set, List.flatMap_append, List.flatMap_singleton]
    rfl
  · intro option
    show (options.entries.foldl _ s.options).get? option = _
    rw [OrderedMap.get?_foldl_insert _ options.distinct, h.value, Layer.last?_append, top,
      Option.map_or, Option.map_map]
    show (options.get? option).or _ = ((options.get? option).map id).or _
    rw [Option.map_id, id]
  · intro option
    show (((options.entries.map fun option => (option.1, origin)).foldl _ s.origins).get? option)
      = _
    rw [OrderedMap.get?_foldl_insert _ distinct, h.origin, Layer.last?_append, top,
      Option.map_or, Option.map_map, List.find?_map, OrderedMap.get?, Option.map_map,
      Option.map_map]
    rfl

/-! ### Sources over sources -/

theorem options_foldl_move (options : List (String × Value))
    (state : Sources × OrderedMap String String) :
  (options.foldl move state).1.options
    = options.foldl (fun m option => m.insert option.1 option.2) state.1.options
  := by
  induction options generalizing state with
  | nil => rfl
  | cons option rest ih =>
    rw [List.foldl_cons, List.foldl_cons, ih]
    congr 1
    rw [move]
    split <;> rfl

theorem origins_move (state : Sources × OrderedMap String String) (option : String × Value)
    (name : String) :
  (move state option).1.origins.get? name
    = if option.1 = name then (state.2.get? name).or (state.1.origins.get? name)
      else state.1.origins.get? name
  := by
  rw [move]
  split
  case h_1 origin found =>
    simp only [set, OrderedMap.get?_insert]
    by_cases same : option.1 = name
    · subst same
      simp [found]
    · simp [same]
  case h_2 missing =>
    by_cases same : option.1 = name
    · subst same
      simp [missing]
    · simp [same]

theorem left_move (state : Sources × OrderedMap String String) {option : String × Value}
    {name : String} (other : option.1 ≠ name) :
  (move state option).2.get? name = state.2.get? name
  := by
  rw [move]
  split
  case h_1 => apply OrderedMap.get?_erase _ other
  case h_2 => rfl

/-- The options that are moved take their origins along. -/
theorem origins_foldl_move {options : List (String × Value)}
    (distinct : (options.map Prod.fst).Nodup) (state : Sources × OrderedMap String String)
    (name : String) :
  (options.foldl move state).1.origins.get? name
    = if name ∈ options.map Prod.fst then (state.2.get? name).or (state.1.origins.get? name)
      else state.1.origins.get? name
  := by
  induction options generalizing state with
  | nil => rfl
  | cons option rest ih =>
    rw [List.map_cons, List.nodup_cons] at distinct
    rw [List.foldl_cons, ih distinct.2, origins_move]
    by_cases same : option.1 = name
    · subst same
      rw [if_neg distinct.1, if_pos rfl, if_pos (by simp)]
    · rw [left_move state same, if_neg same]
      have member : name ∈ (option :: rest).map Prod.fst ↔ name ∈ rest.map Prod.fst := by
        simp [Ne.symm same]
      simp only [member]

/-- Sources stay matched while the options of others are moved over them. -/
theorem Matched.foldl_move {below above : Sources} {options : List (String × Value)}
    (matched : below.Matched) (others : above.Matched) (part : options <+: above.options.entries) :
  (options.foldl move (below, above.origins)).1.Matched
  := by
  have distinct : (options.map Prod.fst).Nodup :=
    above.options.distinct.sublist (part.sublist.map Prod.fst)
  intro name
  rw [OrderedMap.mem_keys_iff, origins_foldl_move distinct, options_foldl_move,
    OrderedMap.keys_foldl_insert, List.mem_eraseDups, List.mem_append, ← matched,
    OrderedMap.mem_keys_iff]
  by_cases moved : name ∈ options.map Prod.fst
  · have present : name ∈ above.options.keys := List.map_subset Prod.fst part.subset moved
    rw [← others, OrderedMap.mem_keys_iff] at present
    simp [moved, present]
  · simp [moved]

/-- Merged sources have the layers of both. -/
theorem Merges.merge {lower upper : List Layer} {below above : Sources}
    (h : below.Merges lower) (h' : above.Merges upper) :
  (below.merge above).Merges (lower ++ upper)
  := by
  constructor
  · rw [Sources.merge, options_foldl_move, OrderedMap.keys_foldl_insert, h.keys]
    show (_ ++ above.options.keys).eraseDups = _
    rw [h'.keys, List.eraseDups_append_eraseDups, List.eraseDups_eraseDups_append, Layer.set,
      Layer.set, Layer.set, List.flatMap_append]
  · intro option
    rw [Sources.merge, options_foldl_move, OrderedMap.get?_foldl_insert _ above.options.distinct]
    show (above.options.get? option).or _ = _
    rw [h.value, h'.value, Layer.last?_append, Option.map_or]
  · intro option
    rw [Sources.merge, origins_foldl_move above.options.distinct]
    show (if option ∈ above.options.keys then _ else _) = _
    rw [Layer.last?_append, Option.map_or, ← h.origin, ← h'.origin]
    split
    case isTrue => rfl
    case isFalse missing =>
      rw [← h'.matched, ← OrderedMap.get?_eq_none_iff] at missing
      rw [missing, Option.none_or]

end Sources

end TypeAssertions.Config
