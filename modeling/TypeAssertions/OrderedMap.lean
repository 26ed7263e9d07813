/-!
# Maps in order of insertion

An `OrderedMap` lists its entries in the order in which their keys were first inserted, and no
key twice.  `insert` gives a key a value and leaves the place of a key that is already there;
`get?` is the value of a key.  The lemmas say what `insert` does to the keys and to the values.
-/

namespace TypeAssertions

/-- Entries with distinct keys, in order of insertion. -/
structure OrderedMap (κ : Type) (α : Type) where
  entries : List (κ × α)
  distinct : (entries.map Prod.fst).Nodup

namespace OrderedMap

variable {κ α : Type} [DecidableEq κ]

instance [DecidableEq α] : DecidableEq (OrderedMap κ α) := fun m n =>
  decidable_of_iff (m.entries = n.entries) ⟨by cases m; cases n; simp, fun h => h ▸ rfl⟩

instance [BEq α] : BEq (OrderedMap κ α) where
  beq m n := m.entries == n.entries

/-- The map without entries. -/
def empty : OrderedMap κ α := ⟨[], List.nodup_nil⟩

instance : Inhabited (OrderedMap κ α) := ⟨empty⟩

/-- The keys in order of insertion. -/
def keys (m : OrderedMap κ α) : List κ := m.entries.map Prod.fst

/-- The values in the order of their keys. -/
def values (m : OrderedMap κ α) : List α := m.entries.map Prod.snd

/-- The value of a key. -/
def get? (m : OrderedMap κ α) (k : κ) : Option α :=
  (m.entries.find? fun entry => entry.1 = k).map Prod.snd

/-- Whether a key has a value. -/
def contains (m : OrderedMap κ α) (k : κ) : Bool :=
  m.entries.any fun entry => entry.1 = k

/-- Entries with the value of key `k` replaced, or with an entry of `k` added at the end. -/
def put (k : κ) (a : α) : List (κ × α) → List (κ × α)
  | [] => [(k, a)]
  | (l, b) :: rest => if l = k then (k, a) :: rest else (l, b) :: put k a rest

theorem map_fst_put (k : κ) (a : α) (entries : List (κ × α)) :
  (put k a entries).map Prod.fst
    = if k ∈ entries.map Prod.fst then entries.map Prod.fst else entries.map Prod.fst ++ [k]
  := by
  induction entries with
  | nil => simp [put]
  | cons entry rest ih =>
    obtain ⟨l, b⟩ := entry
    by_cases h : l = k
    · subst h
      simp [put]
    · have other : k ≠ l := fun e => h e.symm
      simp only [put, h, if_false, List.map_cons, ih, List.mem_cons, other, false_or]
      split <;> rfl

theorem nodup_put (k : κ) (a : α) {entries : List (κ × α)}
    (h : (entries.map Prod.fst).Nodup) :
  ((put k a entries).map Prod.fst).Nodup
  := by
  rw [map_fst_put]
  split
  · exact h
  case isFalse fresh =>
    rw [List.nodup_append]
    refine ⟨h, by simp, ?_⟩
    rintro x mx y my rfl
    obtain rfl := List.mem_singleton.1 my
    exact fresh mx

/-- The map in which key `k` has value `a`; a new key comes last. -/
def insert (m : OrderedMap κ α) (k : κ) (a : α) : OrderedMap κ α :=
  ⟨put k a m.entries, nodup_put k a m.distinct⟩

theorem keys_insert (m : OrderedMap κ α) (k : κ) (a : α) :
  (m.insert k a).keys = if k ∈ m.keys then m.keys else m.keys ++ [k]
  := map_fst_put k a m.entries

theorem find?_put (k l : κ) (a : α) (entries : List (κ × α)) :
  ((put k a entries).find? fun entry => entry.1 = l).map Prod.snd
    = if k = l then some a else (entries.find? fun entry => entry.1 = l).map Prod.snd
  := by
  induction entries with
  | nil =>
    by_cases h : k = l <;> simp [put, h]
  | cons entry rest ih =>
    obtain ⟨j, b⟩ := entry
    simp only [put]
    split
    case isTrue h =>
      subst h
      by_cases h : j = l <;> simp [h]
    case isFalse h =>
      by_cases same : j = l
      · subst same
        have other : k ≠ j := fun e => h e.symm
        simp [other]
      · simpa [same] using ih

/-- Only the value of `k` changes when it is inserted. -/
theorem get?_insert (m : OrderedMap κ α) (k l : κ) (a : α) :
  (m.insert k a).get? l = if k = l then some a else m.get? l
  := find?_put k l a m.entries

/-- The map that the entries give when they are inserted in order. -/
def ofList (entries : List (κ × α)) : OrderedMap κ α :=
  entries.foldl (fun m entry => m.insert entry.1 entry.2) empty

/-- The map without the entry of key `k`. -/
def erase (m : OrderedMap κ α) (k : κ) : OrderedMap κ α :=
  ⟨m.entries.filter fun entry => entry.1 ≠ k,
    m.distinct.sublist ((List.filter_sublist).map Prod.fst)⟩

end OrderedMap

end TypeAssertions
