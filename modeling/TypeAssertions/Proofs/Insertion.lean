import Mathlib.Data.List.Induction
import Mathlib.Data.List.Nodup
import Mathlib.Tactic.Use
import TypeAssertions.OrderedMap

/-!
# Insertion of many entries

Entries that are inserted into a map one after the other add their keys in the order in which they
first occur, and the value of a key is that of the last entry that has it.  The entries of another
map replace the values of its keys.
-/

namespace List

variable {α : Type} [DecidableEq α]

theorem eraseDups_concat (l : List α) (a : α) :
  (l ++ [a]).eraseDups = if a ∈ l then l.eraseDups else l.eraseDups ++ [a]
  := by
  rw [eraseDups_append]
  by_cases member : a ∈ l
  · simp [member, removeAll]
  · simp [member, removeAll, eraseDups_cons]

theorem eraseDups_sublist (l : List α) :
  l.eraseDups.Sublist l
  := by
  induction l using reverseRecOn with
  | nil => apply Sublist.refl
  | append_singleton l a ih =>
    rw [eraseDups_concat]
    split
    · apply ih.trans (sublist_append_left l [a])
    · apply ih.append (Sublist.refl [a])

/-- What occurs in the second part for the first time occurs there first. -/
theorem eraseDups_append_eraseDups (l r : List α) :
  (l ++ r.eraseDups).eraseDups = (l ++ r).eraseDups
  := by
  induction r using reverseRecOn with
  | nil => simp
  | append_singleton r a ih =>
    rw [eraseDups_concat]
    by_cases member : a ∈ r
    · have twice : a ∈ l ++ r := mem_append_right l member
      rw [if_pos member, ih, ← append_assoc, eraseDups_concat, if_pos twice]
    · have same : a ∈ l ++ r.eraseDups ↔ a ∈ l ++ r := by simp
      rw [if_neg member, ← append_assoc, ← append_assoc, eraseDups_concat, eraseDups_concat, ih]
      simp only [same]

theorem eraseDups_eraseDups_append (l r : List α) :
  (l.eraseDups ++ r).eraseDups = (l ++ r).eraseDups
  := by
  induction r using reverseRecOn with
  | nil => simpa using eraseDups_append_eraseDups [] l
  | append_singleton r a ih =>
    have same : a ∈ l.eraseDups ++ r ↔ a ∈ l ++ r := by simp
    rw [← append_assoc, ← append_assoc, eraseDups_concat, eraseDups_concat, ih]
    simp only [same]

theorem Nodup.eraseDups_eq {l : List α} (distinct : l.Nodup) :
  l.eraseDups = l
  := by
  induction l using reverseRecOn with
  | nil => rfl
  | append_singleton l a ih =>
    rw [nodup_append] at distinct
    have fresh : a ∉ l := fun member => distinct.2.2 a member a (mem_singleton_self a) rfl
    rw [eraseDups_concat, if_neg fresh, ih distinct.1]

end List

namespace TypeAssertions.OrderedMap

variable {κ α : Type} [DecidableEq κ]

theorem mem_keys_iff (m : OrderedMap κ α) (k : κ) :
  k ∈ m.keys ↔ (m.get? k).isSome
  := by
  simp [keys, get?]

theorem get?_eq_none_iff (m : OrderedMap κ α) (k : κ) :
  m.get? k = none ↔ k ∉ m.keys
  := by
  rw [mem_keys_iff]
  simp

theorem mem_entries_iff (m : OrderedMap κ α) (k : κ) (a : α) :
  (k, a) ∈ m.entries ↔ m.get? k = some a
  := by
  rw [get?, Option.map_eq_some_iff]
  constructor
  · intro member
    cases found : m.entries.find? fun entry => entry.1 = k with
    | none =>
      have other := List.find?_eq_none.1 found (k, a) member
      simp at other
    | some entry =>
      have same : entry.1 = k := by simpa using List.find?_some found
      use entry, rfl
      have unique := List.inj_on_of_nodup_map m.distinct (List.mem_of_find?_eq_some found) member
        same
      rw [unique]
  · rintro ⟨entry, found, rfl⟩
    have same : entry.1 = k := by simpa using List.find?_some found
    rw [← same]
    apply List.mem_of_find?_eq_some found

theorem contains_eq_isSome (m : OrderedMap κ α) (k : κ) :
  m.contains k = (m.get? k).isSome
  := by
  rw [contains, get?, Option.isSome_map, List.isSome_find?]

theorem get?_erase_self (m : OrderedMap κ α) (k : κ) :
  (m.erase k).get? k = none
  := by
  simp [get?, erase, List.find?_eq_none]

theorem get?_erase (m : OrderedMap κ α) {k l : κ} (other : k ≠ l) :
  (m.erase k).get? l = m.get? l
  := by
  simp only [get?, erase, List.find?_filter]
  congr 2
  funext entry
  by_cases same : entry.1 = l
  · subst same
    simp [other.symm]
  · simp [same]

/-- The keys of entries are added in the order in which they first occur. -/
theorem keys_foldl_insert (m : OrderedMap κ α) (entries : List (κ × α)) :
  (entries.foldl (fun m entry => m.insert entry.1 entry.2) m).keys
    = (m.keys ++ entries.map Prod.fst).eraseDups
  := by
  induction entries using List.reverseRecOn with
  | nil =>
    simp only [List.foldl_nil, List.map_nil, List.append_nil]
    symm
    apply List.Nodup.eraseDups_eq m.distinct
  | append_singleton entries entry ih =>
    simp only [List.foldl_append, List.foldl_cons, List.foldl_nil, List.map_append, List.map_cons,
      List.map_nil]
    rw [keys_insert, ih, ← List.append_assoc, List.eraseDups_concat]
    simp only [List.mem_eraseDups]

/-- The keys of entries are those that occur in them, in the order in which they first occur. -/
theorem keys_ofList (entries : List (κ × α)) :
  (ofList entries).keys = (entries.map Prod.fst).eraseDups
  := keys_foldl_insert empty entries

/-- Entries all have a place in their map when no key occurs twice. -/
theorem length_entries_ofList_eq_iff (entries : List (κ × α)) :
  (ofList entries).entries.length = entries.length ↔ (entries.map Prod.fst).Nodup
  := by
  have keys := keys_ofList entries
  have lengths : (ofList entries).keys.length = (ofList entries).entries.length := List.length_map _
  rw [← lengths, keys]
  constructor
  · intro full
    have all := (entries.map Prod.fst).eraseDups_sublist.eq_of_length
      (full.trans (List.length_map _).symm)
    rw [← all, ← keys]
    apply (ofList entries).distinct
  · intro distinct
    rw [distinct.eraseDups_eq, List.length_map]

theorem put_of_not_mem {entries : List (κ × α)} {k : κ} (new : k ∉ entries.map Prod.fst) (a : α) :
  put k a entries = entries ++ [(k, a)]
  := by
  induction entries with
  | nil => rfl
  | cons entry rest ih =>
    rw [List.map_cons, List.mem_cons, not_or] at new
    rw [put, if_neg (Ne.symm new.1), ih new.2, List.cons_append]

/-- Entries come after those that are there when all keys are distinct. -/
theorem entries_foldl_insert {m : OrderedMap κ α} {entries : List (κ × α)}
    (distinct : (m.keys ++ entries.map Prod.fst).Nodup) :
  (entries.foldl (fun m entry => m.insert entry.1 entry.2) m).entries = m.entries ++ entries
  := by
  induction entries generalizing m with
  | nil => rw [List.foldl_nil, List.append_nil]
  | cons entry rest ih =>
    have split : (m.keys ++ [entry.1] ++ rest.map Prod.fst).Nodup := by simpa using distinct
    have new : entry.1 ∉ m.keys := by
      have apart := (List.nodup_append.1 (List.nodup_append.1 split).1).2.2
      intro member
      apply apart _ member _ (List.mem_singleton_self _) rfl
    have added : (m.insert entry.1 entry.2).entries = m.entries ++ [entry] :=
      put_of_not_mem new entry.2
    rw [List.foldl_cons, ih, added, List.append_assoc, List.singleton_append]
    rw [keys_insert, if_neg new]
    apply split

omit [DecidableEq κ] in
theorem eq_of_entries_eq {m n : OrderedMap κ α} (h : m.entries = n.entries) :
  m = n
  := by
  cases m
  cases n
  cases h
  rfl

/-- A map is what its entries give. -/
theorem ofList_entries (m : OrderedMap κ α) :
  ofList m.entries = m
  := by
  apply eq_of_entries_eq
  apply entries_foldl_insert (m := empty)
  apply m.distinct

theorem find?_eq_none_of_not_mem {entries : List (κ × α)} {k : κ}
    (missing : k ∉ entries.map Prod.fst) :
  entries.find? (fun entry => entry.1 = k) = none
  := by
  rw [List.find?_eq_none]
  rintro ⟨l, a⟩ member
  simp only [decide_eq_true_eq]
  rintro rfl
  apply missing (List.mem_map_of_mem member)

/-- Entries with distinct keys replace the values of their keys, and no others. -/
theorem get?_foldl_insert (m : OrderedMap κ α) {entries : List (κ × α)}
    (distinct : (entries.map Prod.fst).Nodup) (k : κ) :
  (entries.foldl (fun m entry => m.insert entry.1 entry.2) m).get? k
    = ((entries.find? fun entry => entry.1 = k).map Prod.snd).or (m.get? k)
  := by
  induction entries generalizing m with
  | nil => rfl
  | cons entry rest ih =>
    rw [List.map_cons, List.nodup_cons] at distinct
    rw [List.foldl_cons, ih _ distinct.2, get?_insert, List.find?_cons]
    by_cases same : entry.1 = k
    · subst same
      simp [find?_eq_none_of_not_mem distinct.1]
    · simp [same]

end TypeAssertions.OrderedMap
