import Mathlib.Data.List.Induction
import TypeAssertions.OrderedMap

/-!
# What a search finds

A search of a list gives the first element with a property, and one from the end gives the last.
The values found for the elements of a list stand in their order.  A map made from entries gives
each key the value of its last entry.
-/

namespace TypeAssertions

/-- What is found first in a list stands before, or is, everything that could be found. -/
theorem rel_of_find? {α : Type} {R : α → α → Prop} (reflexive : ∀ a, R a a) {p : α → Bool}
    {l : List α} (ordered : l.Pairwise R) {a : α} (first : l.find? p = some a) :
  ∀ b ∈ l, p b = true → R a b
  := by
  obtain ⟨-, before, after, rfl, others⟩ := List.find?_eq_some_iff_append.1 first
  rw [List.pairwise_append, List.pairwise_cons] at ordered
  intro b member found
  rcases List.mem_append.1 member with early | late
  · have unfound := others b early
    rw [found] at unfound
    cases unfound
  · rcases List.mem_cons.1 late with rfl | late
    · apply reflexive
    · apply ordered.2.1.1 b late

/-- The search from the end of a list finds an element with the property that no later one has. -/
theorem find?_reverse_eq_some_iff {α : Type} {p : α → Bool} {l : List α} {x : α} :
  l.reverse.find? p = some x
    ↔ p x = true ∧ ∃ before after, l = before ++ x :: after ∧ ∀ y ∈ after, p y = false
  := by
  simp only [List.find?_eq_some_iff_append, Bool.not_eq_true']
  constructor
  · rintro ⟨holds, after, before, split, others⟩
    rw [List.reverse_eq_iff] at split
    use holds, before.reverse, after.reverse
    constructor
    · simpa using split
    · intro y member
      apply others y (List.mem_reverse.1 member)
  · rintro ⟨holds, before, after, rfl, others⟩
    use holds, after.reverse, before.reverse
    constructor
    · simp
    · intro y member
      apply others y (List.mem_reverse.1 member)

/-- A search from the end passes over elements that cannot be found. -/
theorem find?_reverse_filter {α : Type} {p q : α → Bool} (l : List α)
    (chosen : ∀ x, q x = true → p x = true) :
  (l.filter p).reverse.find? q = l.reverse.find? q
  := by
  rw [← List.filter_reverse, List.find?_filter]
  congr 1
  funext x
  simp only [and_iff_right_of_imp (chosen x), Bool.decide_eq_true]

/-- The values that a function has on a list stand in the order of the elements that have one. -/
theorem forall₂_filterMap {α β : Type} {R : α → β → Prop} {p : α → Bool} {f : α → Option β}
    {l : List α} (chosen : ∀ a ∈ l, p a = (f a).isSome)
    (related : ∀ a ∈ l, ∀ b, f a = some b → R a b) :
  List.Forall₂ R (l.filter p) (l.filterMap f)
  := by
  induction l with
  | nil => apply List.Forall₂.nil
  | cons a rest ih =>
    rw [List.forall_mem_cons] at chosen related
    have later := ih chosen.2 related.2
    cases value : f a with
    | none =>
      have skipped : ¬ p a = true := by simp [chosen.1, value]
      rw [List.filter_cons_of_neg skipped, List.filterMap_cons_none value]
      apply later
    | some b =>
      have taken : p a = true := by simp [chosen.1, value]
      rw [List.filter_cons_of_pos taken, List.filterMap_cons_some value]
      apply List.Forall₂.cons (related.1 b value) later

namespace OrderedMap

variable {κ α : Type} [DecidableEq κ]

theorem ofList_concat (entries : List (κ × α)) (entry : κ × α) :
  ofList (entries ++ [entry]) = (ofList entries).insert entry.1 entry.2
  := by
  rw [ofList, List.foldl_append, List.foldl_cons, List.foldl_nil, ofList]

/-- The value of a key is that of its last entry. -/
theorem get?_ofList (entries : List (κ × α)) (k : κ) :
  (ofList entries).get? k = (entries.reverse.find? fun entry => entry.1 = k).map Prod.snd
  := by
  induction entries using List.reverseRecOn with
  | nil => rfl
  | append_singleton entries entry ih =>
    rw [ofList_concat, get?_insert, ih, List.reverse_concat, List.find?_cons]
    by_cases same : entry.1 = k <;> simp [same]

/-- In a map made from the elements of a list, a key has the value of the last element that has
it. -/
theorem get?_ofList_map_eq_some_iff {β : Type} (key : β → κ) (value : β → α) (l : List β) (k : κ)
    (a : α) :
  (ofList (l.map fun x => (key x, value x))).get? k = some a
    ↔ ∃ x, value x = a ∧ key x = k
      ∧ ∃ before after, l = before ++ x :: after ∧ ∀ y ∈ after, key y ≠ k
  := by
  rw [get?_ofList, ← List.map_reverse, List.find?_map, Option.map_map, Option.map_eq_some_iff]
  apply exists_congr
  intro x
  rw [find?_reverse_eq_some_iff, and_comm]
  simp [Function.comp]

end OrderedMap

end TypeAssertions
