import Mathlib.Logic.Function.Basic
import TypeAssertions.Proofs.Assertion.Extraction
import TypeAssertions.Proofs.Insertion

/-!
# Registers of assertions

Assertions may be kept by kind while they are discovered, with a count beside them that goes up with
each new one.  Such a register has the groups of the extracted assertions, without an empty one, and
its count is their number (`Register.keeps_ofFiles`).
-/

namespace TypeAssertions

/-- The assertions of the kinds that have been met, each under its identity, and a count. -/
structure Register where
  sets : AssertionKind → Option (OrderedMap AssertionId Assertion)
  count : Nat

namespace Register

/-- The register without assertions. -/
def empty : Register := ⟨fun _ => none, 0⟩

/-- The assertions of a kind, by identity. -/
def set (r : Register) (k : AssertionKind) : OrderedMap AssertionId Assertion :=
  (r.sets k).getD .empty

/-- The register after one more assertion, whose kind has been met then.  It is counted when it is
not there under its kind. -/
def insert (r : Register) (a : Assertion) : Register :=
  let set := r.set a.kind
  if set.contains a.id then { r with sets := Function.update r.sets a.kind (some set) }
  else ⟨Function.update r.sets a.kind (some (set.insert a.id a)), r.count + 1⟩

/-- The register of the assertions of files. -/
def ofFiles (files : List SourceFile) : Register :=
  (files.flatMap SourceFile.assertions).foldl insert empty

/-- The kinds that have been met, in order, with their assertions. -/
def groups (r : Register) : List (AssertionKind × List Assertion) :=
  AssertionKind.all.filterMap fun k => (r.sets k).map fun set => (k, set.values)

/-- A register keeps extracted assertions: a kind has been met when it has assertions, these are
under their identities in their order, and all are counted. -/
structure Keeps (r : Register) (e : Extracted) : Prop where
  met : ∀ k, r.sets k = none ↔ e.ofKind k = []
  entries : ∀ k, (r.set k).entries = (e.ofKind k).map fun a => (a.id, a)
  count : r.count = e.count

end Register

namespace Extracted

variable {e : Extracted} {a : Assertion}

theorem insert_of_contains (known : e.contains a = true) :
  e.insert a = e
  := dif_pos (of_decide_eq_true known)

theorem ofKind_insert (new : e.contains a = false) (k : AssertionKind) :
  (e.insert a).ofKind k = if a.kind = k then e.ofKind k ++ [a] else e.ofKind k
  := by
  rw [ofKind, assertions_insert, new]
  by_cases same : a.kind = k <;> simp [ofKind, same]

theorem count_insert (new : e.contains a = false) :
  (e.insert a).count = e.count + 1
  := by
  rw [count, assertions_insert, new]
  apply List.length_append

theorem contains_iff (e : Extracted) (a : Assertion) :
  e.contains a = true ↔ ∃ b ∈ e.ofKind a.kind, b.id = a.id
  := by
  simp only [contains, ofKind, decide_eq_true_eq, List.mem_map, List.mem_filter, Assertion.key,
    Prod.mk.injEq]
  constructor
  · rintro ⟨b, recorded, kind, same⟩
    use b, ⟨recorded, kind⟩
  · rintro ⟨b, ⟨recorded, kind⟩, same⟩
    use b

end Extracted

namespace Register

variable {r : Register} {e : Extracted}

theorem keeps_empty :
  empty.Keeps .empty
  := by
  constructor <;> simp [empty, set, Extracted.empty, Extracted.ofKind, Extracted.count,
    OrderedMap.empty]

theorem Keeps.contains_set (keeps : r.Keeps e) (a : Assertion) :
  (r.set a.kind).contains a.id = e.contains a
  := by
  rw [Bool.eq_iff_iff, e.contains_iff, OrderedMap.contains, keeps.entries]
  simp

theorem set_update (r : Register) (k l : AssertionKind) (m : OrderedMap AssertionId Assertion)
    (n : Nat) :
  set ⟨Function.update r.sets k (some m), n⟩ l = if k = l then m else r.set l
  := by
  by_cases same : k = l
  · subst same
    simp [set]
  · simp [set, same, Function.update_of_ne (Ne.symm same)]

/-- An assertion that is there already changes nothing. -/
theorem Keeps.insert_known (keeps : r.Keeps e) {a : Assertion} (known : e.contains a = true) :
  r.insert a = r
  := by
  have contained := (keeps.contains_set a).trans known
  obtain ⟨b, member, -⟩ := (e.contains_iff a).1 known
  have met : r.sets a.kind ≠ none := fun unmet => by simp [(keeps.met a.kind).1 unmet] at member
  obtain ⟨set, found⟩ := Option.ne_none_iff_exists'.1 met
  have same : Function.update r.sets a.kind (some (r.set a.kind)) = r.sets := by
    rw [Register.set, found]
    apply Function.update_eq_self_iff.2 found.symm
  rw [Register.insert, contained, same]
  rfl

/-- A new assertion is the last of its kind, and is counted. -/
theorem Keeps.insert_new (keeps : r.Keeps e) {a : Assertion} (new : e.contains a = false) :
  (r.insert a).Keeps (e.insert a)
  := by
  have contained := (keeps.contains_set a).trans new
  have fresh : a.id ∉ (r.set a.kind).keys := by
    rw [OrderedMap.contains, List.any_eq_false] at contained
    rw [OrderedMap.keys, List.mem_map]
    rintro ⟨entry, member, same⟩
    apply contained entry member (decide_eq_true same)
  have added : ((r.set a.kind).insert a.id a).entries = (r.set a.kind).entries ++ [(a.id, a)] :=
    OrderedMap.put_of_not_mem fresh a
  simp only [Register.insert, contained, Bool.false_eq_true, if_false]
  constructor
  · intro k
    rw [Extracted.ofKind_insert new]
    by_cases same : a.kind = k
    · subst same
      simp
    · simp [same, Function.update_of_ne (Ne.symm same), keeps.met]
  · intro k
    rw [set_update, Extracted.ofKind_insert new]
    by_cases same : a.kind = k
    · subst same
      rw [if_pos rfl, if_pos rfl, added, keeps.entries, List.map_append]
      rfl
    · rw [if_neg same, if_neg same, keeps.entries]
  · rw [Extracted.count_insert new, keeps.count]

/-- A register in which an assertion is recorded keeps the assertions with one more. -/
theorem Keeps.insert (keeps : r.Keeps e) (a : Assertion) :
  (r.insert a).Keeps (e.insert a)
  := by
  cases contained : e.contains a with
  | true =>
    rw [keeps.insert_known contained, Extracted.insert_of_contains contained]
    apply keeps
  | false => apply keeps.insert_new contained

/-- A register in which assertions are recorded one after the other keeps the assertions with them. -/
theorem Keeps.foldl_insert (keeps : r.Keeps e) (assertions : List Assertion) :
  (assertions.foldl Register.insert r).Keeps (assertions.foldl Extracted.insert e)
  := by
  induction assertions generalizing r e with
  | nil => apply keeps
  | cons a rest ih => apply ih (keeps.insert a)

/-- The register of files keeps the assertions that are extracted from them. -/
theorem keeps_ofFiles (files : List SourceFile) :
  (ofFiles files).Keeps (Extracted.ofFiles files)
  := keeps_empty.foldl_insert (files.flatMap SourceFile.assertions)

theorem Keeps.groups_eq (keeps : r.Keeps e) :
  r.groups = e.groups
  := by
  rw [groups, Extracted.groups]
  induction AssertionKind.all with
  | nil => rfl
  | cons k rest ih =>
    cases found : r.sets k with
    | none =>
      have empty := (keeps.met k).1 found
      simpa [found, empty] using ih
    | some set =>
      have inhabited : e.ofKind k ≠ [] := fun empty => by
        simp [(keeps.met k).2 empty] at found
      have values : set.values = e.ofKind k := by
        have entries := keeps.entries k
        rw [Register.set, found, Option.getD_some] at entries
        simp [OrderedMap.values, entries, Function.comp_def]
      simpa [found, inhabited, values] using ih

end Register

end TypeAssertions
