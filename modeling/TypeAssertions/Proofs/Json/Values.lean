import TypeAssertions.Proofs.Insertion
import TypeAssertions.Proofs.Json.Decoding

/-!
# Values that are read without a text

A value has a tree of its own, in which nothing has a place in a text, and decoders read that tree
at any depth.  A value without repeated names is read from it as itself, with the members of its
objects in their order (`Decoder.value_ofValue`).
-/

namespace TypeAssertions.Json

/-! ### Values and their trees -/

namespace Value

mutual

/-- How many containers of a value are nested in each other. -/
def height : Value → Nat
  | .null | .bool _ | .number _ | .string _ => 0
  | .array vs => itemsHeight vs + 1
  | .object ms => membersHeight ms + 1

/-- How many containers are nested in each other in one of some elements. -/
def itemsHeight : List Value → Nat
  | [] => 0
  | v :: vs => max (height v) (itemsHeight vs)

/-- How many containers are nested in each other in one of some members. -/
def membersHeight : List (String × Value) → Nat
  | [] => 0
  | (_, v) :: ms => max (height v) (membersHeight ms)

end

theorem membersHeight_append (ms ns : List (String × Value)) :
  membersHeight (ms ++ ns) = max (membersHeight ms) (membersHeight ns)
  := by
  induction ms with
  | nil => rw [List.nil_append, membersHeight, Nat.zero_max]
  | cons m ms ih => rw [List.cons_append, membersHeight, ih, membersHeight, Nat.max_assoc]

/-- No object of a value has two members with the same name. -/
inductive Proper : Value → Prop
  | null : Proper .null
  | bool (b : Bool) : Proper (.bool b)
  | number (n : Number) : Proper (.number n)
  | string (s : String) : Proper (.string s)
  | array {vs : List Value} (items : ∀ v ∈ vs, v.Proper) : Proper (.array vs)
  | object {ms : List (String × Value)} (distinct : (ms.map Prod.fst).Nodup)
      (members : ∀ m ∈ ms, m.2.Proper) :
      Proper (.object ms)

end Value

/-- A scalar that stands in no text. -/
def Scalar.literal (s : Scalar) : Literal := ⟨0, 0, s.quoted, .ok s, .ok ()⟩

/-- A name that stands in no text. -/
def Key.ofName (k : String) : Key := ⟨(Scalar.string k).literal, 0, ⟨.expectedValue, 0⟩⟩

namespace Tree

mutual

/-- The tree of a value that stands in no text. -/
def ofValue : Value → Tree
  | .null => .literal Scalar.null.literal
  | .bool b => .literal (Scalar.bool b).literal
  | .number n => .literal (Scalar.number n).literal
  | .string s => .literal (Scalar.string s).literal
  | .array vs => .array 0 (ofItems vs) (.closed 0)
  | .object ms => .object 0 (ofMembers ms) (.closed 0)

/-- The trees of the elements of an array. -/
def ofItems : List Value → List Tree
  | [] => []
  | v :: vs => ofValue v :: ofItems vs

/-- The names and trees of the members of an object. -/
def ofMembers : List (String × Value) → List (Key × Tree)
  | [] => []
  | (k, v) :: ms => (.ofName k, ofValue v) :: ofMembers ms

end

theorem ofMembers_append (ms ns : List (String × Value)) :
  ofMembers (ms ++ ns) = ofMembers ms ++ ofMembers ns
  := by
  induction ms with
  | nil => rfl
  | cons m ms ih => rw [List.cons_append, ofMembers, ih, ofMembers, List.cons_append]

mutual

/-- The tree of a value displays the value. -/
theorem displays_ofValue (v : Value) :
  Displays v (ofValue v)
  := by
  match v with
  | .null => exact .null 0 0
  | .bool b => exact .bool b 0 0
  | .number n => exact .number n 0 0
  | .string s => exact .string s 0 0
  | .array vs => exact .array 0 0 (displaysItems_ofItems vs)
  | .object ms => exact .object 0 0 .rfl (displaysMembers_ofMembers ms)

theorem displaysItems_ofItems (vs : List Value) :
  DisplaysItems vs (ofItems vs)
  := by
  match vs with
  | [] => exact .nil
  | v :: vs => exact .cons (displays_ofValue v) (displaysItems_ofItems vs)

theorem displaysMembers_ofMembers (ms : List (String × Value)) :
  DisplaysMembers ms (ofMembers ms)
  := by
  match ms with
  | [] => exact .nil
  | (k, v) :: ms => exact .cons rfl (displays_ofValue v) (displaysMembers_ofMembers ms)

end

end Tree

/-! ### Values that are read -/

namespace Decoder

mutual

/-- A value without repeated names is read from its tree as itself. -/
theorem value_ofValue {v : Value} {depth : Nat} (proper : v.Proper) (room : v.height < depth) :
  value depth (.ofValue v) = .ok v
  := by
  match v, proper with
  | .null, _ => rfl
  | .bool b, _ => rfl
  | .number n, _ => rfl
  | .string s, _ => rfl
  | .array vs, .array items =>
    rw [Value.height] at room
    have read := values_ofItems items (Nat.lt_sub_of_add_lt room)
    simp only [Tree.ofValue, value, descend_of_lt room, read, bind, Except.bind]
  | .object ms, .object distinct members =>
    rw [Value.height] at room
    have read := memberValues_ofMembers .empty members (Nat.lt_sub_of_add_lt room)
    have entries := OrderedMap.entries_foldl_insert (m := .empty) distinct
    simp only [Tree.ofValue, value, descend_of_lt room, read, bind, Except.bind]
    rw [entries]
    rfl

theorem values_ofItems {vs : List Value} {depth : Nat} (proper : ∀ v ∈ vs, v.Proper)
    (room : Value.itemsHeight vs < depth) :
  values depth (Tree.ofItems vs) = .ok vs
  := by
  match vs with
  | [] => rfl
  | v :: vs =>
    rw [Value.itemsHeight, Nat.max_lt] at room
    rw [List.forall_mem_cons] at proper
    rw [Tree.ofItems, values, value_ofValue proper.1 room.1, values_ofItems proper.2 room.2]
    rfl

theorem memberValues_ofMembers {ms : List (String × Value)} {depth : Nat}
    (m : OrderedMap String Value) (proper : ∀ member ∈ ms, member.2.Proper)
    (room : Value.membersHeight ms < depth) :
  memberValues depth m (Tree.ofMembers ms)
    = .ok (ms.foldl (fun m member => m.insert member.1 member.2) m)
  := by
  match ms with
  | [] => rfl
  | (k, v) :: ms =>
    rw [Value.membersHeight, Nat.max_lt] at room
    rw [List.forall_mem_cons] at proper
    have named : name (Key.ofName k).name = .ok k := rfl
    rw [Tree.ofMembers, memberValues, named, value_ofValue proper.1 room.1]
    apply memberValues_ofMembers (m.insert k v) proper.2 room.2

end

variable {α : Type}

/-- What a decoder reads from a value that stands in no text, with as many containers nested as the
value has. -/
def readValue (d : Decoder α) (v : Value) : Except Failure α := d (v.height + 1) (.ofValue v)

end Decoder

end TypeAssertions.Json
