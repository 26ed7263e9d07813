import TypeAssertions.Json.Document
import TypeAssertions.OrderedMap

/-!
# Reading data from JSON documents

A `Decoder` reads data of one kind from a tree, or reports the first thing in the text that is
wrong.  There are decoders for the scalars, for lists and optional data, for names out of a list
of names, for arbitrary values and for records.  A record is read from an object, in which
unknown members are passed over and no field comes twice, or from an array of its fields in
order; the fields are gathered in a draft, from which the record is completed.

Containers that are read, and not passed over, may be nested `maxDepth` deep.
-/

namespace TypeAssertions.Json

/-- The number of containers that may be open at once, and one. -/
def maxDepth : Nat := 128

/-- A reader of data of type `α`, given how deep containers may be nested from here on. -/
def Decoder (α : Type) := Nat → Tree → Except Failure α

/-- The depth left inside a container. -/
def descend (depth start : Nat) : Except Failure Nat :=
  if depth ≤ 1 then .error ⟨.tooDeep, start + 1⟩ else .ok (depth - 1)

/-- What a scalar is found to be. -/
def Scalar.found : Scalar → Found
  | .null => .null
  | .bool b => .bool b
  | .number n => .number n
  | .string s => .string s

/-- The failure of a tree that is not what was expected. -/
def Tree.mismatch (expected : String) : Tree → Failure
  | .literal l =>
    match l.read with
    | .error f => f
    | .ok s => ⟨.invalidType s.found expected, l.stop⟩
  | .array start _ _ => ⟨.invalidType .sequence expected, start⟩
  | .object start _ _ => ⟨.invalidType .map expected, start⟩
  | .absent f => f

namespace Decoder

variable {α β : Type}

/-- The decoder followed by a function. -/
def map (f : α → β) (d : Decoder α) : Decoder β := fun depth t => (d depth t).map f

/-- A decoder of the scalars that `pick` accepts. -/
def scalar (expected : String) (pick : Scalar → Option α) : Decoder α := fun _ t =>
  match t with
  | .literal ⟨_, _, _, .ok s, _⟩ =>
    match pick s with
    | some a => .ok a
    | none => .error (t.mismatch expected)
  | _ => .error (t.mismatch expected)

/-- A string. -/
def string : Decoder String := scalar "a string" fun
  | .string s => some s
  | _ => none

/-- A truth value. -/
def bool : Decoder Bool := scalar "a boolean" fun
  | .bool b => some b
  | _ => none

/-- The value `null`. -/
def unit : Decoder Unit := scalar "unit" fun
  | .null => some ()
  | _ => none

/-- An integer of 32 bits, from 0 on. -/
def uint32 : Decoder UInt32 := fun _ t =>
  match t with
  | .literal ⟨_, stop, _, .ok (.number (.integer n)), _⟩ =>
    if 0 ≤ n ∧ n.toNat < UInt32.size then .ok (UInt32.ofNat n.toNat)
    else .error ⟨.invalidValue n "u32", stop⟩
  | _ => .error (t.mismatch "u32")

/-- Data, or `null` for none. -/
def optional (d : Decoder α) : Decoder (Option α) := fun depth t =>
  match t with
  | .literal ⟨_, _, _, .ok .null, _⟩ => .ok none
  | _ => (d depth t).map some

/-- The elements of an array, read in order. -/
def items (d : Decoder α) (depth : Nat) : List Tree → Ending → Except Failure (List α)
  | [], .closed _ => .ok []
  | [], .broken b => .error b.read
  | t :: ts, ending => do
    let a ← d depth t
    return a :: (← items d depth ts ending)

/-- An array. -/
def list (d : Decoder α) : Decoder (List α) := fun depth t =>
  match t with
  | .array start ts ending => do items d (← descend depth start) ts ending
  | _ => .error (t.mismatch "a sequence")

mutual

/-- Passing over a tree. -/
def skip : Tree → Except Failure Unit
  | .literal l => l.skip
  | .absent f => .error f
  | .array _ ts ending => do
    skipItems ts
    skipEnding ending
  | .object _ ms ending => do
    skipMembers ms
    skipEnding ending

/-- Passing over the elements of an array. -/
def skipItems : List Tree → Except Failure Unit
  | [] => .ok ()
  | t :: ts => do
    skip t
    skipItems ts

/-- Passing over the members of an object. -/
def skipMembers : List (Key × Tree) → Except Failure Unit
  | [] => .ok ()
  | (key, t) :: ms => do
    key.name.skip
    skip t
    skipMembers ms

/-- Passing over the end of a container. -/
def skipEnding : Ending → Except Failure Unit
  | .closed _ => .ok ()
  | .broken b => .error b.skip

end

/-- The name of a member. -/
def name (l : Literal) : Except Failure String :=
  match l.read with
  | .ok (.string s) => .ok s
  | .ok s => .error ⟨.invalidType s.found "a string", l.stop⟩
  | .error f => .error f

/-- The meaning of a name that ends after `stop` bytes: its own among the choices, or that of any
other name. -/
def choose (choices : List (String × α)) (other : Option α) (stop : Nat) (s : String) :
    Except Failure α :=
  match choices.lookup s, other with
  | some a, _ => .ok a
  | none, some a => .ok a
  | none, none => .error ⟨.unknownVariant s (choices.map Prod.fst), stop⟩

/-- One of some names, written as a string or as an object that gives the name the value `null`. -/
def choice (choices : List (String × α)) (other : Option α) : Decoder α := fun depth t =>
  match t with
  | .literal l =>
    if l.quoted then do choose choices other l.stop (← name l)
    else .error ⟨.expectedValue, l.start + 1⟩
  | .array start _ _ => .error ⟨.expectedValue, start + 1⟩
  | .absent f => .error f
  | .object start [] ending => do
    discard (descend depth start)
    match ending with
    | .closed stop => .error ⟨.expectedValue, stop⟩
    | .broken b => .error b.name
  | .object start ((key, value) :: more) ending => do
    let depth ← descend depth start
    let a ← choose choices other key.name.stop (← name key.name)
    unit depth value
    match more, ending with
    | [], .closed _ => .ok a
    | _, _ => .error key.single

/-! ### Arbitrary values -/

mutual

/-- An arbitrary value.  A repeated name in an object keeps its first place and takes its last
value. -/
def value (depth : Nat) (t : Tree) : Except Failure Value :=
  match t with
  | .literal l =>
    match l.read with
    | .error f => .error f
    | .ok .null => .ok .null
    | .ok (.bool b) => .ok (.bool b)
    | .ok (.number n) => .ok (.number n)
    | .ok (.string s) => .ok (.string s)
  | .absent f => .error f
  | .array start ts ending => do
    let inner ← descend depth start
    let vs ← values inner ts
    match ending with
    | .closed _ => .ok (.array vs)
    | .broken b => .error b.read
  | .object start ms ending => do
    let inner ← descend depth start
    let entries ← memberValues inner .empty ms
    match ending with
    | .closed _ => .ok (.object entries.entries)
    | .broken b => .error b.read

/-- The values of the elements of an array. -/
def values (depth : Nat) : List Tree → Except Failure (List Value)
  | [] => .ok []
  | t :: ts => do
    let v ← value depth t
    return v :: (← values depth ts)

/-- The values of the members of an object, after those of the map. -/
def memberValues (depth : Nat) (m : OrderedMap String Value) :
    List (Key × Tree) → Except Failure (OrderedMap String Value)
  | [] => .ok m
  | (key, t) :: ms => do
    let k ← name key.name
    let v ← value depth t
    memberValues depth (m.insert k v) ms

end

/-- The members of an object. -/
def members : Decoder (OrderedMap String Value) := fun depth t =>
  match t with
  | .object start ms ending => do
    let entries ← memberValues (← descend depth start) .empty ms
    match ending with
    | .closed _ => .ok entries
    | .broken b => .error b.read
  | _ => .error (t.mismatch "a map")

end Decoder

/-! ### Records -/

/-- A field of a record: its name, whether a draft has it, and how it is read into a draft. -/
structure Field (δ : Type) where
  name : String
  given : δ → Bool
  required : Bool
  read : Nat → δ → Tree → Except Failure δ

/-- The field whose datum `get` finds in a draft and `put` sets in it. -/
def Field.of {δ α : Type} (name : String) (required : Bool) (get : δ → Option α)
    (put : δ → Option α → δ) (d : Decoder α) : Field δ where
  name
  given draft := (get draft).isSome
  required
  read depth draft t := (d depth t).map fun a => put draft (some a)

/-- How a record is read: its name, its fields in order, the draft without any field, what an
unknown member does to a draft, and how a draft is completed or which field it lacks. -/
structure RecordShape (δ α : Type) where
  name : String
  fields : List (Field δ)
  start : δ
  other : Nat → String → δ → Tree → Except Failure δ := fun _ _ draft t => do
    Decoder.skip t
    return draft
  complete : δ → Except String α

namespace RecordShape

variable {δ α : Type}

/-- What a reader of the record expects. -/
def expected (r : RecordShape δ α) : String := s!"struct {r.name}"

/-- The draft after some more members. -/
def readMembers (r : RecordShape δ α) (depth : Nat) (draft : δ) :
    List (Key × Tree) → Except Failure δ
  | [] => .ok draft
  | (key, t) :: ms => do
    let name ← Decoder.name key.name
    let draft ←
      match r.fields.find? fun field => field.name = name with
      | none => r.other depth name draft t
      | some field =>
        if field.given draft then throw ⟨.duplicateField name, key.repeated⟩
        else field.read depth draft t
    r.readMembers depth draft ms

/-- The record of an object. -/
def readObject (r : RecordShape δ α) (depth start : Nat) (ms : List (Key × Tree))
    (ending : Ending) : Except Failure α := do
  let draft ← r.readMembers (← descend depth start) r.start ms
  match ending with
  | .broken b => .error b.read
  | .closed stop =>
    match r.complete draft with
    | .ok a => .ok a
    | .error missing => .error ⟨.missingField missing, stop⟩

/-- The draft after the elements of an array, which give the fields in order; `index` fields were
given before. -/
def readElements (r : RecordShape δ α) (depth index : Nat) (draft : δ) :
    List (Field δ) → List Tree → Ending → Except Failure δ
  | [], [], .closed _ => .ok draft
  | [], [], .broken b => .error b.full
  | [], t :: _, _ => .error ⟨.trailingCharacters, t.entered⟩
  | _ :: _, [], .broken b => .error b.read
  | field :: fields, [], .closed stop =>
    if field.required then
      .error ⟨.invalidLength index s!"{r.expected} with {r.fields.length} elements", stop⟩
    else r.readElements depth (index + 1) draft fields [] (.closed stop)
  | field :: fields, t :: ts, ending => do
    let draft ← field.read depth draft t
    r.readElements depth (index + 1) draft fields ts ending

/-- The record of an array. -/
def readArray (r : RecordShape δ α) (depth start : Nat) (ts : List Tree) (ending : Ending) :
    Except Failure α := do
  let draft ← r.readElements (← descend depth start) 0 r.start r.fields ts ending
  match r.complete draft with
  | .ok a => .ok a
  | .error missing => .error ⟨.missingField missing, start⟩

/-- A record that may be written as an object or as an array. -/
def decoder (r : RecordShape δ α) : Decoder α := fun depth t =>
  match t with
  | .object start ms ending => r.readObject depth start ms ending
  | .array start ts ending => r.readArray depth start ts ending
  | _ => .error (t.mismatch r.expected)

/-- A record that may be written as an object only. -/
def objectDecoder (r : RecordShape δ α) : Decoder α := fun depth t =>
  match t with
  | .object start ms ending => r.readObject depth start ms ending
  | _ => .error (t.mismatch r.expected)

end RecordShape

/-- The data that a decoder reads from a text. -/
def Decoder.readText {α : Type} (d : Decoder α) (text : List Char) : Except ReadError α :=
  let (t, rest) := Tree.ofText text
  match d maxDepth t, rest with
  | .error f, _ => .error (f.locate text)
  | .ok a, [] => .ok a
  | .ok _, token :: _ => .error (Failure.locate ⟨.trailingCharacters, token.start + 1⟩ text)

end TypeAssertions.Json
