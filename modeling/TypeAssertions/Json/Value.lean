import TypeAssertions.Json.Double

/-!
# JSON values

A `Value` is a JSON document without its spelling.  The members of an object keep their order,
and nothing in the type forbids a name to come twice: readers decide what a repeated name means.
Equality of values is decidable.
-/

namespace TypeAssertions.Json

/-- A JSON number: an integer, or a number written with a point or an exponent. -/
inductive Number where
  | integer (n : Int)
  | double (x : Double)
  deriving DecidableEq, Repr

/-- A JSON document. -/
inductive Value where
  | null
  | bool (b : Bool)
  | number (n : Number)
  | string (s : String)
  | array (items : List Value)
  | object (members : List (String × Value))
  deriving Repr, Inhabited

namespace Value

mutual

/-- Whether two values are equal. -/
def same : Value → Value → Bool
  | .null, .null => true
  | .bool b, .bool c => b = c
  | .number m, .number n => m = n
  | .string s, .string t => s = t
  | .array xs, .array ys => sameItems xs ys
  | .object ms, .object ns => sameMembers ms ns
  | _, _ => false

/-- Whether two lists of values are equal. -/
def sameItems : List Value → List Value → Bool
  | [], [] => true
  | x :: xs, y :: ys => same x y && sameItems xs ys
  | _, _ => false

/-- Whether two lists of members are equal. -/
def sameMembers : List (String × Value) → List (String × Value) → Bool
  | [], [] => true
  | (k, x) :: ms, (l, y) :: ns => k = l && same x y && sameMembers ms ns
  | _, _ => false

end

mutual

theorem same_iff (x y : Value) :
  same x y = true ↔ x = y
  := by
  match x with
  | .null => cases y <;> simp [same]
  | .bool _ => cases y <;> simp [same]
  | .number _ => cases y <;> simp [same]
  | .string _ => cases y <;> simp [same]
  | .array xs =>
    cases y <;> simp [same]
    exact sameItems_iff xs _
  | .object ms =>
    cases y <;> simp [same]
    exact sameMembers_iff ms _

theorem sameItems_iff (xs ys : List Value) :
  sameItems xs ys = true ↔ xs = ys
  := by
  match xs, ys with
  | [], [] => simp [sameItems]
  | [], _ :: _ => simp [sameItems]
  | _ :: _, [] => simp [sameItems]
  | x :: xs, y :: ys => simp [sameItems, same_iff x y, sameItems_iff xs ys]

theorem sameMembers_iff (ms ns : List (String × Value)) :
  sameMembers ms ns = true ↔ ms = ns
  := by
  match ms, ns with
  | [], [] => simp [sameMembers]
  | [], _ :: _ => simp [sameMembers]
  | _ :: _, [] => simp [sameMembers]
  | (k, x) :: ms, (l, y) :: ns => simp [sameMembers, same_iff x y, sameMembers_iff ms ns]

end

instance : DecidableEq Value := fun x y => decidable_of_iff _ (same_iff x y)

end Value

end TypeAssertions.Json
