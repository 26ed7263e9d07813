import TypeAssertions.Proofs.Json.Parsing

/-!
# Rearranged values

A value is rearranged when the members of its objects are put into another order, at any depth.
Spellings that are read back stay so, and a tree that displays a rearranged value displays the
value itself.
-/

namespace TypeAssertions.Json

mutual

/-- A value has the members of another one in any order, at any depth. -/
inductive Rearranged : Value → Value → Prop
  | null : Rearranged .null .null
  | bool (b : Bool) : Rearranged (.bool b) (.bool b)
  | number (n : Number) : Rearranged (.number n) (.number n)
  | string (s : String) : Rearranged (.string s) (.string s)
  | array {vs ws : List Value} (items : RearrangedItems vs ws) : Rearranged (.array vs) (.array ws)
  | object {ms ms' ns : List (String × Value)} (order : ms.Perm ms')
      (members : RearrangedMembers ms' ns) :
      Rearranged (.object ms) (.object ns)

/-- Elements are rearranged one by one. -/
inductive RearrangedItems : List Value → List Value → Prop
  | nil : RearrangedItems [] []
  | cons {v w : Value} {vs ws : List Value} (first : Rearranged v w)
      (rest : RearrangedItems vs ws) :
      RearrangedItems (v :: vs) (w :: ws)

/-- The values of members are rearranged one by one. -/
inductive RearrangedMembers : List (String × Value) → List (String × Value) → Prop
  | nil : RearrangedMembers [] []
  | cons {v w : Value} {ms ns : List (String × Value)} (k : String) (first : Rearranged v w)
      (rest : RearrangedMembers ms ns) :
      RearrangedMembers ((k, v) :: ms) ((k, w) :: ns)

end

mutual

theorem Rearranged.refl (v : Value) :
  Rearranged v v
  := by
  match v with
  | .null => exact .null
  | .bool b => exact .bool b
  | .number n => exact .number n
  | .string s => exact .string s
  | .array vs => exact .array (RearrangedItems.refl vs)
  | .object ms => exact .object .rfl (RearrangedMembers.refl ms)

theorem RearrangedItems.refl (vs : List Value) :
  RearrangedItems vs vs
  := by
  match vs with
  | [] => exact .nil
  | v :: vs => exact .cons (Rearranged.refl v) (RearrangedItems.refl vs)

theorem RearrangedMembers.refl (ms : List (String × Value)) :
  RearrangedMembers ms ms
  := by
  match ms with
  | [] => exact .nil
  | (k, v) :: ms => exact .cons k (Rearranged.refl v) (RearrangedMembers.refl ms)

end

mutual

/-- The numbers of a rearranged value are those of the value. -/
theorem Rearranged.plain {v w : Value} :
    Rearranged v w → v.Plain → w.Plain
  | .null, plain => plain
  | .bool _, plain => plain
  | .number _, plain => plain
  | .string _, plain => plain
  | .array items, .array plain => .array (items.plain plain)
  | .object order members, .object plain =>
    .object (members.plain fun m member => plain m (order.mem_iff.2 member))

theorem RearrangedItems.plain {vs ws : List Value} :
    RearrangedItems vs ws → (∀ v ∈ vs, v.Plain) → ∀ w ∈ ws, w.Plain
  | .nil, plain => plain
  | .cons first rest, plain => by
    rw [List.forall_mem_cons] at plain ⊢
    exact ⟨first.plain plain.1, rest.plain plain.2⟩

theorem RearrangedMembers.plain {ms ns : List (String × Value)} :
    RearrangedMembers ms ns → (∀ m ∈ ms, m.2.Plain) → ∀ n ∈ ns, n.2.Plain
  | .nil, plain => plain
  | .cons _ first rest, plain => by
    rw [List.forall_mem_cons] at plain ⊢
    exact ⟨first.plain plain.1, rest.plain plain.2⟩

end

/-- Members whose values are rearranged may change their order with them. -/
theorem RearrangedMembers.perm {ms ns ns' : List (String × Value)}
    (members : RearrangedMembers ms ns) (order : ns.Perm ns') :
  ∃ ms', ms.Perm ms' ∧ RearrangedMembers ms' ns'
  := by
  induction order generalizing ms with
  | nil =>
    use ms, .rfl
  | cons n order ih =>
    cases members with
    | cons k first rest =>
      obtain ⟨ms', order', members'⟩ := ih rest
      exact ⟨_, order'.cons _, .cons k first members'⟩
  | swap n m ns =>
    cases members with
    | cons k first rest =>
      cases rest with
      | cons l second rest => exact ⟨_, .swap _ _ _, .cons l second (.cons k first rest)⟩
  | trans order order' ih ih' =>
    obtain ⟨ms', perm, members'⟩ := ih members
    obtain ⟨ms'', perm', members''⟩ := ih' members'
    use ms'', perm.trans perm'

mutual

/-- What displays a rearranged value displays the value. -/
theorem Displays.of_rearranged {v w : Value} {t : Tree} :
    Displays w t → Rearranged v w → Displays v t
  | .null start stop, .null => .null start stop
  | .bool b start stop, .bool _ => .bool b start stop
  | .number n start stop, .number _ => .number n start stop
  | .string s start stop, .string _ => .string s start stop
  | .array start stop items, .array same => .array start stop (items.of_rearranged same)
  | .object start stop order members, .object order' same => by
    obtain ⟨ms, perm, same'⟩ := same.perm order
    exact .object start stop (order'.trans perm) (members.of_rearranged same')

theorem DisplaysItems.of_rearranged {vs ws : List Value} {ts : List Tree} :
    DisplaysItems ws ts → RearrangedItems vs ws → DisplaysItems vs ts
  | .nil, .nil => .nil
  | .cons first rest, .cons same others =>
    .cons (first.of_rearranged same) (rest.of_rearranged others)

theorem DisplaysMembers.of_rearranged {ms ns : List (String × Value)}
    {ts : List (Key × Tree)} :
    DisplaysMembers ns ts → RearrangedMembers ms ns → DisplaysMembers ms ts
  | .nil, .nil => .nil
  | .cons named first rest, .cons _ same others =>
    .cons named (first.of_rearranged same) (rest.of_rearranged others)

end

end TypeAssertions.Json
