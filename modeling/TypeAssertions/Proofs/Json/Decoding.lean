import Mathlib.Data.List.Perm.Basic
import TypeAssertions.Json.Decoder
import TypeAssertions.Json.Printer
import TypeAssertions.Proofs.Json.Rearrangement

/-!
# Decoders of written values

A decoder accepts a value as some data when it reads the data from every tree that displays the
value, provided that containers may be nested deep enough.  A record is accepted as soon as each of
its data is read, because what they do to the draft does not depend on their order
(`accepts_record`).
-/

namespace TypeAssertions.Json

variable {α β : Type}

/-- A decoder reads data from every tree that displays a value of some height. -/
def Decoder.Accepts (d : Decoder α) (height : Nat) (v : Value) (a : α) : Prop :=
  ∀ depth t, height < depth → Displays v t → d depth t = .ok a

theorem descend_of_lt {height depth : Nat} (room : height + 1 < depth) (start : Nat) :
  descend depth start = .ok (depth - 1)
  := by
  rw [descend, if_neg (by omega)]

namespace Decoder

/-! ### Scalars -/

theorem accepts_string (height : Nat) (s : String) :
  string.Accepts height (.string s) s
  := by
  rintro depth t - ⟨⟩
  rfl

theorem accepts_bool (height : Nat) (b : Bool) :
  bool.Accepts height (.bool b) b
  := by
  rintro depth t - ⟨⟩
  rfl

theorem accepts_uint32 (height : Nat) (n : UInt32) :
  uint32.Accepts height (.ofNat n.toNat) n
  := by
  rintro depth t - ⟨⟩
  have fits : n.toNat < UInt32.size := n.toNat_lt
  simp [uint32, fits]

/-- A name is accepted as what it means. -/
theorem accepts_choice {choices : List (String × α)} {name : String} {a : α}
    (found : choices.lookup name = some a) (other : Option α) (height : Nat) :
  (choice choices other).Accepts height (.string name) a
  := by
  rintro depth t - ⟨⟩
  have chosen (stop : Nat) : choose choices other stop name = .ok a := by simp [choose, found]
  apply chosen

/-! ### Data from data -/

theorem Accepts.map {d : Decoder α} {height : Nat} {v : Value} {a : α}
    (h : d.Accepts height v a) (f : α → β) :
  (d.map f).Accepts height v (f a)
  := by
  intro depth t room displays
  rw [Decoder.map, h depth t room displays]
  rfl

theorem accepts_optional_none (d : Decoder α) (height : Nat) :
  d.optional.Accepts height .null none
  := by
  rintro depth t - ⟨⟩
  rfl

theorem Accepts.optional {d : Decoder α} {height : Nat} {v : Value} {a : α}
    (h : d.Accepts height v a) (given : v ≠ .null) :
  d.optional.Accepts height v (some a)
  := by
  intro depth t room displays
  have read := h depth t room displays
  cases displays
  case null => cases given rfl
  all_goals
    simp only [Decoder.optional, read]
    rfl

theorem items_of_displays {d : Decoder α} {height : Nat} {f : α → Value} {as : List α}
    (h : ∀ a ∈ as, d.Accepts height (f a) a) {ts : List Tree}
    (displays : DisplaysItems (as.map f) ts) {depth : Nat} (room : height < depth) (stop : Nat) :
  items d depth ts (.closed stop) = .ok as
  := by
  induction as generalizing ts with
  | nil =>
    cases displays with
    | nil => rfl
  | cons a as ih =>
    rw [List.forall_mem_cons] at h
    cases displays with
    | cons first rest =>
      rw [items, h.1 depth _ room first, ih h.2 rest]
      rfl

/-- A list is accepted when its elements are. -/
theorem accepts_list {d : Decoder α} {height : Nat} {f : α → Value} {as : List α}
    (h : ∀ a ∈ as, d.Accepts height (f a) a) :
  d.list.Accepts (height + 1) (.array (as.map f)) as
  := by
  rintro depth t room (_ | _ | _ | _ | ⟨start, stop, displays⟩)
  simp only [list, descend_of_lt room]
  apply items_of_displays h displays (by omega)

end Decoder

/-! ### Records -/

/-- A datum of a record as a member of an object: whether a draft has it, and what reading it does
to a draft. -/
structure Datum (δ : Type) where
  name : String
  value : Value
  given : δ → Bool
  put : δ → δ

namespace Datum

variable {δ : Type}

/-- The datum that `get` finds in a draft and `put` sets in it. -/
def of (name : String) (get : δ → Option α) (put : δ → Option α → δ) (v : Value) (a : α) :
    Datum δ :=
  ⟨name, v, fun draft => (get draft).isSome, fun draft => put draft (some a)⟩

/-- A datum as a member. -/
def member (x : Datum δ) : String × Value := (x.name, x.value)

/-- The record reads the datum. -/
def Read (r : RecordShape δ α) (height : Nat) (x : Datum δ) : Prop :=
  ∃ field, r.fields.find? (fun field => field.name = x.name) = some field ∧ field.given = x.given
    ∧ ∀ depth draft t, height < depth → Displays x.value t →
      field.read depth draft t = .ok (x.put draft)

theorem read_of {r : RecordShape δ α} {height : Nat} {name : String} {required : Bool}
    {get : δ → Option β} {put : δ → Option β → δ} {d : Decoder β} {v : Value} {b : β}
    (found : r.fields.find? (fun field => field.name = name)
      = some (.of name required get put d))
    (accepts : d.Accepts height v b) :
  (Datum.of name get put v b).Read r height
  := by
  use .of name required get put d, found, rfl
  intro depth draft t room displays
  show (d depth t).map _ = _
  rw [accepts depth t room displays]
  rfl

/-- Two data do not touch each other. -/
def Apart (x y : Datum δ) : Prop :=
  ∀ draft, x.given (y.put draft) = x.given draft ∧ y.given (x.put draft) = y.given draft
    ∧ x.put (y.put draft) = y.put (x.put draft)

theorem Apart.symm {x y : Datum δ} (h : x.Apart y) :
  y.Apart x
  := by
  intro draft
  obtain ⟨left, right, both⟩ := h draft
  exact ⟨right, left, both.symm⟩

/-- The draft after some data. -/
def putAll (draft : δ) (ds : List (Datum δ)) : δ := ds.foldl (fun draft x => x.put draft) draft

/-- The draft after some data does not depend on their order. -/
theorem putAll_perm {ds ds' : List (Datum δ)} (order : ds.Perm ds')
    (apart : ds.Pairwise Apart) (draft : δ) :
  putAll draft ds = putAll draft ds'
  := by
  induction order generalizing draft with
  | nil => rfl
  | cons x order ih =>
    rw [List.pairwise_cons] at apart
    apply ih apart.2
  | swap x y ds =>
    rw [List.pairwise_cons] at apart
    have both := (apart.1 x List.mem_cons_self draft).2.2
    simp only [putAll, List.foldl_cons, both]
  | trans order order' ih ih' =>
    have apart' := order.pairwise apart fun h => h.symm
    rw [ih apart, ih' apart']

/-- Members are put into the draft one by one, when none of them is there already. -/
theorem readMembers_eq_putAll {r : RecordShape δ α} {height depth : Nat} (room : height < depth)
    {ds : List (Datum δ)} (read : ∀ x ∈ ds, x.Read r height) (apart : ds.Pairwise Apart)
    {draft : δ} (fresh : ∀ x ∈ ds, x.given draft = false) {ts : List (Key × Tree)}
    (displays : DisplaysMembers (ds.map member) ts) :
  r.readMembers depth draft ts = .ok (putAll draft ds)
  := by
  induction ds generalizing draft ts with
  | nil =>
    cases displays with
    | nil => rfl
  | cons x ds ih =>
    rw [List.forall_mem_cons] at read fresh
    rw [List.pairwise_cons] at apart
    obtain ⟨⟨field, found, given, reads⟩, others⟩ := read
    cases displays with
    | @cons _ _ _ key _ _ named first rest =>
      have named : Decoder.name key.name = .ok x.name := by
        rw [Decoder.name, named]
      -- what is put now does not count as any of the data that come later
      have fresh' : ∀ y ∈ ds, y.given (x.put draft) = false := by
        intro y member
        rw [(apart.1 y member draft).2.1]
        apply fresh.2 y member
      simp [RecordShape.readMembers, named, found, given, fresh.1,
        reads depth draft _ room first, bind, Except.bind]
      apply ih others apart.2 fresh' rest

end Datum

/-- A record is accepted when its data are read, whatever their order. -/
theorem accepts_record {δ : Type} {r : RecordShape δ α} {height : Nat} {ds : List (Datum δ)}
    {a : α} (read : ∀ x ∈ ds, x.Read r height) (apart : ds.Pairwise Datum.Apart)
    (fresh : ∀ x ∈ ds, x.given r.start = false)
    (complete : r.complete (Datum.putAll r.start ds) = .ok a) :
  r.decoder.Accepts (height + 1) (.object (ds.map Datum.member)) a
  := by
  intro depth t room displays
  cases displays with
  | @object _ ms _ start stop arranged displays =>
    have arranged := arranged.symm
    rw [← congrFun₂ (List.eq_map_comp_perm Datum.member)] at arranged
    obtain ⟨ds', rfl, order⟩ := arranged
    have room' : height < depth - 1 := by omega
    have read : ∀ x ∈ ds', x.Read r height := by
      intro x member
      apply read x (order.mem_iff.1 member)
    have fresh : ∀ x ∈ ds', x.given r.start = false := by
      intro x member
      apply fresh x (order.mem_iff.1 member)
    have apart : ds'.Pairwise Datum.Apart := order.symm.pairwise apart fun h => h.symm
    have draft := Datum.readMembers_eq_putAll room' read apart fresh displays
    rw [Datum.putAll_perm order apart] at draft
    simp [RecordShape.decoder, RecordShape.readObject, descend_of_lt room, draft, complete, bind,
      Except.bind]

end TypeAssertions.Json
