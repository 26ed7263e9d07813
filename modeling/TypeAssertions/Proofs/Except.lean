import Mathlib.Control.Monad.Basic
import Mathlib.Data.List.Forall2
import Mathlib.Tactic.Use

/-!
# Results of steps that may fail

Steps one after the other give a result when each of them does.
-/

namespace Except

variable {ε ε' α β : Type}

theorem bind_eq_ok_iff {x : Except ε α} {f : α → Except ε β} {b : β} :
  x >>= f = .ok b ↔ ∃ a, x = .ok a ∧ f a = .ok b
  := by
  constructor
  · cases x with
    | error e =>
      intro h
      cases h
    | ok a =>
      intro h
      use a, rfl, h
  · rintro ⟨a, rfl, h⟩
    apply h

theorem pure_eq_ok_iff {a b : α} :
  (pure a : Except ε α) = .ok b ↔ a = b
  := by
  constructor
  · intro h
    apply Except.ok.inj h
  · rintro rfl
    rfl

theorem map_eq_ok_iff {x : Except ε α} {f : α → β} {b : β} :
  x.map f = .ok b ↔ ∃ a, x = .ok a ∧ f a = b
  := by
  cases x with
  | error e => simp [Except.map]
  | ok a => simp [Except.map]

theorem mapError_eq_ok_iff {x : Except ε α} {f : ε → ε'} {a : α} :
  x.mapError f = .ok a ↔ x = .ok a
  := by
  cases x with
  | error e => simp [Except.mapError]
  | ok b => simp [Except.mapError]

theorem toOption_eq_some_iff {x : Except ε α} {a : α} :
  x.toOption = some a ↔ x = .ok a
  := by
  cases x <;> simp [Except.toOption]

/-- Steps with the same result, or both with none. -/
theorem cases_of_toOption_eq {x x' : Except ε α} (same : x.toOption = x'.toOption) :
  (∃ a, x = .ok a ∧ x' = .ok a) ∨ ∃ e e', x = .error e ∧ x' = .error e'
  := by
  cases x with
  | error e =>
    cases x' with
    | error e' => exact .inr ⟨e, e', rfl, rfl⟩
    | ok a' => cases same
  | ok a =>
    cases x' with
    | error e' => cases same
    | ok a' =>
      obtain rfl := Option.some.inj same
      exact .inl ⟨a, rfl, rfl⟩

theorem toOption_error (e e' : ε) :
  (error e : Except ε α).toOption = (error e' : Except ε α).toOption
  := rfl

theorem toOption_eq_of_ok {x x' : Except ε α} (there : ∀ a, x = .ok a → x' = .ok a)
    (back : ∀ a, x' = .ok a → x = .ok a) :
  x.toOption = x'.toOption
  := by
  apply Option.ext
  intro a
  rw [toOption_eq_some_iff, toOption_eq_some_iff]
  exact ⟨there a, back a⟩

/-- Steps that go on alike have the same result, or both none. -/
theorem toOption_bind_congr {x x' : Except ε α} {f f' : α → Except ε β}
    (first : x.toOption = x'.toOption) (later : ∀ a, (f a).toOption = (f' a).toOption) :
  (x >>= f).toOption = (x' >>= f').toOption
  := by
  rcases cases_of_toOption_eq first with ⟨a, rfl, rfl⟩ | ⟨e, e', rfl, rfl⟩
  · apply later
  · rfl

theorem toOption_map_congr {x x' : Except ε α} (f : α → β) (same : x.toOption = x'.toOption) :
  (x.map f).toOption = (x'.map f).toOption
  := by
  rcases cases_of_toOption_eq same with ⟨a, rfl, rfl⟩ | ⟨e, e', rfl, rfl⟩ <;> rfl

/-- Steps for the elements of a list give the results of all of them, if each gives one. -/
theorem mapM_eq_ok_iff {f : α → Except ε β} {l : List α} {bs : List β} :
  l.mapM f = .ok bs ↔ List.Forall₂ (fun a b => f a = .ok b) l bs
  := by
  induction l generalizing bs with
  | nil =>
    rw [List.mapM_nil, pure_eq_ok_iff, List.forall₂_nil_left_iff, eq_comm]
  | cons a l ih =>
    simp only [List.mapM_cons, bind_eq_ok_iff, pure_eq_ok_iff, ih, List.forall₂_cons_left_iff]
    constructor
    · rintro ⟨b, first, rest, later, rfl⟩
      exact ⟨b, rest, first, later, rfl⟩
    · rintro ⟨b, rest, first, later, rfl⟩
      exact ⟨b, first, rest, later, rfl⟩

/-- Steps for the elements of a list fail when one of them does. -/
theorem exists_mapM_eq_error_iff {f : α → Except ε β} {l : List α} :
  (∃ e, l.mapM f = .error e) ↔ ∃ a ∈ l, ∃ e, f a = .error e
  := by
  induction l with
  | nil => simp [pure, Except.pure]
  | cons a l ih =>
    rw [List.mapM_cons]
    cases first : f a with
    | error e => simp [first, bind, Except.bind]
    | ok b =>
      rw [List.exists_mem_cons_iff, ← ih]
      cases later : l.mapM f with
      | error e => simp [bind, Except.bind]
      | ok bs => simp [first, bind, Except.bind, pure, Except.pure]

end Except
