import TypeAssertions.Path

/-!
# The order of paths

Components are ordered by their sort and names by their text, and paths like words whose letters
are their components.  This is a linear order in which only equivalent paths are on a par, so that
sorted paths without equivalent neighbours are in strictly increasing order.
-/

namespace TypeAssertions

/-! ### Components -/

theorem Component.order_eq_compareLex :
  Component.order = compareLex (compareOn rank) (compareOn text)
  := rfl

instance : Std.TransCmp Component.order := by
  rw [Component.order_eq_compareLex]
  infer_instance

instance : Std.LawfulEqCmp Component.order where
  eq_of_compare {a b} h := by
    simp only [Component.order, Ordering.then_eq_eq, Std.LawfulEqOrd.compare_eq_iff_eq] at h
    cases a <;> cases b <;> simp_all [Component.rank, Component.text]

theorem compareComponents_eq_compareLex :
  compareComponents = List.compareLex Component.order
  := by
  funext as bs
  induction as generalizing bs with
  | nil => cases bs <;> rfl
  | cons a as ih =>
    cases bs with
    | nil => rfl
    | cons b bs =>
      rw [compareComponents, ih, List.compareLex_cons_cons]

/-! ### Paths -/

namespace Path

instance : Std.TransCmp Path.order where
  eq_swap := by
    intro p q
    simp only [order, compareComponents_eq_compareLex]
    apply Std.OrientedCmp.eq_swap
  isLE_trans := by
    intro p q r
    simp only [order, compareComponents_eq_compareLex]
    apply Std.TransCmp.isLE_trans

theorem order_eq_eq_iff (p q : Path) :
  p.order q = .eq ↔ p.equivalent q = true
  := by
  rw [order, compareComponents_eq_compareLex, equivalent, decide_eq_true_eq]
  apply Std.LawfulEqCmp.compare_eq_iff_eq

theorem le_trans {p q r : Path} (h : p.le q = true) (h' : q.le r = true) :
  p.le r = true
  := Std.TransCmp.isLE_trans h h'

theorem le_total (p q : Path) :
  (p.le q || q.le p) = true
  := by
  have swapped : q.order p = (p.order q).swap := Std.OrientedCmp.eq_swap
  rw [le, le, swapped]
  cases p.order q <;> rfl

end Path

end TypeAssertions
