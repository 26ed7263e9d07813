import TypeAssertions.Discovery
import TypeAssertions.Proofs.Except
import TypeAssertions.Proofs.Path.Order

/-!
# The order of test files

The test files that are discovered come in strictly increasing order, so that no two of them are
equivalent.
-/

namespace TypeAssertions.Discovery

theorem pairwise_dropRepeatedAfter {p : Path} {paths : List Path}
    (sorted : (p :: paths).Pairwise fun q r => q.le r = true) :
  (p :: dropRepeatedAfter p paths).Pairwise fun q r => q.order r = .lt
  := by
  induction paths generalizing p with
  | nil => apply List.pairwise_singleton
  | cons q rest ih =>
    rw [dropRepeatedAfter]
    split
    case isTrue =>
      apply ih (sorted.sublist ((List.sublist_cons_self q rest).cons_cons p))
    case isFalse different =>
      have later := ih (List.pairwise_cons.1 sorted).2
      have before : p.order q = .lt := by
        have below := (List.pairwise_cons.1 sorted).1 q List.mem_cons_self
        rw [← Path.order_eq_eq_iff] at different
        rw [Path.le] at below
        cases compared : p.order q with
        | lt => rfl
        | eq => apply absurd compared different
        | gt =>
          rw [compared] at below
          cases below
      refine List.pairwise_cons.2 ⟨?_, later⟩
      intro r member
      rcases List.mem_cons.1 member with rfl | member
      · apply before
      · apply Std.TransCmp.lt_trans before ((List.pairwise_cons.1 later).1 r member)

theorem pairwise_dropRepeated {paths : List Path}
    (sorted : paths.Pairwise fun q r => q.le r = true) :
  (dropRepeated paths).Pairwise fun q r => q.order r = .lt
  := by
  cases paths with
  | nil => apply List.Pairwise.nil
  | cons p rest => apply pairwise_dropRepeatedAfter sorted

/-- The test files that paths stand for come in strictly increasing order. -/
theorem pairwise_discoverBy {t : FileTree} {wanted : Path → Bool}
    {paths files : List Path} (h : discoverBy t wanted paths = .ok files) :
  files.Pairwise fun p q => p.order q = .lt
  := by
  rw [discoverBy, Except.bind_eq_ok_iff] at h
  obtain ⟨found, -, h⟩ := h
  rw [Except.pure_eq_ok_iff] at h
  obtain rfl := h
  apply pairwise_dropRepeated
  apply List.pairwise_mergeSort
  · intro p q r
    apply Path.le_trans
  · apply Path.le_total

/-! ### Files that are named -/

theorem expand_of_isFile {t : FileTree} {p : Path} (h : t.isFile p = true)
    (wanted : Path → Bool) :
  expand t wanted p = .ok [p]
  := by
  rw [FileTree.isFile] at h
  rw [expand]
  split at h
  case h_1 found => rw [found]
  case h_2 => cases h

theorem dropRepeatedAfter_of_pairwise {p : Path} {paths : List Path}
    (ordered : (p :: paths).Pairwise fun q r => q.order r = .lt) :
  dropRepeatedAfter p paths = paths
  := by
  induction paths generalizing p with
  | nil => rfl
  | cons q rest ih =>
    obtain ⟨before, later⟩ := List.pairwise_cons.1 ordered
    have different : ¬ p.equivalent q = true := by
      rw [← Path.order_eq_eq_iff, before q List.mem_cons_self]
      apply Ordering.noConfusion
    rw [dropRepeatedAfter, if_neg different, ih later]

/-- Files that are named in increasing order are the test files. -/
theorem discoverBy_of_isFile {t : FileTree} {paths : List Path}
    (files : ∀ p ∈ paths, t.isFile p = true)
    (ordered : paths.Pairwise fun p q => p.order q = .lt) (wanted : Path → Bool) :
  discoverBy t wanted paths = .ok paths
  := by
  have expanded : paths.mapM (expand t wanted) = .ok (paths.map fun p => [p]) := by
    clear ordered
    induction paths with
    | nil => rfl
    | cons p rest ih =>
      obtain ⟨file, others⟩ := List.forall_mem_cons.1 files
      rw [List.mapM_cons, expand_of_isFile file, ih others]
      rfl
  have sorted : paths.Pairwise fun p q => p.le q = true := by
    apply ordered.imp
    intro p q before
    rw [Path.le, before]
    rfl
  have distinct : dropRepeated paths = paths := by
    cases paths with
    | nil => rfl
    | cons p rest => rw [dropRepeated, dropRepeatedAfter_of_pairwise ordered]
  rw [discoverBy, Except.bind_eq_ok_iff]
  use paths.map fun p => [p], expanded
  rw [Except.pure_eq_ok_iff, ← List.flatMap_def, List.flatMap_singleton',
    List.mergeSort_of_pairwise sorted, distinct]

end TypeAssertions.Discovery
