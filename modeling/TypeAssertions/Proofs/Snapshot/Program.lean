import Mathlib.Data.List.Basic
import TypeAssertions.Expectation
import TypeAssertions.Proofs.Except
import TypeAssertions.Snapshot.Basic

/-!
# The program of a snapshot

A snapshot is accepted when the root of each of its files is one of the nodes of the file.  Its
program has the same files in the same order, under their numbers, and the diagnostics of the
snapshot as they are.

Numbers are 32 bits wide.  A number that several files have is that of the first of them, so that
the name which a number leads to is the one that a finding shows.
-/

namespace TypeAssertions

namespace SnapshotFile

/-- The root of a file is one of its nodes. -/
def HasRoot (f : SnapshotFile) : Prop := (f.nodes.get? (f.root.getD ⟨0⟩)).isSome = true

/-- A file of a snapshot as a source file under a number. -/
def numbered (f : SnapshotFile) (number : Nat) : SourceFile :=
  ⟨⟨UInt32.ofNat number⟩, f.name, f.text, f.nodes, f.root.getD ⟨0⟩⟩

theorem toSourceFile_eq_ok_iff (f : SnapshotFile) (number : Nat) (file : SourceFile) :
  f.toSourceFile number = .ok file ↔ f.HasRoot ∧ file = f.numbered number
  := by
  simp only [toSourceFile, HasRoot]
  split
  case isTrue found =>
    rw [Except.ok.injEq]
    constructor
    · intro same
      use found, same.symm
    · rintro ⟨-, same⟩
      apply same.symm
  case isFalse missing =>
    constructor
    · intro h
      cases h
    · rintro ⟨found, -⟩
      apply absurd found missing

end SnapshotFile

namespace Snapshot

theorem sourceFilesFrom_eq_ok_iff (number : Nat) (fs : List SnapshotFile)
    (files : List SourceFile) :
  sourceFilesFrom number fs = .ok files
    ↔ (∀ f ∈ fs, f.HasRoot) ∧ files = fs.mapIdx fun i f => f.numbered (number + i)
  := by
  induction fs generalizing number files with
  | nil =>
    rw [sourceFilesFrom, Except.ok.injEq, List.mapIdx_nil]
    simp [eq_comm]
  | cons f rest ih =>
    rw [List.forall_mem_cons, List.mapIdx_cons, sourceFilesFrom]
    have shifted : (fun i (g : SnapshotFile) => g.numbered (number + (i + 1)))
        = fun i g => g.numbered (number + 1 + i) := by
      funext i g
      rw [Nat.add_assoc, Nat.add_comm 1 i]
    rw [shifted]
    simp only [Except.bind_eq_ok_iff, Except.pure_eq_ok_iff, f.toSourceFile_eq_ok_iff, ih]
    constructor
    · rintro ⟨-, ⟨rooted, rfl⟩, -, ⟨rooted', rfl⟩, rfl⟩
      use ⟨rooted, rooted'⟩
      rfl
    · rintro ⟨⟨rooted, rooted'⟩, rfl⟩
      use f.numbered number, ⟨rooted, rfl⟩, rest.mapIdx fun i g => g.numbered (number + 1 + i),
        ⟨rooted', rfl⟩
      rfl

/-- The files of a snapshot as source files, each under its place in the snapshot. -/
def sourceFiles (s : Snapshot) : List SourceFile := s.files.mapIdx fun i f => f.numbered i

/-- The program of a snapshot that is accepted. -/
theorem toProgram_eq_ok_iff (s : Snapshot) (p : Program Verdicts) :
  s.toProgram = .ok p
    ↔ (∀ f ∈ s.files, f.HasRoot)
      ∧ p = ⟨s.sourceFiles, s.syntaxDiagnostics, s.semanticDiagnostics, s.verdicts s.sourceFiles⟩
  := by
  have numbered (files : List SourceFile) : sourceFilesFrom 0 s.files = .ok files
      ↔ (∀ f ∈ s.files, f.HasRoot) ∧ files = s.sourceFiles := by
    rw [sourceFilesFrom_eq_ok_iff, sourceFiles]
    simp only [Nat.zero_add]
  simp only [toProgram, Except.bind_eq_ok_iff, Except.pure_eq_ok_iff, numbered]
  constructor
  · rintro ⟨-, ⟨rooted, rfl⟩, rfl⟩
    use rooted
  · rintro ⟨rooted, rfl⟩
    use s.sourceFiles, ⟨rooted, rfl⟩

/-- A snapshot is refused when the root of one of its files is not among the nodes. -/
theorem toProgram_eq_error_iff (s : Snapshot) :
  (∃ e, s.toProgram = .error e) ↔ ∃ f ∈ s.files, f.nodes.get? (f.root.getD ⟨0⟩) = none
  := by
  have accepted : (∃ p, s.toProgram = .ok p) ↔ ∀ f ∈ s.files, f.HasRoot := by
    simp only [toProgram_eq_ok_iff, exists_and_left, exists_eq, and_true]
  have refused : (∃ e, s.toProgram = .error e) ↔ ¬ ∃ p, s.toProgram = .ok p := by
    cases s.toProgram <;> simp
  rw [refused, accepted]
  simp only [SnapshotFile.HasRoot, not_forall, Bool.not_eq_true, Option.isSome_eq_false_iff,
    Option.isNone_iff_eq_none, exists_prop]

/-! ### Numbers -/

theorem id_of_getElem?_sourceFiles {s : Snapshot} {i : Nat} {f : SourceFile}
    (h : s.sourceFiles[i]? = some f) :
  f.id = ⟨UInt32.ofNat i⟩
  := by
  rw [sourceFiles, List.getElem?_mapIdx, Option.map_eq_some_iff] at h
  obtain ⟨g, -, rfl⟩ := h
  rfl

/-- The first file that has a number is the one at that place. -/
theorem find?_id_sourceFiles (s : Snapshot) (id : FileId) :
  s.sourceFiles.find? (fun f => f.id = id) = s.sourceFiles[id.index.toNat]?
  := by
  have small := id.index.toNat_lt
  have place {i : Nat} (h : i < 2 ^ 32) (same : (⟨UInt32.ofNat i⟩ : FileId) = id) :
      i = id.index.toNat := by
    rw [← same, UInt32.toNat_ofNat', Nat.mod_eq_of_lt h]
  cases found : s.sourceFiles[id.index.toNat]? with
  | none =>
    rw [List.find?_eq_none]
    intro f member
    obtain ⟨i, at_i⟩ := List.mem_iff_getElem?.1 member
    have inside := (List.getElem?_eq_some_iff.1 at_i).1
    have outside := List.getElem?_eq_none_iff.1 found
    rw [decide_eq_true_eq, id_of_getElem?_sourceFiles at_i]
    intro same
    have := place (by omega) same
    omega
  | some f =>
    obtain ⟨inside, at_i⟩ := List.getElem?_eq_some_iff.1 found
    rw [List.find?_eq_some_iff_getElem, decide_eq_true_eq, id_of_getElem?_sourceFiles found]
    constructor
    · rw [UInt32.ofNat_toNat]
    · use id.index.toNat, inside, at_i
      intro j before
      have at_j := List.getElem?_eq_getElem (Nat.lt_trans before inside)
      rw [Bool.not_eq_true', decide_eq_false_iff_not, id_of_getElem?_sourceFiles at_j]
      intro same
      have := place (by omega) same
      omega

/-- The name that a number leads to is that of the file at its place. -/
theorem name_of_getElem?_sourceFiles (s : Snapshot) {id : FileId} {f : SourceFile}
    (member : f ∈ s.sourceFiles) (numbered : f.id = id) :
  (s.sourceFiles[id.index.toNat]?).map SourceFile.name
    = some (Expectations.fileName s.sourceFiles id)
  := by
  have found : (s.sourceFiles.find? fun f => f.id = id).isSome = true := by
    rw [List.find?_isSome]
    use f, member
    apply decide_eq_true numbered
  obtain ⟨g, first⟩ := Option.isSome_iff_exists.1 found
  rw [Expectations.fileName, ← find?_id_sourceFiles, first]
  rfl

end Snapshot

end TypeAssertions
