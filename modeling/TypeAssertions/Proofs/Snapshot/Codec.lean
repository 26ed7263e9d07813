import TypeAssertions.Checker.Source
import TypeAssertions.Proofs.Json.Decoding

/-!
# Snapshots read back

A snapshot is read back from the text that it is written as, whatever the order of the members of
its objects and wherever there are spaces (`Snapshot.ofText_of_rearranged`).  Each record is given
as its data, the members that it is written with and what they are read as; the record is accepted
because its reader reads each of them, because no two of them touch each other, and because the
draft with all of them is complete.
-/

namespace TypeAssertions

open Json

theorem plain_uint32 (n : UInt32) :
  (Value.ofNat n.toNat).Plain
  := by
  have fits : n.toNat < UInt32.size := n.toNat_lt
  apply Value.Plain.natural
  apply le_trans fits.le
  decide

/-! ### Nodes -/

theorem NodeIndex.accepts (height : Nat) (i : NodeIndex) :
  decoder.Accepts height i.toJson i
  := (Decoder.accepts_uint32 height i.index).map NodeIndex.mk

namespace Node

/-- The data of a node. -/
def data (n : Node) : List (Datum Draft) :=
  [.of "kind" Draft.kind (fun d kind => { d with kind }) (.string n.kind.name) n.kind,
    .of "pos" Draft.start (fun d start => { d with start }) (.ofNat n.start.toNat) n.start,
    .of "end" Draft.stop (fun d stop => { d with stop }) (.ofNat n.stop.toNat) n.stop,
    .of "children" Draft.children (fun d children => { d with children })
      (.array (n.children.map NodeIndex.toJson)) n.children]

theorem apart_data (n : Node) :
  n.data.Pairwise Datum.Apart
  := by
  simp [data, Datum.Apart, Datum.of]

theorem read_data (height : Nat) (n : Node) :
  ∀ x ∈ n.data, x.Read shape (height + 1)
  := by
  have children := Decoder.accepts_list fun i (_ : i ∈ n.children) => i.accepts height
  simp only [data, List.forall_mem_cons]
  exact ⟨Datum.read_of rfl (Decoder.accepts_choice n.kind.lookup_name _ _),
    Datum.read_of rfl (Decoder.accepts_uint32 _ n.start),
    Datum.read_of rfl (Decoder.accepts_uint32 _ n.stop), Datum.read_of rfl children, by simp⟩

/-- A node is read from the value that it is written as. -/
theorem accepts (height : Nat) (n : Node) :
  decoder.Accepts (height + 2) n.toJson n
  := by
  have fresh : ∀ x ∈ n.data, x.given shape.start = false := by simp [data, Datum.of, shape]
  have complete : shape.complete (Datum.putAll shape.start n.data) = .ok n := rfl
  apply accepts_record (n.read_data height) n.apart_data fresh complete

theorem plain (n : Node) :
  n.toJson.Plain
  := by
  apply Value.Plain.object
  simp only [List.forall_mem_cons]
  use .string n.kind.name, plain_uint32 n.start, plain_uint32 n.stop
  constructor
  · apply Value.Plain.array
    simp only [List.forall_mem_map]
    exact fun i _ => plain_uint32 i.index
  · simp

end Node

namespace Arena

/-- An arena is read from the value that it is written as. -/
theorem accepts (height : Nat) (a : Arena) :
  decoder.Accepts (height + 3) a.toJson a
  := by
  have nodes := Decoder.accepts_list fun n (_ : n ∈ a.nodes) => n.accepts height
  apply nodes.map Arena.mk

theorem plain (a : Arena) :
  a.toJson.Plain
  := by
  apply Value.Plain.array
  simp only [List.forall_mem_map]
  exact fun n _ => n.plain

end Arena

/-! ### Files -/

namespace SnapshotFile

/-- The data of a file. -/
def data (f : SnapshotFile) : List (Datum Draft) :=
  [.of "fileName" Draft.name (fun d name => { d with name }) (.string f.name) f.name,
    .of "text" Draft.text (fun d text => { d with text }) (.string f.text) f.text,
    .of "nodes" Draft.nodes (fun d nodes => { d with nodes }) f.nodes.toJson f.nodes,
    .of "root" Draft.root (fun d root => { d with root })
      ((f.root.map NodeIndex.toJson).getD .null) f.root]

theorem apart_data (f : SnapshotFile) :
  f.data.Pairwise Datum.Apart
  := by
  simp [data, Datum.Apart, Datum.of]

/-- A root is read from an index, and no root from `null`. -/
theorem accepts_root (height : Nat) (root : Option NodeIndex) :
  (Decoder.optional NodeIndex.decoder).Accepts height ((root.map NodeIndex.toJson).getD .null) root
  := by
  cases root with
  | none => apply Decoder.accepts_optional_none
  | some i =>
    apply (i.accepts height).optional
    intro h
    cases h

theorem read_data (height : Nat) (f : SnapshotFile) :
  ∀ x ∈ f.data, x.Read shape (height + 3)
  := by
  simp only [data, List.forall_mem_cons]
  exact ⟨Datum.read_of rfl (Decoder.accepts_string _ f.name),
    Datum.read_of rfl (Decoder.accepts_string _ f.text),
    Datum.read_of rfl (f.nodes.accepts height), Datum.read_of rfl (accepts_root _ f.root), by simp⟩

/-- A file is read from the value that it is written as. -/
theorem accepts (height : Nat) (f : SnapshotFile) :
  shape.decoder.Accepts (height + 4) f.toJson f
  := by
  have fresh : ∀ x ∈ f.data, x.given shape.start = false := by simp [data, Datum.of, shape]
  have complete : shape.complete (Datum.putAll shape.start f.data) = .ok f := rfl
  apply accepts_record (f.read_data height) f.apart_data fresh complete

theorem plain (f : SnapshotFile) :
  f.toJson.Plain
  := by
  apply Value.Plain.object
  simp only [List.forall_mem_cons]
  use .string f.name, .string f.text, f.nodes.plain
  constructor
  · cases f.root with
    | none => exact .null
    | some i => apply plain_uint32
  · simp

end SnapshotFile

/-! ### Diagnostics -/

namespace Diagnostic

/-- The data of a diagnostic. -/
def data (d : Diagnostic) : List (Datum Draft) :=
  (d.file.map fun file =>
      .of "file" Draft.file (fun d file => { d with file }) (.string file) (some file)).toList
    ++ [.of "start" Draft.start (fun d start => { d with start }) (.ofNat d.start.toNat) d.start,
      .of "length" Draft.length (fun d length => { d with length }) (.ofNat d.length.toNat)
        d.length,
      .of "messageText" Draft.text (fun d text => { d with text }) (.string d.text) d.text,
      .of "category" Draft.category (fun d category => { d with category })
        (.string d.category.name) d.category,
      .of "code" Draft.code (fun d code => { d with code }) (.ofNat d.code.toNat) d.code]

theorem apart_data (d : Diagnostic) :
  d.data.Pairwise Datum.Apart
  := by
  cases h : d.file <;> simp [data, h, Datum.Apart, Datum.of]

theorem read_data (height : Nat) (d : Diagnostic) :
  ∀ x ∈ d.data, x.Read shape height
  := by
  rw [data, List.forall_mem_append]
  constructor
  · intro x member
    simp only [Option.mem_toList, Option.map_eq_some_iff] at member
    obtain ⟨file, -, rfl⟩ := member
    apply Datum.read_of rfl
    apply (Decoder.accepts_string height file).optional
    intro h
    cases h
  · simp only [List.forall_mem_cons]
    exact ⟨Datum.read_of rfl (Decoder.accepts_uint32 _ d.start),
      Datum.read_of rfl (Decoder.accepts_uint32 _ d.length),
      Datum.read_of rfl (Decoder.accepts_string _ d.text),
      Datum.read_of rfl (Decoder.accepts_choice d.category.lookup_name _ _),
      Datum.read_of rfl (Decoder.accepts_uint32 _ d.code), by simp⟩

/-- A diagnostic is read from the value that it is written as, with a file or without one. -/
theorem accepts (height : Nat) (d : Diagnostic) :
  decoder.Accepts (height + 1) d.toJson d
  := by
  have fresh : ∀ x ∈ d.data, x.given shape.start = false := by
    cases h : d.file <;> simp [data, h, Datum.of, shape]
  have complete : shape.complete (Datum.putAll shape.start d.data) = .ok d := by
    obtain ⟨_ | file, start, length, text, category, code⟩ := d <;> rfl
  have written : d.data.map Datum.member = d.members := by
    obtain ⟨_ | file, start, length, text, category, code⟩ := d <;> rfl
  have accepted := accepts_record (d.read_data height) d.apart_data fresh complete
  rwa [written] at accepted

theorem plain (d : Diagnostic) :
  d.toJson.Plain
  := by
  apply Value.Plain.object
  rw [members, List.forall_mem_append]
  constructor
  · intro m member
    simp only [Option.mem_toList, Option.map_eq_some_iff] at member
    obtain ⟨file, -, rfl⟩ := member
    exact .string file
  · simp only [List.forall_mem_cons]
    exact ⟨plain_uint32 d.start, plain_uint32 d.length, .string d.text, .string d.category.name,
      plain_uint32 d.code, by simp⟩

end Diagnostic

/-! ### Evaluations -/

namespace Evaluation

/-- The data of an evaluation. -/
def data (e : Evaluation) : List (Datum Draft) :=
  [.of "kind" Draft.kind (fun d kind => { d with kind }) (.string e.kind.name) e.kind,
    .of "file" Draft.file (fun d file => { d with file }) (.string e.file) e.file,
    .of "start" Draft.start (fun d start => { d with start }) (.ofNat e.start.toNat) e.start,
    .of "end" Draft.stop (fun d stop => { d with stop }) (.ofNat e.stop.toNat) e.stop,
    .of "passed" Draft.passed (fun d passed => { d with passed }) (.bool e.passed) e.passed,
    .of "message" Draft.message (fun d message => { d with message }) (.string e.message) e.message,
    .of "severity" Draft.severity (fun d severity => { d with severity })
      (.string e.severity.name) e.severity]

theorem apart_data (e : Evaluation) :
  e.data.Pairwise Datum.Apart
  := by
  simp [data, Datum.Apart, Datum.of]

theorem read_data (height : Nat) (e : Evaluation) :
  ∀ x ∈ e.data, x.Read shape height
  := by
  have kind : AssertionKind.byName.lookup e.kind.name = some e.kind := e.kind.ofName?_name
  simp only [data, List.forall_mem_cons]
  exact ⟨Datum.read_of rfl (Decoder.accepts_choice kind _ _),
    Datum.read_of rfl (Decoder.accepts_string _ e.file),
    Datum.read_of rfl (Decoder.accepts_uint32 _ e.start),
    Datum.read_of rfl (Decoder.accepts_uint32 _ e.stop),
    Datum.read_of rfl (Decoder.accepts_bool _ e.passed),
    Datum.read_of rfl (Decoder.accepts_string _ e.message),
    Datum.read_of rfl (Decoder.accepts_choice e.severity.lookup_name _ _), by simp⟩

/-- An evaluation is read from the value that it is written as. -/
theorem accepts (height : Nat) (e : Evaluation) :
  shape.decoder.Accepts (height + 1) e.toJson e
  := by
  have fresh : ∀ x ∈ e.data, x.given shape.start = false := by simp [data, Datum.of, shape]
  have complete : shape.complete (Datum.putAll shape.start e.data) = .ok e := rfl
  apply accepts_record (e.read_data height) e.apart_data fresh complete

theorem plain (e : Evaluation) :
  e.toJson.Plain
  := by
  apply Value.Plain.object
  simp only [List.forall_mem_cons]
  exact ⟨.string e.kind.name, .string e.file, plain_uint32 e.start, plain_uint32 e.stop,
    .bool e.passed, .string e.message, .string e.severity.name, by simp⟩

end Evaluation

/-! ### Snapshots -/

namespace Snapshot

/-- The data of a snapshot. -/
def data (s : Snapshot) : List (Datum Draft) :=
  [.of "files" Draft.files (fun d files => { d with files })
      (.array (s.files.map SnapshotFile.toJson)) s.files,
    .of "syntaxDiagnostics" Draft.syntaxDiagnostics
      (fun d syntaxDiagnostics => { d with syntaxDiagnostics })
      (.array (s.syntaxDiagnostics.map Diagnostic.toJson)) s.syntaxDiagnostics,
    .of "semanticDiagnostics" Draft.semanticDiagnostics
      (fun d semanticDiagnostics => { d with semanticDiagnostics })
      (.array (s.semanticDiagnostics.map Diagnostic.toJson)) s.semanticDiagnostics,
    .of "evaluations" Draft.evaluations (fun d evaluations => { d with evaluations })
      (.array (s.evaluations.map Evaluation.toJson)) s.evaluations]

theorem apart_data (s : Snapshot) :
  s.data.Pairwise Datum.Apart
  := by
  simp [data, Datum.Apart, Datum.of]

theorem read_data (height : Nat) (s : Snapshot) :
  ∀ x ∈ s.data, x.Read shape (height + 5)
  := by
  have files := Decoder.accepts_list fun f (_ : f ∈ s.files) => f.accepts height
  have diagnostics (ds : List Diagnostic) :=
    Decoder.accepts_list fun d (_ : d ∈ ds) => d.accepts (height + 3)
  have evaluations := Decoder.accepts_list fun e (_ : e ∈ s.evaluations) => e.accepts (height + 3)
  simp only [data, List.forall_mem_cons]
  exact ⟨Datum.read_of rfl files, Datum.read_of rfl (diagnostics s.syntaxDiagnostics),
    Datum.read_of rfl (diagnostics s.semanticDiagnostics), Datum.read_of rfl evaluations, by simp⟩

/-- A snapshot is read from the value that it is written as, which is six containers deep. -/
theorem accepts (height : Nat) (s : Snapshot) :
  decoder.Accepts (height + 6) s.toJson s
  := by
  have fresh : ∀ x ∈ s.data, x.given shape.start = false := by simp [data, Datum.of, shape]
  have complete : shape.complete (Datum.putAll shape.start s.data) = .ok s := rfl
  apply accepts_record (s.read_data height) s.apart_data fresh complete

theorem plain (s : Snapshot) :
  s.toJson.Plain
  := by
  have files : ∀ v ∈ s.files.map SnapshotFile.toJson, v.Plain := by
    rw [List.forall_mem_map]
    exact fun f _ => f.plain
  have diagnostics (ds : List Diagnostic) : ∀ v ∈ ds.map Diagnostic.toJson, v.Plain := by
    rw [List.forall_mem_map]
    exact fun d _ => d.plain
  have evaluations : ∀ v ∈ s.evaluations.map Evaluation.toJson, v.Plain := by
    rw [List.forall_mem_map]
    exact fun e _ => e.plain
  apply Value.Plain.object
  simp only [List.forall_mem_cons]
  exact ⟨.array files, .array (diagnostics _), .array (diagnostics _), .array evaluations, by simp⟩

/-- What displays a snapshot, in a text that nothing follows, is read as the snapshot. -/
theorem ofText_of_displays {s : Snapshot} {t : Tree} {text : List Char}
    (displays : Displays s.toJson t) (tree : Tree.ofText text = (t, [])) :
  ofText text = .ok s
  := by
  have read := s.accepts 0 maxDepth t (by decide) displays
  rw [ofText, Decoder.readText, tree]
  simp only [read]

/-- A snapshot is read back from any text that writes it, with its members in any order and spaces
anywhere; and then the checker gives the program of the snapshot. -/
theorem ofText_of_rearranged (s : Snapshot) :
  ofText s.toJson.compactChars = .ok s
    ∧ ∀ v text, Rearranged s.toJson v → Spaced v.lexemes text →
      ofText text = .ok s
        ∧ (∀ origin,
          SnapshotSource.programOfText origin text = SnapshotSource.programOf origin s)
        ∧ ∀ t launch (source : SnapshotSource) file files options origin,
          source.load t launch file options = .ok (text, origin) →
          source.check t launch (file :: files) options = SnapshotSource.programOf origin s
  := by
  have read (v : Value) (text : List Char) (same : Rearranged s.toJson v)
      (spaced : Spaced v.lexemes text) : ofText text = .ok s := by
    obtain ⟨t, displays, tree⟩ := ofText_of_spaced (same.plain s.plain) spaced
    apply ofText_of_displays (displays.of_rearranged same) tree
  have program (text : List Char) (h : ofText text = .ok s) (origin : Path) :
      SnapshotSource.programOfText origin text = SnapshotSource.programOf origin s := by
    rw [SnapshotSource.programOfText, h]
    rfl
  constructor
  · rw [Value.compactChars_eq]
    apply read _ _ (.refl _) (spaced_flatMap _)
  · intro v text same spaced
    use read v text same spaced, program text (read v text same spaced)
    intro t launch source file files options origin loaded
    rw [SnapshotSource.check, loaded]
    apply program text (read v text same spaced)

/-- A snapshot of a file with one node. -/
def single : Snapshot := ⟨[⟨"a.ts", "\"é\"\n", ⟨[⟨.other, 0, 5, []⟩]⟩, none⟩], [], [], []⟩

/-- The snapshot `single` with the members of each object from the last one to the first. -/
def singleReversed : Value :=
  .object
    [("evaluations", .array []), ("semanticDiagnostics", .array []),
      ("syntaxDiagnostics", .array []),
      ("files", .array [.object
        [("root", .null),
          ("nodes", .array [.object
            [("children", .array []), ("end", .ofNat 5), ("pos", .ofNat 0),
              ("kind", .string "Other")]]),
          ("text", .string "\"é\"\n"), ("fileName", .string "a.ts")]])]

theorem rearranged_singleReversed :
  Rearranged single.toJson singleReversed
  := by
  have node : Rearranged (Node.toJson ⟨.other, 0, 5, []⟩) _ :=
    .object (List.reverse_perm _).symm (.refl _)
  have file (name text : String) :
      Rearranged (SnapshotFile.toJson ⟨name, text, ⟨[⟨.other, 0, 5, []⟩]⟩, none⟩) _ :=
    .object (List.reverse_perm _).symm
      (.cons "root" (.refl _) (.cons "nodes" (.array (.cons node .nil)) (.refl _)))
  exact .object (List.reverse_perm _).symm
    (.cons "evaluations" (.refl _) (.cons "semanticDiagnostics" (.refl _)
      (.cons "syntaxDiagnostics" (.refl _) (.cons "files" (.array (.cons (file _ _) .nil)) .nil))))

theorem ofText_singleReversed :
  ofText (singleReversed.prettyChars 0) = .ok single
    ∧ SnapshotSource.check ⟨[], []⟩
        (fun _ _ => .ok ⟨.exited 0, Text.Utf8.encode (singleReversed.prettyChars 0), []⟩)
        (.command "check") [⟨"a.ts"⟩] {} = SnapshotSource.programOf ⟨"a.ts"⟩ single
  := by
  obtain ⟨read, -, checked⟩ := (ofText_of_rearranged single).2 singleReversed _
    rearranged_singleReversed (singleReversed.spaced_prettyChars 0)
  use read
  apply checked
  decide +kernel

end Snapshot

end TypeAssertions
