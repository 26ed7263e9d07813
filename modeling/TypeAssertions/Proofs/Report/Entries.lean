import TypeAssertions.Proofs.Report.Caches
import TypeAssertions.Proofs.Report.Summary

/-!
# The entries of a report

A reporter writes one entry for each item of an outcome, labelled with the name of its category
(`Reporter.forall₂_writeAll`).  `Summary.foldl_record_items` says that a summary counts these
entries by their labels: those that are labelled as errors are the errors, and all others are the
warnings.
-/

namespace TypeAssertions.Report

/-! ### Labels -/

namespace Item

/-- The label of the entry of an item. -/
def label (item : Item) : String := item.category.name

/-- A text is the entry of an item: it names the file, with the position if this is known, and goes
on with the label, the code unless that is zero, the message, and the snippet if there is one. -/
def IsEntry (item : Item) (color : Bool) (text : String) : Prop :=
  ∃ (position : Option Text.Position) (snippet : Option Snippet),
    text = item.named?.getD "<global>" ++ (position.map fun p => ":" ++ p.text).getD "" ++ " - "
      ++ (Style.ofCategory item.category).paint color item.label
      ++ (if item.code = 0 then "" else " " ++ Style.brightBlue.paint color s!"TS{item.code}")
      ++ ": " ++ item.message ++ (snippet.map fun s => s.text color).getD ""

theorem label_eq_error_iff (item : Item) :
  item.label = "error" ↔ item.category = .error
  := by
  cases category : item.category <;> simp [label, category, Category.name]

/-- What is an error is labelled as one. -/
theorem isError_eq (d : Diagnostic) :
  d.isError = decide ((ofDiagnostic d).label = "error")
  := by
  rw [Diagnostic.isError, decide_eq_decide, label_eq_error_iff]
  rfl

/-- A finding is labelled as an error when its severity is that of errors. -/
theorem isError_ofFinding (f : Finding) :
  f.isError = decide ((ofFinding f).label = "error")
  := by
  rw [Finding.isError, decide_eq_decide, label_eq_error_iff]
  cases f with
  | diagnostic d =>
    rw [Finding.severity, ofFinding, ofDiagnostic]
    cases d.category <;> simp [Category.severity]
  | missingError file span message => apply iff_of_true <;> rfl
  | verdict kind file span message severity =>
    rw [Finding.severity, ofFinding]
    cases severity <;> simp [Severity.category]

theorem entries_eq (o : Outcome) :
  Summary.entries o = (ofOutcome o).map fun item => decide (item.label = "error")
  := by
  rw [Summary.entries, ofOutcome]
  cases o.errors with
  | some errors => simp [isError_eq]
  | none => simp [isError_ofFinding]

end Item

namespace Reporter

theorem isEntry_write (r : Reporter) (disk : String → Option String) (item : Item) :
  item.IsEntry r.color (r.write disk item).1
  := by
  cases named : item.named? with
  | none =>
    rw [write_of_unnamed named]
    use none, none
    rw [named]
    simp [headline, Item.label, String.append_assoc]
  | some file =>
    simp only [write, named, color_lookUp]
    cases (r.lookUp disk file).1 with
    | none =>
      use none, none
      rw [named]
      simp [written, headline, Item.label, String.append_assoc]
    | some known =>
      obtain ⟨source, lines⟩ := known
      use some (lines.position item.start.toNat source),
        snippet? source lines item.start.toNat item.length
      rw [named]
      simp only [written, headline, Item.label, String.append_assoc, Option.map_some,
        Option.getD_some]
      rfl

/-- A reporter writes the entries of the items, in their order. -/
theorem forall₂_writeAll (r : Reporter) (disk : String → Option String) (items : List Item) :
  List.Forall₂ (fun item text => item.IsEntry r.color text) items (r.writeAll disk items).1
  := by
  induction items generalizing r with
  | nil => apply List.Forall₂.nil
  | cons item items ih =>
    have later := ih (r.write disk item).2
    rw [color_write] at later
    exact .cons (isEntry_write r disk item) later

end Reporter

/-! ### Counts -/

namespace Summary

theorem foldl_record_perm {outcomes reordered : List Outcome} (same : outcomes.Perm reordered)
    (s : Summary) :
  outcomes.foldl record s = reordered.foldl record s
  := by
  have written := same.flatMap_right entries
  rw [foldl_record, foldl_record, same.length_eq, same.countP_eq, (same.map _).sum_eq,
    written.count_eq, written.count_eq]

/-- A summary counts the outcomes, those that failed, their assertions, and of the entries written
for them those labelled as errors and all others, whatever the reporter has written before.  So the
order of the outcomes does not matter. -/
theorem foldl_record_items (outcomes : List Outcome) :
  let summary := outcomes.foldl record {}
  let items := outcomes.flatMap Item.ofOutcome
  summary.files = outcomes.length
    ∧ summary.failedFiles = outcomes.countP Outcome.hasFailures
    ∧ summary.assertions = (outcomes.map Outcome.assertionCount).sum
    ∧ summary.errors = items.countP (fun item => item.label = "error")
    ∧ summary.warnings = items.countP (fun item => item.label ≠ "error")
    ∧ (∀ (r : Reporter) (disk : String → Option String) (o : Outcome), ∃ texts,
      (r.writeOutcome disk o).1 = String.intercalate "\n" texts
        ∧ List.Forall₂ (fun item text => item.IsEntry r.color text) (Item.ofOutcome o) texts)
    ∧ ∀ reordered, outcomes.Perm reordered → reordered.foldl record {} = summary
  := by
  intro summary items
  have counts := foldl_record {} outcomes
  have entries : outcomes.flatMap entries
      = items.map fun item => decide (item.label = "error") := by
    rw [List.map_flatMap]
    apply List.flatMap_congr
    intro o _
    apply Item.entries_eq
  refine ⟨?_, ?_, ?_, ?_, ?_, ?_, ?_⟩
  · simp [summary, counts]
  · simp [summary, counts]
  · simp [summary, counts]
  · simp [summary, counts, entries, List.count, List.countP_map, Function.comp_def]
  · simp [summary, counts, entries, List.count, List.countP_map, Function.comp_def]
  · intro r disk o
    use (r.writeAll disk (Item.ofOutcome o)).1, rfl
    apply Reporter.forall₂_writeAll
  · intro reordered same
    apply foldl_record_perm same.symm

end Summary

end TypeAssertions.Report
