import Mathlib.Tactic.Use
import TypeAssertions.Checking
import TypeAssertions.Proofs.Assertion.Extraction
import TypeAssertions.Proofs.Reconciliation.Absorption

/-!
# The stages of a check

A check asks for the compiler options, runs the checker, and has the assertions evaluated, in this
order, and each stage is reached only when nothing is wrong in those before it.  The collaborators
are any at all: they share a state of any type, which each of them may read and change.

There are four ways in which a check ends, and a lemma for each of them says what is answered and
which calls were made.  `checkFile_stages` draws from them what is called and with what, and how the
answer tells where the check ended.
-/

namespace TypeAssertions

/-- The files and the options that the checker is called with. -/
def Call.checked? : Call → Option (List Path × CompilerOptions)
  | .checker files options => some (files, options)
  | .evaluator _ => none

/-- The groups that the evaluator is called with. -/
def Call.evaluated? : Call → Option Groups
  | .checker _ _ => none
  | .evaluator groups => some groups

/-! ### What is evaluated -/

/-- Groups hold exactly the assertions that do not expect an error: one group for each kind of
them, with all assertions of the kind in the order of their discovery. -/
structure Groups.Hold (groups : Groups) (e : Extracted) : Prop where
  unexpected : ∀ group ∈ groups, group.1 ≠ .expectError
  full : ∀ group ∈ groups, group.2 = e.ofKind group.1 ∧ group.2 ≠ []
  every : ∀ a ∈ e.assertions, a.kind ≠ .expectError → ∃ group ∈ groups, a ∈ group.2
  once : (groups.map Prod.fst).Nodup

theorem Extracted.hold_evaluable (e : Extracted) :
  Groups.Hold e.evaluable e
  := by
  have mem_evaluable (group : AssertionKind × List Assertion) (h : group ∈ e.evaluable) :
      group.1 ≠ .expectError ∧ group.2 = e.ofKind group.1 ∧ group.2 ≠ [] := by
    simp only [evaluable, groups, List.mem_filter, List.mem_map, decide_eq_true_eq] at h
    obtain ⟨⟨⟨k, -, rfl⟩, inhabited⟩, evaluated⟩ := h
    use evaluated, rfl
    simpa using inhabited
  constructor
  · intro group h
    apply (mem_evaluable group h).1
  · intro group h
    apply (mem_evaluable group h).2
  · intro a recorded kind
    apply (e.exists_mem_evaluable_iff a).2 ⟨recorded, kind⟩
  · have kinds : (AssertionKind.all.map fun k => (k, e.ofKind k)).map Prod.fst
        = AssertionKind.all := by
      rw [List.map_map]
      apply List.map_id
    have below : (e.evaluable.map Prod.fst).Sublist AssertionKind.all := by
      rw [← kinds]
      apply List.Sublist.map
      apply List.filter_sublist.trans List.filter_sublist
    apply List.Nodup.sublist below
    decide

/-! ### The course of a check -/

namespace Collaborators

variable {σ M : Type}

section

variable (c : Collaborators (StateM σ) M) (file : Path) (w : σ)

/-- What is resolved for a file, and the state after that. -/
def resolution : Resolved × σ := Id.run ((c.resolve file).run w)

/-- What the checker answers once the options of a file are resolved, and the state after that. -/
def checking : Except CheckerError (Program M) × σ :=
  Id.run ((c.check [file] (c.resolution file w).1.options).run (c.resolution file w).2)

/-- What the evaluator answers about a program once the checker has run, and the state after that. -/
def evaluation (p : Program M) : List Finding × σ :=
  Id.run ((c.evaluate p.model (Extracted.ofFiles p.files).evaluable).run (c.checking file w).2)

/-- The answer of a check and its calls in order, and the state after it. -/
def course : (Except CheckError Outcome × List Call) × σ :=
  Id.run (((checkFile c.traced file).run []).run w)

/-- The four ways in which a check ends, each with its answer and its calls. -/
inductive Ends : Except CheckError Outcome → List Call → Prop where
  | misconfigured (wrong : (c.resolution file w).1.diagnostics ≠ []) :
    Ends (.ok (.stopped (c.resolution file w).1.diagnostics)) []
  | failed (cause : CheckerError) (right : (c.resolution file w).1.diagnostics = [])
      (refused : (c.checking file w).1 = .error cause) :
    Ends (.error ⟨file, cause⟩) [.checker [file] (c.resolution file w).1.options]
  | malformed (p : Program M) (right : (c.resolution file w).1.diagnostics = [])
      (answered : (c.checking file w).1 = .ok p) (wrong : p.syntaxDiagnostics ≠ []) :
    Ends (.ok (.stopped p.syntaxDiagnostics)) [.checker [file] (c.resolution file w).1.options]
  | completed (p : Program M) (right : (c.resolution file w).1.diagnostics = [])
      (answered : (c.checking file w).1 = .ok p) (parsed : p.syntaxDiagnostics = []) :
    Ends (.ok (p.outcome (c.evaluation file w p).1))
      [.checker [file] (c.resolution file w).1.options,
        .evaluator (Extracted.ofFiles p.files).evaluable]

theorem ends_course :
  c.Ends file w (c.course file w).1.1 (c.course file w).1.2
  := by
  have ends {answer : Except CheckError Outcome} {calls : List Call}
      (h : c.Ends file w answer calls) (same : (c.course file w).1 = (answer, calls)) :
      c.Ends file w (c.course file w).1.1 (c.course file w).1.2 := by
    rw [same]
    apply h
  by_cases right : (c.resolution file w).1.diagnostics = []
  · cases answered : (c.checking file w).1 with
    | error cause =>
      apply ends (.failed cause right answered)
      simp only [resolution, checking] at right answered
      simp [course, resolution, checkFile, traced, right, answered]
    | ok p =>
      by_cases parsed : p.syntaxDiagnostics = []
      · apply ends (.completed p right answered parsed)
        simp only [resolution, checking] at right answered
        simp [course, resolution, evaluation, checking, checkFile, traced, right, answered, parsed]
      · apply ends (.malformed p right answered parsed)
        simp only [resolution, checking] at right answered
        simp [course, resolution, checkFile, traced, right, answered, parsed]
  · apply ends (.misconfigured right)
    simp only [resolution] at right
    simp [course, resolution, checkFile, traced, right]

/-- Recording the calls changes neither the answer nor the state. -/
theorem run_checkFile :
  Id.run ((checkFile c file).run w) = ((c.course file w).1.1, (c.course file w).2)
  := by
  by_cases right : (c.resolution file w).1.diagnostics = []
  · cases answered : (c.checking file w).1 with
    | error cause =>
      simp only [resolution, checking] at right answered
      simp [course, checkFile, traced, right, answered]
    | ok p =>
      simp only [resolution, checking] at right answered
      by_cases parsed : p.syntaxDiagnostics = []
      · simp [course, checkFile, traced, right, answered, parsed]
      · simp [course, checkFile, traced, right, answered, parsed]
  · simp only [resolution] at right
    simp [course, checkFile, traced, right]

/-- A check gets to the evaluator, with a program of the checker. -/
def Completes (p : Program M) : Prop :=
  (c.resolution file w).1.diagnostics = [] ∧ (c.checking file w).1 = .ok p
    ∧ p.syntaxDiagnostics = []

/-- Diagnostics stop a check: those of the configuration, or those of the syntax when the
configuration has none. -/
def StopsWith (ds : List Diagnostic) : Prop :=
  ds ≠ [] ∧ ((c.resolution file w).1.diagnostics = ds
    ∨ (c.resolution file w).1.diagnostics = []
      ∧ ∃ p, (c.checking file w).1 = .ok p ∧ p.syntaxDiagnostics = ds)

end

variable {c : Collaborators (StateM σ) M} {file : Path} {w : σ}
  {answer : Except CheckError Outcome} {calls : List Call}

theorem Completes.unique {p q : Program M} (hp : c.Completes file w p)
    (hq : c.Completes file w q) :
  p = q
  := by
  apply Except.ok.inj (hp.2.1.symm.trans hq.2.1)

theorem Completes.not_stopsWith {p : Program M} (h : c.Completes file w p) (ds : List Diagnostic) :
  ¬ c.StopsWith file w ds
  := by
  obtain ⟨right, answered, parsed⟩ := h
  rintro ⟨nonempty, misconfigured | ⟨-, q, answered', malformed⟩⟩
  · apply nonempty (misconfigured.symm.trans right)
  · obtain rfl := Except.ok.inj (answered.symm.trans answered')
    apply nonempty (malformed.symm.trans parsed)

/-- The checker is called once, with the file and its options, unless the configuration has
diagnostics. -/
theorem Ends.checked (h : c.Ends file w answer calls) :
  calls.filterMap Call.checked?
    = if (c.resolution file w).1.diagnostics = [] then [([file], (c.resolution file w).1.options)]
      else []
  := by
  cases h with
  | misconfigured wrong =>
    rw [if_neg wrong]
    rfl
  | failed cause right refused =>
    rw [if_pos right]
    rfl
  | malformed p right answered wrong =>
    rw [if_pos right]
    rfl
  | completed p right answered parsed =>
    rw [if_pos right]
    rfl

/-- The evaluator is called when a check completes, and then once. -/
theorem Ends.evaluated (h : c.Ends file w answer calls) :
  (∀ p, c.Completes file w p →
      calls.filterMap Call.evaluated? = [(Extracted.ofFiles p.files).evaluable])
    ∧ ((∀ p, ¬ c.Completes file w p) → calls.filterMap Call.evaluated? = [])
  := by
  cases h with
  | misconfigured wrong =>
    constructor
    · rintro p ⟨right, -⟩
      apply absurd right wrong
    · intro _
      rfl
  | failed cause right refused =>
    constructor
    · rintro p ⟨-, answered, -⟩
      cases refused.symm.trans answered
    · intro _
      rfl
  | malformed p right answered wrong =>
    constructor
    · rintro q ⟨-, answered', parsed⟩
      obtain rfl := Except.ok.inj (answered.symm.trans answered')
      apply absurd parsed wrong
    · intro _
      rfl
  | completed p right answered parsed =>
    have complete : c.Completes file w p := ⟨right, answered, parsed⟩
    constructor
    · intro q complete'
      obtain rfl := complete.unique complete'
      rfl
    · intro incomplete
      apply absurd complete (incomplete p)

/-- A check fails when the checker is called and does. -/
theorem Ends.eq_error_iff (h : c.Ends file w answer calls) (e : CheckError) :
  answer = .error e
    ↔ (c.resolution file w).1.diagnostics = [] ∧ e.file = file
      ∧ (c.checking file w).1 = .error e.cause
  := by
  cases h with
  | misconfigured wrong => simp [wrong]
  | failed cause right refused =>
    obtain ⟨other, cause'⟩ := e
    simp [right, refused, eq_comm]
  | malformed p right answered wrong => simp [answered]
  | completed p right answered parsed => simp [answered]

/-- The errors of an outcome are the diagnostics that stop the check. -/
theorem Ends.errors_eq_some_iff {o : Outcome} (h : c.Ends file w (.ok o) calls)
    (ds : List Diagnostic) :
  o.errors = some ds ↔ c.StopsWith file w ds
  := by
  cases h with
  | misconfigured wrong =>
    constructor
    · intro same
      obtain rfl := Option.some.inj same
      use wrong
      left
      rfl
    · rintro ⟨-, rfl | ⟨right, -⟩⟩
      · rfl
      · apply absurd right wrong
  | malformed p right answered wrong =>
    constructor
    · intro same
      obtain rfl := Option.some.inj same
      use wrong
      right
      use right, p
    · rintro ⟨nonempty, rfl | ⟨-, q, answered', rfl⟩⟩
      · apply absurd right nonempty
      · obtain rfl := Except.ok.inj (answered.symm.trans answered')
        rfl
  | completed p right answered parsed =>
    have complete : c.Completes file w p := ⟨right, answered, parsed⟩
    constructor
    · intro stopped
      cases stopped
    · intro stops
      apply absurd stops (complete.not_stopsWith ds)

/-- An outcome with errors has no assertions and no findings. -/
theorem Ends.eq_stopped {o : Outcome} (h : c.Ends file w (.ok o) calls) (stopped : o.errors ≠ none) :
  o.assertionCount = 0 ∧ o.findings = []
  := by
  cases h with
  | misconfigured wrong => exact ⟨rfl, rfl⟩
  | malformed p right answered wrong => exact ⟨rfl, rfl⟩
  | completed p right answered parsed => apply absurd rfl stopped

/-- An outcome without errors is that of a check which completes: it counts all assertions, and the
verdicts of the evaluator come first among its findings. -/
theorem Ends.exists_completes {o : Outcome} (h : c.Ends file w (.ok o) calls)
    (unstopped : o.errors = none) :
  ∃ p, c.Completes file w p ∧ o.assertionCount = (Extracted.ofFiles p.files).count
    ∧ (c.evaluation file w p).1 <+: o.findings
  := by
  cases h with
  | misconfigured wrong => cases unstopped
  | malformed p right answered wrong => cases unstopped
  | completed p right answered parsed =>
    use p, ⟨right, answered, parsed⟩, rfl
    simp only [Program.outcome, Outcome.completed, reconcile_eq, List.append_assoc]
    apply List.prefix_append

end Collaborators

/-- The answer of a check and the calls that it makes.

The checker is called once, with the file and its options, unless the configuration has
diagnostics.  The evaluator is called once, with the assertions that do not expect an error, when
the check completes, and never otherwise.

The check fails when the checker does.  Otherwise its outcome has the diagnostics that stop it, if
any do, and then no assertions and no findings; when none do, it has no errors, the number of all
assertions, and the verdicts of the evaluator before all other findings. -/
theorem checkFile_stages {σ M : Type} (c : Collaborators (StateM σ) M) (file : Path) (w : σ) :
  let resolved := (c.resolution file w).1
  let checked := (c.checking file w).1
  let answer := (c.course file w).1.1
  let calls := (c.course file w).1.2
  Id.run ((checkFile c file).run w) = (answer, (c.course file w).2)
    ∧ calls.filterMap Call.checked?
      = (if resolved.diagnostics = [] then [([file], resolved.options)] else [])
    ∧ (∀ p, c.Completes file w p → ∃ groups, calls.filterMap Call.evaluated? = [groups]
      ∧ groups.Hold (Extracted.ofFiles p.files))
    ∧ ((∀ p, ¬ c.Completes file w p) → calls.filterMap Call.evaluated? = [])
    ∧ (∀ e, answer = .error e
      ↔ resolved.diagnostics = [] ∧ e.file = file ∧ checked = .error e.cause)
    ∧ ∀ o, answer = .ok o →
      (∀ ds, o.errors = some ds ↔ c.StopsWith file w ds)
      ∧ (o.errors ≠ none → o.assertionCount = 0 ∧ o.findings = [])
      ∧ (o.errors = none → ∃ p, c.Completes file w p
        ∧ o.assertionCount = (Extracted.ofFiles p.files).count
        ∧ (c.evaluation file w p).1 <+: o.findings)
  := by
  intro resolved checked answer calls
  have ends : c.Ends file w answer calls := c.ends_course file w
  obtain ⟨evaluated, unevaluated⟩ := ends.evaluated
  refine ⟨c.run_checkFile file w, ends.checked, ?_, unevaluated, ends.eq_error_iff, ?_⟩
  · intro p complete
    use (Extracted.ofFiles p.files).evaluable, evaluated p complete
    apply Extracted.hold_evaluable
  · intro o answered
    rw [answered] at ends
    use ends.errors_eq_some_iff, ends.eq_stopped
    apply ends.exists_completes

end TypeAssertions
