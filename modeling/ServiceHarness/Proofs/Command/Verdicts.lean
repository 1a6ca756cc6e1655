import ServiceHarness.Proofs.Command.Running
import ServiceHarness.Proofs.Harness.Acceptance

/-!
# Verdicts on a description

A validation lists all that breaks a rule, and a command that renders stops at
the first failure.  Both judge the same loaded description: they tell the same
error or the same first violation, and what the validation finds nothing wrong
with is stopped by a name or by the file that the harness goes to.
-/

namespace ServiceHarness

open ServiceHarness.Text ServiceHarness.Storage ServiceHarness.Document
open ServiceHarness.Harness ServiceHarness.Log

/-! ## Silence -/

/-- Nothing is logged. -/
def Log.Filter.Silent (filter : Filter) : Prop :=
  ∀ e, filter.shows e = false

theorem Log.Filter.Silent.lines_eq {filter : Filter} (h : filter.Silent)
    (events : List Event) : filter.lines events = "" := by
  rw [Filter.lines, List.filter_eq_nil_iff.mpr (by simp [h _])]
  rfl

theorem Log.Filter.silent_off : (Filter.ofSetting (some "off".toList)).Silent := by
  have hrule : Filter.ofSetting (some "off".toList) = [⟨[], none⟩] := by decide
  intro e
  rw [hrule]
  rfl

namespace Harness

theorem generate_of_violations {s : Service} {v : Violation} {rest : List Violation}
    (h : s.violations = v :: rest) : generate s = .error (.validation v) := by
  rw [generate_eq, failures, h]
  rfl

theorem generate_of_no_violations {s : Service} (h : s.violations = []) :
    (∃ text, generate s = .ok text) ∨ ∃ e, generate s = .error (.naming e) := by
  rw [generate_eq, failures, h]
  cases namingFailures s with
  | nil => exact .inl ⟨_, rfl⟩
  | cons e rest => exact .inr ⟨e, rfl⟩

theorem violations_of_generate {s : Service} {text : String} (h : generate s = .ok text) :
    s.violations = [] := by
  cases hviolations : s.violations with
  | nil => rfl
  | cons v rest =>
      rw [generate_of_violations hviolations] at h
      cases h

end Harness

namespace Command

variable {fs fs' : FileSystem} {c : Command} {r : Report}

/-! ## Lines -/

private theorem asLines_singleton (text : String) : asLines [text] = text ++ "\n" := by
  simp [asLines, String.join]

private theorem asLines_append (a b : List String) : asLines (a ++ b) = asLines a ++ asLines b := by
  simp [asLines]

/-! ## Reports -/

private theorem validation_of_error {p : Path} {format : Option Format} {e : LoadError}
    (h : Document.load fs p format = .error e) :
    validation p (loadAs fs p format) = ⟨[], "", [e.message]⟩ := by
  rw [Document.load] at h
  cases hload : loadAs fs p format with
  | error e =>
      rw [hload] at h
      cases h
      rfl
  | ok loaded =>
      rw [hload] at h
      cases h

theorem validation_of_ok {p : Path} {format : Option Format} {s : Service}
    (h : Document.load fs p format = .ok s) :
    (validation p (loadAs fs p format)).problems =
      match s.violations with
      | [] => []
      | violations => violations.map Violation.message ++
          [violationSummary violations.length p] := by
  rw [Document.load] at h
  obtain ⟨loaded, hload, rfl⟩ := map_eq_ok_iff.mp h
  rw [hload]
  simp only [validation]
  cases loaded.2.violations <;> rfl

private theorem asLines_validation_of_violations {p : Path} {format : Option Format} {s : Service}
    {v : Violation} {rest : List Violation} (h : Document.load fs p format = .ok s)
    (hviolations : s.violations = v :: rest) :
    (validation p (loadAs fs p format)).problems ≠ [] ∧
      asLines (validation p (loadAs fs p format)).problems =
        asLines (s.violations.map Violation.message) ++
          (violationSummary s.violations.length p ++ "\n") := by
  rw [validation_of_ok h, hviolations]
  exact ⟨by simp, by rw [← asLines_singleton, ← asLines_append]⟩

theorem Runs.report_of_error {e : GenerationError} (h : Runs fs c fs' r)
    (hc : c ≠ .validate c.input) (he : c.input.harness fs = .error e) :
    r.output = "" ∧ r.problems = [e.message] := by
  have hno : ∀ text, c.input.harness fs ≠ .ok text := by simp [he]
  cases h with
  | describes input => exact absurd rfl hc
  | fails _ hfails events =>
      rw [he] at hfails
      cases hfails
      exact ⟨rfl, rfl⟩
  | shows htext events => exact absurd htext (hno _)
  | writes htext hwrite events => exact absurd htext (hno _)
  | checks htext out events => exact absurd htext (hno _)

private theorem Runs.report_of_load_error {e : LoadError} (h : Runs fs c fs' r)
    (hc : c ≠ .validate c.input)
    (hload : Document.load fs c.input.description c.input.format = .error e) :
    r.output = "" ∧ r.problems = ["cannot load service description: " ++ e.message] := by
  have hharness := Input.harness_eq fs c.input
  simp only [hload] at hharness
  exact h.report_of_error hc hharness

private theorem Runs.report_of_violations {s : Service} {v : Violation} {rest : List Violation}
    (h : Runs fs c fs' r) (hc : c ≠ .validate c.input)
    (hload : Document.load fs c.input.description c.input.format = .ok s)
    (hviolations : s.violations = v :: rest) :
    r.output = "" ∧ r.problems = ["invalid service description: " ++ v.message] := by
  have hharness := Input.harness_eq fs c.input
  simp only [hload, generate_of_violations hviolations] at hharness
  exact h.report_of_error hc hharness

private theorem Runs.problems_of_ok {text : String} (h : Runs fs c fs' r)
    (hc : c ≠ .validate c.input) (htext : c.input.harness fs = .ok text) :
    r.problems = [] ∨ ∃ e : OutputError, r.problems = [e.message] := by
  cases h with
  | describes input => exact absurd rfl hc
  | fails _ hfails events => exact absurd (htext.symm.trans hfails) (by simp)
  | shows _ events => exact .inl rfl
  | @writes input text fs' out written _ hwrite events =>
      rcases written with e | ⟨⟨⟩⟩
      · exact .inr ⟨e, rfl⟩
      · exact .inl rfl
  | @checks input text _ out events =>
      rcases fs.checkOutput out text with (cause | path) | ⟨⟨⟩⟩
      · exact .inr ⟨.io cause, rfl⟩
      · exact .inr ⟨.drift path, rfl⟩
      · exact .inl rfl

private theorem Runs.harness_of_exit_code_eq_zero {filter : Filter} {streams : Streams}
    (h : Runs fs c fs' r) (hc : c ≠ .validate c.input)
    (hzero : (r.exit filter streams).code = 0) : ∃ text, c.input.harness fs = .ok text := by
  cases hharness : c.input.harness fs with
  | ok text => exact ⟨text, rfl⟩
  | error e =>
      obtain ⟨houtput, hproblems⟩ := h.report_of_error hc hharness
      rw [Report.exit_code_eq_zero_iff (fun _ => houtput), hproblems] at hzero
      cases hzero

private theorem exit_of_silent {filter : Filter} (hsilent : filter.Silent) (r : Report) :
    r.exit filter ⟨false, false⟩ =
      ⟨if r.problems = [] then 0 else 1, r.output, asLines r.problems⟩ := by
  rw [Report.exit_eq (by simp), hsilent.lines_eq, String.empty_append, Report.succeeds]
  simp [taken]

/-! ## What messages begin with -/

/-- A text that tells neither of a description that cannot be loaded nor of one
that breaks a rule. -/
def ClearsDescription (text : String) : Prop :=
  ¬"cannot load service description: ".toList <+: text.toList ∧
    ¬"invalid service description: ".toList <+: text.toList

private theorem clears_append {text : String} (hlength : 2 ≤ text.toList.length)
    (hload : text.toList.take 2 ≠ "ca".toList) (hrule : text.toList.take 2 ≠ "in".toList)
    (more : String) : ClearsDescription (text ++ more) := by
  have hletters : ∀ start : List Char, 2 ≤ start.length → start <+: (text ++ more).toList →
      start.take 2 = text.toList.take 2 := by
    rintro start hstart ⟨rest, hrest⟩
    rw [String.toList_append] at hrest
    rw [← List.take_append_of_le_length hstart, hrest, List.take_append_of_le_length hlength]
  constructor
  · intro hprefix
    exact hload (hletters _ (by decide) hprefix).symm
  · intro hprefix
    exact hrule (hletters _ (by decide) hprefix).symm

private theorem clears_label (field : Field) (more : String) :
    ClearsDescription (field.label ++ more) := by
  cases field <;> exact clears_append (by decide) (by decide) (by decide) more

private theorem clears_naming (e : NamingError) : ClearsDescription (e.message ++ "\n") := by
  cases e with
  | invalidIdentifier field value =>
      simp only [NamingError.message, String.append_assoc]
      exact clears_label field _
  | reservedName field value =>
      simp only [NamingError.message, String.append_assoc]
      exact clears_label field _
  | duplicateMethod name =>
      simp only [NamingError.message, String.append_assoc]
      exact clears_append (by decide) (by decide) (by decide) _

private theorem clears_output (e : OutputError) : ClearsDescription (e.message ++ "\n") := by
  cases e with
  | io cause =>
      change ClearsDescription ("io error: " ++ cause ++ "\n")
      rw [String.append_assoc]
      exact clears_append (by decide) (by decide) (by decide) _
  | drift path =>
      change ClearsDescription ("harness drift detected for " ++ path ++
        ". Run scenario-harness-gen generate." ++ "\n")
      rw [String.append_assoc, String.append_assoc]
      exact clears_append (by decide) (by decide) (by decide) _

private theorem Runs.clears_of_no_violations {s : Service} (h : Runs fs c fs' r)
    (hc : c ≠ .validate c.input)
    (hload : Document.load fs c.input.description c.input.format = .ok s)
    (hnone : s.violations = []) : ClearsDescription (asLines r.problems) := by
  have hharness := Input.harness_eq fs c.input
  simp only [hload] at hharness
  rcases generate_of_no_violations hnone with ⟨text, htext⟩ | ⟨e, he⟩
  · rcases h.problems_of_ok hc (hharness.trans htext) with hproblems | ⟨e, hproblems⟩
    · rw [hproblems]
      simp [asLines, String.join, ClearsDescription]
    · rw [hproblems, asLines_singleton]
      exact clears_output e
  · rw [(h.report_of_error hc (hharness.trans he)).2, asLines_singleton]
    exact clears_naming e

/--
The commands agree on every description.  If it cannot be loaded, all tell the
same error; if it breaks rules, a validation tells all violations and their
number and the other commands the first one; and otherwise a validation passes
and no other command blames the description.  So a validation passes wherever
another command succeeds, whatever either of them logs to a standard error that has
room; a full one is taken to lose its texts and no more.
-/
theorem commands_agree_on_description {filter : Filter} {validation arguments : List Bytes}
    (hsilent : filter.Silent)
    (hvalidation : parseArguments validation = .ok (.run (.validate c.input)))
    (hparse : parseArguments arguments = .ok (.run c)) (hc : c ≠ .validate c.input)
    (fs : FileSystem) :
    let validated := (invoke fs validation filter ⟨false, false⟩).2
    let exit := (invoke fs arguments filter ⟨false, false⟩).2
    let loaded := Document.load fs c.input.description c.input.format
    (∀ e, loaded = .error e →
      validated = ⟨1, "", e.message ++ "\n"⟩ ∧
      exit = ⟨1, "", "cannot load service description: " ++ e.message ++ "\n"⟩) ∧
    (∀ s v rest, loaded = .ok s → s.violations = v :: rest →
      validated = ⟨1, "", asLines (s.violations.map Violation.message) ++
        (toString s.violations.length ++ " validation problem(s) in " ++
          Path.display c.input.description ++ "\n")⟩ ∧
      exit = ⟨1, "", "invalid service description: " ++ v.message ++ "\n"⟩) ∧
    (∀ s, loaded = .ok s → s.violations = [] →
      validated = ⟨0, "", ""⟩ ∧ ClearsDescription exit.errors) ∧
    ∀ filter' streams, (invoke fs arguments filter' streams).2.code = 0 →
      ∀ filter'' streams', (invoke fs validation filter'' streams').2.code = 0 := by
  intro validated exit loaded
  have hvalidated : validated = _ :=
    (congrArg Prod.snd (invoke_eq hvalidation fs filter _)).trans (exit_of_silent hsilent _)
  have hexit : exit = _ :=
    (congrArg Prod.snd (invoke_eq hparse fs filter _)).trans (exit_of_silent hsilent _)
  have hruns := runs_run fs c
  rw [run_validate] at hvalidated
  refine ⟨fun e he => ?_, fun s v rest hs hv => ?_, fun s hs hnone => ?_, ?_⟩
  · obtain ⟨houtput, hproblems⟩ := hruns.report_of_load_error hc he
    rw [hvalidated, hexit, validation_of_error he, houtput, hproblems, asLines_singleton,
      asLines_singleton]
    exact ⟨rfl, rfl⟩
  · obtain ⟨houtput, hproblems⟩ := hruns.report_of_violations hc hs hv
    obtain ⟨hsome, hlines⟩ := asLines_validation_of_violations hs hv
    rw [hvalidated, hexit, validation_output, if_neg hsome, hlines, houtput, hproblems,
      asLines_singleton]
    exact ⟨rfl, rfl⟩
  · rw [hvalidated, hexit, validation_output, validation_of_ok hs, hnone]
    exact ⟨rfl, hruns.clears_of_no_violations hc hs hnone⟩
  · intro filter' streams hzero filter'' streams'
    obtain ⟨text, htext⟩ := hruns.harness_of_exit_code_eq_zero hc
      (by rwa [invoke_eq hparse] at hzero)
    obtain ⟨s, hs, hgenerate⟩ := Input.harness_eq_ok_iff.mp htext
    rw [invoke_eq hvalidation, run_validate, Report.exit_code_eq_zero_iff (by simp),
      validation_of_ok hs, violations_of_generate hgenerate]

/-- Two rules are broken, and a check tells the first violation. -/
theorem commands_agree_on_two_violations :
    let document := Utf8.ofString "[\"\",\"S\",[]]"
    let fs : FileSystem :=
      { entries := [([Utf8.ofString "d.json"], .file document 0o644)], workingDirectory := [] }
    let validation := ["validate", "--description", "d.json"].map Utf8.ofString
    let arguments := ["check", "--description", "d.json", "--out", "h.go"].map Utf8.ofString
    let c : Command := .check ⟨Utf8.ofString "d.json", none⟩ (Utf8.ofString "h.go")
    let filter := Filter.ofSetting (some "off".toList)
    filter.Silent ∧
      parseArguments validation = .ok (.run (.validate c.input)) ∧
      parseArguments arguments = .ok (.run c) ∧ c ≠ .validate c.input ∧
      (invoke fs validation filter ⟨false, false⟩).2.errors =
        asLines [Violation.emptyPackage.message, Violation.noMethods.message] ++
          ("2 validation problem(s) in " ++ "d.json" ++ "\n") ∧
      (invoke fs arguments filter ⟨false, false⟩).2.errors =
        "invalid service description: " ++ Violation.emptyPackage.message ++ "\n" := by
  intro document fs validation arguments c filter
  have hvalidation : parseArguments validation = .ok (.run (.validate c.input)) := by
    decide
  have hparse : parseArguments arguments = .ok (.run c) := by decide
  have hload : Document.load fs c.input.description c.input.format = .ok ⟨"", "S", []⟩ := by
    decide
  have hshown : Path.display c.input.description = "d.json" := by decide
  obtain ⟨-, hviolations, -⟩ := commands_agree_on_description Filter.silent_off hvalidation hparse
    (by decide) fs
  obtain ⟨hvalidated, hexit⟩ := hviolations _ .emptyPackage [.noMethods] hload rfl
  refine ⟨Filter.silent_off, hvalidation, hparse, by decide, ?_, congrArg Exit.errors hexit⟩
  rw [hshown] at hvalidated
  exact congrArg Exit.errors hvalidated

end Command

end ServiceHarness
