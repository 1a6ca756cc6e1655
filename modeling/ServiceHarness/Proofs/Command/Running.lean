import Mathlib.Data.List.Basic
import ServiceHarness.Command.Invocation
import ServiceHarness.Harness.Loading
import ServiceHarness.Proofs.Outcome

/-!
# What a run does

A run that renders goes through the harness of its input: either there is none
and the run reports why, or the run goes on with its text.  So a run has one
lemma for the first case and one lemma for each command in the second.
-/

namespace ServiceHarness

open ServiceHarness.Text ServiceHarness.Storage ServiceHarness.Document
open ServiceHarness.Harness ServiceHarness.Log

namespace Command

variable {fs fs' : FileSystem} {input : Input} {text : String} {e : GenerationError}

/-! ## The harness of an input -/

def Input.harness (fs : FileSystem) (input : Input) : Except GenerationError String := do
  let g ← Generator.load fs input.description input.format
  g.generate

theorem Input.harness_eq (fs : FileSystem) (input : Input) :
    input.harness fs =
      match Document.load fs input.description input.format with
      | .ok s => Harness.generate s
      | .error e => .error (.load e) := by
  rw [Input.harness, Generator.load]
  cases Document.load fs input.description input.format <;> rfl

theorem Input.harness_eq_ok_iff : input.harness fs = .ok text ↔
    ∃ s, Document.load fs input.description input.format = .ok s ∧
      Harness.generate s = .ok text := by
  rw [Input.harness_eq]
  cases Document.load fs input.description input.format <;> simp

theorem rendering_eq (fs : FileSystem) (input : Input) :
    ∃ events, rendering input.description (loadAs fs input.description input.format) =
      match input.harness fs with
      | .ok text => .ok (events, text)
      | .error e => .error ⟨events, "", [e.message]⟩ := by
  rw [Input.harness_eq, Document.load]
  cases loadAs fs input.description input.format with
  | error e => exact ⟨[], rfl⟩
  | ok loaded =>
      cases hgenerate : Harness.generate loaded.2 with
      | error e =>
          simp only [rendering, Except.map, hgenerate]
          exact ⟨_, rfl⟩
      | ok text =>
          simp only [rendering, Except.map, hgenerate]
          exact ⟨_, rfl⟩

/-! ## Runs -/

/-- What a command does: the file system and the report that it leaves. -/
inductive Runs (fs : FileSystem) : Command → FileSystem → Report → Prop where
  | describes (input : Input) : Runs fs (.validate input) fs
      (validation input.description (loadAs fs input.description input.format))
  | fails {c : Command} {e : GenerationError} (hc : c ≠ .validate c.input)
      (h : c.input.harness fs = .error e) (events : List Event) :
      Runs fs c fs ⟨events, "", [e.message]⟩
  | shows {input : Input} {text : String} (h : input.harness fs = .ok text)
      (events : List Event) : Runs fs (.generate input none) fs ⟨events, text, []⟩
  | writes {input : Input} {text : String} {fs' : FileSystem} {out : Path}
      {written : Except OutputError Unit} (h : input.harness fs = .ok text)
      (hwrite : fs.writeOutput out text = (fs', written)) (events : List Event) :
      Runs fs (.generate input (some out)) fs' (writing events out text written)
  | checks {input : Input} {text : String} (h : input.harness fs = .ok text) (out : Path)
      (events : List Event) :
      Runs fs (.check input out) fs (checking events out (fs.checkOutput out text))

theorem runs_run (fs : FileSystem) (c : Command) : Runs fs c (c.run fs).1 (c.run fs).2 := by
  cases c with
  | validate input => exact .describes input
  | check input out =>
      obtain ⟨events, hrendering⟩ := rendering_eq fs input
      simp only [run, Command.input, hrendering]
      cases h : input.harness fs with
      | error e => exact .fails (by simp) h events
      | ok text => exact .checks h out events
  | generate input out =>
      obtain ⟨events, hrendering⟩ := rendering_eq fs input
      cases out with
      | none =>
          simp only [run, Command.input, hrendering]
          cases h : input.harness fs with
          | error e => exact .fails (by simp) h events
          | ok text => exact .shows h events
      | some out =>
          simp only [run, Command.input, hrendering]
          cases h : input.harness fs with
          | error e => exact .fails (by simp) h events
          | ok text => exact .writes h rfl events

theorem run_validate (fs : FileSystem) (input : Input) : (Command.validate input).run fs =
    (fs, validation input.description (loadAs fs input.description input.format)) := rfl

@[simp] theorem validation_output (p : Path) (loaded : Except LoadError (Format × Service)) :
    (validation p loaded).output = "" := by
  rcases loaded with e | ⟨f, s⟩
  · rfl
  · rw [validation]
    cases s.violations <;> rfl

@[simp] theorem writing_output (events : List Event) (out : Path) (text : String)
    (written : Except OutputError Unit) : (writing events out text written).output = "" := by
  cases written <;> rfl

@[simp] theorem checking_output (events : List Event) (out : Path)
    (checked : Except OutputError Unit) : (checking events out checked).output = "" := by
  rcases checked with (cause | path) | ⟨⟨⟩⟩ <;> rfl

@[simp] theorem writing_problems_eq_nil_iff {events : List Event} {out : Path}
    {written : Except OutputError Unit} :
    (writing events out text written).problems = [] ↔ written = .ok () := by
  cases written <;> simp [writing]

@[simp] theorem checking_problems_eq_nil_iff {events : List Event} {out : Path}
    {checked : Except OutputError Unit} :
    (checking events out checked).problems = [] ↔ checked = .ok () := by
  rcases checked with (cause | path) | ⟨⟨⟩⟩ <;> simp [checking]

/-! ## Invocations -/

theorem invoke_eq {arguments : List Bytes} {c : Command}
    (h : parseArguments arguments = .ok (.run c)) (fs : FileSystem) (filter : Filter)
    (streams : Streams) : invoke fs arguments filter streams =
      ((c.run fs).1, (c.run fs).2.exit filter streams) := by
  simp only [invoke, h]

theorem runs_of_invoke {arguments : List Bytes} {c : Command} {filter : Filter}
    {streams : Streams} {exit : Exit} (hparse : parseArguments arguments = .ok (.run c))
    (h : invoke fs arguments filter streams = (fs', exit)) :
    ∃ r, Runs fs c fs' r ∧ exit = r.exit filter streams := by
  rw [invoke_eq hparse] at h
  cases h
  exact ⟨(c.run fs).2, runs_run fs c, rfl⟩

theorem Runs.files_eq {c : Command} {r : Report} (h : Runs fs c fs' r)
    (hc : ∀ input out, c ≠ .generate input (some out)) : fs' = fs := by
  cases h with
  | writes htext hwrite events => exact absurd rfl (hc _ _)
  | _ => rfl

theorem invoke_files_eq {arguments : List Bytes} {filter : Filter} {streams : Streams}
    (h : ∀ input out, parseArguments arguments ≠ .ok (.run (.generate input (some out)))) :
    (invoke fs arguments filter streams).1 = fs := by
  rcases hparse : parseArguments arguments with e | text | c
  · simp only [invoke, hparse]
  · simp only [invoke, hparse]
  · rw [invoke_eq hparse]
    exact (runs_run fs c).files_eq fun input out hc => h input out (hc ▸ hparse)

namespace Report

variable {r : Report} {streams : Streams}

theorem exit_eq (h : streams.outputFull = true → r.output = "") (filter : Filter) :
    r.exit filter streams = ⟨if r.succeeds then 0 else 1, r.output,
      taken streams.errorFull (filter.lines r.events ++ asLines r.problems)⟩ := by
  rw [exit]
  cases hfull : streams.outputFull with
  | false => rfl
  | true => rw [if_pos rfl, withoutOutput, if_pos (h hfull)]

theorem exit_code_eq_zero_iff (h : streams.outputFull = true → r.output = "")
    (filter : Filter) : (r.exit filter streams).code = 0 ↔ r.problems = [] := by
  rw [exit_eq h, succeeds]
  by_cases hproblems : r.problems = []
  · simp [hproblems]
  · simp [hproblems]

end Report

/-! ## Success -/

section Success

variable {arguments : List Bytes} {filter : Filter} {streams : Streams} {out : Path}

theorem writes_of_code_eq_zero {exit : Exit}
    (hparse : parseArguments arguments = .ok (.run (.generate input (some out))))
    (h : invoke fs arguments filter streams = (fs', exit)) (hzero : exit.code = 0) :
    ∃ text, input.harness fs = .ok text ∧ fs.writeOutput out text = (fs', .ok ()) := by
  obtain ⟨r, hruns, rfl⟩ := runs_of_invoke hparse h
  cases hruns with
  | fails hc he events =>
      rw [Report.exit_code_eq_zero_iff (by simp)] at hzero
      cases hzero
  | writes htext hwrite events =>
      rw [Report.exit_code_eq_zero_iff (by simp), writing_problems_eq_nil_iff] at hzero
      rw [hzero] at hwrite
      exact ⟨_, htext, hwrite⟩

theorem check_code_eq_zero_iff
    (hparse : parseArguments arguments = .ok (.run (.check input out))) :
    (invoke fs arguments filter streams).2.code = 0 ↔
      ∃ text, input.harness fs = .ok text ∧ fs.checkOutput out text = .ok () := by
  cases hinvoke : invoke fs arguments filter streams with
  | mk fs' exit =>
      obtain ⟨r, hruns, rfl⟩ := runs_of_invoke hparse hinvoke
      cases hruns with
      | fails hc he events =>
          rw [Command.input] at he
          rw [Report.exit_code_eq_zero_iff (by simp)]
          simp [he]
      | checks htext out events =>
          rw [Report.exit_code_eq_zero_iff (by simp), checking_problems_eq_nil_iff]
          simp [htext]

end Success

/--
Nothing partial escapes.  Standard output takes the whole harness of a command
that shows it, or nothing; and the files change only if a harness is there and
goes to one of them.
-/
theorem invoke_escapes_nothing_partial {arguments : List Bytes} {c : Command} {filter : Filter}
    {streams : Streams} {exit : Exit} (hparse : parseArguments arguments = .ok (.run c))
    (hroom : streams.outputFull = false)
    (h : invoke fs arguments filter streams = (fs', exit)) :
    (exit.output ≠ "" → c = .generate c.input none ∧ exit.code = 0) ∧
      (c = .generate c.input none → exit.code = 0 →
        c.input.harness fs = .ok exit.output) ∧
      (c = .generate c.input none → ∀ text, c.input.harness fs = .ok text →
        exit.code = 0 ∧ exit.output = text) ∧
      ((∀ out, c ≠ .generate c.input (some out)) → fs' = fs) ∧
      (∀ e, c.input.harness fs = .error e → fs' = fs) := by
  obtain ⟨r, hruns, rfl⟩ := runs_of_invoke hparse h
  have hfull : streams.outputFull = true → r.output = "" := by simp [hroom]
  rw [Report.exit_code_eq_zero_iff hfull, Report.exit_eq hfull]
  cases hruns with
  | describes input => simp [Command.input]
  | fails hc he events => simp [he]
  | shows htext events => simp [Command.input, htext]
  | writes htext hwrite events => simp [Command.input, htext]
  | checks htext out events => simp [Command.input, htext]

/-- The harness is refused before the directory `n` is made. -/
theorem invoke_escapes_nothing_partial_reserved_name :
    let document := Utf8.ofString "[\"p\",\"S\",[[\"M\",\"context\",\"R\"]]]"
    let fs : FileSystem :=
      { entries := [([Utf8.ofString "d.json"], .file document 0o644)], workingDirectory := [] }
    let arguments := ["generate", "--description", "d.json", "--out", "n/h.go"].map Utf8.ofString
    let c : Command := .generate ⟨Utf8.ofString "d.json", none⟩ (some (Utf8.ofString "n/h.go"))
    let result := invoke fs arguments defaultFilter ⟨false, false⟩
    parseArguments arguments = .ok (.run c) ∧
      c.input.harness fs = .error (.naming (.reservedName .requestType "context")) ∧
      result.2.output = "" ∧ result.1 = fs := by
  intro document fs arguments c result
  have hparse : parseArguments arguments = .ok (.run c) := by decide
  have hnone : c.input.harness fs = .error (.naming (.reservedName .requestType "context")) := by
    decide
  obtain ⟨hshown, -, -, -, hfiles⟩ := invoke_escapes_nothing_partial hparse rfl
    (show invoke fs arguments defaultFilter ⟨false, false⟩ = (result.1, result.2) from rfl)
  refine ⟨hparse, hnone, ?_, hfiles _ hnone⟩
  by_contra hne
  exact absurd (hshown hne).1 (by decide)

end Command

end ServiceHarness
