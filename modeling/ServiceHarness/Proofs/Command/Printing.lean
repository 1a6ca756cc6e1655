import ServiceHarness.Proofs.Command.Verdicts
import ServiceHarness.Proofs.Service.Violations
import ServiceHarness.Proofs.Text.Decoding
import ServiceHarness.Proofs.Text.Lines

/-!
# The lines of a validation

A validation prints the text of each violation and a newline, and a summary at
the end.  A text shows the name of the method as the description has it, so it
takes one line unless that name has a newline, and the summary always takes one.
-/

namespace ServiceHarness

open ServiceHarness.Text ServiceHarness.Storage ServiceHarness.Document
open ServiceHarness.Harness ServiceHarness.Log

/-! ## Newlines in what is printed -/

private theorem newline_not_mem_toString (n : Nat) : '\n' ∉ (toString n).toList := by
  intro h
  have hdigit : '\n'.isDigit = true :=
    Nat.isDigit_of_mem_toDigits (b := 10) (by decide) (by decide) (by simpa using h)
  exact absurd hdigit (by decide)

private theorem Storage.Path.newline_not_mem_display {p : Path} (h : 0x0A ∉ p) :
    '\n' ∉ (Path.display p).toList := by
  intro hmem
  exact h (Utf8.mem_bytes_of_mem_lossy (by decide) hmem)

/-- The method name that the text of a violation shows. -/
def Violation.shownName : Violation → String
  | emptyPackage => ""
  | emptyServiceName => ""
  | noMethods => ""
  | emptyMethodName _ => ""
  | emptyRequestType _ name => name
  | emptyResponseType _ name => name

theorem Violation.count_newline_message (v : Violation) :
    v.message.toList.count '\n' = v.shownName.toList.count '\n' := by
  have hindex : ∀ n : Nat, (toString n).toList.count '\n' = 0 := fun n =>
    List.count_eq_zero.mpr (newline_not_mem_toString n)
  have hmethod : "method #".toList.count '\n' = 0 := by decide
  have hopen : " (".toList.count '\n' = 0 := by decide
  cases v with
  | emptyPackage => decide
  | emptyServiceName => decide
  | noMethods => decide
  | emptyMethodName index =>
      have hrule : " has an empty name".toList.count '\n' = 0 := by decide
      simp only [message, String.toList_append, List.count_append, hindex, hmethod, hrule]
      rfl
  | emptyRequestType index name =>
      have hrule : ") has an empty request type".toList.count '\n' = 0 := by decide
      simp only [message, shownName, String.toList_append, List.count_append, hindex, hmethod,
        hopen, hrule, Nat.zero_add, Nat.add_zero]
  | emptyResponseType index name =>
      have hrule : ") has an empty response type".toList.count '\n' = 0 := by decide
      simp only [message, shownName, String.toList_append, List.count_append, hindex, hmethod,
        hopen, hrule, Nat.zero_add, Nat.add_zero]

/-- No name that a validation shows has a newline. -/
def Service.ShowsPlainNames (s : Service) : Prop :=
  ∀ m ∈ s.methods, m.request = "" ∨ m.response = "" → '\n' ∉ m.name.toList

instance (s : Service) : Decidable s.ShowsPlainNames :=
  inferInstanceAs (Decidable (∀ m ∈ s.methods, _))

theorem Service.showsPlainNames_iff {s : Service} :
    s.ShowsPlainNames ↔ ∀ v ∈ s.violations, '\n' ∉ v.shownName.toList := by
  constructor
  · intro h v hv
    cases mem_violations_iff.mp hv with
    | package => exact List.not_mem_nil
    | name => exact List.not_mem_nil
    | methods => exact List.not_mem_nil
    | methodName => exact List.not_mem_nil
    | request hm hempty => exact h _ (List.mem_of_getElem? hm) (.inl hempty)
    | response hm hempty => exact h _ (List.mem_of_getElem? hm) (.inr hempty)
  · rintro h m hm (hempty | hempty)
    · obtain ⟨i, hi⟩ := List.mem_iff_getElem?.mp hm
      exact h _ (mem_violations_iff.mpr (.request hi hempty))
    · obtain ⟨i, hi⟩ := List.mem_iff_getElem?.mp hm
      exact h _ (mem_violations_iff.mpr (.response hi hempty))

namespace Command

private theorem newline_not_mem_violationSummary {p : Path} (h : 0x0A ∉ p) (count : Nat) :
    '\n' ∉ (violationSummary count p).toList := by
  simp only [violationSummary, String.toList_append, List.mem_append, not_or]
  exact ⟨⟨newline_not_mem_toString count, by decide⟩, Path.newline_not_mem_display h⟩

/-! ## Lines of violations -/

theorem length_lines_messages (vs : List Violation) :
    (vs.flatMap fun v => lines (v.message ++ "\n")).length =
      vs.length + (vs.flatMap fun v => v.shownName.toList).count '\n' := by
  induction vs with
  | nil => rfl
  | cons v vs ih =>
      rw [List.flatMap_cons, List.length_append, length_lines, ih, v.count_newline_message,
        List.length_cons, List.flatMap_cons, List.count_append]
      omega

private theorem lines_messages {vs : List Violation} (h : ∀ v ∈ vs, '\n' ∉ v.shownName.toList) :
    (vs.flatMap fun v => lines (v.message ++ "\n")) = vs.map Violation.message := by
  have hline : ∀ v ∈ vs, lines (v.message ++ "\n") = [v.message] := by
    intro v hv
    apply lines_line
    rw [← List.count_eq_zero, v.count_newline_message, List.count_eq_zero]
    exact h v hv
  rw [List.flatMap_congr hline, List.map_eq_flatMap]

private theorem length_lines_messages_eq_iff {vs : List Violation} :
    (vs.flatMap fun v => lines (v.message ++ "\n")).length = vs.length ↔
      ∀ v ∈ vs, '\n' ∉ v.shownName.toList := by
  rw [length_lines_messages, Nat.add_eq_left, List.count_eq_zero, List.mem_flatMap]
  simp

/-! ## The lines of an invocation -/

private theorem errors_of_violations {filter : Filter} {arguments : List Bytes} {input : Input}
    {fs : FileSystem} {s : Service} (hsilent : filter.Silent)
    (hparse : parseArguments arguments = .ok (.run (.validate input)))
    (hload : Document.load fs input.description input.format = .ok s)
    (hbroken : s.violations ≠ []) (outputFull : Bool) :
    (invoke fs arguments filter ⟨outputFull, false⟩).2.errors =
      joinLines (s.violations.map Violation.message ++
        [violationSummary s.violations.length input.description]) := by
  obtain ⟨v, rest, hviolations⟩ := List.exists_cons_of_ne_nil hbroken
  rw [invoke_eq hparse, run_validate, Report.exit_eq (by simp), hsilent.lines_eq,
    String.empty_append, validation_of_ok hload, hviolations]
  rfl

/--
A validation prints the violations in order, and the summary is its last line.
Each newline of a shown name makes one line more, and so there is one line for
each violation, which is its text, if and only if no shown name has a newline.
-/
theorem validation_prints_lines {filter : Filter} {arguments : List Bytes} {input : Input}
    {fs : FileSystem} {s : Service} (hsilent : filter.Silent)
    (hparse : parseArguments arguments = .ok (.run (.validate input)))
    (hpath : 0x0A ∉ input.description)
    (hload : Document.load fs input.description input.format = .ok s)
    (hbroken : s.violations ≠ []) (outputFull : Bool) :
    let errors := (invoke fs arguments filter ⟨outputFull, false⟩).2.errors
    let summary := violationSummary s.violations.length input.description
    ['\n'] <:+ errors.toList ∧
      lines errors =
        (s.violations.flatMap fun v => lines (v.message ++ "\n")) ++ [summary] ∧
      (lines errors).length = s.violations.length +
        (s.violations.flatMap fun v => v.shownName.toList).count '\n' + 1 ∧
      ((lines errors).length = s.violations.length + 1 ↔ s.ShowsPlainNames) ∧
      (lines errors = s.violations.map Violation.message ++ [summary] ↔ s.ShowsPlainNames) := by
  intro errors summary
  have herrors : errors = joinLines (s.violations.map Violation.message ++ [summary]) :=
    errors_of_violations hsilent hparse hload hbroken outputFull
  have hlines : lines errors =
      (s.violations.flatMap fun v => lines (v.message ++ "\n")) ++ [summary] := by
    have hsummary := lines_line (newline_not_mem_violationSummary hpath s.violations.length)
    rw [herrors, lines_joinLines_eq_flatMap, List.flatMap_append, List.flatMap_map,
      List.flatMap_singleton, hsummary]
  have hlength : (lines errors).length = s.violations.length + 1 ↔ s.ShowsPlainNames := by
    rw [hlines, List.length_append, List.length_singleton, Nat.add_right_cancel_iff,
      length_lines_messages_eq_iff, Service.showsPlainNames_iff]
  refine ⟨?_, hlines, ?_, hlength, ?_⟩
  · rw [herrors, toList_joinLines, List.map_append, List.flatMap_append]
    exact List.suffix_append_of_suffix ⟨summary.toList, by simp⟩
  · rw [hlines, List.length_append, length_lines_messages, List.length_singleton]
  · constructor
    · intro h
      rw [← hlength, h]
      simp
    · intro h
      rw [hlines, lines_messages (Service.showsPlainNames_iff.mp h)]

/-- The name of the first method breaks no rule, so it is not shown. -/
theorem validation_prints_lines_unshown_name :
    let document := Utf8.ofString "[\"p\",\"S\",[[\"A\\nB\",\"Q\",\"R\"],[\"C\",\"\",\"\"]]]"
    let fs : FileSystem :=
      { entries := [([Utf8.ofString "d.json"], .file document 0o644)], workingDirectory := [] }
    let arguments := ["validate", "--description", "d.json"].map Utf8.ofString
    let filter := Filter.ofSetting (some "off".toList)
    let input : Input := ⟨Utf8.ofString "d.json", none⟩
    let s : Service := ⟨"p", "S", [⟨"A\nB", "Q", "R"⟩, ⟨"C", "", ""⟩]⟩
    filter.Silent ∧ parseArguments arguments = .ok (.run (.validate input)) ∧
      0x0A ∉ input.description ∧
      Document.load fs input.description input.format = .ok s ∧ s.violations ≠ [] ∧
      lines (invoke fs arguments filter ⟨false, false⟩).2.errors =
        ["method #1 (C) has an empty request type", "method #1 (C) has an empty response type",
          "2 validation problem(s) in d.json"] := by
  intro document fs arguments filter input s
  have hparse : parseArguments arguments = .ok (.run (.validate input)) := by decide
  have hload : Document.load fs input.description input.format = .ok s := by decide
  have hplain : s.ShowsPlainNames := by decide
  obtain ⟨-, -, -, -, hlines⟩ := validation_prints_lines Filter.silent_off hparse (by decide)
    hload (by decide) false
  refine ⟨Filter.silent_off, hparse, by decide, hload, by decide, ?_⟩
  rw [hlines.mpr hplain]
  decide

/-- One rule is broken, and the shown name makes the text of another rule a line. -/
theorem shown_name_forges_line :
    let document := Utf8.ofString
      "[\"p\",\"S\",[[\"A)\\nservice name is empty\\n(B\",\"\",\"R\"]]]"
    let fs : FileSystem :=
      { entries := [([Utf8.ofString "d.json"], .file document 0o644)], workingDirectory := [] }
    let arguments := ["validate", "--description", "d.json"].map Utf8.ofString
    let filter := Filter.ofSetting (some "off".toList)
    let input : Input := ⟨Utf8.ofString "d.json", none⟩
    let s : Service := ⟨"p", "S", [⟨"A)\nservice name is empty\n(B", "", "R"⟩]⟩
    let errors := (invoke fs arguments filter ⟨false, false⟩).2.errors
    filter.Silent ∧ parseArguments arguments = .ok (.run (.validate input)) ∧
      0x0A ∉ input.description ∧
      Document.load fs input.description input.format = .ok s ∧ s.violations.length = 1 ∧
      lines errors = ["method #0 (A)", Violation.emptyServiceName.message,
        "(B) has an empty request type", "1 validation problem(s) in d.json"] ∧
      (lines errors).length ≠ s.violations.length + 1 ∧
      lines errors ≠ s.violations.map Violation.message ++
        [violationSummary s.violations.length input.description] := by
  intro document fs arguments filter input s errors
  have hlines : lines errors = ["method #0 (A)", Violation.emptyServiceName.message,
      "(B) has an empty request type", "1 validation problem(s) in d.json"] := by
    decide
  refine ⟨Filter.silent_off, by decide, by decide, by decide, by decide, hlines, ?_, ?_⟩
  · rw [hlines]
    decide
  · rw [hlines]
    decide

end Command

end ServiceHarness
