import ServiceHarness.Proofs.Command.Arguments
import ServiceHarness.Proofs.Command.Running
import ServiceHarness.Proofs.Document.Loading
import ServiceHarness.Proofs.Harness.Recovery
import ServiceHarness.Proofs.Storage.Reading
import ServiceHarness.Session

/-!
# Stale harnesses

A harness that was written is stale once its description says something else.
As the text of a harness determines the description, a check notices exactly
that, however much has happened in between.
-/

namespace ServiceHarness

open ServiceHarness.Text ServiceHarness.Storage ServiceHarness.Document
open ServiceHarness.Harness ServiceHarness.Log ServiceHarness.Command

/-! ## What a check compares -/

namespace Command.Input

variable {fs : FileSystem} {input : Input} {out : Path} {d : Service} {text : String}

/-- The file agrees with the harness of what the input says now. -/
def UpToDate (fs : FileSystem) (input : Input) (out : Path) : Prop :=
  ∃ text, input.harness fs = .ok text ∧ fs.checkOutput out text = .ok ()

theorem upToDate_iff_load (htext : Harness.generate d = .ok text)
    (hread : fs.readBytes out = .ok (Utf8.ofString text)) :
    input.UpToDate fs out ↔ Document.load fs input.description input.format = .ok d := by
  constructor
  · rintro ⟨text', hharness, hcheck⟩
    obtain ⟨d', hload, htext'⟩ := Input.harness_eq_ok_iff.mp hharness
    rw [FileSystem.checkOutput_eq_ok_iff, hread, Except.ok.injEq, Utf8.ofString_inj] at hcheck
    obtain ⟨hd, heq⟩ := generate_eq_ok_iff.mp htext
    obtain ⟨hd', heq'⟩ := generate_eq_ok_iff.mp htext'
    rw [heq, heq'] at hcheck
    rw [hload, harnessText_inj hd hd' hcheck]
  · intro hload
    exact ⟨text, Input.harness_eq_ok_iff.mpr ⟨d, hload, htext⟩,
      FileSystem.checkOutput_eq_ok_iff.mpr hread⟩

private theorem upToDate_iff_readBytes (htext : Harness.generate d = .ok text)
    (hload : Document.load fs input.description input.format = .ok d) :
    input.UpToDate fs out ↔ fs.readBytes out = .ok (Utf8.ofString text) := by
  have hharness : input.harness fs = .ok text := Input.harness_eq_ok_iff.mpr ⟨d, hload, htext⟩
  rw [UpToDate, hharness]
  simp [FileSystem.checkOutput_eq_ok_iff]

end Command.Input

namespace Session

variable {s : Session}

/-! ## Later states -/

def after (s : Session) (steps : List Step) : Session :=
  steps.foldl (fun s step => (s.step step).1) s

/-- A step that leaves all files alone. -/
def Step.Reads : Step → Prop
  | .store _ _ => False
  | .makeDirectory _ => False
  | .remove _ => False
  | .makeLink _ _ => False
  | .changeDisk _ _ => False
  | .writeOutput _ _ => False
  | .invoke arguments _ _ =>
      ∀ input out, parseArguments arguments ≠ .ok (.run (.generate input (some out)))
  | _ => True

private theorem files_step_of_reads {step : Step} (h : step.Reads) :
    (s.step step).1.files = s.files := by
  cases step with
  | store path content => exact h.elim
  | makeDirectory path => exact h.elim
  | remove path => exact h.elim
  | makeLink target path => exact h.elim
  | changeDisk disk drawn => exact h.elim
  | writeOutput path text => exact h.elim
  | invoke arguments setting streams => exact invoke_files_eq h
  | read path =>
      rw [Session.step]
      cases s.files.readBytes path <;> rfl
  | status path => rfl
  | list => rfl
  | load path format => exact congrArg Session.files (s.step_load path format)
  | loadGenerator path format => exact s.files_step_loadGenerator path format
  | newGenerator d =>
      rw [Session.step]
      cases Generator.ofService d <;> rfl
  | validGenerator d =>
      rw [Session.step]
      cases ValidService.ofService d <;> rfl
  | service => rfl
  | generate =>
      rw [Session.step]
      rcases s.generator.map Generator.generate with _ | e | text <;> rfl
  | checkOutput path text => rfl

theorem files_after_of_reads {steps : List Step} (h : ∀ step ∈ steps, step.Reads) :
    (s.after steps).files = s.files := by
  induction steps generalizing s with
  | nil => rfl
  | cons step steps ih =>
      rw [List.forall_mem_cons] at h
      exact (ih h.2).trans (files_step_of_reads h.1)

/-! ## Invocations in a session -/

def Succeeds (s : Session) (arguments : List Bytes) (setting : Option (List Char))
    (streams : Streams) : Prop :=
  ∃ exit, (s.step (.invoke arguments setting streams)).2 = .exit exit ∧ exit.code = 0

theorem succeeds_iff {arguments : List Bytes} {setting : Option (List Char)}
    {streams : Streams} : s.Succeeds arguments setting streams ↔
      (invoke s.files arguments (Filter.ofSetting setting) streams).2.code = 0 := by
  constructor
  · rintro ⟨exit, hexit, hzero⟩
    cases hexit
    exact hzero
  · exact fun h => ⟨_, rfl, h⟩

theorem succeeds_check_iff {arguments : List Bytes} {input : Input} {out : Path}
    {setting : Option (List Char)} {streams : Streams}
    (hparse : parseArguments arguments = .ok (.run (.check input out))) :
    s.Succeeds arguments setting streams ↔ input.UpToDate s.files out := by
  rw [succeeds_iff, check_code_eq_zero_iff hparse, Input.UpToDate]

theorem writeOutput_of_succeeds {arguments : List Bytes} {input : Input} {out : Path}
    {setting : Option (List Char)} {streams : Streams}
    (hparse : parseArguments arguments = .ok (.run (.generate input (some out))))
    (h : s.Succeeds arguments setting streams) :
    ∃ text, input.harness s.files = .ok text ∧ s.files.writeOutput out text =
      ((s.step (.invoke arguments setting streams)).1.files, .ok ()) := by
  rw [succeeds_iff] at h
  exact writes_of_code_eq_zero hparse rfl h

/--
A check tells exactly whether a harness is stale.  After a harness was written
from the description `d`, whatever steps follow: as long as the file reads the
same, the check of the same line passes if and only if the description file still
gives `d`; and as long as it gives `d`, if and only if the file reads the same.
If no link is on the way to the file and the description is not read through the
location that was replaced, the check passes at once, and after any steps that
only read.
-/
theorem check_tells_stale {line : List Bytes} {input : Input} {out : Path}
    {setting : Option (List Char)} {streams : Streams}
    (hparse : parseArguments (Utf8.ofString Verb.generate.name :: line) =
      .ok (.run (.generate input (some out))))
    (hsucceeds : s.Succeeds (Utf8.ofString Verb.generate.name :: line) setting streams) :
    let written := (s.step (.invoke (Utf8.ofString Verb.generate.name :: line) setting streams)).1
    let checked := Utf8.ofString Verb.check.name :: line
    ∃ d text directory name,
      Document.load s.files input.description input.format = .ok d ∧
      Harness.generate d = .ok text ∧
      (s.files.prepareParent out).1.locate out = .ok (directory, some name) ∧
      s.files.Replaces written.files (directory ++ [name]) (Utf8.ofString text) ∧
      (∀ steps setting' streams',
        let later := written.after steps
        (later.files.readBytes out = .ok (Utf8.ofString text) →
          (later.Succeeds checked setting' streams' ↔
            Document.load later.files input.description input.format = .ok d)) ∧
        (Document.load later.files input.description input.format = .ok d →
          (later.Succeeds checked setting' streams' ↔
            later.files.readBytes out = .ok (Utf8.ofString text)))) ∧
      (¬(s.files.prepareParent out).1.LinkOnWay (Path.directory out) →
        written.files.readBytes out = .ok (Utf8.ofString text) ∧
        (s.files.Avoids (directory ++ [name]) input.description → ∀ steps setting' streams',
          (∀ step ∈ steps, step.Reads) →
            (written.after steps).Succeeds checked setting' streams')) := by
  intro written checked
  have hcheck : parseArguments checked = .ok (.run (.check input out)) :=
    parseArguments_check_of_generate hparse
  obtain ⟨text, hharness, hwrite⟩ := writeOutput_of_succeeds hparse hsucceeds
  obtain ⟨d, hload, htext⟩ := Input.harness_eq_ok_iff.mp hharness
  obtain ⟨directory, name, hlocate, hreplaces, hread⟩ :=
    FileSystem.replaces_of_writeOutput hwrite
  refine ⟨d, text, directory, name, hload, htext, hlocate, hreplaces,
    fun steps setting' streams' => ?_, fun hlink => ⟨hread hlink, ?_⟩⟩
  · intro later
    rw [succeeds_check_iff hcheck]
    exact ⟨fun hheld => Input.upToDate_iff_load htext hheld,
      fun hsame => Input.upToDate_iff_readBytes htext hsame⟩
  · intro havoids steps setting' streams' hreads
    obtain ⟨found, hfound⟩ := resolve_of_load hload
    have hresolve : written.files.resolve input.description = s.files.resolve input.description :=
      hreplaces.resolve_eq havoids hfound
    rw [succeeds_check_iff hcheck, files_after_of_reads hreads,
      Input.upToDate_iff_load htext (hread hlink), load_congr hresolve]
    exact hload

/-- The check passes until the file is emptied. -/
theorem check_tells_stale_emptied_file :
    let p := Utf8.ofString "d.json"
    let out := Utf8.ofString "h.go"
    let content := Utf8.ofString "[\"pb\",\"Echo\",[[\"Say\",\"Ask\",\"Reply\"]]]"
    let s : Session := ⟨startFiles.put (home ++ [p]) (.file content 0o644), none, ""⟩
    let line := [Utf8.ofString "--description", p, Utf8.ofString "--out", out]
    let writes := Step.invoke (Utf8.ofString Verb.generate.name :: line) none ⟨false, false⟩
    let checked := Utf8.ofString Verb.check.name :: line
    let written := (s.step writes).1
    parseArguments (Utf8.ofString Verb.generate.name :: line) =
        .ok (.run (.generate ⟨p, none⟩ (some out))) ∧
      s.Succeeds (Utf8.ofString Verb.generate.name :: line) none ⟨false, false⟩ ∧
      (written.after [.list]).Succeeds checked none ⟨false, false⟩ ∧
      ¬(written.after [.store out []]).Succeeds checked none ⟨false, false⟩ := by
  intro p out content s line writes checked written
  have hparse : parseArguments (Utf8.ofString Verb.generate.name :: line) =
      .ok (.run (.generate ⟨p, none⟩ (some out))) := by decide
  have hsucceeds : s.Succeeds (Utf8.ofString Verb.generate.name :: line) none ⟨false, false⟩ :=
    succeeds_iff.mpr (by decide)
  have hlink : ¬(s.files.prepareParent out).1.LinkOnWay (Path.directory out) := by
    rintro ⟨before, name, after, l, target, hsteps, hwalk, hentry⟩
    have hdot : Path.steps (Path.directory out) = [dotSegment] := by decide
    have hhome : (s.files.prepareParent out).1.walk FileSystem.maxLinks home [] = .ok home := by
      decide
    have hnone : FileSystem.entry? (s.files.prepareParent out).1 (home ++ [dotSegment]) = none := by
      decide
    rw [hdot] at hsteps
    cases before with
    | nil =>
        cases hsteps
        cases hhome.symm.trans hwalk
        cases hnone.symm.trans hentry
    | cons first rest => simp at hsteps
  obtain ⟨d, text, directory, name, hload, htext, hlocate, hreplaces, hlater, hnow⟩ :=
    check_tells_stale hparse hsucceeds
  have hat : (s.files.prepareParent out).1.locate out = .ok (home, some out) := by decide
  cases hat.symm.trans hlocate
  have hd : Document.load s.files p none = .ok ⟨"pb", "Echo", [⟨"Say", "Ask", "Reply"⟩]⟩ := by
    decide
  cases hd.symm.trans hload
  obtain ⟨hread, hpasses⟩ := hnow hlink
  refine ⟨hparse, hsucceeds, hpasses (by decide) [.list] none ⟨false, false⟩
    (by simp [Step.Reads]), ?_⟩
  have hstill : Document.load (written.after [.store out []]).files p none =
      .ok ⟨"pb", "Echo", [⟨"Say", "Ask", "Reply"⟩]⟩ := by decide
  have hempty : (written.after [.store out []]).files.readBytes out =
      .ok (Utf8.ofString "") := by decide
  rw [(hlater [.store out []] none ⟨false, false⟩).2 hstill, hempty, Except.ok.injEq,
    Utf8.ofString_inj]
  rintro rfl
  obtain ⟨hrenderable, hblank⟩ := generate_eq_ok_iff.mp htext
  have hlines := lines_harnessText hrenderable
  rw [← hblank] at hlines
  exact absurd (congrArg List.length hlines) (by decide)

end Session

end ServiceHarness
