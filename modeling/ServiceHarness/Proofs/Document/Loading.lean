import Mathlib.Data.List.Basic
import ServiceHarness.Proofs.Outcome
import ServiceHarness.Session

/-!
# Loading is reading and parsing

A description is loaded by parsing all bytes of its file.  The bound on what is
read is one byte beyond the limit of the parser, so that a file which is cut
there is refused as the whole file would be.
-/

namespace ServiceHarness

open ServiceHarness.Text ServiceHarness.Storage ServiceHarness.Document

namespace Document

variable {fs fs' : FileSystem} {p : Path} {f : Format}

/-! ## Sizes -/

theorem parse_eq_tooLarge_iff {bytes : Bytes} :
    parse f bytes = .error .tooLarge ↔ maxBytes < bytes.length := by
  rw [parse.eq_def]
  by_cases hlarge : maxBytes < bytes.length
  · rw [if_pos hlarge]
    exact iff_of_true rfl hlarge
  · rw [if_neg hlarge]
    refine iff_of_false (fun h => ?_) hlarge
    cases f with
    | json => cases hread : Json.read bytes <;> simp [hread] at h
    | toml => cases hread : Toml.read bytes <;> simp [hread] at h

private theorem readBounded_file (content : Bytes) (mode : Nat) :
    readBounded (.file content mode) =
      if maxBytes < content.length then .error .tooLarge else .ok content := by
  rw [readBounded, Entry.size]
  by_cases hlarge : maxBytes < content.length
  · rw [if_pos hlarge, if_pos hlarge]
  · have hwhole : content.take (maxBytes + 1) = content := List.take_of_length_le (by omega)
    simp only [if_neg hlarge, Entry.readAtMost, hwhole]

/-- Nothing is lost if what is too large to parse is not read. -/
private theorem readBounded_bind_parse (content : Bytes) (mode : Nat) :
    (readBounded (.file content mode) >>= parse f) = parse f content := by
  rw [readBounded_file]
  by_cases hlarge : maxBytes < content.length
  · rw [if_pos hlarge, parse_eq_tooLarge_iff.mpr hlarge]
    rfl
  · rw [if_neg hlarge]
    rfl

/-! ## Loading -/

theorem load_some (fs : FileSystem) (p : Path) (f : Format) :
    load fs p (some f) = readFile fs p >>= parse f := by
  change (readFile fs p >>= fun bytes => parse f bytes >>= fun s => pure (f, s)).map (·.2) = _
  cases readFile fs p with
  | error e => rfl
  | ok bytes =>
      change (parse f bytes >>= fun s => pure (f, s)).map (·.2) = parse f bytes
      cases parse f bytes <;> rfl

private theorem load_none_of_some (h : Format.ofPath? p = some f) :
    load fs p none = load fs p (some f) := by
  simp only [load, loadAs, chooseFormat, h]

private theorem load_none_of_none (h : Format.ofPath? p = none) :
    load fs p none = .error (.unknownFormat (Path.display p)) := by
  simp only [load, loadAs, chooseFormat, h]
  rfl

theorem load_of_file {l : Location} {content : Bytes} {mode : Nat}
    (h : fs.resolve p = .ok (l, .file content mode)) : load fs p (some f) = parse f content := by
  have hopen : fs.openFile p = .ok (.file content mode) := by
    rw [FileSystem.openFile, h]
    rfl
  rw [load_some, readFile, hopen]
  exact readBounded_bind_parse content mode

private theorem load_of_open_error {e : FileError} (h : fs.openFile p = .error e) :
    load fs p (some f) = .error (.io e.message) := by
  rw [load_some, readFile, h]
  rfl

theorem load_congr (h : fs'.resolve p = fs.resolve p) (format : Option Format) :
    load fs' p format = load fs p format := by
  rw [load, load, loadAs, loadAs, readFile, readFile, FileSystem.openFile, FileSystem.openFile, h]

theorem resolve_of_load {format : Option Format} {d : Service}
    (h : load fs p format = .ok d) : ∃ found, fs.resolve p = .ok found := by
  obtain ⟨loaded, hload, -⟩ := map_eq_ok_iff.mp h
  obtain ⟨f, -, hload⟩ := bind_eq_ok_iff.mp hload
  obtain ⟨bytes, hread, -⟩ := bind_eq_ok_iff.mp hload
  cases hresolve : fs.resolve p with
  | ok found => exact ⟨found, rfl⟩
  | error e =>
      rw [readFile, FileSystem.openFile, hresolve] at hread
      cases hread

end Document

namespace Session

theorem step_load (s : Session) (p : Path) (format : Option Format) :
    (s.step (.load p format)).1 = s := by
  rw [Session.step]
  cases Document.load s.files p format <;> rfl

theorem files_step_loadGenerator (s : Session) (p : Path) (format : Option Format) :
    (s.step (.loadGenerator p format)).1.files = s.files := by
  rw [Session.step]
  cases Harness.Generator.load s.files p format <;> rfl

end Session

namespace Document

/--
Loading is reading and then parsing.  A path that leads to a file gives what its
whole content is parsed as; without a format, the one that the path tells is
taken, and a path that tells none is refused unopened; a path that cannot be
opened gives the text of the system.  Loading changes no file.
-/
theorem load_reads_then_parses (fs : FileSystem) (p : Path) :
    (∀ l content mode f, fs.resolve p = .ok (l, .file content mode) →
      load fs p (some f) = parse f content ∧
        (load fs p (some f) = .error .tooLarge ↔ 1048576 < content.length)) ∧
      (∀ f, Format.ofPath? p = some f → load fs p none = load fs p (some f)) ∧
      (Format.ofPath? p = none →
        load fs p none = .error (.unknownFormat (Path.display p))) ∧
      (∀ e f, fs.openFile p = .error e → load fs p (some f) = .error (.io e.message)) ∧
      ∀ (s : Session) (format : Option Format),
        (s.step (.load p format)).1 = s ∧
          (s.step (.loadGenerator p format)).1.files = s.files := by
  refine ⟨fun l content mode f h => ⟨load_of_file h, ?_⟩, fun f => load_none_of_some,
    load_none_of_none, fun e f => load_of_open_error,
    fun s format => ⟨s.step_load p format, s.files_step_loadGenerator p format⟩⟩
  rw [load_of_file h, parse_eq_tooLarge_iff, maxBytes]

/-- A file behind a link that is too large, though it begins with a description,
and a path that is missing. -/
theorem load_reads_then_parses_beyond_limit :
    let document := Utf8.ofString "[\"p\",\"S\",[]]"
    let content := document ++ List.replicate 1048576 0x20
    let p := Utf8.ofString "s.json"
    let missing := Utf8.ofString "d/x"
    let target := [Utf8.ofString "d", Utf8.ofString "data"]
    let fs : FileSystem :=
      { entries := [([p], .link (Utf8.ofString "d/data")), ([Utf8.ofString "d"], .directory),
          (target, .file content 0o644)]
        workingDirectory := [] }
    fs.resolve p = .ok (target, .file content 0o644) ∧ Format.ofPath? p = some .json ∧
      parse .json document = .ok ⟨"p", "S", []⟩ ∧ load fs p none = .error .tooLarge ∧
      Format.ofPath? missing = none ∧ fs.openFile missing = .error .notFound ∧
      load fs missing none = .error (.unknownFormat "d/x") ∧
      load fs missing (some .json) = .error (.io "No such file or directory (os error 2)") := by
  intro document content p missing target fs
  have hresolve : fs.resolve p = .ok (target, .file content 0o644) := rfl
  have hlength : 1048576 < content.length := by
    rw [List.length_append, List.length_replicate]
    exact Nat.lt_add_of_pos_left (by decide)
  have hformat : Format.ofPath? p = some .json := by decide
  have hunknown : Format.ofPath? missing = none := by decide
  have hmissing : fs.openFile missing = .error .notFound := rfl
  obtain ⟨hfile, htold, -⟩ := load_reads_then_parses fs p
  obtain ⟨-, -, hnone, hopen, -⟩ := load_reads_then_parses fs missing
  refine ⟨hresolve, hformat, by decide, ?_, hunknown, hmissing, hnone hunknown,
    hopen _ .json hmissing⟩
  rw [htold .json hformat]
  exact (hfile _ _ _ .json hresolve).2.mpr hlength

end Document

end ServiceHarness
