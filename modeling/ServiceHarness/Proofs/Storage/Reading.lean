import ServiceHarness.Proofs.Storage.Effects

/-!
# Reading after a write

A write that succeeds puts a file at one location and keeps all other entries.
What a path leads to without that location, it leads to afterwards too.
-/

namespace ServiceHarness.Storage.FileSystem

open ServiceHarness.Text

variable {fs fs' : FileSystem} {target : Location} {content : Bytes}

/-- The target holds the file, and no other entry is lost. -/
structure Replaces (fs fs' : FileSystem) (target : Location) (content : Bytes) : Prop where
  workingDirectory : fs'.workingDirectory = fs.workingDirectory
  held : fs'.entry? target = some (.file content stagedMode)
  kept : ∀ l e, l ≠ target → fs.entry? l = some e → fs'.entry? l = some e

/-- A path leads to the same entry whatever stands at a location. -/
def Avoids (fs : FileSystem) (l : Location) (p : Path) : Prop :=
  (fs.erase l).resolve p = fs.resolve p

instance (fs : FileSystem) (l : Location) (p : Path) : Decidable (fs.Avoids l p) :=
  inferInstanceAs (Decidable (_ = _))

private theorem Replaces.extends_erase (h : fs.Replaces fs' target content) :
    (fs.erase target).Extends fs' := by
  have hroot : target ≠ [] := by
    rintro rfl
    cases h.held
  refine ⟨h.workingDirectory, fun l e he => ?_⟩
  rw [entry?_erase fs hroot] at he
  by_cases hl : l = target
  · rw [if_pos hl] at he
    cases he
  · rw [if_neg hl] at he
    exact h.kept l e hl he

theorem Replaces.resolve_eq (h : fs.Replaces fs' target content) {p : Path}
    {found : Location × Entry} (havoids : fs.Avoids target p)
    (hresolve : fs.resolve p = .ok found) : fs'.resolve p = fs.resolve p := by
  rw [hresolve]
  exact h.extends_erase.resolve_eq_ok (havoids.trans hresolve)

theorem writeOutput_eq_ok {p : Path} {text : String}
    (h : fs.writeOutput p text = (fs', .ok ())) :
    fs.writeBytes p (Utf8.ofString text) = (fs', .ok ()) := by
  rw [writeOutput] at h
  rcases hwrite : fs.writeBytes p (Utf8.ofString text) with ⟨written, e | ⟨⟨⟩⟩⟩
  · rw [hwrite] at h
    cases h
  · rw [hwrite] at h
    cases h
    rfl

theorem replaces_of_writeOutput {p : Path} {text : String}
    (h : fs.writeOutput p text = (fs', .ok ())) :
    ∃ directory name, (fs.prepareParent p).1.locate p = .ok (directory, some name) ∧
      fs.Replaces fs' (directory ++ [name]) (Utf8.ofString text) ∧
      (¬(fs.prepareParent p).1.LinkOnWay (Path.directory p) →
        fs'.readBytes p = .ok (Utf8.ofString text)) := by
  obtain ⟨_, hreplace⟩ := replaceFile_of_writeBytes (writeOutput_eq_ok h)
  have hadds := adds_prepareParent fs p
  obtain ⟨directory, name, hresolve, hlocate, hslash, htarget, hworking, hentries⟩ :=
    replaceFile_eq_ok hreplace
  refine ⟨directory, name, hlocate, ⟨hworking.trans hadds.workingDirectory, ?_, ?_⟩,
    fun hlink => ?_⟩
  · rw [hentries, if_pos rfl]
  · intro l e hl he
    rw [hentries, if_neg hl]
    exact hadds.kept l e he
  · exact readBytes_of_replaced hlocate hslash hresolve hlink htarget hworking hentries

end ServiceHarness.Storage.FileSystem
