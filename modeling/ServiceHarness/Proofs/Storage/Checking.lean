import ServiceHarness.Proofs.Outcome
import ServiceHarness.Proofs.Text.Decoding
import ServiceHarness.Storage.Contents
import ServiceHarness.Storage.Output

/-!
# Checking a file

What a check says about a file that holds a known text.
-/

namespace ServiceHarness.Storage.FileSystem

open ServiceHarness.Text

theorem checkOutput_of_readBytes {fs : FileSystem} {p : Path} {bytes : Bytes}
    (h : fs.readBytes p = .ok bytes) (text : String) :
    fs.checkOutput p text = compareOutput p bytes text := by
  rw [readBytes] at h
  rw [checkOutput]
  cases hopen : fs.openFile p with
  | error e =>
      rw [hopen] at h
      cases h
  | ok found =>
      rw [hopen] at h
      change found.readAll = .ok bytes at h
      simp only [h]

theorem checkOutput_of_held {fs : FileSystem} {p : Path} {held : String}
    (h : fs.readBytes p = .ok (Utf8.ofString held)) (text : String) :
    fs.checkOutput p text =
      if held = text then .ok () else .error (.drift (Path.display p)) := by
  rw [checkOutput_of_readBytes h, compareOutput, Utf8.toString?_ofString]

theorem compareOutput_eq_ok_iff {p : Path} {found : Bytes} {text : String} :
    compareOutput p found text = .ok () ↔ found = Utf8.ofString text := by
  rw [← Utf8.toString?_eq_some_iff, compareOutput]
  cases Utf8.toString? found with
  | none => simp
  | some held =>
      by_cases hheld : held = text
      · simp [hheld]
      · simp [hheld]

theorem checkOutput_eq_ok_iff {fs : FileSystem} {p : Path} {text : String} :
    fs.checkOutput p text = .ok () ↔ fs.readBytes p = .ok (Utf8.ofString text) := by
  constructor
  · intro h
    cases hread : fs.readBytes p with
    | ok bytes =>
        rw [checkOutput_of_readBytes hread, compareOutput_eq_ok_iff] at h
        rw [h]
    | error e =>
        have hnone : ∀ bytes, fs.readBytes p ≠ .ok bytes := by simp [hread]
        rw [checkOutput] at h
        cases hopen : fs.openFile p with
        | error e =>
            rw [hopen] at h
            cases h
        | ok found =>
            cases hall : found.readAll with
            | error e =>
                simp only [hopen, hall] at h
                cases h
            | ok bytes => exact absurd (bind_eq_ok_iff.mpr ⟨found, hopen, hall⟩) (hnone bytes)
  · intro h
    rw [checkOutput_of_readBytes h]
    exact compareOutput_eq_ok_iff.mpr rfl

end ServiceHarness.Storage.FileSystem
