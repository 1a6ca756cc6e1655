import Mathlib.Data.List.Forall2
import ServiceHarness.Document.Format
import ServiceHarness.Proofs.Storage.Components

/-!
# Formats of paths

Which paths have a format: what stands behind the last dot of the last component
decides, in any letter case.  So neither the directory in front, nor slashes and single
dots behind, nor the case of letters matter.
-/

namespace ServiceHarness.Document

open ServiceHarness.Text ServiceHarness.Storage ServiceHarness.Storage.Path

/-- Two bytes are equal, or one of them is a capital of ASCII and the other the same
letter in lower case. -/
def SameLetter (a b : UInt8) : Prop :=
  a = b ∨ (65 ≤ a ∧ a ≤ 90 ∧ b = a + 32) ∨ (65 ≤ b ∧ b ≤ 90 ∧ a = b + 32)

namespace Format

/-- The last component of the path has an extension that spells the format. -/
def Marks (f : Format) (p : Path) : Prop :=
  ∃ name stem ext, EndsIn p name ∧ name ≠ dotSegment ∧ name ≠ dotDotSegment ∧
    stem ≠ [] ∧ name = stem ++ dot :: ext ∧ dot ∉ ext ∧
      List.Forall₂ SameLetter ext (Utf8.ofString f.label)

private theorem toNat_lowerByte (byte : UInt8) :
    (lowerByte byte).toNat =
      if 65 ≤ byte.toNat ∧ byte.toNat ≤ 90 then byte.toNat + 32 else byte.toNat := by
  have hcapital : (65 ≤ byte ∧ byte ≤ 90) ↔ 65 ≤ byte.toNat ∧ byte.toNat ≤ 90 := by
    rw [UInt8.le_iff_toNat_le, UInt8.le_iff_toNat_le]
    rfl
  simp only [lowerByte, hcapital]
  split_ifs with h
  · rw [UInt8.toNat_add]
    change (byte.toNat + 32) % 256 = byte.toNat + 32
    omega
  · rfl

private theorem sameLetter_iff {a b : UInt8} : SameLetter a b ↔ lowerByte a = lowerByte b := by
  have ha := a.toNat_lt
  have hb := b.toNat_lt
  simp only [SameLetter, ← UInt8.toNat_inj, UInt8.le_iff_toNat_le, UInt8.toNat_add,
    UInt8.reduceToNat, toNat_lowerByte]
  split_ifs <;> omega

theorem sameLetters_iff {a b : Bytes} :
    List.Forall₂ SameLetter a b ↔ a.map lowerByte = b.map lowerByte := by
  have hletter : SameLetter = fun a b => lowerByte a = lowerByte b :=
    funext₂ fun _ _ => propext sameLetter_iff
  rw [hletter, ← List.forall₂_eq_eq_eq, List.forall₂_map_left_iff, List.forall₂_map_right_iff]

theorem lowerByte_eq_iff {byte c : UInt8} (hc : c.toNat < 65) :
    lowerByte byte = c ↔ byte = c := by
  rw [← UInt8.toNat_inj, ← UInt8.toNat_inj, toNat_lowerByte]
  split_ifs <;> omega

private theorem lowerByte_lowerByte (byte : UInt8) :
    lowerByte (lowerByte byte) = lowerByte byte := by
  rw [← UInt8.toNat_inj, toNat_lowerByte, toNat_lowerByte]
  split_ifs <;> omega

theorem ofExtension?_eq_some_iff {ext : Name} {f : Format} :
    ofExtension? ext = some f ↔ List.Forall₂ SameLetter ext (Utf8.ofString f.label) := by
  have hlabels : (Utf8.ofString "toml").map lowerByte = Utf8.ofString "toml" ∧
      (Utf8.ofString "json").map lowerByte = Utf8.ofString "json" ∧
        Utf8.ofString "toml" ≠ Utf8.ofString "json" := by
    decide
  obtain ⟨htoml, hjson, hne⟩ := hlabels
  rw [sameLetters_iff, ofExtension?]
  cases f with
  | toml =>
      rw [label, htoml]
      split_ifs with h <;> simp [h]
  | json =>
      rw [label, hjson]
      split_ifs with h h' <;> simp [*]

theorem ofExtension?_map (ext : Name) : ofExtension? (ext.map lowerByte) = ofExtension? ext := by
  apply Option.ext
  intro f
  rw [ofExtension?_eq_some_iff, ofExtension?_eq_some_iff, sameLetters_iff, sameLetters_iff,
    List.map_map, Function.comp_def]
  simp only [lowerByte_lowerByte]

theorem ofPath?_eq_some_iff {p : Path} {f : Format} : ofPath? p = some f ↔ f.Marks p := by
  simp only [ofPath?, Option.bind_eq_some_iff, fileName?_eq_some_iff, extension?_eq_some_iff,
    ofExtension?_eq_some_iff, Marks]
  constructor
  · rintro ⟨ext, ⟨name, ⟨hends, hdots⟩, stem, hstem, hname, hext⟩, hspells⟩
    exact ⟨name, stem, ext, hends, hdots.1, hdots.2, hstem, hname, hext, hspells⟩
  · rintro ⟨name, stem, ext, hends, hdot, hdotDot, hstem, hname, hext, hspells⟩
    exact ⟨ext, ⟨name, ⟨hends, hdot, hdotDot⟩, stem, hstem, hname, hext⟩, hspells⟩

theorem ofPath?_map_lowerByte (p : Path) : ofPath? (p.map lowerByte) = ofPath? p := by
  have hslash : ∀ byte, lowerByte byte = slash ↔ byte = slash :=
    fun byte => lowerByte_eq_iff (by decide)
  have hdot : ∀ byte, lowerByte byte = dot ↔ byte = dot :=
    fun byte => lowerByte_eq_iff (by decide)
  rw [ofPath?, ofPath?, fileName?_map hslash hdot]
  cases fileName? p with
  | none => rfl
  | some name =>
      simp only [Option.map_some, Option.bind_some, extension?_map hdot]
      cases extension? name with
      | none => rfl
      | some ext => exact ofExtension?_map ext

/--
A path has the format that the extension of its last component spells, and no format
otherwise.  So its format stays the same behind any directory, in front of slashes and
single dots, and in any letter case.
-/
theorem format_told_by_last_component (p : Path) :
    (∀ f, ofPath? p = some f ↔ f.Marks p) ∧ (ofPath? p = none ↔ ∀ f : Format, ¬f.Marks p) ∧
      (∀ directory name, EndsIn p name → name ≠ dotSegment →
        ofPath? (directory ++ slash :: p) = ofPath? p) ∧
      (∀ tail, Silent tail → ofPath? (p ++ tail) = ofPath? p) ∧
      ∀ q, List.Forall₂ SameLetter q p → ofPath? q = ofPath? p := by
  refine ⟨fun f => ofPath?_eq_some_iff, ?_, fun directory name hends hname => ?_,
    fun tail htail => ?_, fun q hq => ?_⟩
  · rw [Option.eq_none_iff_forall_ne_some]
    exact forall_congr' fun f => not_congr ofPath?_eq_some_iff
  · rw [ofPath?, ofPath?, (hends.prepend hname directory).fileName?_eq hends]
  · rw [ofPath?, ofPath?, fileName?_append_silent htail]
  · rw [← ofPath?_map_lowerByte q, sameLetters_iff.mp hq, ofPath?_map_lowerByte]

/-- The name of a hidden file whose second dot begins an extension. -/
theorem format_told_by_last_component_two_dots :
    let p := Utf8.ofString "specs/..ToMl/./"
    EndsIn p (Utf8.ofString "..ToMl") ∧ ofPath? p = some .toml ∧
      (∀ directory, ofPath? (directory ++ slash :: p) = some .toml) ∧
        ofPath? (p ++ Utf8.ofString "/.") = some .toml ∧
          ofPath? (Utf8.ofString "specs/..tOmL/./") = some .toml := by
  intro p
  have hends : EndsIn p (Utf8.ofString "..ToMl") := endsIn_iff.mpr (by decide)
  obtain ⟨hformat, -, hprepend, happend, hcase⟩ := format_told_by_last_component p
  have htoml : ofPath? p = some .toml := by
    refine (hformat .toml).mpr ⟨_, [dot], Utf8.ofString "ToMl", hends, by decide, by decide,
      by decide, by decide, by decide, ?_⟩
    exact sameLetters_iff.mpr (by decide)
  refine ⟨hends, htoml, fun directory => ?_, ?_, ?_⟩
  · rw [hprepend directory _ hends (by decide), htoml]
  · exact (happend _ (.dot .nil)).trans htoml
  · rw [hcase _ (sameLetters_iff.mpr (by decide)), htoml]

end Format

end ServiceHarness.Document
