import Mathlib.Data.List.Basic
import ServiceHarness.Harness.Identifier

/-!
# Go names

`GoName` states the rule for names that may stand in Go source, and
`isIdentifier` decides it.  The second part says what a name consists of.
-/

namespace ServiceHarness.Harness

/-- A letter or an underscore in front, then letters, digits and underscores;
neither the blank identifier nor a keyword. -/
structure GoName (s : String) : Prop where
  shape : ∃ first rest, s.toList = first :: rest ∧
    (first = '_' ∨ first.isAlpha) ∧ ∀ c ∈ rest, c = '_' ∨ c.isAlphanum
  not_blank : s ≠ "_"
  not_keyword : s ∉ keywords

private theorem isAlpha_iff_toNat (c : Char) :
    c.isAlpha = true ↔ (65 ≤ c.toNat ∧ c.toNat ≤ 90) ∨ (97 ≤ c.toNat ∧ c.toNat ≤ 122) := by
  change (decide (c.val ≥ 65 ∧ c.val ≤ 90) || (decide (c.val ≥ 97) && decide (c.val ≤ 122)))
    = true ↔ _
  simp only [Bool.or_eq_true, Bool.and_eq_true, decide_eq_true_eq, ge_iff_le,
    UInt32.le_iff_toNat_le]
  rfl

theorem isLetter_eq_isAlpha (c : Char) : isLetter c = c.isAlpha := by
  rw [Bool.eq_iff_iff, isAlpha_iff_toNat, Or.comm]
  simp only [isLetter, Char.le_def, Bool.or_eq_true, Bool.and_eq_true, decide_eq_true_eq,
    UInt32.le_iff_toNat_le]
  rfl

theorem isDigit_eq_isDigit (c : Char) : isDigit c = c.isDigit := by
  rw [Bool.eq_iff_iff]
  simp only [isDigit, Char.isDigit, Char.le_def, Bool.and_eq_true, decide_eq_true_eq,
    ge_iff_le]

theorem isIdentifierStart_iff (c : Char) :
    isIdentifierStart c = true ↔ c = '_' ∨ c.isAlpha := by
  simp [isIdentifierStart, isLetter_eq_isAlpha]

theorem isIdentifierPart_iff (c : Char) :
    isIdentifierPart c = true ↔ c = '_' ∨ c.isAlphanum := by
  simp [isIdentifierPart, isIdentifierStart_iff, isDigit_eq_isDigit, Char.isAlphanum,
    or_assoc]

private theorem hasIdentifierShape_iff (chars : List Char) :
    hasIdentifierShape chars = true ↔
      ∃ first rest, chars = first :: rest ∧
        (first = '_' ∨ first.isAlpha) ∧ ∀ c ∈ rest, c = '_' ∨ c.isAlphanum := by
  cases chars with
  | nil => simp [hasIdentifierShape]
  | cons first rest =>
      simp [hasIdentifierShape, isIdentifierStart_iff, isIdentifierPart_iff]

theorem isIdentifier_iff (s : String) : isIdentifier s = true ↔ GoName s := by
  simp only [isIdentifier, Bool.and_eq_true, hasIdentifierShape_iff, bne_iff_ne,
    Bool.not_eq_true', List.contains_eq_mem, decide_eq_false_iff_not]
  constructor
  · rintro ⟨⟨hshape, hblank⟩, hkeyword⟩
    exact ⟨hshape, hblank, hkeyword⟩
  · rintro ⟨hshape, hblank, hkeyword⟩
    exact ⟨⟨hshape, hblank⟩, hkeyword⟩

instance (s : String) : Decidable (GoName s) :=
  decidable_of_iff _ (isIdentifier_iff s)

theorem isHarnessName_iff (s : String) : isHarnessName s = true ↔ s ∈ harnessNames := by
  simp [isHarnessName]

/-! ## The characters of a name -/

theorem isIdentifierPart_of_start {c : Char} (h : isIdentifierStart c = true) :
    isIdentifierPart c = true := by
  simp [isIdentifierPart, h]

theorem isIdentifierPart_bounds {c : Char} (h : isIdentifierPart c = true) :
    0x30 ≤ c.toNat ∧ c.toNat < 0x80 := by
  rcases (isIdentifierPart_iff c).mp h with rfl | h
  · decide
  · simp only [Char.isAlphanum, Char.isDigit, Bool.or_eq_true, Bool.and_eq_true,
      isAlpha_iff_toNat, decide_eq_true_eq, ge_iff_le, UInt32.le_iff_toNat_le] at h
    change ((65 ≤ c.toNat ∧ c.toNat ≤ 90) ∨ (97 ≤ c.toNat ∧ c.toNat ≤ 122)) ∨
      (48 ≤ c.toNat ∧ c.toNat ≤ 57) at h
    omega

theorem ne_of_isIdentifierPart {c d : Char} (hc : isIdentifierPart c = true)
    (hd : isIdentifierPart d = false) : c ≠ d := by
  rintro rfl
  rw [hc] at hd
  contradiction

theorem GoName.exists_cons {s : String} (h : GoName s) :
    ∃ first rest, s.toList = first :: rest ∧ isIdentifierStart first = true ∧
      ∀ c ∈ rest, isIdentifierPart c = true := by
  obtain ⟨first, rest, hs, hfirst, hrest⟩ := h.shape
  exact ⟨first, rest, hs, (isIdentifierStart_iff first).mpr hfirst,
    fun c hc => (isIdentifierPart_iff c).mpr (hrest c hc)⟩

theorem GoName.part {s : String} (h : GoName s) {c : Char} (hc : c ∈ s.toList) :
    isIdentifierPart c = true := by
  obtain ⟨first, rest, hs, hfirst, hrest⟩ := h.exists_cons
  rw [hs, List.mem_cons] at hc
  rcases hc with rfl | hc
  · exact isIdentifierPart_of_start hfirst
  · exact hrest c hc

theorem GoName.not_mem {s : String} (h : GoName s) {c : Char}
    (hc : isIdentifierPart c = false) : c ∉ s.toList := by
  intro hmem
  exact ne_of_isIdentifierPart (h.part hmem) hc rfl

theorem GoName.append {front back : String} (hfront : GoName front)
    (hback : ∀ c ∈ back.toList, isIdentifierPart c = true) (hkeyword : front ++ back ∉ keywords) :
    GoName (front ++ back) := by
  obtain ⟨first, rest, htext, hfirst, hrest⟩ := hfront.shape
  refine ⟨⟨first, rest ++ back.toList, ?_, hfirst, ?_⟩, ?_, hkeyword⟩
  · rw [String.toList_append, htext, List.cons_append]
  · intro c hc
    rcases List.mem_append.mp hc with hc | hc
    · exact hrest c hc
    · exact (isIdentifierPart_iff c).mp (hback c hc)
  · intro hblank
    have hchars := congrArg String.toList hblank
    rw [String.toList_append, htext, List.cons_append] at hchars
    obtain ⟨rfl, htail⟩ := List.cons.inj hchars
    obtain ⟨rfl, -⟩ := List.append_eq_nil_iff.mp htail
    exact hfront.not_blank (String.toList_inj.mp htext)

end ServiceHarness.Harness
