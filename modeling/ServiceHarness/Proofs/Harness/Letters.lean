import Mathlib.Data.List.Basic
import ServiceHarness.Harness.Rendering
import ServiceHarness.Proofs.Harness.Identifiers
import ServiceHarness.Proofs.Text.Lines

/-!
# Letters of templates

A template line as a row of letters, each a character or a slot, and what a row
spells when its slots are filled.
-/

namespace ServiceHarness.Harness

open ServiceHarness.Text

inductive Letter (σ : Type) where
  | char (c : Char)
  | slot (x : σ)
  deriving DecidableEq, Repr

variable {σ : Type}

/-- Every slot is filled with a Go name. -/
def Named (value : σ → String) : Prop :=
  ∀ x, GoName (value x)

def Letter.spell (value : σ → String) : Letter σ → List Char
  | .char c => [c]
  | .slot x => (value x).toList

def spell (value : σ → String) (letters : List (Letter σ)) : List Char :=
  letters.flatMap (Letter.spell value)

def Piece.letters : Piece σ → List (Letter σ)
  | .text s => s.toList.map .char
  | .slot x => [.slot x]

def Line.letters (line : Line σ) : List (Letter σ) :=
  line.flatMap Piece.letters

@[simp] theorem spell_nil (value : σ → String) : spell value [] = [] := rfl

@[simp] theorem spell_char_cons (value : σ → String) (c : Char) (letters : List (Letter σ)) :
    spell value (.char c :: letters) = c :: spell value letters := rfl

@[simp] theorem spell_slot_cons (value : σ → String) (x : σ) (letters : List (Letter σ)) :
    spell value (.slot x :: letters) = (value x).toList ++ spell value letters := rfl

@[simp] theorem spell_append (value : σ → String) (a b : List (Letter σ)) :
    spell value (a ++ b) = spell value a ++ spell value b :=
  List.flatMap_append

@[simp] theorem spell_chars (value : σ → String) (chars : List Char) :
    spell value (chars.map .char) = chars := by
  induction chars with
  | nil => rfl
  | cons c chars ih => simp [ih]

theorem fill_nil (value : σ → String) : Line.fill value [] = "" := rfl

theorem fill_cons (value : σ → String) (piece : Piece σ) (line : Line σ) :
    Line.fill value (piece :: line) = Line.fillPiece value piece ++ Line.fill value line := by
  apply String.toList_inj.mp
  simp [Line.fill, String.toList_join, String.toList_append]

theorem toList_fill (value : σ → String) (line : Line σ) :
    (Line.fill value line).toList = spell value line.letters := by
  induction line with
  | nil => rfl
  | cons piece line ih =>
      rw [fill_cons, String.toList_append, ih]
      cases piece with
      | text s => simp [Line.fillPiece, Line.letters, Piece.letters]
      | slot x => simp [Line.fillPiece, Line.letters, Piece.letters]

theorem fill_between (value : σ → String) (before : String) (x : σ) (after : String) :
    Line.fill value [.text before, .slot x, .text after] = before ++ value x ++ after := by
  simp only [fill_cons, fill_nil, Line.fillPiece, String.append_empty, String.append_assoc]

theorem mem_spell_iff {value : σ → String} (hvalue : Named value) {c : Char}
    (hc : isIdentifierPart c = false) (letters : List (Letter σ)) :
    c ∈ spell value letters ↔ .char c ∈ letters := by
  induction letters with
  | nil => simp
  | cons letter letters ih =>
      cases letter with
      | char d => simp [ih]
      | slot x => simp [ih, (hvalue x).not_mem hc]

theorem spell_eq_nil_iff {value : σ → String} (hvalue : Named value) (letters : List (Letter σ)) :
    spell value letters = [] ↔ letters = [] := by
  cases letters with
  | nil => simp
  | cons letter letters =>
      cases letter with
      | char c => simp
      | slot x =>
          obtain ⟨first, rest, hx, -⟩ := (hvalue x).exists_cons
          simp [hx]

theorem char_or_part_of_mem_spell {value : σ → String} (hvalue : Named value) {c : Char}
    {letters : List (Letter σ)} (h : c ∈ spell value letters) :
    .char c ∈ letters ∨ isIdentifierPart c = true := by
  obtain ⟨letter, hletter, hc⟩ := List.mem_flatMap.mp h
  cases letter with
  | char d =>
      obtain rfl := List.mem_singleton.mp hc
      exact .inl hletter
  | slot x => exact .inr ((hvalue x).part hc)

theorem char_or_part_of_getLast?_spell {value : σ → String} (hvalue : Named value) {c : Char}
    {letters : List (Letter σ)} (h : c ∈ (spell value letters).getLast?) :
    .char c ∈ letters.getLast? ∨ isIdentifierPart c = true := by
  rcases List.eq_nil_or_concat' letters with rfl | ⟨front, letter, rfl⟩
  · contradiction
  · have hne : spell value [letter] ≠ [] := by simp [spell_eq_nil_iff hvalue]
    rw [spell_append, List.getLast?_append_of_ne_nil _ hne] at h
    rw [List.getLast?_concat]
    have hlast := char_or_part_of_mem_spell hvalue (List.mem_of_getLast? h)
    rcases hlast with hchar | hpart
    · exact .inl (congrArg some (List.mem_singleton.mp hchar).symm)
    · exact .inr hpart

/-! ## Rows of letters

Evaluating a string literal to its characters is slow, but a literal unifies
with `String.ofList` of its characters.  So rows of letters can be found by
applying the constructors of `Line.Spells`. -/

inductive Line.Spells : Line σ → List (Letter σ) → Prop where
  | nil : Spells [] []
  | text (chars : List Char) {line : Line σ} {row : List (Letter σ)} (rest : Spells line row) :
      Spells (.text (String.ofList chars) :: line) (chars.map .char ++ row)
  | slot (x : σ) {line : Line σ} {row : List (Letter σ)} (rest : Spells line row) :
      Spells (.slot x :: line) (.slot x :: row)

theorem Line.Spells.letters_eq {line : Line σ} {row : List (Letter σ)}
    (h : Spells line row) : line.letters = row := by
  induction h with
  | nil => rfl
  | text chars rest ih =>
      rw [← ih, Line.letters, List.flatMap_cons, Piece.letters, String.toList_ofList,
        Line.letters]
  | slot x rest ih =>
      rw [← ih]
      rfl

abbrev Rows (lines : List (Line σ)) : Type :=
  { rows : List (List (Letter σ)) // List.Forall₂ Line.Spells lines rows }

theorem Rows.letters_eq {lines : List (Line σ)} (rows : Rows lines) :
    lines.map Line.letters = rows.val := by
  obtain ⟨rows, h⟩ := rows
  induction h with
  | nil => rfl
  | cons hline hlines ih => rw [List.map_cons, hline.letters_eq, ih]

theorem map_toList_fill (value : σ → String) {lines : List (Line σ)} (rows : Rows lines) :
    (lines.map (Line.fill value)).map String.toList = rows.val.map (spell value) := by
  rw [← rows.letters_eq, List.map_map, List.map_map]
  exact List.map_congr_left fun line _ => toList_fill value line

end ServiceHarness.Harness
