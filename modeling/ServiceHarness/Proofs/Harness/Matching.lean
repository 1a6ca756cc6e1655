import ServiceHarness.Proofs.Harness.Letters
import ServiceHarness.Proofs.Text.Sections

/-!
# Matching rows

What a filled row starts with, decided on the row as far as it can be for all
names.  A pattern is a row itself, so that it may speak of the same slots.
-/

namespace ServiceHarness.Harness

open ServiceHarness.Text

variable {σ : Type}

theorem toList_filter {value : σ → String} {lines : List String}
    {rows kept : List (List (Letter σ))} (test : List Char → Bool)
    (may : List (Letter σ) → Bool)
    (hlines : lines.map String.toList = rows.map (spell value))
    (hmay : ∀ row, test (spell value row) = true → may row = true)
    (hkept : rows.filter may = kept)
    (htest : ∀ row ∈ kept, test (spell value row) = true) :
    (lines.filter fun line => test line.toList).map String.toList =
      kept.map (spell value) := by
  have hrows : rows.filter (fun row => test (spell value row)) = kept := by
    rw [← hkept] at htest ⊢
    apply List.filter_congr
    intro row hrow
    rw [Bool.eq_iff_iff]
    exact ⟨hmay row, fun h => htest row (List.mem_filter.mpr ⟨hrow, h⟩)⟩
  calc (lines.filter fun line => test line.toList).map String.toList
      = (lines.map String.toList).filter test := by
        rw [List.filter_map]
        rfl
    _ = (rows.filter fun row => test (spell value row)).map (spell value) := by
        rw [hlines, List.filter_map]
        rfl
    _ = kept.map (spell value) := by rw [hrows]

theorem toList_joinLines_rows {value : σ → String} {lines : List String}
    {rows : List (List (Letter σ))}
    (hlines : lines.map String.toList = rows.map (spell value)) :
    (joinLines lines).toList = spell value (rows.flatMap (· ++ [.char '\n'])) := by
  rw [toList_joinLines, hlines]
  clear hlines
  induction rows with
  | nil => rfl
  | cons row rows ih =>
      rw [List.map_cons, List.flatMap_cons, List.flatMap_cons, spell_append, spell_append, ih]
      rfl

variable [DecidableEq σ]

/-- Whether a filled row may start with a filled pattern.  The same slot on both
sides drops out; of a slot that meets something else, only its first character
is known to begin a name. -/
def mayStart : List (Letter σ) → List (Letter σ) → Bool
  | [], _ => true
  | _ :: _, [] => false
  | .char c :: pattern, .char d :: row => c == d && mayStart pattern row
  | .char c :: _, .slot _ :: _ => isIdentifierStart c
  | .slot _ :: _, .char d :: _ => isIdentifierStart d
  | .slot x :: pattern, .slot y :: row => x != y || mayStart pattern row

theorem mayStart_of_prefix_spell {value : σ → String} (hvalue : Named value)
    (pattern row : List (Letter σ)) (h : spell value pattern <+: spell value row) :
    mayStart pattern row = true := by
  fun_induction mayStart pattern row with
  | case1 row => rfl
  | case2 letter pattern =>
      cases letter with
      | char c => simp at h
      | slot x =>
          obtain ⟨first, rest, hx, -⟩ := (hvalue x).exists_cons
          simp [hx] at h
  | case3 c pattern d row ih =>
      obtain ⟨rfl, hrest⟩ := List.cons_prefix_cons.mp h
      simp [ih hrest]
  | case4 c pattern y row =>
      obtain ⟨first, rest, hy, hfirst, -⟩ := (hvalue y).exists_cons
      rw [spell_char_cons, spell_slot_cons, hy, List.cons_append] at h
      rw [(List.cons_prefix_cons.mp h).1]
      exact hfirst
  | case5 x pattern d row =>
      obtain ⟨first, rest, hx, hfirst, -⟩ := (hvalue x).exists_cons
      rw [spell_slot_cons, spell_char_cons, hx, List.cons_append] at h
      rw [← (List.cons_prefix_cons.mp h).1]
      exact hfirst
  | case6 x pattern y row ih =>
      by_cases hxy : x = y
      · subst y
        rw [spell_slot_cons, spell_slot_cons, List.prefix_append_right_inj] at h
        simp [ih h]
      · simp [hxy]

def mayOccur (pattern : List (Letter σ)) : List (Letter σ) → Nat
  | [] => 0
  | letter :: row =>
      (if mayStart pattern (letter :: row) then 1 else 0) + mayOccur pattern row

/-- The pattern must begin with a character that no name holds, so that it does
not begin inside a slot. -/
theorem occurrences_spell_le {value : σ → String} (hvalue : Named value) {c : Char}
    (hc : isIdentifierPart c = false) (pattern row : List (Letter σ)) :
    occurrences (spell value (.char c :: pattern)) (spell value row) ≤
      mayOccur (.char c :: pattern) row := by
  induction row with
  | nil => exact Nat.le_refl _
  | cons letter row ih =>
      cases letter with
      | char d =>
          rw [spell_char_cons value d, occurrences, mayOccur]
          by_cases hhere :
              (spell value (.char c :: pattern)).isPrefixOf (d :: spell value row) = true
          · have hmay := mayStart_of_prefix_spell hvalue (.char c :: pattern) (.char d :: row)
              (List.isPrefixOf_iff_prefix.mp hhere)
            rw [if_pos hhere, if_pos hmay]
            omega
          · rw [if_neg hhere]
            omega
      | slot x =>
          rw [spell_slot_cons, spell_char_cons,
            occurrences_skip _ _ _ ((hvalue x).not_mem hc), mayOccur]
          rw [spell_char_cons] at ih
          omega

end ServiceHarness.Harness
