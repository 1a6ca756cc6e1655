import Mathlib.Data.List.Basic
import Mathlib.Data.List.Infix
import ServiceHarness.Proofs.Text.Lines

/-!
# Sections and occurrences

Two ways to read a text: cut its lines at those that open a section, and count
the places at which a pattern stands.
-/

namespace ServiceHarness.Text

/-! ## Sections -/

/-- The lines before the first section, and every section: the line that opens
it with the lines up to the next such line or the end. -/
def sections (opens : String → Bool) :
    List String → List String × List (String × List String)
  | [] => ([], [])
  | line :: rest =>
      let (body, later) := sections opens rest
      if opens line then ([], (line, body) :: later) else (line :: body, later)

theorem sections_cons_open {opens : String → Bool} {line : String} (rest : List String)
    (h : opens line = true) :
    sections opens (line :: rest) =
      ([], (line, (sections opens rest).1) :: (sections opens rest).2) := by
  simp [sections, h]

theorem sections_append {opens : String → Bool} {body : List String} (rest : List String)
    (h : ∀ line ∈ body, opens line = false) :
    sections opens (body ++ rest) =
      (body ++ (sections opens rest).1, (sections opens rest).2) := by
  induction body with
  | nil => rfl
  | cons line body ih =>
      have hbody := ih fun l hl => h l (List.mem_cons_of_mem line hl)
      simp [sections, hbody, h line List.mem_cons_self]

private theorem sections_of_forall {opens : String → Bool} {body : List String}
    (h : ∀ line ∈ body, opens line = false) : sections opens body = (body, []) := by
  simpa [sections] using sections_append [] h

theorem mem_intercalate {α : Type} {x : α} {separator : List α} {blocks : List (List α)}
    (h : x ∈ separator.intercalate blocks) : x ∈ separator ∨ ∃ block ∈ blocks, x ∈ block := by
  induction blocks with
  | nil => simp at h
  | cons block blocks ih =>
      cases blocks with
      | nil => exact .inr ⟨block, List.mem_cons_self, by simpa using h⟩
      | cons next blocks =>
          rw [List.intercalate_cons_cons, List.mem_append, List.mem_append] at h
          rcases h with (hblock | hseparator) | hlater
          · exact .inr ⟨block, List.mem_cons_self, hblock⟩
          · exact .inl hseparator
          · rcases ih hlater with hseparator | ⟨found, hfound, hx⟩
            · exact .inl hseparator
            · exact .inr ⟨found, List.mem_cons_of_mem block hfound, hx⟩

section Blocks

variable {α : Type} {opens : String → Bool} {header : α → String} {body : α → List String}

theorem sections_flatMap {items : List α} {after : List String}
    (hopens : ∀ x ∈ items, opens (header x) = true)
    (hbody : ∀ x ∈ items, ∀ line ∈ body x, opens line = false)
    (hafter : ∀ line ∈ after, opens line = false) :
    List.Forall₂ (fun x block => block.1 = header x ∧ body x <+: block.2) items
      (sections opens (items.flatMap (fun x => header x :: body x) ++ after)).2 := by
  induction items with
  | nil =>
      rw [List.flatMap_nil, List.nil_append, sections_of_forall hafter]
      exact List.Forall₂.nil
  | cons x items ih =>
      have hlater := ih (fun y hy => hopens y (List.mem_cons_of_mem x hy))
        fun y hy => hbody y (List.mem_cons_of_mem x hy)
      rw [List.flatMap_cons, List.cons_append, List.cons_append,
        sections_cons_open _ (hopens x List.mem_cons_self), List.append_assoc,
        sections_append _ (hbody x List.mem_cons_self)]
      exact List.Forall₂.cons ⟨rfl, List.prefix_append _ _⟩ hlater

theorem sections_intercalate {items : List α} {separator : List String}
    (hopens : ∀ x ∈ items, opens (header x) = true)
    (hbody : ∀ x ∈ items, ∀ line ∈ body x, opens line = false)
    (hseparator : ∀ line ∈ separator, opens line = false) :
    (sections opens (separator.intercalate (items.map fun x => header x :: body x))).1 = [] ∧
      List.Forall₂
        (fun x block => block.1 = header x ∧
          (block.2 = body x ∨ block.2 = body x ++ separator)) items
        (sections opens
          (separator.intercalate (items.map fun x => header x :: body x))).2 := by
  induction items with
  | nil => exact ⟨rfl, List.Forall₂.nil⟩
  | cons x items ih =>
      have hx := hopens x List.mem_cons_self
      have hquiet := hbody x List.mem_cons_self
      obtain ⟨hfirst, hlater⟩ := ih (fun y hy => hopens y (List.mem_cons_of_mem x hy))
        fun y hy => hbody y (List.mem_cons_of_mem x hy)
      cases items with
      | nil =>
          rw [List.map_cons, List.map_nil, List.intercalate_singleton,
            sections_cons_open _ hx, sections_of_forall hquiet]
          exact ⟨rfl, List.Forall₂.cons ⟨rfl, .inl rfl⟩ List.Forall₂.nil⟩
      | cons y items =>
          rw [List.map_cons] at hfirst hlater
          rw [List.map_cons, List.map_cons, List.intercalate_cons_cons, List.cons_append,
            List.cons_append, sections_cons_open _ hx, List.append_assoc,
            sections_append _ hquiet, sections_append _ hseparator, hfirst, List.append_nil]
          exact ⟨rfl, List.Forall₂.cons ⟨rfl, .inr rfl⟩ hlater⟩

end Blocks

/-! ## Occurrences -/

/-- The number of places at which a pattern stands; they may overlap. -/
def occurrences (pattern : List Char) : List Char → Nat
  | [] => 0
  | c :: rest =>
      (if pattern.isPrefixOf (c :: rest) then 1 else 0) + occurrences pattern rest

theorem occurrences_append_le (pattern before after : List Char) :
    occurrences pattern after ≤ occurrences pattern (before ++ after) := by
  induction before with
  | nil => exact Nat.le_refl _
  | cons c before ih =>
      rw [List.cons_append, occurrences]
      omega

theorem occurrences_pos {pattern text : List Char} (hpattern : pattern ≠ [])
    (h : pattern <:+: text) : 0 < occurrences pattern text := by
  obtain ⟨before, after, rfl⟩ := h
  rw [List.append_assoc]
  apply Nat.lt_of_lt_of_le _ (occurrences_append_le pattern before (pattern ++ after))
  cases pattern with
  | nil => contradiction
  | cons c pattern =>
      have hhere : (c :: pattern).isPrefixOf (c :: (pattern ++ after)) = true :=
        List.isPrefixOf_iff_prefix.mpr (List.prefix_append (c :: pattern) after)
      rw [List.cons_append, occurrences, if_pos hhere]
      omega

private theorem occurrences_cons_le {pattern : List Char} (hpattern : pattern ≠ []) (x : Char)
    (text : List Char) : occurrences (x :: pattern) text ≤ occurrences pattern text := by
  have hshift : ∀ (c : Char) (rest : List Char),
      occurrences (x :: pattern) (c :: rest) ≤ occurrences pattern rest := by
    intro c rest
    induction rest generalizing c with
    | nil => simp [occurrences, List.isPrefixOf]
    | cons d rest ih =>
        have hlater := ih d
        rw [occurrences, occurrences.eq_2 pattern]
        by_cases hhere : (x :: pattern).isPrefixOf (c :: d :: rest) = true
        · have hnext : pattern.isPrefixOf (d :: rest) = true := by
            rw [List.isPrefixOf_iff_prefix] at hhere ⊢
            exact (List.cons_prefix_cons.mp hhere).2
          rw [if_pos hhere, if_pos hnext]
          omega
        · rw [if_neg hhere]
          omega
  cases text with
  | nil => exact Nat.le_refl _
  | cons c rest =>
      exact (hshift c rest).trans (occurrences_append_le pattern [c] rest)

theorem occurrences_append_pattern_le {pattern : List Char} (hpattern : pattern ≠ [])
    (front text : List Char) :
    occurrences (front ++ pattern) text ≤ occurrences pattern text := by
  induction front with
  | nil => exact Nat.le_refl _
  | cons x front ih =>
      have hfront : front ++ pattern ≠ [] := by simp [hpattern]
      exact (occurrences_cons_le hfront x text).trans ih

theorem occurrences_skip {first : Char} (pattern run rest : List Char) (h : first ∉ run) :
    occurrences (first :: pattern) (run ++ rest) = occurrences (first :: pattern) rest := by
  induction run with
  | nil => rfl
  | cons c run ih =>
      obtain ⟨hc, hrun⟩ := List.ne_and_not_mem_of_not_mem_cons h
      rw [List.cons_append, occurrences, ih hrun]
      simp [List.isPrefixOf, hc]

end ServiceHarness.Text
