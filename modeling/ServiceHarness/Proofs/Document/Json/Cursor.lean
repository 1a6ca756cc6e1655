import ServiceHarness.Document.Json.Cursor
import ServiceHarness.Proofs.Document.Json.Grammar

/-!
# Moving a cursor

Which bytes lie between two cursors.  A cursor that has moved knows what is left
and where it stands, so that the bytes in between determine it.
-/

namespace ServiceHarness.Document.Json

open ServiceHarness.Text

theorem isBlank_iff {byte : UInt8} :
    isBlank byte = true ↔ byte ∈ ([0x20, 0x09, 0x0A, 0x0D] : Bytes) := by
  simp [isBlank, or_assoc, or_left_comm]

namespace Cursor

/-- These bytes stand ahead of a cursor, and the other cursor is behind them. -/
def Consumes (c : Cursor) (bytes : Bytes) (c' : Cursor) : Prop :=
  c.rest = bytes ++ c'.rest ∧ c'.position = bytes.foldl Position.after c.position

variable {c c₁ c₂ : Cursor} {u v : Bytes}

theorem consumes_nil_iff : c.Consumes [] c₁ ↔ c₁ = c := by
  obtain ⟨rest, position⟩ := c
  obtain ⟨rest₁, position₁⟩ := c₁
  simp [Consumes, eq_comm]

theorem Consumes.trans (h : c.Consumes u c₁) (h' : c₁.Consumes v c₂) :
    c.Consumes (u ++ v) c₂ := by
  obtain ⟨hrest, hposition⟩ := h
  obtain ⟨hrest', hposition'⟩ := h'
  exact ⟨by rw [hrest, hrest', List.append_assoc],
    by rw [hposition', hposition, List.foldl_append]⟩

theorem consumes_append_iff :
    c.Consumes (u ++ v) c₂ ↔ ∃ m, c.Consumes u m ∧ m.Consumes v c₂ := by
  constructor
  · rintro ⟨hrest, hposition⟩
    exact ⟨⟨v ++ c₂.rest, u.foldl Position.after c.position⟩,
      ⟨by rw [hrest, List.append_assoc], rfl⟩, rfl, by rw [hposition, List.foldl_append]⟩
  · rintro ⟨m, h, h'⟩
    exact h.trans h'

theorem Consumes.length (h : c.Consumes u c₁) : c.rest.length = u.length + c₁.rest.length := by
  rw [h.1, List.length_append]

theorem consumes_singleton_iff {byte : UInt8} :
    c.Consumes [byte] c₁ ↔ c.peek? = some byte ∧ c₁ = c.advance := by
  obtain ⟨rest, position⟩ := c
  obtain ⟨rest₁, position₁⟩ := c₁
  cases rest with
  | nil => simp [Consumes, peek?]
  | cons first rest =>
      simp only [Consumes, peek?, advance, List.singleton_append, List.cons.injEq,
        List.head?_cons, Option.some.injEq, List.foldl_cons, List.foldl_nil, mk.injEq]
      constructor
      · rintro ⟨⟨rfl, rfl⟩, rfl⟩
        exact ⟨rfl, rfl, rfl⟩
      · rintro ⟨rfl, rfl, rfl⟩
        exact ⟨⟨rfl, rfl⟩, rfl⟩

theorem length_advance_le (c : Cursor) : c.advance.rest.length ≤ c.rest.length := by
  obtain ⟨rest, position⟩ := c
  cases rest with
  | nil => exact Nat.le_refl _
  | cons byte rest => exact Nat.le_succ _

/-! ## Blanks -/

def AtToken (c : Cursor) : Prop := ∀ byte, c.peek? = some byte → isBlank byte = false

theorem consumes_skipBlanks (c : Cursor) :
    ∃ blanks, Blank blanks ∧ c.Consumes blanks c.skipBlanks ∧ c.skipBlanks.AtToken := by
  obtain ⟨rest, position⟩ := c
  induction rest generalizing position with
  | nil =>
      refine ⟨[], by simp [Blank], consumes_nil_iff.mpr rfl, ?_⟩
      simp [AtToken, peek?, skipBlanks, skipBlanksFrom]
  | cons byte rest ih =>
      by_cases hblank : isBlank byte = true
      · obtain ⟨blanks, hblanks, hconsumes, hat⟩ := ih (position.after byte)
        have hskip : skipBlanks ⟨byte :: rest, position⟩ =
            skipBlanks ⟨rest, position.after byte⟩ := by
          simp [skipBlanks, skipBlanksFrom, hblank]
        rw [hskip]
        refine ⟨byte :: blanks, ?_, ?_, hat⟩
        · exact List.forall_mem_cons.mpr ⟨isBlank_iff.mp hblank, hblanks⟩
        · exact (consumes_singleton_iff.mpr ⟨rfl, rfl⟩).trans hconsumes
      · have hskip : skipBlanks ⟨byte :: rest, position⟩ = ⟨byte :: rest, position⟩ := by
          simp [skipBlanks, skipBlanksFrom, hblank]
        rw [hskip]
        refine ⟨[], by simp [Blank], consumes_nil_iff.mpr rfl, ?_⟩
        intro first hfirst
        cases hfirst
        exact Bool.eq_false_iff.mpr hblank

theorem skipBlanks_of_atToken (h : c.AtToken) : c.skipBlanks = c := by
  obtain ⟨rest, position⟩ := c
  cases rest with
  | nil => rfl
  | cons byte rest => simp [skipBlanks, skipBlanksFrom, h byte rfl]

theorem skipBlanks_of_consumes (hblank : Blank u) (h : c.Consumes u c₁) (hat : c₁.AtToken) :
    c.skipBlanks = c₁ := by
  obtain ⟨rest, position⟩ := c
  induction u generalizing rest position with
  | nil =>
      rw [consumes_nil_iff.mp h] at hat ⊢
      exact skipBlanks_of_atToken hat
  | cons byte u ih =>
      obtain ⟨hbyte, hrest⟩ := List.forall_mem_cons.mp hblank
      rw [← List.singleton_append, consumes_append_iff] at h
      obtain ⟨m, hfirst, hlater⟩ := h
      obtain ⟨hpeek, rfl⟩ := consumes_singleton_iff.mp hfirst
      cases rest with
      | nil => cases hpeek
      | cons first rest =>
          cases hpeek
          have hskip := ih hrest _ _ hlater
          simpa [skipBlanks, skipBlanksFrom, isBlank_iff.mpr hbyte] using hskip

theorem skipBlanks_skipBlanks (c : Cursor) : c.skipBlanks.skipBlanks = c.skipBlanks := by
  obtain ⟨_, _, _, hat⟩ := c.consumes_skipBlanks
  exact skipBlanks_of_atToken hat

theorem rest_skipBlanks_eq_nil_iff : c.skipBlanks.rest = [] ↔ Blank c.rest := by
  constructor
  · intro h
    obtain ⟨blanks, hblanks, hconsumes, -⟩ := c.consumes_skipBlanks
    rwa [hconsumes.1, h, List.append_nil]
  · intro hblank
    have hend : c.Consumes c.rest ⟨[], c.rest.foldl Position.after c.position⟩ :=
      ⟨by rw [List.append_nil], rfl⟩
    rw [skipBlanks_of_consumes hblank hend (by simp [AtToken, peek?])]

theorem length_skipBlanks_le (c : Cursor) : c.skipBlanks.rest.length ≤ c.rest.length := by
  obtain ⟨blanks, _, hconsumes, _⟩ := c.consumes_skipBlanks
  have := hconsumes.length
  omega

end Cursor

end ServiceHarness.Document.Json
