import ServiceHarness.Document.Json.Reader
import ServiceHarness.Proofs.Document.Json.Strings

/-!
# Reading tokens

Which tokens lie between two cursors, and what it takes for the first of them to
be a mark or a string.
-/

namespace ServiceHarness.Document.Json

open ServiceHarness.Text

/-! ## Bytes of a token -/

def Token.first : Token → UInt8
  | mark m => m.byte
  | string _ => quoteMark

private theorem isBlank_first (t : Token) : isBlank t.first = false := by
  cases t with
  | mark m => cases m <;> rfl
  | string s => rfl

theorem Spelled.eq_first_cons {t : Token} {text : Bytes} (h : Spelled t text) :
    ∃ rest, text = t.first :: rest := by
  cases h with
  | mark m => exact ⟨[], rfl⟩
  | string _ => exact ⟨_, rfl⟩

private theorem spelled_mark_iff {m : Mark} {text : Bytes} :
    Spelled (.mark m) text ↔ text = [m.byte] := by
  constructor
  · intro h
    cases h
    rfl
  · rintro rfl
    exact .mark m

private theorem spelled_string_iff {s : String} {text : Bytes} :
    Spelled (.string s) text ↔
      ∃ content, Content content s.toList ∧ text = quoteMark :: content ++ [quoteMark] := by
  constructor
  · intro h
    cases h with
    | @string content chars hcontent =>
        exact ⟨content, by rwa [String.toList_ofList], rfl⟩
  · rintro ⟨content, hcontent, rfl⟩
    have h := Spelled.string hcontent
    rwa [String.ofList_toList] at h

/-! ## Tokens between cursors -/

namespace Cursor

/-- These tokens stand ahead of a cursor, with blanks before each, and the other
cursor is behind the last of them. -/
def Passes (c : Cursor) (ts : List Token) (c' : Cursor) : Prop :=
  ∃ used, Written ts used ∧ c.Consumes used c'

variable {c c' : Cursor} {t : Token} {ts us : List Token}

theorem passes_nil_iff : c.Passes [] c' ↔ c' = c := by
  constructor
  · rintro ⟨used, hused, h⟩
    cases hused
    exact consumes_nil_iff.mp h
  · rintro rfl
    exact ⟨[], .nil, consumes_nil_iff.mpr rfl⟩

theorem atToken_of_spelled {text : Bytes} (hspelled : Spelled t text)
    (h : c.Consumes text c') : c.AtToken ∧ c.peek? = some t.first := by
  obtain ⟨rest, rfl⟩ := hspelled.eq_first_cons
  have hpeek : c.peek? = some t.first := by simp [peek?, h.1]
  refine ⟨fun byte hbyte => ?_, hpeek⟩
  rw [hpeek] at hbyte
  cases hbyte
  exact isBlank_first t

theorem passes_cons_iff :
    c.Passes (t :: ts) c' ↔
      ∃ text m, Spelled t text ∧ c.skipBlanks.Consumes text m ∧ m.Passes ts c' := by
  constructor
  · rintro ⟨used, hused, h⟩
    cases hused with
    | @cons blanks text rest _ _ hblanks hspelled hrest =>
        rw [List.append_assoc, consumes_append_iff] at h
        obtain ⟨b, hb, h⟩ := h
        obtain ⟨m, hm, h⟩ := consumes_append_iff.mp h
        rw [skipBlanks_of_consumes hblanks hb (atToken_of_spelled hspelled hm).1]
        exact ⟨text, m, hspelled, hm, rest, hrest, h⟩
  · rintro ⟨text, m, hspelled, hm, rest, hrest, h⟩
    obtain ⟨blanks, hblanks, hb, -⟩ := c.consumes_skipBlanks
    exact ⟨_, .cons hblanks hspelled hrest, (hb.trans hm).trans h⟩

theorem passes_append_iff :
    c.Passes (ts ++ us) c' ↔ ∃ m, c.Passes ts m ∧ m.Passes us c' := by
  induction ts generalizing c with
  | nil => simp [passes_nil_iff]
  | cons t ts ih =>
      simp only [List.cons_append, passes_cons_iff, ih]
      constructor
      · rintro ⟨text, m, hspelled, hm, m', hts, hus⟩
        exact ⟨m', ⟨text, m, hspelled, hm, hts⟩, hus⟩
      · rintro ⟨m', ⟨text, m, hspelled, hm, hts⟩, hus⟩
        exact ⟨text, m, hspelled, hm, m', hts, hus⟩

theorem passes_skipBlanks_iff : c.skipBlanks.Passes (t :: ts) c' ↔ c.Passes (t :: ts) c' := by
  rw [passes_cons_iff, passes_cons_iff, skipBlanks_skipBlanks]

theorem Passes.peek?_eq (h : c.Passes (t :: ts) c') : c.skipBlanks.peek? = some t.first := by
  obtain ⟨_, _, hspelled, hm, _⟩ := passes_cons_iff.mp h
  exact (atToken_of_spelled hspelled hm).2

theorem passes_mark_iff {m : Mark} :
    c.Passes (.mark m :: ts) c' ↔
      c.skipBlanks.peek? = some m.byte ∧ c.skipBlanks.advance.Passes ts c' := by
  simp only [passes_cons_iff, spelled_mark_iff]
  constructor
  · rintro ⟨_, _, rfl, hm, h⟩
    obtain ⟨hpeek, rfl⟩ := consumes_singleton_iff.mp hm
    exact ⟨hpeek, h⟩
  · rintro ⟨hpeek, h⟩
    exact ⟨_, _, rfl, consumes_singleton_iff.mpr ⟨hpeek, rfl⟩, h⟩

theorem passes_string_iff {s : String} :
    c.Passes (.string s :: ts) c' ↔
      c.skipBlanks.peek? = some quoteMark ∧
        ∃ m, c.skipBlanks.advance.readText = .ok (s.toList, m) ∧ m.Passes ts c' := by
  simp only [passes_cons_iff, spelled_string_iff, readText_ok_iff]
  constructor
  · rintro ⟨_, m, ⟨content, hcontent, rfl⟩, hm, h⟩
    rw [List.cons_append, ← List.singleton_append, consumes_append_iff] at hm
    obtain ⟨b, hb, hm⟩ := hm
    obtain ⟨hpeek, rfl⟩ := consumes_singleton_iff.mp hb
    exact ⟨hpeek, m, ⟨content, hcontent, hm⟩, h⟩
  · rintro ⟨hpeek, m, ⟨content, hcontent, hm⟩, h⟩
    exact ⟨_, m, ⟨content, hcontent, rfl⟩,
      (consumes_singleton_iff.mpr ⟨hpeek, rfl⟩).trans hm, h⟩

theorem Passes.length_le (h : c.Passes ts c') : c'.rest.length + ts.length ≤ c.rest.length := by
  induction ts generalizing c with
  | nil =>
      rw [passes_nil_iff.mp h]
      exact Nat.le_refl _
  | cons t ts ih =>
      obtain ⟨text, m, hspelled, hm, hts⟩ := passes_cons_iff.mp h
      obtain ⟨blanks, -, hb, -⟩ := c.consumes_skipBlanks
      obtain ⟨rest, rfl⟩ := hspelled.eq_first_cons
      have hblanks := hb.length
      have htext := hm.length
      have hrest := ih hts
      simp only [List.length_cons] at htext ⊢
      omega

end Cursor

end ServiceHarness.Document.Json
