import Mathlib.Data.List.Forall2
import ServiceHarness.Service.Basic
import ServiceHarness.Text.Utf8

/-!
# Tabular documents

TOML documents of one form: lines that assign basic strings to bare keys, first
those of the service, then a section for each method.  What such a document
describes is said without a reader.
-/

namespace ServiceHarness.Document.Toml

open ServiceHarness.Text

/-! ## Basic strings -/

def shortEscapes : List (Char × Char) :=
  [('b', '\x08'), ('t', '\t'), ('n', '\n'), ('f', '\x0c'), ('r', '\r'), ('e', '\x1b'), ('"', '"'),
    ('\\', '\\')]

def codeEscapes : List (Char × Nat) := [('x', 2), ('u', 4), ('U', 8)]

inductive HexDigit : Char → Nat → Prop
  | decimal {c : Char} {n : Nat} : n < 10 → c.toNat = 0x30 + n → HexDigit c n
  | upper {c : Char} {n : Nat} : n < 6 → c.toNat = 0x41 + n → HexDigit c (10 + n)
  | lower {c : Char} {n : Nat} : n < 6 → c.toNat = 0x61 + n → HexDigit c (10 + n)

inductive HexNumber : List Char → Nat → Prop
  | nil : HexNumber [] 0
  | snoc {digits : List Char} {c : Char} {n d : Nat} :
      HexNumber digits n → HexDigit c d → HexNumber (digits ++ [c]) (n * 16 + d)

def IsPlain (c : Char) : Prop :=
  (c = '\t' ∨ 0x20 ≤ c.toNat ∧ c.toNat ≠ 0x7F) ∧ c ≠ '"' ∧ c ≠ '\\'

theorem IsPlain.ne_newline {c : Char} (h : IsPlain c) : c ≠ '\n' := by
  rintro rfl
  exact absurd h.1 (by decide)

theorem HexDigit.isPlain {c : Char} {n : Nat} (h : HexDigit c n) : IsPlain c := by
  have hrange : 0x30 ≤ c.toNat ∧ c.toNat < 0x3A ∨ 0x41 ≤ c.toNat ∧ c.toNat < 0x47 ∨
      0x61 ≤ c.toNat ∧ c.toNat < 0x67 := by
    cases h <;> omega
  refine ⟨.inr (by omega), ?_, ?_⟩
  · rintro rfl
    exact absurd hrange (by decide)
  · rintro rfl
    exact absurd hrange (by decide)

theorem HexNumber.isPlain {digits : List Char} {n : Nat} (h : HexNumber digits n) :
    ∀ c ∈ digits, IsPlain c := by
  induction h with
  | nil => simp
  | snoc _ hdigit ih =>
      intro c hc
      rcases List.mem_append.mp hc with hc | hc
      · exact ih c hc
      · rw [List.mem_singleton.mp hc]
        exact hdigit.isPlain

/-- A character of a basic string and the ways to write it. -/
inductive Letter : List Char → Char → Prop
  | plain {c : Char} : IsPlain c → Letter [c] c
  | short {mark c : Char} : (mark, c) ∈ shortEscapes → Letter ['\\', mark] c
  | code {mark : Char} {digits : List Char} {n : Nat} :
      (mark, digits.length) ∈ codeEscapes → HexNumber digits n → n.isValidChar →
      Letter ('\\' :: mark :: digits) (Char.ofNat n)

/-- What stands between the quotes of a basic string. -/
inductive Content : List Char → List Char → Prop
  | nil : Content [] []
  | cons {written rest : List Char} {c : Char} {chars : List Char} :
      Letter written c → Content rest chars → Content (written ++ rest) (c :: chars)

structure BasicString where
  written : List Char
  value : List Char
  content : Content written value

def BasicString.chars (text : BasicString) : List Char := '"' :: text.written ++ ['"']

/-! ## Lines -/

def IsBare (c : Char) : Prop := c.isAlphanum = true ∨ c = '-' ∨ c = '_'

structure BareKey where
  chars : List Char
  nonempty : chars ≠ []
  bare : ∀ c ∈ chars, IsBare c

def IsGap (c : Char) : Prop := c = ' ' ∨ c = '\t'

inductive Line where
  | blank (gap : List Char) (isGap : ∀ c ∈ gap, IsGap c)
  | assign (key : BareKey) (text : BasicString)

def Line.chars : Line → List Char
  | blank gap _ => gap ++ ['\n']
  | assign key text => key.chars ++ " = ".toList ++ text.chars ++ ['\n']

/-- A line above the sections, which may also say that there are no methods. -/
inductive TopLine where
  | line (l : Line)
  | noMethods

def TopLine.chars : TopLine → List Char
  | line l => l.chars
  | noMethods => "methods = []\n".toList

/-- Each section is opened by a line of its own. -/
structure Tabular where
  top : List TopLine
  sections : List (List Line)

def sectionChars (lines : List Line) : List Char :=
  "[[methods]]\n".toList ++ lines.flatMap Line.chars

def Tabular.chars (doc : Tabular) : List Char :=
  doc.top.flatMap TopLine.chars ++ doc.sections.flatMap sectionChars

def Tabular.bytes (doc : Tabular) : Bytes := Utf8.encode doc.chars

/-! ## Descriptions -/

def Line.pair? : Line → Option (String × String)
  | blank _ _ => none
  | assign key text => some (String.ofList key.chars, String.ofList text.value)

def TopLine.pair? : TopLine → Option (String × String)
  | line l => l.pair?
  | noMethods => none

def TopLine.isNoMethods : TopLine → Bool
  | line _ => false
  | noMethods => true

def serviceTexts (s : Service) : List (String × String) :=
  [("package", s.package), ("service", s.name)]

def methodTexts (m : Method) : List (String × String) :=
  [("name", m.name), ("request_type", m.request), ("response_type", m.response)]

/-- The keys and texts of a section are those of a method, in any order. -/
def DescribesMethod (m : Method) (lines : List Line) : Prop :=
  (lines.filterMap Line.pair?).Perm (methodTexts m)

structure Tabular.Describes (doc : Tabular) (s : Service) : Prop where
  texts : (doc.top.filterMap TopLine.pair?).Perm (serviceTexts s)
  /-- The methods are either said to be none, once, or given by sections. -/
  methods : (doc.top.countP TopLine.isNoMethods = 1 ∧ doc.sections = []) ∨
    (doc.top.countP TopLine.isNoMethods = 0 ∧ doc.sections ≠ [])
  sections : List.Forall₂ DescribesMethod s.methods doc.sections

end ServiceHarness.Document.Toml
