import Mathlib.Computability.Language
import ServiceHarness.Proofs.Go.Lexer
import ServiceHarness.Proofs.Go.Literals

/-!
# The lexical grammar of Go

The texts of each kind of token as a language, rule by rule, and the reading of a text:
behind blanks stands the longest text that is a token.  Of Unicode, the grammar takes the
classes of letters and digits; they are parameters, and only their part in ASCII is
fixed.  Comments are read like tokens, and the semicolons that ends of lines stand for
are left out.
-/

namespace ServiceHarness.Go

open scoped Computability

/-- The characters that words consist of. -/
structure Alphabet where
  isLetter : Char → Prop
  isDigit : Char → Prop
  letter_ascii : ∀ c, c.toNat < 0x80 → (isLetter c ↔ c.isAlpha = true)
  digit_ascii : ∀ c, c.toNat < 0x80 → (isDigit c ↔ c.isDigit = true)

namespace Alphabet

def ascii : Alphabet where
  isLetter c := c.isAlpha = true
  isDigit c := c.isDigit = true
  letter_ascii _ _ := Iff.rfl
  digit_ascii _ _ := Iff.rfl

variable (A : Alphabet)

def Starts (c : Char) : Prop := A.isLetter c ∨ c = '_'

def Continues (c : Char) : Prop := A.Starts c ∨ A.isDigit c

end Alphabet

namespace Grammar

def single (p : Char → Prop) : Language Char := {text | ∃ c, p c ∧ text = [c]}

def oneOf (chars : String) : Language Char := single (· ∈ chars.toList)

def optional (L : Language Char) : Language Char := 1 + L

/-! ## Words -/

def word (A : Alphabet) : Language Char := single A.Starts * (single A.Continues)∗

def reserved : Language Char := {text | ∃ name ∈ reservedWords, text = name.toList}

/-! ## Numbers -/

def separated (digit : Language Char) : Language Char :=
  digit * (optional (oneOf "_") * digit)∗

def decimalDigits : Language Char := separated (oneOf "0123456789")

def binaryDigits : Language Char := separated (oneOf "01")

def octalDigits : Language Char := separated (oneOf "01234567")

def hexDigits : Language Char := separated (oneOf "0123456789abcdefABCDEF")

def integer : Language Char :=
  oneOf "0" + oneOf "123456789" * optional (optional (oneOf "_") * decimalDigits) +
    oneOf "0" * oneOf "bB" * optional (oneOf "_") * binaryDigits +
    oneOf "0" * optional (oneOf "oO") * optional (oneOf "_") * octalDigits +
    oneOf "0" * oneOf "xX" * optional (oneOf "_") * hexDigits

def exponent (marks : String) : Language Char :=
  oneOf marks * optional (oneOf "+-") * decimalDigits

def hexMantissa : Language Char :=
  optional (oneOf "_") * hexDigits * oneOf "." * optional hexDigits +
    optional (oneOf "_") * hexDigits + oneOf "." * hexDigits

def float : Language Char :=
  decimalDigits * oneOf "." * optional decimalDigits * optional (exponent "eE") +
    decimalDigits * exponent "eE" +
    oneOf "." * decimalDigits * optional (exponent "eE") +
    oneOf "0" * oneOf "xX" * hexMantissa * exponent "pP"

def number : Language Char :=
  integer + float + (decimalDigits + integer + float) * oneOf "i"

/-! ## Texts -/

def rune : Language Char :=
  {text | ∃ element value, Element '\x27' element value ∧ text = '\x27' :: element ++ ['\x27']}

def interpreted : Language Char := {text | ∃ value, StringLiteral text value}

def raw : Language Char := {text | ∃ body, '\x60' ∉ body ∧ text = '\x60' :: body ++ ['\x60']}

def lineComment : Language Char := {text | ∃ body, '\n' ∉ body ∧ text = '/' :: '/' :: body}

def blockComment : Language Char :=
  {text | ∃ body, ¬['*', '/'] <:+: body ∧ text = '/' :: '*' :: body ++ ['*', '/']}

/-! ## Tokens -/

inductive Category where
  | identifier
  | keyword
  | operator
  | number
  | rune
  | string
  | comment
  deriving DecidableEq, Repr

/-- The texts of a category. -/
def lexemes (A : Alphabet) : Category → Language Char
  | .identifier => word A - reserved
  | .keyword => reserved
  | .operator => {text | text ∈ operators}
  | .number => number
  | .rune => rune
  | .string => interpreted + raw
  | .comment => lineComment + blockComment

/-- A text is read as items.  What begins like a block comment is nothing else, also if
the comment does not end. -/
inductive Reads (A : Alphabet) : List Char → List (Category × List Char) → Prop
  | nil : Reads A [] []
  | blank {c : Char} {rest : List Char} {items : List (Category × List Char)} :
      isBlank c = true → Reads A rest items → Reads A (c :: rest) items
  | item {category : Category} {lexeme rest : List Char} {items : List (Category × List Char)} :
      lexeme ∈ lexemes A category →
      (∀ other, ∀ longer ∈ lexemes A other, longer <+: lexeme ++ rest →
        longer.length ≤ lexeme.length) →
      (['/', '*'] <+: lexeme ++ rest → category = .comment) →
      Reads A rest items → Reads A (lexeme ++ rest) ((category, lexeme) :: items)

variable {A : Alphabet} {p : Char → Prop} {L M : Language Char} {text : List Char}

/-! ## First characters -/

def Begins (p : Char → Prop) (L : Language Char) : Prop :=
  ∀ text ∈ L, ∃ c rest, text = c :: rest ∧ p c

theorem Begins.add (hL : Begins p L) (hM : Begins p M) : Begins p (L + M) := by
  intro text htext
  rcases htext with h | h
  · exact hL text h
  · exact hM text h

theorem Begins.mul (hL : Begins p L) (M : Language Char) : Begins p (L * M) := by
  intro text htext
  obtain ⟨front, hfront, back, -, rfl⟩ := Language.mem_mul.mp htext
  obtain ⟨c, rest, rfl, hc⟩ := hL front hfront
  exact ⟨c, rest ++ back, rfl, hc⟩

private theorem begins_oneOf [DecidablePred p] {chars : String}
    (h : chars.toList.all (p ·) = true) :
    Begins p (oneOf chars) := by
  rintro text ⟨c, hc, rfl⟩
  exact ⟨c, [], rfl, decide_eq_true_iff.mp (List.all_eq_true.mp h c hc)⟩

def IsMark (c : Char) : Prop :=
  c.toNat < 0x80 ∧ c.isAlpha = false ∧ c ≠ '_'

instance : DecidablePred IsMark :=
  fun _ => inferInstanceAs (Decidable (_ ∧ _))

private theorem begins_number : Begins IsMark number := by
  have hdecimal : Begins IsMark decimalDigits := (begins_oneOf (by decide)).mul _
  have hzero : Begins IsMark (oneOf "0") := begins_oneOf (by decide)
  have hpositive : Begins IsMark (oneOf "123456789") := begins_oneOf (by decide)
  have hpoint : Begins IsMark (oneOf ".") := begins_oneOf (by decide)
  have hinteger : Begins IsMark integer :=
    (((hzero.add (hpositive.mul _)).add (((hzero.mul _).mul _).mul _)).add
      (((hzero.mul _).mul _).mul _)).add (((hzero.mul _).mul _).mul _)
  have hfloat : Begins IsMark float :=
    (((((hdecimal.mul _).mul _).mul _).add (hdecimal.mul _)).add ((hpoint.mul _).mul _)).add
      (((hzero.mul _).mul _).mul _)
  exact (hinteger.add hfloat).add (((hdecimal.add hinteger).add hfloat).mul _)

theorem begins_of_not_word {category : Category} (hidentifier : category ≠ .identifier)
    (hkeyword : category ≠ .keyword) : Begins IsMark (lexemes A category) := by
  intro text htext
  cases category with
  | identifier => contradiction
  | keyword => contradiction
  | operator =>
      have hoperators : ∀ operator ∈ operators, operator.head?.any (IsMark ·) = true := by
        decide
      obtain ⟨c, hhead, hc⟩ := (Option.any_eq_true _ _).mp (hoperators text htext)
      obtain ⟨rest, rfl⟩ := List.head?_eq_some_iff.mp hhead
      exact ⟨c, rest, rfl, decide_eq_true_iff.mp hc⟩
  | number => exact begins_number text htext
  | rune =>
      obtain ⟨element, value, -, rfl⟩ := htext
      exact ⟨_, _, rfl, by decide⟩
  | string =>
      rcases htext with ⟨value, content, -, rfl⟩ | ⟨body, -, rfl⟩
      · exact ⟨_, _, rfl, by decide⟩
      · exact ⟨_, _, rfl, by decide⟩
  | comment =>
      rcases htext with ⟨body, -, rfl⟩ | ⟨body, -, rfl⟩
      · exact ⟨_, _, rfl, by decide⟩
      · exact ⟨_, _, rfl, by decide⟩

/-! ## Words are read whole -/

theorem mem_word_iff : text ∈ word A ↔
    ∃ first rest, text = first :: rest ∧ A.Starts first ∧ ∀ c ∈ rest, A.Continues c := by
  simp only [word, Language.mem_mul, Language.mem_kstar]
  constructor
  · rintro ⟨front, ⟨first, hfirst, rfl⟩, back, ⟨parts, rfl, hparts⟩, rfl⟩
    refine ⟨first, parts.flatten, rfl, hfirst, fun c hc => ?_⟩
    obtain ⟨part, hpart, hmem⟩ := List.mem_flatten.mp hc
    obtain ⟨d, hd, rfl⟩ := hparts part hpart
    exact List.mem_singleton.mp hmem ▸ hd
  · rintro ⟨first, rest, rfl, hfirst, hrest⟩
    refine ⟨[first], ⟨first, hfirst, rfl⟩, rest, ⟨rest.map fun c => [c],
      (List.flatMap_singleton' rest).symm, fun part hpart => ?_⟩, rfl⟩
    obtain ⟨c, hc, rfl⟩ := List.mem_map.mp hpart
    exact ⟨c, hrest c hc, rfl⟩

private theorem not_isMark_of_starts {c : Char} (h : A.Starts c) : ¬IsMark c := by
  rintro ⟨hascii, halpha, hunderscore⟩
  rcases h with hletter | hc
  · rw [(A.letter_ascii c hascii).mp hletter] at halpha
    contradiction
  · exact hunderscore hc

private theorem isMark_of_isBlank {c : Char} (h : isBlank c = true) : IsMark c := by
  simp only [isBlank, Bool.or_eq_true, beq_iff_eq] at h
  rcases h with ((rfl | rfl) | rfl) | rfl
  all_goals decide

private theorem ne_nil_of_mem_lexemes {category : Category} (h : text ∈ lexemes A category) :
    text ≠ [] := by
  rintro rfl
  by_cases hidentifier : category = .identifier
  · subst hidentifier
    obtain ⟨first, rest, hnil, -⟩ := mem_word_iff.mp h.1
    contradiction
  · by_cases hkeyword : category = .keyword
    · subst hkeyword
      obtain ⟨name, hname, hnil⟩ := h
      have hnames : ∀ name ∈ reservedWords, [] ≠ name.toList := by decide
      exact hnames name hname hnil
    · obtain ⟨c, rest, hnil, -⟩ := begins_of_not_word hidentifier hkeyword [] h
      contradiction

theorem Reads.mem_lexemes {items : List (Category × List Char)} (h : Reads A text items) :
    ∀ item ∈ items, item.2 ∈ lexemes A item.1 := by
  induction h with
  | nil => exact List.forall_mem_nil _
  | blank _ _ ih => exact ih
  | item hlexeme _ _ _ ih => exact List.forall_mem_cons.mpr ⟨hlexeme, ih⟩

private theorem Reads.eq_nil {items : List (Category × List Char)} (h : Reads A [] items) :
    items = [] := by
  generalize htext : [] = text at h
  cases h with
  | nil => rfl
  | blank => contradiction
  | item hlexeme =>
      exact absurd (List.append_eq_nil_iff.mp htext.symm).1 (ne_nil_of_mem_lexemes hlexeme)

theorem reads_identifier_iff :
    (∀ items, Reads A text items ↔ items = [(.identifier, text)]) ↔
      text ∈ lexemes A .identifier := by
  constructor
  · intro h
    exact ((h _).mpr rfl).mem_lexemes _ List.mem_cons_self
  · intro h items
    obtain ⟨first, rest, htext, hfirst, -⟩ := mem_word_iff.mp h.1
    have hmark := not_isMark_of_starts hfirst
    constructor
    · intro hreads
      cases hreads with
      | nil => contradiction
      | blank hblank _ =>
          obtain ⟨rfl, -⟩ := List.cons.inj htext
          exact absurd (isMark_of_isBlank hblank) hmark
      | @item category lexeme after items hlexeme hlongest _ hafter =>
          have hlength := hlongest .identifier _ h List.prefix_rfl
          rw [List.length_append] at hlength
          obtain rfl : after = [] := List.eq_nil_of_length_eq_zero (by omega)
          rw [List.append_nil] at h htext ⊢
          rw [hafter.eq_nil]
          by_cases hidentifier : category = .identifier
          · rw [hidentifier]
          · by_cases hkeyword : category = .keyword
            · subst hkeyword
              exact absurd hlexeme h.2
            · obtain ⟨c, later, hc, hmark'⟩ := begins_of_not_word hidentifier hkeyword _ hlexeme
              rw [htext] at hc
              obtain ⟨rfl, -⟩ := List.cons.inj hc
              exact absurd hmark' hmark
    · rintro rfl
      have hread : Reads A (text ++ []) [(.identifier, text)] := by
        refine .item h (fun other longer _ hprefix => ?_) (fun hslash => ?_) .nil
        · rw [List.append_nil] at hprefix
          exact hprefix.length_le
        · rw [List.append_nil, htext] at hslash
          obtain ⟨rfl, -⟩ := List.cons_prefix_cons.mp hslash
          exact absurd (by decide) hmark
      rwa [List.append_nil] at hread

end Grammar

end ServiceHarness.Go
