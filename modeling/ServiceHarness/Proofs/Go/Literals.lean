import ServiceHarness.Proofs.Text.Decoding
import ServiceHarness.Proofs.Text.Quoting

/-!
# Literals of Go

What may stand between the quotes of a literal, and the bytes that it stands for.  A
literal is recognised in front of any text: it ends where its first quote without a
backslash stands, and its value is determined.  Quoted text is such a literal and
stands for itself.
-/

namespace ServiceHarness.Go

open ServiceHarness.Text

def commonEscapes : List (Char × Char) :=
  [('a', '\x07'), ('b', '\x08'), ('f', '\x0c'), ('n', '\n'), ('r', '\r'), ('t', '\t'),
    ('v', '\x0b'), ('\\', '\\')]

def digitValue? (c : Char) : Option Nat :=
  if '0' ≤ c ∧ c ≤ '9' then some (c.toNat - 48)
  else if 'a' ≤ c ∧ c ≤ 'f' then some (c.toNat - 87)
  else if 'A' ≤ c ∧ c ≤ 'F' then some (c.toNat - 55)
  else none

def numeral? (base : Nat) (digits : List Char) : Option Nat :=
  digits.foldlM (fun n c => (digitValue? c).bind fun d =>
    if d < base then some (n * base + d) else none) 0

/-- One character between quotes, or one escape, and its bytes.  The quote of the
literal can be escaped and the other kind of quote cannot; numbers in base eight, and of
two digits in base sixteen, are those of bytes. -/
inductive Element (quote : Char) : List Char → Bytes → Prop
  | plain {c : Char} : c ≠ '\n' → c ≠ quote → c ≠ '\\' → Element quote [c] (Utf8.encode [c])
  | simple {mark c : Char} : (mark, c) ∈ (quote, quote) :: commonEscapes →
      Element quote ['\\', mark] (Utf8.encode [c])
  | octal {digits : List Char} {n : Nat} : digits.length = 3 → numeral? 8 digits = some n →
      n < 256 → Element quote ('\\' :: digits) [UInt8.ofNat n]
  | hex {digits : List Char} {n : Nat} : digits.length = 2 → numeral? 16 digits = some n →
      n < 256 → Element quote ('\\' :: 'x' :: digits) [UInt8.ofNat n]
  | short {digits : List Char} {c : Char} : digits.length = 4 →
      numeral? 16 digits = some c.toNat → Element quote ('\\' :: 'u' :: digits) (Utf8.encode [c])
  | long {digits : List Char} {c : Char} : digits.length = 8 →
      numeral? 16 digits = some c.toNat → Element quote ('\\' :: 'U' :: digits) (Utf8.encode [c])

inductive Elements (quote : Char) : List Char → Bytes → Prop
  | nil : Elements quote [] []
  | cons {element content : List Char} {bytes value : Bytes} : Element quote element bytes →
      Elements quote content value → Elements quote (element ++ content) (bytes ++ value)

/-- An interpreted string literal and the bytes of the string. -/
def StringLiteral (source : List Char) (value : Bytes) : Prop :=
  ∃ content, Elements '"' content value ∧ source = '"' :: content ++ ['"']

/-! ## Reading an element -/

def readNumeral? (base count : Nat) (text : List Char) : Option (Nat × List Char) :=
  if count ≤ text.length then (numeral? base (text.take count)).map (·, text.drop count) else none

def readByte? (base count : Nat) (text : List Char) : Option (Bytes × List Char) :=
  (readNumeral? base count text).bind fun (n, rest) =>
    if n < 256 then some ([UInt8.ofNat n], rest) else none

def readCharacter? (count : Nat) (text : List Char) : Option (Bytes × List Char) :=
  (readNumeral? 16 count text).bind fun (n, rest) =>
    if (Char.ofNat n).toNat = n then some (Utf8.encode [Char.ofNat n], rest) else none

def readEscape? : List Char → Option (Bytes × List Char)
  | [] => none
  | mark :: rest =>
      match (('"', '"') :: commonEscapes).lookup mark with
      | some c => some (Utf8.encode [c], rest)
      | none =>
          if mark = 'x' then readByte? 16 2 rest
          else if mark = 'u' then readCharacter? 4 rest
          else if mark = 'U' then readCharacter? 8 rest
          else readByte? 8 3 (mark :: rest)

def readElement? : List Char → Option (Bytes × List Char)
  | [] => none
  | c :: rest =>
      if c = '\\' then readEscape? rest
      else if c = '\n' ∨ c = '"' then none
      else some (Utf8.encode [c], rest)

private theorem readNumeral?_append {base count n : Nat} {digits : List Char}
    (hlength : digits.length = count) (hdigits : numeral? base digits = some n)
    (rest : List Char) : readNumeral? base count (digits ++ rest) = some (n, rest) := by
  subst hlength
  simp [readNumeral?, hdigits]

private theorem readByte?_append {base count n : Nat} {digits : List Char}
    (hlength : digits.length = count) (hdigits : numeral? base digits = some n) (hn : n < 256)
    (rest : List Char) :
    readByte? base count (digits ++ rest) = some ([UInt8.ofNat n], rest) := by
  simp [readByte?, readNumeral?_append hlength hdigits, hn]

private theorem readCharacter?_append {count : Nat} {c : Char} {digits : List Char}
    (hlength : digits.length = count) (hdigits : numeral? 16 digits = some c.toNat)
    (rest : List Char) :
    readCharacter? count (digits ++ rest) = some (Utf8.encode [c], rest) := by
  simp [readCharacter?, readNumeral?_append hlength hdigits]

private theorem readEscape?_octal {mark : Char} {digits : List Char} {n : Nat}
    (hdigits : numeral? 8 (mark :: digits) = some n) (rest : List Char) :
    readEscape? (mark :: rest) = readByte? 8 3 (mark :: rest) := by
  have hoctal : (digitValue? mark).any (· < 8) = true := by
    rw [numeral?, List.foldlM_cons] at hdigits
    obtain ⟨first, hfirst, -⟩ := Option.bind_eq_some_iff.mp hdigits
    obtain ⟨d, hd, hlt⟩ := Option.bind_eq_some_iff.mp hfirst
    rw [hd, Option.any_some]
    exact decide_eq_true (Option.ite_none_right_eq_some.mp hlt).1
  have hne : ∀ c, (digitValue? c).any (· < 8) = false → mark ≠ c := by
    rintro c hc rfl
    rw [hoctal] at hc
    contradiction
  have hmarks : ∀ escape ∈ ('"', '"') :: commonEscapes,
      (digitValue? escape.1).any (· < 8) = false := by
    decide
  have hlookup : (('"', '"') :: commonEscapes).lookup mark = none :=
    List.lookup_eq_none_iff.mpr fun escape hescape => by
      simpa using hne _ (hmarks escape hescape)
  simp only [readEscape?, hlookup]
  rw [if_neg (hne 'x' (by decide)), if_neg (hne 'u' (by decide)), if_neg (hne 'U' (by decide))]

theorem readElement?_append {element : List Char} {bytes : Bytes} (h : Element '"' element bytes)
    (rest : List Char) : readElement? (element ++ rest) = some (bytes, rest) := by
  cases h with
  | plain hnewline hquote hbackslash => simp [readElement?, hnewline, hquote, hbackslash]
  | @simple mark c hmem =>
      have hlookup : ∀ escape ∈ ('"', '"') :: commonEscapes,
          (('"', '"') :: commonEscapes).lookup escape.1 = some escape.2 := by
        decide
      have hmark := hlookup _ hmem
      simp only at hmark
      simp [readElement?, readEscape?, hmark]
  | @octal digits n hlength hdigits hn =>
      cases digits with
      | nil => contradiction
      | cons mark digits =>
          have hread := readByte?_append hlength hdigits hn rest
          rw [List.cons_append, ← readEscape?_octal hdigits] at hread
          exact hread
  | hex hlength hdigits hn =>
      exact readByte?_append hlength hdigits hn rest
  | short hlength hdigits =>
      exact readCharacter?_append hlength hdigits rest
  | long hlength hdigits =>
      exact readCharacter?_append hlength hdigits rest

/-! ## The end of a literal -/

theorem Element.unique {element element' after after' : List Char} {bytes bytes' : Bytes}
    (h : Element '"' element bytes) (h' : Element '"' element' bytes')
    (heq : element ++ after = element' ++ after') :
    element = element' ∧ bytes = bytes' ∧ after = after' := by
  have hread := readElement?_append h after
  rw [heq, readElement?_append h' after'] at hread
  cases hread
  exact ⟨List.append_cancel_right heq, rfl, rfl⟩

theorem Element.ne_quote {element : List Char} {bytes : Bytes} (h : Element '"' element bytes)
    (after rest : List Char) : '"' :: rest ≠ element ++ after := by
  intro heq
  have hread := readElement?_append h after
  rw [← heq] at hread
  cases hread

theorem Elements.unique {content content' after after' : List Char} {value value' : Bytes}
    (h : Elements '"' content value) (h' : Elements '"' content' value')
    (heq : content ++ '"' :: after = content' ++ '"' :: after') :
    content = content' ∧ value = value' ∧ after = after' := by
  induction h generalizing content' value' with
  | nil =>
      cases h' with
      | nil => exact ⟨rfl, rfl, List.tail_eq_of_cons_eq heq⟩
      | cons helement _ =>
          rw [List.append_assoc] at heq
          exact absurd heq (helement.ne_quote _ _)
  | cons helement _ ih =>
      cases h' with
      | nil =>
          rw [List.append_assoc] at heq
          exact absurd heq.symm (helement.ne_quote _ _)
      | cons helement' hcontent' =>
          rw [List.append_assoc, List.append_assoc] at heq
          obtain ⟨rfl, rfl, hrest⟩ := helement.unique helement' heq
          obtain ⟨rfl, rfl, hafter⟩ := ih hcontent' hrest
          exact ⟨rfl, rfl, hafter⟩

theorem StringLiteral.unique {source source' after after' : List Char} {value value' : Bytes}
    (h : StringLiteral source value) (h' : StringLiteral source' value')
    (heq : source ++ after = source' ++ after') :
    source = source' ∧ value = value' ∧ after = after' := by
  obtain ⟨content, hcontent, rfl⟩ := h
  obtain ⟨content', hcontent', rfl⟩ := h'
  have hinner : content ++ '"' :: after = content' ++ '"' :: after' := by
    simpa using heq
  obtain ⟨rfl, rfl, rfl⟩ := hcontent.unique hcontent' hinner
  exact ⟨rfl, rfl, rfl⟩

/-! ## Quoted text -/

private theorem numeral?_hexDigits {n : Nat} (h : n < 0x20) :
    numeral? 16 ['0', '0', Quoted.hexDigit (n / 16), Quoted.hexDigit (n % 16)] = some n := by
  revert n
  decide

private theorem element_of_escaped {c : Char} {written : List Char} (h : Quoted.Escaped c written) :
    Element '"' written (Utf8.encode [c]) := by
  cases h with
  | plain hcontrol hquote hbackslash =>
      have hnewline : c ≠ '\n' := by
        rintro rfl
        contradiction
      exact .plain hnewline hquote hbackslash
  | short hshort =>
      have hsubset : Quoted.shortEscapes ⊆ ('"', '"') :: commonEscapes := by decide
      exact .simple (hsubset hshort)
  | control hcontrol => exact .short rfl (numeral?_hexDigits hcontrol)

private theorem elements_escape (chars : List Char) :
    Elements '"' (chars.flatMap Quoted.escape) (Utf8.encode chars) := by
  induction chars with
  | nil => exact .nil
  | cons c chars ih =>
      have hc := element_of_escaped (Quoted.escaped_escape c)
      have hall := Elements.cons hc ih
      rwa [← Utf8.encode_append] at hall

theorem stringLiteral_literal (s : String) :
    StringLiteral (Quoted.literal s).toList (Utf8.ofString s) := by
  refine ⟨s.toList.flatMap Quoted.escape, elements_escape s.toList, ?_⟩
  rw [Quoted.literal, String.toList_ofList, Quoted.encode]

/--
Quoted text is a string literal that stands for the bytes of the text, it is the only
literal that a text beginning with it begins with, and it determines the text.
-/
theorem literal_denotes_text (s : String) :
    StringLiteral (Quoted.literal s).toList (Utf8.ofString s) ∧
      (∀ source value after rest, StringLiteral source value →
        source ++ after = (Quoted.literal s).toList ++ rest →
          source = (Quoted.literal s).toList ∧ value = Utf8.ofString s ∧ after = rest) ∧
      ∀ t, Quoted.literal t = Quoted.literal s → t = s := by
  refine ⟨stringLiteral_literal s, fun source value after rest hsource heq =>
    hsource.unique (stringLiteral_literal s) heq, fun t ht => ?_⟩
  have hsource := stringLiteral_literal t
  rw [ht] at hsource
  have htext : (Quoted.literal s).toList ++ [] = (Quoted.literal s).toList ++ [] := rfl
  exact Utf8.ofString_inj.mp (hsource.unique (stringLiteral_literal s) htext).2.1

/-- A backslash in front of a quote, a control character and one beyond the first plane,
in a text that goes on with a quote. -/
theorem literal_denotes_text_quote_behind :
    let s := "\\\"\x01😀"
    Quoted.literal s = "\"\\\\\\\"\\u0001😀\"" ∧ ∀ source value after,
      StringLiteral source value → source ++ after = (Quoted.literal s).toList ++ ['"', ']'] →
        value = Utf8.ofString s ∧ after = ['"', ']'] := by
  intro s
  refine ⟨by decide, fun source value after hsource heq => ?_⟩
  obtain ⟨-, hvalue, hafter⟩ := (literal_denotes_text s).2.1 source value after _ hsource heq
  exact ⟨hvalue, hafter⟩

end ServiceHarness.Go
