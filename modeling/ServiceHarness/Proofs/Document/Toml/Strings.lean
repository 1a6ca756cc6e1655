import ServiceHarness.Document.Toml.Scalar
import ServiceHarness.Proofs.Document.Toml.Tabular
import ServiceHarness.Proofs.Outcome

/-!
# Decoding keys and basic strings

A bare key stands for its own characters, a basic string for the characters that
its letters are written for.
-/

namespace ServiceHarness.Document.Toml

open ServiceHarness.Text

/-! ## Digits -/

private theorem char_le_iff {c d : Char} : c ≤ d ↔ c.toNat ≤ d.toNat :=
  UInt32.le_iff_toNat_le

private theorem HexDigit.digitOf_eq {c : Char} {n : Nat} (h : HexDigit c n) : digitOf c = n := by
  have hnine : '9'.toNat = 57 := rfl
  have hf : 'F'.toNat = 70 := rfl
  simp only [digitOf, char_le_iff, hnine, hf]
  cases h with
  | decimal hn hc => rw [if_pos (by omega)]; omega
  | upper hn hc => rw [if_neg (by omega), if_pos (by omega)]; omega
  | lower hn hc => rw [if_neg (by omega), if_neg (by omega)]; omega

theorem HexDigit.isHexDigit {c : Char} {n : Nat} (h : HexDigit c n) : isHexDigit c = true := by
  simp only [Toml.isHexDigit, Bool.or_eq_true, Bool.and_eq_true, decide_eq_true_eq, char_le_iff]
  change (48 ≤ c.toNat ∧ c.toNat ≤ 57 ∨ 97 ≤ c.toNat ∧ c.toNat ≤ 102) ∨
    65 ≤ c.toNat ∧ c.toNat ≤ 70
  cases h <;> omega

theorem HexNumber.isHexDigit {digits : List Char} {n : Nat} (h : HexNumber digits n) :
    ∀ c ∈ digits, isHexDigit c = true := by
  induction h with
  | nil => simp
  | snoc _ hdigit ih =>
      intro c hc
      rcases List.mem_append.mp hc with hc | hc
      · exact ih c hc
      · rw [List.mem_singleton.mp hc]
        exact hdigit.isHexDigit

private theorem HexNumber.numberOf_eq {digits : List Char} {n : Nat} (h : HexNumber digits n) :
    numberOf 16 digits = n := by
  induction h with
  | nil => rfl
  | snoc _ hdigit ih =>
      rw [numberOf, List.foldl_append, ← numberOf, ih, List.foldl_cons, List.foldl_nil,
        hdigit.digitOf_eq]

/-! ## Letters -/

namespace BasicReader

private theorem allows_of_isPlain {c : Char} (h : IsPlain c) : Style.basic.allows c = true := by
  obtain ⟨hvisible, hquote, hbackslash⟩ := h
  simp only [Style.allows, isVisible, Bool.and_eq_true, Bool.or_eq_true, decide_eq_true_eq,
    beq_iff_eq]
  exact ⟨⟨hvisible, hquote⟩, hbackslash⟩

theorem step_plain {c : Char} (h : IsPlain c) (index : Nat) (chars : List Char) :
    BasicReader.step .basic ⟨.plain, index, chars⟩ c =
      .ok ⟨.plain, index + c.utf8Size, c :: chars⟩ := by
  have hbackslash := h.2.2
  simp [step, stepMode, stepPlain, allows_of_isPlain h, hbackslash, push]

private theorem step_backslash (index : Nat) (chars : List Char) :
    BasicReader.step .basic ⟨.plain, index, chars⟩ '\\' =
      .ok ⟨.backslash, index + '\\'.utf8Size, chars⟩ :=
  rfl

private theorem step_short {mark c : Char} (h : (mark, c) ∈ shortEscapes) (index : Nat)
    (chars : List Char) :
    BasicReader.step .basic ⟨.backslash, index, chars⟩ mark =
      .ok ⟨.plain, index + mark.utf8Size, c :: chars⟩ := by
  have hletter : letterEscape? mark = some c := by
    simp only [shortEscapes, List.mem_cons, Prod.mk.injEq, List.not_mem_nil, or_false] at h
    rcases h with ⟨rfl, rfl⟩ | ⟨rfl, rfl⟩ | ⟨rfl, rfl⟩ | ⟨rfl, rfl⟩ | ⟨rfl, rfl⟩ | ⟨rfl, rfl⟩ |
      ⟨rfl, rfl⟩ | ⟨rfl, rfl⟩ <;> rfl
  simp [step, stepMode, stepBackslash, hletter, push]

private theorem step_code {mark : Char} {size : Nat} (h : (mark, size) ∈ codeEscapes) (index : Nat)
    (chars : List Char) :
    BasicReader.step .basic ⟨.backslash, index, chars⟩ mark =
      .ok ⟨.digits size (index + 1) [], index + mark.utf8Size, chars⟩ := by
  have hmark : letterEscape? mark = none ∧ escapeSize? mark = some size := by
    simp only [codeEscapes, List.mem_cons, Prod.mk.injEq, List.not_mem_nil, or_false] at h
    rcases h with ⟨rfl, rfl⟩ | ⟨rfl, rfl⟩ | ⟨rfl, rfl⟩ <;> exact ⟨rfl, rfl⟩
  simp [step, stepMode, stepBackslash, hmark]

private theorem step_digit {wanted start : Nat} {taken : List Char} {c : Char}
    (hdigit : isHexDigit c = true) (hmore : taken.length + 1 < wanted) (index : Nat)
    (chars : List Char) :
    BasicReader.step .basic ⟨.digits wanted start taken, index, chars⟩ c =
      .ok ⟨.digits wanted start (c :: taken), index + c.utf8Size, chars⟩ := by
  simp [step, stepMode, hdigit, hmore]

private theorem step_lastDigit {wanted start n : Nat} {taken : List Char} {c : Char}
    (hvalid : n.isValidChar) (hdigit : isHexDigit c = true) (hlast : taken.length + 1 = wanted)
    (hnumber : numberOf 16 (taken.reverse ++ [c]) = n) (index : Nat) (chars : List Char) :
    BasicReader.step .basic ⟨.digits wanted start taken, index, chars⟩ c =
      .ok ⟨.plain, index + c.utf8Size, Char.ofNat n :: chars⟩ := by
  have hscalar : isScalarValue n = true := by
    simpa [isScalarValue, Nat.isValidChar] using hvalid
  simp [step, stepMode, hdigit, hlast, finishEscape, hnumber, hscalar, push]

private theorem foldlM_digits {wanted start n : Nat} {digits : List Char} (hvalid : n.isValidChar)
    (hdigits : ∀ c ∈ digits, isHexDigit c = true) (hne : digits ≠ []) (taken : List Char)
    (hlength : taken.length + digits.length = wanted)
    (hnumber : numberOf 16 (taken.reverse ++ digits) = n) (index : Nat) (chars : List Char) :
    ∃ stop, digits.foldlM (BasicReader.step .basic) ⟨.digits wanted start taken, index, chars⟩ =
      .ok ⟨.plain, stop, Char.ofNat n :: chars⟩ := by
  induction digits generalizing taken index with
  | nil => exact absurd rfl hne
  | cons c digits ih =>
      obtain ⟨hc, hlater⟩ := List.forall_mem_cons.mp hdigits
      cases digits with
      | nil =>
          rw [foldlM_cons_of_ok (step_lastDigit hvalid hc hlength hnumber index chars)]
          exact ⟨_, rfl⟩
      | cons d digits =>
          simp only [List.length_cons] at hlength
          rw [foldlM_cons_of_ok (step_digit hc (by omega) index chars)]
          exact ih hlater (List.cons_ne_nil d digits) (c :: taken)
            (by simp only [List.length_cons]; omega) (by simpa using hnumber) _

private theorem foldlM_letter {written : List Char} {c : Char} (h : Letter written c) (index : Nat)
    (chars : List Char) :
    ∃ stop, written.foldlM (BasicReader.step .basic) ⟨.plain, index, chars⟩ =
      .ok ⟨.plain, stop, c :: chars⟩ := by
  cases h with
  | plain hplain =>
      rw [foldlM_cons_of_ok (step_plain hplain index chars)]
      exact ⟨_, rfl⟩
  | short hmark =>
      rw [foldlM_cons_of_ok (step_backslash index chars),
        foldlM_cons_of_ok (step_short hmark _ chars)]
      exact ⟨_, rfl⟩
  | @code mark digits n hmark hdigits hvalid =>
      have hne : digits ≠ [] := by
        rintro rfl
        simp [codeEscapes] at hmark
      rw [foldlM_cons_of_ok (step_backslash index chars),
        foldlM_cons_of_ok (step_code hmark _ chars)]
      exact foldlM_digits hvalid hdigits.isHexDigit hne [] (Nat.zero_add _) hdigits.numberOf_eq _
        chars

private theorem foldlM_content {written value : List Char} (h : Content written value) (index : Nat)
    (chars : List Char) :
    ∃ stop, written.foldlM (BasicReader.step .basic) ⟨.plain, index, chars⟩ =
      .ok ⟨.plain, stop, value.reverse ++ chars⟩ := by
  induction h generalizing index chars with
  | nil => exact ⟨index, rfl⟩
  | @cons _ _ c _ hletter _ ih =>
      obtain ⟨middle, hmiddle⟩ := foldlM_letter hletter index chars
      obtain ⟨stop, hstop⟩ := ih middle (c :: chars)
      refine ⟨stop, ?_⟩
      rw [foldlM_append_of_ok hmiddle, hstop]
      simp

end BasicReader

/-! ## Keys and texts -/

theorem body_basic (text : BasicString) (start : Nat) :
    Raw.body ⟨.basic, start, text.chars⟩ = .ok (start + 1, text.written) := by
  simp [Raw.body, BasicString.chars, Style.quoteCount, Style.char, dropQuotes?]

theorem decodeScalar_basic (text : BasicString) (start : Nat) :
    Raw.decodeScalar ⟨.basic, start, text.chars⟩ = .ok (.string text.value) := by
  obtain ⟨stop, hread⟩ := BasicReader.foldlM_content text.content (start + 1) []
  have hdecode : Raw.decodeQuoted ⟨.basic, start, text.chars⟩ = .ok text.value := by
    rw [Raw.decodeQuoted, body_basic]
    change (text.written.foldlM (BasicReader.step .basic) ⟨.plain, start + 1, []⟩ >>=
      BasicReader.finish .basic) = .ok text.value
    rw [hread]
    simp [BasicReader.finish, bind, Except.bind]
  rw [Raw.decodeScalar, hdecode]
  rfl

private theorem isBareKeyCharacter_of_isBare {c : Char} (h : IsBare c) :
    isBareKeyCharacter c = true := by
  simp only [isBareKeyCharacter, Bool.or_eq_true, Bool.and_eq_true, decide_eq_true_eq, beq_iff_eq]
  rcases h with halphanum | hdash | hunderscore
  · rcases Bool.or_eq_true_iff.mp halphanum with halpha | hdigit
    · rcases Bool.or_eq_true_iff.mp halpha with hupper | hlower
      · exact .inl (.inl (.inl (.inr (of_decide_eq_true hupper))))
      · obtain ⟨hfrom, hto⟩ := Bool.and_eq_true_iff.mp hlower
        exact .inl (.inl (.inl (.inl ⟨of_decide_eq_true hfrom, of_decide_eq_true hto⟩)))
    · obtain ⟨hfrom, hto⟩ := Bool.and_eq_true_iff.mp hdigit
      exact .inl (.inl (.inr ⟨of_decide_eq_true hfrom, of_decide_eq_true hto⟩))
  · exact .inl (.inr hdash)
  · exact .inr hunderscore

private theorem checkBareKey_ok {key : List Char} (hbare : ∀ c ∈ key, IsBare c) (index : Nat) :
    checkBareKey index key = .ok () := by
  induction key generalizing index with
  | nil => rfl
  | cons c key ih =>
      obtain ⟨hc, hlater⟩ := List.forall_mem_cons.mp hbare
      rw [checkBareKey, if_pos (isBareKeyCharacter_of_isBare hc)]
      exact ih hlater _

theorem decodeKey_bare {key : List Char} (hne : key ≠ []) (hbare : ∀ c ∈ key, IsBare c)
    (start : Nat) : Raw.decodeKey ⟨.bare, start, key⟩ = .ok key := by
  simp only [Raw.decodeKey, checkBareKey_ok hbare, if_neg hne]
  rfl

end ServiceHarness.Document.Toml
