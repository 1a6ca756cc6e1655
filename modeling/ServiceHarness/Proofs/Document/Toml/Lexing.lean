import Mathlib.Data.List.Basic
import ServiceHarness.Document.Toml.Token
import ServiceHarness.Proofs.Document.Toml.Tabular

/-!
# Cutting lines into tokens

A text that is made of words is cut into these words, each of which is a token
at its own offset, if no word could be continued by the one that follows.
-/

namespace ServiceHarness.Document.Toml

open ServiceHarness.Text

private theorem width_append (text text' : List Char) :
    Utf8.width (text ++ text') = Utf8.width text + Utf8.width text' := by
  have hshift : ∀ (l : List Char) (n : Nat),
      l.foldl (fun n c => n + c.utf8Size) n = n + Utf8.width l := by
    intro l
    induction l with
    | nil => exact fun n => rfl
    | cons d l ih =>
        intro n
        rw [Utf8.width, List.foldl_cons, List.foldl_cons, ih, ih, Nat.zero_add, Nat.add_assoc]
  rw [Utf8.width, List.foldl_append, hshift]
  rfl

/-- A text that is to be one token. -/
structure Word where
  kind : TokenKind
  text : List Char

def Word.token (w : Word) (offset : Nat) : Token := ⟨w.kind, offset, w.text⟩

def tokensAt (offset : Nat) : List Word → List Token
  | [] => []
  | w :: ws => w.token offset :: tokensAt (w.token offset).stop ws

def wordsText (ws : List Word) : List Char := ws.flatMap Word.text

private theorem wordsText_cons (w : Word) (ws : List Word) :
    wordsText (w :: ws) = w.text ++ wordsText ws :=
  rfl

private theorem wordsText_append (ws us : List Word) :
    wordsText (ws ++ us) = wordsText ws ++ wordsText us :=
  List.flatMap_append

namespace Lexer

def between (done : List Token) (offset : Nat) : Lexer := ⟨done, .idle, offset, offset, []⟩

/-- The word is cut off in front of this text. -/
def Cuts (w : Word) (rest : List Char) : Prop :=
  ∀ done offset, (w.text ++ rest).foldl step (between done offset) =
    rest.foldl step (between (w.token offset :: done) (w.token offset).stop)

/-- No word could be continued by what follows, whatever follows the last one. -/
inductive Separated : List Word → Prop
  | nil : Separated []
  | cons {w : Word} {ws : List Word} :
      (∀ rest, Cuts w (wordsText ws ++ rest)) → Separated ws → Separated (w :: ws)

theorem Separated.append {ws us : List Word} (hws : Separated ws) (hus : Separated us) :
    Separated (ws ++ us) := by
  induction hws with
  | nil => exact hus
  | @cons w ws hcuts _ ih =>
      refine .cons (fun rest => ?_) ih
      have h := hcuts (wordsText us ++ rest)
      rwa [← List.append_assoc, ← wordsText_append] at h

theorem foldl_separated {ws : List Word} (h : Separated ws) (done : List Token) (offset : Nat)
    (rest : List Char) :
    ∃ stop, (wordsText ws ++ rest).foldl step (between done offset) =
      rest.foldl step (between ((tokensAt offset ws).reverse ++ done) stop) := by
  induction h generalizing done offset with
  | nil => exact ⟨offset, rfl⟩
  | @cons w ws hcuts _ ih =>
      obtain ⟨stop, hstop⟩ := ih (w.token offset :: done) (w.token offset).stop
      refine ⟨stop, ?_⟩
      rw [wordsText_cons, List.append_assoc, hcuts rest done offset, hstop]
      simp [tokensAt]

/-! ## Runs -/

def took (l : Lexer) (text : List Char) : Lexer :=
  { l with offset := l.offset + Utf8.width text, text := text.reverse ++ l.text }

private theorem took_append (l : Lexer) (text text' : List Char) :
    l.took (text ++ text') = (l.took text).took text' := by
  simp [took, width_append, Nat.add_assoc]

private theorem push_eq_took {l : Lexer} {mode : LexMode} (c : Char) (h : l.mode = mode) :
    l.push c mode = l.took [c] := by
  simp [push, took, Utf8.width, h]

private theorem foldl_took {mode : LexMode} {text : List Char}
    (h : ∀ c ∈ text, ∀ l : Lexer, l.mode = mode → l.step c = l.took [c])
    (l : Lexer) (hmode : l.mode = mode) : text.foldl step l = l.took text := by
  induction text generalizing l with
  | nil => rfl
  | cons c text ih =>
      obtain ⟨hc, htext⟩ := List.forall_mem_cons.mp h
      rw [List.foldl_cons, hc l hmode, ih htext (l.took [c]) hmode, ← took_append,
        List.singleton_append]

private theorem foldl_run {kind : TokenKind} {text : List Char}
    (h : ∀ c ∈ text, goesOn kind c = true)
    (l : Lexer) (hmode : l.mode = .run kind) : text.foldl step l = l.took text := by
  refine foldl_took (fun c hc l hl => ?_) l hmode
  rw [← push_eq_took c hl]
  simp [step, hl, h c hc]

/-- In a token that began at `offset`, of which this text has been read. -/
def within (done : List Token) (offset : Nat) (mode : LexMode) (text : List Char) : Lexer :=
  ⟨done, mode, offset, offset + Utf8.width text, text.reverse⟩

private theorem within_took (done : List Token) (offset : Nat) (mode : LexMode)
    (text text' : List Char) :
    (within done offset mode text).took text' = within done offset mode (text ++ text') := by
  simp [within, took, width_append, Nat.add_assoc]

private theorem begin_eq_within {c : Char} (h : punctuation? c = none) (done : List Token)
    (offset : Nat) :
    (between done offset).step c = within done offset (firstMode c) [c] := by
  simp [step, between, begin, h, push, within, Utf8.width]

theorem finishBefore_within (done : List Token) (offset : Nat) (mode : LexMode) (text : List Char)
    (c : Char) :
    (within done offset mode text).finishBefore c =
      (between (Word.token ⟨mode.kind, text⟩ offset :: done)
        (Word.token ⟨mode.kind, text⟩ offset).stop).step c := by
  simp [finishBefore, emit, within, between, Word.token, Token.stop, step]

theorem cuts_punctuation {kind : TokenKind} {c : Char} (h : punctuation? c = some kind)
    (rest : List Char) : Cuts ⟨kind, [c]⟩ rest := by
  intro done offset
  have hstep : (between done offset).step c =
      between (Word.token ⟨kind, [c]⟩ offset :: done) (Word.token ⟨kind, [c]⟩ offset).stop := by
    simp [step, between, begin, h, push, emit, Word.token, Token.stop, Utf8.width]
  rw [List.singleton_append, List.foldl_cons, hstep]

theorem cuts_run {kind : TokenKind} {c d : Char} {text rest : List Char}
    (hstart : punctuation? c = none) (hmode : firstMode c = .run kind)
    (htext : ∀ c ∈ text, goesOn kind c = true) (hend : goesOn kind d = false) :
    Cuts ⟨kind, c :: text⟩ (d :: rest) := by
  intro done offset
  have hfinish : ∀ l : Lexer, l.mode = .run kind → l.step d = l.finishBefore d := by
    intro l hl
    simp [step, hl, hend]
  rw [List.cons_append, List.foldl_cons, begin_eq_within hstart, hmode, List.foldl_append,
    foldl_run htext _ rfl, within_took, List.foldl_cons, List.foldl_cons, hfinish _ rfl,
    finishBefore_within]
  rfl

/-! ## Basic strings -/

abbrev inBasic : LexMode := .short .double false

theorem step_plain {c : Char} (h : IsPlain c) (l : Lexer) (hmode : l.mode = inBasic) :
    l.step c = l.took [c] := by
  have hbackslash : (c == '\\') = false := by simpa using h.2.2
  rw [← push_eq_took c hmode]
  simp [step, hmode, stepShort, Quote.char, h.2.1, h.ne_newline, hbackslash]

private theorem step_escape {mark : Char} (hnewline : mark ≠ '\n') (l : Lexer)
    (hmode : l.mode = inBasic) :
    (l.step '\\').step mark = l.took ['\\', mark] := by
  rw [← List.singleton_append, took_append, ← push_eq_took '\\' hmode, ← push_eq_took mark rfl]
  by_cases hescaped : mark = '\\' ∨ mark = '"'
  · simp [step, hmode, stepShort, push, Quote.char, hescaped]
  · obtain ⟨hbackslash, hquote⟩ := not_or.mp hescaped
    have hplain : (mark == '\\') = false := by simpa using hbackslash
    simp [step, hmode, stepShort, push, Quote.char, hbackslash, hquote, hnewline, hplain]

private theorem foldl_escape {mark : Char} {digits : List Char} (hnewline : mark ≠ '\n')
    (hdigits : ∀ c ∈ digits, IsPlain c) (l : Lexer) (hmode : l.mode = inBasic) :
    ('\\' :: mark :: digits).foldl step l = l.took ('\\' :: mark :: digits) := by
  rw [List.foldl_cons, List.foldl_cons, step_escape hnewline l hmode,
    foldl_took (fun c hc => step_plain (hdigits c hc)) (l.took ['\\', mark]) hmode,
    ← took_append]
  rfl

private theorem foldl_letter {written : List Char} {c : Char} (h : Letter written c) (l : Lexer)
    (hmode : l.mode = inBasic) : written.foldl step l = l.took written := by
  cases h with
  | plain hplain => exact step_plain hplain l hmode
  | short hmark =>
      refine foldl_escape ?_ (by simp) l hmode
      rintro rfl
      simp [shortEscapes] at hmark
  | code hmark hdigits hvalid =>
      refine foldl_escape ?_ hdigits.isPlain l hmode
      rintro rfl
      simp [codeEscapes] at hmark

private theorem foldl_content {written chars : List Char} (h : Content written chars) (l : Lexer)
    (hmode : l.mode = inBasic) : written.foldl step l = l.took written := by
  induction h generalizing l with
  | nil => rfl
  | @cons written _ _ _ hletter _ ih =>
      rw [List.foldl_append, foldl_letter hletter l hmode, ih (l.took written) hmode,
        ← took_append]

private theorem step_oneQuote {c : Char} (hquote : c ≠ '"') (hnewline : c ≠ '\n') (l : Lexer)
    (hmode : l.mode = .oneQuote .double) : l.step c = Lexer.step { l with mode := inBasic } c := by
  simp [step, hmode, stepShort, push, Quote.char, hquote, hnewline]

private theorem content_head {written chars : List Char} (h : Content written chars) :
    written = [] ∨ ∃ c rest, written = c :: rest ∧ c ≠ '"' ∧ c ≠ '\n' := by
  cases h with
  | nil => exact .inl rfl
  | cons hletter _ =>
      cases hletter with
      | plain hplain => exact .inr ⟨_, _, rfl, hplain.2.1, hplain.ne_newline⟩
      | short _ => exact .inr ⟨_, _, rfl, by decide, by decide⟩
      | code _ _ _ => exact .inr ⟨_, _, rfl, by decide, by decide⟩

theorem cuts_basic (text : BasicString) {d : Char} {rest : List Char} (hd : d ≠ '"') :
    Cuts ⟨.basic, text.chars⟩ (d :: rest) := by
  intro done offset
  obtain ⟨written, value, hcontent⟩ := text
  have hbegin : (between done offset).step '"' = within done offset (.oneQuote .double) ['"'] :=
    begin_eq_within rfl done offset
  simp only [BasicString.chars, List.cons_append, List.append_assoc, List.foldl_cons,
    List.foldl_append, List.foldl_nil, hbegin]
  rcases content_head hcontent with rfl | ⟨c, later, rfl, hquote, hnewline⟩
  · have hsecond : (within done offset (.oneQuote .double) ['"']).step '"' =
        within done offset (.twoQuotes .double) ['"', '"'] := rfl
    have hfinish : ∀ l : Lexer, l.mode = .twoQuotes .double → l.step d = l.finishBefore d := by
      intro l hl
      simp [step, hl, Quote.char, hd]
    rw [List.foldl_nil, hsecond, hfinish _ rfl, finishBefore_within]
    rfl
  · have hfirst : (within done offset (.oneQuote .double) ['"']).step c =
        (within done offset inBasic ['"']).step c := step_oneQuote hquote hnewline _ rfl
    have hclose : ∀ text, (within done offset inBasic text).step '"' =
        between (Word.token ⟨.basic, text ++ ['"']⟩ offset :: done)
          (Word.token ⟨.basic, text ++ ['"']⟩ offset).stop := by
      intro text
      simp [step, within, stepShort, Quote.char, Quote.shortKind, push, emit, between, Word.token,
        Token.stop, Utf8.width, Nat.add_assoc]
    have hinside := foldl_content hcontent (within done offset inBasic ['"']) rfl
    rw [List.foldl_cons, within_took] at hinside
    rw [List.foldl_cons, hfirst, hinside, hclose]
    rfl

end Lexer

end ServiceHarness.Document.Toml
