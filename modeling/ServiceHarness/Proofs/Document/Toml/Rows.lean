import ServiceHarness.Document.Toml.Statement
import ServiceHarness.Proofs.Document.Toml.Lexing

/-!
# From lines to statements

Every line of a tabular document is a row of words, which the lexer cuts apart,
and says at most one statement, which the statement machine finds.
-/

namespace ServiceHarness.Document.Toml

open ServiceHarness.Text

/-! ## Rows -/

/-- A line of a tabular document, wherever it stands. -/
inductive Row where
  | line (l : Line)
  | noMethods
  | header

def methodsKey : List Char := ['m', 'e', 't', 'h', 'o', 'd', 's']

namespace Word

def newline : Word := ⟨.newline, ['\n']⟩

def space : Word := ⟨.blank, [' ']⟩

def equals : Word := ⟨.equals, ['=']⟩

def openBracket : Word := ⟨.openBracket, ['[']⟩

def closeBracket : Word := ⟨.closeBracket, [']']⟩

end Word

def Row.words : Row → List Word
  | line (.blank [] _) => [.newline]
  | line (.blank (c :: gap) _) => [⟨.blank, c :: gap⟩, .newline]
  | line (.assign key text) =>
      [⟨.atom, key.chars⟩, .space, .equals, .space, ⟨.basic, text.chars⟩, .newline]
  | noMethods =>
      [⟨.atom, methodsKey⟩, .space, .equals, .space, .openBracket, .closeBracket, .newline]
  | header =>
      [.openBracket, .openBracket, ⟨.atom, methodsKey⟩, .closeBracket, .closeBracket, .newline]

def TopLine.row : TopLine → Row
  | line l => .line l
  | noMethods => .noMethods

def sectionRows (lines : List Line) : List Row := .header :: lines.map .line

def Tabular.rows (doc : Tabular) : List Row :=
  doc.top.map TopLine.row ++ doc.sections.flatMap sectionRows

def rowsWords (rows : List Row) : List Word := rows.flatMap Row.words

def Row.chars (r : Row) : List Char := wordsText r.words

theorem wordsText_rowsWords (rows : List Row) :
    wordsText (rowsWords rows) = rows.flatMap Row.chars :=
  List.flatMap_assoc

theorem chars_line (l : Line) : l.chars = (Row.line l).chars := by
  cases l with
  | blank gap isGap =>
      cases gap with
      | nil => rfl
      | cons c gap => simp [Line.chars, Row.chars, Row.words, wordsText, Word.newline]
  | assign key text =>
      simp [Line.chars, Row.chars, Row.words, wordsText, Word.newline, Word.space, Word.equals]

private theorem chars_topLine (l : TopLine) : l.chars = l.row.chars := by
  cases l with
  | line l => exact chars_line l
  | noMethods => rfl

private theorem sectionChars_eq (lines : List Line) :
    sectionChars lines = (sectionRows lines).flatMap Row.chars := by
  rw [sectionRows, List.flatMap_cons, List.flatMap_map, ← funext chars_line]
  rfl

theorem chars_eq (doc : Tabular) : doc.chars = wordsText (rowsWords doc.rows) := by
  rw [wordsText_rowsWords, Tabular.rows, List.flatMap_append, List.flatMap_map,
    List.flatMap_assoc, ← funext chars_topLine, ← funext sectionChars_eq]
  rfl

/-! ## Words are cut apart -/

theorem IsBare.not_mem {c : Char} (h : IsBare c) {others : List Char}
    (hothers : ∀ d ∈ others, ¬IsBare d) : c ∉ others :=
  fun hc => hothers c hc h

open Lexer

private theorem IsBare.ordinary {c : Char} (h : IsBare c) :
    punctuation? c = none ∧ firstMode c = .run .atom ∧ goesOn .atom c = true := by
  have hne : c ∉ ['.', '=', ',', '[', ']', '\x7b', '\x7d', ' ', '\t', '#', '\r', '\n', '\'', '"'] :=
    h.not_mem (by simp [IsBare])
  simp only [List.mem_cons, not_or] at hne
  simp [punctuation?, firstMode, isBlank, goesOn, endsAtom, hne]

private theorem IsGap.ordinary {c : Char} (h : IsGap c) :
    punctuation? c = none ∧ firstMode c = .run .blank ∧ goesOn .blank c = true := by
  rcases h with rfl | rfl <;> exact ⟨rfl, rfl, rfl⟩

private theorem cuts_key {key : List Char} (hkey : key ≠ []) (hbare : ∀ c ∈ key, IsBare c)
    {d : Char} (hd : endsAtom d = true) (rest : List Char) : Cuts ⟨.atom, key⟩ (d :: rest) := by
  obtain ⟨c, key, rfl⟩ := List.exists_cons_of_ne_nil hkey
  obtain ⟨hc, hlater⟩ := List.forall_mem_cons.mp hbare
  exact cuts_run hc.ordinary.1 hc.ordinary.2.1 (fun c h => (hlater c h).ordinary.2.2)
    (by simp [goesOn, hd])

private theorem cuts_gap {gap : List Char} (hgap : gap ≠ []) (hall : ∀ c ∈ gap, IsGap c) {d : Char}
    (hd : isBlank d = false) (rest : List Char) : Cuts ⟨.blank, gap⟩ (d :: rest) := by
  obtain ⟨c, gap, rfl⟩ := List.exists_cons_of_ne_nil hgap
  obtain ⟨hc, hlater⟩ := List.forall_mem_cons.mp hall
  exact cuts_run hc.ordinary.1 hc.ordinary.2.1 (fun c h => (hlater c h).ordinary.2.2) hd

private theorem cuts_space {d : Char} (hd : isBlank d = false) (rest : List Char) :
    Cuts .space (d :: rest) :=
  cuts_gap (List.cons_ne_nil _ _) (by simp [IsGap]) hd rest

private theorem separated_newline : Separated [.newline] :=
  .cons (fun _ => cuts_punctuation rfl _) .nil

theorem methodsKey_bare : ∀ c ∈ methodsKey, IsBare c := by
  simp [methodsKey, IsBare]

private theorem separated_words (r : Row) : Separated r.words := by
  cases r with
  | line l =>
      cases l with
      | blank gap isGap =>
          cases gap with
          | nil => exact separated_newline
          | cons c gap =>
              exact .cons (fun _ => cuts_gap (List.cons_ne_nil _ _) isGap rfl _) separated_newline
      | assign key text =>
          exact .cons (fun _ => cuts_key key.nonempty key.bare rfl _) <|
            .cons (fun _ => cuts_space rfl _) <| .cons (fun _ => cuts_punctuation rfl _) <|
            .cons (fun _ => cuts_space rfl _) <|
            .cons (fun _ => cuts_basic text (by decide)) separated_newline
  | noMethods =>
      exact .cons (fun _ => cuts_key (by decide) methodsKey_bare rfl _) <|
        .cons (fun _ => cuts_space rfl _) <| .cons (fun _ => cuts_punctuation rfl _) <|
        .cons (fun _ => cuts_space rfl _) <| .cons (fun _ => cuts_punctuation rfl _) <|
        .cons (fun _ => cuts_punctuation rfl _) separated_newline
  | header =>
      exact .cons (fun _ => cuts_punctuation rfl _) <| .cons (fun _ => cuts_punctuation rfl _) <|
        .cons (fun _ => cuts_key (by decide) methodsKey_bare rfl _) <|
        .cons (fun _ => cuts_punctuation rfl _) <| .cons (fun _ => cuts_punctuation rfl _)
        separated_newline

private theorem separated_rowsWords (rows : List Row) : Separated (rowsWords rows) := by
  induction rows with
  | nil => exact .nil
  | cons r rows ih => exact (separated_words r).append ih

theorem lex_rows (rows : List Row) :
    ∃ stop, lex 0 (wordsText (rowsWords rows)) =
      tokensAt 0 (rowsWords rows) ++ [⟨.finish, stop, []⟩] := by
  obtain ⟨stop, h⟩ := foldl_separated (separated_rowsWords rows) [] 0 []
  rw [List.append_nil, List.append_nil] at h
  refine ⟨stop, ?_⟩
  rw [lex, show init 0 = between [] 0 from rfl, h]
  simp [between, finish, emit]

/-! ## Rows are statements -/

/-- The statements of a row, which tell where its parts stand. -/
inductive Says : Row → List Statement → Prop
  | blank (gap : List Char) (isGap : ∀ c ∈ gap, IsGap c) : Says (.line (.blank gap isGap)) []
  | assign (key : BareKey) (text : BasicString) (keyStart textStart : Nat) :
      Says (.line (.assign key text))
        [.assign ⟨[⟨.bare, keyStart, key.chars⟩], .scalar ⟨.basic, textStart, text.chars⟩⟩]
  | noMethods (keyStart : Nat) (span : Span) :
      Says .noMethods [.assign ⟨[⟨.bare, keyStart, methodsKey⟩], .array span []⟩]
  | header (keyStart : Nat) (span : Span) :
      Says .header [.header true span [⟨.bare, keyStart, methodsKey⟩]]

inductive SayAll : List Row → List Statement → Prop
  | nil : SayAll [] []
  | cons {r : Row} {rows : List Row} {ss us : List Statement} :
      Says r ss → SayAll rows us → SayAll (r :: rows) (ss ++ us)

theorem SayAll.append_left {rows us : List Row} {ss : List Statement}
    (h : SayAll (rows ++ us) ss) :
    ∃ ss₁ ss₂, SayAll rows ss₁ ∧ SayAll us ss₂ ∧ ss = ss₁ ++ ss₂ := by
  induction rows generalizing ss with
  | nil => exact ⟨[], ss, .nil, h, rfl⟩
  | cons r rows ih =>
      cases h with
      | @cons _ _ ss us hr hrows =>
          obtain ⟨ss₁, ss₂, h₁, h₂, rfl⟩ := ih hrows
          exact ⟨ss ++ ss₁, ss₂, .cons hr h₁, h₂, (List.append_assoc _ _ _).symm⟩

private theorem foldlM_row (r : Row) (offset : Nat) (done : List Statement) :
    ∃ ss, Says r ss ∧
      (tokensAt offset r.words).foldlM Machine.step ⟨done, .line⟩ =
        .ok ⟨ss.reverse ++ done, .line⟩ := by
  cases r with
  | line l =>
      cases l with
      | blank gap isGap =>
          cases gap with
          | nil => exact ⟨_, .blank _ _, rfl⟩
          | cons c gap => exact ⟨_, .blank _ _, rfl⟩
      | assign key text => exact ⟨_, .assign key text _ _, rfl⟩
  | noMethods => exact ⟨_, .noMethods _ _, rfl⟩
  | header => exact ⟨_, .header _ _, rfl⟩

private theorem tokensAt_append (offset : Nat) (ws us : List Word) :
    ∃ stop, tokensAt offset (ws ++ us) = tokensAt offset ws ++ tokensAt stop us := by
  induction ws generalizing offset with
  | nil => exact ⟨offset, rfl⟩
  | cons w ws ih =>
      obtain ⟨stop, hstop⟩ := ih (w.token offset).stop
      exact ⟨stop, by simp [tokensAt, hstop]⟩

private theorem foldlM_rows (rows : List Row) (offset : Nat) (done : List Statement) :
    ∃ ss, SayAll rows ss ∧
      (tokensAt offset (rowsWords rows)).foldlM Machine.step ⟨done, .line⟩ =
        .ok ⟨ss.reverse ++ done, .line⟩ := by
  induction rows generalizing offset done with
  | nil => exact ⟨[], .nil, rfl⟩
  | cons r rows ih =>
      obtain ⟨stop, hstop⟩ := tokensAt_append offset r.words (rowsWords rows)
      obtain ⟨ss, hsaid, hrow⟩ := foldlM_row r offset done
      obtain ⟨us, hsayAll, hrows⟩ := ih stop (ss.reverse ++ done)
      refine ⟨ss ++ us, .cons hsaid hsayAll, ?_⟩
      rw [rowsWords, List.flatMap_cons, ← rowsWords, hstop, List.foldlM_append, hrow]
      rw [List.reverse_append, List.append_assoc]
      exact hrows

theorem statements_rows (rows : List Row) :
    ∃ ss, SayAll rows ss ∧ statements (lex 0 (wordsText (rowsWords rows))) = .ok ss := by
  obtain ⟨stop, hlex⟩ := lex_rows rows
  obtain ⟨ss, hsaid, hrows⟩ := foldlM_rows rows 0 []
  refine ⟨ss, hsaid, ?_⟩
  rw [statements, hlex, List.foldlM_append, hrows, List.append_nil]
  exact congrArg Except.ok (List.reverse_reverse ss)

end ServiceHarness.Document.Toml
