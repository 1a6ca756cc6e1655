import ServiceHarness.Proofs.Go.Calls
import ServiceHarness.Proofs.Harness.Letters

/-!
# Tokens of rows

The tokens of a row of letters, with slots taken for letters of a word, and the
tokens of the line that the row spells.  When every slot holds a name the second
are the first with the slots filled: no name can end a token or begin another.
-/

namespace ServiceHarness.Harness

open ServiceHarness.Go

variable {σ : Type} {value : σ → String}

def Letter.look : Letter σ → Char
  | .char c => c
  | .slot _ => '_'

abbrev spellToken (value : σ → String) : Token (Letter σ) → Token Char :=
  Token.mapText (spell value)

abbrev spellMode (value : σ → String) : Mode (Letter σ) → Mode Char :=
  Mode.mapText (spell value)

/-! ## Words of Go and names -/

private theorem startsWord_eq (c : Char) : startsWord c = isIdentifierStart c := by
  rw [startsWord, isIdentifierStart, isLetter_eq_isAlpha]

private theorem continuesWord_eq (c : Char) : continuesWord c = isIdentifierPart c := by
  rw [continuesWord, isIdentifierPart, startsWord_eq, isDigit_eq_isDigit]

theorem mem_reservedWords_iff {name : String} : name ∈ reservedWords ↔ name ∈ keywords := by
  have hwords : ∀ word ∈ reservedWords, word ∈ keywords := by decide
  have hkeywords : ∀ word ∈ keywords, word ∈ reservedWords := by decide
  exact ⟨hwords name, hkeywords name⟩

/-! ## The lexer -/

private theorem finish_spell (mode : Mode (Letter σ)) :
    (spellMode value mode).finish? = mode.finish?.map (List.map (spellToken value)) := by
  cases mode with
  | blank => rfl
  | word text => rfl
  | operator text =>
      have htokens : (operatorTokens text : List (Token Char)) =
          (operatorTokens text).map (spellToken value) := by
        by_cases hmem : text ∈ operators
        · simp [operatorTokens, hmem, Token.mapText]
        · simp [operatorTokens, hmem, Token.mapText, Function.comp_def]
      simp [Mode.mapText, Mode.finish?, ← htokens]
  | comment text => rfl
  | literal text => rfl
  | escape text => rfl

private theorem begin_spell (c : Char) :
    begin? id c = (begin? Letter.look (.char c : Letter σ)).map (spellMode value) := by
  by_cases hblank : isBlank c = true
  · simp [begin?, Letter.look, hblank, Mode.mapText]
  · by_cases hstart : startsWord c = true
    · simp [begin?, Letter.look, hblank, hstart, Mode.mapText]
    · by_cases hquote : c = '"'
      · subst c
        rfl
      · by_cases hoperator : startsOperator [c] = true
        · simp [begin?, Letter.look, hblank, hstart, hquote, hoperator, Mode.mapText]
        · simp [begin?, Letter.look, hblank, hstart, hquote, hoperator]

private theorem next_spell (mode : Mode (Letter σ)) (c : Char) :
    (spellMode value mode).next? id c =
      (mode.next? Letter.look (.char c)).map fun (tokens, next) =>
        (tokens.map (spellToken value), spellMode value next) := by
  rw [Mode.next?, finish_spell, begin_spell, Mode.next?]
  cases mode.finish? with
  | none => rfl
  | some tokens =>
      cases begin? Letter.look (.char c : Letter σ) with
      | none => rfl
      | some next => rfl

private theorem step_spell (mode : Mode (Letter σ)) (c : Char) :
    (spellMode value mode).step? id c =
      (mode.step? Letter.look (.char c)).map fun (tokens, next) =>
        (tokens.map (spellToken value), spellMode value next) := by
  have hnext := @next_spell σ value mode c
  cases mode with
  | blank => exact hnext
  | word text =>
      by_cases hpart : continuesWord c = true
      · simp [Mode.mapText, Mode.step?, Letter.look, hpart]
      · simp only [Mode.mapText, Mode.step?, Letter.look, id_eq, hpart, Bool.false_eq_true,
          ↓reduceIte] at hnext ⊢
        exact hnext
  | operator text =>
      by_cases hcomment : text = ['/'] ∧ c = '/'
      · simp [Mode.mapText, Mode.step?, Letter.look, hcomment]
      · by_cases hblock : text = ['/'] ∧ c = '*'
        · simp [Mode.mapText, Mode.step?, Letter.look, hblock]
        · by_cases hoperator : startsOperator (text ++ [c]) = true
          · simp [Mode.mapText, Mode.step?, Letter.look, hcomment, hblock, hoperator]
          · simp only [Mode.mapText, Mode.step?, Letter.look, id_eq, hcomment, hblock,
              hoperator, Bool.false_eq_true, ↓reduceIte] at hnext ⊢
            exact hnext
  | comment text =>
      by_cases hnewline : c = '\n'
      · simp only [Mode.mapText, Mode.step?, Letter.look, id_eq, hnewline,
          ↓reduceIte] at hnext ⊢
        exact hnext
      · simp [Mode.mapText, Mode.step?, Letter.look, hnewline]
  | literal text =>
      by_cases hquote : c = '"'
      · simp [Mode.mapText, Mode.step?, Letter.look, hquote, Token.mapText]
      · by_cases hbackslash : c = '\\'
        · simp [Mode.mapText, Mode.step?, Letter.look, hbackslash]
        · by_cases hnewline : c = '\n'
          · simp [Mode.mapText, Mode.step?, Letter.look, hnewline]
          · simp [Mode.mapText, Mode.step?, Letter.look, hquote, hbackslash, hnewline]
  | escape text =>
      by_cases hescape : isEscape c = true
      · simp [Mode.mapText, Mode.step?, Letter.look, hescape]
      · simp [Mode.mapText, Mode.step?, Letter.look, hescape]

/-! ## Slots -/

private theorem run_of_extends {mode : List Char → Mode Char} {chars : List Char}
    (h : ∀ c ∈ chars, ∀ text, (mode text).step? id c = some ([], mode (text ++ [c])))
    (text : List Char) : (mode text).run? id chars = some ([], mode (text ++ chars)) := by
  induction chars generalizing text with
  | nil => simp [Mode.run?]
  | cons c chars ih =>
      have hrest := ih (fun d hd => h d (List.mem_cons_of_mem c hd)) (text ++ [c])
      rw [run_cons id (h c List.mem_cons_self text) hrest]
      simp

private theorem run_word {name : String} (hname : GoName name) (text : List Char) :
    (Mode.word text).run? id name.toList = some ([], .word (text ++ name.toList)) := by
  apply run_of_extends
  intro c hc text
  simp [Mode.step?, continuesWord_eq, hname.part hc]

private theorem run_comment {name : String} (hname : GoName name) (text : List Char) :
    (Mode.comment text).run? id name.toList = some ([], .comment (text ++ name.toList)) := by
  apply run_of_extends
  intro c hc text
  have hne : c ≠ '\n' := ne_of_isIdentifierPart (hname.part hc) (by decide)
  simp [Mode.step?, hne]

private theorem run_literal {name : String} (hname : GoName name) (text : List Char) :
    (Mode.literal text).run? id name.toList = some ([], .literal (text ++ name.toList)) := by
  apply run_of_extends
  intro c hc text
  have hne : ∀ d, isIdentifierPart d = false → c ≠ d :=
    fun d => ne_of_isIdentifierPart (hname.part hc)
  simp [Mode.step?, hne '"' (by decide), hne '\\' (by decide), hne '\n' (by decide)]

private theorem isBlank_of_start {c : Char} (h : isIdentifierStart c = true) :
    isBlank c = false := by
  have hne : ∀ d, isIdentifierPart d = false → c ≠ d :=
    fun d => ne_of_isIdentifierPart (isIdentifierPart_of_start h)
  simp [isBlank, hne ' ' (by decide), hne '\t' (by decide), hne '\r' (by decide),
    hne '\n' (by decide)]

theorem run_next {mode : Mode Char} {tokens : List (Token Char)} {name : String}
    (hname : GoName name) (hfinish : mode.finish? = some tokens)
    (hstep : ∀ c, startsWord c = true → mode.step? id c = mode.next? id c) :
    mode.run? id name.toList = some (tokens, .word name.toList) := by
  obtain ⟨first, rest, hfirst, hstart, hrest⟩ := hname.exists_cons
  have hblank := isBlank_of_start hstart
  have hbegin : mode.step? id first = some (tokens, .word [first]) := by
    rw [hstep first ((startsWord_eq first).trans hstart), Mode.next?, hfinish]
    simp [begin?, hblank, startsWord_eq, hstart]
  have hword : (Mode.word [first]).run? id rest = some ([], .word ([first] ++ rest)) := by
    apply run_of_extends
    intro c hc text
    simp [Mode.step?, continuesWord_eq, hrest c hc]
  rw [hfirst, run_cons id hbegin hword]
  simp

/-- One slot: the name that fills it goes on with the text of the mode, or it is
behind the end of a token. -/
private theorem run_slot (hvalue : Named value) {mode next : Mode (Letter σ)} {x : σ}
    {tokens : List (Token (Letter σ))}
    (h : mode.step? Letter.look (.slot x) = some (tokens, next)) :
    (spellMode value mode).run? id (value x).toList =
      some (tokens.map (spellToken value), spellMode value next) := by
  cases mode with
  | blank =>
      obtain ⟨rfl, rfl⟩ := Prod.mk.inj (Option.some.inj h)
      have hfinish : (Mode.blank : Mode Char).finish? = some [] := rfl
      have hrun := run_next (hvalue x) hfinish fun c _ => rfl
      simpa [Mode.mapText] using hrun
  | word text =>
      obtain ⟨rfl, rfl⟩ := Prod.mk.inj (Option.some.inj h)
      simpa [Mode.mapText] using run_word (hvalue x) (spell value text)
  | operator text =>
      rw [step_operator_of_start _ _ (show startsWord (Letter.look (.slot x)) = true from rfl),
        Mode.next?] at h
      obtain ⟨rfl, rfl⟩ := Prod.mk.inj (Option.some.inj h)
      have hfinish : (spellMode value (.operator text)).finish? =
          some ((operatorTokens text).map (spellToken value)) := finish_spell _
      have hrun := run_next (hvalue x) hfinish fun c hc => step_operator_of_start id text hc
      simpa [Mode.mapText] using hrun
  | comment text =>
      obtain ⟨rfl, rfl⟩ := Prod.mk.inj (Option.some.inj h)
      simpa [Mode.mapText] using run_comment (hvalue x) (spell value text)
  | literal text =>
      obtain ⟨rfl, rfl⟩ := Prod.mk.inj (Option.some.inj h)
      simpa [Mode.mapText] using run_literal (hvalue x) (spell value text)
  | escape text =>
      have hnone : (Mode.escape text).step? Letter.look (.slot x) = none := rfl
      rw [hnone] at h
      contradiction

private theorem run_append {look : Char → Char} {mode middle last : Mode Char}
    {front back : List Char}
    {before after : List (Token Char)} (hfront : mode.run? look front = some (before, middle))
    (hback : middle.run? look back = some (after, last)) :
    mode.run? look (front ++ back) = some (before ++ after, last) := by
  induction front generalizing mode before with
  | nil =>
      obtain ⟨rfl, rfl⟩ := Prod.mk.inj (Option.some.inj hfront)
      exact hback
  | cons c front ih =>
      obtain ⟨tokens, next, later, hstep, hnext, rfl⟩ := run_cons_inv hfront
      rw [List.cons_append, run_cons look hstep (ih hnext), List.append_assoc]

theorem run_spell (hvalue : Named value) {mode last : Mode (Letter σ)} {row : List (Letter σ)}
    {tokens : List (Token (Letter σ))} (h : mode.run? Letter.look row = some (tokens, last)) :
    (spellMode value mode).run? id (spell value row) =
      some (tokens.map (spellToken value), spellMode value last) := by
  induction row generalizing mode tokens with
  | nil =>
      obtain ⟨rfl, rfl⟩ := Prod.mk.inj (Option.some.inj h)
      rfl
  | cons letter row ih =>
      obtain ⟨first, next, later, hstep, hnext, rfl⟩ := run_cons_inv h
      cases letter with
      | char c =>
          have hchar := @step_spell σ value mode c
          rw [hstep, Option.map_some] at hchar
          rw [spell_char_cons, run_cons id hchar (ih hnext), List.map_append]
      | slot x =>
          rw [spell_slot_cons, run_append (run_slot hvalue hstep) (ih hnext), List.map_append]

theorem lineTokens_spell (hvalue : Named value) {row : List (Letter σ)}
    {tokens : List (Token (Letter σ))} (h : lineTokens? Letter.look row = some tokens) :
    lineTokens? id (spell value row) = some (tokens.map (spellToken value)) := by
  obtain ⟨front, last, ending, hrun, hfinish, rfl⟩ := lineTokens_inv h
  have hspell := run_spell hvalue hrun
  have hending : (spellMode value last).finish? = some (ending.map (spellToken value)) := by
    rw [finish_spell, hfinish, Option.map_some]
  simp only [Mode.mapText] at hspell
  simp only [lineTokens?, hspell, Option.bind_some, hending, Option.map_some, List.map_append]

/-! ## Words -/

def mayEqual : List (Letter σ) → List Char → Bool
  | [], text => text.isEmpty
  | _ :: _, [] => false
  | .char c :: row, d :: text => c == d && mayEqual row text
  | .slot x :: row, _ :: text => mayEqual row text || mayEqual (.slot x :: row) text

private theorem mayEqual_slot (x : σ) (row : List (Letter σ)) (run : List Char) {text : List Char}
    (hrun : run ≠ []) (h : mayEqual row text = true) :
    mayEqual (.slot x :: row) (run ++ text) = true := by
  induction run with
  | nil => contradiction
  | cons c run ih =>
      rw [List.cons_append, mayEqual]
      cases run with
      | nil => simp [h]
      | cons d run =>
          rw [ih (List.cons_ne_nil _ _)]
          simp

theorem mayEqual_spell (hvalue : Named value) (row : List (Letter σ)) :
    mayEqual row (spell value row) = true := by
  induction row with
  | nil => rfl
  | cons letter row ih =>
      cases letter with
      | char c => simp [mayEqual, ih]
      | slot x =>
          obtain ⟨first, rest, hx, -⟩ := (hvalue x).exists_cons
          rw [spell_slot_cons]
          exact mayEqual_slot x row _ (by simp [hx]) ih

private theorem spell_of_look {row : List (Letter σ)} (h : '_' ∉ row.map Letter.look) :
    spell value row = row.map Letter.look := by
  induction row with
  | nil => rfl
  | cons letter row ih =>
      obtain ⟨hletter, hrow⟩ := List.ne_and_not_mem_of_not_mem_cons h
      cases letter with
      | char c =>
          rw [spell_char_cons, ih hrow]
          rfl
      | slot x => exact absurd rfl hletter

/-! ## Shapes -/

def isSlot : List (Letter σ) → Bool
  | [.slot _] => true
  | _ => false

/-- Whether the token stays a keyword or an identifier when its slots are filled:
a name is no keyword itself, and any other word with slots must not look like one. -/
def keepsShape : Token (Letter σ) → Bool
  | .word row =>
      !(row.map Letter.look).contains '_' || isSlot row ||
        reservedWords.all fun k => !mayEqual row k.toList
  | _ => true

private theorem exists_of_isSlot {row : List (Letter σ)} (h : isSlot row = true) :
    ∃ x, row = [.slot x] := by
  unfold isSlot at h
  split at h
  · exact ⟨_, rfl⟩
  · contradiction

private theorem shape_word_eq_identifier {α : Type} {look : α → Char} {text : List α}
    (h : ∀ k ∈ reservedWords, k.toList ≠ text.map look) :
    (Token.word text).shape look = .identifier := by
  have hnone : (reservedWords.any fun k => k.toList = text.map look) = false := by
    rw [List.any_eq_false]
    intro k hk
    simpa using h k hk
  rw [Token.shape, hnone]
  rfl

private theorem shape_of_underscore {row : List (Letter σ)} (h : '_' ∈ row.map Letter.look) :
    (Token.word row).shape Letter.look = .identifier := by
  apply shape_word_eq_identifier
  intro k hk heq
  have hnone : ∀ k ∈ reservedWords, '_' ∉ k.toList := by decide +kernel
  exact hnone k hk (heq ▸ h)

theorem shape_spell (hvalue : Named value) {token : Token (Letter σ)}
    (h : keepsShape token = true) :
    (spellToken value token).shape id = token.shape Letter.look := by
  cases token with
  | comment text => rfl
  | literal text => rfl
  | operator text => rfl
  | word row =>
      by_cases hslots : '_' ∈ row.map Letter.look
      · rw [shape_of_underscore hslots]
        apply shape_word_eq_identifier
        rw [List.map_id]
        simp only [keepsShape, Bool.or_eq_true, Bool.not_eq_true', List.contains_eq_mem,
          decide_eq_false_iff_not, List.all_eq_true] at h
        rintro k hk heq
        rcases h with (hchars | hslot) | hall
        · exact hchars hslots
        · obtain ⟨x, rfl⟩ := exists_of_isSlot hslot
          have hname : k = value x := by
            apply String.toList_inj.mp
            simpa using heq
          exact (hvalue x).not_keyword (mem_reservedWords_iff.mp (hname ▸ hk))
        · have hmay := mayEqual_spell hvalue row
          rw [← heq, hall k hk] at hmay
          contradiction
      · simp [Token.mapText, Token.shape, spell_of_look hslots]

/-! ## Calls -/

def mayBe : Token Char → Token (Letter σ) → Bool
  | .comment text, .comment row => mayEqual row text
  | .literal text, .literal row => mayEqual row text
  | .word text, .word row => mayEqual row text
  | .operator a, .operator b => a == b
  | _, _ => false

def mayStartWith : List (Token Char) → List (Token (Letter σ)) → Bool
  | [], _ => true
  | _ :: _, [] => false
  | expected :: later, token :: tokens => mayBe expected token && mayStartWith later tokens

def callsAreClear : List (Token (Letter σ)) → Bool
  | [] => true
  | token :: tokens =>
      (!mayStartWith callTokens (token :: tokens) ||
          startsCall Letter.look (token :: tokens)) && callsAreClear tokens

theorem mayBe_spell (hvalue : Named value) (token : Token (Letter σ)) :
    mayBe (spellToken value token) token = true := by
  cases token with
  | comment row => exact mayEqual_spell hvalue row
  | literal row => exact mayEqual_spell hvalue row
  | word row => exact mayEqual_spell hvalue row
  | operator text => simp [Token.mapText, mayBe]

private theorem mayStartWith_spell (hvalue : Named value) {expected : List (Token Char)}
    {tokens : List (Token (Letter σ))} (h : expected <+: tokens.map (spellToken value)) :
    mayStartWith expected tokens = true := by
  induction expected generalizing tokens with
  | nil => rfl
  | cons first later ih =>
      cases tokens with
      | nil => simp at h
      | cons token tokens =>
          obtain ⟨rfl, hlater⟩ := List.cons_prefix_cons.mp h
          rw [mayStartWith, mayBe_spell hvalue, ih hlater]
          rfl

private theorem spellToken_of_look {token : Token (Letter σ)}
    (h : token.mapText (List.map Letter.look) ∈ callTokens) :
    spellToken value token = token.mapText (List.map Letter.look) := by
  cases token with
  | comment row => simp [callTokens, Token.mapText] at h
  | literal row => simp [callTokens, Token.mapText] at h
  | operator text => rfl
  | word row =>
      have hwords : ∀ text, .word text ∈ callTokens → '_' ∉ text := by
        intro text htext
        simp only [callTokens, List.mem_cons, Token.word.injEq, reduceCtorEq, false_or,
          or_false, List.not_mem_nil] at htext
        rcases htext with rfl | rfl
        · decide
        · decide
      exact congrArg Token.word (spell_of_look (hwords _ h))

private theorem prefix_spell_of_look {expected : List (Token Char)}
    (hexpected : expected ⊆ callTokens) {tokens : List (Token (Letter σ))}
    (h : expected <+: tokens.map (Token.mapText (List.map Letter.look))) :
    expected <+: tokens.map (spellToken value) := by
  induction expected generalizing tokens with
  | nil => exact List.nil_prefix
  | cons first later ih =>
      cases tokens with
      | nil => simp at h
      | cons token tokens =>
          obtain ⟨hfirst, hlater⟩ := List.cons_prefix_cons.mp h
          obtain ⟨hmem, hsubset⟩ := List.cons_subset.mp hexpected
          rw [hfirst] at hmem
          rw [hfirst, ← spellToken_of_look hmem, List.map_cons, List.cons_prefix_cons]
          exact ⟨rfl, ih hsubset hlater⟩

theorem startsCall_spell (hvalue : Named value) {tokens : List (Token (Letter σ))}
    (hclear : mayStartWith callTokens tokens = true → startsCall Letter.look tokens = true) :
    startsCall id (tokens.map (spellToken value)) = startsCall Letter.look tokens := by
  rw [Bool.eq_iff_iff, startsCall_iff]
  constructor
  · intro h
    exact hclear (mayStartWith_spell hvalue h)
  · intro h
    rw [startsCall, List.isPrefixOf_iff_prefix] at h
    exact prefix_spell_of_look (List.Subset.refl _) h

theorem callsIn_spell (hvalue : Named value) {tokens : List (Token (Letter σ))}
    (hclear : callsAreClear tokens = true) :
    callsIn id (tokens.map (spellToken value)) =
      (callsIn Letter.look tokens).map (List.map (spellToken value)) := by
  induction tokens with
  | nil => rfl
  | cons token tokens ih =>
      rw [callsAreClear, Bool.and_eq_true] at hclear
      have hhere : mayStartWith callTokens (token :: tokens) = true →
          startsCall Letter.look (token :: tokens) = true := by
        intro hmay
        simpa [hmay] using hclear.1
      have hstarts := startsCall_spell hvalue hhere
      rw [List.map_cons] at hstarts
      rw [List.map_cons, callsIn, callsIn, hstarts, ih hclear.2]
      by_cases hcall : startsCall Letter.look (token :: tokens) = true
      · rw [if_pos hcall, if_pos hcall, List.map_cons, List.map_drop]
      · rw [if_neg hcall, if_neg hcall]

theorem code_spell (value : σ → String) (tokens : List (Token (Letter σ))) :
    code (tokens.map (spellToken value)) = (code tokens).map (spellToken value) := by
  have hcomment : ∀ token : Token (Letter σ),
      (spellToken value token).isComment = token.isComment := by
    intro token
    cases token with
    | comment row => rfl
    | literal row => rfl
    | word row => rfl
    | operator text => rfl
  rw [code, List.filter_map]
  simp only [Function.comp_def, hcomment]
  rfl

theorem formatCalls_spell (hvalue : Named value) {tokens : List (Token (Letter σ))}
    (hclear : callsAreClear (code tokens) = true) :
    formatCalls id (tokens.map (spellToken value)) =
      (formatCalls Letter.look tokens).map (List.map (spellToken value)) := by
  rw [formatCalls, code_spell, callsIn_spell hvalue hclear, formatCalls]

/-! ## Formats -/

private theorem verbsFrom_skip (chars rest : List Char) (h : '%' ∉ chars) :
    verbsFrom? id false (chars ++ rest) = verbsFrom? id false rest := by
  induction chars with
  | nil => rfl
  | cons c chars ih =>
      obtain ⟨hc, hchars⟩ := List.ne_and_not_mem_of_not_mem_cons h
      have hne : (id c == '%') = false := by simpa using Ne.symm hc
      rw [List.cons_append, verbsFrom?, if_neg Bool.false_ne_true, hne, ih hchars]

theorem verbsFrom_spell (hvalue : Named value) {behindPercent : Bool} {row : List (Letter σ)}
    {n : Nat} (h : verbsFrom? Letter.look behindPercent row = some n) :
    verbsFrom? id behindPercent (spell value row) = some n := by
  induction row generalizing behindPercent n with
  | nil => exact h
  | cons letter row ih =>
      rw [verbsFrom?] at h
      cases letter with
      | char c =>
          rw [spell_char_cons, verbsFrom?]
          change (if behindPercent then
              if c = '%' then verbsFrom? Letter.look false row
              else if c.isAlpha then (verbsFrom? Letter.look false row).map (· + 1)
              else if isVerbFlag c then verbsFrom? Letter.look true row
              else none
            else verbsFrom? Letter.look (c == '%') row) = some n at h
          simp only [id_eq]
          split_ifs at h ⊢
          · exact ih h
          · obtain ⟨k, hk, rfl⟩ := Option.map_eq_some_iff.mp h
            rw [ih hk]
            rfl
          · exact ih h
          · exact ih h
      | slot x =>
          cases behindPercent with
          | true => contradiction
          | false =>
              rw [spell_slot_cons, verbsFrom_skip _ _ ((hvalue x).not_mem (by decide))]
              exact ih h

private theorem argumentsFrom_mapText {α β : Type} (f : List α → List β) (depth : Nat)
    (tokens : List (Token α)) :
    argumentsFrom? depth (tokens.map (Token.mapText f)) = argumentsFrom? depth tokens := by
  induction tokens generalizing depth with
  | nil => rfl
  | cons token tokens ih =>
      have hhead : (tokens.map (Token.mapText f)).head?.any (isOperator [')']) =
          tokens.head?.any (isOperator [')']) := by
        cases tokens with
        | nil => rfl
        | cons next tokens => exact isOperator_mapText f [')'] next
      have hopens : (token.mapText f).opens = token.opens := by
        simp only [Token.opens, isOperator_mapText]
      have hcloses : (token.mapText f).closes = token.closes := by
        simp only [Token.closes, isOperator_mapText]
      rw [List.map_cons, argumentsFrom?, argumentsFrom?, hhead, isOperator_mapText f [')'],
        isOperator_mapText f [','], hopens, hcloses, ih depth, ih (depth + 1), ih (depth - 1)]

theorem formatFits_spell (hvalue : Named value) {call : List (Token (Letter σ))}
    (h : formatFits Letter.look call = true) :
    formatFits id (call.map (spellToken value)) = true := by
  obtain ⟨format, rest, n, rfl, hhead, hverbs, harguments⟩ := formatFits_cons_iff.mp h
  refine formatFits_cons_iff.mpr ⟨spell value format, rest.map (spellToken value), n, rfl, ?_,
    verbsFrom_spell hvalue hverbs, ?_⟩
  · cases rest with
    | nil => contradiction
    | cons token rest =>
        simp only [List.map_cons, List.head?_cons, Option.any_some, isOperator_mapText] at hhead ⊢
        exact hhead
  · rw [argumentsFrom_mapText]
    exact harguments

end ServiceHarness.Harness
