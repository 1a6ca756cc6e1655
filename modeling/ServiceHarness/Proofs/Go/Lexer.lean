import Mathlib.Data.List.Basic
import ServiceHarness.Proofs.Text.Lines

/-!
# Tokens of Go source

Go source split into line comments, interpreted string literals, words, and
operators with punctuation.  Every harness consists of these; a text with
anything else is refused: numbers, runes, raw literals, block comments, escapes
with digits, and letters outside ASCII in words.

The letters are of any type, and `look` tells what character a letter looks
like, so that rows with slots can be read like texts.
-/

namespace ServiceHarness.Go

open ServiceHarness.Harness ServiceHarness.Text

inductive Token (α : Type) where
  | comment (text : List α)
  | literal (text : List α)
  | word (text : List α)
  | operator (text : List Char)
  deriving DecidableEq, Repr

def Token.mapText {α β : Type} (f : List α → List β) : Token α → Token β
  | .comment text => .comment (f text)
  | .literal text => .literal (f text)
  | .word text => .word (f text)
  | .operator text => .operator text

def operators : List (List Char) :=
  [['+'], ['&'], ['+', '='], ['&', '='], ['&', '&'], ['=', '='], ['!', '='], ['('], [')'],
    ['-'], ['|'], ['-', '='], ['|', '='], ['|', '|'], ['<'], ['<', '='], ['['], [']'],
    ['*'], ['^'], ['*', '='], ['^', '='], ['<', '-'], ['>'], ['>', '='], ['\x7b'], ['\x7d'],
    ['/'], ['<', '<'], ['/', '='], ['<', '<', '='], ['+', '+'], ['='], [':', '='], [','],
    [';'], ['%'], ['>', '>'], ['%', '='], ['>', '>', '='], ['-', '-'], ['!'],
    ['.', '.', '.'], ['.'], [':'], ['&', '^'], ['&', '^', '='], ['~']]

def startsOperator (text : List Char) : Bool :=
  operators.any text.isPrefixOf

def reservedWords : List String :=
  ["break", "default", "func", "interface", "select", "case", "defer", "go", "map", "struct",
    "chan", "else", "goto", "package", "switch", "const", "fallthrough", "if", "range", "type",
    "continue", "for", "import", "return", "var"]

def startsWord (c : Char) : Bool := c == '_' || c.isAlpha

def continuesWord (c : Char) : Bool := startsWord c || c.isDigit

def isBlank (c : Char) : Bool :=
  c == ' ' || c == '\t' || c == '\r' || c == '\n'

def isEscape (c : Char) : Bool :=
  c == 'a' || c == 'b' || c == 'f' || c == 'n' || c == 'r' || c == 't' || c == 'v' ||
    c == '\\' || c == '"'

/-- Where the lexer stands: what it has read of the next token. -/
inductive Mode (α : Type) where
  | blank
  | word (text : List α)
  | operator (text : List Char)
  | comment (text : List α)
  | literal (text : List α)
  | escape (text : List α)
  deriving DecidableEq, Repr

variable {α : Type}

def Mode.mapText {β : Type} (f : List α → List β) : Mode α → Mode β
  | .blank => .blank
  | .word text => .word (f text)
  | .operator text => .operator text
  | .comment text => .comment (f text)
  | .literal text => .literal (f text)
  | .escape text => .escape (f text)

/-- Two dots start the operator of three, but are no operator themselves. -/
def operatorTokens (text : List Char) : List (Token α) :=
  if text ∈ operators then [.operator text] else text.map fun c => .operator [c]

def Mode.finish? : Mode α → Option (List (Token α))
  | .blank => some []
  | .word text => some [.word text]
  | .operator text => some (operatorTokens text)
  | .comment text => some [.comment text]
  | .literal _ => none
  | .escape _ => none

section Look

variable (look : α → Char)

def begin? (a : α) : Option (Mode α) :=
  if isBlank (look a) then some .blank
  else if startsWord (look a) then some (.word [a])
  else if look a = '"' then some (.literal [])
  else if startsOperator [look a] then some (.operator [look a])
  else none

def Mode.next? (mode : Mode α) (a : α) : Option (List (Token α) × Mode α) :=
  mode.finish?.bind fun tokens => (begin? look a).map fun next => (tokens, next)

def Mode.step? (mode : Mode α) (a : α) : Option (List (Token α) × Mode α) :=
  match mode with
  | .blank => mode.next? look a
  | .word text =>
      if continuesWord (look a) then some ([], .word (text ++ [a])) else mode.next? look a
  | .operator text =>
      if text = ['/'] ∧ look a = '/' then some ([], .comment [])
      else if text = ['/'] ∧ look a = '*' then none
      else if startsOperator (text ++ [look a]) then some ([], .operator (text ++ [look a]))
      else mode.next? look a
  | .comment text =>
      if look a = '\n' then mode.next? look a else some ([], .comment (text ++ [a]))
  | .literal text =>
      if look a = '"' then some ([.literal text], .blank)
      else if look a = '\\' then some ([], .escape (text ++ [a]))
      else if look a = '\n' then none
      else some ([], .literal (text ++ [a]))
  | .escape text =>
      if isEscape (look a) then some ([], .literal (text ++ [a])) else none

def Mode.run? (mode : Mode α) : List α → Option (List (Token α) × Mode α)
  | [] => some ([], mode)
  | a :: rest =>
      (mode.step? look a).bind fun (tokens, next) =>
        (next.run? rest).map fun (later, last) => (tokens ++ later, last)

def lineTokens? (letters : List α) : Option (List (Token α)) :=
  (Mode.blank.run? look letters).bind fun (tokens, last) =>
    last.finish?.map fun ending => tokens ++ ending

/-- The tokens of a text, each with its line; no token goes beyond its line. -/
def lexFrom (line : Nat) (mode : Mode α) : List α → Option (List (Token α × Nat))
  | [] => mode.finish?.map fun tokens => tokens.map (·, line)
  | a :: rest =>
      (mode.step? look a).bind fun (tokens, next) =>
        (lexFrom (if look a = '\n' then line + 1 else line) next rest).map fun later =>
          tokens.map (·, line) ++ later

end Look

def lex (text : String) : Option (List (Token Char × Nat)) :=
  lexFrom id 1 .blank text.toList

/-! ## Shapes -/

/-- What is kept of a token when names may differ. -/
inductive Shape where
  | comment
  | literal
  | identifier
  | keyword (text : List Char)
  | operator (text : List Char)
  deriving DecidableEq, Repr

def Token.shape (look : α → Char) : Token α → Shape
  | .comment _ => .comment
  | .literal _ => .literal
  | .word text =>
      if reservedWords.any fun k => k.toList = text.map look then .keyword (text.map look)
      else .identifier
  | .operator text => .operator text

def shapes (tokens : List (Token Char × Nat)) : List (Shape × Nat) :=
  tokens.map fun (token, line) => (token.shape id, line)

/-! ## Steps -/

private theorem startsOperator_append (text : List Char) {c : Char}
    (hc : ∀ operator ∈ operators, c ∉ operator) : startsOperator (text ++ [c]) = false := by
  rw [startsOperator, List.any_eq_false]
  intro operator hoperator hprefix
  have hmem : c ∈ operator :=
    (List.isPrefixOf_iff_prefix.mp hprefix).subset (by simp)
  exact hc operator hoperator hmem

private theorem startsOperator_of_start (text : List Char) {c : Char} (h : startsWord c = true) :
    startsOperator (text ++ [c]) = false := by
  apply startsOperator_append
  intro operator hoperator hmem
  have hnone : operators.flatten.any startsWord = false := by decide
  rw [List.any_eq_false] at hnone
  exact hnone c (List.mem_flatten.mpr ⟨operator, hoperator, hmem⟩) h

theorem step_operator_of_start (look : α → Char) (text : List Char) {a : α}
    (h : startsWord (look a) = true) :
    (Mode.operator text).step? look a = (Mode.operator text).next? look a := by
  have hslash : look a ≠ '/' := by
    intro heq
    rw [heq] at h
    contradiction
  have hstar : look a ≠ '*' := by
    intro heq
    rw [heq] at h
    contradiction
  simp [Mode.step?, hslash, hstar, startsOperator_of_start text h]

/-! ## Lines -/

private theorem step_newline (mode : Mode Char) :
    mode.step? id '\n' = mode.finish?.map fun tokens => (tokens, .blank) := by
  have hnext : mode.next? id '\n' = mode.finish?.map fun tokens => (tokens, .blank) := by
    cases hfinish : mode.finish? with
    | none => simp [Mode.next?, hfinish]
    | some tokens => simp [Mode.next?, hfinish, begin?, isBlank]
  cases mode with
  | blank => exact hnext
  | word text => exact hnext
  | operator text =>
      simp only [Mode.step?, id_eq]
      rw [if_neg (by simp), if_neg (by simp),
        if_neg (by simp [startsOperator_append text (show ∀ o ∈ operators, '\n' ∉ o by decide)])]
      exact hnext
  | comment text => exact hnext
  | literal text => rfl
  | escape text => rfl

theorem run_cons (look : α → Char) {mode next last : Mode α} {a : α} {rest : List α}
    {tokens later : List (Token α)} (hstep : mode.step? look a = some (tokens, next))
    (hrun : next.run? look rest = some (later, last)) :
    mode.run? look (a :: rest) = some (tokens ++ later, last) := by
  simp [Mode.run?, hstep, hrun]

theorem run_cons_inv {look : α → Char} {mode last : Mode α} {a : α} {rest : List α}
    {all : List (Token α)} (h : mode.run? look (a :: rest) = some (all, last)) :
    ∃ tokens next later, mode.step? look a = some (tokens, next) ∧
      next.run? look rest = some (later, last) ∧ all = tokens ++ later := by
  rw [Mode.run?] at h
  cases hstep : mode.step? look a with
  | none =>
      rw [hstep] at h
      contradiction
  | some result =>
      obtain ⟨tokens, next⟩ := result
      rw [hstep, Option.bind_some] at h
      obtain ⟨⟨later, last'⟩, hrun, heq⟩ := Option.map_eq_some_iff.mp h
      obtain ⟨rfl, rfl⟩ := Prod.mk.inj heq
      exact ⟨tokens, next, later, rfl, hrun, rfl⟩

theorem lineTokens_inv {look : α → Char} {letters : List α} {all : List (Token α)}
    (h : lineTokens? look letters = some all) :
    ∃ tokens last ending, Mode.blank.run? look letters = some (tokens, last) ∧
      last.finish? = some ending ∧ all = tokens ++ ending := by
  obtain ⟨⟨tokens, last⟩, hrun, hlast⟩ := Option.bind_eq_some_iff.mp h
  obtain ⟨ending, hfinish, rfl⟩ := Option.map_eq_some_iff.mp hlast
  exact ⟨tokens, last, ending, hrun, hfinish, rfl⟩

private theorem lexFrom_line (n : Nat) {mode last : Mode Char} {chars : List Char}
    {tokens ending : List (Token Char)} (rest : List Char) (h : '\n' ∉ chars)
    (hrun : mode.run? id chars = some (tokens, last)) (hfinish : last.finish? = some ending) :
    lexFrom id n mode (chars ++ '\n' :: rest) =
      (lexFrom id (n + 1) .blank rest).map fun later =>
        (tokens ++ ending).map (·, n) ++ later := by
  induction chars generalizing mode tokens with
  | nil =>
      obtain ⟨rfl, rfl⟩ := Prod.mk.inj (Option.some.inj hrun)
      rw [List.nil_append, lexFrom, step_newline, hfinish]
      rfl
  | cons c chars ih =>
      obtain ⟨hc, hchars⟩ := List.ne_and_not_mem_of_not_mem_cons h
      obtain ⟨first, next, later, hstep, hnext, rfl⟩ := run_cons_inv hrun
      have hline : (if id c = '\n' then n + 1 else n) = n := if_neg (Ne.symm hc)
      rw [List.cons_append, lexFrom, hstep, Option.bind_some]
      simp only [hline, ih hchars hnext, Option.map_map]
      congr 1
      funext more
      simp

def numbered {β : Type} (n : Nat) : List (List β) → List (β × Nat)
  | [] => []
  | block :: later => block.map (·, n) ++ numbered (n + 1) later

theorem map_numbered {β γ : Type} (f : β → γ) (n : Nat) (blocks : List (List β)) :
    (numbered n blocks).map (fun (b, line) => (f b, line)) =
      numbered n (blocks.map (List.map f)) := by
  induction blocks generalizing n with
  | nil => rfl
  | cons block later ih => simp [numbered, ih]

theorem map_fst_numbered {β : Type} (n : Nat) (blocks : List (List β)) :
    (numbered n blocks).map Prod.fst = blocks.flatten := by
  induction blocks generalizing n with
  | nil => rfl
  | cons block later ih => simp [numbered, ih, Function.comp_def]

theorem lexFrom_lines (n : Nat) {ls : List (List Char)} {tokens : List (List (Token Char))}
    (hlines : ∀ l ∈ ls, '\n' ∉ l) (htokens : ls.map (lineTokens? id) = tokens.map some) :
    lexFrom id n .blank (ls.flatMap (· ++ ['\n'])) = some (numbered n tokens) := by
  induction ls generalizing n tokens with
  | nil =>
      obtain rfl : tokens = [] := by simpa using htokens.symm
      rfl
  | cons l ls ih =>
      cases tokens with
      | nil => contradiction
      | cons block later =>
          rw [List.map_cons, List.map_cons] at htokens
          obtain ⟨hblock, hlater⟩ := List.cons.inj htokens
          obtain ⟨first, last, ending, hrun, hfinish, rfl⟩ := lineTokens_inv hblock
          have hrest := ih (n + 1) (fun l' hl' => hlines l' (List.mem_cons_of_mem l hl')) hlater
          rw [List.flatMap_cons, List.append_assoc, List.singleton_append,
            lexFrom_line n _ (hlines l List.mem_cons_self) hrun hfinish, hrest]
          rfl

theorem lex_joinLines {ls : List String} {tokens : List (List (Token Char))}
    (hlines : ∀ line ∈ ls, '\n' ∉ line.toList)
    (htokens : ls.map (fun line => lineTokens? id line.toList) = tokens.map some) :
    lex (joinLines ls) = some (numbered 1 tokens) := by
  rw [lex, toList_joinLines]
  apply lexFrom_lines
  · intro chars hchars
    obtain ⟨line, hline, rfl⟩ := List.mem_map.mp hchars
    exact hlines line hline
  · rw [List.map_map]
    exact htokens

example : lex (joinLines ["x<<=y..z", "// x", "if \"\\\"\""]) =
    some [(.word ['x'], 1), (.operator ['<', '<', '='], 1), (.word ['y'], 1),
      (.operator ['.'], 1), (.operator ['.'], 1), (.word ['z'], 1), (.comment [' ', 'x'], 2),
      (.word ['i', 'f'], 3), (.literal ['\\', '"'], 3)] := by
  decide +kernel

end ServiceHarness.Go
