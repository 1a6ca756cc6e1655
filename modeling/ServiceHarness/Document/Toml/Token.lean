import ServiceHarness.Text.Utf8

/-!
# Tokens

A document is cut into tokens in one pass over its characters.  Strings keep
their quotes, and nothing is lost: the tokens, one after the other, are the
document.  A string that does not end stops at the end of its line, one with
three quotes at the end of the document.
-/

namespace ServiceHarness.Document.Toml

open ServiceHarness.Text

inductive TokenKind where
  | dot
  | equals
  | comma
  | openBracket
  | closeBracket
  | openBrace
  | closeBrace
  | blank
  | comment
  | newline
  | literal
  | longLiteral
  | basic
  | longBasic
  | atom
  | finish
  deriving DecidableEq, Repr

structure Token where
  kind : TokenKind
  start : Nat
  text : List Char
  deriving DecidableEq, Repr

def Token.stop (t : Token) : Nat := t.start + Utf8.width t.text

inductive Quote where
  | single
  | double
  deriving DecidableEq, Repr

namespace Quote

def char : Quote → Char
  | single => '\''
  | double => '"'

def shortKind : Quote → TokenKind
  | single => .literal
  | double => .basic

def longKind : Quote → TokenKind
  | single => .longLiteral
  | double => .longBasic

end Quote

/-- Where the lexer stands.  `long` counts the quotes just read in a row,
`closed` those read beyond the closing three. -/
inductive LexMode where
  | idle
  | run (kind : TokenKind)
  | carriage
  | oneQuote (q : Quote)
  | twoQuotes (q : Quote)
  | short (q : Quote) (escaped : Bool)
  | long (q : Quote) (quotes : Nat) (escaped : Bool)
  | closed (q : Quote) (extra : Nat)
  deriving DecidableEq, Repr

/-- The finished tokens, the last one first, and the one begun at byte `start`,
whose characters are in `text`, the last one first. -/
structure Lexer where
  done : List Token
  mode : LexMode
  start : Nat
  offset : Nat
  text : List Char
  deriving DecidableEq, Repr

namespace LexMode

def kind : LexMode → TokenKind
  | idle => .atom
  | run kind => kind
  | carriage => .newline
  | oneQuote q => q.shortKind
  | twoQuotes q => q.shortKind
  | short q _ => q.shortKind
  | long q _ _ => q.longKind
  | closed q _ => q.longKind

end LexMode

def isBlank (c : Char) : Bool := c == ' ' || c == '\t'

def endsAtom (c : Char) : Bool :=
  ['.', '=', ',', '[', ']', '\x7b', '\x7d', ' ', '\t', '#', '\r', '\n'].contains c

def punctuation? (c : Char) : Option TokenKind :=
  if c = '.' then some .dot
  else if c = '=' then some .equals
  else if c = ',' then some .comma
  else if c = '[' then some .openBracket
  else if c = ']' then some .closeBracket
  else if c = '\x7b' then some .openBrace
  else if c = '\x7d' then some .closeBrace
  else if c = '\n' then some .newline
  else none

def firstMode (c : Char) : LexMode :=
  if isBlank c then .run .blank
  else if c = '#' then .run .comment
  else if c = '\r' then .carriage
  else if c = '\'' then .oneQuote .single
  else if c = '"' then .oneQuote .double
  else .run .atom

namespace Lexer

def init (offset : Nat) : Lexer := ⟨[], .idle, offset, offset, []⟩

def emit (l : Lexer) (kind : TokenKind) : Lexer :=
  ⟨⟨kind, l.start, l.text.reverse⟩ :: l.done, .idle, l.offset, l.offset, []⟩

def push (l : Lexer) (c : Char) (mode : LexMode) : Lexer :=
  { l with mode := mode, offset := l.offset + c.utf8Size, text := c :: l.text }

def begin (l : Lexer) (c : Char) : Lexer :=
  match punctuation? c with
  | some kind => (l.push c .idle).emit kind
  | none => l.push c (firstMode c)

def finishBefore (l : Lexer) (c : Char) : Lexer :=
  (l.emit l.mode.kind).begin c

def goesOn (kind : TokenKind) (c : Char) : Bool :=
  match kind with
  | .blank => isBlank c
  | .comment => c ≠ '\r' && c ≠ '\n'
  | _ => !endsAtom c

def stepShort (l : Lexer) (q : Quote) (escaped : Bool) (c : Char) : Lexer :=
  if escaped ∧ (c = '\\' ∨ c = '"') then l.push c (.short q false)
  else if c = q.char then (l.push c (.short q false)).emit q.shortKind
  else if c = '\n' then l.finishBefore c
  else l.push c (.short q (q == .double && c == '\\'))

def stepLong (l : Lexer) (q : Quote) (quotes : Nat) (escaped : Bool) (c : Char) : Lexer :=
  if escaped ∧ (c = '\\' ∨ c = '"') then l.push c (.long q 0 false)
  else if c = q.char then
    if quotes < 2 then l.push c (.long q (quotes + 1) false) else l.push c (.closed q 0)
  else l.push c (.long q 0 (q == .double && c == '\\'))

def step (l : Lexer) (c : Char) : Lexer :=
  match l.mode with
  | .idle => l.begin c
  | .run kind => if goesOn kind c then l.push c (.run kind) else l.finishBefore c
  | .carriage => if c = '\n' then (l.push c .carriage).emit .newline else l.finishBefore c
  | .oneQuote q => if c = q.char then l.push c (.twoQuotes q) else l.stepShort q false c
  | .twoQuotes q => if c = q.char then l.push c (.long q 0 false) else l.finishBefore c
  | .short q escaped => l.stepShort q escaped c
  | .long q quotes escaped => l.stepLong q quotes escaped c
  | .closed q extra =>
      if c = q.char ∧ extra < 2 then l.push c (.closed q (extra + 1)) else l.finishBefore c

def finish (l : Lexer) : List Token :=
  let l := if l.mode = .idle then l else l.emit l.mode.kind
  (l.emit .finish).done.reverse

end Lexer

def lex (offset : Nat) (chars : List Char) : List Token :=
  (chars.foldl Lexer.step (.init offset)).finish

end ServiceHarness.Document.Toml
