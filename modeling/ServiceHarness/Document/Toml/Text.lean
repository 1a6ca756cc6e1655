import ServiceHarness.Document.Toml.Statement

/-!
# Keys and strings

What quoted texts and keys stand for.  A literal string stands for the
characters between its quotes.  A basic string may hold escapes; with three
quotes it may also break a line behind a backslash, which leaves out the
blanks and newlines that follow.
-/

namespace ServiceHarness.Document.Toml

open ServiceHarness.Text

abbrev Decoded := Except Fault (List Char)

def pointFault (problem : Problem) (index : Nat) : Fault := ⟨problem, .point index⟩

def dropQuotes? (quote : Char) : Nat → List Char → Option (List Char)
  | 0, chars => some chars
  | _ + 1, [] => none
  | count + 1, c :: rest => if c = quote then dropQuotes? quote count rest else none

def Style.char : Style → Char
  | .literal => '\''
  | .longLiteral => '\''
  | _ => '"'

def Style.quoteCount : Style → Nat
  | .bare => 0
  | .literal => 1
  | .basic => 1
  | _ => 3

/-- The newline behind the opening quotes of a long string is not part of it. -/
def dropNewline : List Char → Nat × List Char
  | '\n' :: rest => (1, rest)
  | '\r' :: '\n' :: rest => (2, rest)
  | chars => (0, chars)

def Raw.body (r : Raw) : Except Fault (Nat × List Char) :=
  let count := r.style.quoteCount
  match dropQuotes? r.style.char count r.text with
  | none => .error (pointFault (.quoteMissing r.style) r.start)
  | some chars =>
      let (skipped, chars) := if count = 3 then dropNewline chars else (0, chars)
      match dropQuotes? r.style.char count chars.reverse with
      | none => .error (pointFault (.quoteMissing r.style) r.stop)
      | some reversed => .ok (r.start + count + skipped, reversed.reverse)

def isVisible (c : Char) : Bool :=
  c == '\t' || (0x20 ≤ c.toNat && c.toNat ≠ 0x7F)

def Style.allows (style : Style) (c : Char) : Bool :=
  match style with
  | .literal => isVisible c && c ≠ '\''
  | .longLiteral => isVisible c || c == '\n'
  | .basic => isVisible c && c ≠ '"' && c ≠ '\\'
  | .longBasic => (isVisible c && c ≠ '\\') || c == '\n'
  | .bare => false

def checkLiteral (style : Style) (index : Nat) : List Char → Except Fault Unit
  | [] => .ok ()
  | '\r' :: rest =>
      if style = .longLiteral then
        if rest.head? = some '\n' then checkLiteral style (index + 1) rest
        else .error (pointFault .loneReturn (index + 1))
      else .error (pointFault (.textCharacter style) index)
  | c :: rest =>
      if style.allows c then checkLiteral style (index + c.utf8Size) rest
      else .error (pointFault (.textCharacter style) index)

def isHexDigit (c : Char) : Bool :=
  ('0' ≤ c && c ≤ '9') || ('a' ≤ c && c ≤ 'f') || ('A' ≤ c && c ≤ 'F')

def digitOf (c : Char) : Nat :=
  if c ≤ '9' then c.toNat - 48 else if c ≤ 'F' then c.toNat - 55 else c.toNat - 87

def numberOf (base : Nat) (digits : List Char) : Nat :=
  digits.foldl (fun n c => n * base + digitOf c) 0

def isScalarValue (n : Nat) : Bool := n < 0xD800 || (0xDFFF < n && n < 0x110000)

def letterEscape? (c : Char) : Option Char :=
  if c = 'b' then some '\x08'
  else if c = 'e' then some '\x1b'
  else if c = 'f' then some '\x0c'
  else if c = 'n' then some '\n'
  else if c = 'r' then some '\r'
  else if c = 't' then some '\t'
  else if c = '\\' then some '\\'
  else if c = '"' then some '"'
  else none

def escapeSize? (c : Char) : Option Nat :=
  if c = 'x' then some 2 else if c = 'u' then some 4 else if c = 'U' then some 8 else none

/-- Where the reader stands in a basic string.  `control` counts the bytes of a
run of characters that may not stand there, which began at byte `start`;
`broken` is the line continuation before and behind its first newline. -/
inductive BasicMode where
  | plain
  | control (start : Nat)
  | carriage
  | backslash
  | digits (wanted start : Nat) (digits : List Char)
  | broken (seenNewline : Bool)
  | brokenCarriage
  deriving DecidableEq, Repr

structure BasicReader where
  mode : BasicMode
  index : Nat
  chars : List Char
  deriving DecidableEq, Repr

namespace BasicReader

def push (r : BasicReader) (c : Char) : BasicReader := { r with mode := .plain, chars := c :: r.chars }

def controlFault (style : Style) (r : BasicReader) (start : Nat) : Fault :=
  ⟨.textCharacter style, ⟨start, r.index⟩⟩

def finishEscape (r : BasicReader) (start : Nat) (digits : List Char) :
    Except Fault BasicReader :=
  let n := numberOf 16 digits.reverse
  if isScalarValue n then .ok (r.push (Char.ofNat n))
  else .error (pointFault .escapeValue start)

def stepPlain (style : Style) (r : BasicReader) (c : Char) : Except Fault BasicReader :=
  if c = '\\' then .ok { r with mode := .backslash }
  else if style.allows c then .ok (r.push c)
  else if style = .longBasic ∧ c = '\r' then .ok { r with mode := .carriage }
  else .ok { r with mode := .control r.index }

def stepBroken (style : Style) (r : BasicReader) (seenNewline : Bool) (c : Char) :
    Except Fault BasicReader :=
  if c = ' ' ∨ c = '\t' then .ok r
  else if c = '\n' then .ok { r with mode := .broken true }
  else if c = '\r' then .ok { r with mode := .brokenCarriage }
  else if seenNewline then stepPlain style { r with mode := .plain } c
  else .error (pointFault .continuation r.index)

def stepBackslash (style : Style) (r : BasicReader) (c : Char) : Except Fault BasicReader :=
  match letterEscape? c with
  | some decoded => .ok (r.push decoded)
  | none =>
      match escapeSize? c with
      | some wanted => .ok { r with mode := .digits wanted (r.index + 1) [] }
      | none =>
          if style = .longBasic ∧ (c = ' ' ∨ c = '\t' ∨ c = '\n' ∨ c = '\r') then
            stepBroken style r false c |>.map fun next =>
              if c = ' ' ∨ c = '\t' then { next with mode := .broken false } else next
          else .error (pointFault .escapeUnknown r.index)

def stepMode (style : Style) (r : BasicReader) (c : Char) : Except Fault BasicReader :=
  match r.mode with
  | .plain => stepPlain style r c
  | .control start =>
      if c = '\\' ∨ style.allows c ∨ (style = .longBasic ∧ c = '\r') then
        .error (controlFault style r start)
      else .ok r
  | .carriage =>
      if c = '\n' then .ok (BasicReader.push { r with chars := '\r' :: r.chars } '\n')
      else .error (pointFault .loneReturn r.index)
  | .backslash => stepBackslash style r c
  | .digits wanted start digits =>
      if isHexDigit c then
        if digits.length + 1 < wanted then .ok { r with mode := .digits wanted start (c :: digits) }
        else finishEscape r start (c :: digits)
      else .error (pointFault .escapeShort r.index)
  | .broken seenNewline => stepBroken style r seenNewline c
  | .brokenCarriage =>
      if c = '\n' then .ok { r with mode := .broken true }
      else .error (pointFault .loneReturn r.index)

def step (style : Style) (r : BasicReader) (c : Char) : Except Fault BasicReader := do
  let next ← r.stepMode style c
  return { next with index := r.index + c.utf8Size }

def finish (style : Style) (r : BasicReader) : Decoded :=
  match r.mode with
  | .plain => .ok r.chars.reverse
  | .control start => .error (controlFault style r start)
  | .carriage => .error (pointFault .loneReturn r.index)
  | .backslash => .error (pointFault .escapeUnknown r.index)
  | .digits _ _ _ => .error (pointFault .escapeShort r.index)
  | .broken true => .ok r.chars.reverse
  | .broken false => .error (pointFault .continuation r.index)
  | .brokenCarriage => .error (pointFault .loneReturn r.index)

end BasicReader

def decodeBasic (style : Style) (index : Nat) (chars : List Char) : Decoded := do
  let r ← chars.foldlM (BasicReader.step style) ⟨.plain, index, []⟩
  r.finish style

def Raw.decodeQuoted (r : Raw) : Decoded := do
  let (index, chars) ← r.body
  match r.style with
  | .basic => decodeBasic .basic index chars
  | .longBasic => decodeBasic .longBasic index chars
  | style =>
      checkLiteral style index chars
      return chars

def isBareKeyCharacter (c : Char) : Bool :=
  ('a' ≤ c && c ≤ 'z') || ('A' ≤ c && c ≤ 'Z') || ('0' ≤ c && c ≤ '9') || c == '-' || c == '_'

def checkBareKey (index : Nat) : List Char → Except Fault Unit
  | [] => .ok ()
  | c :: rest =>
      if isBareKeyCharacter c then checkBareKey (index + c.utf8Size) rest
      else .error ⟨.bareKeyCharacter, ⟨index, index + c.utf8Size⟩⟩

def Raw.decodeKey (r : Raw) : Decoded :=
  match r.style with
  | .bare => do
      if r.text = [] then throw (pointFault .bareKeyEmpty r.start)
      checkBareKey r.start r.text
      return r.text
  | .literal => r.decodeQuoted
  | .basic => r.decodeQuoted
  | .longLiteral => .error ⟨.longKey false, r.span⟩
  | .longBasic => .error ⟨.longKey true, r.span⟩

end ServiceHarness.Document.Toml
