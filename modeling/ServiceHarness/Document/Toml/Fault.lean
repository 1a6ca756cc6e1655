import ServiceHarness.Document.Mismatch
import ServiceHarness.Text.Utf8

/-!
# Faults of TOML documents

Why a document is refused, and the bytes at which it is.  The text of a fault
shows the line with the bytes marked below it.
-/

namespace ServiceHarness.Document.Toml

open ServiceHarness.Text

structure Span where
  start : Nat
  stop : Nat
  deriving DecidableEq, Repr

def Span.point (index : Nat) : Span := ⟨index, index⟩

inductive Need where
  | key
  | equals
  | value
  | comma
  deriving DecidableEq, Repr

def Need.label : Need → String
  | key => "key"
  | equals => "`=`"
  | value => "value"
  | comma => "`,`"

inductive Style where
  | bare
  | literal
  | longLiteral
  | basic
  | longBasic
  deriving DecidableEq, Repr

inductive Radix where
  | decimal
  | hexadecimal
  | octal
  | binary
  deriving DecidableEq, Repr

def Radix.base : Radix → Nat
  | decimal => 10
  | hexadecimal => 16
  | octal => 8
  | binary => 2

def Radix.mark : Radix → String
  | decimal => ""
  | hexadecimal => "0x"
  | octal => "0o"
  | binary => "0b"

def Radix.label : Radix → String
  | decimal => "decimal"
  | hexadecimal => "hexadecimal"
  | octal => "octal"
  | binary => "binary"

inductive NumberPart where
  | mantissa
  | fraction
  | exponent
  deriving DecidableEq, Repr

def NumberPart.label : NumberPart → String
  | mantissa => "mantissa"
  | fraction => "fraction"
  | exponent => "exponent"

inductive MomentPart where
  | whole
  | date
  | between
  | time
  | offset
  deriving DecidableEq, Repr

def MomentPart.label : MomentPart → String
  | whole => "datetime"
  | date => "date"
  | between => "date-time"
  | time => "time"
  | offset => "offset"

inductive Problem where
  | wantsTableOpen
  | wantsKey
  | commentCharacter
  | loneReturn
  | keyWithoutValue
  | wantsLineEnd
  | tableUnclosed
  | arrayTableUnclosed
  | arrayTableHalfClosed
  | extraEquals
  | braceNotOpen
  | bracketNotOpen
  | arrayComma
  | arrayEquals
  | arrayWantsComma
  | arrayUnclosed
  | inlineComma (need : Need)
  | inlineEquals (need : Need)
  | inlineWantsKey (need : Need)
  | inlineWantsEquals
  | inlineWantsComma
  | inlineElement
  | inlineUnclosed
  | tooDeep
  | bareKeyEmpty
  | bareKeyCharacter
  | longKey (basic : Bool)
  | quoteMissing (style : Style)
  | textCharacter (style : Style)
  | continuation
  | escapeUnknown
  | escapeShort
  | escapeValue
  | openingQuote (quote : String)
  | unquoted
  | booleanWord (word : String)
  | floatWord (word : String)
  | floatRest
  | partDigits (part : NumberPart)
  | leadingZero
  | underscore
  | secondSign
  | signedRadix
  | innerSign
  | radixCase (radix : Radix)
  | radixDigit (radix : Radix)
  | decimalMark
  | moment (part : MomentPart) (wanted : String)
  | momentRest
  | duplicateKey
  | notExtensible (kind : String)
  | pathTooLong
  | integerTooLarge
  | floatTooLarge
  | mismatch (m : Mismatch)
  deriving DecidableEq, Repr

def wanting (summary wanted : String) : String :=
  summary ++ ", expected " ++ wanted

def Style.label : Style → String
  | bare => "unquoted string"
  | literal => "literal string"
  | longLiteral => "multi-line literal string"
  | basic => "basic string"
  | longBasic => "multi-line basic string"

def Style.quote : Style → String
  | bare => ""
  | literal => "`'`"
  | longLiteral => "`'`"
  | basic => "`\"`"
  | longBasic => "`\"`"

def Style.characters : Style → String
  | bare => "letters, numbers, `-`, `_`"
  | literal => "non-single-quote visible characters"
  | longLiteral => "non-single-quote characters"
  | basic => "non-double-quote visible characters, `\\`"
  | longBasic => "non-double-quote characters, `\\`"

namespace Problem

def message : Problem → String
  | wantsTableOpen => wanting "missing table open" "`[`"
  | wantsKey => wanting "invalid key-value pair" "key"
  | commentCharacter => wanting "invalid comment character" "printable characters"
  | loneReturn => wanting "carriage return must be followed by newline" "newline"
  | keyWithoutValue => wanting "key with no value" "`=`"
  | wantsLineEnd => wanting "unexpected key or value" "newline, `#`"
  | tableUnclosed => wanting "unclosed table" "`]`"
  | arrayTableUnclosed => wanting "unclosed array table" "`]]`"
  | arrayTableHalfClosed => wanting "unclosed array table" "`]`"
  | extraEquals => wanting "extra `=`" "nothing"
  | braceNotOpen => wanting "missing inline table opening" "`\x7b`"
  | bracketNotOpen => wanting "missing array opening" "`[`"
  | arrayComma => wanting "extra comma in array" "value"
  | arrayEquals => wanting "unexpected `=` in array" "value, `]`"
  | arrayWantsComma => wanting "missing comma between array elements" "`,`"
  | arrayUnclosed => wanting "unclosed array" "`]`"
  | inlineComma need => wanting "extra comma in inline table" need.label
  | inlineEquals need => wanting "extra assignment between key-value pairs" need.label
  | inlineWantsKey need => wanting "missing key for inline table element" need.label
  | inlineWantsEquals => wanting "missing assignment between key-value pairs" "`=`"
  | inlineWantsComma => wanting "missing comma between key-value pairs" "`,`"
  | inlineElement => "invalid inline table element"
  | inlineUnclosed => wanting "unclosed inline table" "`\x7d`"
  | tooDeep => "cannot recurse further; max recursion depth met"
  | bareKeyEmpty => wanting "unquoted keys cannot be empty" "letters, numbers, `-`, `_`"
  | bareKeyCharacter => wanting "invalid unquoted key" "letters, numbers, `-`, `_`"
  | longKey true => wanting "keys cannot be multi-line basic strings" "basic string"
  | longKey false => wanting "keys cannot be multi-line literal strings" "basic string"
  | quoteMissing style => wanting ("invalid " ++ style.label) style.quote
  | textCharacter style => wanting ("invalid " ++ style.label) style.characters
  | continuation => wanting "invalid multi-line basic string" "newline"
  | escapeUnknown =>
      wanting "missing escaped value"
        "`b`, `e`, `f`, `n`, `r`, `\\`, `\"`, `x`, `u`, `U`"
  | escapeShort => wanting "too few unicode value digits" "unicode hexadecimal value"
  | escapeValue => wanting "invalid value" "unicode hexadecimal value"
  | openingQuote quote => wanting "missing opening quote" quote
  | unquoted => wanting "string values must be quoted" "literal string"
  | booleanWord word => wanting "invalid boolean" ("`" ++ word ++ "`")
  | floatWord word => wanting "invalid float" ("`" ++ word ++ "`")
  | floatRest => wanting "invalid float" "nothing"
  | partDigits part => wanting ("invalid " ++ part.label) "digits"
  | leadingZero => wanting "unexpected leading zero" "nothing"
  | underscore => wanting "`_` may only go between digits" "nothing"
  | secondSign => wanting "redundant numeric sign" "nothing"
  | signedRadix => wanting "integers with a radix cannot be signed" "nothing"
  | innerSign => wanting "unexpected sign" "nothing"
  | radixCase radix => wanting "radix must be lowercase" ("`" ++ radix.mark ++ "`")
  | radixDigit radix => "invalid " ++ radix.label ++ " number"
  | decimalMark => wanting "redundant integer number prefix" "nothing"
  | moment part wanted => wanting ("invalid " ++ part.label) wanted
  | momentRest => "invalid datetime"
  | duplicateKey => "duplicate key"
  | notExtensible kind =>
      "cannot extend value of type " ++ kind ++ " with a dotted key"
  | pathTooLong => "recursion limit"
  | integerTooLarge => "integer number overflowed"
  | floatTooLarge => "floating-point number overflowed"
  | mismatch m => m.message

end Problem

structure Fault where
  problem : Problem
  span : Span
  deriving DecidableEq, Repr

def splitLines (current : Bytes) (done : List Bytes) : Bytes → List Bytes
  | [] => (current.reverse :: done).reverse
  | byte :: rest =>
      if byte = 10 then splitLines [] (current.reverse :: done) rest
      else splitLines (byte :: current) done rest

def lastLine (before : Bytes) : Nat × Bytes :=
  let line := (before.reverse.takeWhile (· ≠ 10)).reverse
  ((before.filter (· = 10)).length, line)

/-- The line of a byte and its column in that line, both counted from zero.  A
byte that begins a longer character has the number of bytes before it as its
column, any other the number of characters.  Positions behind the last byte
follow its column. -/
def position (source : Bytes) (index : Nat) : Nat × Nat :=
  if source = [] then (0, index)
  else
    let safe := min index (source.length - 1)
    let (line, before) := lastLine (source.take safe)
    let column := match Utf8.decode (before ++ (source.drop safe).take 1) with
      | .ok chars => chars.length - 1
      | .error _ => before.length
    (line, column + (index - safe))

def spaces (n : Nat) : String := String.ofList (List.replicate n ' ')

def Fault.message (source : Bytes) (f : Fault) : String :=
  let (line, column) := position source f.span.start
  let number := toString (line + 1)
  let content := ((splitLines [] [] source)[line]?).getD []
  let marks := max 1 (min (f.span.stop - f.span.start) (content.length - column))
  "TOML parse error at line " ++ number ++ ", column " ++ toString (column + 1) ++ "\n" ++
    spaces number.length ++ " |\n" ++
    number ++ " | " ++ Utf8.lossy content ++ "\n" ++
    spaces (number.length + 1) ++ "|" ++ spaces (column + 1) ++
    String.ofList (List.replicate marks '^') ++ "\n" ++
    f.problem.message ++ "\n"

end ServiceHarness.Document.Toml
