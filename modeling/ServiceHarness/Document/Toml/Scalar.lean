import ServiceHarness.Document.Toml.Datum
import ServiceHarness.Document.Toml.Moment
import ServiceHarness.Document.Toml.Text

/-!
# Scalars

What a scalar stands for.  Without quotes it is a number, a date or time, one
of the words for a boolean, an infinity or a missing number, or a mistake.  The
first character decides which of these is meant.

All positions in an unquoted scalar count its characters; up to the character
that a fault is about these are ASCII, hence bytes.
-/

namespace ServiceHarness.Document.Toml

open ServiceHarness.Text

def isDecimalDigit (c : Char) : Bool := '0' ≤ c && c ≤ '9'

/-- The part of a scalar from one of its characters on. -/
structure Tail where
  offset : Nat
  chars : List Char
  deriving DecidableEq, Repr

namespace Tail

def drop (t : Tail) (count : Nat) : Tail := ⟨t.offset + count, t.chars.drop count⟩

def span (t : Tail) (raw : Raw) (count : Nat) : Span :=
  ⟨raw.start + t.offset, raw.start + t.offset + count⟩

end Tail

def Raw.tail (r : Raw) : Tail := ⟨0, r.text⟩

/-- An unquoted scalar that is nothing else is a string without its quotes. -/
def notQuoted (r : Raw) : Fault :=
  let back := r.text.reverse
  if back.take 3 = ['\'', '\'', '\''] then pointFault (.openingQuote "`'''`") r.start
  else if back.take 3 = ['"', '"', '"'] then pointFault (.openingQuote "`\"\"\"`") r.start
  else if back.take 1 = ['\''] then pointFault (.openingQuote "`'`") r.start
  else if back.take 1 = ['"'] then pointFault (.openingQuote "`\"`") r.start
  else ⟨.unquoted, r.span⟩

def checkDigits (r : Raw) (part : NumberPart) (zeros : Bool) (t : Tail) : Except Fault Tail :=
  let run := t.chars.takeWhile fun c => isDecimalDigit c || c == '_'
  let count := (run.filter isDecimalDigit).length
  if count = 0 then .error ⟨.partDigits part, t.span r 0⟩
  else if 1 < count ∧ t.chars.head? = some '0' ∧ !zeros then .error ⟨.leadingZero, t.span r 1⟩
  else .ok (t.drop run.length)

def isExponentMark (c : Option Char) : Bool := c == some 'e' || c == some 'E'

def isSign (c : Option Char) : Bool := c == some '+' || c == some '-'

def checkFloat (r : Raw) (t : Tail) : Except Fault Unit := do
  let t ← checkDigits r .mantissa false t
  let t ← if t.chars.head? = some '.' then checkDigits r .fraction true (t.drop 1) else pure t
  let t ←
    if isExponentMark t.chars.head? then
      let t := t.drop 1
      checkDigits r .exponent true (if isSign t.chars.head? then t.drop 1 else t)
    else pure t
  if t.chars ≠ [] then throw ⟨.floatRest, ⟨r.start + t.offset, r.stop⟩⟩

def underscoreParts (current : List Char) (start offset : Nat) (done : List Tail) :
    List Char → List Tail
  | [] => (⟨start, current.reverse⟩ :: done).reverse
  | c :: rest =>
      if c = '_' then
        underscoreParts [] (offset + 1) (offset + 1) (⟨start, current.reverse⟩ :: done) rest
      else underscoreParts (c :: current) start (offset + 1) done rest

/-- An underscore next to a part has to stand between two digits. -/
def checkPart (r : Raw) (isDigit : Char → Bool) (t : Tail) : Except Fault Unit := do
  let stop := t.offset + t.chars.length
  let before : Fault := ⟨.underscore, ⟨r.start + t.offset - 1, r.start + t.offset⟩⟩
  let after : Fault := ⟨.underscore, ⟨r.start + stop, r.start + stop + 1⟩⟩
  let isLast := stop == r.text.length
  if t.offset ≠ 0 ∧ !(t.chars.head?.map isDigit).getD true then throw before
  if 1 < t.chars.length ∧ !isLast ∧ !(t.chars.getLast?.map isDigit).getD true then throw after
  if t.chars = [] ∧ t.offset ≠ 0 ∧ !isLast then throw before

def joinDigits (r : Raw) (isDigit : Char → Bool) (t : Tail) : Decoded := do
  if t.chars.head? = some '_' then throw ⟨.underscore, ⟨r.start, r.start + 1⟩⟩
  if 1 < t.chars.length ∧ t.chars.getLast? = some '_' then
    throw ⟨.underscore, (t.drop (t.chars.length - 1)).span r 1⟩
  if t.chars.contains '_' then
    (underscoreParts [] t.offset t.offset [] t.chars).forM (checkPart r isDigit)
  return t.chars.filter (· ≠ '_')

def splitSign (chars : List Char) : Bool × List Char :=
  match chars with
  | '-' :: rest => (true, rest)
  | '+' :: rest => (false, rest)
  | _ => (false, chars)

def decimalInteger (r : Raw) : Except Fault Datum := do
  let (negative, digits) := splitSign (← joinDigits r isHexDigit r.tail)
  return .integer negative .decimal digits

def floatForm (chars : List Char) : FloatForm :=
  let whole := chars.takeWhile isDecimalDigit
  let rest := chars.drop whole.length
  let fraction := match rest with
    | '.' :: rest => rest.takeWhile isDecimalDigit
    | _ => []
  let exponent := (rest.dropWhile fun c => c ≠ 'e' && c ≠ 'E').drop 1
  let (downward, exponent) := splitSign exponent
  .decimal whole fraction downward exponent

def decimalFloat (r : Raw) (t : Tail) : Except Fault Datum := do
  checkFloat r t
  let (negative, chars) := splitSign (← joinDigits r isDecimalDigit r.tail)
  return .float negative (floatForm chars)

def isRadixDigit (radix : Radix) (c : Char) : Bool :=
  match radix with
  | .hexadecimal => isHexDigit c
  | .octal => '0' ≤ c && c ≤ '7'
  | .binary => c == '0' || c == '1'
  | .decimal => isDecimalDigit c

def checkRadixDigits (radix : Radix) (index : Nat) : List Char → Except Fault Unit
  | [] => .ok ()
  | c :: rest =>
      if isRadixDigit radix c ∨ c = '_' then checkRadixDigits radix (index + 1) rest
      else .error (pointFault (.radixDigit radix) index)

def radixInteger (r : Raw) (signed : Bool) (radix : Radix) (upper : Bool) (t : Tail) :
    Except Fault Datum := do
  if signed then throw ⟨.signedRadix, ⟨r.start, r.start + 1⟩⟩
  if upper then throw ⟨.radixCase radix, t.span r 2⟩
  let digits := t.drop 2
  if isSign digits.chars.head? then throw ⟨.innerSign, digits.span r 0⟩
  checkRadixDigits radix (r.start + digits.offset) digits.chars
  return .integer false radix (← joinDigits r isHexDigit digits)

def dateOrNumber (r : Raw) (t : Tail) : Except Fault Datum := do
  let rest := t.chars.dropWhile isDecimalDigit
  let integer : Except Fault Datum :=
    if t.chars.head? = some '0' then .error ⟨.leadingZero, t.span r 1⟩ else decimalInteger r
  match rest.head? with
  | none => integer
  | some c =>
      if c = '-' ∨ c = ':' then
        match checkMoment r.text with
        | .ok () => return .moment
        | .error problem => throw ⟨problem, r.span⟩
      else if rest.contains ' ' then throw (notQuoted r)
      else if rest.any fun c => c = '.' ∨ c = 'e' ∨ c = 'E' then decimalFloat r t
      else if c = '_' then integer
      else throw (notQuoted r)

def zeroFirst (r : Raw) (signed : Bool) (t : Tail) : Except Fault Datum :=
  match t.chars with
  | [_] => decimalInteger r
  | _ :: c :: _ =>
      if c = 'x' ∨ c = 'X' then radixInteger r signed .hexadecimal (c == 'X') t
      else if c = 'o' ∨ c = 'O' then radixInteger r signed .octal (c == 'O') t
      else if c = 'b' ∨ c = 'B' then radixInteger r signed .binary (c == 'B') t
      else if c = 'd' ∨ c = 'D' then .error ⟨.decimalMark, t.span r 2⟩
      else dateOrNumber r t
  | [] => .error (notQuoted r)

def wholeWord (r : Raw) (word : String) (problem : String → Problem) (datum : Datum) :
    Except Fault Datum :=
  if r.text = word.toList then .ok datum
  else if r.text.contains ' ' then .error (notQuoted r)
  else .error ⟨problem word, r.span⟩

def afterSign (r : Raw) (negative : Bool) : Except Fault Datum :=
  let t := r.tail.drop 1
  let word := fun (word : String) (form : FloatForm) =>
    if t.chars = word.toList then Except.ok (Datum.float negative form)
    else .error ⟨.floatWord word, ⟨r.start + 1, r.stop⟩⟩
  match t.chars.head? with
  | none => .error (notQuoted r)
  | some c =>
      if c = '+' ∨ c = '-' then .error ⟨.secondSign, t.span r 1⟩
      else if c = '0' then zeroFirst r true t
      else if c = '_' ∨ isDecimalDigit c then dateOrNumber r t
      else if c = '.' then decimalFloat r r.tail
      else if c = 'i' ∨ c = 'I' then word "inf" .infinite
      else if c = 'n' ∨ c = 'N' then word "nan" .notANumber
      else .error (notQuoted r)

def Raw.decodeBare (r : Raw) : Except Fault Datum :=
  match r.text.head? with
  | none => .error (notQuoted r)
  | some c =>
      if c = '+' ∨ c = '-' then afterSign r (c == '-')
      else if c = '0' then zeroFirst r false r.tail
      else if c = '_' ∨ isDecimalDigit c then dateOrNumber r r.tail
      else if c = '.' then decimalFloat r r.tail
      else if c = 't' ∨ c = 'T' then wholeWord r "true" .booleanWord (.boolean true)
      else if c = 'f' ∨ c = 'F' then wholeWord r "false" .booleanWord (.boolean false)
      else if c = 'i' ∨ c = 'I' then wholeWord r "inf" .floatWord (.float false .infinite)
      else if c = 'n' ∨ c = 'N' then wholeWord r "nan" .floatWord (.float false .notANumber)
      else .error (notQuoted r)

def Raw.decodeScalar (r : Raw) : Except Fault Datum :=
  match r.style with
  | .bare => r.decodeBare
  | _ => r.decodeQuoted.map .string

end ServiceHarness.Document.Toml
