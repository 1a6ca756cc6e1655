import ServiceHarness.Document.Json.Cursor
import ServiceHarness.Decimal.Shortest

/-!
# Numbers

No part of a description is a number, but one that stands in a document is read
in full and shown in the report.  A number without fraction and exponent is an
integer as long as it fits 64 bits; all others, and a negative zero, are
floating point.  Digits that do not fit a 64-bit significand only count for the
exponent.
-/

namespace ServiceHarness.Document.Json

open ServiceHarness.Text ServiceHarness.Decimal

def maxSignificand : Nat := Nat.pow 2 64 - 1

def maxExponent : Nat := Nat.pow 2 31 - 1

def isDigitByte (byte : UInt8) : Bool := 48 ≤ byte && byte ≤ 57

def digitValue (byte : UInt8) : Nat := byte.toNat - 48

/-- Appends digits to a significand as long as it fits; the number of digits
that follow is counted. -/
def absorb (significand : Nat) : Bytes → Nat × Nat
  | [] => (significand, 0)
  | digit :: rest =>
      let next := significand * 10 + digitValue digit
      if next ≤ maxSignificand then absorb next rest else (significand, rest.length + 1)

def powerStep : Nat := 308

/-- Divides by a power of ten, in steps of the largest one in range, of which
there are `steps` at most; the quotient is rounded at every step. -/
def divideDown (x : Binary64) (exponent : Nat) : (steps : Nat) → Binary64
  | 0 => x
  | steps + 1 =>
      let size := min exponent powerStep
      if x.mantissa = 0 then x
      else
        match (Binary64.ofDecimal 1 size).bind x.div with
        | some y => if exponent ≤ powerStep then y else divideDown y (exponent - powerStep) steps
        | none => x

/-- The value of a significand and a decimal exponent, computed with rounded
powers of ten.  There is none if the number is too large. -/
def floatOfParts (significand : Nat) (exponent : Int) : Option Binary64 :=
  match Binary64.ofRatio significand 1 with
  | none => none
  | some x =>
      if exponent < 0 then some (divideDown x exponent.natAbs (exponent.natAbs / powerStep + 1))
      else if x.mantissa = 0 then some x
      else if powerStep < exponent then none
      else (Binary64.ofDecimal 1 exponent).bind x.mul

def floatText (negative : Bool) (x : Binary64) : String :=
  (if negative then "-" else "") ++ compactForm (shortest x)

def finishFloat (negative : Bool) (significand : Nat) (exponent : Int) (c : Cursor) :
    Except Fault (Found × Cursor) :=
  match floatOfParts significand exponent with
  | some x => .ok (.float (floatText negative x), c)
  | none => .error (c.faultHere .numberTooLarge)

def exponentOverflow? (value : Nat) : Bytes → Option Nat
  | [] => none
  | digit :: rest =>
      let next := value * 10 + digitValue digit
      if maxExponent < next then some 1 else (exponentOverflow? next rest).map (· + 1)

def digitsValue (digits : Bytes) : Nat :=
  digits.foldl (fun n digit => n * 10 + digitValue digit) 0

def Cursor.skip (c : Cursor) : Nat → Cursor
  | 0 => c
  | count + 1 => c.advance.skip count

def readExponent (negative : Bool) (significand : Nat) (before : Int) (c : Cursor) :
    Except Fault (Found × Cursor) :=
  let (down, c) := match c.peek? with
    | some 43 => (false, c.advance)
    | some 45 => (true, c.advance)
    | _ => (false, c)
  match c.peek? with
  | none => .error (c.faultHere .endInValue)
  | some byte =>
      if isDigitByte byte then
        let (digits, rest) := c.takeRun isDigitByte
        match exponentOverflow? 0 digits with
        | some count =>
            if significand ≠ 0 ∧ !down then .error ((c.skip count).faultHere .numberTooLarge)
            else .ok (.float (floatText negative .zero), rest)
        | none =>
            let n : Int := digitsValue digits
            finishFloat negative significand (if down then before - n else before + n) rest
      else .error (c.faultAhead .badNumber)

def isExponentMark (byte : UInt8) : Bool := byte == 101 || byte == 69

def readExponentIfAny (negative : Bool) (significand : Nat) (exponent : Int) (c : Cursor) :
    Except Fault (Found × Cursor) :=
  match c.peek? with
  | some byte =>
      if isExponentMark byte then readExponent negative significand exponent c.advance
      else finishFloat negative significand exponent c
  | none => finishFloat negative significand exponent c

def readFraction (negative : Bool) (significand : Nat) (before : Int) (c : Cursor) :
    Except Fault (Found × Cursor) :=
  let (digits, rest) := c.takeRun isDigitByte
  if digits = [] then
    match rest.peek? with
    | some _ => .error (rest.faultAhead .badNumber)
    | none => .error (rest.faultHere .endInValue)
  else
    let (significand, left) := absorb significand digits
    readExponentIfAny negative significand (before - (digits.length - left : Nat)) rest

def integerFound (negative : Bool) (significand : Nat) : Found :=
  if !negative then .integer significand
  else if significand = 0 ∨ Nat.pow 2 63 < significand then
    match Binary64.ofRatio significand 1 with
    | some x => .float (floatText true x)
    | none => .integer (-significand)
  else .integer (-significand)

/-- What follows the integer digits, of which `dropped` were left out. -/
def readTail (negative : Bool) (significand dropped : Nat) (c : Cursor) :
    Except Fault (Found × Cursor) :=
  match c.peek? with
  | some 46 => readFraction negative significand dropped c.advance
  | some byte =>
      if isExponentMark byte then readExponent negative significand dropped c.advance
      else if dropped = 0 then .ok (integerFound negative significand, c)
      else finishFloat negative significand dropped c
  | none =>
      if dropped = 0 then .ok (integerFound negative significand, c)
      else finishFloat negative significand dropped c

def readNumber (negative : Bool) (c : Cursor) : Except Fault (Found × Cursor) :=
  match c.peek? with
  | none => .error (c.faultHere .endInValue)
  | some byte =>
      if byte = 48 then
        match c.advance.peek? with
        | some next =>
            if isDigitByte next then .error (c.advance.faultAhead .badNumber)
            else readTail negative 0 0 c.advance
        | none => readTail negative 0 0 c.advance
      else if isDigitByte byte then
        let (digits, rest) := c.takeRun isDigitByte
        let (significand, dropped) := absorb 0 digits
        readTail negative significand dropped rest
      else .error (c.faultAhead .badNumber)

end ServiceHarness.Document.Json
