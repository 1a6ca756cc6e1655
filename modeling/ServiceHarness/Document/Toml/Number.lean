import ServiceHarness.Document.Toml.Scalar
import ServiceHarness.Decimal.Shortest

/-!
# The size of numbers

Integers have 128 bits at most and are shown with their width if they have more
than 64; floats are rounded to 64 bits and shown without an exponent.
-/

namespace ServiceHarness.Document.Toml

open ServiceHarness.Decimal

def significant (digits : List Char) : List Char := digits.dropWhile (· = '0')

def digitLimit : Nat := 800

def integerValue? (negative : Bool) (radix : Radix) (digits : List Char) : Option Int :=
  let digits' := significant digits
  if digits = [] ∨ digitLimit < digits'.length ∨ !digits'.all (isRadixDigit radix) then none
  else
    let n := numberOf radix.base digits'
    some (if negative then -n else n)

def integerFound (n : Int) : Option Found :=
  if -Nat.pow 2 63 ≤ n ∧ n < Nat.pow 2 64 then some (.integer n)
  else if -Nat.pow 2 127 ≤ n ∧ n < Nat.pow 2 127 then some (.wideInteger n "i128")
  else if 0 ≤ n ∧ n < Nat.pow 2 128 then some (.wideInteger n "u128")
  else none

def exponentValue (downward : Bool) (digits : List Char) : Int :=
  let digits := significant digits
  let n : Nat := if 10 < digits.length then Nat.pow 10 10 else numberOf 10 digits
  if downward then -n else n

/-- Cuts digits off that cannot change the rounding, except for whether there
is anything but zeros among them. -/
def cutDigits (digits : List Char) : List Char × Nat :=
  let rest := digits.drop digitLimit
  if rest.all (· = '0') then (digits.take digitLimit, rest.length)
  else (digits.take digitLimit ++ ['1'], rest.length - 1)

def floatValue? (whole fraction : List Char) (exponent : Int) : Option Binary64 :=
  let digits := significant (whole ++ fraction)
  let exponent := exponent - fraction.length
  if digits = [] then some .zero
  else if 400 < digits.length + exponent then none
  else if digits.length + exponent < -400 then some .zero
  else
    let (digits, cut) := cutDigits digits
    Binary64.ofDecimal (numberOf 10 digits) (exponent + cut)

def floatText (negative : Bool) (form : FloatForm) : Option String :=
  let sign := if negative then "-" else ""
  match form with
  | .notANumber => some "NaN"
  | .infinite => some (sign ++ "inf")
  | .decimal whole fraction downward exponent =>
      (floatValue? whole fraction (exponentValue downward exponent)).map fun x =>
        sign ++ positional (shortest x)

end ServiceHarness.Document.Toml
