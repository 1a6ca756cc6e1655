import ServiceHarness.Decimal.Binary64

/-!
# Shortest decimals

The decimal with the fewest digits that rounds to a given binary number, and of
those the nearest to it; of two equally near ones the even.  It is found on the
decimal grids of one, two, three and more digits: if a grid has a point that
rounds to the number, so has one of the number's two neighbours on that grid.
-/

namespace ServiceHarness.Decimal

structure Numeral where
  digits : Nat
  exponent : Int
  deriving DecidableEq, Repr

namespace Numeral

def digitCount (n : Nat) : Nat := (Nat.toDigits 10 n).length

def stripZeros : Nat → Numeral → Numeral
  | 0, d => d
  | fuel + 1, d =>
      if d.digits ≠ 0 ∧ d.digits % 10 = 0 then stripZeros fuel ⟨d.digits / 10, d.exponent + 1⟩
      else d

def leading (d : Numeral) : Int :=
  d.exponent + digitCount d.digits - 1

end Numeral

/-- The reals that round to a number, all over one denominator: the number
itself and both ends, which belong to them if `closed`. -/
structure Interval where
  low : Nat
  value : Nat
  high : Nat
  denominator : Nat
  closed : Bool
  deriving DecidableEq, Repr

namespace Interval

/-- The ends lie half-way to the neighbours; below a power of two the lower
neighbour is only half as far. -/
def ofBinary64 (x : Binary64) : Interval :=
  let m := 4 * x.mantissa
  let below := if x.mantissa = Nat.pow 2 52 ∧ Binary64.minExponent < x.exponent then 1 else 2
  let (unit, denominator) := Binary64.toRatio ⟨1, x.exponent - 2⟩
  ⟨(m - below) * unit, m * unit, (m + 2) * unit, denominator, x.mantissa % 2 == 0⟩

def scale (i : Interval) (e : Int) : Interval :=
  if 0 ≤ e then { i with denominator := i.denominator * Nat.pow 10 e.toNat }
  else
    let k := Nat.pow 10 (-e).toNat
    { i with low := i.low * k, value := i.value * k, high := i.high * k }

def contains (i : Interval) (n : Nat) : Bool :=
  let p := n * i.denominator
  if i.closed then i.low ≤ p && p ≤ i.high else i.low < p && p < i.high

/-- The integer of the interval that is nearest to its value, if one of the
value's two integer neighbours belongs to it. -/
def nearest? (i : Interval) : Option Nat :=
  let down := i.value / i.denominator
  let up := down + 1
  match i.contains down, i.contains up with
  | false, false => none
  | true, false => some down
  | false, true => some up
  | true, true =>
      let before := i.value - down * i.denominator
      let after := up * i.denominator - i.value
      if before < after then some down
      else if after < before then some up
      else if down % 2 = 0 then some down
      else some up

end Interval

def leadingExponent (num den : Nat) : Int :=
  if den ≤ num then (Numeral.digitCount (num / den) : Int) - 1
  else - (Numeral.digitCount ((den - 1) / num) : Int)

def searchGrids (i : Interval) (gridExponent : Int) : Nat → Numeral
  | 0 => ⟨i.value / i.denominator, 0⟩
  | count + 1 =>
      match (i.scale gridExponent).nearest? with
      | some n => ⟨n, gridExponent⟩
      | none => searchGrids i (gridExponent - 1) count

def shortest (x : Binary64) : Numeral :=
  if x.mantissa = 0 then ⟨0, 0⟩
  else
    let i := Interval.ofBinary64 x
    (searchGrids i (leadingExponent i.value i.denominator) 18).stripZeros 400

def positional (d : Numeral) : String :=
  let digits := Nat.toDigits 10 d.digits
  if 0 ≤ d.exponent then
    String.ofList (digits ++ List.replicate d.exponent.toNat '0') ++ ".0"
  else
    let places := (-d.exponent).toNat
    let padded := List.replicate (places + 1 - digits.length) '0' ++ digits
    let whole := padded.length - places
    String.ofList (padded.take whole) ++ "." ++ String.ofList (padded.drop whole)

def scientific (d : Numeral) : String :=
  let e := d.leading
  let mantissa := match Nat.toDigits 10 d.digits with
    | first :: [] => String.ofList [first]
    | first :: rest => String.ofList (first :: '.' :: rest)
    | [] => "0"
  mantissa ++ "e" ++ (if 0 ≤ e then "+" else "-") ++ toString e.natAbs

/-- Positional, unless the leading digit stands before the fifth place after
the point or beyond the sixteenth before it. -/
def compactForm (d : Numeral) : String :=
  if d.digits ≠ 0 ∧ (d.leading < -5 ∨ 16 ≤ d.leading) then scientific d else positional d

end ServiceHarness.Decimal
