import ServiceHarness.Document.Toml.Fault

/-!
# Dates and times

A date, a time, or both with an offset or without; the seconds may be left out.
Parts are first looked at by their kind, then by their number of digits, and
last by their value.
-/

namespace ServiceHarness.Document.Toml

inductive MomentToken where
  | digits (text : List Char)
  | dash
  | colon
  | point
  | separator
  | zulu
  | plus
  | other
  deriving DecidableEq, Repr

namespace MomentToken

def isDigit (c : Char) : Bool := '0' ≤ c && c ≤ '9'

def ofChar (c : Char) : MomentToken :=
  if c = '-' then dash
  else if c = ':' then colon
  else if c = '.' then point
  else if c = 'T' ∨ c = 't' ∨ c = ' ' then separator
  else if c = 'Z' ∨ c = 'z' then zulu
  else if c = '+' then plus
  else other

/-- Adds a character to tokens in reverse; digits in a row are one token, whose
text is in reverse too. -/
def add (tokens : List MomentToken) (c : Char) : List MomentToken :=
  if isDigit c then
    match tokens with
    | digits text :: rest => digits (c :: text) :: rest
    | _ => digits [c] :: tokens
  else ofChar c :: tokens

def ofChars (chars : List Char) : List MomentToken :=
  (chars.foldl add []).reverse

end MomentToken

abbrev MomentRest := Except Problem (List MomentToken)

def takeDigits (part : MomentPart) (wanted : String) :
    List MomentToken → Except Problem (List Char × List MomentToken)
  | .digits text :: rest => .ok (text.reverse, rest)
  | _ => .error (.moment part wanted)

def takeToken (token : MomentToken) (part : MomentPart) (wanted : String) :
    List MomentToken → MomentRest
  | [] => .error (.moment part wanted)
  | next :: rest => if next = token then .ok rest else .error (.moment part wanted)

def decimalOf (digits : List Char) : Nat :=
  digits.foldl (fun n c => n * 10 + (c.toNat - 48)) 0

def require (holds : Bool) (part : MomentPart) (wanted : String) : Except Problem Unit :=
  if holds then .ok () else .error (.moment part wanted)

def isLeapYear (year : Nat) : Bool :=
  year % 4 == 0 && (year % 100 != 0 || year % 400 == 0)

def daysOf (year month : Nat) : Nat :=
  if month = 2 then (if isLeapYear year then 29 else 28)
  else if [4, 6, 9, 11].contains month then 30
  else 31

def checkDate (year : List Char) (tokens : List MomentToken) : MomentRest := do
  let (month, tokens) ← takeDigits .date "month" tokens
  let tokens ← takeToken .dash .date "`-` (MM-DD)" tokens
  let (day, tokens) ← takeDigits .date "day" tokens
  require (year.length == 4) .date "a four-digit year (YYYY)"
  require (month.length == 2) .date "a two-digit month (MM)"
  require (day.length == 2) .date "a two-digit day (DD)"
  let m := decimalOf month
  require (1 ≤ m && m ≤ 12) .date "month between 01 and 12"
  let last := daysOf (decimalOf year) m
  let d := decimalOf day
  require (1 ≤ d && d ≤ last) .date ("day between 01 and " ++ toString last)
  return tokens

def takeSeconds : List MomentToken → Except Problem (Option (List Char) × List MomentToken)
  | .colon :: rest => do
      let (second, rest) ← takeDigits .time "second" rest
      match rest with
      | .point :: rest =>
          let (_, rest) ← takeDigits .time "nanosecond" rest
          return (some second, rest)
      | _ => return (some second, rest)
  | tokens => .ok (none, tokens)

def checkTime (tokens : List MomentToken) : MomentRest := do
  let (hour, tokens) ← takeDigits .time "hour" tokens
  let tokens ← takeToken .colon .time "`:` (HH:MM)" tokens
  let (minute, tokens) ← takeDigits .time "minute" tokens
  let (second, tokens) ← takeSeconds tokens
  let second := second.getD ['0', '0']
  require (hour.length == 2) .time "a two-digit hour (HH)"
  require (minute.length == 2) .time "a two-digit minute (MM)"
  require (second.length == 2) .time "a two-digit second (SS)"
  require (decimalOf hour ≤ 23) .time "hour between 00 and 23"
  require (decimalOf minute ≤ 59) .time "minute between 00 and 59"
  require (decimalOf second ≤ 60) .time "second between 00 and 60"
  return tokens

def checkOffset : List MomentToken → MomentRest
  | [] => .ok []
  | .zulu :: rest => .ok rest
  | sign :: rest => do
      if sign ≠ .plus ∧ sign ≠ .dash then throw (.moment .offset "`Z`, +OFFSET, -OFFSET")
      let (hours, rest) ← takeDigits .offset "hour" rest
      let rest ← takeToken .colon .offset "`:` (HH:MM)" rest
      let (minutes, rest) ← takeDigits .offset "minute" rest
      require (hours.length == 2) .offset "a two-digit hour (HH)"
      require (minutes.length == 2) .offset "a two-digit minute (MM)"
      require (decimalOf hours ≤ 23) .offset "hours between 00 and 23"
      require (decimalOf minutes ≤ 59) .offset "minutes between 00 and 59"
      return rest

def checkAfterDate : List MomentToken → MomentRest
  | [] => .ok []
  | .separator :: rest => do checkOffset (← checkTime rest)
  | _ => .error (.moment .between "`T` between date and time")

def checkMoment (chars : List Char) : Except Problem Unit := do
  let tokens := MomentToken.ofChars chars
  let (first, tokens') ← takeDigits .whole "year or hour" tokens
  let rest ← match tokens' with
    | .dash :: rest => do checkAfterDate (← checkDate first rest)
    | .colon :: _ => checkTime tokens
    | _ => throw (.moment .whole "`-` (YYYY-MM) or `:` (HH:MM)")
  if rest ≠ [] then throw .momentRest

end ServiceHarness.Document.Toml
