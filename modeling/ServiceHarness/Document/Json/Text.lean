import ServiceHarness.Document.Json.Cursor

/-!
# Strings

A string is read byte by byte behind its opening quote.  The reader stands
between two characters, inside a character of several bytes, or inside an
escape; an escaped high surrogate has to be followed by an escaped low one.
A sequence that is not UTF-8 is remembered and reported at the next quote or
backslash, so that the end of the input and control characters before these
come first.
-/

namespace ServiceHarness.Document.Json

open ServiceHarness.Text

inductive TextState where
  | plain
  | inside (pending : Utf8.Pending) (begun : Position)
  | broken (fault : Position)
  | backslash
  | hex (high : Option Nat) (digits : List UInt8)
  | afterHigh (high : Nat)
  | afterHighBackslash (high : Nat)
  deriving DecidableEq, Repr

inductive TextStep where
  | next (state : TextState)
  | push (c : Char)
  | close
  | fail (reason : Reason) (position : Position)
  deriving DecidableEq, Repr

def hexValue? (byte : UInt8) : Option Nat :=
  let n := byte.toNat
  if 48 ≤ n ∧ n ≤ 57 then some (n - 48)
  else if 65 ≤ n ∧ n ≤ 70 then some (n - 55)
  else if 97 ≤ n ∧ n ≤ 102 then some (n - 87)
  else none

def hexNumber? : List UInt8 → Option Nat
  | [] => some 0
  | byte :: rest =>
      match hexValue? byte, hexNumber? rest with
      | some digit, some n => some (n * 16 + digit)
      | _, _ => none

def simpleEscape? (byte : UInt8) : Option Char :=
  if byte = 34 then some '"'
  else if byte = 92 then some '\\'
  else if byte = 47 then some '/'
  else if byte = 98 then some '\x08'
  else if byte = 102 then some '\x0c'
  else if byte = 110 then some '\n'
  else if byte = 114 then some '\r'
  else if byte = 116 then some '\t'
  else none

def isHighSurrogate (n : Nat) : Bool := 0xD800 ≤ n && n ≤ 0xDBFF

def isLowSurrogate (n : Nat) : Bool := 0xDC00 ≤ n && n ≤ 0xDFFF

def joinSurrogates (high low : Nat) : Char :=
  Char.ofNat (0x10000 + (high - 0xD800) * 0x400 + (low - 0xDC00))

def finishHex (high : Option Nat) (digits : List UInt8) (after : Position) : TextStep :=
  match hexNumber? digits with
  | none => .fail .badEscape after
  | some n =>
      match high with
      | none =>
          if isLowSurrogate n then .fail .loneSurrogate after
          else if isHighSurrogate n then .next (.afterHigh n)
          else .push (Char.ofNat n)
      | some h =>
          if isLowSurrogate n then .push (joinSurrogates h n) else .fail .loneSurrogate after

def plainStep (byte : UInt8) (after : Position) : TextStep :=
  if byte = 34 then .close
  else if byte = 92 then .next .backslash
  else if byte < 32 then .fail .controlCharacter after
  else
    match Utf8.start byte with
    | .char c => .push c
    | .more pending => .next (.inside pending after)
    | .refused => .next (.broken after)

def brokenStep (byte : UInt8) (fault after : Position) : TextStep :=
  if byte = 34 ∨ byte = 92 then .fail .badCodePoint fault
  else if byte < 32 then .fail .controlCharacter after
  else .next (.broken fault)

def TextState.step (state : TextState) (byte : UInt8) (after : Position) : TextStep :=
  match state with
  | .plain => plainStep byte after
  | .inside pending begun =>
      match pending.next byte with
      | .char c => .push c
      | .more pending => .next (.inside pending begun)
      | .refused => brokenStep byte begun after
  | .broken fault => brokenStep byte fault after
  | .backslash =>
      if byte = 117 then .next (.hex none [])
      else
        match simpleEscape? byte with
        | some c => .push c
        | none => .fail .badEscape after
  | .hex high digits =>
      if digits.length < 3 then .next (.hex high (byte :: digits))
      else finishHex high (byte :: digits) after
  | .afterHigh high =>
      if byte = 92 then .next (.afterHighBackslash high)
      else .fail .brokenSurrogatePair after
  | .afterHighBackslash high =>
      if byte = 117 then .next (.hex (some high) [])
      else .fail .brokenSurrogatePair after

def readTextFrom (state : TextState) (chars : List Char) (position : Position) :
    Bytes → Except Fault (List Char × Cursor)
  | [] => .error ⟨.endInString, position⟩
  | byte :: rest =>
      let after := position.after byte
      match state.step byte after with
      | .next state => readTextFrom state chars after rest
      | .push c => readTextFrom .plain (c :: chars) after rest
      | .close => .ok (chars.reverse, ⟨rest, after⟩)
      | .fail reason position => .error ⟨reason, position⟩

def Cursor.readText (c : Cursor) : Except Fault (List Char × Cursor) :=
  readTextFrom .plain [] c.position c.rest

end ServiceHarness.Document.Json
