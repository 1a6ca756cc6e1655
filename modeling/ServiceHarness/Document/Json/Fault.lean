import ServiceHarness.Document.Mismatch

/-!
# Faults of JSON documents

Why a document is refused and where.  Lines count from one; the column is the
number of bytes that were read of the line.
-/

namespace ServiceHarness.Document.Json

inductive Reason where
  | endInList
  | endInObject
  | endInString
  | endInValue
  | wantsWord
  | wantsValue
  | wantsColon
  | wantsListComma
  | wantsObjectComma
  | keyNotString
  | trailingComma
  | trailingCharacters
  | badEscape
  | badNumber
  | numberTooLarge
  | controlCharacter
  | loneSurrogate
  | brokenSurrogatePair
  | badCodePoint
  | mismatch (m : Mismatch)
  deriving DecidableEq, Repr

def Reason.message : Reason → String
  | endInList => "EOF while parsing a list"
  | endInObject => "EOF while parsing an object"
  | endInString => "EOF while parsing a string"
  | endInValue => "EOF while parsing a value"
  | wantsWord => "expected ident"
  | wantsValue => "expected value"
  | wantsColon => "expected `:`"
  | wantsListComma => "expected `,` or `]`"
  | wantsObjectComma => "expected `,` or `\x7d`"
  | keyNotString => "key must be a string"
  | trailingComma => "trailing comma"
  | trailingCharacters => "trailing characters"
  | badEscape => "invalid escape"
  | badNumber => "invalid number"
  | numberTooLarge => "number out of range"
  | controlCharacter => "control character (\\u0000-\\u001F) found while parsing a string"
  | loneSurrogate => "lone leading surrogate in hex escape"
  | brokenSurrogatePair => "unexpected end of hex escape"
  | badCodePoint => "invalid unicode code point"
  | mismatch m => m.message

structure Position where
  line : Nat
  column : Nat
  deriving DecidableEq, Repr

def Position.start : Position := ⟨1, 0⟩

def Position.after (p : Position) (byte : UInt8) : Position :=
  if byte = 10 then ⟨p.line + 1, 0⟩ else ⟨p.line, p.column + 1⟩

structure Fault where
  reason : Reason
  position : Position
  deriving DecidableEq, Repr

def Fault.message (f : Fault) : String :=
  f.reason.message ++ " at line " ++ toString f.position.line ++
    " column " ++ toString f.position.column

end ServiceHarness.Document.Json
