import Mathlib.Data.List.Forall2
import ServiceHarness.Service.Basic
import ServiceHarness.Text.Utf8

/-!
# The language of description documents

What a JSON document that describes a service looks like, said without a
reader: strings with their escapes, tokens with blanks between them, and the two
shapes of a record.
-/

namespace ServiceHarness.Document.Json

open ServiceHarness.Text

/-! ## Strings -/

def quoteMark : UInt8 := 0x22

def backslash : UInt8 := 0x5C

def shortEscapes : List (UInt8 × Char) :=
  [(0x22, '"'), (0x5C, '\\'), (0x2F, '/'), (0x62, '\x08'), (0x66, '\x0c'), (0x6E, '\n'),
    (0x72, '\r'), (0x74, '\t')]

inductive HexDigit : UInt8 → Nat → Prop
  | decimal {byte : UInt8} {n : Nat} : n < 10 → byte.toNat = 0x30 + n → HexDigit byte n
  | upper {byte : UInt8} {n : Nat} : n < 6 → byte.toNat = 0x41 + n → HexDigit byte (10 + n)
  | lower {byte : UInt8} {n : Nat} : n < 6 → byte.toNat = 0x61 + n → HexDigit byte (10 + n)

inductive CodeUnit : Bytes → Nat → Prop
  | mk {a b c d : UInt8} {w x y z : Nat} :
      HexDigit a w → HexDigit b x → HexDigit c y → HexDigit d z →
      CodeUnit [backslash, 0x75, a, b, c, d] (((w * 16 + x) * 16 + y) * 16 + z)

def IsHigh (n : Nat) : Prop := 0xD800 ≤ n ∧ n < 0xDC00

def IsLow (n : Nat) : Prop := 0xDC00 ≤ n ∧ n < 0xE000

/-- A character of a string and the bytes that it can be written in. -/
inductive Letter : Bytes → Char → Prop
  | plain {c : Char} : 0x20 ≤ c.toNat → c ≠ '"' → c ≠ '\\' → Letter (String.utf8EncodeChar c) c
  | short {byte : UInt8} {c : Char} : (byte, c) ∈ shortEscapes → Letter [backslash, byte] c
  | unit {bytes : Bytes} {n : Nat} :
      CodeUnit bytes n → ¬IsHigh n → ¬IsLow n → Letter bytes (Char.ofNat n)
  | pair {first second : Bytes} {high low : Nat} :
      CodeUnit first high → IsHigh high → CodeUnit second low → IsLow low →
      Letter (first ++ second)
        (Char.ofNat (0x10000 + (high - 0xD800) * 0x400 + (low - 0xDC00)))

/-- What stands between the quotes of a string. -/
inductive Content : Bytes → List Char → Prop
  | nil : Content [] []
  | cons {bytes rest : Bytes} {c : Char} {chars : List Char} :
      Letter bytes c → Content rest chars → Content (bytes ++ rest) (c :: chars)

/-! ## Tokens -/

inductive Mark where
  | openBrace
  | closeBrace
  | openBracket
  | closeBracket
  | colon
  | comma
  deriving DecidableEq, Repr

def Mark.byte : Mark → UInt8
  | openBrace => 0x7B
  | closeBrace => 0x7D
  | openBracket => 0x5B
  | closeBracket => 0x5D
  | colon => 0x3A
  | comma => 0x2C

/-- Two strings are the same token if they stand for the same text, however they
are written. -/
inductive Token where
  | mark (m : Mark)
  | string (s : String)
  deriving DecidableEq, Repr

inductive Spelled : Token → Bytes → Prop
  | mark (m : Mark) : Spelled (.mark m) [m.byte]
  | string {content : Bytes} {chars : List Char} : Content content chars →
      Spelled (.string (String.ofList chars)) (quoteMark :: content ++ [quoteMark])

def Blank (bytes : Bytes) : Prop :=
  ∀ byte ∈ bytes, byte ∈ ([0x20, 0x09, 0x0A, 0x0D] : Bytes)

/-- Bytes that hold these tokens, with blanks before each. -/
inductive Written : List Token → Bytes → Prop
  | nil : Written [] []
  | cons {blanks text rest : Bytes} {t : Token} {ts : List Token} :
      Blank blanks → Spelled t text → Written ts rest → Written (t :: ts) (blanks ++ text ++ rest)

/-! ## Values -/

/-- A member of an object: its key and the tokens of its value. -/
abbrev Entry := String × List Token

def Entry.tokens (e : Entry) : List Token := .string e.1 :: .mark .colon :: e.2

def object (entries : List Entry) : List Token :=
  .mark .openBrace :: [.mark .comma].intercalate (entries.map Entry.tokens) ++ [.mark .closeBrace]

def array (items : List (List Token)) : List Token :=
  .mark .openBracket :: [.mark .comma].intercalate items ++ [.mark .closeBracket]

/-- A record is an object with exactly its fields, in any order, or an array of
their values, in order. -/
inductive Record (fields : List Entry) : List Token → Prop
  | object {entries : List Entry} : entries.Perm fields → Record fields (object entries)
  | array : Record fields (array (fields.map Prod.snd))

def MethodValue (m : Method) : List Token → Prop :=
  Record [("name", [.string m.name]), ("request_type", [.string m.request]),
    ("response_type", [.string m.response])]

def ServiceValue (s : Service) (ts : List Token) : Prop :=
  ∃ items, List.Forall₂ MethodValue s.methods items ∧
    Record [("package", [.string s.package]), ("service", [.string s.name]),
      ("methods", array items)] ts

/-- The document describes a service: its tokens are a value of the service, and
there is nothing else in it but blanks. -/
def Denotes (bytes : Bytes) (s : Service) : Prop :=
  ∃ ts front back, ServiceValue s ts ∧ Written ts front ∧ Blank back ∧ bytes = front ++ back

end ServiceHarness.Document.Json
