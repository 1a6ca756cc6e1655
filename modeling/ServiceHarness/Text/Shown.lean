import ServiceHarness.Text.Invisible
import ServiceHarness.Text.Utf8

/-!
# Texts shown in messages

A text between quotes, as an error message shows it: the quote, the backslash
and the common controls with a letter after a backslash, every other character
that would not show up by its code point in braces.  Of bytes the texts among
them are shown so, and every other byte by its number.
-/

namespace ServiceHarness.Text.Shown

def codePoint (c : Char) : List Char :=
  ['\\', 'u', '\x7b'] ++ Nat.toDigits 16 c.toNat ++ ['\x7d']

def escape (c : Char) : List Char :=
  if c = '"' then ['\\', '"']
  else if c = '\\' then ['\\', '\\']
  else if c = '\n' then ['\\', 'n']
  else if c = '\r' then ['\\', 'r']
  else if c = '\t' then ['\\', 't']
  else if c = '\x00' then ['\\', '0']
  else if isInvisible c then codePoint c
  else [c]

def quote (chars : List Char) : String :=
  String.ofList ('"' :: chars.flatMap escape ++ ['"'])

def byte (b : UInt8) : List Char :=
  let digit := fun n => (Nat.digitChar n).toUpper
  ['\\', 'x', digit (b.toNat / 16), digit (b.toNat % 16)]

/-- Reads bytes as `Utf8.lossyFrom` does; `begun` are those of a character that is
not finished. -/
def bytesFrom (pending : Option Utf8.Pending) (begun : Bytes) : Bytes → List Char
  | [] => begun.flatMap byte
  | b :: rest =>
      let start (refused : List Char) :=
        match Utf8.start b with
        | .char c => refused ++ escape c ++ bytesFrom none [] rest
        | .more p => refused ++ bytesFrom (some p) [b] rest
        | .refused => refused ++ byte b ++ bytesFrom none [] rest
      match pending with
      | none => start []
      | some p =>
          match p.next b with
          | .char c => escape c ++ bytesFrom none [] rest
          | .more q => bytesFrom (some q) (begun ++ [b]) rest
          | .refused => start (begun.flatMap byte)

def quoteBytes (bytes : Bytes) : String :=
  String.ofList ('"' :: bytesFrom none [] bytes ++ ['"'])

end ServiceHarness.Text.Shown
