/-!
# Quoted text

The double-quoted form that JSON documents use, which is also an interpreted
string literal of Go.  The quote, the backslash and the control characters
below U+0020 are escaped; every other character stands for itself.
-/

namespace ServiceHarness.Text.Quoted

def hexDigit (n : Nat) : Char :=
  Char.ofNat (if n < 10 then 48 + n else 87 + n)

def escape (c : Char) : List Char :=
  if c = '"' then ['\\', '"']
  else if c = '\\' then ['\\', '\\']
  else if c = '\x08' then ['\\', 'b']
  else if c = '\x0c' then ['\\', 'f']
  else if c = '\n' then ['\\', 'n']
  else if c = '\r' then ['\\', 'r']
  else if c = '\t' then ['\\', 't']
  else if c.toNat < 0x20 then
    ['\\', 'u', '0', '0', hexDigit (c.toNat / 16), hexDigit (c.toNat % 16)]
  else [c]

def encode (chars : List Char) : List Char :=
  '"' :: chars.flatMap escape ++ ['"']

def literal (s : String) : String :=
  String.ofList (encode s.toList)

end ServiceHarness.Text.Quoted
