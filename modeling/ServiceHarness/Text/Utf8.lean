/-!
# UTF-8

Bytes and characters.  A reader of bytes is either between two characters or
inside one, where the first byte has fixed how many continuation bytes are
still owed and in which range the next one lies.  `decode` refuses a text at
its first fault, `lossy` puts U+FFFD in place of every faulty sequence.
-/

namespace ServiceHarness.Text

abbrev Bytes := List UInt8

namespace Utf8

/-- A character that has begun: `owed` bytes follow the next one, which lies
in `low..high`; `code` holds the bits read from `size` bytes. -/
structure Pending where
  owed : Nat
  low : Nat
  high : Nat
  code : Nat
  size : Nat
  deriving DecidableEq, Repr

inductive Step where
  | char (c : Char)
  | more (pending : Pending)
  | refused
  deriving DecidableEq, Repr

/-- The first byte of a character.  The narrowed ranges after E0, ED, F0 and
F4 shut out overlong forms, surrogates and values above U+10FFFF. -/
def start (byte : UInt8) : Step :=
  let n := byte.toNat
  if n < 0x80 then .char (Char.ofNat n)
  else if n < 0xC2 then .refused
  else if n < 0xE0 then .more ⟨0, 0x80, 0xBF, n - 0xC0, 1⟩
  else if n = 0xE0 then .more ⟨1, 0xA0, 0xBF, 0, 1⟩
  else if n = 0xED then .more ⟨1, 0x80, 0x9F, 0xD, 1⟩
  else if n < 0xF0 then .more ⟨1, 0x80, 0xBF, n - 0xE0, 1⟩
  else if n = 0xF0 then .more ⟨2, 0x90, 0xBF, 0, 1⟩
  else if n < 0xF4 then .more ⟨2, 0x80, 0xBF, n - 0xF0, 1⟩
  else if n = 0xF4 then .more ⟨2, 0x80, 0x8F, 4, 1⟩
  else .refused

def Pending.next (p : Pending) (byte : UInt8) : Step :=
  let n := byte.toNat
  if p.low ≤ n ∧ n ≤ p.high then
    let code := p.code * 64 + (n - 0x80)
    match p.owed with
    | 0 => .char (Char.ofNat code)
    | owed + 1 => .more ⟨owed, 0x80, 0xBF, code, p.size + 1⟩
  else .refused

/-- Why bytes are not a text: at `index` begins a sequence that is wrong after
`size` bytes, or that the end of the input cuts short. -/
inductive Fault where
  | malformed (index size : Nat)
  | truncated (index : Nat)
  deriving DecidableEq, Repr

def Fault.index : Fault → Nat
  | .malformed index _ => index
  | .truncated index => index

def Fault.message : Fault → String
  | .malformed index size =>
      "invalid utf-8 sequence of " ++ toString size ++ " bytes from index " ++ toString index
  | .truncated index =>
      "incomplete utf-8 byte sequence from index " ++ toString index

/-- Reads on from `index`, where `pending` is the character begun before it
and `done` holds the finished ones in reverse. -/
def decodeFrom (pending : Option Pending) (index : Nat) (done : List Char) :
    Bytes → Except Fault (List Char)
  | [] =>
      match pending with
      | none => .ok done.reverse
      | some p => .error (.truncated (index - p.size))
  | byte :: rest =>
      match pending with
      | none =>
          match start byte with
          | .char c => decodeFrom none (index + 1) (c :: done) rest
          | .more p => decodeFrom (some p) (index + 1) done rest
          | .refused => .error (.malformed index 1)
      | some p =>
          match p.next byte with
          | .char c => decodeFrom none (index + 1) (c :: done) rest
          | .more q => decodeFrom (some q) (index + 1) done rest
          | .refused => .error (.malformed (index - p.size) p.size)

def decode (bytes : Bytes) : Except Fault (List Char) :=
  decodeFrom none 0 [] bytes

def replacement : Char := '\uFFFD'

def lossyStart (byte : UInt8) (done : List Char) : Option Pending × List Char :=
  match start byte with
  | .char c => (none, c :: done)
  | .more p => (some p, done)
  | .refused => (none, replacement :: done)

def lossyFrom (pending : Option Pending) (done : List Char) : Bytes → List Char
  | [] =>
      match pending with
      | none => done.reverse
      | some _ => (replacement :: done).reverse
  | byte :: rest =>
      match pending with
      | none =>
          let (p, done) := lossyStart byte done
          lossyFrom p done rest
      | some p =>
          match p.next byte with
          | .char c => lossyFrom none (c :: done) rest
          | .more q => lossyFrom (some q) done rest
          | .refused =>
              let (q, done) := lossyStart byte (replacement :: done)
              lossyFrom q done rest

def lossy (bytes : Bytes) : String :=
  String.ofList (lossyFrom none [] bytes)

def encode (chars : List Char) : Bytes :=
  chars.flatMap String.utf8EncodeChar

def ofString (s : String) : Bytes :=
  encode s.toList

def toString? (bytes : Bytes) : Option String :=
  match decode bytes with
  | .ok chars => some (String.ofList chars)
  | .error _ => none

def width (chars : List Char) : Nat :=
  chars.foldl (fun n c => n + c.utf8Size) 0

end Utf8

end ServiceHarness.Text
