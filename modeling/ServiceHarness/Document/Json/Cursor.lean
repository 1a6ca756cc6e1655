import ServiceHarness.Document.Json.Fault
import ServiceHarness.Text.Utf8

/-!
# Reading position

What is left of a document and where it begins.  A fault is reported either at
the bytes already read or at the byte ahead, which then counts as read.
-/

namespace ServiceHarness.Document.Json

open ServiceHarness.Text

structure Cursor where
  rest : Bytes
  position : Position
  deriving DecidableEq, Repr

namespace Cursor

def ofBytes (bytes : Bytes) : Cursor := ⟨bytes, .start⟩

def peek? (c : Cursor) : Option UInt8 := c.rest.head?

def advance (c : Cursor) : Cursor :=
  match c.rest with
  | [] => c
  | byte :: rest => ⟨rest, c.position.after byte⟩

def faultHere (c : Cursor) (reason : Reason) : Fault := ⟨reason, c.position⟩

def faultAhead (c : Cursor) (reason : Reason) : Fault := c.advance.faultHere reason

end Cursor

def isBlank (byte : UInt8) : Bool :=
  byte == 32 || byte == 10 || byte == 9 || byte == 13

def skipBlanksFrom (position : Position) : Bytes → Cursor
  | [] => ⟨[], position⟩
  | byte :: rest =>
      if isBlank byte then skipBlanksFrom (position.after byte) rest
      else ⟨byte :: rest, position⟩

def Cursor.skipBlanks (c : Cursor) : Cursor :=
  skipBlanksFrom c.position c.rest

def takeRunFrom (inRun : UInt8 → Bool) (position : Position) (taken : Bytes) :
    Bytes → Bytes × Cursor
  | [] => (taken.reverse, ⟨[], position⟩)
  | byte :: rest =>
      if inRun byte then takeRunFrom inRun (position.after byte) (byte :: taken) rest
      else (taken.reverse, ⟨byte :: rest, position⟩)

def Cursor.takeRun (c : Cursor) (inRun : UInt8 → Bool) : Bytes × Cursor :=
  takeRunFrom inRun c.position [] c.rest

end ServiceHarness.Document.Json
