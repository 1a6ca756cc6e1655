import ServiceHarness.Text.Utf8

/-!
# Paths

A path is a byte string.  Slashes part it into segments; empty segments and
single dots say nothing, except for a dot that a relative path begins with.
The name of a path is its last telling segment, and its parent is the path up
to the telling segment before that.
-/

namespace ServiceHarness.Storage

open ServiceHarness.Text

abbrev Name := Bytes

abbrev Path := Bytes

def slash : UInt8 := 47

def dot : UInt8 := 46

def dotSegment : Name := [dot]

def dotDotSegment : Name := [dot, dot]

namespace Path

def splitReversed (current : Name) (done : List Name) : Path → List Name
  | [] => current.reverse :: done
  | byte :: rest =>
      if byte = slash then splitReversed [] (current.reverse :: done) rest
      else splitReversed (byte :: current) done rest

def reversedSegments (p : Path) : List Name :=
  splitReversed [] [] p

def isAbsolute (p : Path) : Bool :=
  p.head? == some slash

/-- Takes the segments that say nothing off the end of a path, which is the
front of its reversed segments. -/
def dropSilent : List Name → List Name
  | [] => []
  | [segment] => if segment = [] then [] else [segment]
  | segment :: rest =>
      if segment = [] ∨ segment = dotSegment then dropSilent rest else segment :: rest

def join (segments : List Name) : Path :=
  [slash].intercalate segments

def under (directory p : Path) : Path :=
  if directory.getLast? = some slash then directory ++ p else directory ++ slash :: p

def fileName? (p : Path) : Option Name :=
  match dropSilent (reversedSegments p) with
  | [] => none
  | segment :: _ =>
      if segment = dotSegment ∨ segment = dotDotSegment then none else some segment

def parent? (p : Path) : Option Path :=
  match dropSilent (reversedSegments p) with
  | [] => none
  | _ :: rest =>
      match dropSilent rest with
      | [] => some (if isAbsolute p then [slash] else [])
      | segments => some (join segments.reverse)

/-- A path and its parents, as far as it has any, the path first; `count` bounds
their number. -/
def ancestorsUpTo : (count : Nat) → Path → List Path
  | 0, _ => []
  | count + 1, p =>
      match parent? p with
      | none => [p]
      | some q => p :: ancestorsUpTo count q

def ancestors (p : Path) : List Path :=
  ancestorsUpTo (p.length + 1) p

/-- The names to walk through in order.  A slash at the end asks for a
directory, as a single dot does. -/
def steps (p : Path) : List Name :=
  let names := (reversedSegments p).reverse.filter (· ≠ [])
  if p.getLast? = some slash then names ++ [dotSegment] else names

/-- What follows the last dot of a name, unless that dot is its first byte. -/
def extension? (name : Name) : Option Name :=
  let tail := name.reverse.takeWhile (· ≠ dot)
  if tail.length + 1 < name.length then some tail.reverse else none

def display (p : Path) : String :=
  Utf8.lossy p

end Path

end ServiceHarness.Storage
