import ServiceHarness.Document.Reading
import ServiceHarness.Storage.FileSystem

/-!
# Loading descriptions

A description file is read up to one byte beyond the size limit, so that a file
without end does no harm, and then parsed.  The format comes first: without one
the file is not opened.
-/

namespace ServiceHarness.Document

open ServiceHarness.Text ServiceHarness.Storage

def chooseFormat (p : Path) (format : Option Format) : Except LoadError Format :=
  match format with
  | some f => .ok f
  | none =>
      match Format.ofPath? p with
      | some f => .ok f
      | none => .error (.unknownFormat (Path.display p))

def readBounded (e : Entry) : Except LoadError Bytes :=
  if maxBytes < e.size then .error .tooLarge
  else
    match e.readAtMost (maxBytes + 1) with
    | .error cause => .error (.io cause.message)
    | .ok bytes => if maxBytes < bytes.length then .error .tooLarge else .ok bytes

def readFile (fs : FileSystem) (p : Path) : Except LoadError Bytes :=
  match fs.openFile p with
  | .error cause => .error (.io cause.message)
  | .ok e => readBounded e

def loadAs (fs : FileSystem) (p : Path) (format : Option Format) :
    Except LoadError (Format × Service) := do
  let f ← chooseFormat p format
  let bytes ← readFile fs p
  return (f, ← parse f bytes)

def load (fs : FileSystem) (p : Path) (format : Option Format) : Except LoadError Service :=
  (loadAs fs p format).map (·.2)

end ServiceHarness.Document
