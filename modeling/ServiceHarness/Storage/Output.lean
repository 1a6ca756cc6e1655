import ServiceHarness.Storage.FileSystem
import ServiceHarness.Text.Shown

/-!
# Output files

A text is written to a staging file beside its target and then moved over it,
so that the target never holds a part of the text.  Every step of this may fail;
only taking the staging file away again is taken to succeed.  A check compares a
file with the text that it should hold.
-/

namespace ServiceHarness.Storage

open ServiceHarness.Text

inductive OutputError where
  | io (cause : String)
  | drift (path : String)
  deriving DecidableEq, Repr

def OutputError.message : OutputError → String
  | io cause => "io error: " ++ cause
  | drift path =>
      "harness drift detected for " ++ path ++ ". Run scenario-harness-gen generate."

def OutputError.ofFileError (e : FileError) : OutputError := .io e.message

def causeAt (cause : String) (p : Path) : String :=
  cause ++ " at path " ++ Shown.quoteBytes p

/-- Why a write has failed.  Making and filling a staging file tell its path. -/
structure WriteError where
  cause : FileError
  path : Option Path
  deriving DecidableEq, Repr

namespace WriteError

def plain (e : FileError) : WriteError := ⟨e, none⟩

def staging (p : Path) (e : FileError) : WriteError := ⟨e, some p⟩

def message (e : WriteError) : String :=
  match e.path with
  | none => e.cause.message
  | some p => causeAt e.cause.message p

end WriteError

def stagedMode : Nat := 0o600

def suffixDigit (n : Nat) : UInt8 :=
  (if n < 10 then 48 + n else if n < 36 then 55 + n else 61 + n).toUInt8

def stagingSuffix (n : Nat) : Name :=
  (List.range 6).map fun i => suffixDigit (n / Nat.pow 62 (5 - i) % 62)

def stagingSuffixes : Nat := Nat.pow 62 6

def stagingName (name : Name) (n : Nat) : Name :=
  [dot] ++ name ++ Utf8.ofString ".tmp." ++ stagingSuffix n

def stagingPath (base : Path) (name : Name) (n : Nat) : Path :=
  Path.under base (stagingName name n)

def compareOutput (p : Path) (found : Bytes) (text : String) : Except OutputError Unit :=
  match Utf8.toString? found with
  | none => .error (.ofFileError .invalidText)
  | some held => if held = text then .ok () else .error (.drift (Path.display p))

namespace FileSystem

def freeNumberFrom (fs : FileSystem) (directory : Location) (name : Name) :
    (count : Nat) → Nat → Option Nat
  | 0, _ => none
  | count + 1, n =>
      if fs.entry? (directory ++ [stagingName name n]) = none then some n
      else fs.freeNumberFrom directory name count (n + 1)

def freeNumber? (fs : FileSystem) (directory : Location) (name : Name) : Option Nat :=
  fs.freeNumberFrom directory name stagingSuffixes fs.drawn

/-- A path as it is written from the root on. -/
def fromRoot (fs : FileSystem) (p : Path) : Except FileError Path :=
  if Path.isAbsolute p then .ok p
  else if fs.entry? fs.workingDirectory ≠ some .directory then .error .notFound
  else .ok (Path.under (slash :: Path.join fs.workingDirectory) p)

def stagingDirectory (fs : FileSystem) (parent : Path) (name : Name) (tried : Path) :
    Except FileError Location := do
  checkPath tried
  let (directory, e) ← fs.resolve parent
  if e ≠ .directory then throw .notDirectory
  if maxName < (stagingName name fs.drawn).length then throw .nameTooLong
  return directory

/-- Where a new staging file is put, and its path. -/
def stagingPlace (fs : FileSystem) (parent : Path) (name : Name) :
    Except WriteError (Location × Path) := do
  let base ← (fs.fromRoot parent).mapError .plain
  let first := stagingPath base name fs.drawn
  let directory ← (fs.stagingDirectory parent name first).mapError (.staging first)
  match fs.freeNumber? directory name with
  | none => throw (.staging base .tooManyStaged)
  | some n =>
      let path := stagingPath base name n
      (Disk.attempt fs.disk.opening).mapError (.staging path)
      return (directory ++ [stagingName name n], path)

def fill (fs : FileSystem) (l : Location) (content : Bytes) :
    FileSystem × Except FileError Unit :=
  let (taken, result) := fs.disk.write content
  (fs.put l (.file taken stagedMode), result)

def persist (fs : FileSystem) (l : Location) (p : Path) : Except FileError FileSystem := do
  Disk.attempt fs.disk.syncing
  fs.moveFile l p

def prepareParent (fs : FileSystem) (p : Path) : FileSystem × Except FileError Path :=
  match Path.parent? p with
  | none => (fs, .ok dotSegment)
  | some parent =>
      if parent = [] then (fs, .ok dotSegment)
      else
        match fs.makeDirectoryTree parent with
        | (fs, .ok ()) => (fs, .ok parent)
        | (fs, .error e) => (fs, .error e)

/-- Stages a content and moves it into place.  Whatever fails after the staging file
is made, that file is taken away. -/
def replaceFile (fs : FileSystem) (parent p : Path) (name : Name) (content : Bytes) :
    FileSystem × Except WriteError Unit :=
  match fs.stagingPlace parent name with
  | .error e => (fs, .error e)
  | .ok (l, path) =>
      match (fs.put l (.file [] stagedMode)).fill l content with
      | (filled, .error e) => (filled.erase l, .error (.staging path e))
      | (filled, .ok ()) =>
          match filled.persist l p with
          | .ok moved => (moved, .ok ())
          | .error e => (filled.erase l, .error (.plain e))

def outputName? (p : Path) : Option Name :=
  (Path.fileName? p).bind fun name => (Utf8.toString? name).map fun _ => name

def writeBytes (fs : FileSystem) (p : Path) (content : Bytes) :
    FileSystem × Except WriteError Unit :=
  match outputName? p with
  | none => (fs, .error (.plain .noFileName))
  | some name =>
      match fs.prepareParent p with
      | (fs, .error e) => (fs, .error (.plain e))
      | (fs, .ok parent) => fs.replaceFile parent p name content

def writeOutput (fs : FileSystem) (p : Path) (text : String) :
    FileSystem × Except OutputError Unit :=
  match fs.writeBytes p (Utf8.ofString text) with
  | (fs, .ok ()) => (fs, .ok ())
  | (fs, .error e) => (fs, .error (.io e.message))

def checkOutput (fs : FileSystem) (p : Path) (text : String) : Except OutputError Unit :=
  match fs.openFile p with
  | .error e => .error (.ofFileError e)
  | .ok found =>
      match found.readAll with
      | .error e => .error (.ofFileError e)
      | .ok bytes => compareOutput p bytes text

end FileSystem

end ServiceHarness.Storage
