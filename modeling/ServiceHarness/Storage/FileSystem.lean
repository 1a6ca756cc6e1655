import ServiceHarness.Storage.Path
import ServiceHarness.Storage.FileError

/-!
# File systems

A file system maps locations to entries.  A location is the list of names from
the root, free of dots and links; the root itself is always a directory.  Paths
are resolved against it as the system does: every name on the way has to lead
to a directory, and links are followed, up to forty of them.  The disk below may
fail while a file is made, filled, synced or moved.
-/

namespace ServiceHarness.Storage

open ServiceHarness.Text

abbrev Location := List Name

inductive Device where
  | null
  | zero
  deriving DecidableEq, Repr

inductive Entry where
  | directory
  | file (content : Bytes) (mode : Nat)
  | link (target : Path)
  | device (d : Device)
  deriving DecidableEq, Repr

/-- What goes wrong with the directories and files that are made on a disk, if
anything does.  A file takes so many bytes before a write to it fails. -/
structure Disk where
  making : Option FileError
  opening : Option FileError
  writing : Option (Nat × FileError)
  syncing : Option FileError
  moving : Option FileError
  deriving DecidableEq, Repr

namespace Disk

def sound : Disk := ⟨none, none, none, none, none⟩

def attempt : Option FileError → Except FileError Unit
  | none => .ok ()
  | some e => .error e

def write (d : Disk) (content : Bytes) : Bytes × Except FileError Unit :=
  match d.writing with
  | none => (content, .ok ())
  | some (room, e) =>
      if content.length ≤ room then (content, .ok ()) else (content.take room, .error e)

end Disk

/-- Files by their locations, the disk that they are on, and the number that was
drawn for the names of staging files. -/
structure FileSystem where
  entries : List (Location × Entry)
  workingDirectory : Location
  disk : Disk := .sound
  drawn : Nat := 0
  deriving DecidableEq, Repr

def putEntry (l : Location) (e : Entry) : List (Location × Entry) → List (Location × Entry)
  | [] => [(l, e)]
  | (l', e') :: rest => if l' = l then (l, e) :: rest else (l', e') :: putEntry l e rest

namespace FileSystem

def entry? (fs : FileSystem) (l : Location) : Option Entry :=
  if l = [] then some .directory else fs.entries.lookup l

def put (fs : FileSystem) (l : Location) (e : Entry) : FileSystem :=
  { fs with entries := putEntry l e fs.entries }

def erase (fs : FileSystem) (l : Location) : FileSystem :=
  { fs with entries := fs.entries.filter fun (l', _) => l' ≠ l }

def eraseTree (fs : FileSystem) (l : Location) : FileSystem :=
  { fs with entries := fs.entries.filter fun (l', _) => !l.isPrefixOf l' }

def maxName : Nat := 255

def maxPath : Nat := 4095

def maxLinks : Nat := 40

inductive Walk where
  | arrived (l : Location)
  | atLink (directory : Location) (target : Path) (rest : List Name)
  | failed (e : FileError)
  deriving DecidableEq, Repr

/-- Why nothing is found in what should be a directory. -/
def obstacle (fs : FileSystem) (l : Location) : FileError :=
  match fs.entry? l with
  | none => .notFound
  | some _ => .notDirectory

def walkPlain (fs : FileSystem) (l : Location) : List Name → Walk
  | [] => .arrived l
  | name :: rest =>
      if fs.entry? l ≠ some .directory then .failed (fs.obstacle l)
      else if name = dotSegment then fs.walkPlain l rest
      else if name = dotDotSegment then fs.walkPlain l.dropLast rest
      else if maxName < name.length then .failed .nameTooLong
      else
        match fs.entry? (l ++ [name]) with
        | none => .failed .notFound
        | some (.link target) => .atLink l target rest
        | some _ => fs.walkPlain (l ++ [name]) rest

def origin (directory : Location) (p : Path) : Location :=
  if Path.isAbsolute p then [] else directory

def walk (fs : FileSystem) (links : Nat) (l : Location) (names : List Name) :
    Except FileError Location :=
  match fs.walkPlain l names with
  | .arrived l => .ok l
  | .failed e => .error e
  | .atLink directory target rest =>
      match links with
      | 0 => .error .tooManyLinks
      | links + 1 => fs.walk links (origin directory target) (Path.steps target ++ rest)

def checkPath (p : Path) : Except FileError Unit :=
  if p.contains 0 then .error .nulInPath
  else if p = [] then .error .notFound
  else if maxPath < p.length then .error .nameTooLong
  else .ok ()

def resolve (fs : FileSystem) (p : Path) : Except FileError (Location × Entry) := do
  checkPath p
  let l ← fs.walk maxLinks (origin fs.workingDirectory p) (Path.steps p)
  match fs.entry? l with
  | some e => return (l, e)
  | none => throw .notFound

/-- The directory of the last name of a path, and that name.  There is no name
if the path ends in a dot segment or is the root. -/
def locate (fs : FileSystem) (p : Path) : Except FileError (Location × Option Name) := do
  checkPath p
  let names := (Path.reversedSegments p).filter (· ≠ [])
  match names with
  | [] => return ([], none)
  | last :: before =>
      let l ← fs.walk maxLinks (origin fs.workingDirectory p) before.reverse
      if fs.entry? l ≠ some .directory then throw (fs.obstacle l)
      if last = dotSegment ∨ last = dotDotSegment then return (l, none)
      if maxName < last.length then throw .nameTooLong
      return (l, some last)

def isDirectory (fs : FileSystem) (p : Path) : Bool :=
  match fs.resolve p with
  | .ok (_, e) => e == .directory
  | .error _ => false

/-- What stands at a path itself; a link is not followed. -/
def status (fs : FileSystem) (p : Path) : Except FileError Entry := do
  if p.getLast? = some slash then return (← fs.resolve p).2
  match ← fs.locate p with
  | (_, none) => return (← fs.resolve p).2
  | (l, some name) =>
      match fs.entry? (l ++ [name]) with
      | some e => return e
      | none => throw .notFound

def makeDirectory (fs : FileSystem) (p : Path) : Except FileError FileSystem := do
  match ← fs.locate p with
  | (_, none) => throw .alreadyExists
  | (l, some name) =>
      match fs.entry? (l ++ [name]) with
      | some _ => throw .alreadyExists
      | none =>
          Disk.attempt fs.disk.making
          return fs.put (l ++ [name]) .directory

/-- Makes the first of some paths, whose parents are the others, with all
parents that are missing.  What was made stays even if a later step fails. -/
def makeDirectories (fs : FileSystem) : List Path → FileSystem × Except FileError Unit
  | [] => (fs, .ok ())
  | p :: parents =>
      if p = [] then (fs, .ok ())
      else
        match fs.makeDirectory p with
        | .ok fs => (fs, .ok ())
        | .error .notFound =>
            match fs.makeDirectories parents with
            | (fs, .error e) => (fs, .error e)
            | (fs, .ok ()) =>
                match fs.makeDirectory p with
                | .ok fs => (fs, .ok ())
                | .error e => (fs, if fs.isDirectory p then .ok () else .error e)
        | .error e => (fs, if fs.isDirectory p then .ok () else .error e)

def makeDirectoryTree (fs : FileSystem) (p : Path) : FileSystem × Except FileError Unit :=
  fs.makeDirectories (Path.ancestors p)

def moveFile (fs : FileSystem) (source : Location) (p : Path) :
    Except FileError FileSystem := do
  match ← fs.locate p, fs.entry? source with
  | _, none => throw .notFound
  | (_, none), _ => throw .busy
  | (l, some name), some e =>
      if p.getLast? = some slash then throw .notDirectory
      if fs.entry? (l ++ [name]) = some .directory then throw .isDirectory
      Disk.attempt fs.disk.moving
      return (fs.erase source).put (l ++ [name]) e

def openFile (fs : FileSystem) (p : Path) : Except FileError Entry := do
  return (← fs.resolve p).2

end FileSystem

namespace Entry

def size : Entry → Nat
  | directory => 4096
  | file content _ => content.length
  | link target => target.length
  | device _ => 0

def readAtMost (limit : Nat) : Entry → Except FileError Bytes
  | directory => .error .isDirectory
  | file content _ => .ok (content.take limit)
  | link _ => .error .tooManyLinks
  | device .null => .ok []
  | device .zero => .ok (List.replicate limit 0)

def readAll : Entry → Except FileError Bytes
  | directory => .error .isDirectory
  | file content _ => .ok content
  | link _ => .error .tooManyLinks
  | device .null => .ok []
  | device .zero => .error .outOfMemory

end Entry

end ServiceHarness.Storage
