import ServiceHarness.Storage.FileSystem

/-!
# Contents

Plain changes of a file system and its listing: files that are written through
links, links, trees that are taken away, and all paths below the working
directory in the order of their bytes.
-/

namespace ServiceHarness.Storage

open ServiceHarness.Text

namespace FileSystem

def plainMode : Nat := 0o644

def storeAt (fs : FileSystem) (content : Bytes) :
    (links : Nat) → Location → Except FileError FileSystem
  | links, l =>
      match fs.entry? l with
      | some .directory => .error .isDirectory
      | some (.device _) => .ok fs
      | some (.link target) =>
          match links with
          | 0 => .error .tooManyLinks
          | links + 1 => do
              match ← { fs with workingDirectory := l.dropLast }.locate target with
              | (_, none) => throw .isDirectory
              | (l, some name) => fs.storeAt content links (l ++ [name])
      | _ => .ok (fs.put l (.file content plainMode))

def store (fs : FileSystem) (p : Path) (content : Bytes) :
    FileSystem × Except FileError Unit :=
  let made : FileSystem × Except FileError Unit :=
    match Path.parent? p with
    | none => (fs, .ok ())
    | some parent => fs.makeDirectoryTree parent
  match made with
  | (fs, .error e) => (fs, .error e)
  | (fs, .ok ()) =>
      match fs.locate p with
      | .error e => (fs, .error e)
      | .ok (_, none) => (fs, .error .isDirectory)
      | .ok (l, some name) =>
          if p.getLast? = some slash then (fs, .error .isDirectory)
          else
            match fs.storeAt content maxLinks (l ++ [name]) with
            | .ok fs => (fs, .ok ())
            | .error e => (fs, .error e)

def makeLink (fs : FileSystem) (target p : Path) : Except FileError FileSystem := do
  checkPath target
  match ← fs.locate p with
  | (_, none) => throw .alreadyExists
  | (l, some name) =>
      match fs.entry? (l ++ [name]) with
      | some _ => throw .alreadyExists
      | none =>
          if p.getLast? = some slash then throw .notFound
          return fs.put (l ++ [name]) (.link target)

def remove (fs : FileSystem) (p : Path) : Except FileError FileSystem := do
  match ← fs.locate p with
  | (_, none) => throw .busy
  | (l, some name) =>
      match fs.entry? (l ++ [name]) with
      | none => throw .notFound
      | some _ => return fs.eraseTree (l ++ [name])

def bytesLe : Bytes → Bytes → Bool
  | [], _ => true
  | _ :: _, [] => false
  | a :: s, b :: t => if a = b then bytesLe s t else a < b

def listed? (directory : Location) (l : Location) (e : Entry) : Option Bytes :=
  if directory.isPrefixOf l ∧ directory.length < l.length then
    let p := Path.join (l.drop directory.length)
    some (if e = .directory then p ++ [slash] else p)
  else none

/-- All paths below the working directory; those of directories end in a slash. -/
def listing (fs : FileSystem) : List Bytes :=
  (fs.entries.filterMap fun (l, e) => listed? fs.workingDirectory l e).mergeSort bytesLe

def readBytes (fs : FileSystem) (p : Path) : Except FileError Bytes := do
  (← fs.openFile p).readAll

end FileSystem

end ServiceHarness.Storage
