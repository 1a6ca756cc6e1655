import ServiceHarness.Command.Invocation
import ServiceHarness.Harness.Loading
import ServiceHarness.Storage.Contents

/-!
# Sessions

A session is work in an empty directory: files are laid out and looked at,
descriptions loaded, harnesses generated, written and checked.  It keeps the
generator in use and the last text that was generated; a step that fails keeps
both.
-/

namespace ServiceHarness

open ServiceHarness.Text ServiceHarness.Storage ServiceHarness.Document
open ServiceHarness.Harness ServiceHarness.Log

structure Session where
  files : FileSystem
  generator : Option Generator
  text : String
  deriving DecidableEq

namespace Session

inductive Step where
  | store (path : Path) (content : Bytes)
  | makeDirectory (path : Path)
  | remove (path : Path)
  | makeLink (target path : Path)
  | changeDisk (disk : Disk) (drawn : Nat)
  | read (path : Path)
  | status (path : Path)
  | list
  | load (path : Path) (format : Option Format)
  | loadGenerator (path : Path) (format : Option Format)
  | newGenerator (s : Service)
  | validGenerator (s : Service)
  | service
  | generate
  | writeOutput (path : Path) (text : Option String)
  | checkOutput (path : Path) (text : Option String)
  | invoke (arguments : List Bytes) (setting : Option (List Char)) (streams : Streams)
  deriving DecidableEq, Repr

inductive Answer where
  | done
  | bytes (b : Bytes)
  | failed (e : FileError)
  | status (e : Option Entry)
  | entries (paths : List Bytes)
  | description (s : Service)
  | loadFailed (e : LoadError)
  | service (v : Option ValidService)
  | invalid (v : Violation)
  | generationFailed (e : GenerationError)
  | text (t : Option String)
  | outputFailed (e : OutputError)
  | exit (e : Exit)
  deriving DecidableEq

def home : Location := [Utf8.ofString "tmp", Utf8.ofString "session"]

def startFiles : FileSystem :=
  let devices := Utf8.ofString "dev"
  { entries := [([devices], .directory),
      ([devices, Utf8.ofString "null"], .device .null),
      ([devices, Utf8.ofString "zero"], .device .zero),
      (home.dropLast, .directory),
      (home, .directory)]
    workingDirectory := home }

def start : Session := ⟨startFiles, none, ""⟩

def changed (s : Session) (fs : FileSystem) : Except FileError Unit → Session × Answer
  | .ok () => ({ s with files := fs }, .done)
  | .error e => ({ s with files := fs }, .failed e)

def changedTo (s : Session) : Except FileError FileSystem → Session × Answer
  | .ok fs => s.changed fs (.ok ())
  | .error e => s.changed s.files (.error e)

def takeUp (s : Session) : Except GenerationError Generator → Session × Answer
  | .ok g => ({ s with generator := some g }, .service (some g.service))
  | .error e => (s, .generationFailed e)

def outputAnswer : Except OutputError Unit → Answer
  | .ok () => .done
  | .error e => .outputFailed e

def step (s : Session) : Step → Session × Answer
  | .store path content =>
      let (fs, result) := s.files.store path content
      s.changed fs result
  | .makeDirectory path =>
      let (fs, result) := s.files.makeDirectoryTree path
      s.changed fs result
  | .remove path => s.changedTo (s.files.remove path)
  | .makeLink target path => s.changedTo (s.files.makeLink target path)
  | .changeDisk disk drawn => s.changed { s.files with disk := disk, drawn := drawn } (.ok ())
  | .read path =>
      match s.files.readBytes path with
      | .ok b => (s, .bytes b)
      | .error e => (s, .failed e)
  | .status path => (s, .status (s.files.status path).toOption)
  | .list => (s, .entries s.files.listing)
  | .load path format =>
      match Document.load s.files path format with
      | .ok d => (s, .description d)
      | .error e => (s, .loadFailed e)
  | .loadGenerator path format => s.takeUp (Generator.load s.files path format)
  | .newGenerator d => s.takeUp (Generator.ofService d)
  | .validGenerator d =>
      match ValidService.ofService d with
      | .ok v => s.takeUp (.ok ⟨v⟩)
      | .error v => (s, .invalid v)
  | .service => (s, .service (s.generator.map (·.service)))
  | .generate =>
      match s.generator.map Generator.generate with
      | none => (s, .text none)
      | some (.ok text) => ({ s with text := text }, .text (some text))
      | some (.error e) => (s, .generationFailed e)
  | .writeOutput path text =>
      let (fs, result) := s.files.writeOutput path (text.getD s.text)
      ({ s with files := fs }, outputAnswer result)
  | .checkOutput path text =>
      (s, outputAnswer (s.files.checkOutput path (text.getD s.text)))
  | .invoke arguments setting streams =>
      let (fs, exit) := Command.invoke s.files arguments (Filter.ofSetting setting) streams
      ({ s with files := fs }, .exit exit)

def answers (s : Session) : List Step → List Answer
  | [] => []
  | step :: rest =>
      let (s, answer) := s.step step
      answer :: s.answers rest

end Session

end ServiceHarness
