import ServiceHarness.Command.Basic
import ServiceHarness.Document.Loading
import ServiceHarness.Harness.Generation
import ServiceHarness.Log.Event
import ServiceHarness.Storage.Output

/-!
# Running commands

A command loads its description and reports what it found.  `validation`,
`rendering`, `writing` and `checking` tell what a run reports, given what the
file calls before answered; `run` makes these calls on a file system.
-/

namespace ServiceHarness

open ServiceHarness.Text ServiceHarness.Storage ServiceHarness.Document
open ServiceHarness.Harness ServiceHarness.Log

namespace Command

/-- What a run leaves behind besides files: log events, the text for standard
output and the lines on what went wrong. -/
structure Report where
  events : List Event
  output : String
  problems : List String
  deriving DecidableEq, Repr

def Report.succeeds (r : Report) : Bool := r.problems == []

def violationSummary (count : Nat) (p : Path) : String :=
  toString count ++ " validation problem(s) in " ++ Path.display p

def loadedEvent (p : Path) (f : Format) (s : Service) : Event :=
  .loaded p f.label s.methods.length

def validation (p : Path) (loaded : Except LoadError (Format × Service)) : Report :=
  match loaded with
  | .error e => ⟨[], "", [e.message]⟩
  | .ok (f, s) =>
      match s.violations with
      | [] => ⟨[loadedEvent p f s, .valid p s.methods.length], "", []⟩
      | violations =>
          ⟨[loadedEvent p f s], "",
            violations.map Violation.message ++ [violationSummary violations.length p]⟩

def rendering (p : Path) (loaded : Except LoadError (Format × Service)) :
    Except Report (List Event × String) :=
  match loaded with
  | .error e => .error ⟨[], "", [(GenerationError.load e).message]⟩
  | .ok (f, s) =>
      match Harness.generate s with
      | .error e => .error ⟨[loadedEvent p f s], "", [e.message]⟩
      | .ok text =>
          .ok ([loadedEvent p f s,
            .rendered s.package s.name s.methods.length (Utf8.width text.toList)], text)

def writing (events : List Event) (out : Path) (text : String)
    (written : Except OutputError Unit) : Report :=
  match written with
  | .ok () => ⟨events ++ [.wrote out (Utf8.width text.toList)], "", []⟩
  | .error e => ⟨events, "", [e.message]⟩

def checking (events : List Event) (out : Path) (checked : Except OutputError Unit) : Report :=
  match checked with
  | .ok () => ⟨events ++ [.upToDate out], "", []⟩
  | .error (.drift path) => ⟨events ++ [.drifted out], "", [(OutputError.drift path).message]⟩
  | .error e => ⟨events, "", [e.message]⟩

/-- Runs a command.  Only a harness that is written to a file changes the file
system. -/
def run (fs : FileSystem) (c : Command) : FileSystem × Report :=
  let loaded := loadAs fs c.input.description c.input.format
  match c with
  | .validate input => (fs, validation input.description loaded)
  | .generate input none =>
      match rendering input.description loaded with
      | .error report => (fs, report)
      | .ok (events, text) => (fs, ⟨events, text, []⟩)
  | .generate input (some out) =>
      match rendering input.description loaded with
      | .error report => (fs, report)
      | .ok (events, text) =>
          let (fs, written) := fs.writeOutput out text
          (fs, writing events out text written)
  | .check input out =>
      match rendering input.description loaded with
      | .error report => (fs, report)
      | .ok (events, text) => (fs, checking events out (fs.checkOutput out text))

end Command

end ServiceHarness
