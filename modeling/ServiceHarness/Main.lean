import ServiceHarness.Command.Invocation

/-!
# The program

Runs a command line on the files and streams of the system.  All decisions are
made by `Command`; this module only makes the file calls.
-/

namespace ServiceHarness.Program

open ServiceHarness.Text ServiceHarness.Storage ServiceHarness.Document
open ServiceHarness.Log ServiceHarness.Command

def errorNumber? : IO.Error → Option UInt32
  | .alreadyExists _ code _ => some code
  | .otherError code _ => some code
  | .resourceBusy code _ => some code
  | .noFileOrDirectory _ code _ => some code
  | .invalidArgument _ code _ => some code
  | .permissionDenied _ code _ => some code
  | .resourceExhausted _ code _ => some code
  | .inappropriateType _ code _ => some code
  | .noSuchThing _ code _ => some code
  | _ => none

/-- Some calls give a number with its sign reversed. -/
def magnitude (code : UInt32) : Nat :=
  if code.toNat < Nat.pow 2 31 then code.toNat else Nat.pow 2 32 - code.toNat

def causeText (e : IO.Error) : String :=
  match (errorNumber? e).bind fun code => FileError.ofNumber? (magnitude code) with
  | some known => known.message
  | none => toString e

def callPath (p : Path) : String := Path.display p

def caught {α : Type} (call : IO α) : IO (Except String α) := do
  try return .ok (← call)
  catch e => return .error (causeText e)

def readAtMost (p : Path) (limit : Nat) : IO Bytes := do
  let handle ← IO.FS.Handle.mk (callPath p) .read
  return (← handle.read limit.toUSize).toList

def loadAs (input : Input) : IO (Except LoadError (Format × Service)) := do
  match chooseFormat input.description input.format with
  | .error e => return .error e
  | .ok f =>
      match ← caught (readAtMost input.description (maxBytes + 1)) with
      | .error cause => return .error (.io cause)
      | .ok bytes => return (parse f bytes).map fun s => (f, s)

def openStaging (base : Path) (name : Name) :
    (count : Nat) → Nat → IO (Except String (IO.FS.Handle × Path))
  | 0, _ => return .error (causeAt FileError.tooManyStaged.message base)
  | count + 1, n => do
      let staged := stagingPath base name n
      try return .ok (← IO.FS.Handle.mk (callPath staged) .writeNew, staged)
      catch e =>
        if errorNumber? e = some 17 then openStaging base name count (n + 1)
        else return .error (causeAt (causeText e) staged)

def persist (handle : IO.FS.Handle) (staged p : Path) (text : String) :
    IO (Except String Unit) := do
  let file := callPath staged
  IO.setAccessRights file ⟨⟨true, true, false⟩, ⟨false, false, false⟩, ⟨false, false, false⟩⟩
  match ← caught (do handle.putStr text; handle.flush) with
  | .error cause => return .error (causeAt cause staged)
  | .ok () => caught (IO.FS.rename file (callPath p))

def replaceFile (p parent : Path) (name : Name) (text : String) : IO (Except String Unit) := do
  let working := Utf8.ofString (toString (← IO.currentDir))
  let base := if Path.isAbsolute parent then parent else Path.under working parent
  match ← openStaging base name stagingSuffixes (← IO.rand 0 (stagingSuffixes - 1)) with
  | .error cause => return .error cause
  | .ok (handle, staged) =>
      let moved ← persist handle staged p text
      if let .error _ := moved then IO.FS.removeFile (callPath staged)
      return moved

def writeOutput (p : Path) (text : String) : IO (Except OutputError Unit) := do
  match FileSystem.outputName? p with
  | none => return .error (.ofFileError .noFileName)
  | some name =>
      let written ← caught do
        match Path.parent? p with
        | none => replaceFile p dotSegment name text
        | some parent =>
            if parent = [] then replaceFile p dotSegment name text
            else do
              IO.FS.createDirAll (callPath parent)
              replaceFile p parent name text
      return (written.bind id).mapError .io

def checkOutput (p : Path) (text : String) : IO (Except OutputError Unit) := do
  match ← caught (IO.FS.readBinFile (callPath p)) with
  | .error cause => return .error (.io cause)
  | .ok bytes => return compareOutput p bytes.toList text

def run (c : Command) : IO Report := do
  let loaded ← loadAs c.input
  match c with
  | .validate input => return validation input.description loaded
  | .generate input none =>
      match rendering input.description loaded with
      | .error report => return report
      | .ok (events, text) => return ⟨events, text, []⟩
  | .generate input (some out) =>
      match rendering input.description loaded with
      | .error report => return report
      | .ok (events, text) => return writing events out text (← writeOutput out text)
  | .check input out =>
      match rendering input.description loaded with
      | .error report => return report
      | .ok (events, text) => return checking events out (← checkOutput out text)

def send (stream : IO.FS.Stream) (text : String) : IO Bool := do
  match ← caught (do stream.putStr text; stream.flush) with
  | .ok () => return true
  | .error _ => return false

end ServiceHarness.Program

open ServiceHarness ServiceHarness.Program in
def main (arguments : List String) : IO UInt32 := do
  let output ← IO.getStdout
  let errors ← IO.getStderr
  match Command.parseArguments (arguments.map Text.Utf8.ofString) with
  | .error e =>
      let _ ← send errors e.message
      return Command.usageErrorCode.toUInt32
  | .ok (.tell text) =>
      let _ ← send output text
      return 0
  | .ok (.run c) =>
      let setting ← IO.getEnv "RUST_LOG"
      let filter := Log.Filter.ofSetting (setting.map (·.toList))
      let report ← run c
      let taken ← if report.output = "" then pure true else send output report.output
      let exit := report.exit filter ⟨!taken, false⟩
      let _ ← send errors exit.errors
      return exit.code.toUInt32
