import ServiceHarness.Command.Arguments
import ServiceHarness.Command.Run
import ServiceHarness.Log.Filter

/-!
# Invocations

An invocation of the program: its arguments are read, the command is run, and
the report goes to two streams.  A stream without space takes nothing; the run
fails if the harness was to go there.  What a logger does that cannot write to a
full standard error is left out.
-/

namespace ServiceHarness

open ServiceHarness.Text ServiceHarness.Storage ServiceHarness.Log

structure Streams where
  outputFull : Bool
  errorFull : Bool
  deriving DecidableEq, Repr

structure Exit where
  code : Nat
  output : String
  errors : String
  deriving DecidableEq, Repr

namespace Command

def taken (full : Bool) (text : String) : String :=
  if full then "" else text

def asLines (texts : List String) : String :=
  String.join (texts.map fun text => text ++ "\n")

def streamError (e : FileError) : String :=
  "output error: " ++ e.message

/-- The report that remains if standard output has no space for its text. -/
def Report.withoutOutput (r : Report) : Report :=
  if r.output = "" then r else ⟨r.events, "", [streamError .noSpace]⟩

def Report.exit (r : Report) (filter : Filter) (streams : Streams) : Exit :=
  let r := if streams.outputFull then r.withoutOutput else r
  ⟨if r.succeeds then 0 else 1, r.output,
    taken streams.errorFull (filter.lines r.events ++ asLines r.problems)⟩

def usageErrorCode : Nat := 2

def invoke (fs : FileSystem) (arguments : List Bytes) (filter : Filter) (streams : Streams) :
    FileSystem × Exit :=
  match parseArguments arguments with
  | .error e => (fs, ⟨usageErrorCode, "", taken streams.errorFull e.message⟩)
  | .ok (.tell text) => (fs, ⟨0, taken streams.outputFull text, ""⟩)
  | .ok (.run c) =>
      let (fs, report) := c.run fs
      (fs, report.exit filter streams)

end Command

end ServiceHarness
