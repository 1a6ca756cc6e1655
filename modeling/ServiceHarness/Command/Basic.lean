import ServiceHarness.Storage.Path
import ServiceHarness.Document.Format

/-!
# Commands

What a user can ask for: the harness of a description, written to a file or
shown; a check of a file against the harness; a report on a description.
-/

namespace ServiceHarness

open ServiceHarness.Storage ServiceHarness.Document

namespace Command

structure Input where
  description : Path
  format : Option Format
  deriving DecidableEq, Repr

end Command

inductive Command where
  | generate (input : Command.Input) (out : Option Path)
  | check (input : Command.Input) (out : Path)
  | validate (input : Command.Input)
  deriving DecidableEq, Repr

def Command.input : Command → Command.Input
  | generate input _ => input
  | check input _ => input
  | validate input => input

end ServiceHarness
