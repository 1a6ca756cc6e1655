import ServiceHarness.Document.Loading
import ServiceHarness.Harness.Generation

/-!
# Generators from files

A generator holds the description of a file, if the file can be loaded and the
description breaks no rule.
-/

namespace ServiceHarness.Harness

open ServiceHarness.Storage ServiceHarness.Document

def Generator.load (fs : FileSystem) (p : Path) (format : Option Format) :
    Except GenerationError Generator :=
  match Document.load fs p format with
  | .ok s => Generator.ofService s
  | .error e => .error (.load e)

end ServiceHarness.Harness
