import ServiceHarness.Document.Format
import ServiceHarness.Document.LoadError
import ServiceHarness.Document.Json.Reader
import ServiceHarness.Document.Toml.Reader

/-!
# Reading descriptions

A document of any size up to the limit is read in its format.
-/

namespace ServiceHarness.Document

open ServiceHarness.Text

def parse (format : Format) (bytes : Bytes) : Except LoadError Service :=
  if maxBytes < bytes.length then .error .tooLarge
  else
    match format with
    | .json =>
        match Json.read bytes with
        | .ok s => .ok s
        | .error fault => .error (.json fault.message)
    | .toml =>
        match Toml.read bytes with
        | .ok s => .ok s
        | .error text => .error (.toml text)

end ServiceHarness.Document
