/-!
# Load errors

Why a description could not be read.  `io`, `json` and `toml` carry the text of
their cause, `unknownFormat` the path as it is shown.
-/

namespace ServiceHarness.Document

def maxBytes : Nat := 1048576

inductive LoadError where
  | io (cause : String)
  | tooLarge
  | unknownFormat (path : String)
  | json (cause : String)
  | toml (cause : String)
  deriving DecidableEq, Repr

def LoadError.message : LoadError → String
  | io cause => "io error: " ++ cause
  | tooLarge => "description input exceeds " ++ toString maxBytes ++ " bytes"
  | unknownFormat path =>
      "cannot infer description format from " ++ path ++ "; use a .toml or .json file"
  | json cause => "json error: " ++ cause
  | toml cause => "toml error: " ++ cause

end ServiceHarness.Document
