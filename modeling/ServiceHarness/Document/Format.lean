import ServiceHarness.Storage.Path

/-!
# Document formats

A description is written in TOML or in JSON.  The extension of a file name
tells which, in any ASCII letter case.
-/

namespace ServiceHarness.Document

open ServiceHarness.Text ServiceHarness.Storage

inductive Format where
  | toml
  | json
  deriving DecidableEq, Repr

namespace Format

def label : Format → String
  | toml => "toml"
  | json => "json"

def lowerByte (byte : UInt8) : UInt8 :=
  if 65 ≤ byte ∧ byte ≤ 90 then byte + 32 else byte

def ofExtension? (ext : Name) : Option Format :=
  let lowered := ext.map lowerByte
  if lowered = Utf8.ofString "toml" then some toml
  else if lowered = Utf8.ofString "json" then some json
  else none

def ofPath? (p : Path) : Option Format :=
  (Path.fileName? p).bind Path.extension? |>.bind ofExtension?

end Format

end ServiceHarness.Document
