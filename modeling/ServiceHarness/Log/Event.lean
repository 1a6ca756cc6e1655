import ServiceHarness.Storage.Path
import ServiceHarness.Text.Shown

/-!
# Log events

What the program tells about its work, each event with a level, the part of the
program that it comes from, and its fields.
-/

namespace ServiceHarness.Log

open ServiceHarness.Text ServiceHarness.Storage

inductive Level where
  | error
  | warn
  | info
  | debug
  | trace
  deriving DecidableEq, Repr

def Level.label : Level → String
  | error => "ERROR"
  | warn => "WARN"
  | info => "INFO"
  | debug => "DEBUG"
  | trace => "TRACE"

def Level.rank : Level → Nat
  | error => 1
  | warn => 2
  | info => 3
  | debug => 4
  | trace => 5

inductive Event where
  | loaded (path : Path) (format : String) (methods : Nat)
  | rendered (package service : String) (methods bytes : Nat)
  | wrote (path : Path) (bytes : Nat)
  | upToDate (path : Path)
  | drifted (path : Path)
  | valid (path : Path) (methods : Nat)
  deriving DecidableEq, Repr

namespace Event

def level : Event → Level
  | loaded _ _ _ => .debug
  | rendered _ _ _ _ => .debug
  | wrote _ _ => .info
  | upToDate _ => .info
  | drifted _ => .warn
  | valid _ _ => .info

def target : Event → String
  | loaded _ _ _ => "scenario_harness_model::loader"
  | rendered _ _ _ _ => "scenario_harness_gen"
  | wrote _ _ => "scenario_harness_gen::output"
  | upToDate _ => "scenario_harness_gen::output"
  | drifted _ => "scenario_harness_gen::output"
  | valid _ _ => "scenario_harness_gen"

def hexByte (n : Nat) : List Char :=
  let digits := Nat.toDigits 16 n
  if digits.length < 2 then '0' :: digits else digits

/-- Characters that could steer a terminal are shown by their codes. -/
def tame (c : Char) : List Char :=
  let n := c.toNat
  if n = 0x1B ∨ n = 0x07 ∨ n = 0x08 ∨ n = 0x0C ∨ n = 0x7F then ['\\', 'x'] ++ hexByte n
  else if 0x80 ≤ n ∧ n ≤ 0x9F then Shown.codePoint c
  else [c]

def pathField (p : Path) : String :=
  " path=" ++ String.ofList ((Path.display p).toList.flatMap tame)

def countField (name : String) (n : Nat) : String :=
  " " ++ name ++ "=" ++ toString n

def textField (name text : String) : String :=
  " " ++ name ++ "=" ++ Shown.quote text.toList

def message : Event → String
  | loaded path format methods =>
      "loaded service description" ++ pathField path ++ " format=" ++ format ++
        countField "methods" methods
  | rendered package service methods bytes =>
      "rendered scenario harness" ++ textField "package" package ++
        textField "service" service ++ countField "methods" methods ++ countField "bytes" bytes
  | wrote path bytes => "wrote scenario harness" ++ pathField path ++ countField "bytes" bytes
  | upToDate path => "scenario harness is up to date" ++ pathField path
  | drifted path => "scenario harness drift detected" ++ pathField path
  | valid path methods =>
      "service description is valid" ++ pathField path ++ countField "methods" methods

def line (e : Event) : String :=
  e.level.label ++ " " ++ e.target ++ ": " ++ e.message ++ "\n"

end Event

end ServiceHarness.Log
