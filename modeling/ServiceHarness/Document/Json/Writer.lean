import ServiceHarness.Service.Basic
import ServiceHarness.Text.Quoted

/-!
# Writing descriptions as JSON

`compact` writes no space; `pretty` puts every member and every method on a
line of its own, indented by two spaces a level.
-/

namespace ServiceHarness.Document.Json

open ServiceHarness.Text

def member (key value : String) : String :=
  Quoted.literal key ++ ":" ++ value

def compactMethod (m : Method) : String :=
  "\x7b" ++ ",".intercalate
    [member "name" (Quoted.literal m.name),
      member "request_type" (Quoted.literal m.request),
      member "response_type" (Quoted.literal m.response)] ++ "\x7d"

def compact (s : Service) : String :=
  "\x7b" ++ ",".intercalate
    [member "package" (Quoted.literal s.package),
      member "service" (Quoted.literal s.name),
      member "methods" ("[" ++ ",".intercalate (s.methods.map compactMethod) ++ "]")] ++ "\x7d"

def indent (depth : Nat) : String :=
  String.ofList (List.replicate (2 * depth) ' ')

def block (depth : Nat) (openBracket closeBracket : String) (items : List String) : String :=
  openBracket ++ "\n" ++
    ",\n".intercalate (items.map (indent (depth + 1) ++ ·)) ++
    "\n" ++ indent depth ++ closeBracket

def spacedMember (key value : String) : String :=
  Quoted.literal key ++ ": " ++ value

def prettyMethod (m : Method) : String :=
  block 2 "\x7b" "\x7d"
    [spacedMember "name" (Quoted.literal m.name),
      spacedMember "request_type" (Quoted.literal m.request),
      spacedMember "response_type" (Quoted.literal m.response)]

def prettyMethods : List Method → String
  | [] => "[]"
  | methods => block 1 "[" "]" (methods.map prettyMethod)

def pretty (s : Service) : String :=
  block 0 "\x7b" "\x7d"
    [spacedMember "package" (Quoted.literal s.package),
      spacedMember "service" (Quoted.literal s.name),
      spacedMember "methods" (prettyMethods s.methods)]

end ServiceHarness.Document.Json
