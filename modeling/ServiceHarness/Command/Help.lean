import ServiceHarness.Command.Verb

/-!
# Help texts

What the program tells about itself: its verbs, and the parameters of a verb in
a long form with a paragraph for each and in a short form with a line for each.
-/

namespace ServiceHarness.Command

def versionText : String := programName ++ " 0.1.0\n"

def programAbout : String :=
  "Generate scenario-driven Go test harnesses for gRPC services."

def helpAbout : String :=
  "Print this message or the help of the given subcommand(s)"

def Verb.about : Verb → String
  | generate => "Generate the harness source"
  | check => "Verify an existing harness file matches the generated output"
  | validate => "Report every structural problem in a description"

def Parameter.about (v : Verb) : Parameter → String
  | description => "Service description file (.toml or .json)"
  | format => "Description format; inferred from the file extension when omitted"
  | out =>
      match v with
      | .check => "Harness file to verify"
      | _ => "Output file; the harness is written to stdout when omitted"

def padded (width : Nat) (text : String) : String :=
  text ++ String.ofList (List.replicate (width - text.length) ' ')

def usageLine (usage : String) : String := "Usage: " ++ usage ++ "\n"

def table (width : Nat) (rows : List (String × String)) : String :=
  String.join (rows.map fun (left, right) => "  " ++ padded width left ++ "  " ++ right ++ "\n")

def helpLetter : String := "-h, --" ++ helpWord

def programHelp : String :=
  programAbout ++ "\n\n" ++ usageLine Scope.program.generalUsage ++ "\nCommands:\n" ++
    table 8 (Verb.all.map (fun v => (v.name, v.about)) ++ [(helpWord, helpAbout)]) ++
    "\nOptions:\n" ++
    table 13 [(helpLetter, "Print help"), ("-V, --" ++ versionWord, "Print version")]

def helpHelp : String :=
  helpAbout ++ "\n\n" ++ usageLine Scope.help.generalUsage ++ "\nArguments:\n" ++
    table 12 [("[COMMAND]...", "Print help for the subcommand(s)")]

def Parameter.valuesParagraph : Parameter → String
  | format =>
      "\n          Possible values:\n          - toml: TOML document\n" ++
        "          - json: JSON document\n"
  | _ => ""

def Parameter.valuesList (p : Parameter) : String :=
  "[possible values: " ++ String.intercalate ", " p.values ++ "]"

def Verb.longHelp (v : Verb) : String :=
  let paragraph := fun (p : Parameter) =>
    "      " ++ p.shown ++ "\n          " ++ p.about v ++ "\n" ++ p.valuesParagraph ++ "\n"
  v.about ++ "\n\n" ++ usageLine (Scope.verb v).generalUsage ++ "\nOptions:\n" ++
    String.join (v.parameters.map paragraph) ++
    "  " ++ helpLetter ++ "\n          Print help (see a summary with '-h')\n"

def Verb.shortHelp (v : Verb) : String :=
  let row := fun (p : Parameter) =>
    ("    " ++ p.shown, p.about v ++ if p.values = [] then "" else " " ++ p.valuesList)
  v.about ++ "\n\n" ++ usageLine (Scope.verb v).generalUsage ++ "\nOptions:\n" ++
    table 24 (v.parameters.map row ++ [(helpLetter, "Print help (see more with '--help')")])

end ServiceHarness.Command
