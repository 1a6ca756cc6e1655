import ServiceHarness.Command.Help

/-!
# Argument errors

Why a command line makes no command.  Each error is told with a tip if
something similar exists, and most of them with a usage line.
-/

namespace ServiceHarness.Command

inductive Tip where
  | similarName (name : String)
  | nameBehind (v : Verb) (name : String)
  | similarVerbs (names : List String)
  | similarValue (value : String)
  | verbBehindDashes (name : String)
  deriving DecidableEq, Repr

inductive ArgumentError where
  | noVerb
  | missingValue (p : Parameter)
  | unknownValue (p : Parameter) (value : String) (tip : Option Tip)
  | repeated (v : Verb) (p : Parameter)
  | unexpected (scope : Scope) (argument : String) (tip : Option Tip) (mentioned : List String)
  | valueForFlag (scope : Scope) (flag value : String) (mentioned : List String)
  | unknownVerb (scope : Scope) (word : String) (tip : Option Tip)
  | missing (v : Verb) (parameters : List Parameter) (mentioned : List String)
  deriving DecidableEq, Repr

def quoted (text : String) : String := "'" ++ text ++ "'"

def Tip.text : Tip → String
  | similarName name => "a similar argument exists: " ++ quoted ("--" ++ name)
  | nameBehind v name => quoted (v.name ++ " --" ++ name) ++ " exists"
  | similarVerbs names =>
      (match names with
        | [_] => "a similar subcommand exists: "
        | _ => "some similar subcommands exist: ") ++
        String.intercalate ", " (names.map quoted)
  | similarValue value => "a similar value exists: " ++ quoted value
  | verbBehindDashes name =>
      "subcommand " ++ quoted name ++ " exists; to use it, remove the '--' before it"

namespace ArgumentError

def valuesLine (p : Parameter) : String :=
  if p.values = [] then "" else "\n  " ++ p.valuesList

def layout (text : String) (tip : Option Tip) (usage : Option String) : String :=
  "error: " ++ text ++
    (match tip with
      | some t => "\n\n  tip: " ++ t.text
      | none => "") ++
    (match usage with
      | some u => "\n\n" ++ usageLine u
      | none => "\n") ++
    "\nFor more information, try '--help'.\n"

def message : ArgumentError → String
  | noVerb => programHelp
  | missingValue p =>
      layout ("a value is required for " ++ quoted p.shown ++ " but none was supplied" ++
        valuesLine p) none none
  | unknownValue p value tip =>
      layout ("invalid value " ++ quoted value ++ " for " ++ quoted p.shown ++ valuesLine p)
        tip none
  | repeated v p =>
      layout ("the argument " ++ quoted p.shown ++ " cannot be used multiple times") none
        (some (Scope.verb v).generalUsage)
  | unexpected scope argument tip mentioned =>
      layout ("unexpected argument " ++ quoted argument ++ " found") tip
        (some (scope.usage mentioned))
  | valueForFlag scope flag value mentioned =>
      layout ("unexpected value " ++ quoted value ++ " for " ++ quoted flag ++
        " found; no more were expected") none (some (scope.usage mentioned))
  | unknownVerb scope word tip =>
      layout ("unrecognized subcommand " ++ quoted word) tip (some scope.generalUsage)
  | missing v parameters mentioned =>
      layout ("the following required arguments were not provided:" ++
        String.join (parameters.map fun p => "\n  " ++ p.shown)) none
        (some ((Scope.verb v).usageWith mentioned))

end ArgumentError

end ServiceHarness.Command
