import ServiceHarness.Text.Utf8

/-!
# Verbs and their parameters

The words that a command line is made of.  A verb names a command; its
parameters are given as `--name VALUE`.  A usage line shows how a command line
goes on in a scope: in general, or for the parameters that a user mentioned.
-/

namespace ServiceHarness.Command

open ServiceHarness.Text

inductive Parameter where
  | description
  | format
  | out
  deriving DecidableEq, Repr

namespace Parameter

def name : Parameter → String
  | description => "description"
  | format => "format"
  | out => "out"

def placeholder : Parameter → String
  | description => "FILE"
  | format => "FORMAT"
  | out => "FILE"

def shown (p : Parameter) : String :=
  "--" ++ p.name ++ " <" ++ p.placeholder ++ ">"

def values : Parameter → List String
  | format => ["toml", "json"]
  | _ => []

end Parameter

inductive Verb where
  | generate
  | check
  | validate
  deriving DecidableEq, Repr

namespace Verb

def name : Verb → String
  | generate => "generate"
  | check => "check"
  | validate => "validate"

def all : List Verb := [generate, check, validate]

def parameters : Verb → List Parameter
  | generate => [.description, .format, .out]
  | check => [.description, .format, .out]
  | validate => [.description, .format]

def required : Verb → List Parameter
  | generate => [.description]
  | check => [.description, .out]
  | validate => [.description]

def ofWord? (word : Bytes) : Option Verb :=
  all.find? fun v => Utf8.ofString v.name = word

def parameter? (v : Verb) (word : Bytes) : Option Parameter :=
  v.parameters.find? fun p => Utf8.ofString p.name = word

end Verb

def programName : String := "scenario-harness-gen"

def helpWord : String := "help"

def versionWord : String := "version"

/-- Where an argument stands: before a verb, behind one, or behind the word
that asks for help. -/
inductive Scope where
  | program
  | verb (v : Verb)
  | help
  deriving DecidableEq, Repr

namespace Scope

def title : Scope → String
  | program => programName
  | verb v => programName ++ " " ++ v.name
  | help => programName ++ " " ++ helpWord

def names : Scope → List String
  | program => [helpWord, versionWord]
  | verb v => v.parameters.map Parameter.name ++ [helpWord]
  | help => []

def shownName (s : Scope) (name : String) : String :=
  match s with
  | verb v =>
      match v.parameters.find? fun p => p.name = name with
      | some p => p.shown
      | none => "--" ++ name
  | _ => "--" ++ name

def spaced (texts : List String) : String :=
  String.join (texts.map fun text => " " ++ text)

def generalUsage (s : Scope) : String :=
  s.title ++ match s with
    | program => " <COMMAND>"
    | verb v => " [OPTIONS]" ++ spaced (v.required.map Parameter.shown)
    | help => " [COMMAND]..."

def usageWith (s : Scope) (mentioned : List String) : String :=
  s.title ++ match s with
    | program => spaced mentioned.eraseDups ++ " <COMMAND>"
    | verb v =>
        let required := v.required.map Parameter.shown
        spaced (required ++ (mentioned.filter fun x => !required.contains x).eraseDups)
    | help => " [COMMAND]..."

def usage (s : Scope) (mentioned : List String) : String :=
  if mentioned = [] then s.generalUsage else s.usageWith mentioned

end Scope

end ServiceHarness.Command
