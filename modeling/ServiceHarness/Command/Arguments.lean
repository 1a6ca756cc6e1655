import ServiceHarness.Command.Basic
import ServiceHarness.Command.ArgumentError
import ServiceHarness.Text.Similarity

/-!
# Reading arguments

The words of a command line are read from left to right, and the first one that
does not fit ends the reading.  A parameter is settled when the next one comes
or the line ends: then its value is there or missing, and is looked at.  Two
dashes alone end the parameters.
-/

namespace ServiceHarness.Command

open ServiceHarness.Text ServiceHarness.Text.Similarity ServiceHarness.Storage
open ServiceHarness.Document

inductive Request where
  | tell (text : String)
  | run (c : Command)
  deriving DecidableEq, Repr

inductive Shape where
  | dashes
  | long (name : Bytes) (value : Option Bytes)
  | short (letters : Bytes)
  | plain
  deriving DecidableEq, Repr

def dash : UInt8 := 45

def equalsSign : UInt8 := 61

def splitValue (text : Bytes) : Bytes × Option Bytes :=
  (text.takeWhile (· ≠ equalsSign), (text.dropWhile (· ≠ equalsSign)).tail?)

def Shape.of (argument : Bytes) : Shape :=
  match argument with
  | [a, b] => if a = dash then if b = dash then dashes else short [b] else plain
  | a :: b :: rest =>
      if a = dash then
        if b = dash then long (splitValue rest).1 (splitValue rest).2 else short (b :: rest)
      else plain
  | _ => plain

def firstLetter (letters : Bytes) : String :=
  let first := [1, 2, 3, 4].findSome? fun n => Utf8.toString? (letters.take n)
  first.getD (Utf8.lossy letters)

def formatOf? (value : Bytes) : Option Format :=
  [Format.toml, Format.json].find? fun f => Utf8.ofString f.label = value

def Parameter.check (p : Parameter) (value : Bytes) : Except ArgumentError Unit :=
  if value = [] then .error (.missingValue p)
  else
    match p with
    | .format =>
        match formatOf? value with
        | some _ => .ok ()
        | none =>
            let text := Utf8.lossy value
            .error (.unknownValue p text ((similarWords text p.values).getLast?.map .similarValue))
    | _ => .ok ()

/-- The parameters behind a verb, as far as they are read.  The last one may be
pending, with its value or still without. -/
structure Given where
  settled : List (Parameter × Bytes)
  pending : Option (Parameter × Option Bytes)
  deriving DecidableEq, Repr

namespace Given

def empty : Given := ⟨[], none⟩

def value? (g : Given) (p : Parameter) : Option Bytes := g.settled.lookup p

def add (g : Given) (v : Verb) (p : Parameter) (value : Bytes) : Except ArgumentError Given :=
  if (g.value? p).isSome then .error (.repeated v p)
  else
    match p.check value with
    | .ok () => .ok ⟨g.settled ++ [(p, value)], none⟩
    | .error e => .error e

def settle (g : Given) (v : Verb) : Except ArgumentError Given :=
  match g.pending with
  | none => .ok g
  | some (p, none) => .error (.missingValue p)
  | some (p, some value) => g.add v p value

def shownSettled (g : Given) : List String :=
  g.settled.map fun (p, _) => p.shown

def shown (g : Given) : List String :=
  g.shownSettled ++
    match g.pending with
    | some (p, some _) => [p.shown]
    | _ => []

def command (g : Given) (v : Verb) : Except ArgumentError Command :=
  let absent := v.required.filter fun p => (g.value? p).isNone
  let incomplete := ArgumentError.missing v absent g.shownSettled
  match g.value? .description with
  | none => .error incomplete
  | some description =>
      let input : Input := ⟨description, (g.value? .format).bind formatOf?⟩
      match v with
      | .generate => .ok (.generate input (g.value? .out))
      | .validate => .ok (.validate input)
      | .check =>
          match g.value? .out with
          | none => .error incomplete
          | some out => .ok (.check input out)

end Given

def unknownName (scope : Scope) (name : Bytes) (shown : List String) (rest : List Bytes) :
    ArgumentError :=
  let text := Utf8.lossy name
  let argument := "--" ++ text
  match (similarWords text scope.names).getLast? with
  | some known =>
      .unexpected scope argument (some (.similarName known)) (shown ++ [scope.shownName known])
  | none =>
      let behind := fun v =>
        (similarWords text (Scope.verb v).names).getLast?.map fun known => Tip.nameBehind v known
      let tip := match scope with
        | .program => (rest.filterMap Verb.ofWord?).findSome? behind
        | _ => none
      .unexpected scope argument tip shown

def Given.finish (g : Given) (v : Verb) : Except ArgumentError Request := do
  let g ← g.settle v
  return .run (← g.command v)

/-- Shows a help text, unless the pending parameter is at fault. -/
def Given.tell (g : Given) (v : Verb) (text : String) : Except ArgumentError Request := do
  let _ ← g.settle v
  return .tell text

def otherName (v : Verb) (g : Given) (name : Bytes) (value : Option Bytes) :
    Except ArgumentError Request :=
  let flag := "--" ++ helpWord
  if name = Utf8.ofString helpWord then
    match value with
    | none => g.tell v v.longHelp
    | some text =>
        .error (.valueForFlag (.verb v) flag (Utf8.lossy text) (g.shownSettled ++ [flag]))
  else .error (unknownName (.verb v) name g.shown [])

def parseVerb (v : Verb) (g : Given) : List Bytes → Except ArgumentError Request
  | [] => g.finish v
  | argument :: rest =>
      let stranger := fun text => ArgumentError.unexpected (.verb v) text none []
      match Shape.of argument with
      | .dashes =>
          match rest with
          | [] => g.finish v
          | next :: _ => .error (stranger (Utf8.lossy next))
      | .long name value =>
          match v.parameter? name, value with
          | some p, some text => do parseVerb v (← (← g.settle v).add v p text) rest
          | some p, none => do parseVerb v { ← g.settle v with pending := some (p, none) } rest
          | none, value => otherName v g name value
      | .short letters =>
          let letter := firstLetter letters
          if letter = "h" then g.tell v v.shortHelp else .error (stranger ("-" ++ letter))
      | .plain =>
          match g.pending with
          | some (p, none) => parseVerb v { g with pending := some (p, some argument) } rest
          | _ => .error (stranger (Utf8.lossy argument))

def isHelpWord (word : Bytes) : Bool := word == Utf8.ofString helpWord

def parseHelp : List Bytes → Except ArgumentError Request
  | [] => .ok (.tell programHelp)
  | word :: rest =>
      match Verb.ofWord? word, rest with
      | some v, [] => .ok (.tell v.longHelp)
      | some v, next :: _ => .error (.unknownVerb (.verb v) (Utf8.lossy next) none)
      | none, rest =>
          if isHelpWord word then
            match rest with
            | [] => .ok (.tell helpHelp)
            | next :: _ => .error (.unknownVerb .help (Utf8.lossy next) none)
          else .error (.unknownVerb .program (Utf8.lossy word) none)

def unknownVerb (word : Bytes) : ArgumentError :=
  let text := Utf8.lossy word
  let tip := match similarWords text (Verb.all.map Verb.name ++ [helpWord]) with
    | [] => none
    | names => some (Tip.similarVerbs names)
  .unknownVerb .program text tip

def parseTrailing : List Bytes → Except ArgumentError Request
  | [] => .error .noVerb
  | next :: _ =>
      let text := Utf8.lossy next
      if (Verb.ofWord? next).isSome ∨ isHelpWord next then
        .error (.unexpected .program text (some (.verbBehindDashes text)) [])
      else .error (unknownVerb next)

def programFlag (name : Bytes) (value : Option Bytes) (rest : List Bytes) :
    Except ArgumentError Request :=
  let texts := [(helpWord, programHelp), (versionWord, versionText)]
  match texts.find? fun (word, _) => Utf8.ofString word = name, value with
  | some (_, text), none => .ok (.tell text)
  | some (word, _), some value =>
      let flag := "--" ++ word
      .error (.valueForFlag .program flag (Utf8.lossy value) [flag])
  | none, _ => .error (unknownName .program name [] rest)

def programLetter (letter : String) : Except ArgumentError Request :=
  if letter = "h" then .ok (.tell programHelp)
  else if letter = "V" then .ok (.tell versionText)
  else .error (.unexpected .program ("-" ++ letter) none [])

def parseArguments : List Bytes → Except ArgumentError Request
  | [] => .error .noVerb
  | argument :: rest =>
      match Verb.ofWord? argument with
      | some v => parseVerb v Given.empty rest
      | none =>
          if isHelpWord argument then parseHelp rest
          else
            match Shape.of argument with
            | .dashes => parseTrailing rest
            | .long name value => programFlag name value rest
            | .short letters => programLetter (firstLetter letters)
            | .plain => .error (unknownVerb argument)

end ServiceHarness.Command
