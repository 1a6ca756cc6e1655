import ServiceHarness.Log.Event

/-!
# Log filters

A filter is a list of rules with commas between them.  A rule is a level for
everything, a target for which everything is shown, or both with an equals sign
between them.  The rule with the longest target that an event's target starts
with decides, a later one in place of an earlier one with the same target.  A
rule with a span in brackets is read, but no event ever comes from a span.
-/

namespace ServiceHarness.Log

abbrev Threshold := Option Level

structure Rule where
  target : List Char
  threshold : Threshold
  deriving DecidableEq, Repr

abbrev Filter := List Rule

def lowerChar (c : Char) : Char :=
  if 'A' ≤ c ∧ c ≤ 'Z' then Char.ofNat (c.toNat + 32) else c

def isDigit (c : Char) : Bool := '0' ≤ c && c ≤ '9'

def levelNumber? (chars : List Char) : Option Nat :=
  let digits := match chars with
    | '+' :: rest => rest
    | _ => chars
  let significant := digits.dropWhile (· = '0')
  if digits = [] ∨ !digits.all isDigit then none
  else
    match significant with
    | [] => some 0
    | [c] => if c ≤ '5' then some (c.toNat - 48) else none
    | _ => none

def threshold? (chars : List Char) : Option Threshold :=
  match levelNumber? chars with
  | some n => some ([.error, .warn, .info, .debug, .trace].find? fun l => l.rank = n)
  | none =>
      let word := String.ofList (chars.map lowerChar)
      if word = "off" then some none
      else if word = "" ∨ word = "error" then some (some .error)
      else if word = "warn" then some (some .warn)
      else if word = "info" then some (some .info)
      else if word = "debug" then some (some .debug)
      else if word = "trace" then some (some .trace)
      else none

inductive RuleMode where
  | start
  | word (start : Nat)
  | span
  | field (isEmpty : Bool)
  | fields
  | behindSpan
  | level (start : Nat)
  | failed
  deriving DecidableEq, Repr

structure RuleReader where
  mode : RuleMode
  index : Nat
  target : List Char
  inSpan : Bool
  deriving DecidableEq, Repr

def isSpace (c : Char) : Bool :=
  c == ' ' || ('\t' ≤ c && c ≤ '\r')

def startsRule (c : Char) : Bool :=
  c == '-' || c == ':' || c == '_' || isDigit c || ('a' ≤ c && c ≤ 'z') ||
    ('A' ≤ c && c ≤ 'Z') || 0x80 ≤ c.toNat

def slice (chars : List Char) (start stop : Nat) : List Char :=
  (chars.take stop).drop start

/-- One character of a rule; `whole` is the rule with the blanks around it, on
which positions count. -/
def RuleReader.step (whole : List Char) (r : RuleReader) (c : Char) : RuleReader :=
  let next := match r.mode with
    | .start =>
        if c = '[' then { r with mode := .span, inSpan := true }
        else if startsRule c then { r with mode := .word r.index }
        else { r with mode := .failed }
    | .word start =>
        if c = '=' then { r with mode := .level (r.index + 1), target := slice whole start r.index }
        else if c = '[' then
          { r with mode := .span, inSpan := true, target := slice whole start r.index }
        else r
    | .span =>
        if c = ']' then { r with mode := .behindSpan }
        else if c = '\x7b' then { r with mode := .field true }
        else r
    | .field isEmpty =>
        if c = '\x7d' then { r with mode := if isEmpty then .failed else .fields }
        else { r with mode := .field false }
    | .fields => { r with mode := if c = ']' then .behindSpan else .failed }
    | .behindSpan => { r with mode := if c = '=' then .level (r.index + 1) else .failed }
    | .level _ => r
    | .failed => r
  { next with index := r.index + 1 }

def RuleReader.finish (whole : List Char) (r : RuleReader) : Option (Rule × Bool) :=
  match r.mode with
  | .word start =>
      let word := whole.drop start
      match threshold? word with
      | some t => some (⟨[], t⟩, false)
      | none => some (⟨word, some .trace⟩, false)
  | .level start =>
      let word := whole.drop start
      if word = [] then some (⟨r.target, some .trace⟩, r.inSpan)
      else (threshold? word).map fun t => (⟨r.target, t⟩, r.inSpan)
  | .behindSpan => some (⟨r.target, some .trace⟩, true)
  | _ => none

def trim (chars : List Char) : List Char :=
  ((chars.dropWhile isSpace).reverse.dropWhile isSpace).reverse

def parseRule (whole : List Char) : Option (Rule × Bool) :=
  ((trim whole).foldl (RuleReader.step whole) ⟨.start, 0, [], false⟩).finish whole

def splitCommas (current : List Char) (done : List (List Char)) : List Char → List (List Char)
  | [] => (current.reverse :: done).reverse
  | c :: rest =>
      if c = ',' then splitCommas [] (current.reverse :: done) rest
      else splitCommas (c :: current) done rest

/-- Reads a filter.  Without any rule only errors are shown. -/
def Filter.parse (chars : List Char) : Option Filter :=
  let parts := (splitCommas [] [] chars).filter (· ≠ [])
  match parts.mapM parseRule with
  | none => none
  | some [] => some [⟨[], some .error⟩]
  | some rules => some ((rules.filter fun (_, inSpan) => !inSpan).map (·.1))

def Filter.ruleFor? (filter : Filter) (target : List Char) : Option Rule :=
  filter.foldl (fun best rule =>
    if rule.target.isPrefixOf target then
      match best with
      | some b => if b.target.length ≤ rule.target.length then some rule else some b
      | none => some rule
    else best) none

def Filter.shows (filter : Filter) (e : Event) : Bool :=
  match (filter.ruleFor? e.target.toList).bind (·.threshold) with
  | some level => e.level.rank ≤ level.rank
  | none => false

def defaultFilter : Filter :=
  [⟨"scenario_harness_gen".toList, some .info⟩,
    ⟨"scenario_harness_model".toList, some .info⟩,
    ⟨[], some .warn⟩]

/-- The filter that a setting asks for; one that cannot be read counts as none. -/
def Filter.ofSetting (setting : Option (List Char)) : Filter :=
  (setting.bind Filter.parse).getD defaultFilter

def Filter.lines (filter : Filter) (events : List Event) : String :=
  String.join ((events.filter filter.shows).map Event.line)

end ServiceHarness.Log
