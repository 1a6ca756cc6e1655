import ServiceHarness.Proofs.Go.Reading

/-!
# Declarations of Go source

What a file of Go declares and imports, read line by line.  Outside of bodies
every line has to follow one of a few rules, which also tell where the name
stands; a text with any other line is refused, so that no declaration is missed.
-/

namespace ServiceHarness.Go

open ServiceHarness.Text

variable {α β : Type}

inductive Kind where
  | imported
  | type
  | function
  | method
  | constant
  deriving DecidableEq, Repr

/-- What the lines between two brackets, or outside of all, may declare. -/
inductive Scope where
  | file
  | imports
  | constants
  | body
  deriving DecidableEq, Repr

def Shape.ofKeyword (text : String) : Shape := .keyword text.toList

def Shape.ofSign (text : String) : Shape := .operator text.toList

/-- A line that begins like this declares the name at a position, if it declares
any, and what it opens has a scope. -/
structure Rule where
  start : List Shape
  name : Option (Kind × Nat)
  inner : Scope
  deriving DecidableEq, Repr

def Scope.rules : Scope → List Rule
  | file =>
      [⟨[.ofKeyword "package", .identifier], none, .body⟩,
        ⟨[.ofKeyword "import", .ofSign "("], none, .imports⟩,
        ⟨[.ofKeyword "const", .ofSign "("], none, .constants⟩,
        ⟨[.ofKeyword "type", .identifier], some (.type, 1), .body⟩,
        ⟨[.ofKeyword "func", .identifier, .ofSign "("], some (.function, 1), .body⟩,
        ⟨[.ofKeyword "func", .ofSign "(", .identifier, .ofSign "*", .identifier, .ofSign ")",
          .identifier, .ofSign "("], some (.method, 6), .body⟩]
  | imports =>
      [⟨[.literal], some (.imported, 0), .imports⟩, ⟨[.ofSign ")"], none, .imports⟩]
  | constants =>
      [⟨[.identifier, .ofSign "="], some (.constant, 0), .constants⟩,
        ⟨[.ofSign ")"], none, .constants⟩]
  | body => []

def Rule.fits (rule : Rule) (line : List Shape) : Bool :=
  match rule.name with
  | some _ => rule.start.isPrefixOf line
  | none => rule.start == line

def Rule.declared (rule : Rule) (tokens : List (Token α)) : List (Kind × Token α) :=
  match rule.name with
  | some (kind, position) => tokens[position]?.toList.map fun token => (kind, token)
  | none => []

/-- The brackets that are awaited, and the scope of what the outermost one opened. -/
structure State where
  awaited : List Char
  inner : Scope
  deriving DecidableEq, Repr

namespace State

def start : State := ⟨[], .body⟩

def scope (st : State) : Scope :=
  if st.awaited = [] then .file else if st.awaited = [')'] then st.inner else .body

/-- Reads the tokens of a line.  Two statements on one line are refused outside
of bodies, and so is more behind the bracket that ends a body. -/
def step? (look : α → Char) (st : State) (line : List (Token α)) :
    Option (List (Kind × Token α) × State) :=
  let shapes := line.map (Token.shape look)
  if shapes = [] then some ([], st)
  else
    (nest st.awaited line).bind fun awaited =>
      if st.scope = .body then
        if awaited = [] ∧ shapes.length ≠ 1 then none else some ([], ⟨awaited, st.inner⟩)
      else if shapes.contains (.ofSign ";") then none
      else
        (st.scope.rules.find? fun rule => rule.fits shapes).map fun rule =>
          (rule.declared line, ⟨awaited, rule.inner⟩)

def read? (look : α → Char) (st : State) : List (List α) →
    Option (List (Kind × Token α) × State)
  | [] => some ([], st)
  | line :: rest =>
      (lineTokens? look line).bind fun tokens =>
        (st.step? look (code tokens)).bind fun (found, next) =>
          (next.read? look rest).map fun (later, last) => (found ++ later, last)

end State

def packageName (path : String) : String :=
  String.ofList (path.toList.reverse.takeWhile (· ≠ '/')).reverse

def Token.boundName : Token Char → String
  | .literal path => packageName (String.ofList path)
  | .word text => String.ofList text
  | _ => ""

def declarations? (text : String) : Option (List (Kind × String)) :=
  (State.start.read? id ((lines text).map String.toList)).bind fun (found, last) =>
    if last.awaited = [] then some (found.map (Prod.map id Token.boundName)) else none

def packageNames (declared : List (Kind × String)) : List String :=
  (declared.filter fun (kind, _) => kind ≠ .method).map Prod.snd

private theorem Rule.declared_mapText (rule : Rule) (f : List α → List β)
    (tokens : List (Token α)) :
    rule.declared (tokens.map (Token.mapText f)) =
      (rule.declared tokens).map (Prod.map id (Token.mapText f)) := by
  rw [declared, declared]
  cases rule.name with
  | none => rfl
  | some name => cases h : tokens[name.2]? <;> simp [h]

namespace State

variable {look : α → Char} {st : State}

theorem read_eq_readLines (lines : List (List α)) :
    st.read? look lines = readLines look (step? look) st lines := by
  induction lines generalizing st with
  | nil => rfl
  | cons line lines ih => simp only [read?, readLines, ih]

theorem step_blank : st.step? look [] = some ([], st) := rfl

/-! ## Other letters -/

theorem step_mapText {look' : β → Char} {f : List α → List β} {line : List (Token α)}
    (hshapes : (line.map (Token.mapText f)).map (Token.shape look') =
      line.map (Token.shape look)) :
    st.step? look' (line.map (Token.mapText f)) = (st.step? look line).map fun (found, next) =>
      (found.map (Prod.map id (Token.mapText f)), next) := by
  simp only [step?, hshapes, nest_mapText]
  by_cases hempty : line.map (Token.shape look) = []
  · simp [hempty]
  · rw [if_neg hempty, if_neg hempty]
    cases nest st.awaited line with
    | none => rfl
    | some awaited =>
        simp only [Option.bind_some]
        by_cases hbody : st.scope = .body
        · rw [if_pos hbody, if_pos hbody]
          by_cases hmore : awaited = [] ∧ (line.map (Token.shape look)).length ≠ 1
          · rw [if_pos hmore, if_pos hmore]
            rfl
          · rw [if_neg hmore, if_neg hmore]
            rfl
        · rw [if_neg hbody, if_neg hbody]
          by_cases htwo : (line.map (Token.shape look)).contains (.ofSign ";") = true
          · rw [if_pos htwo, if_pos htwo]
            rfl
          · rw [if_neg htwo, if_neg htwo, Option.map_map]
            simp only [Rule.declared_mapText]
            rfl

end State

end ServiceHarness.Go
