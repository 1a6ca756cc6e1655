import ServiceHarness.Proofs.Go.Declarations

/-!
# Members of types

The fields and the methods of the types that a file of Go declares, read line by line.
A field stands alone on its line and a method begins on a line of its own; a text with a
line that may add members in any other way is refused, so that no member is missed.
-/

namespace ServiceHarness.Go

open ServiceHarness.Text

variable {α β : Type}

/-- The brackets that are awaited, and the type of the struct that the outermost one
opened. -/
structure MemberState (β : Type) where
  awaited : List Char
  owner : Option β
  deriving DecidableEq, Repr

def MemberState.map (f : α → β) (st : MemberState α) : MemberState β :=
  ⟨st.awaited, st.owner.map f⟩

def MemberState.start : MemberState β := ⟨[], none⟩

@[simp] theorem MemberState.map_start (f : α → β) : start.map f = start := rfl

def structStart : List Shape :=
  [.ofKeyword "type", .identifier, .ofKeyword "struct", .ofSign "\x7b"]

def methodStart : List Shape :=
  [.ofKeyword "func", .ofSign "(", .identifier, .ofSign "*", .identifier, .ofSign ")",
    .identifier, .ofSign "("]

def refusedStarts : List (List Shape) :=
  [[.ofKeyword "type"], [.ofKeyword "func", .ofSign "("]]

def namesField (shapes : List Shape) : Bool :=
  shapes.head? == some .identifier && 2 ≤ shapes.length &&
    shapes[1]? != some (.ofSign ",") && shapes[1]? != some (.ofSign ".")

/-- What a line outside of brackets adds: a method with its type, or the type whose
fields follow. -/
def outerMembers? (shapes : List Shape) (tokens : List β) : Option (List (β × β) × Option β) :=
  if shapes.contains (.ofSign ";") then none
  else if shapes = structStart then some ([], tokens[1]?)
  else if methodStart.isPrefixOf shapes then
    some ((tokens[4]?.bind fun type => tokens[6]?.map fun name => (type, name)).toList, none)
  else if refusedStarts.any (·.isPrefixOf shapes) then none
  else some ([], none)

namespace MemberState

/-- What a line in brackets adds: a field, if the brackets are those of a struct. -/
def innerMembers? (st : MemberState β) (shapes : List Shape) (line : List β) :
    Option (List (β × β)) :=
  match st.owner with
  | some type =>
      if shapes.contains (.ofSign ";") then none
      else if st.awaited ≠ ['\x7d'] then some []
      else if namesField shapes then some (line.head?.toList.map fun name => (type, name))
      else none
  | none => some []

/-- Reads the tokens of a line.  More behind the bracket that ends a body is refused. -/
def step? (look : α → Char) (st : MemberState (Token α)) (line : List (Token α)) :
    Option (List (Token α × Token α) × MemberState (Token α)) :=
  let shapes := line.map (Token.shape look)
  if shapes = [] then some ([], st)
  else
    (nest st.awaited line).bind fun awaited =>
      if st.awaited = [] then
        (outerMembers? shapes line).map fun (found, owner) => (found, ⟨awaited, owner⟩)
      else if awaited = [] then
        if shapes.length = 1 then some ([], start) else none
      else (st.innerMembers? shapes line).map fun found => (found, ⟨awaited, st.owner⟩)

end MemberState

def members? (text : String) : Option (List (String × String)) :=
  (readLines id (MemberState.step? id) .start ((lines text).map String.toList)).bind
    fun (found, last) =>
      if last.awaited = [] then some (found.map (Prod.map Token.boundName Token.boundName))
      else none

/-! ## Other letters -/

private theorem outerMembers?_map {γ : Type} (f : β → γ) (shapes : List Shape) (tokens : List β) :
    outerMembers? shapes (tokens.map f) =
      (outerMembers? shapes tokens).map (Prod.map (List.map (Prod.map f f)) (Option.map f)) := by
  have hmethod : ((tokens.map f)[4]?.bind fun type =>
      (tokens.map f)[6]?.map fun name => (type, name)).toList =
        (tokens[4]?.bind fun type => tokens[6]?.map fun name => (type, name)).toList.map
          (Prod.map f f) := by
    cases htype : tokens[4]? with
    | none => simp [htype]
    | some type =>
        cases hname : tokens[6]? with
        | none => simp [htype, hname]
        | some name => simp [htype, hname]
  simp only [outerMembers?, hmethod]
  split_ifs
  · rfl
  · simp
  · rfl
  · rfl
  · rfl

namespace MemberState

private theorem innerMembers?_map {γ : Type} (f : β → γ) (st : MemberState β) (shapes : List Shape)
    (line : List β) :
    (st.map f).innerMembers? shapes (line.map f) =
      (st.innerMembers? shapes line).map (List.map (Prod.map f f)) := by
  obtain ⟨awaited, owner⟩ := st
  cases owner with
  | none => rfl
  | some type =>
      by_cases htwo : shapes.contains (.ofSign ";") = true
      · simp only [innerMembers?, map, Option.map_some, if_pos htwo, Option.map_none]
      · simp only [innerMembers?, map, Option.map_some, if_neg htwo]
        by_cases houtermost : awaited = ['\x7d']
        · by_cases hfield : namesField shapes = true
          · cases line with
            | nil => simp [houtermost, hfield]
            | cons name line => simp [houtermost, hfield]
          · simp [houtermost, hfield]
        · simp [houtermost]

theorem step_blank (st : MemberState (Token α)) (look : α → Char) :
    st.step? look [] = some ([], st) := rfl

theorem step_mapText {look : α → Char} {look' : β → Char} {f : List α → List β}
    {st : MemberState (Token α)} {line : List (Token α)}
    (hshapes : (line.map (Token.mapText f)).map (Token.shape look') =
      line.map (Token.shape look)) :
    (st.map (Token.mapText f)).step? look' (line.map (Token.mapText f)) =
      (st.step? look line).map (Prod.map
        (List.map (Prod.map (Token.mapText f) (Token.mapText f))) (map (Token.mapText f))) := by
  have hawaited : (st.map (Token.mapText f)).awaited = st.awaited := rfl
  simp only [step?, hshapes, nest_mapText, hawaited, outerMembers?_map, innerMembers?_map]
  by_cases hempty : line.map (Token.shape look) = []
  · simp [hempty]
  · rw [if_neg hempty, if_neg hempty]
    cases nest st.awaited line with
    | none => rfl
    | some awaited =>
        simp only [Option.bind_some]
        split_ifs
        · rw [Option.map_map, Option.map_map]
          rfl
        · rfl
        · rfl
        · rw [Option.map_map, Option.map_map]
          rfl

end MemberState

end ServiceHarness.Go
