import Mathlib.Data.List.Infix
import ServiceHarness.Proofs.Go.Declarations

/-!
# Names that a procedure binds

What the header and the body of a procedure bind, and the types that are named where
a variable starts as the zero value of its type.  A body that binds a name otherwise
than by `:=` is refused, so that no name is missed.
-/

namespace ServiceHarness.Go

variable {α β : Type}

/-- The names that a procedure binds, and the variables that start as an empty value,
each with the type of it. -/
structure Usage (β : Type) where
  bound : List β
  composed : List (β × β)
  deriving DecidableEq, Repr

def Usage.map {γ : Type} (f : β → γ) (usage : Usage β) : Usage γ :=
  ⟨usage.bound.map f, usage.composed.map (Prod.map f f)⟩

def bindingKeywords : List Shape :=
  [.ofKeyword "var", .ofKeyword "const", .ofKeyword "type", .ofKeyword "func"]

def namesBefore : List (Token α) → List (Token α)
  | [] => []
  | [name] => [name]
  | name :: comma :: rest => if isOperator [','] comma then name :: namesBefore rest else [name]

def shortNames (before : List (Token α)) : List (Token α) → List (Token α)
  | [] => []
  | token :: rest =>
      (if isOperator [':', '='] token then (namesBefore before).reverse else []) ++
        shortNames (token :: before) rest

def emptyValue? : List (Token α) → Option (Token α × Token α)
  | name :: define :: type :: opener :: closer :: _ =>
      if isOperator [':', '='] define && isOperator ['\x7b'] opener && isOperator ['\x7d'] closer
      then some (name, type) else none
  | _ => none

section Look

variable (look : α → Char)

/-- The names of the receiver and the parameters, and the body behind them.  Such a
name stands behind a bracket or a comma; what is within further brackets, as in the
type of a function, binds nothing. -/
def header (awaited : List Char) (first : Bool) :
    List (Token α) → List (Token α) × List (Token α)
  | [] => ([], [])
  | token :: rest =>
      if awaited = [] ∧ isOperator ['\x7b'] token then ([], rest)
      else
        let next := (nestStep awaited token).getD awaited
        let later := header next (isOperator ['('] token || isOperator [','] token) rest
        if first ∧ awaited = [')'] ∧ token.shape look = .identifier then
          (token :: later.1, later.2)
        else later

def readProcedure? (tokens : List (Token α)) : Option (Usage (Token α)) :=
  let (names, body) := header look [] false tokens
  if tokens.head?.map (Token.shape look) = some (.ofKeyword "func") ∧
      ∀ token ∈ body, token.shape look ∉ bindingKeywords then
    some ⟨names ++ shortNames [] body, body.tails.filterMap emptyValue?⟩
  else none

end Look

def usage? (text : String) : Option (Usage String) :=
  (lex text).bind fun tokens =>
    (readProcedure? id (code (tokens.map Prod.fst))).map (Usage.map Token.boundName)

/-! ## Other letters -/

section MapText

variable {look : α → Char} {look' : β → Char} {f : List α → List β} {tokens : List (Token α)}

private theorem namesBefore_mapText (before : List (Token α)) :
    namesBefore (before.map (Token.mapText f)) =
      (namesBefore before).map (Token.mapText f) := by
  fun_induction namesBefore before with
  | case1 => rfl
  | case2 name => rfl
  | case3 name comma rest hcomma ih =>
      simp [namesBefore, isOperator_mapText, hcomma, ih]
  | case4 name comma rest hcomma =>
      simp [namesBefore, isOperator_mapText, hcomma]

private theorem shortNames_mapText (before tokens : List (Token α)) :
    shortNames (before.map (Token.mapText f)) (tokens.map (Token.mapText f)) =
      (shortNames before tokens).map (Token.mapText f) := by
  induction tokens generalizing before with
  | nil => rfl
  | cons token tokens ih =>
      have hlater := ih (token :: before)
      rw [List.map_cons] at hlater
      rw [List.map_cons, shortNames, shortNames, hlater, isOperator_mapText, List.map_append]
      by_cases hdefine : isOperator [':', '='] token = true
      · rw [if_pos hdefine, if_pos hdefine, namesBefore_mapText, List.map_reverse]
      · rw [if_neg hdefine, if_neg hdefine, List.map_nil]

private theorem emptyValue_mapText (tokens : List (Token α)) :
    emptyValue? (tokens.map (Token.mapText f)) =
      (emptyValue? tokens).map (Prod.map (Token.mapText f) (Token.mapText f)) := by
  fun_cases emptyValue? tokens with
  | case1 name define type opener closer rest hshape =>
      simp [emptyValue?, isOperator_mapText, hshape]
  | case2 name define type opener closer rest hshape =>
      simp [emptyValue?, isOperator_mapText, hshape]
  | case3 tokens hshort =>
      match tokens, hshort with
      | [], _ => rfl
      | [_], _ => rfl
      | [_, _], _ => rfl
      | [_, _, _], _ => rfl
      | [_, _, _, _], _ => rfl
      | _ :: _ :: _ :: _ :: _ :: _, hshort => exact (hshort _ _ _ _ _ _ rfl).elim

private theorem header_mapText {awaited : List Char} {first : Bool}
    (hshape : ∀ token ∈ tokens, (token.mapText f).shape look' = token.shape look) :
    header look' awaited first (tokens.map (Token.mapText f)) =
      Prod.map (List.map (Token.mapText f)) (List.map (Token.mapText f))
        (header look awaited first tokens) := by
  induction tokens generalizing awaited first with
  | nil => rfl
  | cons token tokens ih =>
      rw [List.forall_mem_cons] at hshape
      obtain ⟨htoken, hrest⟩ := hshape
      simp only [List.map_cons, header, isOperator_mapText, nestStep_mapText, htoken, ih hrest]
      by_cases hbody : awaited = [] ∧ isOperator ['\x7b'] token = true
      · rw [if_pos hbody, if_pos hbody]
        rfl
      · rw [if_neg hbody, if_neg hbody]
        by_cases hname : first = true ∧ awaited = [')'] ∧ token.shape look = .identifier
        · rw [if_pos hname, if_pos hname]
          rfl
        · rw [if_neg hname, if_neg hname]

private theorem header_body_suffix (look : α → Char) (awaited : List Char) (first : Bool)
    (tokens : List (Token α)) : (header look awaited first tokens).2 <:+ tokens := by
  fun_induction header look awaited first tokens with
  | case1 => exact List.suffix_rfl
  | case2 => exact List.suffix_cons _ _
  | case3 awaited first token rest _ next later _ ih => exact ih.trans (List.suffix_cons _ _)
  | case4 awaited first token rest _ next later _ ih => exact ih.trans (List.suffix_cons _ _)

theorem readProcedure_mapText
    (hshape : ∀ token ∈ tokens, (token.mapText f).shape look' = token.shape look) :
    readProcedure? look' (tokens.map (Token.mapText f)) =
      (readProcedure? look tokens).map (Usage.map (Token.mapText f)) := by
  have hbody : ∀ token ∈ (header look [] false tokens).2,
      (token.mapText f).shape look' = token.shape look :=
    fun token htoken => hshape token ((header_body_suffix look [] false tokens).subset htoken)
  have hhead : (tokens.map (Token.mapText f)).head?.map (Token.shape look') =
      tokens.head?.map (Token.shape look) := by
    cases tokens with
    | nil => rfl
    | cons token tokens => exact congrArg some (hshape token List.mem_cons_self)
  have hkeywords : (∀ token ∈ (header look [] false tokens).2.map (Token.mapText f),
      token.shape look' ∉ bindingKeywords) ↔
        ∀ token ∈ (header look [] false tokens).2, token.shape look ∉ bindingKeywords := by
    rw [List.forall_mem_map]
    exact forall₂_congr fun token htoken => by rw [hbody token htoken]
  have hshort := shortNames_mapText (f := f) [] (header look [] false tokens).2
  rw [List.map_nil] at hshort
  have hempty : (emptyValue? ∘ List.map (Token.mapText f)) =
      fun tokens => (emptyValue? tokens).map (Prod.map (Token.mapText f) (Token.mapText f)) :=
    funext emptyValue_mapText
  simp only [readProcedure?, header_mapText hshape, Prod.map_fst, Prod.map_snd, hhead, hkeywords]
  by_cases hread : tokens.head?.map (Token.shape look) = some (.ofKeyword "func") ∧
      ∀ token ∈ (header look [] false tokens).2, token.shape look ∉ bindingKeywords
  · rw [if_pos hread, if_pos hread, Option.map_some, Usage.map, hshort, List.map_append,
      List.map_tails, List.filterMap_map, hempty, List.map_filterMap]
  · rw [if_neg hread, if_neg hread, Option.map_none]

end MapText

end ServiceHarness.Go
