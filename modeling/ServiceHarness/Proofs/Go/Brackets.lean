import ServiceHarness.Proofs.Go.Lexer

/-!
# Brackets

When the brackets among tokens are balanced, and a stack of the brackets that
are still to be closed, by which a long list of tokens is checked in parts.
-/

namespace ServiceHarness.Go

variable {α β : Type}

def closing? : Char → Option Char
  | '(' => some ')'
  | '[' => some ']'
  | '\x7b' => some '\x7d'
  | _ => none

def isClosing (c : Char) : Bool :=
  c == ')' || c == ']' || c == '\x7d'

def Token.isBracket : Token α → Bool
  | .operator [c] => (closing? c).isSome || isClosing c
  | _ => false

/-- Every bracket is closed by one of its kind, and what is between them is
balanced too. -/
inductive Balanced : List (Token α) → Prop where
  | nil : Balanced []
  | plain {token : Token α} {rest : List (Token α)} (htoken : token.isBracket = false)
      (hrest : Balanced rest) : Balanced (token :: rest)
  | pair {opener closer : Char} {inner rest : List (Token α)}
      (hcloser : closing? opener = some closer) (hinner : Balanced inner)
      (hrest : Balanced rest) :
      Balanced (.operator [opener] :: (inner ++ .operator [closer] :: rest))

def nestStep (awaited : List Char) : Token α → Option (List Char)
  | .operator [c] =>
      match closing? c with
      | some closer => some (closer :: awaited)
      | none =>
          if isClosing c then
            match awaited with
            | [] => none
            | top :: below => if c = top then some below else none
          else some awaited
  | _ => some awaited

def nest (awaited : List Char) (tokens : List (Token α)) : Option (List Char) :=
  tokens.foldlM nestStep awaited

theorem nest_append (awaited : List Char) (front back : List (Token α)) :
    nest awaited (front ++ back) = (nest awaited front).bind fun next => nest next back := by
  rw [nest, List.foldlM_append]
  rfl

/-- The tokens close the awaited brackets one after another and are balanced
around them. -/
def Closes : List Char → List (Token α) → Prop
  | [], tokens => Balanced tokens
  | closer :: below, tokens =>
      ∃ inner rest, tokens = inner ++ .operator [closer] :: rest ∧ Balanced inner ∧
        Closes below rest

theorem Closes.plain {awaited : List Char} {token : Token α} {tokens : List (Token α)}
    (htoken : token.isBracket = false) (h : Closes awaited tokens) :
    Closes awaited (token :: tokens) := by
  cases awaited with
  | nil => exact Balanced.plain htoken h
  | cons closer below =>
      obtain ⟨inner, rest, rfl, hinner, hrest⟩ := h
      exact ⟨token :: inner, rest, rfl, Balanced.plain htoken hinner, hrest⟩

theorem Closes.pair {awaited : List Char} {opener closer : Char} {tokens : List (Token α)}
    (hcloser : closing? opener = some closer) (h : Closes (closer :: awaited) tokens) :
    Closes awaited (.operator [opener] :: tokens) := by
  obtain ⟨inner, rest, rfl, hinner, hrest⟩ := h
  cases awaited with
  | nil => exact Balanced.pair hcloser hinner hrest
  | cons next below =>
      obtain ⟨middle, rest', rfl, hmiddle, hrest'⟩ := hrest
      refine ⟨.operator [opener] :: (inner ++ .operator [closer] :: middle), rest', ?_,
        Balanced.pair hcloser hinner hmiddle, hrest'⟩
      simp

private theorem nestStep_cases {awaited next : List Char} {token : Token α}
    (h : nestStep awaited token = some next) :
    (token.isBracket = false ∧ next = awaited) ∨
      (∃ opener closer, token = .operator [opener] ∧ closing? opener = some closer ∧
        next = closer :: awaited) ∨
      ∃ closer, token = .operator [closer] ∧ awaited = closer :: next := by
  unfold nestStep at h
  split at h
  · rename_i c
    cases hclosing : closing? c with
    | some closer =>
        simp only [hclosing, Option.some.injEq] at h
        exact .inr (.inl ⟨c, closer, rfl, hclosing, h.symm⟩)
    | none =>
        by_cases hcloses : isClosing c = true
        · cases awaited with
          | nil => simp [hclosing, hcloses] at h
          | cons top below =>
              simp only [hclosing, hcloses, if_true, Option.ite_none_right_eq_some,
                Option.some.injEq] at h
              obtain ⟨rfl, rfl⟩ := h
              exact .inr (.inr ⟨c, rfl, rfl⟩)
        · have hopen : Token.isBracket (.operator [c] : Token α) = false := by
            simp [Token.isBracket, hclosing, hcloses]
          simp only [hclosing, hcloses, Bool.false_eq_true, if_false, Option.some.injEq] at h
          exact .inl ⟨hopen, h.symm⟩
  · rename_i hsingle
    have hopen : token.isBracket = false := by
      unfold Token.isBracket
      split
      · rename_i c
        exact absurd rfl (hsingle c)
      · rfl
    exact .inl ⟨hopen, (Option.some.inj h).symm⟩

theorem closes_of_nest {awaited : List Char} {tokens : List (Token α)}
    (h : nest awaited tokens = some []) : Closes awaited tokens := by
  induction tokens generalizing awaited with
  | nil =>
      obtain rfl : awaited = [] := Option.some.inj h
      exact Balanced.nil
  | cons token tokens ih =>
      rw [nest, List.foldlM_cons] at h
      obtain ⟨next, hstep, hnext⟩ := Option.bind_eq_some_iff.mp h
      have hcloses := ih hnext
      rcases nestStep_cases hstep with ⟨hplain, rfl⟩ | ⟨opener, closer, rfl, hcloser, rfl⟩ |
        ⟨closer, rfl, rfl⟩
      · exact hcloses.plain hplain
      · exact Closes.pair hcloser hcloses
      · exact ⟨[], tokens, rfl, Balanced.nil, hcloses⟩

theorem balanced_of_nest {tokens : List (Token α)} (h : nest [] tokens = some []) :
    Balanced tokens :=
  closes_of_nest h

theorem nestStep_mapText (f : List α → List β) (awaited : List Char) (token : Token α) :
    nestStep awaited (token.mapText f) = nestStep awaited token := by
  cases token with
  | comment text => rfl
  | literal text => rfl
  | word text => rfl
  | operator text =>
      cases text with
      | nil => rfl
      | cons c rest =>
          cases rest with
          | nil => rfl
          | cons d rest => rfl

theorem nest_mapText (f : List α → List β) (awaited : List Char) (tokens : List (Token α)) :
    nest awaited (tokens.map (Token.mapText f)) = nest awaited tokens := by
  induction tokens generalizing awaited with
  | nil => rfl
  | cons token tokens ih =>
      rw [List.map_cons, nest, nest, List.foldlM_cons, List.foldlM_cons, nestStep_mapText]
      congr 1
      funext next
      exact ih next

end ServiceHarness.Go
