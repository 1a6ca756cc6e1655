import Mathlib.Data.List.Infix
import ServiceHarness.Proofs.Go.Brackets

/-!
# Formatted failures

The calls of `t.Fatalf` among tokens, and when the verbs of the format count the
arguments behind it.
-/

namespace ServiceHarness.Go

open ServiceHarness.Harness

variable {α : Type}

def callTokens : List (Token Char) :=
  [.word ['t'], .operator ['.'], .word ['F', 'a', 't', 'a', 'l', 'f'], .operator ['(']]

def Token.isComment : Token α → Bool
  | .comment _ => true
  | _ => false

def code (tokens : List (Token α)) : List (Token α) :=
  tokens.filter fun token => !token.isComment

def isOperator (text : List Char) : Token α → Bool
  | .operator t => t == text
  | _ => false

theorem isOperator_mapText {β : Type} (f : List α → List β) (text : List Char)
    (token : Token α) : isOperator text (token.mapText f) = isOperator text token := by
  cases token with
  | comment row => rfl
  | literal row => rfl
  | word row => rfl
  | operator text => rfl

def Token.opens (token : Token α) : Bool :=
  isOperator ['('] token || isOperator ['['] token || isOperator ['\x7b'] token

def Token.closes (token : Token α) : Bool :=
  isOperator [')'] token || isOperator [']'] token || isOperator ['\x7d'] token

section Look

variable (look : α → Char)

def startsCall (tokens : List (Token α)) : Bool :=
  callTokens.isPrefixOf (tokens.map (Token.mapText (List.map look)))

def callsIn : List (Token α) → List (List (Token α))
  | [] => []
  | token :: rest =>
      if startsCall look (token :: rest) then rest.drop 3 :: callsIn rest else callsIn rest

def formatCalls (tokens : List (Token α)) : List (List (Token α)) :=
  callsIn look (code tokens)

def isVerbFlag (c : Char) : Bool :=
  c == '+' || c == '-' || c == '#' || c == ' ' || c == '.' || c.isDigit

/-- The number of verbs that take an argument; two percent signs take none.
Indexed arguments and widths taken from arguments are refused. -/
def verbsFrom? (behindPercent : Bool) : List α → Option Nat
  | [] => if behindPercent then none else some 0
  | a :: rest =>
      if behindPercent then
        if look a = '%' then verbsFrom? false rest
        else if (look a).isAlpha then (verbsFrom? false rest).map (· + 1)
        else if isVerbFlag (look a) then verbsFrom? true rest
        else none
      else verbsFrom? (look a == '%') rest

end Look

/-- The number of arguments up to the end of a call, with a comma in front of
each.  The last one may be followed by a comma too. -/
def argumentsFrom? (depth : Nat) : List (Token α) → Option Nat
  | [] => none
  | token :: rest =>
      if depth = 0 ∧ isOperator [')'] token then some 0
      else if depth = 0 ∧ isOperator [','] token ∧ ¬ rest.head?.any (isOperator [')']) then
        (argumentsFrom? depth rest).map (· + 1)
      else if token.opens then argumentsFrom? (depth + 1) rest
      else if token.closes then argumentsFrom? (depth - 1) rest
      else argumentsFrom? depth rest

/-- The first argument is a single literal, and its verbs count the others. -/
def formatFits (look : α → Char) : List (Token α) → Bool
  | .literal format :: rest =>
      rest.head?.any (fun token => isOperator [','] token || isOperator [')'] token) &&
        (verbsFrom? look false format).isSome &&
        verbsFrom? look false format == argumentsFrom? 0 rest
  | _ => false

/-! ## More tokens behind -/

theorem mapText_id : Token.mapText (List.map id) = (id : Token Char → Token Char) := by
  funext token
  cases token with
  | comment text => simp [Token.mapText]
  | literal text => simp [Token.mapText]
  | word text => simp [Token.mapText]
  | operator text => rfl

theorem startsCall_iff (tokens : List (Token Char)) :
    startsCall id tokens = true ↔ callTokens <+: tokens := by
  rw [startsCall, mapText_id, List.map_id, List.isPrefixOf_iff_prefix]

private theorem callTokens_prefix_append {front back : List (Token Char)} (hfront : front ≠ [])
    (hback : ∀ token ∈ back.head?, token ∉ callTokens.tail) :
    callTokens <+: front ++ back ↔ callTokens <+: front := by
  constructor
  · intro h
    rcases List.prefix_or_prefix_of_prefix h (List.prefix_append front back) with
      hshort | ⟨rest, hrest⟩
    · exact hshort
    · cases rest with
      | nil =>
          rw [List.append_nil] at hrest
          exact hrest ▸ List.prefix_rfl
      | cons token rest =>
          rw [← hrest, List.prefix_append_right_inj] at h
          obtain ⟨back', rfl⟩ := h
          have htail : token ∈ callTokens.tail := by
            rw [← hrest, List.tail_append_of_ne_nil hfront]
            simp
          exact absurd htail (hback token rfl)
  · intro h
    exact h.trans (List.prefix_append front back)

private theorem callsIn_append {front back : List (Token Char)}
    (hback : ∀ token ∈ back.head?, token ∉ callTokens.tail) :
    callsIn id (front ++ back) = (callsIn id front).map (· ++ back) ++ callsIn id back := by
  induction front with
  | nil => rfl
  | cons token front ih =>
      have hstarts : startsCall id (token :: front ++ back) = startsCall id (token :: front) := by
        rw [Bool.eq_iff_iff, startsCall_iff, startsCall_iff]
        exact callTokens_prefix_append (List.cons_ne_nil _ _) hback
      rw [List.cons_append] at hstarts
      rw [List.cons_append, callsIn, callsIn, hstarts, ih]
      by_cases hcall : startsCall id (token :: front) = true
      · have hlength : 3 ≤ front.length := by
          have hle := ((startsCall_iff _).mp hcall).length_le
          simp only [callTokens, List.length_cons, List.length_nil] at hle
          omega
        rw [if_pos hcall, if_pos hcall, List.drop_append_of_le_length hlength]
        rfl
      · rw [if_neg hcall, if_neg hcall]

theorem formatCalls_append {front back : List (Token Char)}
    (hback : ∀ token ∈ (code back).head?, token ∉ callTokens.tail) :
    formatCalls id (front ++ back) =
      (formatCalls id front).map (· ++ code back) ++ formatCalls id back := by
  have happend : code (front ++ back) = code front ++ code back := List.filter_append _ _
  rw [formatCalls, happend, callsIn_append hback]
  rfl

private theorem argumentsFrom_append {depth n : Nat} {tokens : List (Token α)}
    (more : List (Token α)) (h : argumentsFrom? depth tokens = some n) :
    argumentsFrom? depth (tokens ++ more) = some n := by
  induction tokens generalizing depth n with
  | nil => contradiction
  | cons token tokens ih =>
      rw [argumentsFrom?] at h
      rw [List.cons_append, argumentsFrom?]
      by_cases hend : depth = 0 ∧ isOperator [')'] token
      · rw [if_pos hend] at h ⊢
        exact h
      · rw [if_neg hend] at h ⊢
        have hne : tokens ≠ [] := by
          rintro rfl
          simp [argumentsFrom?] at h
        rw [List.head?_append_of_ne_nil _ hne]
        by_cases hcomma : depth = 0 ∧ isOperator [','] token ∧
            ¬ tokens.head?.any (isOperator [')'])
        · rw [if_pos hcomma] at h ⊢
          obtain ⟨k, hk, rfl⟩ := Option.map_eq_some_iff.mp h
          rw [ih hk]
          rfl
        · rw [if_neg hcomma] at h ⊢
          by_cases hopens : token.opens = true
          · rw [if_pos hopens] at h ⊢
            exact ih h
          · rw [if_neg hopens] at h ⊢
            by_cases hcloses : token.closes = true
            · rw [if_pos hcloses] at h ⊢
              exact ih h
            · rw [if_neg hcloses] at h ⊢
              exact ih h

theorem formatFits_cons_iff {look : α → Char} {call : List (Token α)} :
    formatFits look call = true ↔ ∃ format rest n, call = .literal format :: rest ∧
      rest.head?.any (fun token => isOperator [','] token || isOperator [')'] token) = true ∧
      verbsFrom? look false format = some n ∧ argumentsFrom? 0 rest = some n := by
  constructor
  · intro h
    unfold formatFits at h
    split at h
    · rename_i format rest
      simp only [Bool.and_eq_true, beq_iff_eq] at h
      obtain ⟨⟨hhead, hverbs⟩, hequal⟩ := h
      obtain ⟨n, hn⟩ := Option.isSome_iff_exists.mp hverbs
      exact ⟨format, rest, n, rfl, hhead, hn, hequal ▸ hn⟩
    · contradiction
  · rintro ⟨format, rest, n, rfl, hhead, hverbs, harguments⟩
    simp [formatFits, hhead, hverbs, harguments]

theorem formatFits_append {look : α → Char} {call : List (Token α)} (more : List (Token α))
    (h : formatFits look call = true) : formatFits look (call ++ more) = true := by
  obtain ⟨format, rest, n, rfl, hhead, hverbs, harguments⟩ := formatFits_cons_iff.mp h
  have hne : rest ≠ [] := by
    rintro rfl
    contradiction
  refine formatFits_cons_iff.mpr ⟨format, rest ++ more, n, rfl, ?_, hverbs,
    argumentsFrom_append more harguments⟩
  rw [List.head?_append_of_ne_nil _ hne]
  exact hhead

example : formatFits id [.literal ['%', '-', '4', 'd', ' ', '%', '%'], .operator [','],
    .word ['f'], .operator ['('], .word ['x'], .operator [','], .word ['y'], .operator [')'],
    .operator [')']] = true := by
  decide

end ServiceHarness.Go
