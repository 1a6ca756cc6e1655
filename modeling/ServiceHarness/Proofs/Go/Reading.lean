import ServiceHarness.Proofs.Go.Calls

/-!
# Reading line by line

Readers of source stand somewhere before each line, find something in its tokens, and
stand somewhere behind it, or refuse the line.  What they find in lines put together is
what they find in the parts.
-/

namespace ServiceHarness.Go

variable {α σ ρ : Type}

section Step

variable (look : α → Char) (step : σ → List (Token α) → Option (List ρ × σ))

/-- Reads lines from a state and collects what is found; comments are not seen. -/
def readLines (st : σ) : List (List α) → Option (List ρ × σ)
  | [] => some ([], st)
  | line :: rest =>
      (lineTokens? look line).bind fun tokens =>
        (step st (code tokens)).bind fun (found, next) =>
          (readLines next rest).map fun (later, last) => (found ++ later, last)

end Step

variable {look : α → Char} {step : σ → List (Token α) → Option (List ρ × σ)} {st middle last : σ}

theorem readLines_cons {line : List α} {rest : List (List α)} {tokens : List (Token α)}
    {found later : List ρ} (htokens : lineTokens? look line = some tokens)
    (hstep : step st (code tokens) = some (found, middle))
    (hrest : readLines look step middle rest = some (later, last)) :
    readLines look step st (line :: rest) = some (found ++ later, last) := by
  simp [readLines, htokens, hstep, hrest]

theorem readLines_cons_inv {line : List α} {rest : List (List α)} {all : List ρ}
    (h : readLines look step st (line :: rest) = some (all, last)) :
    ∃ tokens found middle later, lineTokens? look line = some tokens ∧
      step st (code tokens) = some (found, middle) ∧
      readLines look step middle rest = some (later, last) ∧ all = found ++ later := by
  obtain ⟨tokens, htokens, h⟩ := Option.bind_eq_some_iff.mp h
  obtain ⟨⟨found, middle⟩, hstep, h⟩ := Option.bind_eq_some_iff.mp h
  obtain ⟨⟨later, last'⟩, hrest, heq⟩ := Option.map_eq_some_iff.mp h
  cases heq
  exact ⟨tokens, found, middle, later, htokens, hstep, hrest, rfl⟩

theorem readLines_append (front back : List (List α)) :
    readLines look step st (front ++ back) =
      (readLines look step st front).bind fun (found, middle) =>
        (readLines look step middle back).map fun (later, last) => (found ++ later, last) := by
  induction front generalizing st with
  | nil => simp [readLines]
  | cons line front ih =>
      rw [List.cons_append, readLines, readLines]
      cases lineTokens? look line with
      | none => rfl
      | some tokens =>
          simp only [Option.bind_some]
          cases step st (code tokens) with
          | none => rfl
          | some result =>
              obtain ⟨found, next⟩ := result
              simp only [Option.bind_some, ih]
              cases readLines look step next front with
              | none => rfl
              | some result => simp [Function.comp_def]

theorem readLines_append_of_some {front back : List (List α)} {found later : List ρ}
    (hfront : readLines look step st front = some (found, middle))
    (hback : readLines look step middle back = some (later, last)) :
    readLines look step st (front ++ back) = some (found ++ later, last) := by
  simp [readLines_append, hfront, hback]

theorem readLines_flatMap {γ : Type} {items : List γ} {block : γ → List (List α)}
    {found : γ → List ρ}
    (h : ∀ x ∈ items, readLines look step st (block x) = some (found x, st)) :
    readLines look step st (items.flatMap block) = some (items.flatMap found, st) := by
  induction items with
  | nil => rfl
  | cons x items ih =>
      rw [List.flatMap_cons, List.flatMap_cons]
      exact readLines_append_of_some (h x List.mem_cons_self)
        (ih fun y hy => h y (List.mem_cons_of_mem x hy))

theorem readLines_append_blank_iff (hblank : ∀ st, step st [] = some ([], st))
    {lines : List (List α)} {found : List ρ} :
    readLines look step st (lines ++ [[]]) = some (found, last) ↔
      readLines look step st lines = some (found, last) := by
  have htokens : lineTokens? look ([] : List α) = some [] := rfl
  have hline : ∀ middle, readLines look step middle [[]] = some ([], middle) := by
    simp [readLines, htokens, code, hblank]
  rw [readLines_append]
  cases h : readLines look step st lines with
  | none => simp
  | some result =>
      obtain ⟨front, middle⟩ := result
      simp [hline]

end ServiceHarness.Go
