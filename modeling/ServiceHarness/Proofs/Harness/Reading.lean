import ServiceHarness.Proofs.Go.Reading
import ServiceHarness.Proofs.Harness.Tokens

/-!
# Reading a harness

What a reader of lines finds in a harness, from what it finds in the rows of the
skeleton.  A reader that looks at the shapes of tokens alone to move on finds in the
lines what it finds in the rows, with the slots filled.
-/

namespace ServiceHarness.Harness

open ServiceHarness.Go

theorem readLines_spell {σ : Type} {value : σ → String} (hvalue : Named value) {S S' R R' : Type}
    {step : S → List (Token (Letter σ)) → Option (List R × S)}
    {step' : S' → List (Token Char) → Option (List R' × S')} {f : R → R'} {g : S → S'}
    (hstep : ∀ st tokens, (tokens.map (spellToken value)).map (Token.shape id) =
        tokens.map (Token.shape Letter.look) →
      step' (g st) (tokens.map (spellToken value)) =
        (step st tokens).map (Prod.map (List.map f) g))
    {rows : List (List (Letter σ))} {st last : S} {found : List R}
    (hshaped : ∀ token ∈ (rowTokens rows).flatten, keepsShape token = true)
    (h : readLines Letter.look step st rows = some (found, last)) :
    readLines id step' (g st) (rows.map (spell value)) = some (found.map f, g last) := by
  induction rows generalizing st found with
  | nil =>
      cases h
      rfl
  | cons row rows ih =>
      obtain ⟨tokens, first, middle, later, htokens, hfirst, hrest, rfl⟩ := readLines_cons_inv h
      simp only [rowTokens, List.map_cons, List.flatten_cons, htokens, Option.getD_some,
        List.mem_append] at hshaped
      have hshapes : ((code tokens).map (spellToken value)).map (Token.shape id) =
          (code tokens).map (Token.shape Letter.look) := by
        rw [List.map_map]
        apply List.map_congr_left
        intro token htoken
        exact shape_spell hvalue (hshaped token (.inl (List.mem_filter.mp htoken).1))
      have hspelled : step' (g st) (code (tokens.map (spellToken value))) =
          some (first.map f, g middle) := by
        rw [code_spell, hstep st _ hshapes, hfirst]
        rfl
      rw [List.map_append]
      exact readLines_cons (lineTokens_spell hvalue htokens) hspelled
        (ih (fun token htoken => hshaped token (.inr htoken)) hrest)

/-- A harness says what its parts say, if a reader stands behind the cases of the
dispatch as before them, and behind procedures as at the start. -/
theorem readLines_harnessLines {S R : Type} {step : S → List (Token Char) → Option (List R × S)}
    {start inside : S} {opened closed : List R} {cased defined : Method → List R} {s : Service}
    (hs : Renderable s) (hblank : ∀ st, step st [] = some ([], st))
    (hopening : readLines id step start (openingRows.map (spell (fileValue s))) =
      some (opened, inside))
    (hcase : ∀ m ∈ s.methods, readLines id step inside (caseRows.map (spell (methodNames s m))) =
      some (cased m, inside))
    (hend : readLines id step inside (dispatchEndRows.map (spell (fileValue s))) =
      some (closed, start))
    (hprocedure : ∀ m ∈ s.methods,
      readLines id step start (procedureRows.map (spell (methodNames s m))) =
        some (defined m, start)) :
    readLines id step start ((harnessLines s).map String.toList) =
      some (opened ++ s.methods.flatMap cased ++ closed ++ s.methods.flatMap defined, start) := by
  have hcases : readLines id step inside (s.methods.flatMap fun m =>
      (caseLines s m).map String.toList) = some (s.methods.flatMap cased, inside) := by
    refine readLines_flatMap fun m hm => ?_
    rw [toList_caseLines s (hs.method_name m hm)]
    exact hcase m hm
  have hprocedures : readLines id step start (s.methods.flatMap fun m =>
      (procedureLines s m).map String.toList ++ [[]]) =
        some (s.methods.flatMap defined, start) := by
    refine readLines_flatMap fun m hm => ?_
    rw [toList_procedureLines s (hs.method_name m hm)]
    exact (readLines_append_blank_iff hblank).mpr (hprocedure m hm)
  rw [← toList_openingLines] at hopening
  rw [← toList_dispatchEndLines] at hend
  have hall := readLines_append_of_some (readLines_append_of_some
    (readLines_append_of_some hopening hcases) hend) hprocedures
  rw [← readLines_append_blank_iff hblank]
  have hlines := congrArg (List.map String.toList) (harnessLines_append_blank hs.methods_ne_nil)
  simp only [List.map_append, List.map_flatMap, List.map_cons, List.map_nil,
    String.toList_empty] at hlines
  rw [hlines, hall]

end ServiceHarness.Harness
