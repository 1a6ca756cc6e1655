import ServiceHarness.Proofs.Harness.Rows
import ServiceHarness.Proofs.Harness.Spelling

/-!
# Tokens of a harness

The tokens of a harness have the same shapes on the same lines for all services
with equally many methods, its brackets are balanced, and its formatted failures
have an argument for every verb.  The lines are read in parts: each part is
checked on the rows of the skeleton, and parts put together give the text.
-/

namespace ServiceHarness.Harness

open ServiceHarness.Text ServiceHarness.Go

/-! ## Parts of a text -/

/-- What is known of the tokens of some lines: their shapes, the number of their
formatted failures, and the brackets awaited before and behind them.  The first
token does not go on with a call that lines before these have begun. -/
structure Part (ls : List String) (tokens : List (List (Token Char)))
    (shapes : List (List Shape)) (calls : Nat) (before after : List Char) : Prop where
  lexed : ls.map (fun line => lineTokens? id line.toList) = tokens.map some
  shaped : tokens.map (List.map (Token.shape id)) = shapes
  nested : nest before tokens.flatten = some after
  head : ∀ token ∈ (code tokens.flatten).head?, token ∉ callTokens.tail
  call_count : (formatCalls id tokens.flatten).length = calls
  calls_fit : ∀ call ∈ formatCalls id tokens.flatten, formatFits id call = true

theorem Part.nil (awaited : List Char) : Part [] [] [] 0 awaited awaited :=
  ⟨rfl, rfl, rfl, nofun, rfl, nofun⟩

theorem Part.blank (awaited : List Char) : Part [""] [[]] [[]] 0 awaited awaited :=
  ⟨rfl, rfl, rfl, nofun, rfl, nofun⟩

theorem Part.append {ls ls' : List String} {tokens tokens' : List (List (Token Char))}
    {shapes shapes' : List (List Shape)} {calls calls' : Nat} {before middle after : List Char}
    (front : Part ls tokens shapes calls before middle)
    (back : Part ls' tokens' shapes' calls' middle after) :
    Part (ls ++ ls') (tokens ++ tokens') (shapes ++ shapes') (calls + calls') before after := by
  have hcalls : formatCalls id (tokens ++ tokens').flatten =
      (formatCalls id tokens.flatten).map (· ++ code tokens'.flatten) ++
        formatCalls id tokens'.flatten := by
    rw [List.flatten_append]
    exact formatCalls_append back.head
  constructor
  case lexed => rw [List.map_append, List.map_append, front.lexed, back.lexed]
  case shaped => rw [List.map_append, front.shaped, back.shaped]
  case nested =>
    rw [List.flatten_append, nest_append, front.nested, Option.bind_some, back.nested]
  case head =>
    intro token htoken
    have happend : code (tokens ++ tokens').flatten =
        code tokens.flatten ++ code tokens'.flatten := by
      rw [List.flatten_append]
      exact List.filter_append _ _
    rw [happend, List.head?_append, Option.mem_def, Option.or_eq_some_iff] at htoken
    rcases htoken with hfront | ⟨-, hback⟩
    · exact front.head token hfront
    · exact back.head token hback
  case call_count =>
    rw [hcalls, List.length_append, List.length_map, front.call_count, back.call_count]
  case calls_fit =>
    intro call hcall
    rw [hcalls, List.mem_append, List.mem_map] at hcall
    rcases hcall with ⟨found, hfound, rfl⟩ | hback
    · exact formatFits_append _ (front.calls_fit found hfound)
    · exact back.calls_fit call hback

private theorem exists_part_flatMap {α : Type} {items : List α} {block : α → List String}
    {shapes : List (List Shape)} {calls : Nat} {awaited : List Char}
    (h : ∀ x ∈ items, ∃ tokens, Part (block x) tokens shapes calls awaited awaited) :
    ∃ tokens, Part (items.flatMap block) tokens (List.replicate items.length shapes).flatten
      (items.length * calls) awaited awaited := by
  induction items with
  | nil => exact ⟨[], by simpa using Part.nil awaited⟩
  | cons x items ih =>
      obtain ⟨first, hfirst⟩ := h x List.mem_cons_self
      obtain ⟨later, hlater⟩ := ih fun y hy => h y (List.mem_cons_of_mem x hy)
      refine ⟨first ++ later, ?_⟩
      rw [List.flatMap_cons, List.length_cons, List.replicate_succ, List.flatten_cons,
        Nat.add_mul, Nat.one_mul, Nat.add_comm (items.length * calls)]
      exact hfirst.append hlater

private theorem exists_part_intercalate {α : Type} {items : List α} {block : α → List String}
    {shapes : List (List Shape)} {calls : Nat} {awaited : List Char}
    (h : ∀ x ∈ items, ∃ tokens, Part (block x) tokens shapes calls awaited awaited) :
    ∃ tokens, Part ([""].intercalate (items.map block)) tokens
      ([[]].intercalate (List.replicate items.length shapes)) (items.length * calls)
      awaited awaited := by
  induction items with
  | nil => exact ⟨[], by simpa using Part.nil awaited⟩
  | cons x items ih =>
      obtain ⟨first, hfirst⟩ := h x List.mem_cons_self
      obtain ⟨later, hlater⟩ := ih fun y hy => h y (List.mem_cons_of_mem x hy)
      cases items with
      | nil => exact ⟨first, by simpa using hfirst⟩
      | cons y items =>
          refine ⟨first ++ [[]] ++ later, ?_⟩
          have hall := (hfirst.append (Part.blank awaited)).append hlater
          have hcount : calls + 0 + (y :: items).length * calls =
              (x :: y :: items).length * calls := by
            simp only [List.length_cons, Nat.add_mul, Nat.one_mul]
            omega
          rw [hcount] at hall
          rw [List.map_cons, List.map_cons, List.intercalate_cons_cons, List.length_cons,
            List.length_cons, List.replicate_succ, List.replicate_succ,
            List.intercalate_cons_cons]
          exact hall

/-! ## Parts from rows -/

section Rows

variable {σ : Type}

def rowTokens (rows : List (List (Letter σ))) : List (List (Token (Letter σ))) :=
  rows.map fun row => (lineTokens? Letter.look row).getD []

def rowShapes (rows : List (List (Letter σ))) : List (List Shape) :=
  (rowTokens rows).map (List.map (Token.shape Letter.look))

/-- What makes rows a part of the text for all names in their slots. -/
structure Checked (rows : List (List (Letter σ))) (calls : Nat) (before after : List Char) :
    Prop where
  lexed : ∀ row ∈ rows, (lineTokens? Letter.look row).isSome = true
  shaped : ∀ token ∈ (rowTokens rows).flatten, keepsShape token = true
  nested : nest before (rowTokens rows).flatten = some after
  clear : callsAreClear (code (rowTokens rows).flatten) = true
  head : ∀ token ∈ (code (rowTokens rows).flatten).head?,
    ∀ expected ∈ callTokens.tail, mayBe expected token = false
  call_count : (formatCalls Letter.look (rowTokens rows).flatten).length = calls
  calls_fit : ∀ call ∈ formatCalls Letter.look (rowTokens rows).flatten,
    formatFits Letter.look call = true

instance (rows : List (List (Letter σ))) (calls : Nat) (before after : List Char) :
    Decidable (Checked rows calls before after) :=
  decidable_of_iff
    ((∀ row ∈ rows, (lineTokens? Letter.look row).isSome = true) ∧
      (∀ token ∈ (rowTokens rows).flatten, keepsShape token = true) ∧
      nest before (rowTokens rows).flatten = some after ∧
      callsAreClear (code (rowTokens rows).flatten) = true ∧
      (∀ token ∈ (code (rowTokens rows).flatten).head?,
        ∀ expected ∈ callTokens.tail, mayBe expected token = false) ∧
      (formatCalls Letter.look (rowTokens rows).flatten).length = calls ∧
      ∀ call ∈ formatCalls Letter.look (rowTokens rows).flatten,
        formatFits Letter.look call = true)
    ⟨fun ⟨lexed, shaped, nested, clear, head, call_count, calls_fit⟩ =>
      ⟨lexed, shaped, nested, clear, head, call_count, calls_fit⟩,
    fun h => ⟨h.lexed, h.shaped, h.nested, h.clear, h.head, h.call_count, h.calls_fit⟩⟩

theorem Checked.part {value : σ → String} (hvalue : Named value) {ls : List String}
    {rows : List (List (Letter σ))} {calls : Nat} {before after : List Char}
    (hlines : ls.map String.toList = rows.map (spell value))
    (h : Checked rows calls before after) :
    Part ls ((rowTokens rows).map (List.map (spellToken value))) (rowShapes rows) calls
      before after := by
  have hflatten : ((rowTokens rows).map (List.map (spellToken value))).flatten =
      (rowTokens rows).flatten.map (spellToken value) := List.map_flatten.symm
  have hcalls := formatCalls_spell hvalue h.clear
  constructor
  case lexed =>
    have hrow : ∀ row ∈ rows, lineTokens? id (spell value row) =
        some (((lineTokens? Letter.look row).getD []).map (spellToken value)) := by
      intro row hrow
      obtain ⟨tokens, htokens⟩ := Option.isSome_iff_exists.mp (h.lexed row hrow)
      rw [lineTokens_spell hvalue htokens, htokens]
      rfl
    calc ls.map (fun line => lineTokens? id line.toList)
        = (ls.map String.toList).map (lineTokens? id) := by
          rw [List.map_map]
          rfl
      _ = rows.map fun row => lineTokens? id (spell value row) := by
          rw [hlines, List.map_map]
          rfl
      _ = ((rowTokens rows).map (List.map (spellToken value))).map some := by
          rw [rowTokens, List.map_map, List.map_map]
          exact List.map_congr_left hrow
  case shaped =>
    rw [List.map_map, rowShapes]
    apply List.map_congr_left
    intro block hblock
    rw [Function.comp_apply, List.map_map]
    apply List.map_congr_left
    intro token htoken
    exact shape_spell hvalue (h.shaped token (List.mem_flatten.mpr ⟨block, hblock, htoken⟩))
  case nested => rw [hflatten, nest_mapText, h.nested]
  case head =>
    rw [hflatten, code_spell, List.head?_map]
    intro token htoken hmem
    obtain ⟨found, hfound, rfl⟩ := Option.map_eq_some_iff.mp htoken
    have hmay := h.head found hfound _ hmem
    rw [mayBe_spell hvalue] at hmay
    contradiction
  case call_count => rw [hflatten, hcalls, List.length_map, h.call_count]
  case calls_fit =>
    intro call hcall
    rw [hflatten, hcalls] at hcall
    obtain ⟨found, hfound, rfl⟩ := List.mem_map.mp hcall
    exact formatFits_spell hvalue (h.calls_fit found hfound)

end Rows

/-! ## The whole text -/

def dispatchBrackets : List Char :=
  ['\x7d', '\x7d', '\x7d']

theorem checkedRows :
    Checked openingRows 0 [] dispatchBrackets ∧
      Checked caseRows 0 dispatchBrackets dispatchBrackets ∧
        Checked dispatchEndRows 0 dispatchBrackets [] ∧ Checked procedureRows 2 [] [] := by
  decide +kernel

def harnessShapes (n : Nat) : List (List Shape) :=
  rowShapes openingRows ++ (List.replicate n (rowShapes caseRows)).flatten ++
    rowShapes dispatchEndRows ++ [[]].intercalate (List.replicate n (rowShapes procedureRows))

private theorem exists_part_harnessLines {s : Service} (hs : Renderable s) :
    ∃ tokens, Part (harnessLines s) tokens (harnessShapes s.methods.length)
      (2 * s.methods.length) [] [] := by
  obtain ⟨openingChecked, caseChecked, endChecked, procedureChecked⟩ := checkedRows
  obtain ⟨cases, hcases⟩ := exists_part_flatMap fun m (hm : m ∈ s.methods) =>
    ⟨_, caseChecked.part (hs.named_method hm) (toList_caseLines s (hs.method_name m hm))⟩
  obtain ⟨procedures, hprocedures⟩ := exists_part_intercalate fun m (hm : m ∈ s.methods) =>
    ⟨_, procedureChecked.part (hs.named_method hm)
      (toList_procedureLines s (hs.method_name m hm))⟩
  have hopening := openingChecked.part hs.named_file (toList_openingLines s)
  have hend := endChecked.part hs.named_file (toList_dispatchEndLines s)
  have hall := ((hopening.append hcases).append hend).append hprocedures
  have hcount : 0 + s.methods.length * 0 + 0 + s.methods.length * 2 = 2 * s.methods.length := by
    omega
  rw [hcount] at hall
  exact ⟨_, hall⟩

/-- What Go sees in the text of a harness with `n` methods. -/
structure WellFormed (n : Nat) (tokens : List (Token Char × Nat)) : Prop where
  shaped : shapes tokens = numbered 1 (harnessShapes n)
  balanced : Balanced (tokens.map Prod.fst)
  call_count : (formatCalls id (tokens.map Prod.fst)).length = 2 * n
  calls_fit : ∀ call ∈ formatCalls id (tokens.map Prod.fst), formatFits id call = true

theorem lex_harnessText {s : Service} (hs : Renderable s) :
    ∃ tokens, lex (harnessText s) = some tokens ∧ WellFormed s.methods.length tokens := by
  obtain ⟨tokens, hpart⟩ := exists_part_harnessLines hs
  refine ⟨numbered 1 tokens, lex_joinLines (newline_not_mem_harnessLines hs) hpart.lexed, ?_⟩
  constructor
  case shaped => rw [shapes, map_numbered, hpart.shaped]
  case balanced =>
    rw [map_fst_numbered]
    exact balanced_of_nest hpart.nested
  case call_count => rw [map_fst_numbered, hpart.call_count]
  case calls_fit =>
    rw [map_fst_numbered]
    exact hpart.calls_fit

/-- Whatever the names are, Go sees the same program but for them. -/
theorem shapes_independent_of_names {s t : Service} {first second : String}
    (hs : generate s = .ok first) (ht : generate t = .ok second)
    (hlength : s.methods.length = t.methods.length) :
    ∃ tokens tokens', lex first = some tokens ∧ lex second = some tokens' ∧
      shapes tokens = shapes tokens' ∧ WellFormed s.methods.length tokens ∧
        WellFormed t.methods.length tokens' := by
  obtain ⟨hrenderable, rfl⟩ := generate_eq_ok_iff.mp hs
  obtain ⟨hrenderable', rfl⟩ := generate_eq_ok_iff.mp ht
  obtain ⟨tokens, hlex, hformed⟩ := lex_harnessText hrenderable
  obtain ⟨tokens', hlex', hformed'⟩ := lex_harnessText hrenderable'
  refine ⟨tokens, tokens', hlex, hlex', ?_, hformed, hformed'⟩
  rw [hformed.shaped, hformed'.shaped, hlength]

/-- Names that look like a keyword, a verb and the function that fails. -/
theorem shapes_independent_of_names_lookalikes :
    let s : Service := ⟨"pb", "Echo", [⟨"Say", "Ask", "Reply"⟩, ⟨"Hear", "Ask", "Reply"⟩]⟩
    let t : Service := ⟨"func_", "t", [⟨"Fatalf", "d", "v"⟩, ⟨"t", "Fatalf", "import_"⟩]⟩
    generate s = .ok (harnessText s) ∧ generate t = .ok (harnessText t) ∧
      ∃ tokens tokens', lex (harnessText s) = some tokens ∧
        lex (harnessText t) = some tokens' ∧ shapes tokens = shapes tokens' ∧
          WellFormed 2 tokens ∧ WellFormed 2 tokens' := by
  intro s t
  have hs : generate s = .ok (harnessText s) :=
    generate_eq_ok_iff.mpr ⟨by decide +kernel, rfl⟩
  have ht : generate t = .ok (harnessText t) :=
    generate_eq_ok_iff.mpr ⟨by decide +kernel, rfl⟩
  exact ⟨hs, ht, shapes_independent_of_names hs ht rfl⟩

end ServiceHarness.Harness
