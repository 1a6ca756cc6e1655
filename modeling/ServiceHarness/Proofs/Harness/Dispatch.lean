import Mathlib.Data.List.Count
import Mathlib.Data.List.Forall2
import ServiceHarness.Proofs.Harness.Landmarks

/-!
# Dispatch and procedures

The text of a harness read as lines: the cases of the dispatch switch and the
procedures stand for the methods one by one and in order, every case calls the
procedure of its method, and every procedure works with the types and the name of
its method.
-/

namespace ServiceHarness.Harness

open ServiceHarness.Text

def assigns (variableName line : String) : Bool :=
  (variableName ++ " := ").toList.isPrefixOf (line.toList.dropWhile (· == '\t'))

/-- The lines below the header of a procedure do what the method asks for: one
request and one expected response of its types, and one call of its name. -/
structure Exercises (m : Method) (body : List String) : Prop where
  request : body.filter (assigns "req") = ["\treq := " ++ m.request ++ "\x7b\x7d"]
  call : occurrences ("runner.Client." ++ m.name ++ "(ctx, &req)").toList
    (joinLines body).toList = 1
  response : body.filter (assigns "expectedRes") =
    ["\t\texpectedRes := " ++ m.response ++ "\x7b\x7d"]

/-! ## Procedures -/

section Assignments

variable {σ : Type} [DecidableEq σ] {value : σ → String} {lines : List String}
  {rows : List (List (Letter σ))}

private theorem dropWhile_spell (hvalue : Named value) (row : List (Letter σ)) :
    (spell value row).dropWhile (· == '\t') =
      spell value (row.dropWhile (· == .char '\t')) := by
  induction row with
  | nil => rfl
  | cons letter row ih =>
      cases letter with
      | char c =>
          by_cases hc : c = '\t'
          · simp [hc, ih]
          · simp [hc]
      | slot x =>
          obtain ⟨first, rest, hx, hfirst, -⟩ := (hvalue x).exists_cons
          have htab : first ≠ '\t' :=
            ne_of_isIdentifierPart (isIdentifierPart_of_start hfirst) (by decide)
          simp [hx, htab]

omit [DecidableEq σ] in
private theorem spell_prefix_spell {pattern row : List (Letter σ)} (h : pattern <+: row) :
    spell value pattern <+: spell value row := by
  obtain ⟨rest, rfl⟩ := h
  rw [spell_append]
  exact List.prefix_append _ _

omit [DecidableEq σ] in
private theorem spell_infix_spell {pattern row : List (Letter σ)} (h : pattern <:+: row) :
    spell value pattern <:+: spell value row := by
  obtain ⟨before, after, rfl⟩ := h
  exact ⟨spell value before, spell value after, by simp⟩

def assignRow (variableName : String) : List (Letter σ) :=
  textRow (variableName ++ " := ")

def mayAssign (variableName : String) (row : List (Letter σ)) : Bool :=
  mayStart (assignRow variableName) (row.dropWhile (· == .char '\t'))

private theorem filter_assigns (hvalue : Named value)
    (hlines : lines.map String.toList = rows.map (spell value)) {variableName : String}
    {assignment : Line σ} (hkept : rows.filter (mayAssign variableName) = [assignment.letters])
    (hassigns : assignRow variableName <+: assignment.letters.dropWhile (· == .char '\t')) :
    lines.filter (assigns variableName) = [Line.fill value assignment] := by
  have htest : ∀ row : List (Letter σ),
      (variableName ++ " := ").toList.isPrefixOf ((spell value row).dropWhile (· == '\t')) =
          true ↔
        spell value (assignRow variableName) <+:
          spell value (row.dropWhile (· == .char '\t')) := by
    intro row
    rw [dropWhile_spell hvalue, List.isPrefixOf_iff_prefix, assignRow,
      toList_eq_spell_textRow value (variableName ++ " := ")]
  have hfilter := toList_filter
    (fun chars => (variableName ++ " := ").toList.isPrefixOf (chars.dropWhile (· == '\t')))
    _ hlines (fun row h => mayStart_of_prefix_spell hvalue _ _ ((htest row).mp h)) hkept (by
      intro row hrow
      rw [List.mem_singleton] at hrow
      subst row
      exact (htest _).mpr (spell_prefix_spell hassigns))
  have hfill : [assignment.letters].map (spell value) =
      [Line.fill value assignment].map String.toList := by
    simp [toList_fill]
  rw [hfill] at hfilter
  exact (List.map_inj_right fun a b => String.toList_inj.mp).mp hfilter

end Assignments

def clientCall : Line MethodSlot :=
  ["runner.Client.", .slot .name, "(ctx, &req)"]

def argumentRow : List (Letter MethodSlot) :=
  .char '(' :: textRow "ctx, &req)"

def requestLine : Line MethodSlot :=
  ["\treq := ", .slot .request, "\x7b\x7d"]

def responseLine : Line MethodSlot :=
  ["\t\texpectedRes := ", .slot .response, "\x7b\x7d"]

private theorem bodyRows {rows : List (List (Letter MethodSlot))}
    (h : rows ∈ [procedureRows.tail, procedureRows.tail ++ [[]]]) :
    rows.filter (mayAssign "req") = [requestLine.letters] ∧
      assignRow "req" <+: requestLine.letters.dropWhile (· == .char '\t') ∧
      rows.filter (mayAssign "expectedRes") = [responseLine.letters] ∧
      assignRow "expectedRes" <+: responseLine.letters.dropWhile (· == .char '\t') ∧
      mayOccur argumentRow (rows.flatMap (· ++ [.char '\n'])) ≤ 1 ∧
      clientCall.letters <:+: rows.flatMap (· ++ [.char '\n']) := by
  revert rows
  decide +kernel

private theorem exercises_of_rows {s : Service} {m : Method} (hnamed : Named (methodNames s m))
    {body : List String} {rows : List (List (Letter MethodSlot))}
    (hlines : body.map String.toList = rows.map (spell (methodNames s m)))
    (h : rows ∈ [procedureRows.tail, procedureRows.tail ++ [[]]]) : Exercises m body := by
  obtain ⟨hrequest, hrequestRow, hresponse, hresponseRow, hcalls, hcallRow⟩ := bodyRows h
  constructor
  case request =>
    have hfill : Line.fill (methodNames s m) requestLine =
        "\treq := " ++ m.request ++ "\x7b\x7d" := fill_between _ _ _ _
    rw [← hfill]
    exact filter_assigns hnamed hlines hrequest hrequestRow
  case call =>
    have hcall : ("runner.Client." ++ m.name ++ "(ctx, &req)").toList =
        spell (methodNames s m) clientCall.letters := by
      have hfill : Line.fill (methodNames s m) clientCall =
          "runner.Client." ++ m.name ++ "(ctx, &req)" := fill_between _ _ _ _
      rw [← hfill, toList_fill]
    have hfront : clientCall.letters =
        textRow "runner.Client." ++ [.slot .name] ++ argumentRow := by
      decide +kernel
    rw [hcall, toList_joinLines_rows hlines]
    apply Nat.le_antisymm
    · rw [hfront, spell_append]
      apply (occurrences_append_pattern_le (by simp [argumentRow]) _ _).trans
      exact (occurrences_spell_le hnamed (by decide) _ _).trans hcalls
    · apply occurrences_pos
      · simp [hfront, argumentRow]
      · exact spell_infix_spell hcallRow
  case response =>
    have hfill : Line.fill (methodNames s m) responseLine =
        "\t\texpectedRes := " ++ m.response ++ "\x7b\x7d" := fill_between _ _ _ _
    rw [← hfill]
    exact filter_assigns hnamed hlines hresponse hresponseRow

theorem exercises_body {s : Service} (hs : Renderable s) {m : Method} (hm : m ∈ s.methods)
    {trailing : List String} (htrailing : trailing = [] ∨ trailing = [""]) :
    Exercises m ((procedureLines s m).tail ++ trailing) := by
  have htail : (procedureLines s m).tail.map String.toList =
      procedureRows.tail.map (spell (methodNames s m)) := by
    rw [List.map_tail, toList_procedureLines s (hs.method_name m hm), List.map_tail]
  rcases htrailing with rfl | rfl
  · rw [List.append_nil]
    exact exercises_of_rows (hs.named_method hm) htail List.mem_cons_self
  · have hlines : ((procedureLines s m).tail ++ [""]).map String.toList =
        (procedureRows.tail ++ [[]]).map (spell (methodNames s m)) := by
      rw [List.map_append, List.map_append, htail]
      rfl
    exact exercises_of_rows (hs.named_method hm) hlines
      (List.mem_cons_of_mem _ List.mem_cons_self)

private theorem procedure_sections {s : Service} (hs : Renderable s) :
    (sections (startsWith (headerStart s.name))
        ([""].intercalate (s.methods.map (procedureLines s)))).1 = [] ∧
      List.Forall₂ (fun m block => block.1 = headerLine s.name m.name ∧ Exercises m block.2)
        s.methods
        (sections (startsWith (headerStart s.name))
          ([""].intercalate (s.methods.map (procedureLines s)))).2 := by
  have hblocks : s.methods.map (procedureLines s) =
      s.methods.map fun m => headerLine s.name m.name :: (procedureLines s m).tail :=
    List.map_congr_left fun m _ => procedureLines_eq s m
  have hblank : ∀ line ∈ [""], startsWith (headerStart s.name) line = false := by
    intro line hline
    rw [List.mem_singleton.mp hline]
    exact (headerStart_quiet_file hs).1
  obtain ⟨hfirst, hlater⟩ := sections_intercalate
    (fun (m : Method) _ => startsWith_headerLine s.name m.name)
    (fun m hm => headerStart_quiet_body hs hm) hblank
  rw [hblocks]
  refine ⟨hfirst, ?_⟩
  have hall := (List.forall₂_and_left _ _).mpr ⟨fun m (hm : m ∈ s.methods) => hm, hlater⟩
  refine hall.imp fun m block ⟨hm, hheader, hbody⟩ => ⟨hheader, ?_⟩
  rcases hbody with hbody | hbody
  · have hexercises := exercises_body hs hm (.inl rfl)
    rwa [List.append_nil, ← hbody] at hexercises
  · rw [hbody]
    exact exercises_body hs hm (.inr rfl)

theorem case_sections {s : Service} (hs : Renderable s) {after : List String}
    (hafter : ∀ line ∈ after, startsWith caseStart line = false) :
    List.Forall₂
      (fun m block => block.1 = caseLine m.name ∧
        [fetchLine m.name, callLine m.name] <+: block.2)
      s.methods (sections (startsWith caseStart) (s.methods.flatMap (caseLines s) ++ after)).2 := by
  have hcases : s.methods.flatMap (caseLines s) =
      s.methods.flatMap fun m => [caseLine m.name, fetchLine m.name, callLine m.name] :=
    List.flatMap_congr fun m hm => caseLines_eq s (hs.method_name m hm)
  rw [hcases]
  exact sections_flatMap (fun m _ => startsWith_caseLine m.name)
    (fun m hm => caseStart_quiet_case hs hm) hafter

private theorem caseStart_quiet_back {s : Service} (hs : Renderable s) :
    ∀ line ∈ dispatchEndLines s ++ [""].intercalate (s.methods.map (procedureLines s)),
      startsWith caseStart line = false := by
  intro line hline
  rcases List.mem_append.mp hline with hend | hprocedures
  · exact (caseStart_quiet_file hs).2.2 line hend
  · rcases mem_intercalate hprocedures with hblank | ⟨block, hblock, hmem⟩
    · rw [List.mem_singleton.mp hblank]
      decide
    · obtain ⟨m, hm, rfl⟩ := List.mem_map.mp hblock
      exact procedureLines_quiet hs hm quietRows.1.procedures line hmem

theorem headerStart_quiet_front {s : Service} (hs : Renderable s) :
    ∀ line ∈ openingLines s ++ s.methods.flatMap (caseLines s) ++ dispatchEndLines s,
      startsWith (headerStart s.name) line = false := by
  intro line hline
  simp only [List.mem_append, List.mem_flatMap] at hline
  rcases hline with (hopening | ⟨m, hm, hcase⟩) | hend
  · exact (headerStart_quiet_file hs).2.1 line hopening
  · exact headerStart_quiet_caseLines hs hm line hcase
  · exact (headerStart_quiet_file hs).2.2 line hend

/-! ## The whole text -/

/-- A line that stands once for every name, in a text where only such lines look
like it, stands for the names alone. -/
theorem count_of_filter {text names : List String} {start : String} {line : String → String}
    (hline : Function.Injective line) (hstart : ∀ name, startsWith start (line name) = true)
    (hnames : names.Nodup) (hfilter : text.filter (startsWith start) = names.map line)
    (name : String) : text.count (line name) = if name ∈ names then 1 else 0 := by
  calc text.count (line name)
      = (text.filter (startsWith start)).count (line name) := (List.count_filter (hstart name)).symm
    _ = (names.map line).count (line name) := by rw [hfilter]
    _ = names.count name := List.count_map_of_injective _ _ hline _
    _ = if name ∈ names then 1 else 0 := hnames.count

private theorem callLine_injective : Function.Injective callLine := by
  intro a b h
  simpa [callLine, ← String.toList_inj, String.toList_append] using h

private theorem headerLine_injective (service : String) :
    Function.Injective (headerLine service) := by
  intro a b h
  simpa [headerLine, ← String.toList_inj, String.toList_append] using h

/-- The cases of the dispatch switch and the procedures stand for the methods one
by one, in order, and name each other. -/
structure Agrees (s : Service) (text : List String) : Prop where
  case_lines : text.filter (startsWith caseStart) = s.methods.map fun m => caseLine m.name
  cases : List.Forall₂
    (fun m block => block.1 = caseLine m.name ∧
      [fetchLine m.name, callLine m.name] <+: block.2)
    s.methods (sections (startsWith caseStart) text).2
  header_lines : text.filter (startsWith (headerStart s.name)) =
    s.methods.map fun m => headerLine s.name m.name
  headers_last : ∃ front back, text = front ++ back ∧
    (∀ line ∈ front, startsWith (headerStart s.name) line = false) ∧
      ∀ line ∈ back, startsWith caseStart line = false
  procedures : List.Forall₂
    (fun m block => block.1 = headerLine s.name m.name ∧ Exercises m block.2)
    s.methods (sections (startsWith (headerStart s.name)) text).2
  dispatched_once : ∀ name,
    text.count (callLine name) = if name ∈ s.methodNames then 1 else 0
  defined_once : ∀ name,
    text.count (headerLine s.name name) = if name ∈ s.methodNames then 1 else 0

theorem dispatch_agrees_with_procedures {s : Service} {text : String}
    (h : generate s = .ok text) : Agrees s (lines text) := by
  obtain ⟨hs, rfl⟩ := generate_eq_ok_iff.mp h
  rw [lines_harnessText hs]
  have hback := caseStart_quiet_back hs
  have hfront := headerStart_quiet_front hs
  have hsplit : harnessLines s =
      openingLines s ++ (s.methods.flatMap (caseLines s) ++
        (dispatchEndLines s ++ [""].intercalate (s.methods.map (procedureLines s)))) := by
    simp only [harnessLines, List.append_assoc]
  constructor
  case case_lines => exact filter_caseStart hs
  case cases =>
    rw [hsplit, sections_append _ (caseStart_quiet_file hs).2.1]
    exact case_sections hs hback
  case header_lines => exact filter_headerStart hs
  case headers_last =>
    refine ⟨_, _, rfl, hfront, fun line hline => ?_⟩
    exact hback line (List.mem_append_right _ hline)
  case procedures =>
    rw [harnessLines, sections_append _ hfront]
    exact (procedure_sections hs).2
  case dispatched_once =>
    apply count_of_filter callLine_injective startsWith_callLine hs.distinct
    rw [filter_callStart hs, Service.methodNames, List.map_map]
    rfl
  case defined_once =>
    apply count_of_filter (headerLine_injective s.name) (startsWith_headerLine s.name) hs.distinct
    rw [filter_headerStart hs, Service.methodNames, List.map_map]
    rfl

/-- Methods may be called like the start of a case, like a variable and like the
entry point. -/
theorem dispatch_agrees_with_procedures_lookalikes :
    let s : Service := ⟨"pb", "case_",
      [⟨"case_", "Ask", "Ask"⟩, ⟨"req", "Client", "Ask"⟩, ⟨"RunGRPCTest", "Fatalf", "X"⟩]⟩
    generate s = .ok (harnessText s) ∧ Agrees s (lines (harnessText s)) := by
  intro s
  have h : generate s = .ok (harnessText s) :=
    generate_eq_ok_iff.mpr ⟨by decide +kernel, rfl⟩
  exact ⟨h, dispatch_agrees_with_procedures h⟩

end ServiceHarness.Harness
