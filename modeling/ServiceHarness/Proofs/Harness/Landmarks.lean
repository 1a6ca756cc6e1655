import ServiceHarness.Proofs.Harness.Matching
import ServiceHarness.Proofs.Harness.Rows

/-!
# Landmarks

The lines by which the cases of the dispatch switch, the calls in them and the
procedures are recognised: each stands once for every method, in order, and no
other line of a harness starts like one of them, whatever the names are.
-/

namespace ServiceHarness.Harness

open ServiceHarness.Text

def startsWith (start line : String) : Bool :=
  start.toList.isPrefixOf line.toList

def caseStart : String := "\t\tcase "

def quoted (name : String) : String :=
  "\"" ++ name ++ "\""

def caseLine (name : String) : String :=
  caseStart ++ quoted name ++ ":"

def fetchLine (name : String) : String :=
  "\t\t\ttestHandler := testHandlerMap[" ++ quoted name ++ "]"

def callStart : String := "\t\t\trunner.test"

def callLine (name : String) : String :=
  callStart ++ name ++ "(ctx, t, testCase, testHandler)"

def headerStart (service : String) : String :=
  "func (runner *" ++ service ++ "TestRunner) test"

def headerLine (service name : String) : String :=
  headerStart service ++ name ++ "(ctx context.Context, " ++
    "t *testing.T, testCase map[string]interface\x7b\x7d, testHandler " ++ handlerType ++ ") \x7b"

/-! ## Lines that do not start so -/

section Starts

variable {σ : Type} [DecidableEq σ] {value : σ → String} {lines : List String}
  {rows : List (List (Letter σ))}

def quiet (pattern : List (Letter σ)) (rows : List (List (Letter σ))) : Bool :=
  rows.all fun row => !mayStart pattern row

private theorem startsWith_eq_false (hvalue : Named value)
    (hlines : lines.map String.toList = rows.map (spell value)) {start : String}
    {pattern : List (Letter σ)} (hstart : start.toList = spell value pattern)
    (hrows : quiet pattern rows = true) : ∀ line ∈ lines, startsWith start line = false := by
  intro line hline
  have hchars : line.toList ∈ rows.map (spell value) := hlines ▸ List.mem_map_of_mem hline
  obtain ⟨row, hrow, hspell⟩ := List.mem_map.mp hchars
  rw [← Bool.not_eq_true, startsWith, List.isPrefixOf_iff_prefix, hstart, ← hspell]
  intro hprefix
  have hmay := mayStart_of_prefix_spell hvalue pattern row hprefix
  have hnot := List.all_eq_true.mp hrows row hrow
  simp [hmay] at hnot

def textRow (text : String) : List (Letter σ) :=
  Line.letters [.text text]

omit [DecidableEq σ] in
theorem toList_eq_spell_textRow (value : σ → String) (text : String) :
    text.toList = spell value (textRow text) := by
  simp [textRow, Line.letters, Piece.letters]

def headerRow (x : σ) : List (Letter σ) :=
  Line.letters [.text "func (runner *", .slot x, .text "TestRunner) test"]

omit [DecidableEq σ] in
private theorem toList_headerStart (value : σ → String) (x : σ) :
    (headerStart (value x)).toList = spell value (headerRow x) := by
  have hfill := fill_between value "func (runner *" x "TestRunner) test"
  unfold headerStart headerRow
  rw [← hfill, toList_fill]

end Starts

/-- The patterns of a landmark, and the rows of cases and procedures that are
quiet for it.  All other rows are. -/
structure Quiet (filePattern : List (Letter FileSlot))
    (methodPattern : List (Letter MethodSlot))
    (cases procedures : List (List (Letter MethodSlot))) : Prop where
  file : quiet filePattern ([] :: (openingRows ++ dispatchEndRows)) = true
  cases : quiet methodPattern cases = true
  procedures : quiet methodPattern procedures = true

instance (filePattern : List (Letter FileSlot)) (methodPattern : List (Letter MethodSlot))
    (cases procedures : List (List (Letter MethodSlot))) :
    Decidable (Quiet filePattern methodPattern cases procedures) :=
  decidable_of_iff
    (quiet filePattern ([] :: (openingRows ++ dispatchEndRows)) = true ∧
      quiet methodPattern cases = true ∧ quiet methodPattern procedures = true)
    ⟨fun ⟨file, cases, procedures⟩ => ⟨file, cases, procedures⟩,
      fun h => ⟨h.file, h.cases, h.procedures⟩⟩

theorem quietRows :
    Quiet (textRow caseStart) (textRow caseStart) caseRows.tail procedureRows ∧
      Quiet (textRow callStart) (textRow callStart) (caseRows.take 2) procedureRows ∧
        Quiet (headerRow .service) (headerRow .service) caseRows procedureRows.tail := by
  decide +kernel

section Quiet

variable {s : Service} (hs : Renderable s)
include hs

theorem fileLines_quiet {start : String} {pattern : List (Letter FileSlot)}
    {methodPattern : List (Letter MethodSlot)} {cases procedures : List (List (Letter MethodSlot))}
    (hstart : start.toList = spell (fileValue s) pattern)
    (hquiet : Quiet pattern methodPattern cases procedures) :
    startsWith start "" = false ∧ (∀ line ∈ openingLines s, startsWith start line = false) ∧
      ∀ line ∈ dispatchEndLines s, startsWith start line = false := by
  have hlines : ("" :: (openingLines s ++ dispatchEndLines s)).map String.toList =
      ([] :: (openingRows ++ dispatchEndRows)).map (spell (fileValue s)) := by
    rw [List.map_cons, List.map_cons, toList_fileLines]
    rfl
  have hall := startsWith_eq_false hs.named_file hlines hstart hquiet.file
  exact ⟨hall "" List.mem_cons_self,
    fun line hline => hall line (List.mem_cons_of_mem _ (List.mem_append_left _ hline)),
    fun line hline => hall line (List.mem_cons_of_mem _ (List.mem_append_right _ hline))⟩

theorem procedureLines_quiet {start : String} {m : Method} (hm : m ∈ s.methods)
    (hrows : quiet (textRow start) procedureRows = true) :
    ∀ line ∈ procedureLines s m, startsWith start line = false :=
  startsWith_eq_false (hs.named_method hm) (toList_procedureLines s (hs.method_name m hm))
    (toList_eq_spell_textRow _ start) hrows

theorem headerStart_quiet_caseLines {m : Method} (hm : m ∈ s.methods) :
    ∀ line ∈ caseLines s m, startsWith (headerStart s.name) line = false :=
  startsWith_eq_false (hs.named_method hm) (toList_caseLines s (hs.method_name m hm))
    (toList_headerStart (methodNames s m) .service) quietRows.2.2.cases

theorem headerStart_quiet_body {m : Method} (hm : m ∈ s.methods) :
    ∀ line ∈ (procedureLines s m).tail, startsWith (headerStart s.name) line = false := by
  have hlines : (procedureLines s m).tail.map String.toList =
      procedureRows.tail.map (spell (methodNames s m)) := by
    rw [List.map_tail, toList_procedureLines s (hs.method_name m hm), List.map_tail]
  exact startsWith_eq_false (hs.named_method hm) hlines
    (toList_headerStart (methodNames s m) .service) quietRows.2.2.procedures

theorem headerStart_quiet_file :
    startsWith (headerStart s.name) "" = false ∧
      (∀ line ∈ openingLines s, startsWith (headerStart s.name) line = false) ∧
        ∀ line ∈ dispatchEndLines s, startsWith (headerStart s.name) line = false :=
  fileLines_quiet hs (toList_headerStart (fileValue s) .service) quietRows.2.2

theorem caseStart_quiet_file :
    startsWith caseStart "" = false ∧
      (∀ line ∈ openingLines s, startsWith caseStart line = false) ∧
        ∀ line ∈ dispatchEndLines s, startsWith caseStart line = false :=
  fileLines_quiet hs (toList_eq_spell_textRow _ caseStart) quietRows.1

end Quiet

/-! ## Lines that do -/

theorem caseLines_eq (s : Service) {m : Method} (hname : GoName m.name) :
    caseLines s m = [caseLine m.name, fetchLine m.name, callLine m.name] := by
  simp only [caseLines, dispatchCase, List.map_cons, List.map_nil, fill_between, methodValue,
    literal_eq hname]
  rfl

theorem procedureLines_eq (s : Service) (m : Method) :
    procedureLines s m = headerLine s.name m.name :: (procedureLines s m).tail := by
  have hheader : procedure =
      (["func (runner *", .slot .service, "TestRunner) test", .slot .name,
        "(ctx context.Context, ", "t *testing.T, testCase map[string]interface\x7b\x7d, testHandler ",
        handlerType, ") \x7b"] : Line MethodSlot) :: procedure.tail := rfl
  have hfill : ∀ a b c d e f : String,
      Line.fill (methodValue s m) [a, .slot .service, b, .slot .name, c, d, e, f] =
        a ++ s.name ++ b ++ m.name ++ c ++ d ++ e ++ f := by
    intro a b c d e f
    simp only [fill_cons, fill_nil, Line.fillPiece, methodValue, String.append_assoc,
      String.append_empty]
  rw [procedureLines, hheader, List.map_cons, List.tail_cons, hfill]
  rfl

theorem startsWith_append (start rest : String) : startsWith start (start ++ rest) = true := by
  simp [startsWith, String.toList_append]

theorem startsWith_caseLine (name : String) : startsWith caseStart (caseLine name) = true := by
  rw [caseLine, String.append_assoc]
  exact startsWith_append _ _

theorem startsWith_callLine (name : String) : startsWith callStart (callLine name) = true := by
  rw [callLine, String.append_assoc]
  exact startsWith_append _ _

theorem startsWith_headerLine (service name : String) :
    startsWith (headerStart service) (headerLine service name) = true := by
  simp only [headerLine, String.append_assoc]
  exact startsWith_append _ _

theorem caseStart_quiet_case {s : Service} (hs : Renderable s) {m : Method}
    (hm : m ∈ s.methods) :
    ∀ line ∈ [fetchLine m.name, callLine m.name], startsWith caseStart line = false := by
  have hname := hs.method_name m hm
  have hlines : [fetchLine m.name, callLine m.name].map String.toList =
      caseRows.tail.map (spell (methodNames s m)) := by
    rw [List.map_tail, ← toList_caseLines s hname, caseLines_eq s hname]
    rfl
  exact startsWith_eq_false (hs.named_method hm) hlines
    (toList_eq_spell_textRow _ caseStart) quietRows.1.cases

private theorem callStart_quiet_case {s : Service} (hs : Renderable s) {m : Method}
    (hm : m ∈ s.methods) :
    ∀ line ∈ [caseLine m.name, fetchLine m.name], startsWith callStart line = false := by
  have hname := hs.method_name m hm
  have hlines : [caseLine m.name, fetchLine m.name].map String.toList =
      (caseRows.take 2).map (spell (methodNames s m)) := by
    rw [List.map_take, ← toList_caseLines s hname, caseLines_eq s hname]
    rfl
  exact startsWith_eq_false (hs.named_method hm) hlines
    (toList_eq_spell_textRow _ callStart) quietRows.2.1.cases

/-! ## All lines of one kind -/

theorem filter_harnessLines {s : Service} (hs : Renderable s) {test : String → Bool}
    (hblank : test "" = false) :
    (harnessLines s).filter test =
      (openingLines s).filter test ++
        s.methods.flatMap (fun m => (caseLines s m).filter test) ++
        (dispatchEndLines s).filter test ++
        s.methods.flatMap fun m => (procedureLines s m).filter test := by
  have hall := congrArg (List.filter test) (harnessLines_append_blank hs.methods_ne_nil)
  simpa [List.filter_append, List.filter_flatMap, hblank, Function.comp_def] using hall

theorem filter_eq_nil_of_quiet {test : String → Bool} {lines : List String}
    (h : ∀ line ∈ lines, test line = false) : lines.filter test = [] := by
  rw [List.filter_eq_nil_iff]
  intro line hline
  simp [h line hline]

theorem filter_of_cases {s : Service} (hs : Renderable s) {start : String}
    {cases : List (List (Letter MethodSlot))}
    (hquiet : Quiet (textRow start) (textRow start) cases procedureRows)
    {found : Method → String}
    (hcase : ∀ m ∈ s.methods, (caseLines s m).filter (startsWith start) = [found m]) :
    (harnessLines s).filter (startsWith start) = s.methods.map found := by
  obtain ⟨hblank, hopening, hend⟩ := fileLines_quiet hs (toList_eq_spell_textRow _ start) hquiet
  have hprocedures : (s.methods.flatMap fun m =>
      (procedureLines s m).filter (startsWith start)) = [] := by
    rw [List.flatMap_eq_nil_iff]
    intro m hm
    exact filter_eq_nil_of_quiet (procedureLines_quiet hs hm hquiet.procedures)
  rw [filter_harnessLines hs hblank, filter_eq_nil_of_quiet hopening,
    filter_eq_nil_of_quiet hend, hprocedures, List.nil_append, List.append_nil,
    List.append_nil, List.map_eq_flatMap]
  exact List.flatMap_congr hcase

theorem filter_caseStart {s : Service} (hs : Renderable s) :
    (harnessLines s).filter (startsWith caseStart) =
      s.methods.map fun m => caseLine m.name := by
  apply filter_of_cases hs quietRows.1
  intro m hm
  rw [caseLines_eq s (hs.method_name m hm), List.filter_cons_of_pos (startsWith_caseLine _),
    filter_eq_nil_of_quiet (caseStart_quiet_case hs hm)]

theorem filter_callStart {s : Service} (hs : Renderable s) :
    (harnessLines s).filter (startsWith callStart) =
      s.methods.map fun m => callLine m.name := by
  apply filter_of_cases hs quietRows.2.1
  intro m hm
  rw [caseLines_eq s (hs.method_name m hm)]
  change ([caseLine m.name, fetchLine m.name] ++ [callLine m.name]).filter _ = _
  rw [List.filter_append, filter_eq_nil_of_quiet (callStart_quiet_case hs hm), List.nil_append,
    List.filter_cons_of_pos (startsWith_callLine _), List.filter_nil]

theorem filter_headerStart {s : Service} (hs : Renderable s) :
    (harnessLines s).filter (startsWith (headerStart s.name)) =
      s.methods.map fun m => headerLine s.name m.name := by
  obtain ⟨hblank, hopening, hend⟩ := headerStart_quiet_file hs
  rw [filter_harnessLines hs hblank, filter_eq_nil_of_quiet hopening,
    filter_eq_nil_of_quiet hend, List.nil_append, List.append_nil, List.map_eq_flatMap]
  have hcases : (s.methods.flatMap fun m =>
      (caseLines s m).filter (startsWith (headerStart s.name))) = [] := by
    rw [List.flatMap_eq_nil_iff]
    intro m hm
    exact filter_eq_nil_of_quiet (headerStart_quiet_caseLines hs hm)
  rw [hcases, List.nil_append]
  apply List.flatMap_congr
  intro m hm
  rw [procedureLines_eq, List.filter_cons_of_pos (startsWith_headerLine _ _),
    filter_eq_nil_of_quiet (headerStart_quiet_body hs hm)]

end ServiceHarness.Harness
