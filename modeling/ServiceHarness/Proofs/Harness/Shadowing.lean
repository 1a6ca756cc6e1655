import ServiceHarness.Proofs.Go.Bindings
import ServiceHarness.Proofs.Harness.Blocks
import ServiceHarness.Proofs.Harness.Names

/-!
# Shadowing of types

Where a procedure starts its request and its expected response, the name of the type
is not bound to anything else.  The names that are bound are read off the procedure,
and those of the file off the whole text.
-/

namespace ServiceHarness.Harness

open ServiceHarness.Text ServiceHarness.Go

/-- What a procedure binds: its receiver and parameters, then its variables in order. -/
def procedureBound : List String :=
  ["runner", "ctx", "t", "testCase", "testHandler", "reqJSON", "reqErr", "req", "decodeErr",
    "res", "err", "errExpectation", "errCodeF", "expectedErrCode", "actualErrCode", "resJSON",
    "resErr", "expectedRes", "decodeErr", "handler"]

def rowUsage : Usage (Line MethodSlot) :=
  ⟨procedureBound.map fun name => [.text name],
    [(["req"], [.slot .request]), (["expectedRes"], [.slot .response])]⟩

def wordToken {σ : Type} (line : Line σ) : Token (Letter σ) :=
  .word line.letters

theorem readProcedure_rows :
    readProcedure? Letter.look (code (rowTokens procedureRows).flatten) =
      some (rowUsage.map wordToken) := by
  decide +kernel

def methodUsage (m : Method) : Usage String :=
  ⟨procedureBound, [("req", m.request), ("expectedRes", m.response)]⟩

private theorem boundName_wordToken {σ : Type} (value : σ → String) (line : Line σ) :
    (spellToken value (wordToken line)).boundName = line.fill value := by
  simp [wordToken, Token.mapText, Token.boundName, ← toList_fill]

private theorem spelled_rowUsage (s : Service) (m : Method) :
    ((rowUsage.map wordToken).map (spellToken (methodNames s m))).map Token.boundName =
      methodUsage m := by
  simp [Usage.map, rowUsage, methodUsage, procedureBound, boundName_wordToken, fill_cons, fill_nil,
    Line.fillPiece, methodNames, methodValue]

private theorem newline_not_mem_procedureLines {s : Service} (hs : Renderable s) {m : Method}
    (hm : m ∈ s.methods) : ∀ line ∈ procedureLines s m, '\n' ∉ line.toList := by
  intro line hline
  have hmem : line ∈ harnessLines s ++ [""] := by
    rw [harnessLines_append_blank hs.methods_ne_nil]
    exact List.mem_append_right _
      (List.mem_flatMap.mpr ⟨m, hm, List.mem_append_left _ hline⟩)
  rcases List.mem_append.mp hmem with hharness | hblank
  · exact newline_not_mem_harnessLines hs line hharness
  · rw [List.mem_singleton.mp hblank]
    exact List.not_mem_nil

theorem usage_procedure {s : Service} (hs : Renderable s) {m : Method} (hm : m ∈ s.methods) :
    usage? (joinLines (procedureLines s m)) = some (methodUsage m) := by
  obtain ⟨-, -, -, checked⟩ := checkedRows
  have hnamed := hs.named_method hm
  have hpart := checked.part hnamed (toList_procedureLines s (hs.method_name m hm))
  have hshape : ∀ token ∈ code (rowTokens procedureRows).flatten,
      (spellToken (methodNames s m) token).shape id = token.shape Letter.look :=
    fun token htoken => shape_spell hnamed (checked.shaped token (List.mem_filter.mp htoken).1)
  rw [usage?, lex_joinLines (newline_not_mem_procedureLines hs hm) hpart.lexed, Option.bind_some,
    map_fst_numbered, ← List.map_flatten, code_spell, readProcedure_mapText hshape,
    readProcedure_rows, Option.map_some, Option.map_some, spelled_rowUsage]

/-! ## Types and other names -/

private theorem procedureBound_subset : procedureBound ⊆ harnessNames := by
  decide

private theorem mem_harnessNames_of_declared {s : Service} {kind : Kind} {name : String}
    (hkind : kind ∈ [Kind.imported, .constant, .function])
    (h : (kind, name) ∈ harnessDeclarations s) : name ∈ harnessNames := by
  have hname : ∀ declared ∈ harnessDeclarations s,
      declared.1 = .type ∨ declared.1 = .method ∨ declared.2 ∈ harnessNames := by
    rw [harnessDeclarations, List.forall_mem_append]
    constructor
    · simp [harnessNames]
    · simp
  rcases hname _ h with rfl | rfl | hmem
  · simp at hkind
  · simp at hkind
  · exact hmem

/--
Where a procedure starts its request and its expected response, the names of the
message types mean the types of the package: the procedure does not bind them, and
no import, constant or function of the file is called so.
-/
theorem types_not_shadowed {s : Service} {text : String} (h : generate s = .ok text) :
    ∃ declared, declarations? text = some declared ∧
      List.Forall₂ (fun m procedure =>
          ∃ usage, usage? (joinLines procedure) = some usage ∧ usage.bound = procedureBound ∧
            usage.composed = [("req", m.request), ("expectedRes", m.response)] ∧
            ∀ type ∈ [m.request, m.response], type ∉ usage.bound ∧
              ∀ kind ∈ [Kind.imported, .constant, .function], (kind, type) ∉ declared)
        s.methods (Blocks.cut s.name (lines text)).procedures := by
  obtain ⟨hs, rfl⟩ := generate_eq_ok_iff.mp h
  refine ⟨_, declarations_harnessText hs, ?_⟩
  rw [cut_harnessText hs, harnessBlocks, List.forall₂_map_right_iff, List.forall₂_same]
  intro m hm
  refine ⟨_, usage_procedure hs hm, rfl, rfl, fun type htype => ?_⟩
  have hfree : type ∉ harnessNames := by
    simp only [List.mem_cons, List.not_mem_nil, or_false] at htype
    rcases htype with rfl | rfl
    · exact (hs.request_name m hm).2
    · exact (hs.response_name m hm).2
  exact ⟨fun hbound => hfree (procedureBound_subset hbound),
    fun kind hkind hdeclared => hfree (mem_harnessNames_of_declared hkind hdeclared)⟩

/-- Types called like the parameters of a handler, which are bound in its type only. -/
theorem types_not_shadowed_handler_parameters :
    let s : Service := ⟨"pb", "Echo", [⟨"Say", "expectedResponse", "response"⟩]⟩
    generate s = .ok (harnessText s) ∧ ∃ procedure usage,
      (Blocks.cut "Echo" (lines (harnessText s))).procedures = [procedure] ∧
        usage? (joinLines procedure) = some usage ∧
          usage.composed = [("req", "expectedResponse"), ("expectedRes", "response")] ∧
            "expectedResponse" ∉ usage.bound ∧ "response" ∉ usage.bound := by
  intro s
  have h : generate s = .ok (harnessText s) :=
    generate_eq_ok_iff.mpr ⟨by decide +kernel, rfl⟩
  obtain ⟨declared, -, hall⟩ := types_not_shadowed h
  obtain ⟨procedure, rest, ⟨usage, husage, -, hcomposed, hclear⟩, hrest, hprocedures⟩ :=
    List.forall₂_cons_left_iff.mp hall
  obtain rfl : rest = [] := List.forall₂_nil_left_iff.mp hrest
  exact ⟨h, procedure, usage, hprocedures, husage, hcomposed, (hclear _ (by simp)).1,
    (hclear _ (by simp)).1⟩

end ServiceHarness.Harness
