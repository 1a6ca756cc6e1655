import ServiceHarness.Proofs.Harness.Acceptance
import ServiceHarness.Proofs.Harness.Letters

/-!
# Rows of a harness

The lines of a harness as filled rows of letters.  What holds of all lines is
proved of the rows of the skeleton, of which there are finitely many, for all
names that may fill their slots.
-/

namespace ServiceHarness.Harness

open ServiceHarness.Text

/-! ## The rows of the skeleton -/

def skeletonRows :
    Rows opening × Rows dispatchEnd × Rows dispatchCase × Rows procedure := by
  refine ⟨?_, ?_, ?_, ?_⟩
  all_goals
    constructor
    repeat' first
      | apply List.Forall₂.cons
      | apply List.Forall₂.nil
      | apply Line.Spells.text
      | apply Line.Spells.slot
      | apply Line.Spells.nil

def unquote : Letter MethodSlot → List (Letter MethodSlot)
  | .slot .key => [.char '"', .slot .name, .char '"']
  | letter => [letter]

def openingRows : List (List (Letter FileSlot)) :=
  skeletonRows.1.val

def dispatchEndRows : List (List (Letter FileSlot)) :=
  skeletonRows.2.1.val

def caseRows : List (List (Letter MethodSlot)) :=
  skeletonRows.2.2.1.val.map (List.flatMap unquote)

def procedureRows : List (List (Letter MethodSlot)) :=
  skeletonRows.2.2.2.val.map (List.flatMap unquote)

/-! ## Filling the rows -/

def methodNames (s : Service) (m : Method) : MethodSlot → String
  | .key => m.name
  | x => methodValue s m x

private theorem escape_of_part {c : Char} (h : isIdentifierPart c = true) :
    Quoted.escape c = [c] := by
  have hlow : ¬ c.toNat < 0x20 := by
    have hbounds := isIdentifierPart_bounds h
    omega
  have hne : ∀ d, isIdentifierPart d = false → c ≠ d := fun d => ne_of_isIdentifierPart h
  rw [Quoted.escape, if_neg (hne _ (by decide)), if_neg (hne _ (by decide)),
    if_neg (hne _ (by decide)), if_neg (hne _ (by decide)), if_neg (hne _ (by decide)),
    if_neg (hne _ (by decide)), if_neg (hne _ (by decide)), if_neg hlow]

private theorem toList_literal {s : String} (h : GoName s) :
    (Quoted.literal s).toList = '"' :: s.toList ++ ['"'] := by
  have hescape : s.toList.flatMap Quoted.escape = s.toList.flatMap fun c => [c] :=
    List.flatMap_congr fun c hc => escape_of_part (h.part hc)
  rw [Quoted.literal, String.toList_ofList, Quoted.encode, hescape, List.flatMap_singleton']

theorem literal_eq {s : String} (h : GoName s) : Quoted.literal s = "\"" ++ s ++ "\"" := by
  apply String.toList_inj.mp
  simp [toList_literal h, String.toList_append]

private theorem spell_unquote (s : Service) {m : Method} (hname : GoName m.name)
    (row : List (Letter MethodSlot)) :
    spell (methodNames s m) (row.flatMap unquote) = spell (methodValue s m) row := by
  induction row with
  | nil => rfl
  | cons letter row ih =>
      rw [List.flatMap_cons, spell_append, ih]
      cases letter with
      | char c => rfl
      | slot x =>
          cases x with
          | key => simp [unquote, methodNames, methodValue, toList_literal hname]
          | service => simp [unquote, methodNames, methodValue]
          | name => simp [unquote, methodNames, methodValue]
          | request => simp [unquote, methodNames, methodValue]
          | response => simp [unquote, methodNames, methodValue]

theorem toList_openingLines (s : Service) :
    (openingLines s).map String.toList = openingRows.map (spell (fileValue s)) :=
  map_toList_fill _ skeletonRows.1

theorem toList_dispatchEndLines (s : Service) :
    (dispatchEndLines s).map String.toList = dispatchEndRows.map (spell (fileValue s)) :=
  map_toList_fill _ skeletonRows.2.1

theorem toList_fileLines (s : Service) :
    (openingLines s ++ dispatchEndLines s).map String.toList =
      (openingRows ++ dispatchEndRows).map (spell (fileValue s)) := by
  rw [List.map_append, toList_openingLines, toList_dispatchEndLines, List.map_append]

theorem toList_caseLines (s : Service) {m : Method} (hname : GoName m.name) :
    (caseLines s m).map String.toList = caseRows.map (spell (methodNames s m)) := by
  rw [caseLines, map_toList_fill _ skeletonRows.2.2.1, caseRows, List.map_map]
  exact List.map_congr_left fun row _ => (spell_unquote s hname row).symm

theorem toList_procedureLines (s : Service) {m : Method} (hname : GoName m.name) :
    (procedureLines s m).map String.toList = procedureRows.map (spell (methodNames s m)) := by
  rw [procedureLines, map_toList_fill _ skeletonRows.2.2.2, procedureRows, List.map_map]
  exact List.map_congr_left fun row _ => (spell_unquote s hname row).symm

theorem Renderable.named_file {s : Service} (h : Renderable s) : Named (fileValue s) := by
  intro x
  cases x with
  | package => exact h.package_name
  | service => exact h.service_name

theorem Renderable.named_method {s : Service} (h : Renderable s) {m : Method}
    (hm : m ∈ s.methods) : Named (methodNames s m) := by
  intro x
  cases x with
  | service => exact h.service_name
  | name => exact h.method_name m hm
  | key => exact h.method_name m hm
  | request => exact (h.request_name m hm).1
  | response => exact (h.response_name m hm).1

/-! ## All lines -/

private theorem intercalate_append_separator {α : Type} (separator : List α)
    {blocks : List (List α)} (h : blocks ≠ []) :
    separator.intercalate blocks ++ separator = blocks.flatMap (· ++ separator) := by
  induction blocks with
  | nil => contradiction
  | cons block blocks ih =>
      cases blocks with
      | nil => simp
      | cons next blocks =>
          rw [List.intercalate_cons_cons, List.append_assoc, ih (List.cons_ne_nil _ _)]
          simp [List.append_assoc]

/-- With one more blank line at the end, every procedure is followed by one. -/
theorem harnessLines_append_blank {s : Service} (h : s.methods ≠ []) :
    harnessLines s ++ [""] =
      openingLines s ++ s.methods.flatMap (caseLines s) ++ dispatchEndLines s ++
        s.methods.flatMap fun m => procedureLines s m ++ [""] := by
  have hblocks : s.methods.map (procedureLines s) ≠ [] := by simpa using h
  rw [harnessLines, List.append_assoc, intercalate_append_separator _ hblocks,
    List.flatMap_map]

theorem forall_harnessLines {P : List Char → Prop} {s : Service} (hs : Renderable s)
    (hfile : ∀ value : FileSlot → String, Named value →
      ∀ row ∈ openingRows ++ dispatchEndRows, P (spell value row))
    (hmethod : ∀ value : MethodSlot → String, Named value →
      ∀ row ∈ caseRows ++ procedureRows, P (spell value row))
    (hblank : P []) : ∀ line ∈ harnessLines s, P line.toList := by
  intro line hline
  have hfilled : ∀ {σ : Type} {value : σ → String} {lines : List String}
      {rows : List (List (Letter σ))}, lines.map String.toList = rows.map (spell value) →
      line ∈ lines → ∃ row ∈ rows, spell value row = line.toList := by
    intro σ value lines rows heq hmem
    have hchars : line.toList ∈ rows.map (spell value) :=
      heq ▸ List.mem_map_of_mem hmem
    simpa using hchars
  have hmem : line ∈ harnessLines s ++ [""] := List.mem_append_left _ hline
  rw [harnessLines_append_blank hs.methods_ne_nil] at hmem
  simp only [List.mem_append, List.mem_flatMap, List.mem_singleton] at hmem
  rcases hmem with ((hopening | ⟨m, hm, hcase⟩) | hend) | ⟨m, hm, hprocedure | rfl⟩
  · obtain ⟨row, hrow, hspell⟩ := hfilled (toList_openingLines s) hopening
    exact hspell ▸ hfile _ hs.named_file row (List.mem_append_left _ hrow)
  · obtain ⟨row, hrow, hspell⟩ :=
      hfilled (toList_caseLines s (hs.method_name m hm)) hcase
    exact hspell ▸ hmethod _ (hs.named_method hm) row (List.mem_append_left _ hrow)
  · obtain ⟨row, hrow, hspell⟩ := hfilled (toList_dispatchEndLines s) hend
    exact hspell ▸ hfile _ hs.named_file row (List.mem_append_right _ hrow)
  · obtain ⟨row, hrow, hspell⟩ :=
      hfilled (toList_procedureLines s (hs.method_name m hm)) hprocedure
    exact hspell ▸ hmethod _ (hs.named_method hm) row (List.mem_append_right _ hrow)
  · exact hblank

theorem newline_not_mem_harnessLines {s : Service} (hs : Renderable s) :
    ∀ line ∈ harnessLines s, '\n' ∉ line.toList := by
  apply forall_harnessLines (P := fun chars => '\n' ∉ chars) hs
  · intro value hvalue row hrow
    rw [mem_spell_iff hvalue (by decide)]
    revert row
    decide +kernel
  · intro value hvalue row hrow
    rw [mem_spell_iff hvalue (by decide)]
    revert row
    decide +kernel
  · exact List.not_mem_nil

theorem lines_harnessText {s : Service} (hs : Renderable s) :
    lines (harnessText s) = harnessLines s :=
  lines_joinLines _ (newline_not_mem_harnessLines hs)

end ServiceHarness.Harness
