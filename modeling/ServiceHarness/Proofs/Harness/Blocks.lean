import Mathlib.Data.List.DropRight
import ServiceHarness.Proofs.Harness.Dispatch

/-!
# Blocks of a harness

The lines of a harness, cut where a reader would cut them: the opening before the
first case, the three lines of every case, what is between the last dispatched
call and the first procedure, and the procedures between blank lines.  A block of
a method depends on the method and the name of the service alone, so that methods
can be left out and rearranged.
-/

namespace ServiceHarness.Harness

open ServiceHarness.Text

structure Blocks where
  opening : List String
  cases : List (List String)
  middle : List String
  procedures : List (List String)
  deriving DecidableEq, Repr

namespace Blocks

def lines (b : Blocks) : List String :=
  b.opening ++ b.cases.flatten ++ b.middle ++ [""].intercalate b.procedures

/-- Cuts lines at the first header of a procedure, then what is before it at the
lines that start a case, and what is behind it at the blank lines. -/
def cut (service : String) (ls : List String) : Blocks :=
  let front := ls.takeWhile fun line => !startsWith (headerStart service) line
  let cases := sections (startsWith caseStart) front
  { opening := cases.1
    cases := cases.2.map fun (line, body) => line :: body.take 2
    middle := front.rtakeWhile fun line => !startsWith callStart line
    procedures :=
      (ls.dropWhile fun line => !startsWith (headerStart service) line).splitOn "" }

end Blocks

def harnessBlocks (s : Service) : Blocks where
  opening := openingLines s
  cases := s.methods.map (caseLines s)
  middle := dispatchEndLines s
  procedures := s.methods.map (procedureLines s)

theorem lines_harnessBlocks (s : Service) : (harnessBlocks s).lines = harnessLines s := by
  rw [Blocks.lines, harnessLines, harnessBlocks, List.flatMap_def]

/-! ## Cutting a harness -/

private theorem blank_not_mem_of_rows {σ : Type} {value : σ → String} (hvalue : Named value)
    {ls : List String} {rows : List (List (Letter σ))}
    (hlines : ls.map String.toList = rows.map (spell value)) (hrows : [] ∉ rows) : "" ∉ ls := by
  intro hblank
  have hchars := List.mem_map_of_mem (f := String.toList) hblank
  rw [hlines] at hchars
  obtain ⟨row, hrow, hspell⟩ := List.mem_map.mp hchars
  exact hrows ((spell_eq_nil_iff hvalue row).mp hspell ▸ hrow)

theorem blank_not_mem_caseLines {s : Service} (hs : Renderable s) {m : Method}
    (hm : m ∈ s.methods) : "" ∉ caseLines s m :=
  blank_not_mem_of_rows (hs.named_method hm) (toList_caseLines s (hs.method_name m hm))
    (by decide +kernel)

theorem blank_not_mem_procedureLines {s : Service} (hs : Renderable s) {m : Method}
    (hm : m ∈ s.methods) : "" ∉ procedureLines s m :=
  blank_not_mem_of_rows (hs.named_method hm) (toList_procedureLines s (hs.method_name m hm))
    (by decide +kernel)

def frontLines (s : Service) : List String :=
  openingLines s ++ s.methods.flatMap (caseLines s) ++ dispatchEndLines s

def backLines (s : Service) : List String :=
  [""].intercalate (s.methods.map (procedureLines s))

private theorem rtakeWhile_append_cons {α : Type} {p : α → Bool} (front : List α) {x : α}
    {back : List α} (hx : p x = false) (hback : ∀ y ∈ back, p y = true) :
    (front ++ x :: back).rtakeWhile p = back := by
  have hreverse : (front ++ x :: back).reverse = back.reverse ++ x :: front.reverse := by simp
  rw [List.rtakeWhile, hreverse, List.takeWhile_append_of_pos, List.takeWhile_cons_of_neg,
    List.append_nil, List.reverse_reverse]
  · simp [hx]
  · exact fun y hy => hback y (List.mem_reverse.mp hy)

section Cut

variable {s : Service} (hs : Renderable s)
include hs

private theorem exists_backLines_eq_cons :
    ∃ name rest, backLines s = headerLine s.name name :: rest := by
  obtain ⟨m, methods, hmethods⟩ := List.exists_cons_of_ne_nil hs.methods_ne_nil
  rw [backLines, hmethods, List.map_cons, procedureLines_eq]
  cases methods.map (procedureLines s) with
  | nil => exact ⟨m.name, _, List.intercalate_singleton⟩
  | cons block blocks =>
      rw [List.intercalate_cons_cons, List.cons_append, List.cons_append]
      exact ⟨m.name, _, rfl⟩

private theorem takeWhile_harnessLines :
    (harnessLines s).takeWhile (fun line => !startsWith (headerStart s.name) line) =
      frontLines s := by
  obtain ⟨name, rest, hback⟩ := exists_backLines_eq_cons hs
  have hquiet := headerStart_quiet_front hs
  rw [harnessLines, ← backLines, ← frontLines, List.takeWhile_append_of_pos, hback,
    List.takeWhile_cons_of_neg, List.append_nil]
  · simp [startsWith_headerLine]
  · intro line hline
    rw [hquiet line hline, Bool.not_false]

private theorem dropWhile_harnessLines :
    (harnessLines s).dropWhile (fun line => !startsWith (headerStart s.name) line) =
      backLines s := by
  obtain ⟨name, rest, hback⟩ := exists_backLines_eq_cons hs
  have hquiet := headerStart_quiet_front hs
  rw [harnessLines, ← backLines, ← frontLines, List.dropWhile_append_of_pos, hback,
    List.dropWhile_cons_of_neg]
  · simp [startsWith_headerLine]
  · intro line hline
    rw [hquiet line hline, Bool.not_false]

theorem sections_frontLines :
    (sections (startsWith caseStart) (frontLines s)).1 = openingLines s ∧
      (sections (startsWith caseStart) (frontLines s)).2.map
          (fun (line, body) => line :: body.take 2) = s.methods.map (caseLines s) := by
  obtain ⟨-, hopening, hend⟩ := caseStart_quiet_file hs
  obtain ⟨m, methods, hmethods⟩ := List.exists_cons_of_ne_nil hs.methods_ne_nil
  have hm : m ∈ s.methods := hmethods ▸ List.mem_cons_self
  have hcases := case_sections hs hend
  rw [frontLines, List.append_assoc, sections_append _ hopening]
  constructor
  · rw [hmethods, List.flatMap_cons, caseLines_eq s (hs.method_name m hm), List.cons_append,
      List.cons_append, sections_cons_open _ (startsWith_caseLine _), List.append_nil]
  · rw [← List.forall₂_eq_eq_eq, List.forall₂_map_left_iff, List.forall₂_map_right_iff]
    have hall := (List.forall₂_and_left _ _).mpr ⟨fun m (hm : m ∈ s.methods) => hm, hcases⟩
    refine hall.flip.imp ?_
    rintro ⟨line, body⟩ m ⟨hm, rfl, rest, rfl⟩
    rw [caseLines_eq s (hs.method_name m hm)]
    rfl

private theorem rtakeWhile_frontLines :
    (frontLines s).rtakeWhile (fun line => !startsWith callStart line) = dispatchEndLines s := by
  obtain ⟨-, -, hend⟩ := fileLines_quiet hs (toList_eq_spell_textRow _ callStart) quietRows.2.1
  obtain ⟨methods, m, hmethods⟩ := (List.eq_nil_or_concat' s.methods).resolve_left hs.methods_ne_nil
  have hm : m ∈ s.methods := by simp [hmethods]
  have hfront : frontLines s =
      (openingLines s ++ methods.flatMap (caseLines s) ++ [caseLine m.name, fetchLine m.name]) ++
        callLine m.name :: dispatchEndLines s := by
    rw [frontLines, hmethods, List.flatMap_append, List.flatMap_singleton,
      caseLines_eq s (hs.method_name m hm)]
    simp
  rw [hfront]
  apply rtakeWhile_append_cons
  · simp [startsWith_callLine]
  · intro line hline
    rw [hend line hline, Bool.not_false]

theorem cut_harnessLines : Blocks.cut s.name (harnessLines s) = harnessBlocks s := by
  obtain ⟨hopening, hcases⟩ := sections_frontLines hs
  have hprocedures : (backLines s).splitOn "" = s.methods.map (procedureLines s) := by
    apply List.splitOn_intercalate
    · intro block hblock
      obtain ⟨m, hm, rfl⟩ := List.mem_map.mp hblock
      exact blank_not_mem_procedureLines hs hm
    · simpa using hs.methods_ne_nil
  rw [Blocks.cut, takeWhile_harnessLines hs, dropWhile_harnessLines hs, hprocedures]
  simp only [hopening, hcases, rtakeWhile_frontLines hs, harnessBlocks]

theorem cut_harnessText : Blocks.cut s.name (lines (harnessText s)) = harnessBlocks s := by
  rw [lines_harnessText hs, cut_harnessLines hs]

end Cut

/-! ## Rearranging methods -/

theorem Renderable.rearrange {s : Service} (hs : Renderable s) {methods : List Method}
    (hne : methods ≠ []) (hsub : methods.Subperm s.methods) :
    Renderable { s with methods := methods } := by
  have hmem : ∀ m ∈ methods, m ∈ s.methods := fun m hm => hsub.subset hm
  constructor
  case package_ne_empty => exact hs.package_ne_empty
  case name_ne_empty => exact hs.name_ne_empty
  case methods_ne_nil => exact hne
  case fields_ne_empty => exact fun m hm => hs.fields_ne_empty m (hmem m hm)
  case package_name => exact hs.package_name
  case service_name => exact hs.service_name
  case method_name => exact fun m hm => hs.method_name m (hmem m hm)
  case request_name => exact fun m hm => hs.request_name m (hmem m hm)
  case response_name => exact fun m hm => hs.response_name m (hmem m hm)
  case distinct =>
    obtain ⟨kept, hperm, hsublist⟩ := hsub
    have hkept : (kept.map Method.name).Nodup := hs.distinct.sublist (hsublist.map _)
    exact (hperm.map Method.name).nodup_iff.mp hkept

/-- The blocks make up the whole text and stand for the methods in order. -/
structure Arranges (service : String) (caseBlock procedureBlock : Method → List String)
    (methods : List Method) (text : String) : Prop where
  whole : text = joinLines (Blocks.cut service (lines text)).lines
  cases : (Blocks.cut service (lines text)).cases = methods.map caseBlock
  procedures : (Blocks.cut service (lines text)).procedures = methods.map procedureBlock

theorem arranges_harnessText {s : Service} (hs : Renderable s) :
    Arranges s.name (caseLines s) (procedureLines s) s.methods (harnessText s) := by
  constructor
  case whole => rw [cut_harnessText hs, lines_harnessBlocks, harnessText]
  case cases => rw [cut_harnessText hs, harnessBlocks]
  case procedures => rw [cut_harnessText hs, harnessBlocks]

/--
Leaving out methods and rearranging the others does so with their blocks and changes
nothing else: there is one block of case lines and one procedure for every method,
whatever methods are beside it and wherever it stands.
-/
theorem rearranging_keeps_blocks {s : Service} {text : String} (h : generate s = .ok text) :
    ∃ caseBlock procedureBlock : Method → List String,
      (∀ m ∈ s.methods, caseBlock m = [caseLine m.name, fetchLine m.name, callLine m.name]) ∧
      (∀ m ∈ s.methods, (procedureBlock m).head? = some (headerLine s.name m.name)) ∧
      Arranges s.name caseBlock procedureBlock s.methods text ∧
      ∀ methods, methods ≠ [] → methods.Subperm s.methods →
        ∃ text', generate { s with methods := methods } = .ok text' ∧
          Arranges s.name caseBlock procedureBlock methods text' ∧
          (Blocks.cut s.name (lines text')).opening = (Blocks.cut s.name (lines text)).opening ∧
          (Blocks.cut s.name (lines text')).middle = (Blocks.cut s.name (lines text)).middle := by
  obtain ⟨hs, rfl⟩ := generate_eq_ok_iff.mp h
  refine ⟨caseLines s, procedureLines s, fun m hm => caseLines_eq s (hs.method_name m hm),
    fun m _ => ?_, arranges_harnessText hs, ?_⟩
  · rw [procedureLines_eq, List.head?_cons]
  · intro methods hne hsub
    have hs' := hs.rearrange hne hsub
    have hcut' := cut_harnessText hs'
    refine ⟨_, generate_eq_ok_iff.mpr ⟨hs', rfl⟩, arranges_harnessText hs', ?_, ?_⟩
    · rw [hcut', cut_harnessText hs]
      rfl
    · rw [hcut', cut_harnessText hs]
      rfl

/-- Two of three methods in the other order; one has the name of the other and more. -/
theorem rearranging_keeps_blocks_two_of_three :
    let s : Service := ⟨"pb", "Echo",
      [⟨"Say", "Ask", "Reply"⟩, ⟨"Hear", "Ask", "Reply"⟩, ⟨"SayMore", "Ask", "Said"⟩]⟩
    let methods : List Method := [⟨"SayMore", "Ask", "Said"⟩, ⟨"Say", "Ask", "Reply"⟩]
    generate s = .ok (harnessText s) ∧ methods ≠ [] ∧ methods.Subperm s.methods ∧
      ∃ text' caseBlock procedureBlock, generate { s with methods := methods } = .ok text' ∧
        Arranges s.name caseBlock procedureBlock s.methods (harnessText s) ∧
        Arranges s.name caseBlock procedureBlock methods text' := by
  intro s methods
  have h : generate s = .ok (harnessText s) :=
    generate_eq_ok_iff.mpr ⟨by decide +kernel, rfl⟩
  have hne : methods ≠ [] := List.cons_ne_nil _ _
  have hsub : methods.Subperm s.methods := by decide
  obtain ⟨caseBlock, procedureBlock, -, -, hall, hkept⟩ := rearranging_keeps_blocks h
  obtain ⟨text', htext', hall', -⟩ := hkept methods hne hsub
  exact ⟨h, hne, hsub, text', caseBlock, procedureBlock, htext', hall, hall'⟩

end ServiceHarness.Harness
