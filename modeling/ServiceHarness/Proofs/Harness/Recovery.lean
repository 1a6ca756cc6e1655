import Mathlib.Data.List.Forall2
import ServiceHarness.Proofs.Harness.Rows
import ServiceHarness.Proofs.Storage.Checking

/-!
# Recovering the description

The text of a harness determines the description.  No line holds a newline, so
equal texts have equal lines; the number of lines gives the number of methods,
and each name stands at a fixed place between fixed texts.
-/

namespace ServiceHarness.Harness

open ServiceHarness.Text ServiceHarness.Storage

/-! ## One line -/

private theorem toList_fill_append {σ : Type} (value : σ → String) (a b : Line σ) :
    (Line.fill value (a ++ b)).toList =
      (Line.fill value a).toList ++ (Line.fill value b).toList := by
  simp [Line.fill, String.toList_join]

theorem fill_slot_inj {σ : Type} (value value' : σ → String) (before : Line σ) (x : σ)
    (after : Line σ) (hbefore : Line.fill value before = Line.fill value' before)
    (hafter : Line.fill value after = Line.fill value' after)
    (h : Line.fill value (before ++ .slot x :: after) =
      Line.fill value' (before ++ .slot x :: after)) : value x = value' x := by
  have hchars := congrArg String.toList h
  have hslot : ∀ v : σ → String, (Line.fill v (.slot x :: after)).toList =
      (v x).toList ++ (Line.fill v after).toList := by
    intro v
    rw [show Piece.slot x :: after = [.slot x] ++ after from rfl, toList_fill_append]
    simp [Line.fill, Line.fillPiece, String.toList_join]
  rw [toList_fill_append, toList_fill_append, hbefore, hslot, hslot, hafter] at hchars
  exact String.toList_inj.mp
    (List.append_cancel_right (List.append_cancel_left hchars))

/-! ## Blocks of lines -/

private theorem forall₂_of_flatMap_eq {α β : Type} {f g : α → List β} {size : Nat}
    (hf : ∀ a, (f a).length = size) (hg : ∀ a, (g a).length = size) {as bs : List α}
    (hlength : as.length = bs.length) (h : as.flatMap f = bs.flatMap g) :
    List.Forall₂ (fun a b => f a = g b) as bs := by
  induction as generalizing bs with
  | nil =>
      cases bs with
      | nil => exact .nil
      | cons b bs => simp at hlength
  | cons a as ih =>
      cases bs with
      | nil => simp at hlength
      | cons b bs =>
          rw [List.flatMap_cons, List.flatMap_cons] at h
          obtain ⟨hhead, htail⟩ := List.append_inj h ((hf a).trans (hg b).symm)
          exact .cons hhead (ih (by simpa using hlength) htail)

theorem length_flatMap_of_length {α β : Type} {f : α → List β} {size : Nat}
    (hf : ∀ a, (f a).length = size) (as : List α) :
    (as.flatMap f).length = size * as.length := by
  induction as with
  | nil => rfl
  | cons a as ih =>
      rw [List.flatMap_cons, List.length_append, hf, ih, List.length_cons, Nat.mul_succ,
        Nat.add_comm]

private theorem length_openingLines (s : Service) : (openingLines s).length = 56 := by
  rw [openingLines, List.length_map]
  rfl

private theorem length_caseLines (s : Service) (m : Method) : (caseLines s m).length = 3 := by
  rw [caseLines, List.length_map]
  rfl

private theorem length_dispatchEndLines (s : Service) : (dispatchEndLines s).length = 5 := by
  rw [dispatchEndLines, List.length_map]
  rfl

private theorem length_procedureLines (s : Service) (m : Method) :
    (procedureLines s m).length = 38 := by
  rw [procedureLines, List.length_map]
  rfl

theorem length_procedureLines_append_blank (s : Service) (m : Method) :
    (procedureLines s m ++ [""]).length = 39 := by
  rw [List.length_append, length_procedureLines, List.length_singleton]

theorem length_harnessLines {s : Service} (h : s.methods ≠ []) :
    (harnessLines s).length = 60 + 42 * s.methods.length := by
  have hlength := congrArg List.length (harnessLines_append_blank h)
  simp only [List.length_append, List.length_singleton, length_openingLines,
    length_dispatchEndLines, length_flatMap_of_length (length_caseLines s),
    length_flatMap_of_length (length_procedureLines_append_blank s)] at hlength
  omega

private theorem procedureLines_inj {s t : Service} {m n : Method}
    (h : procedureLines s m = procedureLines t n) : m = n := by
  have hname := congrArg (·[9]?) h
  have hrequest := congrArg (·[5]?) h
  have hresponse := congrArg (·[26]?) h
  simp only [procedureLines, List.getElem?_map, procedure, procedureCall, procedureErrors,
    procedureResponse, List.cons_append, List.nil_append, List.getElem?_cons_succ,
    List.getElem?_cons_zero, Option.map_some, Option.some.injEq] at hname hrequest hresponse
  have hname : m.name = n.name :=
    fill_slot_inj (methodValue s m) (methodValue t n) [_] .name [_] rfl rfl hname
  have hrequest : m.request = n.request :=
    fill_slot_inj (methodValue s m) (methodValue t n) [_] .request [_] rfl rfl hrequest
  have hresponse : m.response = n.response :=
    fill_slot_inj (methodValue s m) (methodValue t n) [_] .response [_] rfl rfl hresponse
  cases m
  cases n
  simp_all

private theorem openingLines_inj {s t : Service} (h : openingLines s = openingLines t) :
    s.package = t.package ∧ s.name = t.name := by
  have hpackage := congrArg (·[2]?) h
  have hname := congrArg (·[16]?) h
  simp only [openingLines, List.getElem?_map, opening, preamble, runnerType, List.cons_append,
    List.nil_append, List.getElem?_cons_succ, List.getElem?_cons_zero, Option.map_some,
    Option.some.injEq] at hpackage hname
  exact ⟨fill_slot_inj (fileValue s) (fileValue t) [_] .package [] rfl rfl hpackage,
    fill_slot_inj (fileValue s) (fileValue t) [_] .service [_] rfl rfl hname⟩

/-! ## The whole text -/

theorem harnessLines_inj {s t : Service} (hs : s.methods ≠ []) (ht : t.methods ≠ [])
    (h : harnessLines s = harnessLines t) : s = t := by
  have hblank : harnessLines s ++ [""] = harnessLines t ++ [""] := by rw [h]
  rw [harnessLines_append_blank hs, harnessLines_append_blank ht] at hblank
  have hmethods : s.methods.length = t.methods.length := by
    have hlength := congrArg List.length h
    rw [length_harnessLines hs, length_harnessLines ht] at hlength
    omega
  obtain ⟨hfront, hprocedures⟩ := List.append_inj hblank (by
    simp only [List.length_append, length_openingLines, length_dispatchEndLines,
      length_flatMap_of_length (length_caseLines s), length_flatMap_of_length (length_caseLines t),
      hmethods])
  rw [List.append_assoc, List.append_assoc] at hfront
  obtain ⟨hopening, -⟩ := List.append_inj hfront (by
    rw [length_openingLines, length_openingLines])
  obtain ⟨hpackage, hname⟩ := openingLines_inj hopening
  have hall := forall₂_of_flatMap_eq (length_procedureLines_append_blank s)
    (length_procedureLines_append_blank t) hmethods hprocedures
  have heq : s.methods = t.methods := by
    rw [← List.forall₂_eq_eq_eq]
    exact hall.imp fun m n hmn => procedureLines_inj (List.append_cancel_right hmn)
  cases s
  cases t
  simp_all

theorem harnessText_inj {s t : Service} (hs : Renderable s) (ht : Renderable t)
    (h : harnessText s = harnessText t) : s = t := by
  apply harnessLines_inj hs.methods_ne_nil ht.methods_ne_nil
  rw [← lines_harnessText hs, ← lines_harnessText ht, h]

/--
Rendering loses nothing: accepted descriptions of one text are equal.  So a
check of a file that holds the harness of one description against the harness of
another one passes only if the two are equal, and reports drift otherwise.
-/
theorem text_determines_service {s t : Service} {text text' : String}
    (hs : generate s = .ok text) (ht : generate t = .ok text') :
    (text = text' → s = t) ∧
      ∀ (fs : FileSystem) (p : Path), fs.readBytes p = .ok (Utf8.ofString text) →
        (fs.checkOutput p text' = .ok () ↔ s = t) ∧
        (s ≠ t → fs.checkOutput p text' = .error (.drift (Path.display p))) := by
  obtain ⟨hrenderable, rfl⟩ := generate_eq_ok_iff.mp hs
  obtain ⟨hrenderable', rfl⟩ := generate_eq_ok_iff.mp ht
  have hinj : harnessText s = harnessText t ↔ s = t :=
    ⟨harnessText_inj hrenderable hrenderable', fun h => h ▸ rfl⟩
  refine ⟨hinj.mp, fun fs p hheld => ?_⟩
  rw [FileSystem.checkOutput_of_held hheld]
  constructor
  · rw [← hinj]
    by_cases htext : harnessText s = harnessText t
    · simp [htext]
    · simp [htext]
  · intro hne
    rw [if_neg fun htext => hne (hinj.mp htext)]

/-- A change of one request type is noticed. -/
theorem text_determines_service_renamed_request :
    let old : Service := ⟨"pb", "Echo", [⟨"Say", "Ask", "Reply"⟩]⟩
    let new : Service := ⟨"pb", "Echo", [⟨"Say", "Asked", "Reply"⟩]⟩
    let p : Path := [104]
    let fs : FileSystem :=
      { entries := [([p], .file (Utf8.ofString (harnessText old)) 0o644)], workingDirectory := [] }
    generate old = .ok (harnessText old) ∧ generate new = .ok (harnessText new) ∧
      fs.readBytes p = .ok (Utf8.ofString (harnessText old)) ∧
      fs.checkOutput p (harnessText new) = .error (.drift (Path.display p)) := by
  intro old new p fs
  have hold : generate old = .ok (harnessText old) :=
    generate_eq_ok_iff.mpr ⟨by decide +kernel, rfl⟩
  have hnew : generate new = .ok (harnessText new) :=
    generate_eq_ok_iff.mpr ⟨by decide +kernel, rfl⟩
  have hheld : fs.readBytes p = .ok (Utf8.ofString (harnessText old)) := rfl
  exact ⟨hold, hnew, hheld,
    ((text_determines_service hold hnew).2 fs p hheld).2 (by decide +kernel)⟩

end ServiceHarness.Harness
