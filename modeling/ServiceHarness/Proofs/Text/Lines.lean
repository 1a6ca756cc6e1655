import Mathlib.Data.List.Basic
import ServiceHarness.Harness.Template

/-!
# Lines of a text

A text is read as lines: a newline ends a line, and what follows the last
newline is a line if it is not empty.  Joining lines that hold no newline and
reading them again gives the same lines.
-/

namespace ServiceHarness.Text

def linesFrom (begun : List Char) : List Char → List (List Char)
  | [] => if begun = [] then [] else [begun]
  | c :: rest =>
      if c = '\n' then begun :: linesFrom [] rest else linesFrom (begun ++ [c]) rest

def lines (text : String) : List String :=
  (linesFrom [] text.toList).map String.ofList

private theorem linesFrom_append (begun front back : List Char) :
    linesFrom begun (front ++ '\n' :: back) =
      linesFrom begun (front ++ ['\n']) ++ linesFrom [] back := by
  induction front generalizing begun with
  | nil => simp [linesFrom]
  | cons c front ih =>
      simp only [List.cons_append, linesFrom]
      split
      · rw [ih, List.cons_append]
      · exact ih _

private theorem linesFrom_line (begun line : List Char) (h : '\n' ∉ line) :
    linesFrom begun (line ++ ['\n']) = [begun ++ line] := by
  induction line generalizing begun with
  | nil => simp [linesFrom]
  | cons c line ih =>
      obtain ⟨hc, hline⟩ := List.ne_and_not_mem_of_not_mem_cons h
      rw [List.cons_append, linesFrom, if_neg (Ne.symm hc), ih _ hline, List.append_assoc,
        List.singleton_append]

theorem length_linesFrom (begun chars : List Char) :
    (linesFrom begun (chars ++ ['\n'])).length = chars.count '\n' + 1 := by
  induction chars generalizing begun with
  | nil => simp [linesFrom]
  | cons c chars ih =>
      by_cases hc : c = '\n'
      · simp [linesFrom, hc, ih]
      · simp [linesFrom, hc, ih]

theorem lines_append (text rest : String) :
    lines (text ++ "\n" ++ rest) = lines (text ++ "\n") ++ lines rest := by
  have hchars : (text ++ "\n" ++ rest).toList = text.toList ++ '\n' :: rest.toList := by
    simp
  rw [lines, hchars, linesFrom_append, List.map_append, lines, lines, String.toList_append]
  rfl

theorem lines_line {text : String} (h : '\n' ∉ text.toList) : lines (text ++ "\n") = [text] := by
  have hlines := linesFrom_line [] _ h
  simp [lines, hlines]

theorem length_lines (text : String) :
    (lines (text ++ "\n")).length = text.toList.count '\n' + 1 := by
  have hlength := length_linesFrom [] text.toList
  simpa [lines] using hlength

end ServiceHarness.Text

namespace ServiceHarness.Harness

open ServiceHarness.Text

theorem toList_joinLines (ls : List String) :
    (joinLines ls).toList = (ls.map String.toList).flatMap (· ++ ['\n']) := by
  simp [joinLines, String.toList_join, List.flatMap_map, String.toList_append]

theorem joinLines_append (a b : List String) : joinLines (a ++ b) = joinLines a ++ joinLines b := by
  apply String.toList_inj.mp
  simp [toList_joinLines, String.toList_append]

theorem count_newline_joinLines {ls : List String} (h : ∀ l ∈ ls, '\n' ∉ l.toList) :
    (joinLines ls).toList.count '\n' = ls.length := by
  rw [toList_joinLines, List.flatMap_map]
  induction ls with
  | nil => rfl
  | cons l ls ih =>
      have hl := List.count_eq_zero.mpr (h l List.mem_cons_self)
      have hls := ih fun l' hl' => h l' (List.mem_cons_of_mem l hl')
      simp [hl, hls]

theorem lines_joinLines_eq_flatMap (ls : List String) :
    lines (joinLines ls) = ls.flatMap fun l => lines (l ++ "\n") := by
  induction ls with
  | nil => rfl
  | cons l ls ih =>
      have hcons : joinLines (l :: ls) = l ++ "\n" ++ joinLines ls := by simp [joinLines]
      rw [hcons, lines_append, ih, List.flatMap_cons]

theorem lines_joinLines (ls : List String) (h : ∀ l ∈ ls, '\n' ∉ l.toList) :
    lines (joinLines ls) = ls := by
  rw [lines_joinLines_eq_flatMap, List.flatMap_congr fun l hl => lines_line (h l hl)]
  exact List.flatMap_singleton' ls

end ServiceHarness.Harness
