import Mathlib.Data.List.Basic
import ServiceHarness.Storage.Path

/-!
# Segments of a path

A path is the join of its segments, and every list of segments without slashes
is the segments of its join.  So what a path starts and ends with can be read
off its first and last segment.
-/

namespace ServiceHarness.Storage.Path

/-! ## Splitting and joining -/

private theorem join_cons_cons (s t : Name) (segments : List Name) :
    join (s :: t :: segments) = s ++ slash :: join (t :: segments) := by
  simp [join, List.intercalate]

theorem join_singleton (s : Name) : join [s] = s := by
  simp [join, List.intercalate]

private theorem splitReversed_segment {s : Name} (hs : slash ∉ s) (current : Name)
    (done : List Name) (p : Path) : splitReversed current done (s ++ p) =
      splitReversed (s.reverse ++ current) done p := by
  induction s generalizing current with
  | nil => rfl
  | cons byte s ih =>
      have hbyte : byte ≠ slash := fun h => hs (h ▸ List.mem_cons_self)
      rw [List.cons_append, splitReversed, if_neg hbyte,
        ih (fun h => hs (List.mem_cons_of_mem _ h))]
      simp

private theorem splitReversed_join {segments : List Name} (hne : segments ≠ [])
    (hslash : ∀ s ∈ segments, slash ∉ s) (done : List Name) :
    splitReversed [] done (join segments) = segments.reverse ++ done := by
  induction segments generalizing done with
  | nil => exact absurd rfl hne
  | cons s segments ih =>
      have hs := hslash s List.mem_cons_self
      cases segments with
      | nil =>
          rw [join_singleton, ← List.append_nil s, splitReversed_segment hs]
          simp [splitReversed]
      | cons t segments =>
          rw [join_cons_cons, splitReversed_segment hs, splitReversed, if_pos rfl,
            ih (by simp) (fun u hu => hslash u (List.mem_cons_of_mem _ hu))]
          simp

theorem reversedSegments_join {segments : List Name} (hne : segments ≠ [])
    (hslash : ∀ s ∈ segments, slash ∉ s) :
    reversedSegments (join segments) = segments.reverse := by
  rw [reversedSegments, splitReversed_join hne hslash, List.append_nil]

theorem exists_segments (p : Path) :
    ∃ segments, segments ≠ [] ∧ (∀ s ∈ segments, slash ∉ s) ∧ join segments = p := by
  induction p with
  | nil => exact ⟨[[]], by simp, by simp, rfl⟩
  | cons byte p ih =>
      obtain ⟨segments, hne, hslash, rfl⟩ := ih
      cases segments with
      | nil => exact absurd rfl hne
      | cons s segments =>
          by_cases hbyte : byte = slash
          · refine ⟨[] :: s :: segments, by simp, ?_, ?_⟩
            · simpa using hslash
            · rw [join_cons_cons, hbyte, List.nil_append]
          · refine ⟨(byte :: s) :: segments, by simp, ?_, ?_⟩
            · simpa [Ne.symm hbyte] using hslash
            · cases segments with
              | nil => rw [join_singleton, join_singleton]
              | cons t segments => rw [join_cons_cons, join_cons_cons, List.cons_append]

theorem join_reverse_reversedSegments (p : Path) : join (reversedSegments p).reverse = p := by
  obtain ⟨segments, hne, hslash, rfl⟩ := exists_segments p
  rw [reversedSegments_join hne hslash, List.reverse_reverse]

theorem reversedSegments_ne_nil (p : Path) : reversedSegments p ≠ [] := by
  obtain ⟨segments, hne, hslash, rfl⟩ := exists_segments p
  rw [reversedSegments_join hne hslash]
  simpa using hne

theorem slash_not_mem {p : Path} {s : Name} (h : s ∈ reversedSegments p) : slash ∉ s := by
  obtain ⟨segments, hne, hslash, rfl⟩ := exists_segments p
  rw [reversedSegments_join hne hslash] at h
  exact hslash s (by simpa using h)

/-! ## The two ends -/

private theorem isAbsolute_join (s : Name) (segments : List Name) (hs : slash ∉ s) :
    isAbsolute (join (s :: segments)) = true ↔ s = [] ∧ segments ≠ [] := by
  cases segments with
  | nil =>
      rw [join_singleton]
      cases s with
      | nil => simp [isAbsolute]
      | cons byte s =>
          have hbyte : byte ≠ slash := fun h => hs (h ▸ List.mem_cons_self)
          simp [isAbsolute, hbyte]
  | cons t segments =>
      rw [join_cons_cons]
      cases s with
      | nil => simp [isAbsolute]
      | cons byte s =>
          have hbyte : byte ≠ slash := fun h => hs (h ▸ List.mem_cons_self)
          simp [isAbsolute, hbyte]

theorem join_append_singleton {segments : List Name} (hne : segments ≠ []) (s : Name) :
    join (segments ++ [s]) = join segments ++ slash :: s := by
  induction segments with
  | nil => exact absurd rfl hne
  | cons t segments ih =>
      cases segments with
      | nil => rw [List.cons_append, List.nil_append, join_cons_cons, join_singleton, join_singleton]
      | cons u segments =>
          have hrest := ih (by simp)
          rw [List.cons_append] at hrest
          rw [List.cons_append, List.cons_append, join_cons_cons, join_cons_cons, hrest]
          simp

private theorem getLast?_join_append (segments : List Name) {s : Name} (hs : slash ∉ s) :
    (join (segments ++ [s])).getLast? = some slash ↔ s = [] ∧ segments ≠ [] := by
  have hlast : s.getLast? ≠ some slash := fun h => hs (List.mem_of_getLast? h)
  by_cases hne : segments = []
  · simp [hne, join_singleton, hlast]
  · rw [join_append_singleton hne]
    cases s with
    | nil => simp [hne]
    | cons byte s => simpa [List.getLast?_append, List.getLast?_cons_cons] using hlast

/-! ## The directory of a file -/

def directory (p : Path) : Path :=
  match parent? p with
  | none => dotSegment
  | some parent => if parent = [] then dotSegment else parent

def parents (p : Path) : List Path :=
  match parent? p with
  | none => []
  | some parent => ancestors parent

theorem exists_ancestors_eq_cons (p : Path) : ∃ parents, ancestors p = p :: parents := by
  rw [ancestors, ancestorsUpTo]
  cases parent? p with
  | none => exact ⟨[], rfl⟩
  | some parent => exact ⟨_, rfl⟩

theorem dropSilent_spec (segments : List Name) :
    ∃ silent, segments = silent ++ dropSilent segments ∧
      ∀ s ∈ silent, s = [] ∨ s = dotSegment := by
  fun_induction dropSilent segments with
  | case1 => exact ⟨[], rfl, by simp⟩
  | case2 => exact ⟨[[]], rfl, by simp⟩
  | case3 segment h => exact ⟨[], rfl, by simp⟩
  | case4 segment rest hrest h ih =>
      obtain ⟨silent, hsilent, hall⟩ := ih
      refine ⟨segment :: silent, ?_, ?_⟩
      · rw [List.cons_append, ← hsilent]
      · simpa using ⟨h, hall⟩
  | case5 segment rest hrest h => exact ⟨[], rfl, by simp⟩

theorem ne_nil_of_dropSilent_eq_cons {segments rest : List Name} {s : Name}
    (h : dropSilent segments = s :: rest) : s ≠ [] := by
  fun_induction dropSilent segments with
  | case1 => cases h
  | case2 => cases h
  | case3 segment hne => cases h; exact hne
  | case4 segment others hothers hsilent ih => exact ih h
  | case5 segment others hothers hne =>
      cases h
      exact fun h => hne (.inl h)

theorem steps_join {segments : List Name} {s : Name}
    (hslash : ∀ t ∈ segments ++ [s], slash ∉ t) (hs : s ≠ []) :
    steps (join (segments ++ [s])) = (segments ++ [s]).filter (· ≠ []) := by
  have hlast : (join (segments ++ [s])).getLast? ≠ some slash := by
    rw [Ne, getLast?_join_append segments (hslash s (by simp))]
    exact fun h => hs h.1
  rw [steps, if_neg hlast, reversedSegments_join (by simp) hslash, List.reverse_reverse]

private theorem segments_of_names {p : Path} {name : Name} {before : List Name}
    (hnames : (reversedSegments p).filter (· ≠ []) = name :: before)
    (hslash : p.getLast? ≠ some slash) :
    ∃ rest, reversedSegments p = name :: rest ∧ rest.filter (· ≠ []) = before := by
  have hp := join_reverse_reversedSegments p
  have hmem : ∀ s ∈ reversedSegments p, slash ∉ s := fun s hs => slash_not_mem hs
  cases hsegments : reversedSegments p with
  | nil => exact absurd hsegments (reversedSegments_ne_nil p)
  | cons s rest =>
      rw [hsegments] at hnames hp hmem
      rw [List.reverse_cons] at hp
      have hs : s ≠ [] := by
        rintro rfl
        have hrest : rest = [] := by
          by_contra hrest
          refine hslash ?_
          rw [← hp]
          exact (getLast?_join_append rest.reverse List.not_mem_nil).mpr ⟨rfl, by simpa using hrest⟩
        rw [hrest] at hnames
        cases hnames
      rw [List.filter_cons_of_pos (by simpa using hs)] at hnames
      cases hnames
      exact ⟨rest, rfl, rfl⟩

section Target

variable {p : Path} {name : Name} {rest : List Name}

theorem dropSilent_name (hname : name ≠ []) (hdots : ¬(name = dotSegment ∨ name = dotDotSegment)) :
    dropSilent (name :: rest) = name :: rest := by
  cases rest with
  | nil => rw [dropSilent, if_neg hname]
  | cons t rest =>
      rw [not_or] at hdots
      exact (dropSilent.eq_3 name (t :: rest) (by simp)).trans (if_neg (by simp [hname, hdots.1]))

private theorem fileName?_of_segments (h : reversedSegments p = name :: rest) (hname : name ≠ [])
    (hdots : ¬(name = dotSegment ∨ name = dotDotSegment)) : fileName? p = some name := by
  rw [fileName?, h, dropSilent_name hname hdots]
  exact if_neg hdots

theorem isAbsolute_iff_of_segments (h : reversedSegments p = name :: rest) :
    isAbsolute p = true ↔ rest.getLast? = some [] := by
  have hp : join (rest.reverse ++ [name]) = p := by
    rw [← List.reverse_cons, ← h, join_reverse_reversedSegments]
  have hslash : ∀ s ∈ name :: rest, slash ∉ s := fun s hs => slash_not_mem (h ▸ hs)
  rw [← hp, List.getLast?_eq_head?_reverse]
  cases hrest : rest.reverse with
  | nil =>
      rw [List.nil_append, isAbsolute_join name [] (hslash name List.mem_cons_self)]
      simp
  | cons first others =>
      have hfirst : first ∈ rest := by
        rw [← List.mem_reverse, hrest]
        exact List.mem_cons_self
      rw [List.cons_append, isAbsolute_join _ _ (hslash first (List.mem_cons_of_mem _ hfirst))]
      simp

private theorem directory_of_silent (h : reversedSegments p = name :: rest) (hname : name ≠ [])
    (hdots : ¬(name = dotSegment ∨ name = dotDotSegment)) (hdrop : dropSilent rest = []) :
    directory p = if isAbsolute p then [slash] else dotSegment := by
  have hparent : parent? p = some (if isAbsolute p then [slash] else []) := by
    simp only [parent?, h, dropSilent_name hname hdots, hdrop]
  rw [directory, hparent]
  cases isAbsolute p <;> rfl

private theorem directory_of_segments {t : Name} {others : List Name}
    (h : reversedSegments p = name :: rest) (hname : name ≠ [])
    (hdots : ¬(name = dotSegment ∨ name = dotDotSegment))
    (hdrop : dropSilent rest = t :: others) (hslash : ∀ s ∈ others.reverse ++ [t], slash ∉ s) :
    directory p = join (others.reverse ++ [t]) := by
  have hparent : parent? p = some (join (others.reverse ++ [t])) := by
    simp only [parent?, h, dropSilent_name hname hdots, hdrop, List.reverse_cons]
  have hne : join (others.reverse ++ [t]) ≠ [] := by
    intro hnil
    have hsegments := reversedSegments_join (by simp) hslash
    rw [hnil, List.reverse_append, List.reverse_reverse] at hsegments
    cases hsegments
    exact ne_nil_of_dropSilent_eq_cons hdrop rfl
  simp only [directory, hparent, if_neg hne]

private theorem directory_names (h : reversedSegments p = name :: rest) (hname : name ≠ [])
    (hdots : ¬(name = dotSegment ∨ name = dotDotSegment)) :
    isAbsolute (directory p) = isAbsolute p ∧
      ∃ core dots dots',
        (rest.filter (· ≠ [])).reverse = core ++ dots ∧ steps (directory p) = core ++ dots' ∧
        (∀ d ∈ dots, d = dotSegment) ∧ ∀ d ∈ dots', d = dotSegment := by
  obtain ⟨silent, hsplit, hsilent⟩ := dropSilent_spec rest
  have hdotted : ∀ d ∈ (silent.filter (· ≠ [])).reverse, d = dotSegment := by
    intro d hd
    rw [List.mem_reverse, List.mem_filter] at hd
    exact (hsilent d hd.1).resolve_left (by simpa using hd.2)
  have hmem : ∀ s ∈ rest, slash ∉ s := fun s hs => slash_not_mem (p := p) (by simp [h, hs])
  cases hdrop : dropSilent rest with
  | nil =>
      rw [hdrop, List.append_nil] at hsplit
      rw [directory_of_silent h hname hdots hdrop]
      refine ⟨?_, [], _, [dotSegment], rfl, ?_, hsplit ▸ hdotted, by simp⟩
      · cases isAbsolute p <;> rfl
      · cases isAbsolute p <;> rfl
  | cons t others =>
      have ht := ne_nil_of_dropSilent_eq_cons hdrop
      rw [hdrop] at hsplit
      have hslash : ∀ s ∈ others.reverse ++ [t], slash ∉ s := by
        intro s hs
        refine hmem s ?_
        rw [hsplit]
        simp at hs ⊢
        tauto
      have hdirectory := directory_of_segments h hname hdots hdrop hslash
      have hsegments := reversedSegments_join (by simp) hslash
      rw [List.reverse_append, List.reverse_reverse] at hsegments
      refine ⟨?_, (others.reverse ++ [t]).filter (· ≠ []), _, [], ?_, ?_, hdotted, by simp⟩
      · rw [Bool.eq_iff_iff, hdirectory, isAbsolute_iff_of_segments hsegments,
          isAbsolute_iff_of_segments h, hsplit]
        cases others with
        | nil => simp [List.getLast?_append, ht]
        | cons u others => simp [List.getLast?_append]
      · rw [hsplit, List.filter_append, List.reverse_append, ← List.filter_reverse,
          List.reverse_cons]
      · rw [hdirectory, steps_join hslash ht, List.append_nil]

/-- Where a path's file is and where its directory is differ by single dots, if
the path says which file that is. -/
theorem directory_steps {before : List Name}
    (hnames : (reversedSegments p).filter (· ≠ []) = name :: before)
    (hslash : p.getLast? ≠ some slash) (hdots : ¬(name = dotSegment ∨ name = dotDotSegment)) :
    fileName? p = some name ∧ isAbsolute (directory p) = isAbsolute p ∧
      ∃ core dots dots', before.reverse = core ++ dots ∧ steps (directory p) = core ++ dots' ∧
        (∀ d ∈ dots, d = dotSegment) ∧ ∀ d ∈ dots', d = dotSegment := by
  have hname : name ≠ [] := by
    have hmem : name ∈ (reversedSegments p).filter (· ≠ []) := by
      rw [hnames]
      exact List.mem_cons_self
    simpa using (List.mem_filter.mp hmem).2
  obtain ⟨rest, hsegments, hrest⟩ := segments_of_names hnames hslash
  rw [← hrest]
  exact ⟨fileName?_of_segments hsegments hname hdots, directory_names hsegments hname hdots⟩

end Target

end ServiceHarness.Storage.Path
