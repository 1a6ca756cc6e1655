import ServiceHarness.Proofs.Storage.Segments

/-!
# The last component of a path

What a path ends in once the slashes and single dots at its end are dropped.  The name
of a file is this component, unless it consists of dots only.
-/

namespace ServiceHarness.Storage.Path

/-- Rows of `/` and `/.`, which may be dropped off the end of a path. -/
inductive Silent : Path → Prop
  | nil : Silent []
  | slash {tail : Path} : Silent tail → Silent (slash :: tail)
  | dot {tail : Path} : Silent tail → Silent (slash :: dot :: tail)

/-- What is left of a path when every `/` and `/.` is dropped off its end. -/
def Leaves (p kept : Path) : Prop :=
  ∃ tail, Silent tail ∧ p = kept ++ tail ∧ ¬[slash] <:+ kept ∧ ¬[slash, dot] <:+ kept

/-- The last component of what is left of a path. -/
def EndsIn (p : Path) (name : Name) : Prop :=
  ∃ start, Leaves p (start ++ name) ∧ name ≠ [] ∧ slash ∉ name ∧ (start = [] ∨ [slash] <:+ start)

/-! ## Segments of longer paths -/

private theorem reversedSegments_append {segment : Name} (hsegment : slash ∉ segment) (p : Path) :
    reversedSegments (p ++ slash :: segment) = segment :: reversedSegments p := by
  obtain ⟨segments, hne, hslash, rfl⟩ := exists_segments p
  rw [← join_append_singleton hne, reversedSegments_join (by simp),
    reversedSegments_join hne hslash, List.reverse_append]
  · rfl
  · intro s hs
    rcases List.mem_append.mp hs with hs | hs
    · exact hslash s hs
    · rw [List.mem_singleton.mp hs]
      exact hsegment

private theorem reversedSegments_of_not_mem {segment : Name} (hsegment : slash ∉ segment) :
    reversedSegments segment = [segment] := by
  have hjoin : reversedSegments (join [segment]) = [segment].reverse :=
    reversedSegments_join (by simp) (by simpa using hsegment)
  rwa [join_singleton] at hjoin

private theorem dropSilent_append {segment : Name} (h : segment = [] ∨ segment = dotSegment)
    (p : Path) :
    dropSilent (segment :: reversedSegments p) = dropSilent (reversedSegments p) := by
  cases hsegments : reversedSegments p with
  | nil => exact absurd hsegments (reversedSegments_ne_nil p)
  | cons next rest =>
      rw [dropSilent, if_pos h]
      simp

theorem dropSilent_append_silent {tail : Path} (h : Silent tail) (p : Path) :
    dropSilent (reversedSegments (p ++ tail)) = dropSilent (reversedSegments p) := by
  induction h generalizing p with
  | nil => rw [List.append_nil]
  | slash _ ih =>
      rw [List.append_cons, ih, reversedSegments_append List.not_mem_nil,
        dropSilent_append (.inl rfl)]
  | dot _ ih =>
      rw [List.append_cons, List.append_cons, ih, List.append_assoc]
      have hdot : reversedSegments (p ++ slash :: dotSegment) = dotSegment :: reversedSegments p :=
        reversedSegments_append (by decide) p
      exact (congrArg dropSilent hdot).trans (dropSilent_append (.inr rfl) p)

/-! ## The last component -/

private theorem reversedSegments_of_start {start : Path} {name : Name} (hname : slash ∉ name)
    (hstart : start = [] ∨ [slash] <:+ start) :
    ∃ rest, reversedSegments (start ++ name) = name :: rest ∧ (rest = [] ↔ start = []) := by
  rcases hstart with rfl | ⟨front, rfl⟩
  · exact ⟨[], reversedSegments_of_not_mem hname, by simp⟩
  · refine ⟨reversedSegments front, ?_, by simp [reversedSegments_ne_nil]⟩
    rw [List.append_assoc]
    exact reversedSegments_append hname front

theorem EndsIn.head?_dropSilent {p : Path} {name : Name} (h : EndsIn p name) :
    (dropSilent (reversedSegments p)).head? = some name := by
  obtain ⟨start, ⟨tail, htail, rfl, -, hdot⟩, hne, hslash, hstart⟩ := h
  obtain ⟨rest, hsegments, hrest⟩ := reversedSegments_of_start hslash hstart
  rw [dropSilent_append_silent htail, hsegments]
  cases rest with
  | nil => rw [dropSilent, if_neg hne, List.head?_cons]
  | cons next rest =>
      have hname : name ≠ dotSegment := by
        rintro rfl
        rcases hstart with hnil | ⟨front, rfl⟩
        · exact absurd (hrest.mpr hnil) (by simp)
        · exact hdot ⟨front, by simp [dotSegment]⟩
      rw [dropSilent, if_neg (by simp [hne, hname]), List.head?_cons]
      simp

private theorem not_suffix_of_not_mem {start name : Path} (hne : name ≠ [])
    (hslash : slash ∉ name) :
    ¬[slash] <:+ start ++ name := by
  rintro ⟨front, heq⟩
  have hlast : (start ++ name).getLast? = some slash := by
    rw [← heq, List.getLast?_concat]
  rw [List.getLast?_append_of_ne_nil _ hne] at hlast
  exact hslash (List.mem_of_getLast? hlast)

theorem leaves_of_name {start name tail : Path} (htail : Silent tail) (hne : name ≠ [])
    (hslash : slash ∉ name) (hdot : name = dotSegment → start = []) :
    Leaves (start ++ name ++ tail) (start ++ name) := by
  refine ⟨tail, htail, rfl, not_suffix_of_not_mem hne hslash, ?_⟩
  rintro ⟨front, heq⟩
  obtain ⟨stem, last, rfl⟩ := (List.eq_nil_or_concat' name).resolve_left hne
  have hsplit : front ++ [slash] ++ [dot] = start ++ stem ++ [last] := by
    simpa using heq
  obtain ⟨hfront, hlast⟩ := List.append_inj' hsplit rfl
  obtain rfl : dot = last := List.head_eq_of_cons_eq hlast
  by_cases hstem : stem = []
  · subst hstem
    rw [hdot rfl] at hfront
    simp at hfront
  · exact not_suffix_of_not_mem hstem (fun h => hslash (List.mem_append_left _ h)) ⟨front, hfront⟩

private theorem dropSilent_eq_cons {segments rest : List Name} {s : Name}
    (h : dropSilent segments = s :: rest) : s = dotSegment → rest = [] := by
  fun_induction dropSilent segments with
  | case1 => cases h
  | case2 => cases h
  | case3 => cases h; exact fun _ => rfl
  | case4 segment others hothers hsilent ih => exact ih h
  | case5 segment others hothers hne =>
      cases h
      exact fun heq => absurd (.inr heq) hne

private theorem join_append {segments : List Name} (hne : segments ≠ []) (more : List Name) :
    join (segments ++ more) = join segments ++ more.flatMap (slash :: ·) := by
  induction more generalizing segments with
  | nil => simp
  | cons s more ih =>
      rw [List.append_cons, ih (by simp), join_append_singleton hne, List.append_assoc]
      rfl

private theorem silent_flatMap {segments : List Name}
    (h : ∀ s ∈ segments, s = [] ∨ s = dotSegment) :
    Silent (segments.flatMap (slash :: ·)) := by
  induction segments with
  | nil => exact .nil
  | cons s segments ih =>
      obtain ⟨hs, hsegments⟩ := List.forall_mem_cons.mp h
      rcases hs with rfl | rfl
      · exact .slash (ih hsegments)
      · exact .dot (ih hsegments)

private theorem endsIn_of_dropSilent {p : Path} {name : Name} {rest : List Name}
    (h : dropSilent (reversedSegments p) = name :: rest) : EndsIn p name := by
  obtain ⟨silent, hsplit, hsilent⟩ := dropSilent_spec (reversedSegments p)
  rw [h] at hsplit
  have hslash : slash ∉ name := slash_not_mem (p := p) (by simp [hsplit])
  have hne := ne_nil_of_dropSilent_eq_cons h
  have htail : Silent (silent.reverse.flatMap (slash :: ·)) :=
    silent_flatMap fun s hs => hsilent s (List.mem_reverse.mp hs)
  have hp : p = join (rest.reverse ++ [name]) ++ silent.reverse.flatMap (slash :: ·) := by
    rw [← join_append (by simp), ← join_reverse_reversedSegments p, hsplit]
    simp
  cases hrest : rest.reverse with
  | nil =>
      rw [hrest, List.nil_append, join_singleton] at hp
      exact ⟨[], hp ▸ leaves_of_name htail hne hslash fun _ => rfl, hne, hslash, .inl rfl⟩
  | cons first others =>
      have hdot : name ≠ dotSegment := by
        intro heq
        rw [dropSilent_eq_cons h heq] at hrest
        cases hrest
      rw [hrest, join_append_singleton (by simp), List.append_cons] at hp
      exact ⟨_, hp ▸ leaves_of_name htail hne hslash fun heq => absurd heq hdot, hne, hslash,
        .inr (List.suffix_append _ _)⟩

theorem endsIn_iff {p : Path} {name : Name} :
    EndsIn p name ↔ (dropSilent (reversedSegments p)).head? = some name := by
  refine ⟨EndsIn.head?_dropSilent, fun h => ?_⟩
  obtain ⟨rest, hdrop⟩ := List.head?_eq_some_iff.mp h
  exact endsIn_of_dropSilent hdrop

theorem EndsIn.prepend {p : Path} {name : Name} (h : EndsIn p name) (hname : name ≠ dotSegment)
    (directory : Path) : EndsIn (directory ++ slash :: p) name := by
  obtain ⟨start, ⟨tail, htail, rfl, -, -⟩, hne, hslash, hstart⟩ := h
  have hleaves : Leaves (directory ++ slash :: start ++ name ++ tail)
      (directory ++ slash :: start ++ name) :=
    leaves_of_name htail hne hslash fun heq => absurd heq hname
  refine ⟨directory ++ slash :: start, by simpa using hleaves, hne, hslash, .inr ?_⟩
  rcases hstart with rfl | hstart
  · exact List.suffix_append _ _
  · exact (hstart.trans (List.suffix_cons _ _)).trans (List.suffix_append _ _)

/-! ## Names of files -/

theorem fileName?_eq_filter (p : Path) :
    fileName? p = (dropSilent (reversedSegments p)).head?.filter
      fun name => ¬(name = dotSegment ∨ name = dotDotSegment) := by
  rw [fileName?]
  cases dropSilent (reversedSegments p) with
  | nil => rfl
  | cons name rest =>
      rw [List.head?_cons, Option.filter_some]
      by_cases hdots : name = dotSegment ∨ name = dotDotSegment
      · simp only [hdots, not_true_eq_false, decide_false, Bool.false_eq_true, if_true, if_false]
      · simp only [hdots, not_false_eq_true, decide_true, if_true, if_false]

theorem fileName?_eq_some_iff {p : Path} {name : Name} :
    fileName? p = some name ↔ EndsIn p name ∧ name ≠ dotSegment ∧ name ≠ dotDotSegment := by
  rw [fileName?_eq_filter, Option.filter_eq_some_iff, endsIn_iff, decide_eq_true_iff, not_or]

theorem EndsIn.fileName?_eq {p q : Path} {name : Name} (hp : EndsIn p name) (hq : EndsIn q name) :
    fileName? p = fileName? q := by
  rw [fileName?_eq_filter, fileName?_eq_filter, hp.head?_dropSilent, hq.head?_dropSilent]

theorem fileName?_append_silent {tail : Path} (h : Silent tail) (p : Path) :
    fileName? (p ++ tail) = fileName? p := by
  rw [fileName?, fileName?, dropSilent_append_silent h]

theorem extension?_eq_some_iff {name ext : Name} :
    extension? name = some ext ↔ ∃ stem, stem ≠ [] ∧ name = stem ++ dot :: ext ∧ dot ∉ ext := by
  rw [extension?]
  constructor
  · intro h
    obtain ⟨hlength, hext⟩ := Option.ite_none_right_eq_some.mp h
    have hsplit := List.takeWhile_append_dropWhile (p := (· ≠ dot)) (l := name.reverse)
    have htail : dot ∉ name.reverse.takeWhile (· ≠ dot) := fun hmem => by
      simpa using List.all_eq_true.mp List.all_takeWhile _ hmem
    have hfirst := List.head?_dropWhile_not (· ≠ dot) name.reverse
    generalize name.reverse.takeWhile (· ≠ dot) = tail at hlength hext hsplit htail
    cases hdrop : name.reverse.dropWhile (· ≠ dot) with
    | nil =>
        rw [hdrop, List.append_nil] at hsplit
        rw [hsplit, List.length_reverse] at hlength
        omega
    | cons byte stem =>
        rw [hdrop] at hsplit hfirst
        obtain rfl : byte = dot := by simpa using hfirst
        have hname : name = stem.reverse ++ dot :: tail.reverse := by
          rw [← List.reverse_reverse name, ← hsplit]
          simp
        refine ⟨stem.reverse, ?_, ?_, ?_⟩
        · rintro hstem
          rw [hname, hstem] at hlength
          simp at hlength
        · rw [hname, Option.some.inj hext]
        · rw [← Option.some.inj hext, List.mem_reverse]
          exact htail
  · rintro ⟨stem, hne, rfl, hext⟩
    have htail : (stem ++ dot :: ext).reverse.takeWhile (· ≠ dot) = ext.reverse := by
      rw [List.reverse_append, List.reverse_cons, List.append_assoc,
        List.takeWhile_append_of_pos fun byte hbyte => by
          simpa using ne_of_mem_of_not_mem (List.mem_reverse.mp hbyte) hext]
      simp
    have hlength := List.length_pos_iff.mpr hne
    rw [htail, if_pos (by simp; omega), List.reverse_reverse]

/-! ## Other bytes in their place -/

section Map

variable {f : UInt8 → UInt8} (hslash : ∀ byte, f byte = slash ↔ byte = slash)
  (hdot : ∀ byte, f byte = dot ↔ byte = dot)

include hslash

private theorem splitReversed_map (current : Name) (done : List Name) (p : Path) :
    splitReversed (current.map f) (done.map (List.map f)) (p.map f) =
      (splitReversed current done p).map (List.map f) := by
  induction p generalizing current done with
  | nil => simp [splitReversed]
  | cons byte p ih =>
      by_cases hbyte : byte = slash
      · have hnext := ih [] (current.reverse :: done)
        simp only [List.map_cons, splitReversed, if_pos hbyte, if_pos ((hslash byte).mpr hbyte)]
        simpa using hnext
      · have hnext := ih (byte :: current) done
        simp only [List.map_cons, splitReversed, if_neg hbyte, if_neg (mt (hslash byte).mp hbyte)]
        simpa using hnext

private theorem reversedSegments_map (p : Path) :
    reversedSegments (p.map f) = (reversedSegments p).map (List.map f) :=
  splitReversed_map hslash [] [] p

omit hslash
include hdot

private theorem map_eq_dotSegment_iff {name : Name} :
    name.map f = dotSegment ↔ name = dotSegment := by
  cases name with
  | nil => simp [dotSegment]
  | cons byte rest => simp [dotSegment, hdot]

private theorem map_eq_dotDotSegment_iff {name : Name} :
    name.map f = dotDotSegment ↔ name = dotDotSegment := by
  cases name with
  | nil => simp [dotDotSegment]
  | cons byte rest =>
      have hrest : rest.map f = dotSegment ↔ rest = dotSegment := map_eq_dotSegment_iff hdot
      rw [dotSegment] at hrest
      simp [dotDotSegment, hdot, hrest]

private theorem dropSilent_map (segments : List Name) :
    dropSilent (segments.map (List.map f)) = (dropSilent segments).map (List.map f) := by
  fun_induction dropSilent segments with
  | case1 => rfl
  | case2 => rfl
  | case3 segment hne => simp [dropSilent, hne]
  | case4 segment others hothers hsilent ih =>
      rw [List.map_cons, ← ih, dropSilent.eq_3 _ _ (by simpa using hothers),
        if_pos (by simpa [map_eq_dotSegment_iff hdot] using hsilent)]
  | case5 segment others hothers hne =>
      rw [List.map_cons, dropSilent.eq_3 _ _ (by simpa using hothers),
        if_neg (by simpa [map_eq_dotSegment_iff hdot] using hne)]

theorem extension?_map (name : Name) :
    extension? (name.map f) = (extension? name).map (List.map f) := by
  have htail : (name.map f).reverse.takeWhile (· ≠ dot) =
      (name.reverse.takeWhile (· ≠ dot)).map f := by
    rw [← List.map_reverse, List.takeWhile_map]
    simp only [Function.comp_def, ne_eq, hdot]
  simp only [extension?, htail, List.length_map]
  split_ifs <;> simp

include hslash

theorem fileName?_map (p : Path) : fileName? (p.map f) = (fileName? p).map (List.map f) := by
  rw [fileName?, fileName?, reversedSegments_map hslash, dropSilent_map hdot]
  cases dropSilent (reversedSegments p) with
  | nil => rfl
  | cons segment rest =>
      simp only [List.map_cons, map_eq_dotSegment_iff hdot, map_eq_dotDotSegment_iff hdot]
      split_ifs <;> rfl

end Map

end ServiceHarness.Storage.Path
