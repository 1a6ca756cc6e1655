import ServiceHarness.Proofs.Storage.Resolution

/-!
# Making directories

A file system extends another one if it holds all entries of it.  Whatever a
path leads to in the smaller one, it leads to in the larger one.  Making the
directories of a path extends a file system by directories alone, and each of
them is where one of the path's prefixes leads, also when the call fails on the
way.
-/

namespace ServiceHarness.Storage.FileSystem

open ServiceHarness.Text

variable {fs fs' fs'' : FileSystem}

/-! ## Extensions -/

structure Extends (fs fs' : FileSystem) : Prop where
  workingDirectory : fs'.workingDirectory = fs.workingDirectory
  kept : ∀ l e, fs.entry? l = some e → fs'.entry? l = some e

/-- All that is new is directories to which some of the paths lead. -/
structure AddsDirectories (paths : List Path) (fs fs' : FileSystem) : Prop
    extends Extends fs fs' where
  disk : fs'.disk = fs.disk
  drawn : fs'.drawn = fs.drawn
  added : ∀ l e, fs.entry? l = none → fs'.entry? l = some e →
    e = .directory ∧ ∃ p ∈ paths, fs'.resolve p = .ok (l, .directory)

theorem Extends.trans (h : fs.Extends fs') (h' : fs'.Extends fs'') : fs.Extends fs'' :=
  ⟨h'.workingDirectory.trans h.workingDirectory, fun l e he => h'.kept l e (h.kept l e he)⟩

theorem extends_put {l : Location} (hl : l ≠ []) (hnone : fs.entry? l = none) (e : Entry) :
    fs.Extends (fs.put l e) := by
  refine ⟨rfl, fun l' e' he' => ?_⟩
  rw [entry?_put fs hl, if_neg]
  · exact he'
  · rintro rfl
    rw [hnone] at he'
    cases he'

theorem Extends.walkPlain_eq (h : fs.Extends fs') {l : Location} {names : List Name}
    (hwalk : ∀ e, fs.walkPlain l names ≠ .failed e) :
    fs'.walkPlain l names = fs.walkPlain l names := by
  fun_induction walkPlain fs l names with
  | case1 l => rfl
  | case2 l name rest hl => exact absurd rfl (hwalk _)
  | case3 l rest hl ih =>
      rw [walkPlain, if_neg (by simp [h.kept l _ (not_not.mp hl)]), if_pos rfl, ih hwalk]
  | case4 l rest hl hdot ih =>
      rw [walkPlain, if_neg (by simp [h.kept l _ (not_not.mp hl)]), if_neg hdot, if_pos rfl,
        ih hwalk]
  | case5 l name rest hl hdot hdots hlong => exact absurd rfl (hwalk _)
  | case6 l name rest hl hdot hdots hlong hnone => exact absurd rfl (hwalk _)
  | case7 l name rest hl hdot hdots hlong target hlink =>
      rw [walkPlain, if_neg (by simp [h.kept l _ (not_not.mp hl)]), if_neg hdot, if_neg hdots,
        if_neg hlong, h.kept _ _ hlink]
  | case8 l name rest hl hdot hdots hlong e hlink hentry ih =>
      rw [walkPlain, if_neg (by simp [h.kept l _ (not_not.mp hl)]), if_neg hdot, if_neg hdots,
        if_neg hlong, h.kept _ _ hentry]
      cases e with
      | link target => exact absurd rfl (hlink target)
      | _ => exact ih hwalk

theorem Extends.walk_eq_ok (h : fs.Extends fs') {links : Nat} {l r : Location}
    {names : List Name} (hwalk : fs.walk links l names = .ok r) :
    fs'.walk links l names = .ok r := by
  fun_induction walk fs links l names with
  | case1 links l names m hplain =>
      rw [walk, h.walkPlain_eq (by simp [hplain]), hplain]
      exact hwalk
  | case2 links l names e hplain => cases hwalk
  | case3 l names directory target rest hplain => cases hwalk
  | case4 l names directory target rest hplain links ih =>
      rw [walk, h.walkPlain_eq (by simp [hplain]), hplain]
      exact ih hwalk

theorem Extends.resolve_eq_ok (h : fs.Extends fs') {p : Path} {l : Location} {e : Entry}
    (hresolve : fs.resolve p = .ok (l, e)) : fs'.resolve p = .ok (l, e) := by
  obtain ⟨hcheck, hwalk, hentry⟩ := resolve_eq_ok_iff.mp hresolve
  rw [resolve_eq_ok_iff, h.workingDirectory]
  exact ⟨hcheck, h.walk_eq_ok hwalk, h.kept l e hentry⟩

theorem Extends.locate_eq_some (h : fs.Extends fs') {p : Path} {l : Location} {name : Name}
    (hlocate : fs.locate p = .ok (l, some name)) : fs'.locate p = .ok (l, some name) := by
  obtain ⟨before, hnames, hcheck, hwalk, hl, hlast⟩ := locate_eq_some_iff.mp hlocate
  rw [locate_eq_some_iff, h.workingDirectory]
  exact ⟨before, hnames, hcheck, h.walk_eq_ok hwalk, h.kept l _ hl, hlast⟩

theorem AddsDirectories.refl (paths : List Path) (fs : FileSystem) :
    AddsDirectories paths fs fs := by
  refine ⟨⟨rfl, fun l e he => he⟩, rfl, rfl, fun l e hnone he => ?_⟩
  rw [hnone] at he
  cases he

theorem AddsDirectories.trans {paths : List Path} (h : AddsDirectories paths fs fs')
    (h' : AddsDirectories paths fs' fs'') : AddsDirectories paths fs fs'' := by
  refine ⟨h.toExtends.trans h'.toExtends, h'.disk.trans h.disk, h'.drawn.trans h.drawn,
    fun l e hnone he => ?_⟩
  cases hmid : fs'.entry? l with
  | none => exact h'.added l e hmid he
  | some f =>
      obtain ⟨rfl, p, hp, hresolve⟩ := h.added l f hnone hmid
      rw [h'.kept l _ hmid] at he
      cases he
      exact ⟨rfl, p, hp, h'.resolve_eq_ok hresolve⟩

theorem AddsDirectories.mono {paths more : List Path} (h : AddsDirectories paths fs fs')
    (hsub : paths ⊆ more) : AddsDirectories more fs fs' := by
  refine ⟨h.toExtends, h.disk, h.drawn, fun l e hnone he => ?_⟩
  obtain ⟨hdirectory, p, hp, hresolve⟩ := h.added l e hnone he
  exact ⟨hdirectory, p, hsub hp, hresolve⟩

/-! ## Directories -/

theorem steps_of_no_slash {p : Path} {name : Name} {before : List Name}
    (h : (Path.reversedSegments p).filter (· ≠ []) = name :: before)
    (hslash : p.getLast? ≠ some slash) : Path.steps p = before.reverse ++ [name] := by
  rw [Path.steps, if_neg hslash, List.filter_reverse, h, List.reverse_cons]

private theorem steps_of_names {p : Path} {name : Name} {before : List Name}
    (h : (Path.reversedSegments p).filter (· ≠ []) = name :: before) :
    ∃ dots, Path.steps p = before.reverse ++ [name] ++ dots ∧ ∀ d ∈ dots, d = dotSegment := by
  by_cases hslash : p.getLast? = some slash
  · refine ⟨[dotSegment], ?_, by simp⟩
    rw [Path.steps, if_pos hslash, List.filter_reverse, h, List.reverse_cons]
  · exact ⟨[], by rw [steps_of_no_slash h hslash, List.append_nil], by simp⟩

theorem resolve_of_locate {p : Path} {l : Location} {name : Name}
    (hlocate : fs.locate p = .ok (l, some name))
    (hentry : fs.entry? (l ++ [name]) = some .directory) :
    fs.resolve p = .ok (l ++ [name], .directory) := by
  obtain ⟨before, hnames, hcheck, hwalk, hl, hdots, hlength⟩ := locate_eq_some_iff.mp hlocate
  obtain ⟨dots, hsteps, hall⟩ := steps_of_names hnames
  rw [not_or] at hdots
  have hname := walkPlain_name hl hdots.1 hdots.2 (Nat.not_lt.mp hlength) hentry (by simp)
  refine resolve_eq_ok_iff.mpr ⟨hcheck, ?_, hentry⟩
  rw [hsteps]
  exact walk_append (walk_append hwalk hname) (walkPlain_dots hentry hall)

theorem makeDirectory_eq_ok_iff {p : Path} :
    fs.makeDirectory p = .ok fs' ↔
      ∃ l name, fs.locate p = .ok (l, some name) ∧ fs.entry? (l ++ [name]) = none ∧
        fs.disk.making = none ∧ fs' = fs.put (l ++ [name]) .directory := by
  simp only [makeDirectory, bind_eq_ok_iff]
  constructor
  · rintro ⟨⟨l, last⟩, hlocate, h⟩
    cases last with
    | none => cases h
    | some name =>
        cases hentry : fs.entry? (l ++ [name]) with
        | none =>
            simp only [hentry] at h
            obtain ⟨_, hmaking, h⟩ := bind_eq_ok_iff.mp h
            cases h
            exact ⟨l, name, hlocate, hentry, Disk.attempt_eq_ok_iff.mp hmaking, rfl⟩
        | some e =>
            simp only [hentry] at h
            cases h
  · rintro ⟨l, name, hlocate, hentry, hmaking, rfl⟩
    refine ⟨(l, some name), hlocate, ?_⟩
    simp only [hentry]
    exact bind_eq_ok_iff.mpr ⟨(), Disk.attempt_eq_ok_iff.mpr hmaking, rfl⟩

private theorem makeDirectory_of_resolve {p : Path} {l : Location} {e : Entry}
    (h : fs.resolve p = .ok (l, e)) : fs.makeDirectory p = .error .alreadyExists := by
  obtain ⟨hcheck, hwalk, -⟩ := resolve_eq_ok_iff.mp h
  cases hnames : (Path.reversedSegments p).filter (· ≠ []) with
  | nil =>
      rw [makeDirectory, locate, hcheck, hnames]
      rfl
  | cons last before =>
      obtain ⟨dots, hsteps, -⟩ := steps_of_names hnames
      rw [hsteps, List.append_assoc] at hwalk
      obtain ⟨m, left, hbefore, hlast⟩ := walk_append_inv hwalk
      obtain ⟨hm, hlast⟩ := walk_cons_inv hlast
      by_cases hdot : last = dotSegment ∨ last = dotDotSegment
      · have hlocate : fs.locate p = .ok (m, none) := by
          simp only [locate, hcheck, hnames, hbefore, bind, Except.bind, hm, ne_eq, not_true,
            if_false, if_pos hdot]
          rfl
        rw [makeDirectory, hlocate]
        rfl
      · obtain ⟨hlength, hentry⟩ := (or_assoc.mpr hlast).resolve_left hdot
        have hlocate := locate_eq_some_iff.mpr ⟨before, hnames, hcheck, hbefore, hm, hdot, hlength⟩
        obtain ⟨found, hfound⟩ := Option.ne_none_iff_exists'.mp hentry
        simp only [makeDirectory, hlocate, bind, Except.bind, hfound]
        rfl

theorem makeDirectories_of_resolve {p : Path} {l : Location} (parents : List Path)
    (h : fs.resolve p = .ok (l, .directory)) (hp : p ≠ []) :
    fs.makeDirectories (p :: parents) = (fs, .ok ()) := by
  have hdirectory : fs.isDirectory p = true := by
    rw [isDirectory, h]
    rfl
  rw [makeDirectories, if_neg hp, makeDirectory_of_resolve h]
  simp only [hdirectory, if_true]

theorem adds_makeDirectory {p : Path} (h : fs.makeDirectory p = .ok fs') :
    AddsDirectories [p] fs fs' := by
  obtain ⟨l, name, hlocate, hentry, -, rfl⟩ := makeDirectory_eq_ok_iff.mp h
  refine ⟨extends_put (by simp) hentry _, rfl, rfl, fun l' e hnone he => ?_⟩
  rw [entry?_put fs (by simp)] at he
  by_cases hl : l' = l ++ [name]
  · rw [if_pos hl] at he
    cases he
    refine ⟨rfl, p, List.mem_singleton_self p, ?_⟩
    rw [hl]
    have hext := extends_put (List.append_ne_nil_of_right_ne_nil l (List.cons_ne_nil name []))
      hentry .directory
    exact resolve_of_locate (hext.locate_eq_some hlocate)
      (by rw [entry?_put fs (by simp), if_pos rfl])
  · rw [if_neg hl, hnone] at he
    cases he

theorem adds_makeDirectories (fs : FileSystem) (paths : List Path) :
    AddsDirectories paths fs (fs.makeDirectories paths).1 := by
  induction paths generalizing fs with
  | nil => exact .refl [] fs
  | cons p parents ih =>
      rw [makeDirectories]
      by_cases hp : p = []
      · rw [if_pos hp]
        exact .refl _ fs
      rw [if_neg hp]
      have hparents := (ih fs).mono (List.subset_cons_self p parents)
      cases hmake : fs.makeDirectory p with
      | ok made => exact (adds_makeDirectory hmake).mono (by simp)
      | error e =>
          cases e with
          | notFound =>
              cases hrest : fs.makeDirectories parents with
              | mk made result =>
                  rw [hrest] at hparents
                  cases result with
                  | error e => exact hparents
                  | ok _ =>
                      cases hagain : made.makeDirectory p with
                      | ok again =>
                          simp only [hagain]
                          exact hparents.trans ((adds_makeDirectory hagain).mono (by simp))
                      | error e =>
                          simp only [hagain]
                          exact hparents
          | _ => exact .refl _ fs

theorem adds_makeDirectoryTree (fs : FileSystem) (p : Path) :
    AddsDirectories (Path.ancestors p) fs (fs.makeDirectoryTree p).1 :=
  adds_makeDirectories fs (Path.ancestors p)

end ServiceHarness.Storage.FileSystem
