import ServiceHarness.Proofs.Storage.Checking
import ServiceHarness.Proofs.Storage.Writing

/-!
# Effects of a write

What a write changes, whether it succeeds or fails, and what a check says about
the file that was written.  A link on the way could be the very target that the
write replaces; without one the path still leads to the file afterwards.
-/

namespace ServiceHarness.Storage.FileSystem

open ServiceHarness.Text

variable {fs fs' : FileSystem}

/-! ## Reading back -/

/-- One of the names of a path stands for a link. -/
def LinkOnWay (fs : FileSystem) (p : Path) : Prop :=
  ∃ before name after l target, Path.steps p = before ++ name :: after ∧
    fs.walk maxLinks (origin fs.workingDirectory p) before = .ok l ∧
    fs.entry? (l ++ [name]) = some (.link target)

private theorem walkPlain_atLink {l directory : Location} {names rest : List Name} {target : Path}
    (h : fs.walkPlain l names = .atLink directory target rest) :
    ∃ before name, names = before ++ name :: rest ∧ fs.walkPlain l before = .arrived directory ∧
      fs.entry? (directory ++ [name]) = some (.link target) := by
  fun_induction walkPlain fs l names with
  | case1 l => cases h
  | case2 l name others hl => cases h
  | case3 l others hl ih =>
      obtain ⟨before, name, rfl, hwalk, hlink⟩ := ih h
      exact ⟨dotSegment :: before, name, rfl, by rw [walkPlain, if_neg hl, if_pos rfl, hwalk], hlink⟩
  | case4 l others hl hdot ih =>
      obtain ⟨before, name, rfl, hwalk, hlink⟩ := ih h
      exact ⟨dotDotSegment :: before, name, rfl,
        by rw [walkPlain, if_neg hl, if_neg hdot, if_pos rfl, hwalk], hlink⟩
  | case5 l name others hl hdot hdots hlong => cases h
  | case6 l name others hl hdot hdots hlong hnone => cases h
  | case7 l name others hl hdot hdots hlong target' hlink =>
      cases h
      exact ⟨[], name, rfl, rfl, hlink⟩
  | case8 l name others hl hdot hdots hlong e hlink hentry ih =>
      obtain ⟨before, last, rfl, hwalk, hlast⟩ := ih h
      refine ⟨name :: before, last, rfl, ?_, hlast⟩
      rw [walkPlain, if_neg hl, if_neg hdot, if_neg hdots, if_neg hlong, hentry]
      cases e with
      | link target => exact absurd rfl (hlink target)
      | _ => exact hwalk

private theorem walkPlain_of_no_link {p : Path} {r : Location} (hlink : ¬fs.LinkOnWay p)
    (h : fs.walk maxLinks (origin fs.workingDirectory p) (Path.steps p) = .ok r) :
    fs.walkPlain (origin fs.workingDirectory p) (Path.steps p) = .arrived r := by
  refine walkPlain_of_walk (fun directory target rest hplain => hlink ?_) h
  obtain ⟨before, name, hsteps, hwalk, hentry⟩ := walkPlain_atLink hplain
  refine ⟨before, name, rest, directory, target, hsteps, ?_, hentry⟩
  rw [walk, hwalk]

private theorem directory_of_walkPlain {l r : Location} {names : List Name}
    (h : fs.walkPlain l names = .arrived r) (hr : fs.entry? r = some .directory) :
    fs.entry? l = some .directory := by
  cases names with
  | nil =>
      cases h
      exact hr
  | cons name names =>
      by_contra hl
      rw [walkPlain, if_pos hl] at h
      cases h

/-- A walk to a directory meets directories only, so that a change of anything
else does not turn it away. -/
theorem walkPlain_away {changed l r : Location} {names : List Name}
    (hsame : ∀ l, l ≠ changed → fs'.entry? l = fs.entry? l)
    (hchanged : fs.entry? changed ≠ some .directory)
    (h : fs.walkPlain l names = .arrived r) (hr : fs.entry? r = some .directory) :
    fs'.walkPlain l names = .arrived r := by
  have hkept : ∀ l, fs.entry? l = some .directory → fs'.entry? l = some .directory :=
    fun l hl => (hsame l fun hl' => hchanged (hl' ▸ hl)).trans hl
  fun_induction walkPlain fs l names with
  | case1 l => exact h
  | case2 l name rest hl => cases h
  | case3 l rest hl ih =>
      rw [walkPlain, if_neg (by simp [hkept l (not_not.mp hl)]), if_pos rfl, ih h]
  | case4 l rest hl hdot ih =>
      rw [walkPlain, if_neg (by simp [hkept l (not_not.mp hl)]), if_neg hdot, if_pos rfl, ih h]
  | case5 l name rest hl hdot hdots hlong => cases h
  | case6 l name rest hl hdot hdots hlong hnone => cases h
  | case7 l name rest hl hdot hdots hlong target hlink => cases h
  | case8 l name rest hl hdot hdots hlong e hlink hentry ih =>
      rw [walkPlain, if_neg (by simp [hkept l (not_not.mp hl)]), if_neg hdot, if_neg hdots,
        if_neg hlong, hkept _ (directory_of_walkPlain h hr)]
      exact ih h

private theorem walkPlain_before_of_no_link {p : Path} {directory : Location} {name : Name}
    {before : List Name} (hnames : (Path.reversedSegments p).filter (· ≠ []) = name :: before)
    (hslash : p.getLast? ≠ some slash) (hdots : ¬(name = dotSegment ∨ name = dotDotSegment))
    (hlink : ¬fs.LinkOnWay (Path.directory p))
    (hresolve : fs.resolve (Path.directory p) = .ok (directory, .directory)) :
    fs.walkPlain (origin fs.workingDirectory p) before.reverse = .arrived directory := by
  obtain ⟨-, habsolute, core, dots, dots', hbefore, hsteps, hdotted, hdotted'⟩ :=
    Path.directory_steps hnames hslash hdots
  obtain ⟨-, hwalk, hentry⟩ := resolve_eq_ok_iff.mp hresolve
  have hplain := walkPlain_of_no_link hlink hwalk
  rw [hsteps, origin, habsolute, ← origin] at hplain
  rw [hbefore, walkPlain_append, walkPlain_of_append_dots hdotted' hplain]
  exact walkPlain_dots hentry hdotted

theorem fileName?_of_locate {p : Path} {l : Location} {name : Name}
    (hlocate : fs.locate p = .ok (l, some name)) (hslash : p.getLast? ≠ some slash) :
    Path.fileName? p = some name := by
  obtain ⟨before, hnames, -, -, -, hdots, -⟩ := locate_eq_some_iff.mp hlocate
  exact (Path.directory_steps hnames hslash hdots).1

theorem readBytes_of_replaced {p : Path} {directory : Location} {name : Name} {content : Bytes}
    {mode : Nat} (hlocate : fs.locate p = .ok (directory, some name))
    (hslash : p.getLast? ≠ some slash)
    (hresolve : fs.resolve (Path.directory p) = .ok (directory, .directory))
    (hlink : ¬fs.LinkOnWay (Path.directory p))
    (htarget : fs.entry? (directory ++ [name]) ≠ some .directory)
    (hworking : fs'.workingDirectory = fs.workingDirectory)
    (hentries : ∀ l, fs'.entry? l =
      if l = directory ++ [name] then some (.file content mode) else fs.entry? l) :
    fs'.readBytes p = .ok content := by
  obtain ⟨before, hnames, hcheck, -, hdirectory, hdots, hlength⟩ :=
    locate_eq_some_iff.mp hlocate
  have hsame : ∀ l, l ≠ directory ++ [name] → fs'.entry? l = fs.entry? l :=
    fun l hl => (hentries l).trans (if_neg hl)
  have hfile : fs'.entry? (directory ++ [name]) = some (.file content mode) :=
    (hentries _).trans (if_pos rfl)
  have hbefore := walkPlain_away hsame htarget
    (walkPlain_before_of_no_link hnames hslash hdots hlink hresolve) hdirectory
  have hdirectory' : fs'.entry? directory = some .directory :=
    (hsame directory (by simp)).trans hdirectory
  rw [not_or] at hdots
  have hname := walkPlain_name hdirectory' hdots.1 hdots.2 (Nat.not_lt.mp hlength) hfile (by simp)
  have hresolved : fs'.resolve p = .ok (directory ++ [name], .file content mode) := by
    refine resolve_eq_ok_iff.mpr ⟨hcheck, ?_, hfile⟩
    rw [steps_of_no_slash hnames hslash, hworking, maxLinks, walk, walkPlain_append, hbefore]
    simp only [Walk.andThen, hname]
  rw [readBytes, openFile, hresolved]
  rfl

/-! ## The two outcomes -/

/--
A write that succeeds is exact and touches nothing else.  In the file system
`made`, which has the directories of the path, the path's directory leads to
`directory`; there the file of that name holds the text, whatever it was before.
All other entries stay, all others that are new are directories of the path's
parents, and none of them is a staging file.  Unless a link is on the way, a
check of the path passes for this text and reports drift for every other one.
-/
theorem writeOutput_ok_exact {p : Path} {text : String}
    (h : fs.writeOutput p text = (fs', .ok ())) :
    ∃ (made : FileSystem) (directory : Location) (name : Name),
      Path.fileName? p = some name ∧
      AddsDirectories (Path.parents p) fs made ∧
      made.resolve (Path.directory p) = .ok (directory, .directory) ∧
      fs'.workingDirectory = fs.workingDirectory ∧
      (∀ l, fs'.entry? l = if l = directory ++ [name] then
        some (.file (Utf8.ofString text) stagedMode) else made.entry? l) ∧
      (∀ l e, l ≠ directory ++ [name] → fs.entry? l = some e → fs'.entry? l = some e) ∧
      (∀ l e, l ≠ directory ++ [name] → fs.entry? l = none → fs'.entry? l = some e →
        e = .directory ∧ ∃ q ∈ Path.parents p, made.resolve q = .ok (l, .directory)) ∧
      (∀ l mark e, fs.entry? (l ++ [[dot] ++ name ++ Utf8.ofString ".tmp." ++ mark]) = none →
        fs'.entry? (l ++ [[dot] ++ name ++ Utf8.ofString ".tmp." ++ mark]) = some e →
        e = .directory) ∧
      (¬made.LinkOnWay (Path.directory p) → ∀ other, fs'.checkOutput p other =
        if text = other then .ok () else .error (.drift (Path.display p))) := by
  have hbytes : fs.writeBytes p (Utf8.ofString text) = (fs', .ok ()) := by
    rw [writeOutput] at h
    cases hwrite : fs.writeBytes p (Utf8.ofString text) with
    | mk written result =>
        rw [hwrite] at h
        cases result with
        | ok _ =>
            cases h
            rfl
        | error e => cases h
  obtain ⟨made, _, hadds, hreplace⟩ := writeBytes_eq_ok hbytes
  obtain ⟨directory, name, hresolve, hlocate, hslash, htarget, hworking, hentries⟩ :=
    replaceFile_eq_ok hreplace
  have hadded : ∀ l e, l ≠ directory ++ [name] → fs.entry? l = none → fs'.entry? l = some e →
      e = .directory ∧ ∃ q ∈ Path.parents p, made.resolve q = .ok (l, .directory) := by
    intro l e hl hnone he
    rw [hentries, if_neg hl] at he
    exact hadds.added l e hnone he
  refine ⟨made, directory, name, fileName?_of_locate hlocate hslash, hadds, hresolve,
    hworking.trans hadds.workingDirectory, hentries, ?_, hadded, ?_, ?_⟩
  · intro l e hl he
    rw [hentries, if_neg hl]
    exact hadds.kept l e he
  · intro l mark e hnone he
    refine (hadded _ e (fun hsame => ?_) hnone he).1
    have hlast : [dot] ++ name ++ Utf8.ofString ".tmp." ++ mark = name :=
      List.singleton_inj.mp (List.append_inj_right' hsame rfl)
    have hlength := congrArg List.length hlast
    simp only [List.length_append, List.length_singleton] at hlength
    omega
  · intro hlink other
    exact checkOutput_of_held (readBytes_of_replaced hlocate hslash hresolve hlink htarget
      hworking hentries) other

/-- The link at `t` is replaced, and the file `d/f` that it leads to stays. -/
theorem writeOutput_ok_exact_over_link :
    let fs : FileSystem :=
      { entries := [([[100]], .directory), ([[100], [102]], .file [120] 0o644),
          ([[116]], .link [100, 47, 102])]
        workingDirectory := [] }
    let p : Path := [110, 47, 46, 46, 47, 116]
    let fs' := (fs.writeOutput p "new").1
    fs.writeOutput p "new" = (fs', .ok ()) ∧
      (∃ directory, fs'.entry? (directory ++ [[116]]) =
        some (.file (Utf8.ofString "new") stagedMode)) ∧
      fs'.entry? [[100], [102]] = some (.file [120] 0o644) := by
  intro fs p fs'
  have hwrite : fs.writeOutput p "new" = (fs', .ok ()) := by decide +kernel
  obtain ⟨made, directory, name, hname, -, -, -, hentries, hkept, -⟩ := writeOutput_ok_exact hwrite
  cases hname
  refine ⟨hwrite, ⟨directory, (hentries _).trans (if_pos rfl)⟩, hkept _ _ (fun h => ?_) rfl⟩
  cases List.append_inj_right' (show [[100]] ++ [[102]] = directory ++ [[116]] from h) rfl

/--
A write that fails destroys nothing: every entry stays as it was, all that is
new is directories to which prefixes of the path's parent lead, and nothing is
new if the path has no name that is a text.
-/
theorem writeOutput_error_keeps {p : Path} {text : String} {e : OutputError}
    (h : fs.writeOutput p text = (fs', .error e)) :
    fs'.workingDirectory = fs.workingDirectory ∧
      (∀ l f, fs.entry? l = some f → fs'.entry? l = some f) ∧
      (∀ l f, fs.entry? l = none → fs'.entry? l = some f →
        f = .directory ∧ ∃ q ∈ Path.parents p, fs'.resolve q = .ok (l, .directory)) ∧
      ((∀ name, Path.fileName? p = some name → Utf8.toString? name = none) → fs' = fs) := by
  rw [writeOutput] at h
  cases hwrite : fs.writeBytes p (Utf8.ofString text) with
  | mk written result =>
      rw [hwrite] at h
      cases result with
      | ok _ => cases h
      | error cause =>
          cases h
          have hadds := writeBytes_eq_error hwrite
          refine ⟨hadds.workingDirectory, hadds.kept, hadds.added, fun hname => ?_⟩
          have hnone : outputName? p = none := by
            rw [outputName?, Option.bind_eq_none_iff]
            intro name hfile
            rw [hname name hfile, Option.map_none]
          rw [writeBytes, hnone] at hwrite
          cases hwrite
          rfl

/-- The disk is full after two bytes: the directory `n` stays, and the staging file
does not. -/
theorem writeOutput_error_keeps_full_disk :
    let fs : FileSystem :=
      { entries := [([[116]], .file [120] 0o644)]
        workingDirectory := []
        disk := { Disk.sound with writing := some (2, .noSpace) } }
    let fs' : FileSystem := { fs with entries := fs.entries ++ [([[110]], .directory)] }
    let p : Path := [110, 47, 46, 46, 47, 116]
    fs.writeOutput p "new" = (fs', .error (.io
        "No space left on device (os error 28) at path \"/n/../.t.tmp.000000\"")) ∧
      fs'.entry? [[116]] = some (.file [120] 0o644) ∧
      ∃ q ∈ Path.parents p, fs'.resolve q = .ok ([[110]], .directory) := by
  intro fs fs' p
  have hwrite : fs.writeOutput p "new" = (fs', .error (.io
      "No space left on device (os error 28) at path \"/n/../.t.tmp.000000\"")) := by
    decide +kernel
  obtain ⟨-, hkept, hadded, -⟩ := writeOutput_error_keeps hwrite
  exact ⟨hwrite, hkept _ _ rfl, (hadded _ _ rfl rfl).2⟩

end ServiceHarness.Storage.FileSystem
