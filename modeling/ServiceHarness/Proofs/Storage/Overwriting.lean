import ServiceHarness.Proofs.Storage.Effects
import ServiceHarness.Proofs.Storage.Staging

/-!
# Writing again

If no link is among the names of its directory, a second write to a path finds all
parents in place and puts its file where the first one has, so that nothing is left
of the first.
-/

namespace ServiceHarness.Storage.FileSystem

open ServiceHarness.Text

variable {fs fs' made : FileSystem} {p : Path} {directory : Location} {name : Name}

/-! ## The directory again -/

/-- One of some names stands for a link.  Where a name is missing the walk goes on as
through a directory, since that is what a write makes of it. -/
def meetsLink (fs : FileSystem) (l : Location) : List Name → Bool
  | [] => false
  | name :: rest =>
      if name = dotSegment then fs.meetsLink l rest
      else if name = dotDotSegment then fs.meetsLink l.dropLast rest
      else
        match fs.entry? (l ++ [name]) with
        | some (.link _) => true
        | _ => fs.meetsLink (l ++ [name]) rest

/-- No component of a path is a link. -/
def LinkFree (fs : FileSystem) (p : Path) : Prop :=
  fs.meetsLink (origin fs.workingDirectory p) (Path.steps p) = false

instance (fs : FileSystem) (p : Path) : Decidable (fs.LinkFree p) :=
  inferInstanceAs (Decidable (_ = _))

theorem AddsDirectories.link {paths : List Path} (hadds : AddsDirectories paths fs made)
    {l : Location} {target : Path} (h : made.entry? l = some (.link target)) :
    fs.entry? l = some (.link target) := by
  cases hentry : fs.entry? l with
  | none => cases (hadds.added l _ hentry h).1
  | some e => exact (hadds.kept l e hentry).symm.trans h

private theorem meetsLink_of_atLink {l : Location} {names rest : List Name} {target : Path}
    (hlinks : ∀ l target, made.entry? l = some (.link target) → fs.entry? l = some (.link target))
    (h : made.walkPlain l names = .atLink directory target rest) :
    fs.meetsLink l names = true := by
  fun_induction walkPlain made l names with
  | case1 l => cases h
  | case2 l name others hl => cases h
  | case3 l others hl ih => rw [meetsLink, if_pos rfl, ih h]
  | case4 l others hl hdot ih => rw [meetsLink, if_neg hdot, if_pos rfl, ih h]
  | case5 l name others hl hdot hdots hlong => cases h
  | case6 l name others hl hdot hdots hlong hnone => cases h
  | case7 l name others hl hdot hdots hlong target' hlink =>
      rw [meetsLink, if_neg hdot, if_neg hdots, hlinks _ _ hlink]
  | case8 l name others hl hdot hdots hlong e hlink hentry ih =>
      rw [meetsLink, if_neg hdot, if_neg hdots, ih h]
      split
      · rfl
      · rfl

private theorem walkPlain_of_linkFree {paths : List Path} {q : Path} {r : Location}
    (hadds : AddsDirectories paths fs made) (hfree : fs.LinkFree q)
    (h : made.walk maxLinks (origin made.workingDirectory q) (Path.steps q) = .ok r) :
    made.walkPlain (origin made.workingDirectory q) (Path.steps q) = .arrived r := by
  refine walkPlain_of_walk (fun directory target rest hplain => ?_) h
  have hmeets := meetsLink_of_atLink (fun _ _ => hadds.link) hplain
  rw [hadds.workingDirectory, hfree] at hmeets
  contradiction

private theorem resolve_directory_put {paths : List Path} {q : Path}
    (hadds : AddsDirectories paths fs made)
    (hfree : fs.LinkFree q) (hresolve : made.resolve q = .ok (directory, .directory))
    (htarget : made.entry? (directory ++ [name]) ≠ some .directory) (e : Entry) :
    (made.put (directory ++ [name]) e).resolve q = .ok (directory, .directory) := by
  obtain ⟨hcheck, hwalk, hdirectory⟩ := resolve_eq_ok_iff.mp hresolve
  have hsame : ∀ l, l ≠ directory ++ [name] →
      entry? (made.put (directory ++ [name]) e) l = made.entry? l :=
    fun l hl => by rw [entry?_put made (by simp), if_neg hl]
  have hplain := walkPlain_away hsame htarget (walkPlain_of_linkFree hadds hfree hwalk) hdirectory
  refine resolve_eq_ok_iff.mpr ⟨hcheck, ?_, (hsame directory (by simp)).trans hdirectory⟩
  rw [workingDirectory_put, walk, hplain]

/-! ## Writing again -/

private theorem fromRoot_put {l : Location} {e : Entry} (hroot : l ≠ [])
    (hl : fs.entry? l ≠ some .directory) (he : e ≠ .directory) (q : Path) :
    (fs.put l e).fromRoot q = fs.fromRoot q := by
  have hworking : entry? (fs.put l e) fs.workingDirectory = some .directory ↔
      fs.entry? fs.workingDirectory = some .directory := by
    rw [entry?_put fs hroot]
    by_cases hsame : fs.workingDirectory = l
    · rw [if_pos hsame, hsame]
      simp [he, hl]
    · rw [if_neg hsame]
  simp only [fromRoot, workingDirectory_put, ne_eq, hworking]

theorem Replaceable.put_file {paths : List Path} (hadds : AddsDirectories paths fs made)
    (hfree : fs.LinkFree (Path.directory p)) (h : made.Replaceable p name directory name)
    (content : Bytes) (mode : Nat) :
    (made.put (directory ++ [name]) (.file content mode)).Replaceable p name directory name := by
  have hresolve := resolve_directory_put hadds hfree h.resolved h.not_directory (.file content mode)
  obtain ⟨before, hnames, hcheck, -, -, hdots, hlength⟩ := locate_eq_some_iff.mp h.located
  constructor
  case resolved => exact hresolve
  case staged =>
    obtain ⟨base, l, hbase, hdirectory, ⟨n, hnone⟩, hopening⟩ := exists_stagingPlace_iff.mp h.staged
    obtain ⟨htried, hfound, hshort⟩ := stagingDirectory_eq_ok_iff.mp hdirectory
    cases hfound.symm.trans h.resolved
    have hbase' := (fromRoot_put (List.append_ne_nil_of_right_ne_nil directory
      (List.cons_ne_nil name [])) h.not_directory (e := .file content mode) (by simp) _).trans hbase
    refine exists_stagingPlace_iff.mpr ⟨base, directory, hbase',
      stagingDirectory_eq_ok_iff.mpr ⟨htried, hresolve, hshort⟩, ⟨n, ?_⟩, hopening⟩
    rw [entry?_put made (by simp), if_neg, hnone]
    intro hsame
    have hlength := congrArg List.length (List.singleton_inj.mp (List.append_cancel_left hsame))
    rw [length_stagingName] at hlength
    omega
  case located =>
    have hdirectory := (resolve_eq_ok_iff.mp hresolve).2.2
    exact locate_eq_some_iff.mpr ⟨before, hnames, hcheck,
      walk_before_of_resolve hnames h.no_slash hdots hresolve, hdirectory, hdots, hlength⟩
  case no_slash => exact h.no_slash
  case not_directory =>
    rw [entry?_put made (by simp), if_pos rfl]
    simp
  case syncing => exact h.syncing
  case moving => exact h.moving

theorem Replaceable.place_eq {content : Bytes} {target : Name}
    (h : fs.Replaceable p name directory target) (hname : outputName? p = some name)
    (hfits : fs.disk.Fits content) :
    fs.place p content = (fs, .ok (directory ++ [target])) := by
  simp only [place, hname, prepareParent_of_resolve h.resolved,
    destination_eq_ok_iff.mpr ⟨hfits, directory, target, h, rfl⟩]

theorem place_put_file {content other : Bytes} {l : Location}
    (hfree : fs.LinkFree (Path.directory p)) (h : fs.place p content = (made, .ok l))
    (hfits : fs.disk.Fits other) (held : Bytes) (mode n : Nat) :
    ((made.put l (.file held mode)).drawing n).place p other =
      ((made.put l (.file held mode)).drawing n, .ok l) := by
  obtain ⟨name, hname, rfl, hdestination⟩ := place_eq_ok h
  obtain ⟨-, directory, target, hreplaceable, rfl⟩ := destination_eq_ok_iff.mp hdestination
  obtain rfl : target = name := Option.some.inj
    ((fileName?_of_locate hreplaceable.located hreplaceable.no_slash).symm.trans
      (fileName?_of_outputName? hname))
  have hadds := adds_prepareParent fs p
  rw [← hadds.disk] at hfits
  exact ((hreplaceable.put_file hadds hfree held mode).drawing n).place_eq hname hfits

private theorem place_eq_ok_ne_root {content : Bytes} {l : Location}
    (h : fs.place p content = (made, .ok l)) : l ≠ [] ∧ fs.disk.Fits content := by
  obtain ⟨name, -, rfl, hdestination⟩ := place_eq_ok h
  obtain ⟨hfits, directory, target, -, rfl⟩ := destination_eq_ok_iff.mp hdestination
  rw [(adds_prepareParent fs p).disk] at hfits
  exact ⟨by simp, hfits⟩

/-! ## Outcomes -/

/-- Two writes succeed, or they fail with the same cause. -/
inductive SameOutcome : Except OutputError Unit → Except OutputError Unit → Prop where
  | ok : SameOutcome (.ok ()) (.ok ())
  | error {e e' : WriteError} (h : e.Alike e') :
      SameOutcome (.error (.io e.message)) (.error (.io e'.message))

theorem place_congr {content other : Bytes} (hfits : fs.disk.Fits content)
    (hfits' : fs.disk.Fits other) : fs.place p content = fs.place p other := by
  have hdisk := (adds_prepareParent fs p).disk
  rw [place, place]
  cases outputName? p with
  | none => rfl
  | some name =>
      rcases hprepare : fs.prepareParent p with ⟨made, e | parent⟩
      · rfl
      · rw [hprepare] at hdisk
        have hwrite : (made.disk.write content).2 = (made.disk.write other).2 := by
          rw [hdisk]
          exact hfits.trans hfits'.symm
        simp only [destination, hwrite]

theorem writeOutput_eq_ok_iff {text : String} :
    (fs.writeOutput p text).2 = .ok () ↔
      ∃ made l, fs.place p (Utf8.ofString text) = (made, .ok l) := by
  rw [writeOutput_eq]
  rcases fs.place p (Utf8.ofString text) with ⟨made, e | l⟩
  · simp
  · simp

theorem writeOutput_drawing_ok {first second : String}
    (h : (fs.writeOutput p first).2 = .ok ()) (hfits : fs.disk.Fits (Utf8.ofString second))
    (n : Nat) : ((fs.drawing n).writeOutput p second).2 = .ok () := by
  obtain ⟨made, l, hplace⟩ := writeOutput_eq_ok_iff.mp h
  exact writeOutput_eq_ok_iff.mpr ⟨_, l, place_drawing hplace hfits n⟩

theorem sameOutcome_drawing {first second : String}
    (hlast : (Path.steps p).getLast? = Path.fileName? p)
    (hfits : fs.disk.Fits (Utf8.ofString first)) (hfits' : fs.disk.Fits (Utf8.ofString second))
    (n : Nat) :
    SameOutcome (fs.writeOutput p first).2 ((fs.drawing n).writeOutput p second).2 := by
  rw [writeOutput_eq, writeOutput_eq, place, place, prepareParent_drawing]
  cases hname : outputName? p with
  | none => exact .error (.same _)
  | some name =>
      have hdisk := (adds_prepareParent fs p).disk
      rcases hprepare : fs.prepareParent p with ⟨made, e | parent⟩
      · exact .error (.same _)
      · rw [hprepare] at hdisk
        obtain rfl := prepareParent_eq_ok (congrArg Prod.snd hprepare)
        rcases destination_drawing (fileName?_of_outputName? hname) hlast
          (show made.disk.Fits _ from hdisk ▸ hfits) (show made.disk.Fits _ from hdisk ▸ hfits') n
          with ⟨l, h, h'⟩ | ⟨e, e', halike, h, h'⟩
        · simp only [h, h']
          exact .ok
        · simp only [h, h']
          exact .error halike

/--
Whether a write succeeds does not depend on the text, as long as the disk takes it,
and neither does its error.  Nor does the number count that is drawn for the staging
file, but that an error may tell the path of that file, and that a path with a dot
behind its file name may lead through it.  If no component of the parent is a link, a
second write exchanges the file of the first one and leaves all as if it had been the
only write, whatever was at the target; a write of the same text changes nothing.
-/
theorem last_write_wins (fs : FileSystem) (p : Path) :
    (∀ first second, fs.disk.Fits (Utf8.ofString first) → fs.disk.Fits (Utf8.ofString second) →
        (fs.writeOutput p first).2 = (fs.writeOutput p second).2 ∧
          ∀ n, ((fs.writeOutput p first).2 = .ok () ↔
              ((fs.drawing n).writeOutput p second).2 = .ok ()) ∧
            ((Path.steps p).getLast? = Path.fileName? p →
              SameOutcome (fs.writeOutput p first).2 ((fs.drawing n).writeOutput p second).2)) ∧
      (fs.LinkFree (Path.directory p) →
        ∀ first fs', fs.writeOutput p first = (fs', .ok ()) →
          fs'.writeOutput p first = (fs', .ok ()) ∧
            ∃ l, fs'.entry? l = some (.file (Utf8.ofString first) stagedMode) ∧
              ∀ second n, fs.disk.Fits (Utf8.ofString second) →
                (fs'.drawing n).writeOutput p second =
                    ((fs'.drawing n).put l (.file (Utf8.ofString second) stagedMode), .ok ()) ∧
                  (fs'.drawing n).writeOutput p second = (fs.drawing n).writeOutput p second) := by
  constructor
  · intro first second hfits hfits'
    refine ⟨?_, fun n => ⟨⟨fun h => writeOutput_drawing_ok h hfits' n,
      fun h => writeOutput_drawing_ok h hfits fs.drawn⟩, fun hlast =>
        sameOutcome_drawing hlast hfits hfits' n⟩⟩
    rw [writeOutput_eq, writeOutput_eq, place_congr hfits hfits']
    rcases fs.place p (Utf8.ofString second) with ⟨made, e | l⟩
    · rfl
    · rfl
  · intro hfree first fs' h
    rw [writeOutput_eq] at h
    rcases hplace : fs.place p (Utf8.ofString first) with ⟨made, e | l⟩
    · rw [hplace] at h
      cases h
    · rw [hplace] at h
      cases h
      obtain ⟨hroot, hfits⟩ := place_eq_ok_ne_root hplace
      refine ⟨?_, l, ?_, fun second n hother => ?_⟩
      · have hagain := place_put_file hfree hplace hfits (Utf8.ofString first) stagedMode made.drawn
        change (made.put l (.file (Utf8.ofString first) stagedMode)).place p _ = _ at hagain
        rw [writeOutput_eq, hagain]
        exact Prod.ext (put_put made l _ _) rfl
      · rw [entry?_put made hroot, if_pos rfl]
      · have hagain := place_put_file hfree hplace hother (Utf8.ofString first) stagedMode n
        have hdirect := place_drawing hplace hother n
        rw [writeOutput_eq, writeOutput_eq, hagain, hdirect]
        exact ⟨rfl, Prod.ext (put_put (made.drawing n) l _ _) rfl⟩

/-- The directory `n` is missing before the first write, and `t` is a link then; the
disk takes three bytes. -/
theorem last_write_wins_over_link :
    let fs : FileSystem :=
      { entries := [([[100]], .directory), ([[100], [102]], .file [120] 0o644),
          ([[116]], .link [100, 47, 102])]
        workingDirectory := []
        disk := { Disk.sound with writing := some (3, .noSpace) } }
    let p : Path := [110, 47, 46, 46, 47, 116]
    let fs' := (fs.writeOutput p "old").1
    fs.LinkFree (Path.directory p) ∧ fs.writeOutput p "old" = (fs', .ok ()) ∧
      fs'.writeOutput p "old" = (fs', .ok ()) ∧
        (fs'.drawing 7).writeOutput p "new" = (fs.drawing 7).writeOutput p "new" := by
  intro fs p fs'
  have hfree : fs.LinkFree (Path.directory p) := by decide +kernel
  have hwrite : fs.writeOutput p "old" = (fs', .ok ()) := by decide +kernel
  obtain ⟨hsame, l, -, hother⟩ := (last_write_wins fs p).2 hfree "old" fs' hwrite
  exact ⟨hfree, hwrite, hsame, (hother "new" 7 (by decide)).2⟩

example :
    let fs : FileSystem :=
      { entries := [([[100]], .directory), ([[108]], .link [100])], workingDirectory := [] }
    let p : Path := [108, 47, 46, 46, 47, 108]
    let fs' := (fs.writeOutput p "old").1
    (fs.writeOutput p "old").2 = .ok () ∧ ¬fs.LinkFree (Path.directory p) ∧
      (fs'.writeOutput p "new").2 = .error (.ofFileError .notDirectory) := by
  decide +kernel

end ServiceHarness.Storage.FileSystem
